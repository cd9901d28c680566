import AramoPlatform.Lib.Graph
import AramoPlatform.Placement.Remedies

/-!
# Where a placement comes from

No foreign key ties a placement to its offer, to the placement that it replaces
or to the assignment that it was converted from. What an operation compares
before it writes a link stays so: ended assignments, accepted offers and
placements that are over do not change. The one thing that is not compared is
whose offer it is.
-/

namespace AramoPlatform.Placement

open Lib PlacementTx List

/-! ## What stays -/

/-- The ids by which rows are updated. -/
structure RowIds (d : PlacementDb) : Prop where
  placements : (d.placements.map (·.id)).Nodup
  assignments : (d.assignments.map (·.id)).Nodup

/-- The rows of the first state are still there, and what was final is as it
was. -/
structure Later (d d' : PlacementDb) : Prop where
  placements : ∀ (i : Nat) (p : PlacementProcess), d.placements[i]? = some p →
    ∃ p', d'.placements[i]? = some p' ∧ p'.fixed = p.fixed ∧
      (p.state.targets = [] → p'.state = p.state)
  assignments : ∀ a ∈ d.assignments, ∃ a' ∈ d'.assignments, a'.fixed = a.fixed ∧
    (a.lifecycleState = .ended → a'.lifecycleState = .ended ∧ a'.endReason = a.endReason)
  permanents : ∀ p ∈ d.permanents, ∃ p' ∈ d'.permanents, p'.fixed = p.fixed
  offers : ∀ o ∈ d.offers, o.state = .accepted → o ∈ d'.offers
  lineages : ∀ l ∈ d.lineages, l ∈ d'.lineages

namespace Later

variable {d d' d'' : PlacementDb}

theorem refl (d : PlacementDb) : Later d d where
  placements _ p hp := ⟨p, hp, rfl, fun _ => rfl⟩
  assignments a ha := ⟨a, ha, rfl, fun hended => ⟨hended, rfl⟩⟩
  permanents p hp := ⟨p, hp, rfl⟩
  offers _ ho _ := ho
  lineages _ hl := hl

theorem trans (h : Later d d') (h' : Later d' d'') : Later d d'' where
  placements i p hp := by
    obtain ⟨p', hp', hfixed, hstate⟩ := h.placements i p hp
    obtain ⟨p'', hp'', hfixed', hstate'⟩ := h'.placements i p' hp'
    refine ⟨p'', hp'', hfixed'.trans hfixed, fun hfinal => ?_⟩
    have hsame := hstate hfinal
    exact (hstate' (hsame ▸ hfinal)).trans hsame
  assignments a ha := by
    obtain ⟨a', ha', hfixed, hended⟩ := h.assignments a ha
    obtain ⟨a'', ha'', hfixed', hended'⟩ := h'.assignments a' ha'
    refine ⟨a'', ha'', hfixed'.trans hfixed, fun hend => ?_⟩
    obtain ⟨hstate, hreason⟩ := hended hend
    obtain ⟨hstate', hreason'⟩ := hended' hstate
    exact ⟨hstate', hreason'.trans hreason⟩
  permanents p hp := by
    obtain ⟨p', hp', hfixed⟩ := h.permanents p hp
    obtain ⟨p'', hp'', hfixed'⟩ := h'.permanents p' hp'
    exact ⟨p'', hp'', hfixed'.trans hfixed⟩
  offers o ho haccepted := h'.offers o (h.offers o ho haccepted) haccepted
  lineages l hl := h'.lineages l (h.lineages l hl)

theorem placement (h : Later d d') {p : PlacementProcess} (hp : p ∈ d.placements) :
    ∃ p' ∈ d'.placements, p'.fixed = p.fixed ∧ (p.state.targets = [] → p'.state = p.state) := by
  obtain ⟨i, hi⟩ := mem_iff_getElem?.mp hp
  obtain ⟨p', hp', hrest⟩ := h.placements i p hi
  exact ⟨p', mem_of_getElem? hp', hrest⟩

theorem setState {id : Nat} {target : PlacementState} (hids : RowIds d)
    (hallowed : (PlacementWrite.setState id target).allowed d = true) :
    Later d ((PlacementWrite.setState id target).apply d) := by
  obtain ⟨p, hfound, hedge⟩ : ∃ p, d.placements.find? (·.id == id) = some p ∧
      canTransition p.state target = true := by
    simpa [PlacementWrite.allowed, Option.any_eq_true] using hallowed
  refine { refl d with placements := fun i q hq => ?_ }
  refine ⟨if q.id == id then q.setState target else q, ?_, ?_, fun hfinal => ?_⟩
  · simp only [PlacementWrite.apply, updateWhere, getElem?_map, hq]
    rfl
  · split <;> rfl
  · -- the row that is updated has a way on
    split
    next hid =>
      have hpid : p.id = id := by simpa using find?_some hfound
      have hqid : q.id = p.id := (eq_of_beq hid).trans hpid.symm
      obtain rfl := inj_on_of_nodup_map hids.placements (mem_of_getElem? hq)
        (mem_of_find?_eq_some hfound) hqid
      simp [canTransition, hfinal] at hedge
    · rfl

theorem setEnded {id endedAt : Nat} {reason : AssignmentEndReason} (hids : RowIds d)
    (hallowed : (AssignmentWrite.setEnded id reason endedAt).allowed d = true) :
    Later d ((AssignmentWrite.setEnded id reason endedAt).apply d) := by
  obtain ⟨a, hfound, hcan⟩ : ∃ a, d.assignments.find? (·.id == id) = some a ∧
      (a.lifecycleState = .active ∨ a.endReason = some reason) := by
    simpa [AssignmentWrite.allowed, Option.any_eq_true] using hallowed
  refine { refl d with assignments := fun b hb => ?_ }
  refine exists_updateWhere hb (fun _ => ⟨rfl, fun hended => ⟨hended, rfl⟩⟩) fun hid =>
    ⟨rfl, fun hended => ⟨rfl, ?_⟩⟩
  have haid : a.id = id := by simpa using find?_some hfound
  have hbid : b.id = a.id := (eq_of_beq hid).trans haid.symm
  obtain rfl := inj_on_of_nodup_map hids.assignments hb (mem_of_find?_eq_some hfound) hbid
  rcases hcan with hactive | hsame
  · rw [hended] at hactive
    cases hactive
  · exact hsame.symm

theorem updateOffer {u : OfferUpdate} (hallowed : u.allowed d = true) : Later d (u.apply d) := by
  refine { refl d with offers := fun o ho haccepted => ?_ }
  refine mem_updateWhere_of_not ho ?_
  cases hhit : u.hits o with
  | false => rfl
  | true =>
    have hedge := all_eq_true.mp hallowed o ho
    simp [hhit, haccepted, isLegalOfferTransition, OfferState.targets] at hedge

/-- **Every write** that is allowed. -/
theorem write {w : Write} (hids : RowIds d) (hallowed : w.allowed d = true) :
    Later d (w.apply d) := by
  cases w with
  | placement w =>
    cases w with
    | insert row =>
      refine { refl d with placements := fun i p hp => ⟨p, ?_, rfl, fun _ => rfl⟩ }
      exact getElem?_append_left (List.getElem?_eq_some_iff.mp hp).1 ▸ hp
    | setState id target => exact setState hids hallowed
    | event entry => exact { refl d with }
  | assignment w =>
    cases w with
    | insert row =>
      refine { refl d with assignments := fun a ha => ?_ }
      exact ⟨a, mem_append_left _ ha, rfl, fun hended => ⟨hended, rfl⟩⟩
    | setEnded id reason endedAt => exact setEnded hids hallowed
  | permanent w =>
    cases w with
    | event entry => exact { refl d with }
    | insert row =>
      exact { refl d with permanents := fun p hp => ⟨p, mem_append_left _ hp, rfl⟩ }
    | setState id target | recordFalloff id falloff =>
      refine { refl d with permanents := fun p hp => ?_ }
      exact exists_of_prefix_map (Persists.write d (.permanent _)).permanents hp
  | offer w =>
    cases w with
    | insert row => exact { refl d with offers := fun o ho _ => mem_append_left _ ho }
    | event entry | insertRevision row => exact { refl d with }
  | lineage row => exact { refl d with lineages := fun l hl => mem_append_left _ hl }
  | rateVersion w | remedy w | proposal w | term w => cases w <;> exact { refl d with }
  | outbox event => exact { refl d with }

end Later

namespace RowIds

variable {d : PlacementDb}

theorem write {w : Write} (h : RowIds d) (hallowed : w.allowed d = true) : RowIds (w.apply d) := by
  cases w with
  | placement w =>
    cases w with
    | event entry => exact ⟨h.placements, h.assignments⟩
    | setState id target =>
      exact ⟨nodup_updateWhere (fun _ => rfl) h.placements, h.assignments⟩
    | insert row =>
      exact ⟨nodup_concat h.placements (Journaled.fresh_of_insert hallowed), h.assignments⟩
  | assignment w =>
    cases w with
    | setEnded id reason endedAt =>
      exact ⟨h.placements, nodup_updateWhere (fun _ => rfl) h.assignments⟩
    | insert row =>
      refine ⟨h.placements, nodup_concat h.assignments fun a ha => ?_⟩
      have hfresh := all_eq_true.mp hallowed a ha
      simp only [Bool.and_eq_true, bne_iff_ne] at hfresh
      exact hfresh.1
  | permanent w | offer w | rateVersion w | remedy w | proposal w | term w =>
    cases w <;> exact ⟨h.placements, h.assignments⟩
  | lineage row | outbox event => exact ⟨h.placements, h.assignments⟩

theorem writes {ws : List Write} (h : RowIds d) (hadmits : admitsAll ws d = true) :
    RowIds (applyAll ws d) ∧ Later d (applyAll ws d) :=
  applyAll_induction (I := fun d' => RowIds d' ∧ Later d d')
    (fun _ _ _ hallowed hd => ⟨hd.1.write hallowed, hd.2.trans (Later.write hd.1 hallowed)⟩) hadmits
    ⟨h, Later.refl d⟩

end RowIds

/-! ## The links -/

/-- A replacement names an earlier placement of the requisition that is over. -/
def ReplacesEarlier (placements : List PlacementProcess) : Prop :=
  ∀ (i : Nat) (p : PlacementProcess), placements[i]? = some p →
    ∀ r, p.replacesPlacementProcessId = some r →
      ∃ j q, j < i ∧ placements[j]? = some q ∧ q.id = r ∧
        q.engagement.tenantId = p.engagement.tenantId ∧
        q.engagement.requisitionId = p.engagement.requisitionId ∧ q.state.guardInactive = true

/-- What a conversion has joined. -/
structure Converted (d : PlacementDb) (l : ConversionLineage) (source target : PlacementProcess)
    (a : ContractAssignment) (permanent : PermanentPlacement) : Prop where
  source_mem : source ∈ d.placements
  source_id : source.id = l.sourcePlacementProcessId
  source_state : source.state = .started
  source_tenant : source.engagement.tenantId = l.tenantId
  assignment_mem : a ∈ d.assignments
  assignment_id : a.id = l.sourceContractAssignmentId
  assignment_of : a.placementProcessId = source.id
  assignment_state : a.lifecycleState = .ended
  assignment_reason : a.endReason = some .convertedToPermanent
  target_mem : target ∈ d.placements
  target_id : target.id = l.targetPlacementProcessId
  permanent_mem : permanent ∈ d.permanents
  permanent_id : permanent.id = l.targetPermanentPlacementId
  permanent_of : permanent.placementProcessId = target.id
  source_engagement : source.engagement = permanent.engagement
  target_engagement : target.engagement = permanent.engagement

/-- The accepted offer of a placement, with its submittal, requisition and
talent. -/
def OfferedTo (d : PlacementDb) (p : PlacementProcess) : Prop :=
  ∃ o ∈ d.offers, p.offerId = some o.id ∧ o.engagement = p.engagement ∧ o.state = .accepted

/-- The placement was started by a conversion. -/
def IsTarget (d : PlacementDb) (p : PlacementProcess) : Prop :=
  ∃ l ∈ d.lineages, l.targetPlacementProcessId = p.id

structure LineageSound (d : PlacementDb) : Prop where
  offered : ∀ p ∈ d.placements, IsTarget d p ∨ OfferedTo d p
  replaced : ReplacesEarlier d.placements
  contracts : ∀ a ∈ d.assignments, ∃ p ∈ d.placements, p.id = a.placementProcessId ∧
    p.engagement = a.engagement ∧ p.placementKind ≠ some .permanent
  permanents : ∀ x ∈ d.permanents, ∃ p ∈ d.placements, p.id = x.placementProcessId ∧
    p.engagement = x.engagement ∧ p.placementKind = some .permanent
  converted : ∀ l ∈ d.lineages, ∃ source target a x, Converted d l source target a x
  sources : (d.lineages.map (·.sourcePlacementProcessId)).Nodup
  targets : (d.lineages.map (·.targetPlacementProcessId)).Nodup

theorem lineageSound_empty : LineageSound .empty := by
  constructor <;> simp [PlacementDb.empty, ReplacesEarlier]

/-! ## Links that stay -/

section Links

variable {d d' : PlacementDb}

theorem Converted.later {l : ConversionLineage} {source target : PlacementProcess}
    {a : ContractAssignment} {x : PermanentPlacement} (h : Converted d l source target a x)
    (hlater : Later d d') : ∃ source' target' a' x', Converted d' l source' target' a' x' := by
  obtain ⟨source', hsource, hfixed, hstate⟩ := hlater.placement h.source_mem
  obtain ⟨target', htarget, htfixed, -⟩ := hlater.placement h.target_mem
  obtain ⟨a', ha, hafixed, hended⟩ := hlater.assignments a h.assignment_mem
  obtain ⟨x', hx, hxfixed⟩ := hlater.permanents x h.permanent_mem
  obtain ⟨hstate', hreason⟩ := hended h.assignment_state
  have hfinal : source.state.targets = [] := by
    rw [h.source_state]
    rfl
  obtain ⟨hsid, hse, -⟩ := PlacementProcess.of_fixed hfixed
  obtain ⟨htid, hte, -⟩ := PlacementProcess.of_fixed htfixed
  obtain ⟨haid, -, haof⟩ := ContractAssignment.of_fixed hafixed
  obtain ⟨hxid, hxe, hxof⟩ := PermanentPlacement.of_fixed hxfixed
  exact ⟨source', target', a', x', {
    source_mem := hsource
    source_id := hsid.trans h.source_id
    source_state := (hstate hfinal).trans h.source_state
    source_tenant := hse ▸ h.source_tenant
    assignment_mem := ha
    assignment_id := haid.trans h.assignment_id
    assignment_of := (haof.trans h.assignment_of).trans hsid.symm
    assignment_state := hstate'
    assignment_reason := hreason.trans h.assignment_reason
    target_mem := htarget
    target_id := htid.trans h.target_id
    permanent_mem := hx
    permanent_id := hxid.trans h.permanent_id
    permanent_of := (hxof.trans h.permanent_of).trans htid.symm
    source_engagement := (hse.trans h.source_engagement).trans hxe.symm
    target_engagement := (hte.trans h.target_engagement).trans hxe.symm }⟩

theorem OfferedTo.later {p p' : PlacementProcess} (h : OfferedTo d p) (hlater : Later d d')
    (hfixed : p'.fixed = p.fixed) : OfferedTo d' p' := by
  obtain ⟨o, ho, hid, hengagement, haccepted⟩ := h
  obtain ⟨-, hsame, hoffer, -⟩ := PlacementProcess.of_fixed hfixed
  exact ⟨o, hlater.offers o ho haccepted, hoffer.trans hid, hengagement.trans hsame.symm, haccepted⟩

theorem IsTarget.later {p p' : PlacementProcess} (h : IsTarget d p) (hlater : Later d d')
    (hfixed : p'.fixed = p.fixed) : IsTarget d' p' := by
  obtain ⟨l, hl, htarget⟩ := h
  exact ⟨l, hlater.lineages l hl, htarget.trans (PlacementProcess.of_fixed hfixed).1.symm⟩

theorem exists_of_map_fixed {α β : Type} {f : α → β} {rows rows' : List α}
    (h : rows'.map f = rows.map f) {x' : α} (hx : x' ∈ rows') : ∃ x ∈ rows, f x = f x' :=
  mem_map.mp (h ▸ mem_map_of_mem hx)

theorem ReplacesEarlier.later (h : ReplacesEarlier d.placements) (hlater : Later d d')
    (hsame : d'.placements.map PlacementProcess.fixed = d.placements.map PlacementProcess.fixed) :
    ReplacesEarlier d'.placements := by
  intro i p' hp' r hr
  have hcolumn : (d.placements[i]?).map PlacementProcess.fixed = some p'.fixed := by
    rw [← getElem?_map, ← hsame, getElem?_map, hp']
    rfl
  obtain ⟨p, hp, hfixed⟩ := Option.map_eq_some_iff.mp hcolumn
  obtain ⟨-, hengagement, -, -, hreplaces⟩ := PlacementProcess.of_fixed hfixed
  obtain ⟨j, q, hlt, hq, hid, htenant, hrequisition, hover⟩ := h i p hp r (hreplaces.trans hr)
  obtain ⟨q', hq', hqfixed, hstate⟩ := hlater.placements j q hq
  obtain ⟨hqid, hqe, -⟩ := PlacementProcess.of_fixed hqfixed
  have hfinal : q.state.targets = [] := by
    revert hover
    cases q.state <;> decide
  refine ⟨j, q', hlt, hq', hqid.trans hid, ?_, ?_, ?_⟩
  · rw [hqe, htenant, hengagement]
  · rw [hqe, hrequisition, hengagement]
  · rw [hstate hfinal]
    exact hover

theorem LineageSound.of_later (h : LineageSound d) (hlater : Later d d')
    (hp : d'.placements.map PlacementProcess.fixed = d.placements.map PlacementProcess.fixed)
    (ha : d'.assignments.map ContractAssignment.fixed = d.assignments.map ContractAssignment.fixed)
    (hx : d'.permanents.map PermanentPlacement.fixed = d.permanents.map PermanentPlacement.fixed)
    (hl : d'.lineages = d.lineages) : LineageSound d' where
  offered p' hp' := by
    obtain ⟨p, hmem, hfixed⟩ := exists_of_map_fixed hp hp'
    rcases h.offered p hmem with htarget | hoffer
    · exact .inl (htarget.later hlater hfixed.symm)
    · exact .inr (hoffer.later hlater hfixed.symm)
  replaced := h.replaced.later hlater hp
  contracts a' ha' := by
    obtain ⟨a, hmem, hfixed⟩ := exists_of_map_fixed ha ha'
    obtain ⟨p, hp, hid, hengagement, hkind⟩ := h.contracts a hmem
    obtain ⟨p', hp', hpfixed, -⟩ := hlater.placement hp
    obtain ⟨-, hae, haof⟩ := ContractAssignment.of_fixed hfixed
    obtain ⟨hpid, hpe, -, hpk, -⟩ := PlacementProcess.of_fixed hpfixed
    exact ⟨p', hp', (hpid.trans hid).trans haof, (hpe.trans hengagement).trans hae, hpk ▸ hkind⟩
  permanents x' hx' := by
    obtain ⟨x, hmem, hfixed⟩ := exists_of_map_fixed hx hx'
    obtain ⟨p, hp, hid, hengagement, hkind⟩ := h.permanents x hmem
    obtain ⟨p', hp', hpfixed, -⟩ := hlater.placement hp
    obtain ⟨-, hxe, hxof⟩ := PermanentPlacement.of_fixed hfixed
    obtain ⟨hpid, hpe, -, hpk, -⟩ := PlacementProcess.of_fixed hpfixed
    exact ⟨p', hp', (hpid.trans hid).trans hxof, (hpe.trans hengagement).trans hxe, hpk.trans hkind⟩
  converted l hmem := by
    obtain ⟨source, target, a, x, hconverted⟩ := h.converted l (hl ▸ hmem)
    exact hconverted.later hlater
  sources := hl ▸ h.sources
  targets := hl ▸ h.targets

/-! ## Writes -/

/-- The writes that add a link, or a row that links are about. -/
def WriteKind.links : WriteKind → Bool
  | .insertPlacement | .insertAssignment | .insertPermanent | .lineage => true
  | _ => false

theorem LineageSound.write (h : LineageSound d) (hids : RowIds d) {w : Write}
    (hw : w.kind.links = false) (hallowed : w.allowed d = true) : LineageSound (w.apply d) := by
  have hlater := Later.write hids hallowed
  cases w with
  | placement w =>
    cases w with
    | insert row => cases hw
    | setState id target => exact h.of_later hlater (map_updateWhere _ fun _ => rfl) rfl rfl rfl
    | event entry => exact h.of_later hlater rfl rfl rfl rfl
  | assignment w =>
    cases w with
    | insert row => cases hw
    | setEnded id reason endedAt =>
      exact h.of_later hlater rfl (map_updateWhere _ fun _ => rfl) rfl rfl
  | permanent w =>
    cases w with
    | insert row => cases hw
    | setState id target | recordFalloff id falloff =>
      exact h.of_later hlater rfl rfl (map_updateWhere _ fun _ => rfl) rfl
    | event entry => exact h.of_later hlater rfl rfl rfl rfl
  | lineage row => cases hw
  | offer w | rateVersion w | remedy w | proposal w | term w =>
    cases w <;> exact h.of_later hlater rfl rfl rfl rfl
  | outbox event => exact h.of_later hlater rfl rfl rfl rfl

theorem LineageSound.writes (h : LineageSound d) (hids : RowIds d) {ws : List Write}
    (hws : ∀ w ∈ ws, w.kind.links = false) (hadmits : admitsAll ws d = true) :
    LineageSound (applyAll ws d) := by
  refine (applyAll_induction (I := fun d' => RowIds d' ∧ LineageSound d') ?_ hadmits ⟨hids, h⟩).2
  intro w hw d' hallowed hd
  exact ⟨hd.1.write hallowed, hd.2.write hd.1 (hws w hw) hallowed⟩

theorem ReplacesEarlier.append {placements : List PlacementProcess} (h : ReplacesEarlier placements)
    {row : PlacementProcess}
    (hrow : ∀ r, row.replacesPlacementProcessId = some r → ∃ q ∈ placements, q.id = r ∧
      q.engagement.tenantId = row.engagement.tenantId ∧
      q.engagement.requisitionId = row.engagement.requisitionId ∧ q.state.guardInactive = true) :
    ReplacesEarlier (placements ++ [row]) := by
  intro i p hp r hr
  by_cases hi : i < placements.length
  · rw [getElem?_append_left hi] at hp
    obtain ⟨j, q, hlt, hq, hrest⟩ := h i p hp r hr
    exact ⟨j, q, hlt, (getElem?_append_left (hlt.trans hi)).trans hq, hrest⟩
  · -- the last row
    have hle := Nat.not_lt.mp hi
    rw [getElem?_append_right hle] at hp
    obtain ⟨-, rfl⟩ : i - placements.length = 0 ∧ row = p := by
      cases hk : i - placements.length with
      | zero =>
        rw [hk] at hp
        exact ⟨rfl, Option.some.inj hp⟩
      | succ k =>
        rw [hk] at hp
        cases hp
    obtain ⟨q, hq, hrest⟩ := hrow r hr
    obtain ⟨j, hj⟩ := mem_iff_getElem?.mp hq
    have hlt : j < placements.length := (List.getElem?_eq_some_iff.mp hj).1
    exact ⟨j, q, hlt.trans_le hle, (getElem?_append_left hlt).trans hj, hrest⟩

section

variable (h : LineageSound d)

include h

theorem LineageSound.insertPlacement {row : PlacementProcess}
    (hoffer : OfferedTo d row)
    (hrow : ∀ r, row.replacesPlacementProcessId = some r → ∃ q ∈ d.placements, q.id = r ∧
      q.engagement.tenantId = row.engagement.tenantId ∧
      q.engagement.requisitionId = row.engagement.requisitionId ∧ q.state.guardInactive = true) :
    LineageSound ((PlacementWrite.insert row).apply d) where
  offered p hp := by
    rcases (mem_append.mp hp).imp_right mem_singleton.mp with hold | rfl
    · exact h.offered p hold
    · exact .inr hoffer
  replaced := h.replaced.append hrow
  contracts a ha := by
    obtain ⟨p, hp, hrest⟩ := h.contracts a ha
    exact ⟨p, mem_append_left _ hp, hrest⟩
  permanents x hx := by
    obtain ⟨p, hp, hrest⟩ := h.permanents x hx
    exact ⟨p, mem_append_left _ hp, hrest⟩
  converted l hl := by
    obtain ⟨source, target, a, x, hconverted⟩ := h.converted l hl
    exact ⟨source, target, a, x, { hconverted with
      source_mem := mem_append_left _ hconverted.source_mem
      target_mem := mem_append_left _ hconverted.target_mem }⟩
  sources := h.sources
  targets := h.targets

theorem LineageSound.insertAssignment (row : ContractAssignment)
    (hrow : ∃ p ∈ d.placements, p.id = row.placementProcessId ∧ p.engagement = row.engagement ∧
      p.placementKind ≠ some .permanent) :
    LineageSound ((AssignmentWrite.insert row).apply d) where
  offered := h.offered
  replaced := h.replaced
  contracts a ha := by
    rcases (mem_append.mp ha).imp_right mem_singleton.mp with hold | rfl
    · exact h.contracts a hold
    · exact hrow
  permanents := h.permanents
  converted l hl := by
    obtain ⟨source, target, a, x, hconverted⟩ := h.converted l hl
    exact ⟨source, target, a, x, { hconverted with
      assignment_mem := mem_append_left _ hconverted.assignment_mem }⟩
  sources := h.sources
  targets := h.targets

theorem LineageSound.insertPermanent (row : PermanentPlacement)
    (hrow : ∃ p ∈ d.placements, p.id = row.placementProcessId ∧ p.engagement = row.engagement ∧
      p.placementKind = some .permanent) :
    LineageSound ((PermanentWrite.insert row).apply d) where
  offered := h.offered
  replaced := h.replaced
  contracts := h.contracts
  permanents x hx := by
    rcases (mem_append.mp hx).imp_right mem_singleton.mp with hold | rfl
    · exact h.permanents x hold
    · exact hrow
  converted l hl := by
    obtain ⟨source, target, a, x, hconverted⟩ := h.converted l hl
    exact ⟨source, target, a, x, { hconverted with
      permanent_mem := mem_append_left _ hconverted.permanent_mem }⟩
  sources := h.sources
  targets := h.targets

/-- A conversion of an assignment that it has ended: the target, its permanent
placement and the link. -/
theorem LineageSound.convert {l : ConversionLineage}
    {source target : PlacementProcess} {a : ContractAssignment} {x : PermanentPlacement}
    (htargetId : ∀ p ∈ d.placements, p.id ≠ target.id)
    (hreplaces : target.replacesPlacementProcessId = none)
    (hkind : target.placementKind = some .permanent)
    (hsource : ∀ l' ∈ d.lineages, l'.sourcePlacementProcessId ≠ l.sourcePlacementProcessId)
    (hp : d'.placements = d.placements ++ [target]) (ha : d'.assignments = d.assignments)
    (hx : d'.permanents = d.permanents ++ [x]) (hl : d'.lineages = d.lineages ++ [l])
    (ho : d'.offers = d.offers) (hconverted : Converted d' l source target a x) :
    LineageSound d' where
  offered p hmem := by
    rw [hp] at hmem
    rcases (mem_append.mp hmem).imp_right mem_singleton.mp with hold | rfl
    · rcases h.offered p hold with ⟨l', hl', htarget⟩ | hoffer
      · exact .inl ⟨l', hl ▸ mem_append_left _ hl', htarget⟩
      · exact .inr (by simpa only [OfferedTo, ho] using hoffer)
    · exact .inl ⟨l, by simp [hl], hconverted.target_id.symm⟩
  replaced := by
    rw [hp]
    refine h.replaced.append fun r hr => ?_
    rw [hreplaces] at hr
    cases hr
  contracts b hb := by
    obtain ⟨p, hmem, hrest⟩ := h.contracts b (ha ▸ hb)
    exact ⟨p, hp ▸ mem_append_left _ hmem, hrest⟩
  permanents y hy := by
    rw [hx] at hy
    rcases (mem_append.mp hy).imp_right mem_singleton.mp with hold | rfl
    · obtain ⟨p, hmem, hrest⟩ := h.permanents y hold
      exact ⟨p, hp ▸ mem_append_left _ hmem, hrest⟩
    · exact ⟨target, hconverted.target_mem, hconverted.permanent_of.symm,
        hconverted.target_engagement, hkind⟩
  converted l' hl' := by
    rw [hl] at hl'
    rcases (mem_append.mp hl').imp_right mem_singleton.mp with hold | rfl
    · obtain ⟨source', target', a', x', hjoined⟩ := h.converted l' hold
      exact ⟨source', target', a', x', { hjoined with
        source_mem := hp ▸ mem_append_left _ hjoined.source_mem
        assignment_mem := ha ▸ hjoined.assignment_mem
        target_mem := hp ▸ mem_append_left _ hjoined.target_mem
        permanent_mem := hx ▸ mem_append_left _ hjoined.permanent_mem }⟩
    · exact ⟨source, target, a, x, hconverted⟩
  sources := by
    rw [hl]
    exact nodup_concat h.sources hsource
  targets := by
    rw [hl]
    refine nodup_concat h.targets fun l' hl' hsame => ?_
    -- the target of an older link is an older placement
    obtain ⟨source', target', a', x', hjoined⟩ := h.converted l' hl'
    refine htargetId target' hjoined.target_mem ?_
    rw [hjoined.target_id, hsame, hconverted.target_id]

end

end Links

/-! ## Programs -/

/-- A placement is created under an offer of its own submittal, requisition and
talent. -/
def OfferIsOwn (d : PlacementDb) : PlacementOp → Prop
  | .createPlacement input _ => ∀ o ∈ d.offers, input.offerId = some o.id →
      o.engagement.tenantId = input.engagement.tenantId → o.engagement = input.engagement
  | _ => True

section Programs

variable {d : PlacementDb}

namespace LineageSound

section

variable (h : LineageSound d)

include h

theorem keeps {op : PlacementOp} (hids : RowIds d)
    (hkinds : op.kinds.all (fun k => !k.links) = true) :
    (placementProgram op).wp exactly (fun _ d' => RowIds d' ∧ LineageSound d') d := by
  refine wp_of_kinds (I := fun d' => RowIds d' ∧ LineageSound d') ?_ ?_ ⟨hids, h⟩
  · intro w d' hw hallowed hd
    have hplain : w.kind.links = false := by simpa using all_eq_true.mp hkinds _ hw
    exact ⟨hd.1.write hallowed, hd.2.write hd.1 hplain hallowed⟩
  · intro u d' _ hallowed hd
    exact ⟨⟨hd.1.placements, hd.1.assignments⟩,
      hd.2.of_later (Later.updateOffer hallowed) rfl rfl rfl rfl⟩

theorem createPlacement (hids : RowIds d) (input : CreatePlacementInput)
    (now : Nat) (hown : OfferIsOwn d (.createPlacement input now)) :
    (PlacementTx.createPlacement input now).wp exactly
      (fun _ d' => RowIds d' ∧ LineageSound d') d := by
  refine wp_createPlacement fun offerId offer id hofferId hpredecessor haccepted _ => ?_
  intro row ws hadmits
  refine ⟨(hids.writes hadmits).1, ?_⟩
  obtain ⟨hinsert, houtbox⟩ := (admitsAll_cons _ _ _).mp hadmits
  have hmem := mem_of_find?_eq_some (Eq.symm haccepted)
  have hfound := find?_some (Eq.symm haccepted)
  simp only [Bool.and_eq_true, beq_iff_eq] at hfound
  obtain ⟨⟨htenant, hid⟩, hstate⟩ := hfound
  have hengagement := hown offer hmem (hofferId.trans (congrArg some hid.symm)) htenant
  have hoffer : OfferedTo d row := ⟨offer, hmem, congrArg some hid.symm, hengagement, hstate⟩
  refine (h.insertPlacement hoffer fun r hr => ?_).writes (hids.write hinsert) ?_ houtbox
  · obtain ⟨q, hq, hrequisition, hover⟩ := hpredecessor r hr
    have hqfound := find?_some (Eq.symm hq)
    simp only [Bool.and_eq_true, beq_iff_eq] at hqfound
    exact ⟨q, mem_of_find?_eq_some (Eq.symm hq), hqfound.2, hqfound.1, hrequisition, hover⟩
  · exact forall_mem_singleton.mpr rfl

theorem transition (hids : RowIds d) (input : TransitionInput) :
    (PlacementTx.transition input).wp exactly (fun _ d' => RowIds d' ∧ LineageSound d') d := by
  have hmove : ∀ current target, ∀ w ∈ moveWrites current target, w.kind.links = false := by
    intro current target w hw
    simp only [moveWrites, mem_cons, not_mem_nil, or_false] at hw
    rcases hw with rfl | rfl | rfl <;> rfl
  refine wp_transition ?_ ?_ ?_
  · intro current _ _ _ hadmits
    exact ⟨(hids.writes hadmits).1, h.writes hids (hmove _ _) hadmits⟩
  · intro current assignmentId versionId companyId terms recordedBy hcurrent _ hkind a ws hadmits
    refine ⟨(hids.writes hadmits).1, ?_⟩
    obtain ⟨hmoved, hcontract⟩ := admitsAll_append.mp hadmits
    obtain ⟨hinsert, hrest⟩ := (admitsAll_cons _ _ _).mp hcontract
    obtain ⟨hids', hlater⟩ := hids.writes hmoved
    obtain ⟨p, hp, hfixed, -⟩ := hlater.placement (mem_of_find?_eq_some (Eq.symm hcurrent))
    obtain ⟨hpid, hpe, -, hpk, -⟩ := PlacementProcess.of_fixed hfixed
    have hopened := (h.writes hids (hmove _ _) hmoved).insertAssignment a
      ⟨p, hp, hpid, hpe, hpk ▸ hkind⟩
    show LineageSound (applyAll (moveWrites current .started ++ _) d)
    rw [applyAll_append]
    refine hopened.writes (hids'.write hinsert) (fun w hw => ?_) hrest
    simp only [mem_cons, not_mem_nil, or_false] at hw
    rcases hw with rfl | rfl <;> rfl
  · intro current id guarantee hcurrent _ hkind row ws hadmits
    refine ⟨(hids.writes hadmits).1, ?_⟩
    simp only [ws, append_assoc] at hadmits ⊢
    obtain ⟨hmoved, hpermanent⟩ := admitsAll_append.mp hadmits
    obtain ⟨hinsert, hrest⟩ := (admitsAll_cons _ _ _).mp hpermanent
    obtain ⟨hids', hlater⟩ := hids.writes hmoved
    obtain ⟨p, hp, hfixed, -⟩ := hlater.placement (mem_of_find?_eq_some (Eq.symm hcurrent))
    obtain ⟨hpid, hpe, -, hpk, -⟩ := PlacementProcess.of_fixed hfixed
    have hopened := (h.writes hids (hmove _ _) hmoved).insertPermanent row
      ⟨p, hp, hpid, hpe, hpk.trans hkind⟩
    rw [applyAll_append]
    refine hopened.writes (hids'.write hinsert) (fun w hw => ?_) hrest
    rcases mem_append.mp hw with hevent | houtbox
    · obtain rfl := mem_singleton.mp hevent
      rfl
    · simp only [permanentOutbox, mem_append, mem_cons, not_mem_nil, or_false,
        Option.mem_toList, Option.map_eq_some_iff] at houtbox
      rcases houtbox with (rfl | rfl) | ⟨v, -, rfl⟩ <;> rfl

theorem convertToPermanent (hids : RowIds d) (input : ConvertInput)
    (txNow : Nat) :
    (PlacementTx.convertToPermanent input txNow).wp exactly
      (fun _ d' => RowIds d' ∧ LineageSound d') d := by
  refine wp_convertToPermanent ⟨hids, h⟩ ?_
  intro source a versions guarantee targetId permanentId lineageId hprior hsource hstarted hactive _
    ended target x l started hended _ hstartedAdmits
  obtain ⟨hids', hlater⟩ := hids.writes hended
  have hids'' := (hids'.writes hstartedAdmits).1
  refine ⟨hids'', ?_⟩
  -- what was read
  have hsourceMem := mem_of_find?_eq_some (Eq.symm hsource)
  have hsourceFound := find?_some (Eq.symm hsource)
  have haMem := mem_of_find?_eq_some (Eq.symm hactive)
  have haFound := find?_some (Eq.symm hactive)
  simp only [Bool.and_eq_true, beq_iff_eq] at hsourceFound haFound
  obtain ⟨htenant, hsourceId⟩ := hsourceFound
  obtain ⟨⟨-, haOf⟩, -⟩ := haFound
  -- the placement of the assignment is the source
  obtain ⟨p, hp, hpid, hpe, -⟩ := h.contracts a haMem
  obtain rfl := inj_on_of_nodup_map hids.placements hp hsourceMem
    (hpid.trans (haOf.trans hsourceId.symm))
  obtain ⟨hplacements, hassignments, -, -, -⟩ :=
    tables_endWrites d a versions .convertedToPermanent txNow input.convertedBy
  obtain ⟨hp', ha', hx', hl', ho'⟩ := tables_conversionWrites (applyAll ended d) target x l
  have hsound : LineageSound (applyAll ended d) := by
    refine h.writes hids (fun w hw => ?_) hended
    have hkind := kind_of_mem_endWrites hw
    simp only [mem_cons, not_mem_nil, or_false] at hkind
    rcases hkind with hkind | hkind | hkind <;> rw [hkind] <;> rfl
  refine hsound.convert ?_ rfl rfl ?_ hp' ha' hx' hl' ho'
    (?_ : Converted _ l p target (a.setEnded .convertedToPermanent txNow) x)
  · exact Journaled.fresh_of_insert ((admitsAll_cons _ _ _).mp hstartedAdmits).1
  · intro l₀ hl₀ hsame
    obtain ⟨s₀, t₀, a₀, x₀, hjoined⟩ := hsound.converted l₀ hl₀
    have hs₀ : s₀ = p := by
      refine inj_on_of_nodup_map hids.placements (hplacements ▸ hjoined.source_mem) hp ?_
      exact hjoined.source_id.trans (hsame.trans hsourceId.symm)
    -- the conversion would have been found
    have hnone := find?_eq_none.mp (Eq.symm hprior) l₀ (by
      obtain ⟨-, -, -, hlineages, -⟩ :=
        tables_endWrites d a versions .convertedToPermanent txNow input.convertedBy
      exact hlineages ▸ hl₀)
    refine hnone (Bool.and_eq_true_iff.mpr ⟨beq_iff_eq.mpr ?_, beq_iff_eq.mpr hsame⟩)
    rw [← hjoined.source_tenant, hs₀, htenant]
  · have hend : a.setEnded .convertedToPermanent txNow ∈ (applyAll ended d).assignments :=
      hassignments ▸ mem_updateWhere_of_pos haMem (beq_self_eq_true _)
    exact {
      source_mem := hp' ▸ mem_append_left _ (hplacements ▸ hp)
      source_id := hsourceId
      source_state := hstarted
      source_tenant := htenant
      assignment_mem := ha' ▸ hend
      assignment_id := rfl
      assignment_of := haOf.trans hsourceId.symm
      assignment_state := rfl
      assignment_reason := rfl
      target_mem := hp' ▸ mem_append_right _ mem_cons_self
      target_id := rfl
      permanent_mem := hx' ▸ mem_append_right _ mem_cons_self
      permanent_id := rfl
      permanent_of := rfl
      source_engagement := hpe
      target_engagement := rfl }

end

end LineageSound

/-- **One operation**, if a placement is created under its own offer. -/
theorem lineageSound_placementProgram (op : PlacementOp) (hop : OfferIsOwn d op) (hids : RowIds d)
    (h : LineageSound d) :
    (placementProgram op).wp exactly (fun _ d' => RowIds d' ∧ LineageSound d') d := by
  cases op with
  | createPlacement input now => exact wp_giving (h.createPlacement hids input now hop)
  | transition input => exact wp_giving (h.transition hids input)
  | convertToPermanent input txNow => exact wp_giving (h.convertToPermanent hids input txNow)
  | _ => exact h.keeps hids (by rfl)

end Programs

/-! ## Runs -/

/-- One placement replaces another. -/
def Replaces (d : PlacementDb) (id replaced : Nat) : Prop :=
  ∃ p ∈ d.placements, p.id = id ∧ p.replacesPlacementProcessId = some replaced

/-- All links of the placements. -/
structure PlacementLineage (d : PlacementDb) : Prop where
  offered : ∀ p ∈ d.placements, ¬IsTarget d p → OfferedTo d p
  replaced : ReplacesEarlier d.placements
  acyclic : Acyclic (Replaces d)
  converted : ∀ l ∈ d.lineages, ∃ source target a x, Converted d l source target a x
  sources : (d.lineages.map (·.sourcePlacementProcessId)).Nodup
  targets : (d.lineages.map (·.targetPlacementProcessId)).Nodup
  apart : ∀ a ∈ d.assignments, ∀ x ∈ d.permanents, a.placementProcessId ≠ x.placementProcessId

section Lineage

variable {d : PlacementDb}

theorem acyclic_replaces (hids : RowIds d) (h : ReplacesEarlier d.placements) :
    Acyclic (Replaces d) := by
  refine acyclic_of_rank (fun id => (d.placements.map (·.id)).idxOf id) ?_
  rintro id replaced ⟨p, hp, rfl, hreplaced⟩
  have hposition : ∀ (i : Nat) (q : PlacementProcess), d.placements[i]? = some q →
      (d.placements.map (·.id)).idxOf q.id = i := by
    intro i q hq
    obtain ⟨hlt, rfl⟩ := List.getElem?_eq_some_iff.mp hq
    have hlt' : i < (d.placements.map (·.id)).length := by simpa using hlt
    simpa using hids.placements.idxOf_getElem i hlt'
  obtain ⟨i, hi⟩ := mem_iff_getElem?.mp hp
  obtain ⟨j, q, hlt, hj, rfl, -⟩ := h i p hi replaced hreplaced
  show idxOf q.id _ < idxOf p.id _
  rw [hposition j q hj, hposition i p hi]
  exact hlt

theorem LineageSound.lineage (h : LineageSound d) (hids : RowIds d) : PlacementLineage d where
  offered p hp hnot := (h.offered p hp).resolve_left hnot
  replaced := h.replaced
  acyclic := acyclic_replaces hids h.replaced
  converted := h.converted
  sources := h.sources
  targets := h.targets
  apart a ha x hx hsame := by
    obtain ⟨p, hp, hpid, -, hcontract⟩ := h.contracts a ha
    obtain ⟨q, hq, hqid, -, hpermanent⟩ := h.permanents x hx
    obtain rfl := inj_on_of_nodup_map hids.placements hp hq
      (hpid.trans (hsame.trans hqid.symm))
    exact hcontract hpermanent

end Lineage

/-- **Lineage.** In any order of operations in which placements are created
under offers of their own submittal, requisition and talent, every link of a
placement holds. -/
theorem placement_lineage_sound {calls : List (PlacementOp × List Nat)} {d : PlacementDb}
    (hrun : Run (AtomicStepOf OfferIsOwn) .empty calls d) : PlacementLineage d := by
  have hsound : RowIds d ∧ LineageSound d := by
    refine Run.invariant (I := fun d => RowIds d ∧ LineageSound d)
      (fun d call d' hd hstep => ?_) hrun
      ⟨⟨nodup_nil, nodup_nil⟩, lineageSound_empty⟩
    exact of_oneAtATime hstep.1 (lineageSound_placementProgram call.1 hstep.2 hd.1 hd.2)
  exact hsound.2.lineage hsound.1

/-! ### A conversion, and an offer to somebody else -/

instance decidableOfferIsOwn (d : PlacementDb) : (op : PlacementOp) → Decidable (OfferIsOwn d op)
  | .createPlacement input _ => inferInstanceAs (Decidable (∀ o ∈ d.offers,
      input.offerId = some o.id → o.engagement.tenantId = input.engagement.tenantId →
        o.engagement = input.engagement))
  | .transition _ | .endAssignment _ _ | .convertToPermanent _ _ | .createCommercialRevision _ _ _
  | .cancelCommercialRevision _ _ | .permanentTransition _ _ _ | .recordFalloff _ _
  | .completeRemedy _ _ | .createOffer _ | .transitionOffer _ |
      .expireOverdueOffers _ _ | .propose _
  | .moveProposal _ _ _ | .decideProposal _ _ | .createTerm _ | .reviseTerm _ _ | .countActive _ _ _
  | .countActiveIds _ _ _ => inferInstanceAs (Decidable True)

open Js

def firstRates : CommercialTerms := ⟨50, 80, js "USD", js "HOURLY"⟩

def startFirstContract : PlacementOp :=
  .transition ⟨1, 202, .started, true, some 3, some firstRates, some 7, none, none, 9⟩

/-- A contract assignment with the id 300, and guarantee terms for its
requisition. -/
def firstContract : List (PlacementOp × List Nat) :=
  [(createFirstOffer, [100]), (moveFirstOffer .sent, []), (moveFirstOffer .accepted, []),
    (createFirstPlacement, [202]), (moveFirstPlacement .readyToStart, []),
    (startFirstContract, [300, 301]), (.createTerm ⟨1, 20, 0, firstTerms, 7⟩, [500])]

def convertFirst : PlacementOp := .convertToPermanent ⟨1, 202, 7⟩ 1000

theorem placement_lineage_in_turn : ∃ d,
    Run (AtomicStepOf OfferIsOwn) .empty (firstContract ++ [(convertFirst, [600, 601, 602])]) d ∧
      d.lineages.map (·.targetPlacementProcessId) = [600] ∧ PlacementLineage d := by
  obtain ⟨d, hrun, hp⟩ := atomicRun_of_calls OfferIsOwn .empty
    (firstContract ++ [(convertFirst, [600, 601, 602])])
    (fun d => d.lineages.map (·.targetPlacementProcessId) == [600]) (by decide +kernel)
  exact ⟨d, hrun, beq_iff_eq.mp hp, placement_lineage_sound hrun⟩

/-- An accepted offer of another submittal, requisition and talent. -/
def otherOffer : List (PlacementOp × List Nat) :=
  [(.createOffer ⟨⟨1, 11, 21, 31⟩, plainTerms, 7⟩, [100]), (moveFirstOffer .sent, []),
    (moveFirstOffer .accepted, [])]

theorem placement_under_other_offer : ∃ d,
    Run AtomicStep .empty (otherOffer ++ [(createFirstPlacement, [202])]) d ∧
      ¬PlacementLineage d := by
  obtain ⟨d, hrun, hp⟩ := atomicRun_of_calls (fun _ _ => True) .empty
    (otherOffer ++ [(createFirstPlacement, [202])])
    (fun d => d.placements.map (·.engagement) == [firstEngagement] && d.lineages == [] &&
      d.offers.map (·.engagement) == [⟨1, 11, 21, 31⟩]) (by decide +kernel)
  simp only [Bool.and_eq_true, beq_iff_eq] at hp
  obtain ⟨⟨hplacements, hlineages⟩, hoffers⟩ := hp
  refine ⟨d, hrun.mono fun _ _ _ hstep => hstep.1, fun h => ?_⟩
  obtain ⟨p, hp, hfirst⟩ : ∃ p ∈ d.placements, p.engagement = firstEngagement :=
    mem_map.mp (hplacements ▸ mem_cons_self)
  have hnot : ¬IsTarget d p := by
    rintro ⟨l, hl, -⟩
    rw [hlineages] at hl
    cases hl
  obtain ⟨o, ho, -, hengagement, -⟩ := h.offered p hp hnot
  have hother : o.engagement ∈ [(⟨1, 11, 21, 31⟩ : Engagement)] := hoffers ▸ mem_map_of_mem ho
  rw [hengagement, hfirst] at hother
  revert hother
  decide

end AramoPlatform.Placement
