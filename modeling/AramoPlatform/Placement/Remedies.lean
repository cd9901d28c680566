import AramoPlatform.Placement.Journals

/-!
# Falloffs and their remedies

A falloff is recorded together with the remedy that is owed, and a remedy is
completed together with the placement. The generic transition takes any edge of
the registry, also those of the two commands; where it is only asked for the
end of a guarantee, the state says what there is of falloff and remedy.
-/

namespace AramoPlatform.Placement

open Lib PlacementTx List

def PlacementDb.remediesOf (d : PlacementDb) (permanentPlacementId : Nat) :
    List PermanentPlacementRemedy :=
  d.remedies.filter (·.permanentPlacementId == permanentPlacementId)

/-- The remedy that the policy of a placement names, and nothing else. -/
def Owes (p : PermanentPlacement) (own : List PermanentPlacementRemedy) (completed : Bool) : Prop :=
  p.falloff.isSome = true ∧ ∃ r, own = [r] ∧
    r.obligation.remedyType = p.guarantee.terms.remedyPolicy ∧ r.completion.isSome = completed

/-- What there is of falloff and remedy in each state. -/
def Settled (p : PermanentPlacement) (own : List PermanentPlacementRemedy) : Prop :=
  match p.lifecycleState with
  | .guaranteeActive | .guaranteeSatisfied => p.falloff = none ∧ own = []
  | .fellOff => False
  | .replacementDue | .refundDue | .proratedCreditDue =>
      p.lifecycleState = p.guarantee.terms.remedyPolicy.dueState ∧ Owes p own false
  | .remedyCompleted => Owes p own true

/-- The falloff facts, the remedy and the state of a placement go together. -/
structure FalloffPaired (d : PlacementDb) (p : PermanentPlacement) : Prop where
  passed : p.lifecycleState ≠ .fellOff
  owed_iff : p.lifecycleState.isRemedyDue = true ∨ p.lifecycleState = .remedyCompleted ↔
    p.falloff.isSome = true ∧ ∃ r, d.remediesOf p.id = [r] ∧
      r.obligation.remedyType = p.guarantee.terms.remedyPolicy
  due : p.lifecycleState.isRemedyDue = true →
    p.lifecycleState = p.guarantee.terms.remedyPolicy.dueState
  completed_iff : p.lifecycleState = .remedyCompleted ↔
    ∃ r ∈ d.remediesOf p.id, r.completion.isSome = true

theorem Settled.paired {d : PlacementDb} {p : PermanentPlacement}
    (h : Settled p (d.remediesOf p.id)) : FalloffPaired d p := by
  unfold Settled at h
  cases hstate : p.lifecycleState with
  | guaranteeActive | guaranteeSatisfied =>
    rw [hstate] at h
    constructor <;> simp [hstate, h.1, h.2, PermanentState.isRemedyDue]
  | fellOff =>
    rw [hstate] at h
    exact h.elim
  | replacementDue | refundDue | proratedCreditDue =>
    rw [hstate] at h
    obtain ⟨hdue, hfalloff, r, hown, htype, hcompletion⟩ := h
    constructor
    · simp [hstate]
    · simp [hstate, PermanentState.isRemedyDue, hfalloff, hown, htype]
    · exact fun _ => hstate.trans hdue
    · simpa [hstate, hown] using hcompletion
  | remedyCompleted =>
    rw [hstate] at h
    obtain ⟨hfalloff, r, hown, htype, hcompletion⟩ := h
    constructor
    · simp [hstate]
    · simp [hstate, PermanentState.isRemedyDue, hfalloff, hown, htype]
    · simp [hstate, PermanentState.isRemedyDue]
    · simp [hstate, hown, hcompletion]

structure RemedySound (d : PlacementDb) : Prop where
  permanentIds : (d.permanents.map (·.id)).Nodup
  remedyIds : (d.remedies.map (·.id)).Nodup
  owned : ∀ r ∈ d.remedies, ∃ p ∈ d.permanents, p.id = r.permanentPlacementId
  settled : ∀ p ∈ d.permanents, Settled p (d.remediesOf p.id)

theorem remedySound_empty : RemedySound .empty := by
  constructor <;> simp [PlacementDb.empty]

namespace RemedySound

variable {d : PlacementDb}

/-! ## Writes -/

theorem congr {d' : PlacementDb} (h : RemedySound d) (hpermanents : d'.permanents = d.permanents)
    (hremedies : d'.remedies = d.remedies) : RemedySound d' where
  permanentIds := hpermanents ▸ h.permanentIds
  remedyIds := hremedies ▸ h.remedyIds
  owned := by simpa only [hpermanents, hremedies] using h.owned
  settled := by simpa only [PlacementDb.remediesOf, hpermanents, hremedies] using h.settled

/-- The writes to other tables, and to the journal. -/
def aside : WriteKind → Bool
  | .insertPermanent | .movePermanent | .recordFalloff | .insertRemedy | .completeRemedy => false
  | _ => true

theorem write_aside (h : RemedySound d) {w : Write} (hw : aside w.kind = true) :
    RemedySound (w.apply d) := by
  obtain ⟨hpermanents, hremedies⟩ :
      (w.apply d).permanents = d.permanents ∧ (w.apply d).remedies = d.remedies := by
    cases w with
    | permanent w =>
      cases w with
      | event entry => exact ⟨rfl, rfl⟩
      | insert row | setState id target | recordFalloff id falloff => cases hw
    | remedy w => cases w <;> cases hw
    | placement w | assignment w | rateVersion w | offer w | proposal w | term w =>
      cases w <;> exact ⟨rfl, rfl⟩
    | lineage row | outbox event => exact ⟨rfl, rfl⟩
  exact h.congr hpermanents hremedies

theorem writes_aside (h : RemedySound d) {ws : List Write} (hws : ∀ w ∈ ws, aside w.kind = true) :
    RemedySound (applyAll ws d) := by
  induction ws generalizing d with
  | nil => exact h
  | cons w rest ih =>
    exact ih (h.write_aside (hws w mem_cons_self)) fun x hx =>
      hws x (mem_cons_of_mem w hx)

theorem insertPermanent (h : RemedySound d) {row : PermanentPlacement}
    (hrow : (PermanentWrite.insert row).allowed d = true)
    (hstate : row.lifecycleState = .guaranteeActive) (hfalloff : row.falloff = none) :
    RemedySound ((PermanentWrite.insert row).apply d) := by
  have hfresh : ∀ p ∈ d.permanents, p.id ≠ row.id := by
    intro p hp
    simp only [PermanentWrite.allowed, all_eq_true, Bool.and_eq_true, bne_iff_ne] at hrow
    exact (hrow p hp).1
  have hnone : d.remediesOf row.id = [] := by
    rw [PlacementDb.remediesOf, filter_eq_nil_iff]
    intro r hr hid
    obtain ⟨p, hp, hpid⟩ := h.owned r hr
    exact hfresh p hp (hpid.trans (eq_of_beq hid))
  constructor
  · exact nodup_concat h.permanentIds hfresh
  · exact h.remedyIds
  · intro r hr
    obtain ⟨p, hp, hid⟩ := h.owned r hr
    exact ⟨p, mem_append_left _ hp, hid⟩
  · intro p hp
    rcases (mem_append.mp hp).imp_right mem_singleton.mp with hold | rfl
    · exact h.settled p hold
    · unfold Settled
      rw [hstate]
      exact ⟨hfalloff, hnone⟩

variable {current : PermanentPlacement}

theorem update (h : RemedySound d) {f : PermanentPlacement → PermanentPlacement}
    {remedies : List PermanentPlacementRemedy} (hcurrent : current ∈ d.permanents)
    (hid : ∀ p, (f p).id = p.id) (hids : (remedies.map (·.id)).Nodup)
    (howned : ∀ r ∈ remedies, ∃ p ∈ d.permanents, p.id = r.permanentPlacementId)
    (hothers : ∀ id, id ≠ current.id →
      remedies.filter (·.permanentPlacementId == id) = d.remediesOf id)
    (hown : Settled (f current) (remedies.filter (·.permanentPlacementId == current.id))) :
    RemedySound { d with
      permanents := updateWhere (·.id == current.id) f d.permanents
      remedies := remedies } := by
  have hkept : (updateWhere (·.id == current.id) f d.permanents).map (·.id) =
      d.permanents.map (·.id) := map_updateWhere _ hid
  constructor
  · exact hkept ▸ h.permanentIds
  · exact hids
  · intro r hr
    obtain ⟨p, hp, hpid⟩ := howned r hr
    obtain ⟨p', hp', hpid'⟩ := mem_map.mp (hkept ▸ mem_map_of_mem hp)
    exact ⟨p', hp', hpid'.trans hpid⟩
  · intro p hp
    rcases (mem_updateWhere_key h.permanentIds hcurrent).mp hp with ⟨hold, hne⟩ | rfl
    · rw [PlacementDb.remediesOf, hothers p.id hne]
      exact h.settled p hold
    · rw [PlacementDb.remediesOf, hid]
      exact hown

/-! ## Operations -/

theorem satisfy (h : RemedySound d) (hcurrent : current ∈ d.permanents)
    (hstate : current.lifecycleState = .guaranteeActive) :
    RemedySound { d with
      permanents := updateWhere (·.id == current.id) (·.setState .guaranteeSatisfied)
        d.permanents } := by
  refine h.update hcurrent (fun _ => rfl) h.remedyIds h.owned (fun _ _ => rfl) ?_
  have hsettled := h.settled current hcurrent
  unfold Settled at hsettled
  rw [hstate] at hsettled
  exact hsettled

theorem fallOff (h : RemedySound d) (falloff : Falloff) {id : Nat}
    (hcurrent : current ∈ d.permanents) (hstate : current.lifecycleState = .guaranteeActive)
    (hid : ∀ r ∈ d.remedies, r.id ≠ id) :
    RemedySound { d with
      permanents := updateWhere (·.id == current.id)
        (fun p => (p.fallOff falloff).setState current.guarantee.terms.remedyPolicy.dueState)
        d.permanents
      remedies := d.remedies ++ [remedyRow id current falloff] } := by
  have hsettled := h.settled current hcurrent
  unfold Settled at hsettled
  rw [hstate] at hsettled
  refine h.update hcurrent (fun _ => rfl) ?_ ?_ ?_ ?_
  · exact nodup_concat h.remedyIds hid
  · intro r hr
    rcases (mem_append.mp hr).imp_right mem_singleton.mp with hold | rfl
    · exact h.owned r hold
    · exact ⟨current, hcurrent, rfl⟩
  · intro other hne
    have hrow : ((remedyRow id current falloff).permanentPlacementId == other) = false :=
      beq_eq_false_iff_ne.mpr hne.symm
    rw [filter_append, filter_cons_of_neg (by simp [hrow]), filter_nil,
      append_nil]
    rfl
  · have hown : (d.remedies ++ [remedyRow id current falloff]).filter
        (·.permanentPlacementId == current.id) = [remedyRow id current falloff] := by
      rw [filter_append, show d.remedies.filter _ = [] from hsettled.2, nil_append]
      exact filter_cons_of_pos (beq_self_eq_true _)
    have howes : Owes ((current.fallOff falloff).setState
      current.guarantee.terms.remedyPolicy.dueState)
        [remedyRow id current falloff] false :=
      ⟨rfl, _, rfl, remedyType_computeRemedyObligation current.guarantee _, rfl⟩
    rw [hown]
    unfold Settled
    simp only [PermanentPlacement.setState]
    cases hpolicy : current.guarantee.terms.remedyPolicy <;>
      exact ⟨(congrArg RemedyPolicy.dueState hpolicy).symm, hpolicy ▸ howes⟩

theorem complete (h : RemedySound d) {remedy : PermanentPlacementRemedy}
    (completion : RemedyCompletion) (hcurrent : current ∈ d.permanents)
    (hremedy : remedy ∈ d.remedies) (hof : remedy.permanentPlacementId = current.id)
    (hdue : current.lifecycleState.isRemedyDue = true) :
    RemedySound { d with
      permanents := updateWhere (·.id == current.id) (·.setState .remedyCompleted) d.permanents
      remedies := updateWhere (·.id == remedy.id) (·.complete completion) d.remedies } := by
  have hsettled := h.settled current hcurrent
  obtain ⟨hfalloff, r, hown, htype, -⟩ : Owes current (d.remediesOf current.id) false := by
    unfold Settled at hsettled
    revert hdue
    cases hstate : current.lifecycleState <;> rw [hstate] at hsettled <;> intro hdue <;>
      first | exact hsettled.2 | cases hdue
  obtain rfl : remedy = r := by
    have hmem : remedy ∈ d.remediesOf current.id :=
      mem_filter.mpr ⟨hremedy, beq_iff_eq.mpr hof⟩
    exact mem_singleton.mp (hown ▸ hmem)
  refine h.update hcurrent (fun _ => rfl) (nodup_updateWhere (fun _ => rfl) h.remedyIds) ?_ ?_ ?_
  · intro x hx
    rcases of_mem_updateWhere hx with ⟨hold, -⟩ | ⟨y, hy, -, rfl⟩
    · exact h.owned x hold
    · exact h.owned y hy
  · intro other hne
    refine filter_updateWhere fun x hx hid => ?_
    obtain rfl := inj_on_of_nodup_map h.remedyIds hx hremedy (eq_of_beq hid)
    have hother : (x.permanentPlacementId == other) = false := by
      rw [hof]
      exact beq_eq_false_iff_ne.mpr hne.symm
    exact ⟨hother, hother⟩
  · have hkeep : (updateWhere (·.id == remedy.id) (·.complete completion) d.remedies).filter
        (·.permanentPlacementId == current.id) =
          updateWhere (·.id == remedy.id) (·.complete completion) (d.remediesOf current.id) :=
      filter_updateWhere_of_keep fun _ => rfl
    rw [hkeep, hown, updateWhere_cons, updateWhere_nil, if_pos (beq_self_eq_true _)]
    exact ⟨hfalloff, _, rfl, htype, rfl⟩

end RemedySound

/-! ## Programs -/

/-- The generic transition is not asked for an edge of the two commands. -/
def PlacementOp.Governed : PlacementOp → Prop
  | .permanentTransition _ target _ => target ≠ .fellOff ∧ target ≠ .remedyCompleted
  | _ => True

instance : DecidablePred PlacementOp.Governed
  | .permanentTransition _ _ _ => inferInstanceAs (Decidable (_ ∧ _))
  | .createPlacement _ _ | .transition _ | .endAssignment _ _ | .convertToPermanent _ _
  | .createCommercialRevision _ _ _ | .cancelCommercialRevision _ _ | .recordFalloff _ _
  | .completeRemedy _ _ | .createOffer _ | .transitionOffer _ |
      .expireOverdueOffers _ _ | .propose _
  | .moveProposal _ _ _ | .decideProposal _ _ | .createTerm _ | .reviseTerm _ _ | .countActive _ _ _
  | .countActiveIds _ _ _ => inferInstanceAs (Decidable True)

section Programs

variable {d : PlacementDb}

theorem mem_of_exactly {t id : Nat} {p : PermanentPlacement}
    (h : exactly (σ := placementStore) (.read (.permanent t id)) (some p) d) : p ∈ d.permanents :=
  mem_of_find?_eq_some (Eq.symm h)

namespace RemedySound

theorem keeps_aside {op : PlacementOp} (h : RemedySound d) (hkinds : op.kinds.all aside = true) :
    (placementProgram op).wp exactly (fun _ d' => RemedySound d') d := by
  refine wp_of_kinds (fun w d' hw _ hd => hd.write_aside (all_eq_true.mp hkinds _ hw)) ?_ h
  intro u d' _ _ hd
  exact hd.congr rfl rfl

/-- Of the edges that the generic transition takes there is only the end of the
guarantee left. -/
theorem satisfied_of_edge {current : PermanentPlacement} {target : PermanentState}
    {own : List PermanentPlacementRemedy} (hsettled : Settled current own)
    (hgoverned : target ≠ .fellOff ∧ target ≠ .remedyCompleted)
    (hedge : canTransitionPermanentPlacement current.lifecycleState target = true) :
    current.lifecycleState = .guaranteeActive ∧ target = .guaranteeSatisfied := by
  unfold Settled at hsettled
  revert hedge
  cases hstate : current.lifecycleState <;> rw [hstate] at hsettled <;> cases target <;>
    simp_all [canTransitionPermanentPlacement, PermanentState.targets]

theorem opens (h : RemedySound d) {before after : List Write} {row : PermanentPlacement}
    (hbefore : ∀ w ∈ before, aside w.kind = true) (hafter : ∀ w ∈ after, aside w.kind = true)
    (hstate : row.lifecycleState = .guaranteeActive) (hfalloff : row.falloff = none)
    (hadmits : admitsAll (before ++ (permanentWrites row ++ after)) d = true) :
    RemedySound (applyAll (before ++ (permanentWrites row ++ after)) d) := by
  obtain ⟨-, hinsert⟩ := admitsAll_append.mp hadmits
  obtain ⟨hrow, -⟩ := (admitsAll_cons _ _ _).mp hinsert
  rw [applyAll_append, applyAll_append]
  refine writes_aside ?_ hafter
  have hopened := (h.writes_aside hbefore).insertPermanent hrow hstate hfalloff
  exact hopened.write_aside (w := .permanent (.event ⟨row.id, none, .guaranteeActive⟩)) rfl

theorem aside_of_mem_outbox {row : PermanentPlacement} {w : Write} (hw : w ∈ permanentOutbox row) :
    aside w.kind = true := by
  simp only [permanentOutbox, mem_append, mem_cons, not_mem_nil, or_false,
    Option.mem_toList, Option.map_eq_some_iff] at hw
  rcases hw with (rfl | rfl) | ⟨v, -, rfl⟩ <;> rfl

section

variable (h : RemedySound d)

include h

theorem transition (input : TransitionInput) :
    (PlacementTx.transition input).wp exactly (fun _ d' => RemedySound d') d := by
  have hmove : ∀ current target, ∀ w ∈ moveWrites current target, aside w.kind = true := by
    intro current target w hw
    exact all_eq_true.mp (show [WriteKind.movePlacement, .placementEvent,
      .outboxChange].all aside =
      true from rfl) _ (kind_of_mem_moveWrites hw)
  refine wp_transition ?_ ?_ ?_
  · intro current _ _ _ _
    exact h.writes_aside (hmove _ _)
  · intro current assignmentId versionId companyId terms recordedBy _ _ _ a ws _
    refine h.writes_aside fun w hw => ?_
    rcases mem_append.mp hw with hw | hw
    · exact hmove _ _ w hw
    · simp only [contractWrites, mem_cons, not_mem_nil, or_false] at hw
      rcases hw with rfl | rfl | rfl <;> rfl
  · intro current id guarantee _ _ _ row ws hadmits
    simp only [ws, append_assoc] at hadmits ⊢
    exact h.opens (hmove _ _) (fun w => aside_of_mem_outbox) rfl rfl hadmits

theorem convertToPermanent (input : ConvertInput) (txNow : Nat) :
    (PlacementTx.convertToPermanent input txNow).wp exactly (fun _ d' => RemedySound d') d := by
  refine wp_convertToPermanent h ?_
  intro source a versions guarantee targetId permanentId lineageId _ _ _ _ _ ended target permanent
    lineage started _ _ hstarted
  have hended : RemedySound (applyAll ended d) := by
    refine h.writes_aside fun w hw => ?_
    exact all_eq_true.mp (show [WriteKind.changeRateVersion,
      .endAssignment, .outbox].all aside =
      true from rfl) _ (kind_of_mem_endWrites hw)
  simp only [started, conversionWrites, append_assoc] at hstarted ⊢
  refine hended.opens ?_ ?_ rfl rfl hstarted
  · intro w hw
    simp only [mem_cons, not_mem_nil, or_false] at hw
    rcases hw with rfl | rfl <;> rfl
  · intro w hw
    simp only [mem_append, mem_singleton] at hw
    rcases hw with rfl | hw | rfl
    · rfl
    · exact aside_of_mem_outbox hw
    · rfl

theorem permanentTransition (ref : PermanentRef) (target : PermanentState)
    (todayUtc : Nat) (hgoverned : target ≠ .fellOff ∧ target ≠ .remedyCompleted) :
    (PlacementTx.permanentTransition ref target todayUtc).wp exactly
      (fun _ d' => RemedySound d') d := by
  refine wp_permanentTransition fun current hcurrent hedge _ => ?_
  intro ws _
  have hmem := mem_of_exactly hcurrent
  obtain ⟨hstate, rfl⟩ := satisfied_of_edge (h.settled current hmem) hgoverned hedge
  exact (h.satisfy hmem hstate).congr rfl rfl

theorem recordFalloff (input : FalloffInput) (now : Nat) :
    (PlacementTx.recordFalloff input now).wp exactly (fun _ d' => RemedySound d') d := by
  refine wp_recordFalloff fun current id hcurrent hedge => ?_
  intro falloff ws hadmits
  have hstate : current.lifecycleState = .guaranteeActive := by
    revert hedge
    cases current.lifecycleState <;> decide
  have hid : ∀ r ∈ d.remedies, r.id ≠ id := by
    simp only [ws, falloffWrites, permanentRecord, cons_append, nil_append,
      admitsAll_cons] at hadmits
    obtain ⟨-, -, -, hinsert, -⟩ := hadmits
    intro r hr
    have hrow := all_eq_true.mp (Bool.and_eq_true_iff.mp hinsert).2 r hr
    simp only [Bool.and_eq_true, bne_iff_ne] at hrow
    exact hrow.1
  refine (h.fallOff falloff (mem_of_exactly hcurrent) hstate hid).congr ?_ rfl
  exact updateWhere_comp fun _ => rfl

theorem completeRemedy (input : CompletionInput) (now : Nat) :
    (PlacementTx.completeRemedy input now).wp exactly (fun _ d' => RemedySound d') d := by
  refine wp_completeRemedy fun current remedy completion hcurrent hremedy _ hdue _ => ?_
  have hfound := find?_some (Eq.symm hremedy)
  have hof : remedy.permanentPlacementId = current.id := by
    simpa using (Bool.and_eq_true_iff.mp hfound).2
  exact (h.complete completion (mem_of_exactly hcurrent)
    (mem_of_find?_eq_some (Eq.symm hremedy)) hof hdue).congr rfl rfl

end

end RemedySound

/-- **One operation**, if the generic transition is not asked for the edges of
the commands. -/
theorem remedySound_placementProgram (op : PlacementOp) (hop : op.Governed) (h : RemedySound d) :
    (placementProgram op).wp exactly (fun _ d' => RemedySound d') d := by
  cases op with
  | transition input => exact wp_giving (h.transition input)
  | convertToPermanent input txNow => exact wp_giving (h.convertToPermanent input txNow)
  | permanentTransition ref target todayUtc =>
    exact wp_giving (h.permanentTransition ref target todayUtc hop)
  | recordFalloff input now => exact wp_giving (h.recordFalloff input now)
  | completeRemedy input now => exact wp_giving (h.completeRemedy input now)
  | _ => exact h.keeps_aside (by rfl)

/-! ## The event of a satisfied guarantee -/

/-- Nothing tells of a satisfied guarantee. -/
def Silent (d d' : PlacementDb) : Prop :=
  ∃ more, d'.outbox = d.outbox ++ more ∧
    ∀ change, OutboxEvent.permanentChanged .guaranteeSatisfied change ∉ more

def Write.silent : Write → Bool
  | .outbox (.permanentChanged .guaranteeSatisfied _) => false
  | _ => true

theorem silent_of_kind {w : Write} (hw : w.kind ≠ .outboxChange) : w.silent = true := by
  unfold Write.silent
  split
  · exact absurd rfl hw
  · rfl

namespace Silent

theorem refl (d : PlacementDb) : Silent d d :=
  ⟨[], (append_nil _).symm, fun _ => not_mem_nil⟩

theorem write {d' : PlacementDb} (h : Silent d d') {w : Write} (hw : w.silent = true) :
    Silent d (w.apply d') := by
  cases w with
  | outbox event =>
    obtain ⟨more, hmore, hnone⟩ := h
    refine ⟨more ++ [event], ?_, fun change hmem => ?_⟩
    · show d'.outbox ++ [event] = _
      rw [hmore, append_assoc]
    · rcases mem_append.mp hmem with hold | hnew
      · exact hnone change hold
      · rw [← mem_singleton.mp hnew] at hw
        cases hw
  | placement w | assignment w | rateVersion w | permanent w | remedy w | offer w | proposal w
  | term w => cases w <;> exact h
  | lineage row => exact h

theorem writes {d' : PlacementDb} (h : Silent d d') {ws : List Write}
    (hws : ∀ w ∈ ws, w.silent = true) : Silent d (applyAll ws d') := by
  induction ws generalizing d' with
  | nil => exact h
  | cons w rest ih =>
    exact ih (h.write (hws w mem_cons_self)) fun x hx => hws x (mem_cons_of_mem w hx)

theorem of_kinds {op : PlacementOp} (hkinds : .outboxChange ∉ op.kinds) :
    (placementProgram op).wp exactly (fun _ d' => Silent d d') d := by
  refine wp_of_kinds (fun w d' hw _ hd => hd.write (silent_of_kind ?_)) (fun u d' _ _ hd => hd)
    (refl d)
  intro hkind
  exact hkinds (hkind ▸ hw)

theorem transition (input : TransitionInput) :
    (PlacementTx.transition input).wp exactly (fun _ d' => Silent d d') d := by
  have hmove : ∀ current target, ∀ w ∈ moveWrites current target, w.silent = true := by
    intro current target w hw
    simp only [moveWrites, mem_cons, not_mem_nil, or_false] at hw
    rcases hw with rfl | rfl | rfl <;> rfl
  refine wp_transition ?_ ?_ ?_
  · intro current _ _ _ _
    exact (refl d).writes (hmove _ _)
  · intro current assignmentId versionId companyId terms recordedBy _ _ _ a ws _
    refine (refl d).writes fun w hw => ?_
    rcases mem_append.mp hw with hw | hw
    · exact hmove _ _ w hw
    · simp only [contractWrites, mem_cons, not_mem_nil, or_false] at hw
      rcases hw with rfl | rfl | rfl <;> rfl
  · intro current id guarantee _ _ _ row ws _
    refine (refl d).writes fun w hw => ?_
    simp only [ws, mem_append] at hw
    rcases hw with (hw | hw) | hw
    · exact hmove _ _ w hw
    · refine silent_of_kind fun hkind => ?_
      have hmem := kind_of_mem_permanentWrites (.inl hw)
      rw [hkind] at hmem
      revert hmem
      decide
    · refine silent_of_kind fun hkind => ?_
      have hmem := kind_of_mem_permanentWrites (.inr hw)
      rw [hkind] at hmem
      revert hmem
      decide

theorem decideProposal (input : DecideInput) (now : Nat) :
    (decideCommercialRevisionProposal input now).wp exactly (fun _ d' => Silent d d') d := by
  refine wp_decideCommercialRevisionProposal ?_ (refl d) ?_
  · intro p _ _ _ _ _ _ ws _
    refine (refl d).writes ?_
    simp [ws, proposalWrites, proposalRecord, Write.silent]
  · intro p found a predecessor versionId _ _ _ _ _ _ _ _ _ _ _ tNew _ successor ws _
    refine (refl d).writes ?_
    simp [ws, appendWrites, appliedWrites, proposalRecord, Write.silent]

end Silent

/-- The event of a satisfied guarantee comes with the move, on or after the end
of the guarantee. -/
def SatisfiedWhenDue (op : PlacementOp) (d d' : PlacementDb) : Prop :=
  ∃ more, d'.outbox = d.outbox ++ more ∧
    ∀ change, OutboxEvent.permanentChanged .guaranteeSatisfied change ∈ more →
      change.target = .guaranteeSatisfied ∧ ∃ ref todayUtc,
        op = .permanentTransition ref .guaranteeSatisfied todayUtc ∧
        ∃ p ∈ d'.permanents, p.id = change.subject ∧ p.lifecycleState = .guaranteeSatisfied ∧
          p.guarantee.endDate ≤ todayUtc

theorem Silent.satisfiedWhenDue {op : PlacementOp} {d' : PlacementDb} (h : Silent d d') :
    SatisfiedWhenDue op d d' := by
  obtain ⟨more, hmore, hnone⟩ := h
  exact ⟨more, hmore, fun change hmem => absurd hmem (hnone change)⟩

theorem satisfiedWhenDue_permanentTransition (h : RemedySound d) (ref : PermanentRef)
    (target : PermanentState) (todayUtc : Nat)
    (hgoverned : target ≠ .fellOff ∧ target ≠ .remedyCompleted) :
    (PlacementTx.permanentTransition ref target todayUtc).wp exactly
      (fun _ d' => SatisfiedWhenDue (.permanentTransition ref target todayUtc) d d') d := by
  refine wp_permanentTransition fun current hcurrent hedge hdue => ?_
  intro ws _
  have hmem := mem_of_exactly hcurrent
  obtain ⟨hstate, rfl⟩ := RemedySound.satisfied_of_edge (h.settled current hmem) hgoverned hedge
  refine ⟨[.permanentChanged .guaranteeSatisfied
    ⟨current.id, some current.lifecycleState, .guaranteeSatisfied⟩], rfl, fun change hchange => ?_⟩
  obtain ⟨-, rfl⟩ := OutboxEvent.permanentChanged.inj (mem_singleton.mp hchange)
  refine ⟨rfl, ref, todayUtc, rfl, current.setState .guaranteeSatisfied, ?_, rfl, rfl, hdue rfl⟩
  exact mem_updateWhere_of_pos hmem (beq_self_eq_true _)

theorem satisfiedWhenDue_placementProgram (op : PlacementOp) (hop : op.Governed)
    (h : RemedySound d) :
    (placementProgram op).wp exactly (fun _ d' => SatisfiedWhenDue op d d') d := by
  cases op with
  | permanentTransition ref target todayUtc =>
    exact wp_giving (satisfiedWhenDue_permanentTransition h ref target todayUtc hop)
  | transition input =>
    exact wp_giving (Tx.wp_mono (Silent.transition input) fun _ _ hd => hd.satisfiedWhenDue)
  | recordFalloff input now =>
    refine wp_giving (wp_recordFalloff fun current id _ _ => ?_)
    intro falloff ws _
    refine Silent.satisfiedWhenDue ((Silent.refl d).writes ?_)
    simp [ws, falloffWrites, permanentRecord, Write.silent]
  | completeRemedy input now =>
    refine wp_giving (wp_completeRemedy fun current remedy completion _ _ _ _ _ => ?_)
    refine Silent.satisfiedWhenDue ((Silent.refl d).writes ?_)
    simp [completionWrites, permanentRecord, Write.silent]
  | propose input =>
    refine wp_giving (wp_createCommercialRevisionProposal fun a reference id _ => ?_)
    intro ws _
    refine Silent.satisfiedWhenDue ((Silent.refl d).writes ?_)
    simp [ws, proposalRecord, Write.silent]
  | moveProposal ref withdraw actorId =>
    refine wp_giving (wp_transitionCommercialRevisionProposal fun p => ?_)
    intro action _ _ _
    refine Silent.satisfiedWhenDue ((Silent.refl d).writes ?_)
    simp [proposalWrites, proposalRecord, Write.silent]
  | decideProposal input now =>
    exact wp_giving (Tx.wp_mono (Silent.decideProposal input now) fun _ _ hd => hd.satisfiedWhenDue)
  | _ =>
    exact Tx.wp_mono (Silent.of_kinds (by simp [PlacementOp.kinds])) fun _ _ hd =>
      hd.satisfiedWhenDue

end Programs

/-! ## Runs -/

/-- **A falloff and its remedy.** In any order of operations in which the
generic transition is not asked for the edges of the two commands, falloff
facts, remedy and state of every placement go together, and each step tells of
a satisfied guarantee only when it has ended one that was over. -/
theorem falloff_and_remedy_together {calls : List (PlacementOp × List Nat)} {d : PlacementDb}
    (hrun : Run (AtomicStepOf fun _ => PlacementOp.Governed) .empty calls d) :
    (∀ p ∈ d.permanents, FalloffPaired d p) ∧
      ∀ call d', AtomicStepOf (fun _ => PlacementOp.Governed) d call d' →
        SatisfiedWhenDue call.1 d d' := by
  have hsound : RemedySound d := by
    refine Run.invariant (fun d call d' hd hstep => ?_) hrun remedySound_empty
    exact of_oneAtATime hstep.1 (remedySound_placementProgram call.1 hstep.2 hd)
  refine ⟨fun p hp => (hsound.settled p hp).paired, fun call d' hstep => ?_⟩
  exact of_oneAtATime hstep.1 (satisfiedWhenDue_placementProgram call.1 hstep.2 hsound)

/-! ### Orders of commands -/

open Js

def firstTerms : GuaranteeTerms := ⟨30, by decide, .refund, 1000, js "USD", js "contract"⟩

def startFirstPermanent : PlacementOp :=
  .transition ⟨1, 202, .started, true, none, none, some 7, some (50, firstTerms), none, 9⟩

/-- A permanent placement with the id 300, in its guarantee from day 50 to day
80. -/
def firstPermanent : List (PlacementOp × List Nat) :=
  [(createFirstOffer, [100]), (moveFirstOffer .sent, []), (moveFirstOffer .accepted, []),
    (.createPlacement ⟨firstEngagement, some 100, none, none, none, some .permanent⟩ 5, [202]),
    (moveFirstPlacement .readyToStart, []), (startFirstPermanent, [300])]

def firstRef : PermanentRef := ⟨1, 202⟩

def recordFirstFalloff : PlacementOp := .recordFalloff ⟨firstRef, js "MUTUAL_SEPARATION", 60, 7⟩ 11

def completeFirstRemedy : PlacementOp := .completeRemedy ⟨firstRef, 7, some (js "CN-1"), none⟩ 12

theorem falloff_and_remedy_in_turn : ∃ d,
    Run (AtomicStepOf fun _ => PlacementOp.Governed) .empty
        (firstPermanent ++ [(recordFirstFalloff, [400]), (completeFirstRemedy, [])]) d ∧
      d.permanents.map (·.lifecycleState) = [.remedyCompleted] ∧
      ∀ p ∈ d.permanents, FalloffPaired d p := by
  obtain ⟨d, hrun, hp⟩ := atomicRun_of_calls (fun _ => PlacementOp.Governed) .empty
    (firstPermanent ++ [(recordFirstFalloff, [400]), (completeFirstRemedy, [])])
    (fun d => d.permanents.map (·.lifecycleState) == [.remedyCompleted]) (by decide +kernel)
  exact ⟨d, hrun, beq_iff_eq.mp hp, (falloff_and_remedy_together hrun).1⟩

/-- The generic transition to `FELL_OFF`: no falloff, no remedy, and an event
that tells of a satisfied guarantee. And the one to `REMEDY_COMPLETED`: the
remedy is still open. -/
theorem falloff_without_remedy :
    (∃ d, Run AtomicStep .empty
        (firstPermanent ++ [(.permanentTransition firstRef .fellOff 60, [])]) d ∧
      d.outbox.getLast? = some (.permanentChanged .guaranteeSatisfied
        ⟨300, some .guaranteeActive, .fellOff⟩) ∧
      ¬∀ p ∈ d.permanents, FalloffPaired d p) ∧
    ∃ d, Run AtomicStep .empty
        (firstPermanent ++ [(recordFirstFalloff, [400]),
          (.permanentTransition firstRef .remedyCompleted 60, [])]) d ∧
      ¬∀ p ∈ d.permanents, FalloffPaired d p := by
  constructor
  · obtain ⟨d, hrun, hp⟩ := atomicRun_of_calls (fun _ _ => True) .empty
      (firstPermanent ++ [(.permanentTransition firstRef .fellOff 60, [])])
      (fun d => d.permanents.any (·.lifecycleState == .fellOff) &&
        d.outbox.getLast? == some (.permanentChanged .guaranteeSatisfied
          ⟨300, some .guaranteeActive, .fellOff⟩)) (by decide +kernel)
    obtain ⟨hfell, hlast⟩ := Bool.and_eq_true_iff.mp hp
    refine ⟨d, hrun.mono fun _ _ _ hstep => hstep.1, beq_iff_eq.mp hlast, fun h => ?_⟩
    obtain ⟨p, hp, hstate⟩ := any_eq_true.mp hfell
    exact (h p hp).passed (eq_of_beq hstate)
  · obtain ⟨d, hrun, hp⟩ := atomicRun_of_calls (fun _ _ => True) .empty
      (firstPermanent ++ [(recordFirstFalloff, [400]),
        (.permanentTransition firstRef .remedyCompleted 60, [])])
      (fun d => d.permanents.any (·.lifecycleState == .remedyCompleted) &&
        d.remedies.all (·.completion.isNone)) (by decide +kernel)
    obtain ⟨hcompleted, hopen⟩ := Bool.and_eq_true_iff.mp hp
    refine ⟨d, hrun.mono fun _ _ _ hstep => hstep.1, fun h => ?_⟩
    obtain ⟨p, hp, hstate⟩ := any_eq_true.mp hcompleted
    obtain ⟨r, hr, hdone⟩ := (h p hp).completed_iff.mp (eq_of_beq hstate)
    have hnone := all_eq_true.mp hopen r (mem_filter.mp hr).1
    rw [Option.isNone_iff_eq_none.mp hnone] at hdone
    cases hdone

end AramoPlatform.Placement
