import AramoPlatform.Lib.UniqueIndex
import AramoPlatform.Placement.Frames

/-!
# One live attempt for a submittal

The triggers on the inserts look for a live row of the pair. But a trigger sees
what is committed, no unique index stands behind it, and nothing locks a row
that is not there. What it found missing must still be missing at the commit:
then no pair has two live placements or two open offers.
-/

namespace AramoPlatform.Placement

open Lib List

namespace PlacementDb

/-- The submittal that a placement takes while it is live. -/
def placementKey (d : PlacementDb) (p : PlacementProcess) : Option (Nat × Nat) :=
  if d.live p then some (p.engagement.tenantId, p.engagement.submittalId) else none

end PlacementDb

/-- The submittal that an offer takes while it is open. -/
def offerKey (o : Offer) : Option (Nat × Nat) :=
  if o.state.isTerminal then none else some (o.engagement.tenantId, o.engagement.submittalId)

/-- One live placement and one open offer for a submittal of a tenant. -/
def OneLiveAttempt (d : PlacementDb) : Prop :=
  (∀ p ∈ d.placements, ∀ q ∈ d.placements, p.engagement.tenantId = q.engagement.tenantId →
    p.engagement.submittalId = q.engagement.submittalId → d.live p = true → d.live q = true →
    p = q) ∧
  ∀ o ∈ d.offers, ∀ o' ∈ d.offers, o.engagement.tenantId = o'.engagement.tenantId →
    o.engagement.submittalId = o'.engagement.submittalId → o.state.isTerminal = false →
    o'.state.isTerminal = false → o = o'

instance : DecidablePred OneLiveAttempt := fun _ => inferInstanceAs (Decidable (_ ∧ _))

structure OneLive (d : PlacementDb) : Prop where
  placementIds : (d.placements.map (·.id)).Nodup
  offerIds : (d.offers.map (·.id)).Nodup
  placements : UniqueIndex d.placementKey d.placements
  offers : UniqueIndex offerKey d.offers

theorem OneLive.attempt {d : PlacementDb} (h : OneLive d) : OneLiveAttempt d := by
  constructor
  · intro p hp q hq htenant hsubmittal hlive hlive'
    refine h.placements p hp q hq (q.engagement.tenantId, q.engagement.submittalId) ?_ ?_
    · simp [PlacementDb.placementKey, hlive, htenant, hsubmittal]
    · simp [PlacementDb.placementKey, hlive']
  · intro o ho o' ho' htenant hsubmittal hopen hopen'
    refine h.offers o ho o' ho' (o'.engagement.tenantId, o'.engagement.submittalId) ?_ ?_
    · simp [offerKey, hopen, htenant, hsubmittal]
    · simp [offerKey, hopen']

theorem oneLive_empty : OneLive .empty :=
  ⟨nodup_nil, nodup_nil, UniqueIndex.nil, UniqueIndex.nil⟩

/-! ## Writes -/

theorem live_of_canTransition {d : PlacementDb} {p : PlacementProcess} {target : PlacementState}
    (h : canTransition p.state target = true) : d.live p = true := by
  cases hstate : p.state <;>
    simp_all [canTransition, PlacementState.targets, PlacementDb.live, isPlacementGuardReleased,
      PlacementState.guardInactive]

namespace OneLive

variable {d : PlacementDb}

section

variable (h : OneLive d)

include h

theorem setState {id : Nat} {target : PlacementState}
    (hallowed : (PlacementWrite.setState id target).allowed d = true) :
    OneLive ((PlacementWrite.setState id target).apply d) := by
  obtain ⟨p, hfound, hedge⟩ : ∃ p, d.placements.find? (·.id == id) = some p ∧
      canTransition p.state target = true := by
    simpa [PlacementWrite.allowed, Option.any_eq_true] using hallowed
  have hpid : p.id = id := by simpa using find?_some hfound
  have hp := mem_of_find?_eq_some hfound
  refine ⟨?_, h.offerIds, ?_, h.offers⟩
  · have hids : (updateWhere (·.id == id) (·.setState target) d.placements).map (·.id) =
        d.placements.map (·.id) := map_updateWhere _ fun _ => rfl
    show (List.map _ _).Nodup
    exact hids ▸ h.placementIds
  · refine h.placements.update fun r hr hid => ?_
    obtain rfl : r = p := inj_on_of_nodup_map h.placementIds hr hp
      ((eq_of_beq hid).trans hpid.symm)
    have hlive : d.live r = true := live_of_canTransition hedge
    by_cases hnew : d.live (r.setState target) = true
    · right
      rw [PlacementDb.placementKey, if_pos hnew, PlacementDb.placementKey, if_pos hlive]
      rfl
    · left
      simp [PlacementDb.placementKey, hnew]

theorem of_assignments {assignments : List ContractAssignment}
    (hended : ∀ id, d.hasEnded id = true →
      { d with assignments := assignments }.hasEnded id = true) :
    OneLive { d with assignments := assignments } := by
  refine ⟨h.placementIds, h.offerIds, h.placements.mono fun p _ => ?_, h.offers⟩
  by_cases hlive : PlacementDb.live { d with assignments := assignments } p = true
  · right
    have hold : d.live p = true := by
      cases hp : d.hasEnded p.id with
      | false =>
        revert hlive
        simp only [PlacementDb.live, hp]
        cases PlacementDb.hasEnded { d with assignments := assignments } p.id with
        | false => exact id
        | true => cases p.state <;> simp [isPlacementGuardReleased, PlacementState.guardInactive]
      | true => simpa [PlacementDb.live, hp, hended p.id hp] using hlive
    simp [PlacementDb.placementKey, hlive, hold]
  · left
    simp [PlacementDb.placementKey, hlive]

theorem assignmentWrite (w : AssignmentWrite) : OneLive (w.apply d) := by
  cases w with
  | insert row =>
    refine h.of_assignments fun id hended => ?_
    simp only [PlacementDb.hasEnded, any_append, Bool.or_eq_true] at hended ⊢
    exact .inl hended
  | setEnded aid reason endedAt =>
    refine h.of_assignments fun id hended => ?_
    simp only [PlacementDb.hasEnded, any_eq_true, Bool.and_eq_true, beq_iff_eq] at hended ⊢
    obtain ⟨a, ha, hplacement, hstate⟩ := hended
    exact exists_updateWhere ha (fun _ => ⟨hplacement, hstate⟩) fun _ => ⟨hplacement, rfl⟩

theorem updateOffer {u : OfferUpdate} (hallowed : u.allowed d = true) :
    OneLive (u.apply d) := by
  refine ⟨h.placementIds, ?_, h.placements, ?_⟩
  · have hids : (updateWhere u.hits (u.change.onOffer u.target) d.offers).map (·.id) =
        d.offers.map (·.id) := map_updateWhere _ fun _ => rfl
    exact hids ▸ h.offerIds
  · refine h.offers.update fun o ho hit => ?_
    have hedge : isLegalOfferTransition o.state u.target = true := by
      simpa [hit] using all_eq_true.mp hallowed o ho
    have hopen := not_isTerminal_of_legal hedge
    by_cases hnew : u.target.isTerminal = true
    · left
      simp [offerKey, OfferChange.onOffer, hnew]
    · right
      simp [offerKey, OfferChange.onOffer, hnew, hopen]

theorem write {w : Write} (hplacement : w.kind ≠ .insertPlacement)
    (hoffer : w.kind ≠ .insertOffer) (hallowed : w.allowed d = true) : OneLive (w.apply d) := by
  cases w with
  | placement w =>
    cases w with
    | insert row => exact absurd rfl hplacement
    | setState id target => exact h.setState hallowed
    | event entry => exact ⟨h.placementIds, h.offerIds, h.placements, h.offers⟩
  | assignment w => exact h.assignmentWrite w
  | offer w =>
    cases w with
    | insert row => exact absurd rfl hoffer
    | event entry | insertRevision row => exact ⟨h.placementIds, h.offerIds, h.placements, h.offers⟩
  | rateVersion w | permanent w | remedy w | proposal w | term w =>
    cases w <;> exact ⟨h.placementIds, h.offerIds, h.placements, h.offers⟩
  | lineage | outbox => exact ⟨h.placementIds, h.offerIds, h.placements, h.offers⟩

theorem insertPlacement {row : PlacementProcess}
    (hallowed : (PlacementWrite.insert row).allowed d = true)
    (hfree : d.answer (.livePlacement row.engagement.tenantId row.engagement.submittalId) = false) :
    OneLive ((PlacementWrite.insert row).apply d) := by
  simp only [PlacementWrite.allowed, Bool.and_eq_true, all_eq_true, bne_iff_ne] at hallowed
  simp only [PlacementDb.answer, any_eq_false, Bool.and_eq_true, beq_iff_eq, not_and,
    Bool.not_eq_true] at hfree
  refine ⟨?_, h.offerIds, h.placements.insert fun p hp k hk hkp => ?_, h.offers⟩
  · exact nodup_concat h.placementIds hallowed.1
  · by_cases hlive : d.live p = true
    · have hrow : k = (row.engagement.tenantId, row.engagement.submittalId) := by
        unfold PlacementDb.placementKey at hk
        split at hk
        · exact (Option.some.inj hk).symm
        · cases hk
      simp only [PlacementDb.placementKey, hlive, if_true, Option.some.injEq, hrow,
        Prod.mk.injEq] at hkp
      rw [hfree p hp ⟨hkp.1, hkp.2⟩] at hlive
      cases hlive
    · simp [PlacementDb.placementKey, hlive] at hkp

theorem insertOffer {row : Offer} (hallowed : (OfferWrite.insert row).allowed d = true)
    (hfree : d.answer (.liveOffer row.engagement.tenantId row.engagement.submittalId) = false) :
    OneLive ((OfferWrite.insert row).apply d) := by
  simp only [OfferWrite.allowed, all_eq_true, bne_iff_ne] at hallowed
  simp only [PlacementDb.answer, any_eq_false, Bool.and_eq_true, beq_iff_eq, not_and,
    Bool.not_eq_true', Bool.not_eq_false] at hfree
  refine ⟨h.placementIds, ?_, h.placements, h.offers.insert fun o ho k hk hko => ?_⟩
  · exact nodup_concat h.offerIds hallowed
  · unfold offerKey at hk hko
    split at hk
    · cases hk
    split at hko
    · cases hko
    next hopen =>
      rw [← hk] at hko
      obtain ⟨htenant, hsubmittal⟩ := Prod.mk.injEq .. ▸ Option.some.inj hko
      exact hopen (hfree o ho ⟨htenant, hsubmittal⟩)

theorem writes {ws : List Write}
    (hkinds : ∀ w ∈ ws, w.kind ≠ .insertPlacement ∧ w.kind ≠ .insertOffer)
    (hadmits : admitsAll ws d = true) : OneLive (applyAll ws d) :=
  applyAll_induction (fun w hw _ hallowed hd => hd.write (hkinds w hw).1 (hkinds w hw).2 hallowed)
    hadmits h

theorem insertWith {row : PlacementProcess} {rest : List Write}
    (hkinds : ∀ w ∈ rest, w.kind ≠ .insertPlacement ∧ w.kind ≠ .insertOffer)
    (hfree : d.answer (.livePlacement row.engagement.tenantId row.engagement.submittalId) = false)
    (hadmits : admitsAll (.placement (.insert row) :: rest) d = true) :
    OneLive (applyAll (.placement (.insert row) :: rest) d) := by
  obtain ⟨hrow, hrest⟩ := (admitsAll_cons _ _ _).mp hadmits
  exact (h.insertPlacement hrow hfree).writes hkinds hrest

end

end OneLive

/-! ## Operations -/

/-- The queries of the triggers. -/
def Query.isGuard : Query → Bool
  | .livePlacement _ _ | .liveOffer _ _ => true
  | _ => false

/-- What a trigger did not find is still not there. -/
abbrev GuardStands : placementStore.Check := Rereads Query.isGuard

section Programs

open PlacementTx

variable {d : PlacementDb}

theorem OneLive.keeps {op : PlacementOp} (h : OneLive d) (hplacement : .insertPlacement ∉ op.kinds)
    (hoffer : .insertOffer ∉ op.kinds) :
    (placementProgram op).wp GuardStands (fun _ d' => OneLive d') d := by
  refine wp_of_kinds (fun w d hw hallowed hd => hd.write ?_ ?_ hallowed)
    (fun u d _ hallowed hd => hd.updateOffer hallowed) h
  · intro hkind
    exact hplacement (hkind ▸ hw)
  · intro hkind
    exact hoffer (hkind ▸ hw)

theorem kind_of_mem_conversionWrites {target : PlacementProcess} {permanent : PermanentPlacement}
    {lineage : ConversionLineage} {w : Write}
    (h : w ∈ (conversionWrites target permanent lineage).tail) :
    w.kind ∈ [WriteKind.placementEvent, .insertPermanent, .permanentEvent, .lineage, .outbox] := by
  simp only [conversionWrites, cons_append, nil_append, tail_cons, mem_cons,
    mem_append, not_mem_nil, or_false] at h
  rcases h with rfl | ((hw | rfl) | hw) | rfl
  · simp [Write.kind]
  · have hkind := kind_of_mem_permanentWrites (.inl hw)
    simp only [mem_cons] at hkind ⊢
    tauto
  · simp [Write.kind]
  · have hkind := kind_of_mem_permanentWrites (.inr hw)
    simp only [mem_cons] at hkind ⊢
    tauto
  · simp [Write.kind, OutboxEvent.isChange]

theorem oneLive_convertToPermanent (h : OneLive d) (input : ConvertInput) (txNow : Nat) :
    (convertToPermanent input txNow).wp GuardStands (fun _ d' => OneLive d') d := by
  refine wp_convertToPermanent h ?_
  intro source a versions guarantee targetId permanentId lineageId _ _ _ _ _ ended target permanent
    lineage started hended hfree hstarted
  have hkept : OneLive (applyAll ended d) := by
    refine h.writes (fun w hw => ?_) hended
    have hkind := kind_of_mem_endWrites hw
    constructor <;> (intro hw; rw [hw] at hkind; revert hkind; decide)
  refine hkept.insertWith (fun w hw => ?_) (hfree rfl).symm hstarted
  have hkind := kind_of_mem_conversionWrites hw
  constructor <;> (intro hw; rw [hw] at hkind; revert hkind; decide)

/-- **One operation** that commits on what its triggers found. -/
theorem oneLive_placementProgram (op : PlacementOp) (h : OneLive d) :
    (placementProgram op).wp GuardStands (fun _ d' => OneLive d') d := by
  cases op with
  | createPlacement input now =>
    refine wp_giving (wp_createPlacement ?_)
    intro offerId offer id _ _ _ hfree row ws hadmits
    refine h.insertWith (fun w hw => ?_) (hfree rfl).symm hadmits
    obtain rfl := mem_singleton.mp hw
    simp [Write.kind, OutboxEvent.isChange]
  | createOffer input =>
    refine wp_giving (wp_createOffer ?_)
    intro id hfree ws hadmits
    obtain ⟨hrow, hrest⟩ := (admitsAll_cons _ _ _).mp hadmits
    refine (h.insertOffer hrow (hfree rfl).symm).writes (fun w hw => ?_) hrest
    simp only [mem_cons, not_mem_nil, or_false] at hw
    rcases hw with rfl | rfl | rfl <;> simp [Write.kind, OutboxEvent.isChange]
  | convertToPermanent input txNow => exact wp_giving (oneLive_convertToPermanent h input txNow)
  | _ => exact h.keeps (by simp [PlacementOp.kinds]) (by simp [PlacementOp.kinds])

end Programs

/-! ## Runs -/

/-- A move of the database in which every commit finds its guards standing. -/
abbrev GuardedPlacementStep :=
  Guarded (World.Step placementProgram) (@CommitsOn _ _ GuardStands PlacementOp)

/-- **One live attempt.** In a run whose commits all find their guards standing
no submittal has two live placements or two open offers. -/
theorem one_live_attempt {moves : List (Move PlacementOp)}
    {w : World placementStore PlacementOutcome}
    (hrun : Run GuardedPlacementStep (World.quiet .empty) moves w) : OneLiveAttempt w.db :=
  (World.invariant_of_run (fun op _ hd => oneLive_placementProgram op hd) hrun
    (World.onCourse_quiet _) oneLive_empty).2.attempt

/-! ### Two at once -/

def firstEngagement : Engagement := ⟨1, 10, 20, 30⟩

def plainTerms : OfferTerms := ⟨none, none, none, none, none⟩

def createFirstOffer : PlacementOp := .createOffer ⟨firstEngagement, plainTerms, 7⟩

def moveFirstOffer (target : OfferState) : PlacementOp :=
  .transitionOffer ⟨1, 100, target, true, 7, .none, none⟩

def createFirstPlacement : PlacementOp :=
  .createPlacement ⟨firstEngagement, some 100, none, none, none, none⟩ 5

/-- An accepted offer with the id 100. -/
def acceptFirstOffer : List (Move PlacementOp) :=
  [.start createFirstOffer] ++ World.advances 0 100 6 ++
    [.commit 0, .start (moveFirstOffer .sent)] ++
    World.advances 0 0 5 ++ [.commit 0, .start (moveFirstOffer .accepted)] ++
    World.advances 0 0 5 ++ [.commit 0]

/-- A placement under it. -/
def oneAttempt : List (Move PlacementOp) :=
  acceptFirstOffer ++ [.start createFirstPlacement] ++ World.advances 0 200 6 ++ [.commit 0]

theorem one_live_attempt_in_turn : ∃ w : World placementStore PlacementOutcome,
    Run GuardedPlacementStep (World.quiet .empty) oneAttempt w ∧
      w.db.placements.map (·.state) = [.preStart] ∧ OneLiveAttempt w.db := by
  obtain ⟨w, hrun, hp⟩ := World.guardedRun_of_moves placementProgram GuardStands
    (World.quiet .empty) oneAttempt
    (fun w : World placementStore PlacementOutcome => w.db.placements.map (·.state) == [.preStart])
    (by decide +kernel)
  exact ⟨w, hrun, beq_iff_eq.mp hp, one_live_attempt hrun⟩

/-- Two requests, each of which has done all its statements when the other
commits. -/
def overlapping (op : PlacementOp) (firstId count : Nat) : List (Move PlacementOp) :=
  [.start op, .start op] ++ World.advances 0 firstId count ++
    World.advances 1 (firstId + count) count ++
    [.commit 0, .commit 0]

/-- Two offers, or two placements, that are created at once. -/
theorem two_live_attempts :
    (∃ w : World placementStore PlacementOutcome,
      Run (World.Step placementProgram) (World.quiet .empty)
        (overlapping createFirstOffer 100 6) w ∧
        w.db.offers.map (·.state) = [.draft, .draft] ∧ ¬OneLiveAttempt w.db) ∧
    ∃ w : World placementStore PlacementOutcome,
      Run (World.Step placementProgram) (World.quiet .empty)
          (acceptFirstOffer ++ overlapping createFirstPlacement 200 6) w ∧
        w.db.placements.map (·.state) = [.preStart, .preStart] ∧ ¬OneLiveAttempt w.db := by
  constructor
  · obtain ⟨w, hrun, hp⟩ := World.run_of_moves placementProgram (World.quiet .empty)
      (overlapping createFirstOffer 100 6)
      (fun w : World placementStore PlacementOutcome =>
        decide (w.db.offers.map (·.state) = [.draft, .draft] ∧ ¬OneLiveAttempt w.db))
      (by decide +kernel)
    exact ⟨w, hrun, of_decide_eq_true hp⟩
  · obtain ⟨w, hrun, hp⟩ := World.run_of_moves placementProgram (World.quiet .empty)
      (acceptFirstOffer ++ overlapping createFirstPlacement 200 6)
      (fun w : World placementStore PlacementOutcome =>
        decide (w.db.placements.map (·.state) = [.preStart, .preStart] ∧ ¬OneLiveAttempt w.db))
      (by decide +kernel)
    exact ⟨w, hrun, of_decide_eq_true hp⟩

end AramoPlatform.Placement
