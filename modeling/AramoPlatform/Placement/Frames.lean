import AramoPlatform.Lib.Standing
import AramoPlatform.Placement.Effects

/-!
# Which tables an operation writes, and when

The kinds of writes that each operation is made of. What all writes of these
kinds keep, the operation keeps.

Every operation reads what it needs before it writes anything; only the guard
before an insert looks at the tables once more. So a load is answered from
committed rows, and what commits of the others keep of these rows is still
known at the commit.
-/

namespace AramoPlatform.Placement

open Lib List

inductive WriteKind where
  | insertPlacement
  | movePlacement
  | placementEvent
  | insertAssignment
  | endAssignment
  | insertRateVersion
  | changeRateVersion
  | insertPermanent
  | movePermanent
  | recordFalloff
  | permanentEvent
  | insertRemedy
  | completeRemedy
  | lineage
  | insertOffer
  | offerEvent
  | offerRevision
  | updateOffer
  | insertProposal
  | moveProposal
  | proposalEvent
  | insertTerm
  | closeTerm
  | outbox
  | outboxChange
  deriving DecidableEq

/-- The event tells of a change of state that has a journal. -/
def OutboxEvent.isChange : OutboxEvent → Bool
  | .stateChanged _ | .permanentChanged _ _ | .proposalStateChanged _ _ _ => true
  | _ => false

def Write.kind : Write → WriteKind
  | .placement (.insert _) => .insertPlacement
  | .placement (.setState _ _) => .movePlacement
  | .placement (.event _) => .placementEvent
  | .assignment (.insert _) => .insertAssignment
  | .assignment (.setEnded _ _ _) => .endAssignment
  | .rateVersion (.insert _) => .insertRateVersion
  | .rateVersion _ => .changeRateVersion
  | .permanent (.insert _) => .insertPermanent
  | .permanent (.setState _ _) => .movePermanent
  | .permanent (.recordFalloff _ _) => .recordFalloff
  | .permanent (.event _) => .permanentEvent
  | .remedy (.insert _) => .insertRemedy
  | .remedy (.complete _ _) => .completeRemedy
  | .lineage _ => .lineage
  | .offer (.insert _) => .insertOffer
  | .offer (.event _) => .offerEvent
  | .offer (.insertRevision _) => .offerRevision
  | .proposal (.insert _) => .insertProposal
  | .proposal (.update _ _ _) => .moveProposal
  | .proposal (.event _) => .proposalEvent
  | .term (.insert _) => .insertTerm
  | .term (.close _ _) => .closeTerm
  | .outbox event => if event.isChange then .outboxChange else .outbox

def PlacementOp.kinds : PlacementOp → List WriteKind
  | .createPlacement _ _ => [.insertPlacement, .outbox]
  | .transition _ => [.movePlacement, .placementEvent, .insertAssignment, .insertRateVersion,
      .insertPermanent, .permanentEvent, .outbox, .outboxChange]
  | .endAssignment _ _ => [.changeRateVersion, .endAssignment, .outbox]
  | .convertToPermanent _ _ => [.changeRateVersion, .endAssignment,
      .insertPlacement, .placementEvent,
      .insertPermanent, .permanentEvent, .lineage, .outbox]
  | .createCommercialRevision _ _ _ => [.insertRateVersion, .changeRateVersion, .outbox]
  | .cancelCommercialRevision _ _ => [.changeRateVersion, .outbox]
  | .permanentTransition _ _ _ => [.movePermanent, .permanentEvent, .outboxChange]
  | .recordFalloff _ _ =>
      [.recordFalloff, .movePermanent, .permanentEvent, .insertRemedy, .outboxChange]
  | .completeRemedy _ _ => [.completeRemedy, .movePermanent, .permanentEvent, .outboxChange]
  | .createOffer _ => [.insertOffer, .offerEvent, .offerRevision, .outbox]
  | .transitionOffer _ => [.updateOffer, .offerEvent, .offerRevision, .outbox]
  | .expireOverdueOffers _ _ => [.updateOffer, .offerEvent, .outbox]
  | .propose _ => [.insertProposal, .proposalEvent, .outboxChange]
  | .moveProposal _ _ _ => [.moveProposal, .proposalEvent, .outboxChange]
  | .decideProposal _ _ => [.insertRateVersion, .changeRateVersion, .moveProposal, .proposalEvent,
      .outbox, .outboxChange]
  | .createTerm _ => [.insertTerm, .outbox]
  | .reviseTerm _ _ => [.insertTerm, .closeTerm, .outbox]
  | .countActive _ _ _ | .countActiveIds _ _ _ => []

/-- The statement is a read, or a write of one of the kinds. -/
def Within (kinds : List WriteKind) : PlacementStmt → Prop
  | .read _ | .lockRead _ _ => True
  | .write w => w.kind ∈ kinds
  | .updateOffer _ => .updateOffer ∈ kinds

/-- A query that an operation goes on from. The guard before the insert of a
placement and the reads of an offer that was updated come after writes. -/
def Query.isLoad : Query → Bool
  | .livePlacement _ _ | .offerById _ | .revisionCount _ _ => false
  | _ => true

def Loads : PlacementStmt → Prop
  | .read q | .lockRead _ q => q.isLoad = true
  | _ => False

/-- A statement that may come after a write of the operation. -/
def After (kinds : List WriteKind) (s : PlacementStmt) : Prop := Within kinds s ∧ ¬ Loads s

namespace PlacementTx

variable {kinds : List WriteKind} {α : Type}

/-! ### The lists of writes -/

theorem kind_mem_of_subset {kind : WriteKind} {ks : List WriteKind} (h : kind ∈ ks)
    (hsub : ks ⊆ kinds) : kind ∈ kinds :=
  hsub h

theorem kind_of_mem_reconcileWrites {versions : List AssignmentRateVersion} {tEnd endedBy : Nat}
    {w : Write} (h : w ∈ reconcileWrites versions tEnd endedBy) :
    w.kind ∈ [WriteKind.changeRateVersion, .outbox] := by
  simp only [reconcileWrites, mem_append, mem_flatMap, mem_filter] at h
  rcases h with ⟨v, -, hw⟩ | hw
  · simp only [cancelWrites, mem_cons, not_mem_nil, or_false] at hw
    rcases hw with rfl | rfl <;> simp [Write.kind, OutboxEvent.isChange]
  · cases hfound : containing versions tEnd with
    | none =>
      rw [hfound] at hw
      cases hw
    | some v =>
      rw [hfound] at hw
      simp only [Option.elim_some, closeWrites, mem_append, mem_singleton] at hw
      rcases hw with hw | rfl
      · split at hw
        · obtain rfl := mem_singleton.mp hw
          simp [Write.kind]
        · cases hw
      · simp [Write.kind]

theorem kind_of_mem_endWrites {a : ContractAssignment} {versions : List AssignmentRateVersion}
    {reason : AssignmentEndReason} {tEnd endedBy : Nat} {w : Write}
    (h : w ∈ endWrites a versions reason tEnd endedBy) :
    w.kind ∈ [WriteKind.changeRateVersion, .endAssignment, .outbox] := by
  rcases mem_append.mp h with h | h
  · exact kind_mem_of_subset (kind_of_mem_reconcileWrites h) (by decide)
  · simp only [mem_cons, not_mem_nil, or_false] at h
    rcases h with rfl | rfl <;> simp [Write.kind, OutboxEvent.isChange]

theorem kind_of_mem_moveWrites {current : PlacementProcess} {target : PlacementState} {w : Write}
    (h : w ∈ moveWrites current target) :
    w.kind ∈ [WriteKind.movePlacement, .placementEvent, .outboxChange] := by
  simp only [moveWrites, mem_cons, not_mem_nil, or_false] at h
  rcases h with rfl | rfl | rfl <;> simp [Write.kind, OutboxEvent.isChange]

theorem kind_of_mem_permanentWrites {row : PermanentPlacement} {w : Write}
    (h : w ∈ permanentWrites row ∨ w ∈ permanentOutbox row) :
    w.kind ∈ [WriteKind.insertPermanent, .permanentEvent, .outbox] := by
  rcases h with h | h
  · simp only [permanentWrites, mem_cons, not_mem_nil, or_false] at h
    rcases h with rfl | rfl <;> simp [Write.kind]
  · simp only [permanentOutbox, mem_append, mem_cons, not_mem_nil, or_false,
      Option.mem_toList, Option.map_eq_some_iff] at h
    rcases h with (rfl | rfl) | ⟨v, -, rfl⟩ <;> simp [Write.kind, OutboxEvent.isChange]

/-! ### The operations -/

/-- Reads come first; from the first write on there are writes of the kinds and
reads that nothing depends on. -/
abbrev Prompt (kinds : List WriteKind) (t : PlacementTx α) : Prop :=
  t.LoadsFirst Reads fun s => ¬ After kinds s

section Prompt

variable {β : Type}

theorem prompt_of_only {t : PlacementTx α} (h : t.Only (After kinds)) : Prompt kinds t :=
  Tx.loadsFirst_of_only (Tx.only_mono h fun _ hs hnot => hnot hs)

theorem after_writeAll {ws : List Write} (h : ∀ w ∈ ws, w.kind ∈ kinds) :
    (writeAll ws).Only (After kinds) :=
  only_writeAll fun w hw => ⟨h w hw, fun hload => hload⟩

theorem prompt_writeAll {ws : List Write} (h : ∀ w ∈ ws, w.kind ∈ kinds) :
    Prompt kinds (writeAll ws) :=
  prompt_of_only (after_writeAll h)

theorem prompt_bind {t : PlacementTx α} {f : α → PlacementTx β} (ht : t.Only Reads)
    (h : ∀ a, Prompt kinds (f a)) : Prompt kinds (t.bind f) :=
  Tx.loadsFirst_bind ht h

theorem prompt_bind_read {q : Query} {f : q.Rows → PlacementTx β}
    (h : ∀ rows, Prompt kinds (f rows)) : Prompt kinds ((read q).bind f) :=
  prompt_bind ((only_read q).mpr trivial) h

theorem prompt_bind_lockRead {key : RowKey} {q : Query} {f : q.Rows → PlacementTx β}
    (h : ∀ rows, Prompt kinds (f rows)) : Prompt kinds ((lockRead key q).bind f) :=
  prompt_bind ((only_lockRead key q).mpr trivial) h

theorem prompt_bind_require {cond : Bool} {e : PlacementError} {f : Unit → PlacementTx β}
    (h : Prompt kinds (f ())) : Prompt kinds ((PlacementTx.require cond e).bind f) :=
  prompt_bind (only_require' cond e) fun _ => h

theorem prompt_bind_orThrow {found : Option α} {e : PlacementError} {f : α → PlacementTx β}
    (h : ∀ a, Prompt kinds (f a)) : Prompt kinds ((PlacementTx.orThrow found e).bind f) :=
  prompt_bind (only_orThrow found e) h

theorem prompt_bind_newId {f : Nat → PlacementTx β} (h : ∀ id, Prompt kinds (f id)) :
    Prompt kinds (newId.bind f) :=
  prompt_bind Tx.only_newId h

theorem prompt_then {t : PlacementTx α} {f : α → PlacementTx β} (ht : Prompt kinds t)
    (h : ∀ a, (f a).Only (After kinds)) : Prompt kinds (t.bind f) :=
  Tx.loadsFirst_bind_of_only ht fun a => Tx.only_mono (h a) fun _ hs hnot => hnot hs

theorem prompt_giving {t : PlacementTx α} {f : α → PlacementOutcome} (h : Prompt kinds t) :
    Prompt kinds (giving t f) :=
  prompt_then h fun _ => trivial

end Prompt

theorem prompt_createPlacement (input : CreatePlacementInput) (now : Nat) :
    Prompt [.insertPlacement, .outbox] (createPlacement input now) := by
  refine prompt_bind ?_ fun _ => prompt_bind_read fun attempts => ?_
  · cases input.replacesPlacementProcessId with
    | none => trivial
    | some r => exact Tx.only_bind ((only_read _).mpr trivial) fun _ =>
        Tx.only_bind (only_require' _ _) fun _ => only_require' _ _
  refine prompt_bind (Tx.only_forEach (only_checkAttempt _)) fun _ => ?_
  refine prompt_bind_orThrow fun offerId => prompt_bind_read fun _ => prompt_bind_require ?_
  refine prompt_bind_require (prompt_bind_newId fun id => prompt_bind_read fun _ => ?_)
  exact prompt_bind_require
    (prompt_then (prompt_writeAll (by simp [Write.kind, OutboxEvent.isChange]))
    fun _ => trivial)

theorem prompt_transition (input : TransitionInput) :
    Prompt [.movePlacement, .placementEvent, .insertAssignment, .insertRateVersion,
      .insertPermanent, .permanentEvent, .outbox, .outboxChange] (transition input) := by
  refine prompt_bind_read fun found => prompt_bind_orThrow fun current => prompt_bind_require ?_
  refine prompt_bind_require (prompt_bind_require (prompt_bind_require ?_))
  rw [moveTo]
  split
  · refine prompt_bind (only_resolvePermanentActivation _ _) fun guarantee => ?_
    refine prompt_bind_require (prompt_bind_newId fun id => prompt_writeAll fun w hw => ?_)
    simp only [mem_append] at hw
    rcases hw with (hw | hw) | hw
    · exact kind_mem_of_subset (kind_of_mem_moveWrites hw) (by decide)
    · exact kind_mem_of_subset (kind_of_mem_permanentWrites (.inl hw)) (by decide)
    · exact kind_mem_of_subset (kind_of_mem_permanentWrites (.inr hw)) (by decide)
  split
  · refine prompt_bind_orThrow fun companyId => prompt_bind_orThrow fun terms => ?_
    refine prompt_bind_orThrow fun recordedBy => prompt_bind_newId fun a =>
      prompt_bind_newId fun v => ?_
    exact prompt_writeAll (by simp [moveWrites, contractWrites, Write.kind, OutboxEvent.isChange])
  · exact prompt_bind_require (prompt_writeAll
      (by simp [moveWrites, Write.kind, OutboxEvent.isChange]))

theorem prompt_endAssignment (input : EndAssignmentInput) (txNow : Nat) :
    Prompt [.changeRateVersion, .endAssignment, .outbox] (endAssignment input txNow) := by
  refine prompt_bind (only_lockAssignment _ _) fun _ => prompt_bind_read fun existing => ?_
  exact prompt_bind_orThrow fun a => prompt_bind_read fun versions =>
    prompt_writeAll fun w => kind_of_mem_endWrites

theorem prompt_convertToPermanent (input : ConvertInput) (txNow : Nat) :
    Prompt [.changeRateVersion, .endAssignment, .insertPlacement, .placementEvent,
      .insertPermanent, .permanentEvent, .lineage, .outbox] (convertToPermanent input txNow) := by
  refine prompt_bind (only_lockAssignment _ _) fun _ => prompt_bind_read fun prior => ?_
  cases prior with
  | some _ => trivial
  | none =>
    refine prompt_bind_read fun found => prompt_bind_orThrow fun source => prompt_bind_require ?_
    refine prompt_bind_read fun existing => prompt_bind_orThrow fun a => ?_
    refine prompt_bind (only_resolveEffectiveTermRow _ _ _) fun stored => ?_
    refine prompt_bind_orThrow fun version => prompt_bind_read fun versions => ?_
    -- the guard before the insert of the target is no load
    refine prompt_then (prompt_writeAll fun w hw => ?_) fun _ => Tx.only_bind Tx.only_newId ?_
    · exact kind_mem_of_subset (kind_of_mem_endWrites hw) (by decide)
    intro targetId
    refine Tx.only_bind ((only_read _).mpr ⟨trivial, by simp [Loads, Query.isLoad]⟩) fun live => ?_
    refine Tx.only_bind (only_require' _ _) fun _ =>
      Tx.only_bind Tx.only_newId fun permanentId => ?_
    refine Tx.only_bind Tx.only_newId fun lineageId => after_writeAll fun w hw => ?_
    simp only [conversionWrites, mem_append] at hw
    rcases hw with (((hw | hw) | hw) | hw) | hw
    · simp only [mem_cons, not_mem_nil, or_false] at hw
      rcases hw with rfl | rfl <;> simp [Write.kind]
    · exact kind_mem_of_subset (kind_of_mem_permanentWrites (.inl hw)) (by decide)
    · obtain rfl := mem_singleton.mp hw
      simp [Write.kind]
    · exact kind_mem_of_subset (kind_of_mem_permanentWrites (.inr hw)) (by decide)
    · obtain rfl := mem_singleton.mp hw
      simp [Write.kind, OutboxEvent.isChange]

theorem prompt_appendCommercialRevisionInTx (input : RevisionInput) (tNew : Nat)
    (hkinds : [.insertRateVersion, .changeRateVersion, .outbox] ⊆ kinds) :
    Prompt kinds (appendCommercialRevisionInTx input tNew) := by
  refine prompt_bind (only_lockActiveAssignment _ _) fun a => prompt_bind_read fun open_ => ?_
  refine prompt_bind_orThrow fun predecessor => prompt_bind_require (prompt_bind_newId fun id => ?_)
  refine prompt_then (prompt_writeAll fun w hw => hkinds ?_) fun _ => trivial
  revert w
  simp [appendWrites, Write.kind, OutboxEvent.isChange]

theorem prompt_cancelCommercialRevision (input : CancelRevisionInput) (txNow : Nat) :
    Prompt [.changeRateVersion, .outbox] (cancelCommercialRevision input txNow) := by
  refine prompt_bind (only_lockActiveAssignment _ _) fun a => prompt_bind_read fun _ => ?_
  refine prompt_bind_orThrow fun target => prompt_bind_require (prompt_bind_require ?_)
  refine prompt_bind_require (prompt_bind_read fun before =>
    prompt_bind_orThrow fun predecessor => ?_)
  exact prompt_writeAll (by simp [cancelWrites, Write.kind, OutboxEvent.isChange])

theorem prompt_permanentTransition (ref : PermanentRef) (target : PermanentState) (todayUtc : Nat) :
    Prompt [.movePermanent, .permanentEvent, .outboxChange]
      (permanentTransition ref target todayUtc) := by
  refine prompt_bind (only_loadPermanent ref) fun current => prompt_bind_require ?_
  exact prompt_bind_require (prompt_writeAll
    (by simp [permanentRecord, Write.kind, OutboxEvent.isChange]))

theorem prompt_recordFalloff (input : FalloffInput) (now : Nat) :
    Prompt [.recordFalloff, .movePermanent, .permanentEvent, .insertRemedy, .outboxChange]
      (recordFalloff input now) := by
  refine prompt_bind (only_loadPermanent _) fun current => prompt_bind_require ?_
  refine prompt_bind_require (prompt_bind_require (prompt_bind_newId fun id => ?_))
  exact prompt_writeAll (by simp [falloffWrites, permanentRecord, Write.kind, OutboxEvent.isChange])

theorem prompt_completeRemedy (input : CompletionInput) (now : Nat) :
    Prompt [.completeRemedy, .movePermanent, .permanentEvent, .outboxChange]
      (completeRemedy input now) := by
  refine prompt_bind (only_loadPermanent _) fun current => prompt_bind_read fun found => ?_
  refine prompt_bind_orThrow fun remedy => prompt_bind_require (prompt_bind_require ?_)
  refine prompt_bind (only_validateCompletionEvidence _ _ _ _) fun completion => ?_
  exact prompt_writeAll (by simp [completionWrites, permanentRecord, Write.kind,
    OutboxEvent.isChange])

theorem prompt_createOffer (input : CreateOfferInput) :
    Prompt [.insertOffer, .offerEvent, .offerRevision, .outbox] (createOffer input) := by
  refine prompt_bind_newId fun id => prompt_bind_read fun _ => prompt_bind_require ?_
  exact prompt_then (prompt_writeAll (by simp [Write.kind, OutboxEvent.isChange])) fun _ => trivial

theorem prompt_transitionOffer (input : TransitionOfferInput) :
    Prompt [.updateOffer, .offerEvent, .offerRevision, .outbox] (transitionOffer input) := by
  refine prompt_bind_read fun found => prompt_bind_orThrow fun existing => ?_
  refine prompt_bind_orThrow fun action => prompt_bind_require (prompt_of_only ?_)
  -- from the update on there are reads of the locked row alone
  refine Tx.only_bind ((only_updateOffer _).mpr ⟨by simp [Within], fun h => h⟩) fun hit => ?_
  refine Tx.only_bind (only_require' _ _) fun _ => ?_
  refine Tx.only_bind ((only_lockRead _ _).mpr ⟨trivial, by simp [Loads, Query.isLoad]⟩)
    fun row => ?_
  refine Tx.only_bind (only_orThrow _ _) fun updated => Tx.only_bind ?_ fun _ => Tx.only_when ?_
  · exact after_writeAll (by simp [offerRecord, Write.kind, OutboxEvent.isChange])
  refine Tx.only_bind ((only_lockRead _ _).mpr ⟨trivial, by simp [Loads, Query.isLoad]⟩) fun _ => ?_
  exact (only_write _).mpr ⟨by simp [Within, Write.kind], fun h => h⟩

theorem prompt_expireOverdueOffers (now item : Nat) :
    Prompt [.updateOffer, .offerEvent, .outbox] (expireOverdueOffers now item) := by
  refine prompt_bind_read fun overdue => prompt_bind_orThrow fun o => prompt_of_only ?_
  refine Tx.only_bind ((only_updateOffer _).mpr ⟨by simp [Within], fun h => h⟩) fun hit => ?_
  exact Tx.only_when (after_writeAll (by simp [offerRecord, Write.kind, OutboxEvent.isChange]))

theorem prompt_createCommercialRevisionProposal (input : ProposeInput) :
    Prompt [.insertProposal, .proposalEvent, .outboxChange]
      (createCommercialRevisionProposal input) := by
  refine prompt_bind_read fun found => prompt_bind_orThrow fun a => prompt_bind_require ?_
  refine prompt_bind_read fun open_ => prompt_bind_orThrow fun reference => ?_
  refine prompt_bind_newId fun id => prompt_then (prompt_writeAll ?_) fun _ => trivial
  simp [proposalRecord, Write.kind, OutboxEvent.isChange]

theorem prompt_transitionCommercialRevisionProposal (ref : ProposalRef) (withdraw : Bool)
    (actorId : Nat) :
    Prompt [.moveProposal, .proposalEvent, .outboxChange]
      (transitionCommercialRevisionProposal ref withdraw actorId) := by
  refine prompt_bind (only_loadProposal ref) fun p => prompt_bind_require (prompt_writeAll ?_)
  simp [proposalWrites, proposalRecord, Write.kind, OutboxEvent.isChange]

theorem prompt_decideCommercialRevisionProposal (input : DecideInput) (now : Nat) :
    Prompt [.insertRateVersion, .changeRateVersion, .moveProposal, .proposalEvent, .outbox,
      .outboxChange] (decideCommercialRevisionProposal input now) := by
  refine prompt_bind (only_loadProposal _) fun p => prompt_bind_require (prompt_bind_require ?_)
  refine prompt_bind_require (prompt_bind_require ?_)
  split
  · refine prompt_bind_lockRead fun state => ?_
    split
    · trivial
    refine prompt_bind_require (prompt_bind_require ?_)
    refine prompt_then (prompt_appendCommercialRevisionInTx _ _ (by decide)) fun applied => ?_
    exact after_writeAll (by simp [appliedWrites, proposalRecord, Write.kind, OutboxEvent.isChange])
  · exact prompt_writeAll (by simp [proposalWrites, proposalRecord, Write.kind,
      OutboxEvent.isChange])

theorem prompt_reviseTerm (input : TermInput) (todayUtc : Nat) :
    Prompt [.insertTerm, .closeTerm, .outbox] (reviseTerm input todayUtc) := by
  refine prompt_bind_require (prompt_bind_read fun found =>
    prompt_bind_orThrow fun predecessor => ?_)
  refine prompt_bind_require (prompt_bind_newId fun id => prompt_writeAll ?_)
  simp [reviseWrites, Write.kind, OutboxEvent.isChange]

theorem only_bothReads (q q' : Query) (swapped : Bool) : (bothReads q q' swapped).Only Reads := by
  cases swapped with
  | true | false => exact ⟨trivial, fun _ => ⟨trivial, fun _ => trivial⟩⟩

end PlacementTx

open PlacementTx

/-- **What an operation writes**, and that its loads come first. -/
theorem prompt_placementProgram (op : PlacementOp) : Prompt op.kinds (placementProgram op) := by
  cases op with
  | createPlacement input now => exact prompt_giving (prompt_createPlacement input now)
  | transition input => exact prompt_giving (prompt_transition input)
  | endAssignment input txNow => exact prompt_giving (prompt_endAssignment input txNow)
  | convertToPermanent input txNow => exact prompt_giving (prompt_convertToPermanent input txNow)
  | createCommercialRevision input effectiveFrom now =>
    refine prompt_giving (prompt_bind_require ?_)
    exact prompt_then (prompt_appendCommercialRevisionInTx _ _ fun _ h => h) fun _ => trivial
  | cancelCommercialRevision input txNow =>
    exact prompt_giving (prompt_cancelCommercialRevision input txNow)
  | permanentTransition ref target todayUtc =>
    exact prompt_giving (prompt_permanentTransition ref target todayUtc)
  | recordFalloff input now => exact prompt_giving (prompt_recordFalloff input now)
  | completeRemedy input now => exact prompt_giving (prompt_completeRemedy input now)
  | createOffer input => exact prompt_giving (prompt_createOffer input)
  | transitionOffer input => exact prompt_giving (prompt_transitionOffer input)
  | expireOverdueOffers now item => exact prompt_giving (prompt_expireOverdueOffers now item)
  | propose input => exact prompt_giving (prompt_createCommercialRevisionProposal input)
  | moveProposal ref withdraw actorId =>
    exact prompt_giving (prompt_transitionCommercialRevisionProposal ref withdraw actorId)
  | decideProposal input now =>
    exact prompt_giving (prompt_decideCommercialRevisionProposal input now)
  | createTerm input =>
    exact prompt_giving (prompt_bind_newId fun id => prompt_writeAll
      (by simp [Write.kind, OutboxEvent.isChange, PlacementOp.kinds]))
  | reviseTerm input todayUtc => exact prompt_giving (prompt_reviseTerm input todayUtc)
  | countActive tenantId requisitionId swapped =>
    exact prompt_giving (prompt_bind (only_bothReads _ _ _) fun _ => trivial)
  | countActiveIds tenantId requisitionIds swapped =>
    refine prompt_giving ?_
    unfold countActiveByRequisitionIds
    split
    · trivial
    · exact prompt_bind (only_bothReads _ _ _) fun _ => trivial

theorem only_placementProgram (op : PlacementOp) :
    (placementProgram op).Only (Within op.kinds) := by
  refine (prompt_placementProgram op).only (fun s hs => ?_) fun s hs => (not_not.mp hs).1
  cases s with
  | read q | lockRead key q => trivial
  | write w | updateOffer u => cases hs

/-- **Loads first**, in every operation. -/
theorem loadsFirst_placementProgram (op : PlacementOp) :
    (placementProgram op).LoadsFirst Reads Loads :=
  (prompt_placementProgram op).mono fun _ hload hafter => hafter.2 hload

/-- **The frame rule**: what every write of its kinds keeps, an operation
keeps. -/
theorem wp_of_kinds {ok : placementStore.Check} {I : PlacementDb → Prop} {op : PlacementOp}
    {d : PlacementDb}
    (hwrite : ∀ (w : Write) d, w.kind ∈ op.kinds → w.allowed d = true → I d → I (w.apply d))
    (hupdate : ∀ (u : OfferUpdate) d, .updateOffer ∈ op.kinds → u.allowed d = true → I d →
      I (u.apply d)) (hd : I d) :
    (placementProgram op).wp ok (fun _ d' => I d') d := by
  refine Tx.wp_of_only (only_placementProgram op) ?_ hd
  intro s a d hs _ hallowed hI
  cases s with
  | read q | lockRead key q => exact hI
  | write w => exact hwrite w d hs hallowed hI
  | updateOffer u => exact hupdate u d hs hallowed hI

theorem applyAll_induction {I : PlacementDb → Prop} {ws : List Write} {d : PlacementDb}
    (hwrite : ∀ w ∈ ws, ∀ d, w.allowed d = true → I d → I (w.apply d))
    (hadmits : admitsAll ws d = true) (hd : I d) : I (applyAll ws d) := by
  induction ws generalizing d with
  | nil => exact hd
  | cons w rest ih =>
    obtain ⟨hallowed, hrest⟩ := (admitsAll_cons w rest d).mp hadmits
    refine ih (fun x hx => hwrite x (mem_cons_of_mem w hx)) hrest ?_
    exact hwrite w mem_cons_self d hallowed hd

end AramoPlatform.Placement
