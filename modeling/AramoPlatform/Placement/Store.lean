import AramoPlatform.Lib.Transactions
import AramoPlatform.Placement.Writes

/-!
# The placement tables as a store

The queries of the placement and offer repositories and of the guards in the
migrations, and the statements of their transactions. A statement outside of a
transaction is a read before its first write.
-/

namespace AramoPlatform.Placement

open Js Lib

/-! ## Queries -/

inductive Query where
  | placement (tenantId id : Nat)
  /-- The placements of a submittal outside of `DUPLICATE_GUARD_INACTIVE`. -/
  | attempts (tenantId submittalId : Nat)
  | endedAssignments (tenantId placementProcessId : Nat)
  /-- The row that `enforce_placement_one_live_guard` looks for. -/
  | livePlacement (tenantId submittalId : Nat)
  | acceptedOffer (tenantId id : Nat)
  | assignment (tenantId placementProcessId : Nat)
  | activeAssignment (tenantId placementProcessId : Nat)
  | rateVersions (tenantId assignmentId : Nat)
  | openRateVersion (tenantId assignmentId : Nat)
  | rateVersion (tenantId assignmentId id : Nat)
  | rateVersionEndingAt (tenantId assignmentId effectiveTo : Nat)
  | permanent (tenantId placementProcessId : Nat)
  | remedy (tenantId permanentPlacementId : Nat)
  | conversion (tenantId sourcePlacementProcessId : Nat)
  | offer (tenantId id : Nat)
  | offerById (id : Nat)
  /-- The row that `enforce_offer_lifecycle` looks for. -/
  | liveOffer (tenantId submittalId : Nat)
  /-- One of the rows that a sweep lists. -/
  | overdueOffer (now item : Nat)
  | revisionCount (tenantId offerId : Nat)
  | proposal (tenantId placementProcessId id : Nat)
  | proposalState (tenantId id : Nat)
  | openTerm (tenantId requisitionId : Nat)
  | effectiveTerms (tenantId requisitionId asOf : Nat)
  | activeCount (tenantId requisitionId : Nat)
  | consumingCount (tenantId requisitionId : Nat)
  | activeByRequisition (tenantId : Nat) (requisitionIds : List Nat)
  | consumingByRequisition (tenantId : Nat) (requisitionIds : List Nat)

abbrev Query.Rows : Query → Type
  | .placement _ _ => Option PlacementProcess
  | .attempts _ _ => List PlacementProcess
  | .endedAssignments _ _ | .revisionCount _ _ | .activeCount _ _ | .consumingCount _ _ => Nat
  | .livePlacement _ _ | .liveOffer _ _ => Bool
  | .acceptedOffer _ _ | .offer _ _ | .offerById _ | .overdueOffer _ _ => Option Offer
  | .assignment _ _ | .activeAssignment _ _ => Option ContractAssignment
  | .rateVersions _ _ => List AssignmentRateVersion
  | .openRateVersion _ _ | .rateVersion _ _ _ | .rateVersionEndingAt _ _ _ =>
      Option AssignmentRateVersion
  | .permanent _ _ => Option PermanentPlacement
  | .remedy _ _ => Option PermanentPlacementRemedy
  | .conversion _ _ => Option ConversionLineage
  | .proposal _ _ _ => Option CommercialRevisionProposal
  | .proposalState _ _ => Option ProposalState
  | .openTerm _ _ => Option GuaranteeTermVersion
  | .effectiveTerms _ _ _ => List GuaranteeTermVersion
  | .activeByRequisition _ _ | .consumingByRequisition _ _ => List (Nat × Nat)

instance Query.decEqRows : (q : Query) → DecidableEq q.Rows
  | .placement _ _ => inferInstanceAs (DecidableEq (Option PlacementProcess))
  | .attempts _ _ => inferInstanceAs (DecidableEq (List PlacementProcess))
  | .endedAssignments _ _ | .revisionCount _ _ | .activeCount _ _ | .consumingCount _ _ =>
      inferInstanceAs (DecidableEq Nat)
  | .livePlacement _ _ | .liveOffer _ _ => inferInstanceAs (DecidableEq Bool)
  | .acceptedOffer _ _ | .offer _ _ | .offerById _ | .overdueOffer _ _ =>
      inferInstanceAs (DecidableEq (Option Offer))
  | .assignment _ _ | .activeAssignment _ _ =>
      inferInstanceAs (DecidableEq (Option ContractAssignment))
  | .rateVersions _ _ => inferInstanceAs (DecidableEq (List AssignmentRateVersion))
  | .openRateVersion _ _ | .rateVersion _ _ _ | .rateVersionEndingAt _ _ _ =>
      inferInstanceAs (DecidableEq (Option AssignmentRateVersion))
  | .permanent _ _ => inferInstanceAs (DecidableEq (Option PermanentPlacement))
  | .remedy _ _ => inferInstanceAs (DecidableEq (Option PermanentPlacementRemedy))
  | .conversion _ _ => inferInstanceAs (DecidableEq (Option ConversionLineage))
  | .proposal _ _ _ => inferInstanceAs (DecidableEq (Option CommercialRevisionProposal))
  | .proposalState _ _ => inferInstanceAs (DecidableEq (Option ProposalState))
  | .openTerm _ _ => inferInstanceAs (DecidableEq (Option GuaranteeTermVersion))
  | .effectiveTerms _ _ _ => inferInstanceAs (DecidableEq (List GuaranteeTermVersion))
  | .activeByRequisition _ _ | .consumingByRequisition _ _ =>
      inferInstanceAs (DecidableEq (List (Nat × Nat)))

namespace PlacementDb

/-- An `ENDED` assignment is recorded for the placement. -/
def hasEnded (d : PlacementDb) (placementProcessId : Nat) : Bool :=
  d.assignments.any fun a => a.placementProcessId == placementProcessId &&
    a.lifecycleState == .ended

/-- The placement takes its submittal: the condition of
`enforce_placement_one_live_guard`. -/
def live (d : PlacementDb) (p : PlacementProcess) : Bool :=
  !isPlacementGuardReleased p.state (d.hasEnded p.id)

def rateVersionsOf (d : PlacementDb) (tenantId assignmentId : Nat) : List AssignmentRateVersion :=
  d.rateVersions.filter fun v => v.tenantId == tenantId && v.contractAssignmentId == assignmentId &&
    v.cancellation.isNone

def termsOf (d : PlacementDb) (tenantId requisitionId : Nat) : List GuaranteeTermVersion :=
  d.termVersions.filter fun v => v.tenantId == tenantId && v.requisitionId == requisitionId

/-- The open offers whose expiry was before an instant. -/
def overdueOffers (d : PlacementDb) (now : Nat) : List Offer := d.offers.filter fun o =>
  (o.state == .sent || o.state == .negotiation) && o.terms.offerExpiresAt.any
    fun t => decide (t < now)

/-- An assignment that takes a seat of the requisition. -/
def isActiveIn (tenantId requisitionId : Nat) (a : ContractAssignment) : Bool :=
  a.engagement.tenantId == tenantId && a.engagement.requisitionId == requisitionId &&
    a.lifecycleState == .active

/-- A permanent placement that takes a seat of the requisition. -/
def isConsumingIn (tenantId requisitionId : Nat) (p : PermanentPlacement) : Bool :=
  p.engagement.tenantId == tenantId && p.engagement.requisitionId == requisitionId &&
    p.lifecycleState.consuming

/-- `groupBy`: one row for each of the requisitions that is counted at all. -/
def grouped (requisitionIds : List Nat) (count : Nat → Nat) : List (Nat × Nat) :=
  (requisitionIds.dedup.map fun r => (r, count r)).filter fun row => row.2 != 0

def answer (d : PlacementDb) : (q : Query) → q.Rows
  | .placement tenantId id =>
      d.placements.find? fun p => p.engagement.tenantId == tenantId && p.id == id
  | .attempts tenantId submittalId => d.placements.filter fun p =>
      p.engagement.tenantId == tenantId && p.engagement.submittalId == submittalId &&
        !p.state.guardInactive
  | .endedAssignments tenantId placementProcessId => d.assignments.countP fun a =>
      a.engagement.tenantId == tenantId && a.placementProcessId == placementProcessId &&
        a.lifecycleState == .ended
  | .livePlacement tenantId submittalId => d.placements.any fun p =>
      p.engagement.tenantId == tenantId && p.engagement.submittalId == submittalId && d.live p
  | .acceptedOffer tenantId id => d.offers.find? fun o =>
      o.engagement.tenantId == tenantId && o.id == id && o.state == .accepted
  | .assignment tenantId placementProcessId => d.assignments.find? fun a =>
      a.engagement.tenantId == tenantId && a.placementProcessId == placementProcessId
  | .activeAssignment tenantId placementProcessId => d.assignments.find? fun a =>
      a.engagement.tenantId == tenantId && a.placementProcessId == placementProcessId &&
        a.lifecycleState == .active
  | .rateVersions tenantId assignmentId =>
      (d.rateVersionsOf tenantId assignmentId).insertionSort fun v w =>
        v.effectiveFrom ≤ w.effectiveFrom
  | .openRateVersion tenantId assignmentId =>
      (d.rateVersionsOf tenantId assignmentId).find? (·.effectiveTo.isNone)
  | .rateVersion tenantId assignmentId id => d.rateVersions.find? fun v =>
      v.tenantId == tenantId && v.contractAssignmentId == assignmentId && v.id == id
  | .rateVersionEndingAt tenantId assignmentId effectiveTo =>
      (d.rateVersionsOf tenantId assignmentId).find? (·.effectiveTo == some effectiveTo)
  | .permanent tenantId placementProcessId => d.permanents.find? fun p =>
      p.engagement.tenantId == tenantId && p.placementProcessId == placementProcessId
  | .remedy tenantId permanentPlacementId => d.remedies.find? fun r =>
      r.tenantId == tenantId && r.permanentPlacementId == permanentPlacementId
  | .conversion tenantId sourcePlacementProcessId => d.lineages.find? fun l =>
      l.tenantId == tenantId && l.sourcePlacementProcessId == sourcePlacementProcessId
  | .offer tenantId id => d.offers.find? fun o => o.engagement.tenantId == tenantId && o.id == id
  | .offerById id => d.offers.find? (·.id == id)
  | .liveOffer tenantId submittalId => d.offers.any fun o =>
      o.engagement.tenantId == tenantId && o.engagement.submittalId == submittalId &&
        !o.state.isTerminal
  | .overdueOffer now item => (d.overdueOffers now)[item]?
  | .revisionCount tenantId offerId =>
      d.offerRevisions.countP fun r => r.tenantId == tenantId && r.offerId == offerId
  | .proposal tenantId placementProcessId id => d.proposals.find? fun p =>
      p.tenantId == tenantId && p.placementProcessId == placementProcessId && p.id == id
  | .proposalState tenantId id =>
      (d.proposals.find? fun p => p.id == id && p.tenantId == tenantId).map (·.state)
  | .openTerm tenantId requisitionId =>
      ((d.termsOf tenantId requisitionId).filter (·.effectiveTo.isNone)
        |>.insertionSort fun v w => w.effectiveFrom ≤ v.effectiveFrom).head?
  | .effectiveTerms tenantId requisitionId asOf =>
      ((d.termsOf tenantId requisitionId).filter (·.window.covers asOf)
        |>.insertionSort fun v w => w.effectiveFrom ≤ v.effectiveFrom).take 2
  | .activeCount tenantId requisitionId => d.assignments.countP (isActiveIn tenantId requisitionId)
  | .consumingCount tenantId requisitionId =>
      d.permanents.countP (isConsumingIn tenantId requisitionId)
  | .activeByRequisition tenantId requisitionIds =>
      grouped requisitionIds fun r => d.assignments.countP (isActiveIn tenantId r)
  | .consumingByRequisition tenantId requisitionIds =>
      grouped requisitionIds fun r => d.permanents.countP (isConsumingIn tenantId r)

end PlacementDb

/-! ## Statements -/

inductive PlacementError where
  | notFound
  | predecessorNotFound
  | predecessorNotTerminal
  | placementAlreadyLive
  | offerIdRequired
  | offerNotAccepted
  | offerExpiresBeforeOffered
  | placementStateInvalid
  | transitionReasonInvalid
  | guaranteeTermsNotAllowed
  | recordedByRequired
  | termsRequired
  | termsConflict
  | termsNotFound
  | termsAmbiguous
  | startContextRequired
  | startCommercialTermsRequired
  | commercialTermsNotAllowed
  | sourceNotStarted
  | activeAssignmentNotFound
  | openCommercialVersionNotFound
  | effectiveFromInPast
  | effectiveFromNotAfterCurrent
  | alreadyCancelled
  | revisionNotFuture
  | cancellationWouldCreateGap
  | permanentPlacementNotFound
  | permanentStateInvalid
  | guaranteeWindowNotElapsed
  | falloffWindowInvalid
  | remedyAlreadyCompleted
  | remedyInvalid
  | offerAlreadyLive
  | offerIllegalTransition
  | offerTransitionConflict
  | policyDenied
  | proposalStateInvalid
  | proposalSelfApproval
  | proposalStageConflict
  | revisionBackdated
  | revisionNotAfterPredecessor
  /-- A constraint or a trigger of the schema. -/
  | violation
  deriving DecidableEq

inductive PlacementStmt where
  | read (q : Query)
  /-- `SELECT … FOR UPDATE`, or a read of a row that the transaction has locked. -/
  | lockRead (key : RowKey) (q : Query)
  | write (w : Write)
  | updateOffer (u : OfferUpdate)

abbrev PlacementStmt.Ans : PlacementStmt → Type
  | .read q | .lockRead _ q => q.Rows
  | .write _ => Unit
  -- a row was updated
  | .updateOffer _ => Bool

abbrev placementStore : Store where
  Db := PlacementDb
  Stmt := PlacementStmt
  Ans := PlacementStmt.Ans
  Key := RowKey
  Err := PlacementError
  decKey := inferInstance
  answer
    | .read q, d | .lockRead _ q, d => d.answer q
    | .write _, _ => ()
    | .updateOffer u, d => d.offers.any u.hits
  effect
    | .read _, d | .lockRead _ _, d => d
    | .write w, d => w.apply d
    | .updateOffer u, d => u.apply d
  allowed
    | .read _, _ | .lockRead _ _, _ => true
    | .write w, d => w.allowed d
    | .updateOffer u, d => u.allowed d
  locks
    | .read _ => []
    | .lockRead key _ => [key]
    | .write w => w.locks
    | .updateOffer u => [.offer u.id]

/-- The answers to some of the queries are what they would be again. -/
def Rereads (asked : Query → Bool) : placementStore.Check
  | .read q, rows, d | .lockRead _ q, rows, d => asked q = true → rows = d.answer q
  | _, _, _ => True

instance (asked : Query → Bool) :
    (s : PlacementStmt) → (a : PlacementStmt.Ans s) → (d : PlacementDb) →
      Decidable (Rereads asked s a d)
  | .read q, rows, d | .lockRead _ q, rows, d =>
      inferInstanceAs (Decidable (asked q = true → rows = d.answer q))
  | .write _, _, _ | .updateOffer _, _, _ => inferInstanceAs (Decidable True)

abbrev PlacementTx (α : Type) := Tx placementStore α

namespace PlacementTx

def read (q : Query) : PlacementTx q.Rows := Tx.perform (σ := placementStore) (.read q)

def lockRead (key : RowKey) (q : Query) : PlacementTx q.Rows :=
  Tx.perform (σ := placementStore) (.lockRead key q)

def write (w : Write) : PlacementTx Unit := Tx.perform (σ := placementStore) (.write w)

def updateOffer (u : OfferUpdate) : PlacementTx Bool :=
  Tx.perform (σ := placementStore) (.updateOffer u)

def refuse {α : Type} (e : PlacementError) : PlacementTx α := Tx.throw (σ := placementStore) e

def require (cond : Bool) (e : PlacementError) : PlacementTx Unit :=
  Tx.require (σ := placementStore) cond e

def newId : PlacementTx Nat := Tx.newId

/-- Some writes, one after another. -/
def writeAll (ws : List Write) : PlacementTx Unit := Tx.forEach ws write

def orThrow {α : Type} (found : Option α) (e : PlacementError) : PlacementTx α :=
  match found with
  | some a => .pure a
  | none => refuse e

end PlacementTx

/-! ## Lists of writes -/

/-- The tables after some writes. -/
def applyAll (ws : List Write) (d : PlacementDb) : PlacementDb := ws.foldl (fun d w => w.apply d) d

/-- The constraints let all of them pass. -/
def admitsAll : List Write → PlacementDb → Bool
  | [], _ => true
  | w :: rest, d => w.allowed d && admitsAll rest (w.apply d)

@[simp] theorem applyAll_nil (d : PlacementDb) : applyAll [] d = d := rfl

@[simp] theorem applyAll_cons (w : Write) (rest : List Write) (d : PlacementDb) :
    applyAll (w :: rest) d = applyAll rest (w.apply d) := rfl

theorem applyAll_append (ws more : List Write) (d : PlacementDb) :
    applyAll (ws ++ more) d = applyAll more (applyAll ws d) := List.foldl_append ..

@[simp] theorem admitsAll_nil (d : PlacementDb) : admitsAll [] d = true := rfl

@[simp] theorem admitsAll_cons (w : Write) (rest : List Write) (d : PlacementDb) :
    admitsAll (w :: rest) d = true ↔ w.allowed d = true ∧ admitsAll rest (w.apply d) = true :=
  Bool.and_eq_true_iff

theorem admitsAll_append {ws more : List Write} {d : PlacementDb} :
    admitsAll (ws ++ more) d = true ↔
      admitsAll ws d = true ∧ admitsAll more (applyAll ws d) = true := by
  induction ws generalizing d with
  | nil => simp
  | cons w rest ih => simp [ih, and_assoc]

/-! ## Weakest preconditions -/

namespace PlacementTx

variable {ok : placementStore.Check} {d : PlacementDb}

theorem wp_writeAll {Q : Unit → PlacementDb → Prop} {ws : List Write}
    (h : admitsAll ws d = true → Q () (applyAll ws d)) : (writeAll ws).wp ok Q d := by
  induction ws generalizing d with
  | nil => exact h rfl
  | cons w rest ih =>
    intro _ _ hallowed
    exact ih fun hrest => h (admitsAll_cons w rest d |>.mpr ⟨hallowed, hrest⟩)

end PlacementTx

end AramoPlatform.Placement
