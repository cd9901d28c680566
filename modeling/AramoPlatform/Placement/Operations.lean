import AramoPlatform.Placement.Programs

/-!
# The other repositories, and all operations

Permanent placements with their guarantee, offers, proposals of a new rate,
versions of guarantee terms and the counts of taken seats.
-/

namespace AramoPlatform.Placement

open Js Lib

namespace PlacementTx

/-! ## `PermanentPlacementRepository` -/

structure PermanentRef where
  tenantId : Nat
  placementProcessId : Nat
  deriving DecidableEq

def loadPermanent (ref : PermanentRef) : PlacementTx PermanentPlacement := do
  let found ← read (.permanent ref.tenantId ref.placementProcessId)
  orThrow found .permanentPlacementNotFound

/-- A new state, its event and its outbox row. -/
def permanentRecord (type : PermanentEventType) (change : Entry PermanentState) : List Write :=
  [.permanent (.event change), .outbox (.permanentChanged type change)]

/-- Any target that the request body accepts, under one type of event. -/
def permanentTransition (ref : PermanentRef) (target : PermanentState) (todayUtc : Nat) :
    PlacementTx Unit := do
  let current ← loadPermanent ref
  require (canTransitionPermanentPlacement current.lifecycleState target) .permanentStateInvalid
  require (target != .guaranteeSatisfied || decide (current.guarantee.endDate ≤ todayUtc))
    .guaranteeWindowNotElapsed
  writeAll (.permanent (.setState current.id target) ::
    permanentRecord .guaranteeSatisfied ⟨current.id, some current.lifecycleState, target⟩)

/-- The quotient, rounded half up. -/
def roundedShare (amount part whole : Nat) : Nat := (2 * amount * part + whole) / (2 * whole)

def computeRemedyObligation (g : GuaranteeSnapshot) (falloffDate : Nat) : RemedyObligation :=
  match g.terms.remedyPolicy with
  | .replacement => ⟨.replacement, none, none, none⟩
  | .refund => ⟨.refund, some g.terms.exposureAmount, some g.terms.exposureCurrency, none⟩
  | .proratedCredit =>
      let remaining := min (g.endDate - falloffDate) g.terms.durationDays
      ⟨.proratedCredit, some (roundedShare g.terms.exposureAmount remaining g.terms.durationDays),
        some g.terms.exposureCurrency, some remaining⟩

theorem remedyType_computeRemedyObligation (g : GuaranteeSnapshot) (falloffDate : Nat) :
    (computeRemedyObligation g falloffDate).remedyType = g.terms.remedyPolicy := by
  unfold computeRemedyObligation
  cases g.terms.remedyPolicy <;> rfl

structure FalloffInput where
  ref : PermanentRef
  /-- A governed reason code. -/
  reason : JsString
  effectiveDate : Nat
  recordedBy : Nat
  deriving DecidableEq

def falloffWrites (current : PermanentPlacement) (remedy : PermanentPlacementRemedy)
    (falloff : Falloff) : List Write :=
  let due := current.guarantee.terms.remedyPolicy.dueState
  .permanent (.recordFalloff current.id falloff) ::
    permanentRecord .fellOff ⟨current.id, some current.lifecycleState, .fellOff⟩ ++
    [.remedy (.insert remedy), .permanent (.setState current.id due)] ++
    permanentRecord .remedyDue ⟨current.id, some .fellOff, due⟩

def remedyRow (id : Nat) (current : PermanentPlacement) (falloff : Falloff) :
    PermanentPlacementRemedy where
  id := id
  tenantId := current.engagement.tenantId
  permanentPlacementId := current.id
  obligation := computeRemedyObligation current.guarantee falloff.effectiveDate
  falloffEffectiveDate := falloff.effectiveDate
  createdBy := falloff.recordedBy
  dueAt := falloff.recordedAt
  completion := none

def recordFalloff (input : FalloffInput) (now : Nat) : PlacementTx Unit := do
  let current ← loadPermanent input.ref
  require (canTransitionPermanentPlacement current.lifecycleState .fellOff) .permanentStateInvalid
  require (decide (current.guarantee.startDate ≤ input.effectiveDate)) .falloffWindowInvalid
  require (decide (input.effectiveDate < current.guarantee.endDate)) .falloffWindowInvalid
  let falloff : Falloff := ⟨input.effectiveDate, input.reason, input.recordedBy, now⟩
  let id ← newId
  writeAll (falloffWrites current (remedyRow id current falloff) falloff)

structure CompletionInput where
  ref : PermanentRef
  completedBy : Nat
  /-- Trimmed. -/
  externalReference : Option JsString
  replacementPlacementProcessId : Option Nat
  deriving DecidableEq

def externalReferenceMax : Nat := 255

/-- A replacement is another started permanent placement of the requisition. -/
def isReplacement (current : PermanentPlacement) (found : Option PlacementProcess) : Bool :=
  found.any fun p => p.engagement.requisitionId == current.engagement.requisitionId &&
    p.placementKind == some .permanent && p.state == .started

def replacementEvidence (current : PermanentPlacement) (input : CompletionInput) (now : Nat) :
    PlacementTx RemedyCompletion := do
  require input.externalReference.isNone .remedyInvalid
  let replacementId ← orThrow input.replacementPlacementProcessId .remedyInvalid
  require (replacementId != current.placementProcessId) .remedyInvalid
  let found ← read (.placement current.engagement.tenantId replacementId)
  require (isReplacement current found) .remedyInvalid
  .pure ⟨now, input.completedBy, none, some replacementId⟩

def monetaryEvidence (input : CompletionInput) (now : Nat) : PlacementTx RemedyCompletion := do
  require input.replacementPlacementProcessId.isNone .remedyInvalid
  let reference ← orThrow input.externalReference .remedyInvalid
  require (!reference.isEmpty && decide (reference.length ≤ externalReferenceMax)) .remedyInvalid
  .pure ⟨now, input.completedBy, some reference, none⟩

/-- `validateCompletionEvidence`, into the columns that are written. -/
def validateCompletionEvidence (current : PermanentPlacement) (remedy : PermanentPlacementRemedy)
    (input : CompletionInput) (now : Nat) : PlacementTx RemedyCompletion :=
  if remedy.obligation.remedyType = .replacement then replacementEvidence current input now
  else monetaryEvidence input now

def completionWrites (current : PermanentPlacement) (remedy : PermanentPlacementRemedy)
    (completion : RemedyCompletion) : List Write :=
  [.remedy (.complete remedy.id completion), .permanent (.setState current.id .remedyCompleted)] ++
    permanentRecord .remedyCompleted
      ⟨current.id, some current.lifecycleState, .remedyCompleted⟩

def completeRemedy (input : CompletionInput) (now : Nat) : PlacementTx Unit := do
  let current ← loadPermanent input.ref
  let found ← read (.remedy input.ref.tenantId current.id)
  let remedy ← orThrow found .permanentPlacementNotFound
  require (remedy.completion.isNone && current.lifecycleState != .remedyCompleted)
    .remedyAlreadyCompleted
  require current.lifecycleState.isRemedyDue .permanentStateInvalid
  let completion ← validateCompletionEvidence current remedy input now
  writeAll (completionWrites current remedy completion)

/-! ## `OfferRepository` -/

structure CreateOfferInput where
  engagement : Engagement
  terms : OfferTerms
  actorId : Nat
  deriving DecidableEq

def CreateOfferInput.row (input : CreateOfferInput) (id : Nat) : Offer :=
  ⟨id, input.engagement, .draft, input.terms, none⟩

/-- A revision holds the whole snapshot. -/
def revisionRow (o : Offer) (number actorId : Nat) (changeReason :
    Option JsString) : OfferRevision :=
  ⟨o.engagement.tenantId, o.id, number, o.terms, actorId, changeReason⟩

def createOffer (input : CreateOfferInput) : PlacementTx Nat := do
  let id ← newId
  -- the trigger before the insert
  let live ← read (.liveOffer input.engagement.tenantId input.engagement.submittalId)
  require (!live) .offerAlreadyLive
  let row := input.row id
  writeAll [.offer (.insert row), .offer (.event ⟨id, none, .draft⟩),
    .outbox (.offerCreated id input.engagement),
    .offer (.insertRevision (revisionRow row 1 input.actorId none))]
  .pure id

structure TransitionOfferInput where
  tenantId : Nat
  id : Nat
  target : OfferState
  /-- What the policy says. -/
  policyAllows : Bool
  actorId : Nat
  change : OfferChange
  changeReason : Option JsString
  deriving DecidableEq

/-- A revision is numbered by the count of those before it. -/
def recordRevision (input : TransitionOfferInput) (updated : Offer) : PlacementTx Unit := do
  let priorCount ← lockRead (.offer input.id) (.revisionCount input.tenantId input.id)
  write (.offer (.insertRevision
    ⟨input.tenantId, input.id, priorCount + 1, updated.terms, input.actorId, input.changeReason⟩))

def offerRecord (action : OfferTransitionAction) (change : Entry OfferState) : List Write :=
  [.offer (.event change), .outbox (.offerChanged action change)]

/-- The update is guarded by the state that was read before. -/
def transitionOffer (input : TransitionOfferInput) : PlacementTx Unit := do
  let found ← read (.offer input.tenantId input.id)
  let existing ← orThrow found .notFound
  let action ← orThrow (governingOfferAction existing.state input.target) .offerIllegalTransition
  require input.policyAllows .policyDenied
  let hit ← updateOffer ⟨input.id, input.tenantId, existing.state, input.target, input.change⟩
  require hit .offerTransitionConflict
  let row ← lockRead (.offer input.id) (.offerById input.id)
  let updated ← orThrow row .notFound
  writeAll (offerRecord action ⟨input.id, some existing.state, input.target⟩)
  Tx.when input.change.termsChanged (recordRevision input updated)

/-- One row of the sweep `expireOverdueOffers(now)`: the rows are listed first,
and each has a transaction of its own. -/
def expireOverdueOffers (now item : Nat) : PlacementTx Unit := do
  let listed ← read (.overdueOffer now item)
  let o ← orThrow listed .notFound
  let hit ← updateOffer ⟨o.id, o.engagement.tenantId, o.state, .expired, .none⟩
  Tx.when hit (writeAll (offerRecord .expire ⟨o.id, some o.state, .expired⟩))

/-! ## Commercial revision proposals -/

structure ProposeInput where
  tenantId : Nat
  placementProcessId : Nat
  terms : CommercialTerms
  effectiveFrom : Option Nat
  reason : JsString
  requestedBy : Nat
  deriving DecidableEq

def ProposeInput.row (input : ProposeInput) (id : Nat) (a : ContractAssignment)
    (reference : AssignmentRateVersion) : CommercialRevisionProposal where
  id := id
  tenantId := input.tenantId
  contractAssignmentId := a.id
  placementProcessId := input.placementProcessId
  requisitionId := a.engagement.requisitionId
  talentRecordId := a.engagement.talentRecordId
  referenceRateVersionId := reference.id
  proposed := input.terms
  proposedEffectiveFrom := input.effectiveFrom
  reason := input.reason
  state := .draft
  requestedBy := input.requestedBy
  reviewDecidedBy := none
  clientApprovalRecordedBy := none
  rejectedBy := none
  appliedRateVersionId := none
  appliedBy := none
  appliedAt := none

/-- A move of a proposal, as it is recorded. -/
def proposalRecord (change : Entry ProposalState) (action : Option CommercialApprovalAction)
    (actorId : Nat) (versionId : Option Nat) : List Write :=
  [.proposal (.event ⟨change, action, actorId, versionId⟩),
    .outbox (.proposalStateChanged change action actorId)]

def createCommercialRevisionProposal (input : ProposeInput) : PlacementTx Nat := do
  let found ← read (.assignment input.tenantId input.placementProcessId)
  let a ← orThrow found .notFound
  require (a.lifecycleState == .active) .activeAssignmentNotFound
  let open_ ← read (.openRateVersion input.tenantId a.id)
  let reference ← orThrow open_ .openCommercialVersionNotFound
  let id ← newId
  writeAll (.proposal (.insert (input.row id a reference)) ::
    proposalRecord ⟨id, none, .draft⟩ none input.requestedBy none)
  .pure id

structure ProposalRef where
  tenantId : Nat
  placementProcessId : Nat
  proposalId : Nat
  deriving DecidableEq

def loadProposal (ref : ProposalRef) : PlacementTx CommercialRevisionProposal := do
  let found ← read (.proposal ref.tenantId ref.placementProcessId ref.proposalId)
  orThrow found .notFound

/-- The move of a proposal under an action. -/
def proposalWrites (p : CommercialRevisionProposal) (action : CommercialApprovalAction)
    (evidence : ProposalEvidence) (actorId : Nat) : List Write :=
  .proposal (.update p.id action.target evidence) ::
    proposalRecord ⟨p.id, some p.state, action.target⟩ (some action) actorId none

/-- `submit` and `withdraw`. -/
def transitionCommercialRevisionProposal (ref : ProposalRef) (withdraw : Bool) (actorId : Nat) :
    PlacementTx Unit := do
  let action : CommercialApprovalAction := if withdraw then .withdraw else .submit
  let p ← loadProposal ref
  require (governingCommercialProposalAction p.state action.target == some action)
    .proposalStateInvalid
  writeAll (proposalWrites p action .none actorId)

/-- The columns that a decision fills. -/
def decisionEvidence (action : CommercialApprovalAction) (actorId : Nat) : ProposalEvidence :=
  match action with
  | .marginApprove => .review actorId
  | .clientApprove => .clientApproval actorId
  | .reject => .rejection actorId
  | _ => .none

def appliedWrites (p : CommercialRevisionProposal) (versionId actorId appliedAt : Nat) :
    List Write :=
  .proposal (.update p.id .applied (.applied versionId actorId appliedAt)) ::
    proposalRecord ⟨p.id, some .approved, .applied⟩ (some .apply) actorId (some versionId)

def revisionOf (ref : ProposalRef) (p : CommercialRevisionProposal) (actorId :
    Nat) : RevisionInput :=
  ⟨ref.tenantId, p.placementProcessId, p.proposed, p.reason, actorId⟩

/-- From the state under the lock. -/
def applyApproved (ref : ProposalRef) (p : CommercialRevisionProposal) (actorId now : Nat) :
    PlacementTx Unit := do
  require (p.proposedEffectiveFrom.all fun t => decide (now ≤ t)) .effectiveFromInPast
  let applied ← appendCommercialRevisionInTx (revisionOf ref p actorId)
    (p.proposedEffectiveFrom.getD now)
  writeAll (appliedWrites p applied.id actorId now)

/-- A proposal that is applied already is returned as it is. -/
def applyProposal (ref : ProposalRef) (p : CommercialRevisionProposal) (actorId now : Nat) :
    PlacementTx Unit := do
  let lockedState ← lockRead (.proposal p.id) (.proposalState ref.tenantId p.id)
  if lockedState = some .applied then .pure ()
  else do
    require (lockedState == some .approved) .proposalStateInvalid
    applyApproved ref p actorId now

structure DecideInput where
  ref : ProposalRef
  action : CommercialApprovalAction
  actorId : Nat
  /-- What the policy says. -/
  policyAllows : Bool
  deriving DecidableEq

/-- Nobody takes two steps in a row. -/
def stagesSeparate (p : CommercialRevisionProposal) (action : CommercialApprovalAction)
    (actorId : Nat) : Bool :=
  !(action == .clientApprove && p.reviewDecidedBy == some actorId) &&
    !(action == .apply && p.clientApprovalRecordedBy == some actorId)

def decideCommercialRevisionProposal (input : DecideInput) (now : Nat) : PlacementTx Unit := do
  let p ← loadProposal input.ref
  require (governingCommercialProposalAction p.state input.action.target == some input.action &&
    input.action.isAuthority) .proposalStateInvalid
  require (input.actorId != p.requestedBy) .proposalSelfApproval
  require (stagesSeparate p input.action input.actorId) .proposalStageConflict
  require input.policyAllows .policyDenied
  if input.action = .apply then applyProposal input.ref p input.actorId now
  else writeAll (proposalWrites p input.action (decisionEvidence input.action input.actorId)
    input.actorId)

/-! ## `GuaranteeTermRepository` -/

structure TermInput where
  tenantId : Nat
  requisitionId : Nat
  effectiveFrom : Nat
  terms : GuaranteeTerms
  recordedBy : Nat
  deriving DecidableEq

def TermInput.row (input : TermInput) (id : Nat) (supersedes : Option Nat) :
    GuaranteeTermVersion where
  id := id
  tenantId := input.tenantId
  requisitionId := input.requisitionId
  effectiveFrom := input.effectiveFrom
  effectiveTo := none
  terms := input.terms
  recordedBy := input.recordedBy
  supersedesVersionId := supersedes

def createTerm (input : TermInput) : PlacementTx Unit := do
  let id ← newId
  let row := input.row id none
  writeAll [.term (.insert row), .outbox (.guaranteeTermsCreated row)]

def reviseWrites (predecessor successor : GuaranteeTermVersion) : List Write :=
  [.term (.close predecessor.id successor.effectiveFrom), .term (.insert successor),
    .outbox (.guaranteeTermsRevised successor)]

def reviseTerm (input : TermInput) (todayUtc : Nat) : PlacementTx Unit := do
  require (decide (todayUtc ≤ input.effectiveFrom)) .revisionBackdated
  let found ← read (.openTerm input.tenantId input.requisitionId)
  let predecessor ← orThrow found .termsNotFound
  require (decide (predecessor.effectiveFrom < input.effectiveFrom)) .revisionNotAfterPredecessor
  let id ← newId
  writeAll (reviseWrites predecessor (input.row id (some predecessor.id)))

/-! ## `CapacityProjectionRepository` -/

/-- Two reads that are sent together: either may be served first. -/
def bothReads (q q' : Query) (swapped : Bool) : PlacementTx (q.Rows × q'.Rows) :=
  if swapped then do
    let second ← read q'
    let first ← read q
    .pure (first, second)
  else do
    let first ← read q
    let second ← read q'
    .pure (first, second)

def countActiveByRequisition (tenantId requisitionId : Nat) (swapped : Bool) : PlacementTx Nat := do
  let counts ← bothReads (.activeCount tenantId requisitionId)
    (.consumingCount tenantId requisitionId)
    swapped
  .pure (counts.1 + counts.2)

/-- `map.get(key)`. -/
def lookupCount (rows : List (Nat × Nat)) (key : Nat) : Option Nat :=
  (rows.find? (·.1 == key)).map (·.2)

/-- One map of the two: the second adds to what the first has set. -/
def unionCounts (contract permanent : List (Nat × Nat)) : List (Nat × Nat) :=
  (contract.map fun row => (row.1, row.2 + (lookupCount permanent row.1).getD 0)) ++
    permanent.filter fun row => (lookupCount contract row.1).isNone

def countActiveByRequisitionIds (tenantId : Nat) (requisitionIds : List Nat) (swapped : Bool) :
    PlacementTx (List (Nat × Nat)) :=
  if requisitionIds.isEmpty then .pure []
  else do
    let counts ← bothReads (.activeByRequisition tenantId requisitionIds)
      (.consumingByRequisition tenantId requisitionIds) swapped
    .pure (unionCounts counts.1 counts.2)

end PlacementTx

/-! ## Operations -/

inductive PlacementOp where
  | createPlacement (input : PlacementTx.CreatePlacementInput) (now : Nat)
  | transition (input : PlacementTx.TransitionInput)
  | endAssignment (input : PlacementTx.EndAssignmentInput) (txNow : Nat)
  | convertToPermanent (input : PlacementTx.ConvertInput) (txNow : Nat)
  | createCommercialRevision (input : PlacementTx.RevisionInput) (effectiveFrom now : Nat)
  | cancelCommercialRevision (input : PlacementTx.CancelRevisionInput) (txNow : Nat)
  | permanentTransition (ref : PlacementTx.PermanentRef) (target : PermanentState) (todayUtc : Nat)
  | recordFalloff (input : PlacementTx.FalloffInput) (now : Nat)
  | completeRemedy (input : PlacementTx.CompletionInput) (now : Nat)
  | createOffer (input : PlacementTx.CreateOfferInput)
  | transitionOffer (input : PlacementTx.TransitionOfferInput)
  | expireOverdueOffers (now item : Nat)
  | propose (input : PlacementTx.ProposeInput)
  | moveProposal (ref : PlacementTx.ProposalRef) (withdraw : Bool) (actorId : Nat)
  | decideProposal (input : PlacementTx.DecideInput) (now : Nat)
  | createTerm (input : PlacementTx.TermInput)
  | reviseTerm (input : PlacementTx.TermInput) (todayUtc : Nat)
  | countActive (tenantId requisitionId : Nat) (swapped : Bool)
  | countActiveIds (tenantId : Nat) (requisitionIds : List Nat) (swapped : Bool)

/-- What a caller gets. -/
inductive PlacementOutcome where
  | done
  | created (id : Nat)
  | count (n : Nat)
  | counts (rows : List (Nat × Nat))
  deriving DecidableEq

/-- The result of a transaction, as its caller gets it. -/
def PlacementTx.giving {α : Type} (t : PlacementTx α) (f : α → PlacementOutcome) :
    PlacementTx PlacementOutcome :=
  t.bind fun a => .pure (f a)

open PlacementTx in
/-- The program of an operation. -/
def placementProgram : PlacementOp → PlacementTx PlacementOutcome
  | .createPlacement input now => giving (createPlacement input now) .created
  | .transition input => giving (transition input) fun _ => .done
  | .endAssignment input txNow => giving (endAssignment input txNow) fun _ => .done
  | .convertToPermanent input txNow => giving (convertToPermanent input txNow) fun _ => .done
  | .createCommercialRevision input effectiveFrom now =>
      giving (createCommercialRevision input effectiveFrom now) fun _ => .done
  | .cancelCommercialRevision input txNow =>
      giving (cancelCommercialRevision input txNow) fun _ => .done
  | .permanentTransition ref target todayUtc =>
      giving (permanentTransition ref target todayUtc) fun _ => .done
  | .recordFalloff input now => giving (recordFalloff input now) fun _ => .done
  | .completeRemedy input now => giving (completeRemedy input now) fun _ => .done
  | .createOffer input => giving (createOffer input) .created
  | .transitionOffer input => giving (transitionOffer input) fun _ => .done
  | .expireOverdueOffers now item => giving (expireOverdueOffers now item) fun _ => .done
  | .propose input => giving (createCommercialRevisionProposal input) .created
  | .moveProposal ref withdraw actorId =>
      giving (transitionCommercialRevisionProposal ref withdraw actorId) fun _ => .done
  | .decideProposal input now =>
      giving (decideCommercialRevisionProposal input now) fun _ => .done
  | .createTerm input => giving (createTerm input) fun _ => .done
  | .reviseTerm input todayUtc => giving (reviseTerm input todayUtc) fun _ => .done
  | .countActive tenantId requisitionId swapped =>
      giving (countActiveByRequisition tenantId requisitionId swapped) .count
  | .countActiveIds tenantId requisitionIds swapped =>
      giving (countActiveByRequisitionIds tenantId requisitionIds swapped) .counts

end AramoPlatform.Placement
