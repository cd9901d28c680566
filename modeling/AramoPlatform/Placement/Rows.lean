import AramoPlatform.Js.Text
import AramoPlatform.Lib.Journal
import AramoPlatform.Lib.Windows
import AramoPlatform.Placement.Lifecycles

/-!
# The tables around a placement

The rows of the placement and offer schemas. Amounts are in cents, instants in
milliseconds and dates in days; users and rows have numbers for ids.
-/

namespace AramoPlatform.Placement

open Js Lib

/-- Whose placement it is: the columns that every row of one engagement
carries. -/
structure Engagement where
  tenantId : Nat
  submittalId : Nat
  requisitionId : Nat
  talentRecordId : Nat
  deriving DecidableEq

structure PlacementProcess where
  id : Nat
  engagement : Engagement
  state : PlacementState
  offerId : Option Nat
  offeredAt : Nat
  offerExpiresAt : Option Nat
  replacesPlacementProcessId : Option Nat
  placementKind : Option PlacementKind
  deriving DecidableEq

structure ContractAssignment where
  id : Nat
  engagement : Engagement
  placementProcessId : Nat
  startedAt : Nat
  companyId : Nat
  lifecycleState : AssignmentState
  endReason : Option AssignmentEndReason
  endedAt : Option Nat
  deriving DecidableEq

/-- Validated rates. -/
structure CommercialTerms where
  payRateAmount : Nat
  billRateAmount : Nat
  currency : JsString
  ratePeriod : JsString
  deriving DecidableEq

/-- The three cancellation columns, which are set together. -/
structure Cancellation where
  cancelledAt : Nat
  cancelledBy : Nat
  reasonCode : JsString
  deriving DecidableEq

structure AssignmentRateVersion where
  id : Nat
  tenantId : Nat
  contractAssignmentId : Nat
  requisitionId : Nat
  talentRecordId : Nat
  terms : CommercialTerms
  effectiveFrom : Nat
  effectiveTo : Option Nat
  recordedBy : Nat
  changeReason : Option JsString
  cancellation : Option Cancellation
  deriving DecidableEq

def AssignmentRateVersion.window (v : AssignmentRateVersion) : Window :=
  ⟨v.effectiveFrom, v.effectiveTo⟩

/-- Validated guarantee terms, from a stored version or from a request. -/
structure GuaranteeTerms where
  durationDays : Nat
  durationDays_pos : 0 < durationDays
  remedyPolicy : RemedyPolicy
  exposureAmount : Nat
  exposureCurrency : JsString
  termsSource : JsString
  deriving DecidableEq

structure GuaranteeTermVersion where
  id : Nat
  tenantId : Nat
  requisitionId : Nat
  effectiveFrom : Nat
  effectiveTo : Option Nat
  terms : GuaranteeTerms
  recordedBy : Nat
  supersedesVersionId : Option Nat
  deriving DecidableEq

def GuaranteeTermVersion.window (v : GuaranteeTermVersion) : Window :=
  ⟨v.effectiveFrom, v.effectiveTo⟩

/-- The four falloff columns, which are set together. -/
structure Falloff where
  effectiveDate : Nat
  reason : JsString
  recordedBy : Nat
  recordedAt : Nat
  deriving DecidableEq

/-- The guarantee as it was at the start, and where its terms came from. -/
structure GuaranteeSnapshot where
  startDate : Nat
  terms : GuaranteeTerms
  recordedBy : Nat
  termVersionId : Option Nat
  deriving DecidableEq

/-- `guarantee_end_date`. -/
def GuaranteeSnapshot.endDate (g : GuaranteeSnapshot) : Nat := g.startDate + g.terms.durationDays

structure PermanentPlacement where
  id : Nat
  engagement : Engagement
  placementProcessId : Nat
  lifecycleState : PermanentState
  guarantee : GuaranteeSnapshot
  falloff : Option Falloff
  deriving DecidableEq

/-- What is owed after a falloff. -/
structure RemedyObligation where
  remedyType : RemedyPolicy
  calculatedAmount : Option Nat
  currency : Option JsString
  remainingDays : Option Nat
  deriving DecidableEq

/-- The completion columns, which are set together. -/
structure RemedyCompletion where
  completedAt : Nat
  completedBy : Nat
  completionReference : Option JsString
  replacementPlacementProcessId : Option Nat
  deriving DecidableEq

structure PermanentPlacementRemedy where
  id : Nat
  tenantId : Nat
  permanentPlacementId : Nat
  obligation : RemedyObligation
  falloffEffectiveDate : Nat
  createdBy : Nat
  dueAt : Nat
  completion : Option RemedyCompletion
  deriving DecidableEq

structure ConversionLineage where
  id : Nat
  tenantId : Nat
  sourcePlacementProcessId : Nat
  sourceContractAssignmentId : Nat
  targetPlacementProcessId : Nat
  targetPermanentPlacementId : Nat
  convertedAt : Nat
  convertedBy : Nat
  deriving DecidableEq

structure Compensation where
  type : JsString
  amount : Nat
  currency : JsString
  period : JsString
  deriving DecidableEq

/-- The snapshot of terms on an offer and on each of its revisions. -/
structure OfferTerms where
  proposedStartDate : Option Nat
  offerExpiresAt : Option Nat
  clientOfferReference : Option JsString
  offerTermsSummary : Option JsString
  compensation : Option Compensation
  deriving DecidableEq

structure Offer where
  id : Nat
  engagement : Engagement
  state : OfferState
  terms : OfferTerms
  declineReason : Option JsString
  deriving DecidableEq

structure OfferRevision where
  tenantId : Nat
  offerId : Nat
  revisionNumber : Nat
  terms : OfferTerms
  recordedBy : Nat
  changeReason : Option JsString
  deriving DecidableEq

structure CommercialRevisionProposal where
  id : Nat
  tenantId : Nat
  contractAssignmentId : Nat
  placementProcessId : Nat
  requisitionId : Nat
  talentRecordId : Nat
  referenceRateVersionId : Nat
  proposed : CommercialTerms
  proposedEffectiveFrom : Option Nat
  reason : JsString
  state : ProposalState
  requestedBy : Nat
  reviewDecidedBy : Option Nat
  clientApprovalRecordedBy : Option Nat
  rejectedBy : Option Nat
  appliedRateVersionId : Option Nat
  appliedBy : Option Nat
  appliedAt : Option Nat
  deriving DecidableEq

/-- A `CommercialRevisionProposalEvent`. Without an action it is the `PROPOSE`
that opens the proposal. -/
structure ProposalEvent where
  entry : Entry ProposalState
  action : Option CommercialApprovalAction
  actorId : Nat
  assignmentRateVersionId : Option Nat
  deriving DecidableEq

inductive PermanentEventType where
  | guaranteeSatisfied
  | fellOff
  | remedyDue
  | remedyCompleted
  deriving DecidableEq

/-- The events of the two outbox tables, with what they say. -/
inductive OutboxEvent where
  | processCreated (placementProcessId : Nat)
  | stateChanged (change : Entry PlacementState)
  | permanentCreated (permanentPlacementId : Nat)
  | guaranteeActive (permanentPlacementId : Nat)
  | guaranteeTermsApplied (permanentPlacementId termVersionId : Nat)
  | permanentChanged (type : PermanentEventType) (change : Entry PermanentState)
  | rateVersionCreated (versionId : Nat) (superseded : Option Nat) (effectiveFrom : Nat)
  | rateVersionCancelled (versionId originalEffectiveFrom : Nat) (cancellation : Cancellation)
  | assignmentEnded (assignmentId : Nat) (reason : AssignmentEndReason) (occurredAt : Nat)
  | assignmentConverted (lineage : ConversionLineage)
  | proposalStateChanged (change : Entry ProposalState) (action : Option CommercialApprovalAction)
      (actorId : Nat)
  | guaranteeTermsCreated (version : GuaranteeTermVersion)
  | guaranteeTermsRevised (version : GuaranteeTermVersion)
  | offerCreated (offerId : Nat) (engagement : Engagement)
  | offerChanged (action : OfferTransitionAction) (change : Entry OfferState)
  deriving DecidableEq

structure PlacementDb where
  placements : List PlacementProcess
  placementEvents : List (Entry PlacementState)
  assignments : List ContractAssignment
  rateVersions : List AssignmentRateVersion
  permanents : List PermanentPlacement
  permanentEvents : List (Entry PermanentState)
  remedies : List PermanentPlacementRemedy
  lineages : List ConversionLineage
  offers : List Offer
  offerEvents : List (Entry OfferState)
  offerRevisions : List OfferRevision
  proposals : List CommercialRevisionProposal
  proposalEvents : List ProposalEvent
  termVersions : List GuaranteeTermVersion
  outbox : List OutboxEvent
  deriving DecidableEq

def PlacementDb.empty : PlacementDb := ⟨[], [], [], [], [], [], [], [], [], [], [], [], [], [], []⟩

end AramoPlatform.Placement
