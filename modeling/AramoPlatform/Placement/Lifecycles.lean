/-!
# Lifecycles of a placement

The state machines around a placement, as their registries list them: the
placement itself, the permanent placement with its guarantee, the offer that it
comes from, and the proposal of a new rate.
-/

namespace AramoPlatform.Placement

/-! ## Placements -/

inductive PlacementState where
  | preStart
  | blocked
  | readyToStart
  | started
  | noShow
  | fellThrough
  deriving DecidableEq

/-- `TRANSITIONS`. -/
def PlacementState.targets : PlacementState → List PlacementState
  | .preStart => [.readyToStart, .blocked, .fellThrough]
  | .blocked => [.preStart, .fellThrough]
  | .readyToStart => [.started, .noShow, .fellThrough]
  | .started | .noShow | .fellThrough => []

def canTransition (source target : PlacementState) : Bool := source.targets.contains target

/-- `DUPLICATE_GUARD_INACTIVE`: the terminal states before a start. -/
def PlacementState.guardInactive : PlacementState → Bool
  | .noShow | .fellThrough => true
  | _ => false

def isPlacementGuardReleased (state : PlacementState) (hasEndedAssignment : Bool) : Bool :=
  state.guardInactive || (state == .started && hasEndedAssignment)

inductive PlacementKind where
  | contract
  | permanent
  deriving DecidableEq

/-! ## Contract assignments -/

inductive AssignmentState where
  | active
  | ended
  deriving DecidableEq

/-- The reasons that a caller may give. -/
inductive ContractAssignmentEndReason where
  | completed
  | workerEnded
  | clientEnded
  deriving DecidableEq

/-- The column of the reason: a conversion has its own. -/
inductive AssignmentEndReason where
  | given (reason : ContractAssignmentEndReason)
  | convertedToPermanent
  deriving DecidableEq

/-! ## Permanent placements -/

inductive PermanentState where
  | guaranteeActive
  | guaranteeSatisfied
  | fellOff
  | replacementDue
  | refundDue
  | proratedCreditDue
  | remedyCompleted
  deriving DecidableEq

/-- `PERMANENT_PLACEMENT_TRANSITIONS`. -/
def PermanentState.targets : PermanentState → List PermanentState
  | .guaranteeActive => [.guaranteeSatisfied, .fellOff]
  | .guaranteeSatisfied => []
  | .fellOff => [.replacementDue, .refundDue, .proratedCreditDue]
  | .replacementDue | .refundDue | .proratedCreditDue => [.remedyCompleted]
  | .remedyCompleted => []

def canTransitionPermanentPlacement (source target : PermanentState) : Bool :=
  source.targets.contains target

/-- `REMEDY_DUE_STATES`. -/
def PermanentState.isRemedyDue : PermanentState → Bool
  | .replacementDue | .refundDue | .proratedCreditDue => true
  | _ => false

/-- The states that take a seat of the requisition. -/
def PermanentState.consuming : PermanentState → Bool
  | .guaranteeActive | .guaranteeSatisfied => true
  | _ => false

inductive RemedyPolicy where
  | replacement
  | refund
  | proratedCredit
  deriving DecidableEq

/-- `dueStateForRemedyPolicy`. -/
def RemedyPolicy.dueState : RemedyPolicy → PermanentState
  | .replacement => .replacementDue
  | .refund => .refundDue
  | .proratedCredit => .proratedCreditDue

/-! ## Offers -/

inductive OfferState where
  | draft
  | sent
  | negotiation
  | accepted
  | declined
  | expired
  | rescinded
  deriving DecidableEq

/-- `OFFER_TRANSITIONS`. -/
def OfferState.targets : OfferState → List OfferState
  | .draft => [.sent, .rescinded]
  | .sent => [.negotiation, .accepted, .declined, .expired, .rescinded]
  | .negotiation => [.sent, .accepted, .declined, .expired, .rescinded]
  | .accepted | .declined | .expired | .rescinded => []

def isLegalOfferTransition (source target : OfferState) : Bool := source.targets.contains target

/-- `OFFER_TRANSITION_TERMINAL`. -/
def OfferState.isTerminal : OfferState → Bool
  | .draft | .sent | .negotiation => false
  | _ => true

inductive OfferTransitionAction where
  | send
  | negotiate
  | revise
  | accept
  | decline
  | expire
  | rescind
  deriving DecidableEq

def governingOfferAction (source target : OfferState) : Option OfferTransitionAction :=
  let open_ := source == .sent || source == .negotiation
  match target with
  | .accepted => if open_ then some .accept else none
  | .declined => if open_ then some .decline else none
  | .expired => if open_ then some .expire else none
  | .rescinded => if source == .draft || open_ then some .rescind else none
  | .sent =>
      if source == .draft then some .send else if source == .negotiation then some .revise else none
  | .negotiation => if source == .sent then some .negotiate else none
  | .draft => none

theorem not_isTerminal_of_legal {source target : OfferState}
    (h : isLegalOfferTransition source target = true) : source.isTerminal = false := by
  cases source with
  | draft | sent | negotiation => rfl
  | accepted | declined | expired | rescinded => cases h

/-! ## Commercial proposals -/

inductive ProposalState where
  | draft
  | pendingReview
  | pendingClientApproval
  | approved
  | applied
  | rejected
  | withdrawn
  deriving DecidableEq

/-- `COMMERCIAL_PROPOSAL_TRANSITIONS`. -/
def ProposalState.targets : ProposalState → List ProposalState
  | .draft => [.pendingReview, .withdrawn]
  | .pendingReview => [.pendingClientApproval, .rejected, .withdrawn]
  | .pendingClientApproval => [.approved, .rejected, .withdrawn]
  | .approved => [.applied, .withdrawn]
  | .applied | .rejected | .withdrawn => []

def isLegalCommercialProposalTransition (source target : ProposalState) : Bool :=
  source.targets.contains target

/-- Not terminal: the population of the one-live index. -/
def ProposalState.isOpen : ProposalState → Bool
  | .applied | .rejected | .withdrawn => false
  | _ => true

inductive CommercialApprovalAction where
  | submit
  | marginApprove
  | clientApprove
  | apply
  | reject
  | withdraw
  deriving DecidableEq

/-- `COMMERCIAL_APPROVAL_AUTHORITY_ACTIONS`. -/
def CommercialApprovalAction.isAuthority : CommercialApprovalAction → Bool
  | .marginApprove | .clientApprove | .apply | .reject => true
  | _ => false

/-- The state that an action leads to. -/
def CommercialApprovalAction.target : CommercialApprovalAction → ProposalState
  | .submit => .pendingReview
  | .marginApprove => .pendingClientApproval
  | .clientApprove => .approved
  | .apply => .applied
  | .reject => .rejected
  | .withdraw => .withdrawn

def governingCommercialProposalAction (source target : ProposalState) :
    Option CommercialApprovalAction :=
  match target with
  | .withdrawn =>
      if source == .draft || source == .pendingReview || source == .pendingClientApproval ||
          source == .approved then some .withdraw else none
  | .pendingReview => if source == .draft then some .submit else none
  | .pendingClientApproval => if source == .pendingReview then some .marginApprove else none
  | .approved => if source == .pendingClientApproval then some .clientApprove else none
  | .applied => if source == .approved then some .apply else none
  | .rejected =>
      if source == .pendingReview || source == .pendingClientApproval then some .reject else none
  | .draft => none

theorem governingCommercialProposalAction_isSome (source target : ProposalState) :
    (governingCommercialProposalAction source target).isSome =
      isLegalCommercialProposalTransition source target := by
  cases source <;> cases target <;> rfl

end AramoPlatform.Placement
