import AramoPlatform.Placement.Rows

/-!
# The writes of the placement repositories

One `create` or one `update` each, by table, with the constraints that the
migrations put on it: unique and exclusion constraints, and the triggers that
look at the row as it is. The guards that look for other rows before an insert
are queries of their own.
-/

namespace AramoPlatform.Placement

open Js Lib

/-! ## Placements -/

inductive PlacementWrite where
  | insert (row : PlacementProcess)
  | setState (id : Nat) (target : PlacementState)
  | event (entry : Entry PlacementState)
  deriving DecidableEq

def PlacementProcess.setState (target : PlacementState) (p : PlacementProcess) : PlacementProcess :=
  { p with state := target }

def PlacementWrite.apply : PlacementWrite → PlacementDb → PlacementDb
  | .insert row, d => { d with placements := d.placements ++ [row] }
  | .setState id target, d =>
      { d with placements := updateWhere (·.id == id) (·.setState target) d.placements }
  | .event entry, d => { d with placementEvents := d.placementEvents ++ [entry] }

/-- `enforce_placement_process_lifecycle` looks at the state that the row has. -/
def PlacementWrite.allowed : PlacementWrite → PlacementDb → Bool
  | .insert row, d => d.placements.all (·.id != row.id) &&
      row.replacesPlacementProcessId != some row.id
  | .setState id target, d =>
      (d.placements.find? (·.id == id)).any fun p => canTransition p.state target
  | .event _, _ => true

/-! ## Assignments and their rates -/

inductive AssignmentWrite where
  | insert (row : ContractAssignment)
  | setEnded (id : Nat) (reason : AssignmentEndReason) (endedAt : Nat)
  deriving DecidableEq

def ContractAssignment.setEnded (reason : AssignmentEndReason) (endedAt : Nat)
    (a : ContractAssignment) : ContractAssignment :=
  { a with
    lifecycleState := .ended
    endReason := some reason
    endedAt := some endedAt }

def AssignmentWrite.apply : AssignmentWrite → PlacementDb → PlacementDb
  | .insert row, d => { d with assignments := d.assignments ++ [row] }
  | .setEnded id reason endedAt, d =>
      { d with assignments := updateWhere (·.id == id) (·.setEnded reason endedAt) d.assignments }

/-- `enforce_contract_assignment_terminal` freezes the reason of an end. -/
def AssignmentWrite.allowed : AssignmentWrite → PlacementDb → Bool
  | .insert row, d => d.assignments.all fun a => a.id != row.id &&
      !(a.engagement.tenantId == row.engagement.tenantId &&
        a.placementProcessId == row.placementProcessId)
  | .setEnded id reason _, d => (d.assignments.find? (·.id == id)).any fun a =>
      a.lifecycleState == .active || a.endReason == some reason

inductive RateVersionWrite where
  | insert (row : AssignmentRateVersion)
  | close (id : Nat) (effectiveTo : Nat)
  /-- Under the clock of the transaction. -/
  | reopen (id : Nat) (now : Nat)
  | cancel (id : Nat) (cancellation : Cancellation)
  deriving DecidableEq

def AssignmentRateVersion.endAt (effectiveTo : Option Nat) (v : AssignmentRateVersion) :
    AssignmentRateVersion :=
  { v with effectiveTo := effectiveTo }

def AssignmentRateVersion.cancel (cancellation : Cancellation) (v : AssignmentRateVersion) :
    AssignmentRateVersion :=
  { v with cancellation := some cancellation }

def RateVersionWrite.apply : RateVersionWrite → PlacementDb → PlacementDb
  | .insert row, d => { d with rateVersions := d.rateVersions ++ [row] }
  | .close id effectiveTo, d =>
      { d with rateVersions :=
        updateWhere (·.id == id) (·.endAt (some effectiveTo)) d.rateVersions }
  | .reopen id _, d =>
      { d with rateVersions := updateWhere (·.id == id) (·.endAt none) d.rateVersions }
  | .cancel id cancellation, d =>
      { d with rateVersions := updateWhere (·.id == id) (·.cancel cancellation) d.rateVersions }

/-- `AssignmentRateVersion_no_window_overlap_excl`, for a row with this window. -/
def noWindowOverlap (rows : List AssignmentRateVersion) (v : AssignmentRateVersion)
    (w : Window) : Bool :=
  rows.all fun x => x.id == v.id || x.cancellation.isSome ||
    !(x.tenantId == v.tenantId && x.contractAssignmentId == v.contractAssignmentId &&
      x.window.overlaps w)

/-- `reject_assignment_rate_version_mutation`, and the constraints of the table. -/
def RateVersionWrite.allowed : RateVersionWrite → PlacementDb → Bool
  | .insert row, d => row.window.proper && noWindowOverlap d.rateVersions row row.window &&
      d.rateVersions.all fun v => v.id != row.id &&
        !(v.tenantId == row.tenantId && v.contractAssignmentId == row.contractAssignmentId &&
          v.effectiveFrom == row.effectiveFrom)
  | .close id effectiveTo, d => (d.rateVersions.find? (·.id == id)).any fun v =>
      v.effectiveTo.isNone && decide (v.effectiveFrom < effectiveTo)
  | .reopen id now, d => (d.rateVersions.find? (·.id == id)).any fun v =>
      v.effectiveTo.any (fun t => decide (now < t)) && v.cancellation.isNone &&
        noWindowOverlap d.rateVersions v ⟨v.effectiveFrom, none⟩
  | .cancel id _, d => (d.rateVersions.find? (·.id == id)).any (·.cancellation.isNone)

/-! ## Permanent placements, their remedies and conversions -/

inductive PermanentWrite where
  | insert (row : PermanentPlacement)
  | setState (id : Nat) (target : PermanentState)
  | recordFalloff (id : Nat) (falloff : Falloff)
  | event (entry : Entry PermanentState)
  deriving DecidableEq

def PermanentPlacement.setState (target : PermanentState) (p : PermanentPlacement) :
    PermanentPlacement :=
  { p with lifecycleState := target }

def PermanentPlacement.fallOff (falloff : Falloff) (p : PermanentPlacement) : PermanentPlacement :=
  { p with
    lifecycleState := .fellOff
    falloff := some falloff }

def PermanentWrite.apply : PermanentWrite → PlacementDb → PlacementDb
  | .insert row, d => { d with permanents := d.permanents ++ [row] }
  | .setState id target, d =>
      { d with permanents := updateWhere (·.id == id) (·.setState target) d.permanents }
  | .recordFalloff id falloff, d =>
      { d with permanents := updateWhere (·.id == id) (·.fallOff falloff) d.permanents }
  | .event entry, d => { d with permanentEvents := d.permanentEvents ++ [entry] }

/-- `enforce_permanent_placement_lifecycle`: an unchanged state passes. -/
def permanentEdge (source target : PermanentState) : Bool :=
  source == target || canTransitionPermanentPlacement source target

/-- The lifecycle trigger, and the falloff facts are written once. -/
def PermanentWrite.allowed : PermanentWrite → PlacementDb → Bool
  | .insert row, d => d.permanents.all fun p => p.id != row.id &&
      !(p.engagement.tenantId == row.engagement.tenantId &&
        p.placementProcessId == row.placementProcessId)
  | .setState id target, d => (d.permanents.find? (·.id == id)).any fun p =>
      permanentEdge p.lifecycleState target
  | .recordFalloff id falloff, d => (d.permanents.find? (·.id == id)).any fun p =>
      permanentEdge p.lifecycleState .fellOff && p.falloff.all (· == falloff) &&
        decide (p.guarantee.startDate ≤ falloff.effectiveDate ∧
          falloff.effectiveDate < p.guarantee.endDate)
  | .event _, _ => true

inductive RemedyWrite where
  | insert (row : PermanentPlacementRemedy)
  | complete (id : Nat) (completion : RemedyCompletion)
  deriving DecidableEq

def PermanentPlacementRemedy.complete (completion : RemedyCompletion)
    (r : PermanentPlacementRemedy) : PermanentPlacementRemedy :=
  { r with completion := some completion }

def RemedyWrite.apply : RemedyWrite → PlacementDb → PlacementDb
  | .insert row, d => { d with remedies := d.remedies ++ [row] }
  | .complete id completion, d =>
      { d with remedies := updateWhere (·.id == id) (·.complete completion) d.remedies }

/-- One remedy for a placement, completed once. -/
def RemedyWrite.allowed : RemedyWrite → PlacementDb → Bool
  | .insert row, d => d.permanents.any (·.id == row.permanentPlacementId) &&
      d.remedies.all fun r => r.id != row.id &&
        !(r.tenantId == row.tenantId && r.permanentPlacementId == row.permanentPlacementId)
  | .complete id completion, d => (d.remedies.find? (·.id == id)).any fun r =>
      r.completion.all (· == completion)

/-- The two unique keys of the conversion lineage. -/
def lineageAllowed (row : ConversionLineage) (d : PlacementDb) : Bool :=
  d.lineages.all fun l => l.id != row.id && !(l.tenantId == row.tenantId &&
    (l.sourceContractAssignmentId == row.sourceContractAssignmentId ||
      l.sourcePlacementProcessId == row.sourcePlacementProcessId))

/-! ## Offers -/

inductive OfferWrite where
  | insert (row : Offer)
  | event (entry : Entry OfferState)
  | insertRevision (row : OfferRevision)
  deriving DecidableEq

def OfferWrite.apply : OfferWrite → PlacementDb → PlacementDb
  | .insert row, d => { d with offers := d.offers ++ [row] }
  | .event entry, d => { d with offerEvents := d.offerEvents ++ [entry] }
  | .insertRevision row, d => { d with offerRevisions := d.offerRevisions ++ [row] }

/-- `OfferRevision_offer_number_uniq`. -/
def OfferWrite.allowed : OfferWrite → PlacementDb → Bool
  | .insert row, d => d.offers.all (·.id != row.id)
  | .event _, _ => true
  | .insertRevision row, d => d.offerRevisions.all fun r =>
      !(r.tenantId == row.tenantId && r.offerId == row.offerId &&
        r.revisionNumber == row.revisionNumber)

/-- What a request says of the terms: a field that is absent is kept. -/
structure OfferChange where
  proposedStartDate : Option (Option Nat)
  offerExpiresAt : Option (Option Nat)
  clientOfferReference : Option (Option JsString)
  offerTermsSummary : Option (Option JsString)
  compensation : Option Compensation
  declineReason : Option (Option JsString)
  deriving DecidableEq

namespace OfferChange

def none : OfferChange := ⟨.none, .none, .none, .none, .none, .none⟩

def termsChanged (c : OfferChange) : Bool :=
  c.proposedStartDate.isSome || c.offerExpiresAt.isSome || c.clientOfferReference.isSome ||
    c.offerTermsSummary.isSome || c.compensation.isSome

def onTerms (c : OfferChange) (t : OfferTerms) : OfferTerms where
  proposedStartDate := c.proposedStartDate.getD t.proposedStartDate
  offerExpiresAt := c.offerExpiresAt.getD t.offerExpiresAt
  clientOfferReference := c.clientOfferReference.getD t.clientOfferReference
  offerTermsSummary := c.offerTermsSummary.getD t.offerTermsSummary
  compensation := c.compensation <|> t.compensation

theorem onTerms_of_unchanged {c : OfferChange} (h : c.termsChanged = false) (t : OfferTerms) :
    c.onTerms t = t := by
  simp only [termsChanged, Bool.or_eq_false_iff, Option.isSome_eq_false_iff,
    Option.isNone_iff_eq_none] at h
  simp [onTerms, h]

def onOffer (c : OfferChange) (target : OfferState) (o : Offer) : Offer :=
  { o with
    state := target
    terms := c.onTerms o.terms
    declineReason := c.declineReason.getD o.declineReason }

end OfferChange

/-- `updateMany` with the state in its condition. -/
structure OfferUpdate where
  id : Nat
  tenantId : Nat
  source : OfferState
  target : OfferState
  change : OfferChange
  deriving DecidableEq

namespace OfferUpdate

def hits (u : OfferUpdate) (o : Offer) : Bool :=
  o.id == u.id && o.engagement.tenantId == u.tenantId && o.state == u.source

def apply (u : OfferUpdate) (d : PlacementDb) : PlacementDb :=
  { d with offers := updateWhere u.hits (u.change.onOffer u.target) d.offers }

/-- `enforce_offer_lifecycle`, for the row that is hit. -/
def allowed (u : OfferUpdate) (d : PlacementDb) : Bool :=
  d.offers.all fun o => !u.hits o || isLegalOfferTransition o.state u.target

end OfferUpdate

/-! ## Commercial proposals -/

/-- The columns that go with a new state. -/
inductive ProposalEvidence where
  | none
  | review (by_ : Nat)
  | clientApproval (by_ : Nat)
  | rejection (by_ : Nat)
  | applied (versionId by_ at_ : Nat)
  deriving DecidableEq

def ProposalEvidence.onProposal (p : CommercialRevisionProposal) :
    ProposalEvidence → CommercialRevisionProposal
  | .none => p
  | .review by_ => { p with reviewDecidedBy := some by_ }
  | .clientApproval by_ => { p with clientApprovalRecordedBy := some by_ }
  | .rejection by_ => { p with rejectedBy := some by_ }
  | .applied versionId by_ at_ =>
      { p with
        appliedRateVersionId := some versionId
        appliedBy := some by_
        appliedAt := some at_ }

def CommercialRevisionProposal.setState (target : ProposalState) (evidence : ProposalEvidence)
    (p : CommercialRevisionProposal) : CommercialRevisionProposal :=
  { evidence.onProposal p with state := target }

inductive ProposalWrite where
  | insert (row : CommercialRevisionProposal)
  | update (id : Nat) (target : ProposalState) (evidence : ProposalEvidence)
  | event (row : ProposalEvent)
  deriving DecidableEq

def ProposalWrite.apply : ProposalWrite → PlacementDb → PlacementDb
  | .insert row, d => { d with proposals := d.proposals ++ [row] }
  | .update id target evidence, d =>
      { d with proposals := updateWhere (·.id == id) (·.setState target evidence) d.proposals }
  | .event row, d => { d with proposalEvents := d.proposalEvents ++ [row] }

/-- `CommercialRevisionProposal_one_live_idx` and
`enforce_commercial_proposal_transition`. -/
def ProposalWrite.allowed : ProposalWrite → PlacementDb → Bool
  | .insert row, d => d.proposals.all fun p => p.id != row.id &&
      !(p.state.isOpen && row.state.isOpen && p.tenantId == row.tenantId &&
        p.contractAssignmentId == row.contractAssignmentId)
  | .update id target _, d => (d.proposals.find? (·.id == id)).any fun p =>
      isLegalCommercialProposalTransition p.state target
  | .event _, _ => true

/-! ## Guarantee terms -/

inductive TermWrite where
  | insert (row : GuaranteeTermVersion)
  | close (id : Nat) (effectiveTo : Nat)
  deriving DecidableEq

def GuaranteeTermVersion.endAt (effectiveTo : Option Nat) (v : GuaranteeTermVersion) :
    GuaranteeTermVersion :=
  { v with effectiveTo := effectiveTo }

def TermWrite.apply : TermWrite → PlacementDb → PlacementDb
  | .insert row, d => { d with termVersions := d.termVersions ++ [row] }
  | .close id effectiveTo, d =>
      { d with termVersions :=
        updateWhere (·.id == id) (·.endAt (some effectiveTo)) d.termVersions }

/-- `ppgtv_no_window_overlap_excl`, `ppgtv_tenant_req_from_key` and
`enforce_ppgtv_append_only`. -/
def TermWrite.allowed : TermWrite → PlacementDb → Bool
  | .insert row, d => row.window.proper && d.termVersions.all fun v => v.id != row.id &&
      !(v.tenantId == row.tenantId && v.requisitionId == row.requisitionId &&
        (v.effectiveFrom == row.effectiveFrom || v.window.overlaps row.window))
  | .close id effectiveTo, d => (d.termVersions.find? (·.id == id)).any fun v =>
      v.effectiveTo.isNone && decide (v.effectiveFrom < effectiveTo)

/-! ## All tables -/

inductive Write where
  | placement (w : PlacementWrite)
  | assignment (w : AssignmentWrite)
  | rateVersion (w : RateVersionWrite)
  | permanent (w : PermanentWrite)
  | remedy (w : RemedyWrite)
  | lineage (row : ConversionLineage)
  | offer (w : OfferWrite)
  | proposal (w : ProposalWrite)
  | term (w : TermWrite)
  | outbox (event : OutboxEvent)
  deriving DecidableEq

def Write.apply : Write → PlacementDb → PlacementDb
  | .placement w => w.apply
  | .assignment w => w.apply
  | .rateVersion w => w.apply
  | .permanent w => w.apply
  | .remedy w => w.apply
  | .lineage row => fun d => { d with lineages := d.lineages ++ [row] }
  | .offer w => w.apply
  | .proposal w => w.apply
  | .term w => w.apply
  | .outbox event => fun d => { d with outbox := d.outbox ++ [event] }

def Write.allowed : Write → PlacementDb → Bool
  | .placement w => w.allowed
  | .assignment w => w.allowed
  | .rateVersion w => w.allowed
  | .permanent w => w.allowed
  | .remedy w => w.allowed
  | .lineage row => lineageAllowed row
  | .offer w => w.allowed
  | .proposal w => w.allowed
  | .term w => w.allowed
  | .outbox _ => fun _ => true

/-- The rows that transactions lock. -/
inductive RowKey where
  | placement (id : Nat)
  | assignment (id : Nat)
  | rateVersion (id : Nat)
  | permanent (id : Nat)
  | remedy (id : Nat)
  | lineage (id : Nat)
  | offer (id : Nat)
  | proposal (id : Nat)
  | term (id : Nat)
  deriving DecidableEq

/-- The row that a write touches. The events and revisions of an offer are
written by transactions that have written the offer before. -/
def Write.locks : Write → List RowKey
  | .placement (.insert row) => [.placement row.id]
  | .placement (.setState id _) => [.placement id]
  | .placement (.event _) => []
  | .assignment (.insert row) => [.assignment row.id]
  | .assignment (.setEnded id _ _) => [.assignment id]
  | .rateVersion (.insert row) => [.rateVersion row.id]
  | .rateVersion (.close id _) | .rateVersion (.reopen id _) | .rateVersion (.cancel id _) =>
      [.rateVersion id]
  | .permanent (.insert row) => [.permanent row.id]
  | .permanent (.setState id _) | .permanent (.recordFalloff id _) => [.permanent id]
  | .permanent (.event _) => []
  | .remedy (.insert row) => [.remedy row.id]
  | .remedy (.complete id _) => [.remedy id]
  | .lineage row => [.lineage row.id]
  | .offer (.insert row) => [.offer row.id]
  | .offer (.event entry) => [.offer entry.subject]
  | .offer (.insertRevision row) => [.offer row.offerId]
  | .proposal (.insert row) => [.proposal row.id]
  | .proposal (.update id _ _) => [.proposal id]
  | .proposal (.event _) => []
  | .term (.insert row) => [.term row.id]
  | .term (.close id _) => [.term id]
  | .outbox _ => []

end AramoPlatform.Placement
