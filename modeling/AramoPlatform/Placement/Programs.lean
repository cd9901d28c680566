import AramoPlatform.Placement.Store

/-!
# The placement repository

`PlacementRepository` on placements, contract assignments, their rates and the
conversion to a permanent placement. What a request says was validated before;
its instants and dates are numbers. A transaction first reads and checks, then
writes a list.
-/

namespace AramoPlatform.Placement

open Js Lib

namespace PlacementTx

/-! ## `createPlacement` -/

structure CreatePlacementInput where
  engagement : Engagement
  offerId : Option Nat
  offeredAt : Option Nat
  offerExpiresAt : Option Nat
  replacesPlacementProcessId : Option Nat
  placementKind : Option PlacementKind
  deriving DecidableEq

/-- The placement that a replacement names. -/
def checkPredecessor (e : Engagement) (replacesId : Nat) : PlacementTx Unit := do
  let predecessor ← read (.placement e.tenantId replacesId)
  require (predecessor.any (·.engagement.requisitionId == e.requisitionId)) .predecessorNotFound
  require (predecessor.any (·.state.guardInactive)) .predecessorNotTerminal

def checkAttempt (e : Engagement) (attempt : PlacementProcess) : PlacementTx Unit :=
  if attempt.state = .started then do
    let ended ← read (.endedAssignments e.tenantId attempt.id)
    require (isPlacementGuardReleased attempt.state (decide (0 < ended))) .placementAlreadyLive
  else require (isPlacementGuardReleased attempt.state false) .placementAlreadyLive

def CreatePlacementInput.row (input : CreatePlacementInput) (id offerId offeredAt : Nat) :
    PlacementProcess where
  id := id
  engagement := input.engagement
  state := .preStart
  offerId := some offerId
  offeredAt := offeredAt
  offerExpiresAt := input.offerExpiresAt
  replacesPlacementProcessId := input.replacesPlacementProcessId
  placementKind := input.placementKind

def createPlacement (input : CreatePlacementInput) (now : Nat) : PlacementTx Nat := do
  input.replacesPlacementProcessId.elim (.pure ()) (checkPredecessor input.engagement)
  let attempts ← read (.attempts input.engagement.tenantId input.engagement.submittalId)
  Tx.forEach attempts (checkAttempt input.engagement)
  let offerId ← orThrow input.offerId .offerIdRequired
  let acceptedOffer ← read (.acceptedOffer input.engagement.tenantId offerId)
  require acceptedOffer.isSome .offerNotAccepted
  let offeredAt := input.offeredAt.getD now
  require (input.offerExpiresAt.all fun t => decide (offeredAt ≤ t)) .offerExpiresBeforeOffered
  let id ← newId
  -- the trigger before the insert
  let live ← read (.livePlacement input.engagement.tenantId input.engagement.submittalId)
  require (!live) .placementAlreadyLive
  writeAll [.placement (.insert (input.row id offerId offeredAt)), .outbox (.processCreated id)]
  .pure id

/-! ## `transition` -/

/-- A move of a placement, as it is recorded. -/
def moveWrites (current : PlacementProcess) (target : PlacementState) : List Write :=
  let change : Entry PlacementState := ⟨current.id, some current.state, target⟩
  [.placement (.setState current.id target), .placement (.event change),
    .outbox (.stateChanged change)]

def resolveEffectiveTermRow (tenantId requisitionId asOf : Nat) :
    PlacementTx (Option GuaranteeTermVersion) := do
  let rows ← read (.effectiveTerms tenantId requisitionId asOf)
  require (decide (rows.length ≤ 1)) .termsAmbiguous
  .pure rows.head?

structure TransitionInput where
  tenantId : Nat
  placementProcessId : Nat
  target : PlacementState
  /-- What `classifyTransitionReason` says of the reason. -/
  reasonOk : Bool
  companyId : Option Nat
  commercialTerms : Option CommercialTerms
  recordedBy : Option Nat
  /-- The explicit terms, with their start date. -/
  guaranteeTerms : Option (Nat × GuaranteeTerms)
  guaranteeStartDate : Option Nat
  startedAt : Nat
  deriving DecidableEq

/-- The explicit terms do not contradict the stored ones. -/
def GuaranteeTerms.agrees (explicit stored : GuaranteeTerms) : Bool :=
  explicit.durationDays == stored.durationDays && explicit.remedyPolicy == stored.remedyPolicy &&
    explicit.exposureAmount == stored.exposureAmount &&
    explicit.exposureCurrency == stored.exposureCurrency

/-- Stored terms go before explicit ones. -/
def activationOf (input : TransitionInput) (recordedBy start : Nat) :
    Option GuaranteeTermVersion → PlacementTx GuaranteeSnapshot
  | some stored => do
      require (input.guaranteeTerms.all fun t =>
        GuaranteeTerms.agrees t.2 stored.terms) .termsConflict
      .pure ⟨start, stored.terms, recordedBy, some stored.id⟩
  | none => do
      let explicit ← orThrow input.guaranteeTerms .termsNotFound
      .pure ⟨explicit.1, explicit.2, recordedBy, none⟩

def resolvePermanentActivation (input : TransitionInput) (requisitionId : Nat) :
    PlacementTx GuaranteeSnapshot := do
  let recordedBy ← orThrow input.recordedBy .recordedByRequired
  let start ← orThrow (input.guaranteeTerms.map (·.1) <|> input.guaranteeStartDate) .termsRequired
  let stored ← resolveEffectiveTermRow input.tenantId requisitionId start
  activationOf input recordedBy start stored

def permanentRow (id placementProcessId : Nat) (e : Engagement) (guarantee : GuaranteeSnapshot) :
    PermanentPlacement where
  id := id
  engagement := e
  placementProcessId := placementProcessId
  lifecycleState := .guaranteeActive
  guarantee := guarantee
  falloff := none

/-- A permanent placement and the event that opens it. -/
def permanentWrites (row : PermanentPlacement) : List Write :=
  [.permanent (.insert row), .permanent (.event ⟨row.id, none, .guaranteeActive⟩)]

def permanentOutbox (row : PermanentPlacement) : List Write :=
  [.outbox (.permanentCreated row.id), .outbox (.guaranteeActive row.id)] ++
    (row.guarantee.termVersionId.map fun v => .outbox (.guaranteeTermsApplied row.id v)).toList

def permanentStart (input : TransitionInput) (current : PlacementProcess) : PlacementTx Unit := do
  let guarantee ← resolvePermanentActivation input current.engagement.requisitionId
  require input.commercialTerms.isNone .commercialTermsNotAllowed
  let id ← newId
  let row := permanentRow id current.id current.engagement guarantee
  writeAll (moveWrites current .started ++ permanentWrites row ++ permanentOutbox row)

def assignmentRow (id companyId startedAt : Nat) (current : PlacementProcess) :
    ContractAssignment where
  id := id
  engagement := current.engagement
  placementProcessId := current.id
  startedAt := startedAt
  companyId := companyId
  lifecycleState := .active
  endReason := none
  endedAt := none

/-- A rate version of an assignment. -/
def rateVersionRow (id : Nat) (a : ContractAssignment) (terms : CommercialTerms)
    (effectiveFrom recordedBy : Nat) (changeReason : Option JsString) : AssignmentRateVersion where
  id := id
  tenantId := a.engagement.tenantId
  contractAssignmentId := a.id
  requisitionId := a.engagement.requisitionId
  talentRecordId := a.engagement.talentRecordId
  terms := terms
  effectiveFrom := effectiveFrom
  effectiveTo := none
  recordedBy := recordedBy
  changeReason := changeReason
  cancellation := none

/-- The assignment and its first rates. -/
def contractWrites (a : ContractAssignment) (v : AssignmentRateVersion) : List Write :=
  [.assignment (.insert a), .rateVersion (.insert v),
    .outbox (.rateVersionCreated v.id none v.effectiveFrom)]

def contractStart (input : TransitionInput) (current : PlacementProcess) : PlacementTx Unit := do
  let companyId ← orThrow input.companyId .startContextRequired
  let terms ← orThrow input.commercialTerms .startCommercialTermsRequired
  let recordedBy ← orThrow input.recordedBy .recordedByRequired
  let assignmentId ← newId
  let versionId ← newId
  let a := assignmentRow assignmentId companyId input.startedAt current
  let v := rateVersionRow versionId a terms input.startedAt recordedBy none
  writeAll (moveWrites current .started ++ contractWrites a v)

def plainMove (input : TransitionInput) (current : PlacementProcess) : PlacementTx Unit := do
  require input.commercialTerms.isNone .commercialTermsNotAllowed
  writeAll (moveWrites current input.target)

def isPermanentStart (input : TransitionInput) (current : PlacementProcess) : Bool :=
  input.target == .started && current.placementKind == some .permanent

/-- `transition` of a placement that was found. -/
def moveTo (input : TransitionInput) (current : PlacementProcess) : PlacementTx Unit :=
  if isPermanentStart input current then permanentStart input current
  else if input.target = .started then contractStart input current
  else plainMove input current

def transition (input : TransitionInput) : PlacementTx Unit := do
  let found ← read (.placement input.tenantId input.placementProcessId)
  let current ← orThrow found .notFound
  require (canTransition current.state input.target) .placementStateInvalid
  require input.reasonOk .transitionReasonInvalid
  require (input.guaranteeTerms.isNone || isPermanentStart input current) .guaranteeTermsNotAllowed
  require (input.guaranteeStartDate.isNone || isPermanentStart input current)
    .guaranteeTermsNotAllowed
  moveTo input current

/-! ## `endAssignment` -/

/-- `SELECT … FOR UPDATE` on the assignment of a placement: a row that is not
there is not locked. -/
def lockAssignment (tenantId placementProcessId : Nat) :
    PlacementTx (Option ContractAssignment) := do
  let found ← read (.assignment tenantId placementProcessId)
  found.elim (.pure none) fun a =>
    lockRead (.assignment a.id) (.assignment tenantId placementProcessId)

/-- `ASSIGNMENT_ENDED_CANCELLATION_REASON`. -/
def assignmentEndedReason : JsString := js "ASSIGNMENT_ENDED"

/-- The version whose window holds an instant inside. -/
def containing (versions : List AssignmentRateVersion) (t : Nat) : Option AssignmentRateVersion :=
  versions.find? fun v => decide (v.effectiveFrom < t) && v.effectiveTo.all fun e => decide (t < e)

def cancelWrites (v : AssignmentRateVersion) (c : Cancellation) : List Write :=
  [.rateVersion (.cancel v.id c), .outbox (.rateVersionCancelled v.id v.effectiveFrom c)]

/-- A bounded window is opened again, then it is closed. -/
def closeWrites (v : AssignmentRateVersion) (t : Nat) : List Write :=
  (if v.effectiveTo.isSome then [Write.rateVersion (.reopen v.id t)] else []) ++
    [.rateVersion (.close v.id t)]

/-- No version is effective beyond the end. -/
def reconcileWrites (versions : List AssignmentRateVersion) (tEnd endedBy : Nat) : List Write :=
  (versions.filter fun v => decide (tEnd ≤ v.effectiveFrom)).flatMap
      (cancelWrites · ⟨tEnd, endedBy, assignmentEndedReason⟩) ++
    (containing versions tEnd).elim [] (closeWrites · tEnd)

def endWrites (a : ContractAssignment) (versions : List AssignmentRateVersion)
    (reason : AssignmentEndReason) (tEnd endedBy : Nat) : List Write :=
  reconcileWrites versions tEnd endedBy ++
    [.assignment (.setEnded a.id reason tEnd), .outbox (.assignmentEnded a.id reason tEnd)]

structure EndAssignmentInput where
  tenantId : Nat
  placementProcessId : Nat
  endReason : ContractAssignmentEndReason
  endedBy : Nat
  deriving DecidableEq

/-- With the start of the transaction as its clock. -/
def endAssignment (input : EndAssignmentInput) (txNow : Nat) : PlacementTx Unit := do
  let _ ← lockAssignment input.tenantId input.placementProcessId
  let existing ← read (.activeAssignment input.tenantId input.placementProcessId)
  let a ← orThrow existing .activeAssignmentNotFound
  let versions ← read (.rateVersions input.tenantId a.id)
  writeAll (endWrites a versions (.given input.endReason) txNow input.endedBy)

/-! ## `convertToPermanent` -/

structure ConvertInput where
  tenantId : Nat
  placementProcessId : Nat
  convertedBy : Nat
  deriving DecidableEq

/-- The placement that a conversion starts. -/
def targetRow (id : Nat) (e : Engagement) (offeredAt : Nat) : PlacementProcess where
  id := id
  engagement := e
  state := .started
  offerId := none
  offeredAt := offeredAt
  offerExpiresAt := none
  replacesPlacementProcessId := none
  placementKind := some .permanent

def conversionWrites (target : PlacementProcess) (permanent : PermanentPlacement)
    (lineage : ConversionLineage) : List Write :=
  [.placement (.insert target), .placement (.event ⟨target.id, none, .started⟩)] ++
    permanentWrites permanent ++ [.lineage lineage] ++ permanentOutbox permanent ++
    [.outbox (.assignmentConverted lineage)]

/-- The end of the assignment comes first: it releases the guard. -/
def convertAssignment (input : ConvertInput) (a : ContractAssignment)
    (versions : List AssignmentRateVersion) (guarantee : GuaranteeSnapshot) (txNow : Nat) :
    PlacementTx Unit := do
  writeAll (endWrites a versions .convertedToPermanent txNow input.convertedBy)
  let targetId ← newId
  -- the trigger before the insert
  let live ← read (.livePlacement a.engagement.tenantId a.engagement.submittalId)
  require (!live) .placementAlreadyLive
  let permanentId ← newId
  let lineageId ← newId
  writeAll (conversionWrites (targetRow targetId a.engagement txNow)
    (permanentRow permanentId targetId a.engagement guarantee)
    ⟨lineageId, input.tenantId, input.placementProcessId, a.id, targetId, permanentId, txNow,
      input.convertedBy⟩)

/-- The UTC date of an instant. -/
def utcDate (t : Nat) : Nat := t / 86400000

def convertNew (input : ConvertInput) (txNow : Nat) : PlacementTx Unit := do
  let found ← read (.placement input.tenantId input.placementProcessId)
  let source ← orThrow found .notFound
  require (source.state == .started) .sourceNotStarted
  let existing ← read (.activeAssignment input.tenantId input.placementProcessId)
  let a ← orThrow existing .activeAssignmentNotFound
  let stored ← resolveEffectiveTermRow input.tenantId
    source.engagement.requisitionId (utcDate txNow)
  let version ← orThrow stored .termsNotFound
  let versions ← read (.rateVersions input.tenantId a.id)
  convertAssignment input a versions
    ⟨utcDate txNow, version.terms, input.convertedBy, some version.id⟩ txNow

/-- A conversion that is on record is not made again. -/
def convertToPermanent (input : ConvertInput) (txNow : Nat) : PlacementTx Unit := do
  let _ ← lockAssignment input.tenantId input.placementProcessId
  let prior ← read (.conversion input.tenantId input.placementProcessId)
  prior.elim (convertNew input txNow) fun _ => .pure ()

/-! ## Commercial revisions -/

structure RevisionInput where
  tenantId : Nat
  placementProcessId : Nat
  terms : CommercialTerms
  changeReason : JsString
  recordedBy : Nat
  deriving DecidableEq

def appendWrites (predecessor successor : AssignmentRateVersion) : List Write :=
  [.rateVersion (.close predecessor.id successor.effectiveFrom), .rateVersion (.insert successor),
    .outbox (.rateVersionCreated successor.id (some predecessor.id) successor.effectiveFrom)]

/-- The assignment with its lock, if it is active. -/
def lockActiveAssignment (tenantId placementProcessId : Nat) : PlacementTx ContractAssignment := do
  let locked ← lockAssignment tenantId placementProcessId
  let a ← orThrow locked .notFound
  require (a.lifecycleState == .active) .activeAssignmentNotFound
  .pure a

def appendCommercialRevisionInTx (input : RevisionInput) (tNew : Nat) :
    PlacementTx AssignmentRateVersion := do
  let a ← lockActiveAssignment input.tenantId input.placementProcessId
  let open_ ← read (.openRateVersion input.tenantId a.id)
  let predecessor ← orThrow open_ .openCommercialVersionNotFound
  require (decide (predecessor.effectiveFrom < tNew)) .effectiveFromNotAfterCurrent
  let id ← newId
  let successor := rateVersionRow id a input.terms tNew input.recordedBy (some input.changeReason)
  writeAll (appendWrites predecessor successor)
  .pure successor

/-- With the clock of the application. -/
def createCommercialRevision (input : RevisionInput) (effectiveFrom now : Nat) :
    PlacementTx Unit := do
  require (decide (now ≤ effectiveFrom)) .effectiveFromInPast
  let _ ← appendCommercialRevisionInTx input effectiveFrom
  .pure ()

structure CancelRevisionInput where
  tenantId : Nat
  placementProcessId : Nat
  revisionId : Nat
  reasonCode : JsString
  cancelledBy : Nat
  deriving DecidableEq

def cancelCommercialRevision (input : CancelRevisionInput) (txNow : Nat) : PlacementTx Unit := do
  let a ← lockActiveAssignment input.tenantId input.placementProcessId
  let found ← read (.rateVersion input.tenantId a.id input.revisionId)
  let target ← orThrow found .notFound
  require target.cancellation.isNone .alreadyCancelled
  require (decide (txNow < target.effectiveFrom)) .revisionNotFuture
  require target.effectiveTo.isNone .cancellationWouldCreateGap
  let before ← read (.rateVersionEndingAt input.tenantId a.id target.effectiveFrom)
  let predecessor ← orThrow before .cancellationWouldCreateGap
  writeAll (cancelWrites target ⟨txNow, input.cancelledBy, input.reasonCode⟩ ++
    [.rateVersion (.reopen predecessor.id txNow)])

end PlacementTx

end AramoPlatform.Placement
