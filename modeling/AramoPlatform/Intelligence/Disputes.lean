import AramoPlatform.Intelligence.TenantView

/-!
# Disputes and contradictions

A talent disputes one assertion through a reference it holds; a tenant that
sees the assertion triages the dispute and corrects or upholds the assertion.
A tenant also resolves a contradiction in its view, by keeping the assertion
or, when it contributed it, by retracting it. Every action is one transaction.
-/

namespace AramoPlatform.Intelligence

open Js Lib

/-! ## Statements -/

namespace GoldenDb

variable (db : GoldenDb)

def dispute? (id : Nat) : Option AssertionDispute := db.disputes.find? (·.id == id)

/-- `findOpenForAssertion`. -/
def openDisputeOf? (assertionId : Nat) : Option AssertionDispute :=
  db.disputes.find? fun d => d.assertionId == assertionId && d.status.isOpen

def statementsOf (disputeId : Nat) : List AssertionDisputeStatement :=
  db.statements.filter (·.disputeId == disputeId)

def updateDispute (id : Nat) (f : AssertionDispute → AssertionDispute) : GoldenDb :=
  { db with disputes := updateWhere (·.id == id) f db.disputes }

def createDispute (row : AssertionDispute) : GoldenDb :=
  { db with
    nextId := db.nextId + 1
    disputes := db.disputes ++ [{ row with id := db.nextId }] }

end GoldenDb

/-- `statement`. -/
def addStatement (host : Host) (db : GoldenDb) (disputeId : Nat) (author : DisputeStatementAuthor)
    (text : JsString) : GoldenDb :=
  { db with
    nextId := db.nextId + 1
    statements := db.statements ++ [⟨db.nextId, disputeId, author, text, host.sha256Hex text,
      if author = .talent then js "portal" else js "tenant"⟩] }

/-- `event`: what happened to the dispute as it was read. -/
def addDisputeEvent (db : GoldenDb) (dispute : AssertionDispute) (type : DisputeEventType)
    (toStatus : Option DisputeStatus) (actor : JsString) (tenant : Option TenantKey) : GoldenDb :=
  { db with
    nextId := db.nextId + 1
    disputeEvents := db.disputeEvents ++ [⟨db.nextId, dispute.id, type,
      if type = .opened then none else some dispute.status, toStatus, actor, tenant⟩] }

/-- `move`: a guarded change of the assertion with its event. The flag is false
when the status had moved, and then nothing is written. -/
def moveAssertion (db : GoldenDb) (assertionId : Nat) (source target : AssertionStatus)
    (type : AssertionEventType) (actor : JsString) : Bool × GoldenDb :=
  if db.canTransition assertionId source then
    (true, (db.setStatus assertionId target).appendEvent assertionId type (some source)
      (some target) actor)
  else (false, db)

/-! ## The clocks -/

def disputeSla (now : Nat) (d : AssertionDispute) : AssertionDispute :=
  { d with
    triageDueAt := now + 3 * msPerDay
    summaryDueAt := now + 5 * msPerDay
    reinvestigationDueAt := now + 30 * msPerDay
    ccpaDueAt := some (now + 45 * msPerDay)
    ccpaExtendedDueAt := none }

def reinvestigationExtensionDays : Nat := 15

def newDispute (now assertionId referenceId : Nat) : AssertionDispute :=
  disputeSla now
    { id := 0, assertionId := assertionId, openedViaReferenceId := referenceId, status := .opened
      resolutionNote := none, noTransitionReason := none, openedAt := now, triageDueAt := 0
      summaryDueAt := 0, reinvestigationDueAt := 0, reinvestigationExtendedAt := none
      ccpaDueAt := none, ccpaExtendedDueAt := none, triagedAt := none, resolvedAt := none
      withdrawnAt := none }

/-! ## The talent's side -/

/-- The dispute as it stands, with its statements. -/
structure PortalDisputeView where
  dispute : Option AssertionDispute
  assertionType : AssertionType
  statements : List AssertionDisputeStatement

def portalView (db : GoldenDb) (disputeId : Nat) (a : Assertion) : PortalDisputeView :=
  ⟨db.dispute? disputeId, a.assertionType, db.statementsOf disputeId⟩

def refused (code : String) : GoldenError := .lifecycleRefused (js code)

/-- The assertion, when it belongs to the subject. -/
def ownedAssertion (db : GoldenDb) (assertionId subjectId : Nat) :
    Except GoldenError Assertion := do
  let assertion ← orThrow (db.assertion? assertionId) (refused "NOT_FOUND")
  let survivor ← survivingSubject db assertion.subjectId
  require (survivor.id = subjectId) (refused "NOT_FOUND")
  .ok assertion

/-- The dispute and its assertion, when they belong to the subject. -/
def portalDispute (db : GoldenDb) (id subjectId : Nat) :
    Except GoldenError (AssertionDispute × Assertion) := do
  let dispute ← orThrow (db.dispute? id) (refused "NOT_FOUND")
  let assertion ← ownedAssertion db dispute.assertionId subjectId
  .ok (dispute, assertion)

def talentActor (reference : ExternalTalentReference) : JsString :=
  js "talent:reference:" ++ idText reference.id

structure OpenDisputeRequest where
  portalContext : SourceTuple
  assertionId : Nat
  statement : JsString
  deriving DecidableEq

/-- One open dispute per assertion: a second one answers with the first. -/
def openFor (host : Host) (db : GoldenDb) (reference : ExternalTalentReference)
    (assertion : Assertion) (statement : JsString) (now : Nat) : PortalDisputeView × GoldenDb :=
  match db.openDisputeOf? assertion.id with
  | some existing => (portalView db existing.id assertion, db)
  | none =>
      let dispute := { newDispute now assertion.id reference.id with id := db.nextId }
      let db₁ := db.createDispute dispute
      let db₂ := addStatement host db₁ dispute.id .talent statement
      let db₃ := addDisputeEvent db₂ dispute .opened (some .opened) (talentActor reference) none
      (portalView db₃ dispute.id assertion, db₃)

/-- `DisputeService.open`. -/
def openDispute (host : Host) (db : GoldenDb) (req : OpenDisputeRequest)
    (principal : IngestPrincipal) (now : Nat) :
    Except GoldenError (PortalDisputeView × GoldenDb) := do
  let (reference, subject) ← requireActiveReference db principal req.portalContext false
  let assertion ← ownedAssertion db req.assertionId subject.id
  require (!assertion.currentStatus.retired) (refused "ASSERTION_NOT_DISPUTABLE")
  .ok (openFor host db reference assertion req.statement now)

/-- A further statement of the talent; the same one again changes nothing. -/
def addResponse (host : Host) (db : GoldenDb) (reference : ExternalTalentReference)
    (dispute : AssertionDispute) (statement : JsString) : GoldenDb :=
  if (db.statementsOf dispute.id).getLast?.any fun last =>
      last.author == .talent && last.statementHash == host.sha256Hex statement then db
  else addDisputeEvent (addStatement host db dispute.id .talent statement) dispute .statementAdded
    none (talentActor reference) none

def respond (host : Host) (db : GoldenDb) (id : Nat) (portalContext : SourceTuple)
    (statement : JsString) (principal : IngestPrincipal) :
    Except GoldenError (PortalDisputeView × GoldenDb) := do
  let (reference, subject) ← requireActiveReference db principal portalContext false
  let (dispute, assertion) ← portalDispute db id subject.id
  require dispute.status.isOpen (refused "DISPUTE_NOT_OPEN")
  let db₁ := addResponse host db reference dispute statement
  .ok (portalView db₁ dispute.id assertion, db₁)

/-- The withdrawal of a dispute: only a triaged one moved the assertion. -/
def applyWithdraw (db : GoldenDb) (dispute : AssertionDispute) (actor : JsString) (now : Nat) :
    GoldenDb :=
  if !dispute.status.isOpen then db
  else
    let db₁ := if dispute.status = .underReview then
        (moveAssertion db dispute.assertionId .disputed .valid .disputeResolved actor).2
      else db
    let db₂ := db₁.updateDispute dispute.id fun d =>
      { d with status := .withdrawn, withdrawnAt := some now, resolvedAt := some now }
    addDisputeEvent db₂ dispute .withdrawn (some .withdrawn) actor none

/-- `DisputeService.withdraw`. On a terminal dispute it changes nothing. -/
def withdraw (db : GoldenDb) (id : Nat) (portalContext : SourceTuple) (actor : Option JsString)
    (principal : IngestPrincipal) (now : Nat) :
    Except GoldenError (PortalDisputeView × GoldenDb) := do
  let (reference, subject) ← requireActiveReference db principal portalContext false
  let (dispute, assertion) ← portalDispute db id subject.id
  let who := match actor with
    | some a => js "talent:" ++ a
    | none => talentActor reference
  let db₁ := applyWithdraw db dispute who now
  .ok (portalView db₁ dispute.id assertion, db₁)

/-! ## The tenant's side -/

structure DisputeActionResponse where
  disputeId : Nat
  status : DisputeStatus
  deriving DecidableEq

/-- What a tenant's action is about. -/
structure TenantContext where
  tenant : TenantKey
  actor : JsString
  dispute : AssertionDispute
  assertion : Assertion

/-- The dispute, for an entitled tenant that holds an active reference on the
subject and may see the assertion. -/
def tenantContext (db : GoldenDb) (crossTenant : Bool) (principal : IngestPrincipal)
    (sourceTenantId : JsString) (actor : JsString) (id : Nat) :
      Except GoldenError TenantContext := do
  let tenant : TenantKey := ⟨principal.sourceSystemId, sourceTenantId⟩
  requireEntitledTenant db principal tenant
  let dispute ← orThrow (db.dispute? id) (refused "NOT_FOUND")
  let assertion ← orThrow (db.assertion? dispute.assertionId) (refused "NOT_FOUND")
  let subject ← survivingSubject db assertion.subjectId
  require (subject.accessState = .active) (refused "NOT_FOUND")
  require (!(tenantReferencesOn db subject.id tenant).isEmpty &&
    assertionVisibleTo tenant crossTenant assertion) (refused "NOT_FOUND")
  .ok ⟨tenant, tenantActor tenant actor, dispute, assertion⟩

def noTransition (db : GoldenDb) (ctx : TenantContext) (reason : JsString) (note : Option JsString)
    (now : Nat) : DisputeActionResponse × GoldenDb :=
  let db₁ := db.updateDispute ctx.dispute.id fun d =>
    { d with
      status := .resolvedNoTransition
      noTransitionReason := some reason
      resolvedAt := some now
      resolutionNote := note.or d.resolutionNote }
  (⟨ctx.dispute.id, .resolvedNoTransition⟩,
    addDisputeEvent db₁ ctx.dispute .noTransition (some .resolvedNoTransition) ctx.actor
      (some ctx.tenant))

/-- The assertion of an open dispute becomes disputed, if it can. -/
def applyTriage (db : GoldenDb) (ctx : TenantContext) (now : Nat) :
    DisputeActionResponse × GoldenDb :=
  if ctx.dispute.status ≠ .opened then (⟨ctx.dispute.id, ctx.dispute.status⟩, db)
  else if ctx.assertion.currentStatus.retired then
    noTransition db ctx (js "assertion not disputable") none now
  else
    let (moved, db₁) := if ctx.assertion.currentStatus = .disputed then (true, db)
      else moveAssertion db ctx.assertion.id ctx.assertion.currentStatus
        .disputed .disputed ctx.actor
    if !moved then noTransition db ctx (js "assertion not disputable") none now
    else
      let db₂ := db₁.updateDispute ctx.dispute.id fun d =>
        { d with status := .underReview, triagedAt := some now }
      (⟨ctx.dispute.id, .underReview⟩,
        addDisputeEvent db₂ ctx.dispute .triaged (some .underReview) ctx.actor (some ctx.tenant))

/-- A question of the tenant on the thread. -/
def applyRequestInfo (host : Host) (db : GoldenDb) (ctx : TenantContext) (note : JsString) :
    DisputeActionResponse × GoldenDb :=
  let db₁ := addStatement host db ctx.dispute.id .tenant note
  (⟨ctx.dispute.id, ctx.dispute.status⟩,
    addDisputeEvent db₁ ctx.dispute .infoRequested none ctx.actor (some ctx.tenant))

/-- `dispose`, on a dispute under review. -/
def applyDisposition (db : GoldenDb) (ctx : TenantContext) (corrected : Bool) (note : JsString)
    (now : Nat) : DisputeActionResponse × GoldenDb :=
  let outcome := if corrected then DisputeStatus.resolvedCorrected else .resolvedUpheld
  let (moved, db₁) := if ctx.assertion.currentStatus = .disputed then
      moveAssertion db ctx.assertion.id .disputed (if corrected then .revoked else .valid)
        (if corrected then .corrected else .disputeResolved) ctx.actor
    else (false, db)
  if !moved then noTransition db ctx (js "assertion not in DISPUTED state") (some note) now
  else
    let db₂ := db₁.updateDispute ctx.dispute.id fun d =>
      { d with status := outcome, resolutionNote := some note, resolvedAt := some now }
    (⟨ctx.dispute.id, outcome⟩,
      addDisputeEvent db₂ ctx.dispute (if corrected then .corrected else .upheld) (some outcome)
        ctx.actor (some ctx.tenant))

/-- `dispose`: an open dispute is refused, a terminal one is left alone. -/
def applyDispose (db : GoldenDb) (ctx : TenantContext) (corrected : Bool) (note : JsString)
    (now : Nat) : Except GoldenError (DisputeActionResponse × GoldenDb) :=
  match ctx.dispute.status with
  | .opened => .error (refused "DISPUTE_NOT_UNDER_REVIEW")
  | .underReview => .ok (applyDisposition db ctx corrected note now)
  | status => .ok (⟨ctx.dispute.id, status⟩, db)

/-- The reinvestigation clock may be extended once. -/
def applyExtend (db : GoldenDb) (ctx : TenantContext) (now : Nat) :
    Except GoldenError (DisputeActionResponse × GoldenDb) := do
  require ctx.dispute.reinvestigationExtendedAt.isNone (refused "DISPUTE_EXTENSION_USED")
  let due := ctx.dispute.reinvestigationDueAt + reinvestigationExtensionDays * msPerDay
  let db₁ := db.updateDispute ctx.dispute.id fun d =>
    { d with reinvestigationDueAt := due, reinvestigationExtendedAt := some now }
  .ok (⟨ctx.dispute.id, ctx.dispute.status⟩,
    addDisputeEvent db₁ ctx.dispute .extended none ctx.actor (some ctx.tenant))

/-- The tenant's actions on a dispute. -/
inductive TenantAction where
  | triage
  | requestInfo (note : JsString)
  | correct (note : JsString)
  | uphold (note : JsString)
  | extend
  deriving DecidableEq

/-- `triage`, `requestInfo`, `correct`, `uphold` and `extend`, each inside its
transaction. -/
def applyAction (host : Host) (db : GoldenDb) (ctx : TenantContext) (now : Nat) :
    TenantAction → Except GoldenError (DisputeActionResponse × GoldenDb)
  | .triage => .ok (applyTriage db ctx now)
  | .requestInfo note => .ok (applyRequestInfo host db ctx note)
  | .correct note => applyDispose db ctx true note now
  | .uphold note => applyDispose db ctx false note now
  | .extend => applyExtend db ctx now

def tenantAction (host : Host) (db : GoldenDb) (crossTenant : Bool) (principal : IngestPrincipal)
    (sourceTenantId actor : JsString) (id : Nat) (action : TenantAction) (now : Nat) :
    Except GoldenError (DisputeActionResponse × GoldenDb) := do
  let ctx ← tenantContext db crossTenant principal sourceTenantId actor id
  applyAction host db ctx now action

/-! ## Contradictions -/

inductive ContradictionResolution where
  | keep
  | retract
  deriving DecidableEq

structure ContradictionResolutionResponse where
  assertionId : Nat
  resolution : ContradictionResolution
  status : AssertionStatus
  reconciledWith : List Nat
  deriving DecidableEq

/-- The assertion that a resolution is about: visible, live and contradicted in
the tenant's view. -/
def contradictedAssertion (host : Host) (db : GoldenDb) (crossTenant : Bool) (tenant : TenantKey)
    (freshnessDays : ℚ) (now subjectId assertionId : Nat) :
    Except GoldenError (Assertion × ProjectionResult) := do
  let assertion ← ownedAssertion db assertionId subjectId
  require (assertionVisibleTo tenant crossTenant assertion) (refused "NOT_FOUND")
  require (!assertion.currentStatus.retired) (refused "ASSERTION_NOT_CONTRADICTED")
  let view := db.tenantProjection host tenant crossTenant freshnessDays now subjectId
  require (view.statusOf assertion.id = some .contradicted) (refused "ASSERTION_NOT_CONTRADICTED")
  .ok (assertion, view)

/-- `KEEP`: the partners are reconciled and a stored contradiction lifts. A
standing dispute keeps its own axis. -/
def applyKeep (db : GoldenDb) (crossTenant : Bool) (tenant : TenantKey) (subjectId : Nat)
    (assertion : Assertion) (view : ProjectionResult) : AssertionStatus × List Nat × GoldenDb :=
  let live := (tenantViewAssertions tenant crossTenant (db.assertionsOf subjectId)).filter
    fun a => !a.currentStatus.retired
  let reconciled := reconciledPairs (db.linksFor (live.map (·.id)))
  let partners := view.partnersOf assertion.id
  let db₁ := (partners.filter fun p => !reconciled.contains (assertion.id, p)).foldl
    (fun db p => db.appendLink assertion.id p .reconciles) db
  if assertion.currentStatus = .contradicted ∧ db₁.canTransition assertion.id .contradicted then
    (.valid, partners, db₁.setStatus assertion.id .valid)
  else (assertion.currentStatus, partners, db₁)

/-- `RETRACT`: only what the tenant contributed. -/
def applyRetract (db : GoldenDb) (tenant : TenantKey) (assertion : Assertion) :
    Except GoldenError (AssertionStatus × List Nat × GoldenDb) := do
  require (isOwnAssertion tenant assertion) (refused "RESOLUTION_NOT_PERMITTED")
  require (db.canTransition assertion.id assertion.currentStatus)
    (refused "ASSERTION_NOT_CONTRADICTED")
  .ok (.revoked, [], db.setStatus assertion.id .revoked)

def applyResolution (db : GoldenDb) (crossTenant : Bool) (tenant : TenantKey) (subjectId : Nat)
    (assertion : Assertion) (view : ProjectionResult) :
    ContradictionResolution → Except GoldenError (AssertionStatus × List Nat × GoldenDb)
  | .keep => .ok (applyKeep db crossTenant tenant subjectId assertion view)
  | .retract => applyRetract db tenant assertion

/-- `ContradictionResolutionService.resolve`. -/
def resolveContradiction (host : Host) (db : GoldenDb) (crossTenant : Bool) (freshnessDays : ℚ)
    (tuple : SourceTuple) (assertionId : Nat) (resolution : ContradictionResolution)
    (actor : JsString) (principal : IngestPrincipal) (now : Nat) :
    Except GoldenError (ContradictionResolutionResponse × GoldenDb) := do
  let (_, subject) ← requireActiveReference db principal tuple true
  let (assertion, view) ←
    contradictedAssertion host db crossTenant tuple.tenant freshnessDays now subject.id assertionId
  let (status, reconciledWith, db₁) ←
    applyResolution db crossTenant tuple.tenant subject.id assertion view resolution
  .ok (⟨assertion.id, resolution, status, reconciledWith⟩,
    db₁.appendEvent assertion.id .contradictionResolved (some assertion.currentStatus) (some status)
      (tenantActor tuple.tenant actor))

end AramoPlatform.Intelligence
