import AramoPlatform.Intelligence.IngestMapping

/-!
# Ingest

One full snapshot of a source reference, in one transaction: the inbox is asked
whether the event is known, the identity is resolved, new claims are appended,
claims that the snapshot no longer makes are superseded, and the response goes
into the inbox. A claim that was revoked is not admitted again from the same
reference.
-/

namespace AramoPlatform.Intelligence

open Js Lib

structure IngestPrincipal where
  clientId : JsString
  sourceSystemId : JsString
  deriving DecidableEq

/-! ## Statements on assertions -/

namespace GoldenDb

variable (db : GoldenDb)

def assertion? (id : Nat) : Option Assertion := db.assertions.find? (·.id == id)

def assertionsOf (subjectId : Nat) : List Assertion :=
  db.assertions.filter (·.subjectId == subjectId)

/-- `listLiveByReference`. -/
def liveAssertionsOf (referenceId : Nat) : List Assertion :=
  db.assertions.filter fun a =>
    a.sourceReferenceId == some referenceId && !a.currentStatus.retired

/-- `listRevokedHashesByReference`. -/
def revokedHashesOf (referenceId : Nat) : List JsString :=
  (db.assertions.filter fun a =>
    a.sourceReferenceId == some referenceId && a.currentStatus == .revoked).map (·.contentHash)

/-- The row gets its id here. -/
def createAssertion (row : Assertion) : GoldenDb :=
  { db with
    nextId := db.nextId + 1
    assertions := db.assertions ++ [{ row with id := db.nextId }] }

/-- `setStatus`, whatever the status was. -/
def setStatus (id : Nat) (status : AssertionStatus) : GoldenDb :=
  { db with
    assertions := updateWhere (·.id == id) (fun a =>
      { a with currentStatus := status }) db.assertions }

/-- `transitionStatus` applies only while the row has the status it starts from. -/
def canTransition (id : Nat) (source : AssertionStatus) : Bool :=
  db.assertions.any fun a => a.id == id && a.currentStatus == source

def appendEvent (assertionId : Nat) (eventType : AssertionEventType)
    (fromStatus toStatus : Option AssertionStatus) (actor : JsString) : GoldenDb :=
  { db with
    nextId := db.nextId + 1
    assertionEvents := db.assertionEvents ++
      [⟨db.nextId, assertionId, eventType, fromStatus, toStatus, actor⟩] }

def appendLink (fromId toId : Nat) (linkType : AssertionLinkType) : GoldenDb :=
  { db with
    nextId := db.nextId + 1
    assertionLinks := db.assertionLinks ++ [⟨db.nextId, fromId, toId, linkType⟩] }

def inboxEvent? (eventId : JsString) : Option IntelligenceInbox :=
  db.inbox.find? (·.eventId == eventId)

def createInbox (row : IntelligenceInbox) : GoldenDb := { db with inbox := db.inbox ++ [row] }

end GoldenDb

/-! ## The assertions of a snapshot -/

/-- An assertion as a draft gives it. -/
def assertionOfDraft (req : TalentIngestRequest) (subjectId referenceId :
    Nat) (d : AssertionDraft) :
    Assertion :=
  { id := 0, subjectId := subjectId, assertionType := d.assertionType
    admissionClass := d.admissionClass, payload := d.payload
    sourceReferenceId := some referenceId, sourceSystemId := req.tuple.sourceSystemId
    sourceTenantId := some req.tuple.sourceTenantId, sourceKind := d.sourceKind
    sourceEventId := req.sourceEventId, verificationStatus := .declared
    observedAt := d.observedAt, validFrom := d.validFrom, validTo := d.validTo
    aiDerived := d.aiDerived, contentHash := d.contentHash
    sourceDocumentHash := d.sourceDocumentHash, currentStatus := .valid }

/-- The drafts that are new claims: neither live nor revoked. -/
def newDrafts (live : List Assertion) (revoked : List JsString) (drafts : List AssertionDraft) :
    List AssertionDraft :=
  drafts.filter fun d =>
    !(live.map (·.contentHash)).contains d.contentHash && !revoked.contains d.contentHash

/-- The live assertions that the snapshot no longer makes. -/
def absentFrom (live : List Assertion) (drafts : List AssertionDraft) : List Assertion :=
  live.filter fun a => !(drafts.map (·.contentHash)).contains a.contentHash

/-- Append one claim. The accumulator carries the added rows. -/
def addAssertion (req : TalentIngestRequest) (actor : JsString) (subjectId referenceId : Nat)
    (acc : List (Nat × AssertionType) × GoldenDb) (d : AssertionDraft) :
    List (Nat × AssertionType) × GoldenDb :=
  let id := acc.2.nextId
  (acc.1 ++ [(id, d.assertionType)],
    (acc.2.createAssertion (assertionOfDraft req subjectId referenceId d)).appendEvent id
      .asserted none (some .valid) actor)

/-- Supersede one claim. -/
def supersede (actor : JsString) (db : GoldenDb) (a : Assertion) : GoldenDb :=
  (db.setStatus a.id .superseded).appendEvent a.id .superseded (some a.currentStatus)
    (some .superseded) actor

/-- A single-valued fact that was replaced within the snapshot is linked. -/
def linkReplacement (added : List (Nat × AssertionType)) (db : GoldenDb) (old : Assertion) :
    GoldenDb :=
  if old.assertionType.singleValued then
    match added.find? (·.2 == old.assertionType) with
    | some replacement => db.appendLink replacement.1 old.id .supersedes
    | none => db
  else db

/-- Append the new claims, supersede the absent ones and link the replaced ones,
as decided from the rows that were read. -/
def writeAssertions (req : TalentIngestRequest) (actor : JsString) (subjectId referenceId : Nat)
    (live : List Assertion) (revoked : List JsString) (drafts : List AssertionDraft)
    (db : GoldenDb) : Nat × Nat × GoldenDb :=
  let fresh := newDrafts live revoked drafts
  let absent := absentFrom live drafts
  let added := fresh.foldl (addAssertion req actor subjectId referenceId) ([], db)
  let superseded := absent.foldl (supersede actor) added.2
  (fresh.length, absent.length, absent.foldl (linkReplacement added.1) superseded)

/-! ## The service -/

/-- `replay`: the stored response of an event that is known. -/
def replay (db : GoldenDb) (eventId : JsString) (tuple : SourceTuple) :
    Except GoldenError (Option InboxResponse) :=
  match db.inboxEvent? eventId with
  | none => .ok none
  | some prior => do
      require (prior.tuple = tuple) (.eventIdReused eventId)
      .ok (some prior.response)

def ingestActor (principal : IngestPrincipal) : JsString := js "ingest:" ++ principal.clientId

/-- The assertions of a resolved snapshot, the response and the inbox row. -/
def finishSnapshot (host : Host) (db : GoldenDb) (req : TalentIngestRequest)
    (principal : IngestPrincipal) (resolution : ResolutionResult) :
    TalentIngestResponse × GoldenDb :=
  let written := writeAssertions req (ingestActor principal) resolution.subjectId
    resolution.referenceId (db.liveAssertionsOf resolution.referenceId)
    (db.revokedHashesOf resolution.referenceId) (toAssertionDrafts host req) db
  let response : TalentIngestResponse :=
    { intelligenceSubjectId := resolution.subjectId
      outcome := if resolution.createdSubject then .created
        else if resolution.createdReference then .linked else .updated
      resolution := resolution.rule
      changed := resolution.createdReference || resolution.createdSubject ||
        resolution.identifiersChanged || 0 < resolution.conflictsOpened || 0 < written.1 ||
        0 < written.2.1
      assertionsAdded := written.1
      assertionsSuperseded := written.2.1
      conflictsOpened := resolution.conflictsOpened
      replayed := false }
  (response, written.2.2.createInbox ⟨req.sourceEventId, req.tuple, .talentSnapshot response⟩)

/-- The first time an event is seen. -/
def applySnapshot (host : Host) (db : GoldenDb) (req : TalentIngestRequest)
    (principal : IngestPrincipal) (input : ResolutionInput) (now : Nat) :
    Except GoldenError (TalentIngestResponse × GoldenDb) := do
  let resolved ← resolve host db input now
  .ok (finishSnapshot host resolved.2 req principal resolved.1)

/-- What a known event answers, and what a new one does. -/
def snapshotOutcome (host : Host) (db : GoldenDb) (req : TalentIngestRequest)
    (principal : IngestPrincipal) (input : ResolutionInput) (now : Nat) :
    Option InboxResponse → Except GoldenError (TalentIngestResponse × GoldenDb)
  | some (.talentSnapshot response) => .ok ({ response with replayed := true }, db)
  | some (.talentErased _) => .error (.eventIdReused req.sourceEventId)
  | none => applySnapshot host db req principal input now

/-- `TalentIngestService.ingest`, from the validated request on. -/
def ingest (host : Host) (tokenKey : Option JsString) (db : GoldenDb) (req : TalentIngestRequest)
    (principal : IngestPrincipal) (now : Nat) :
    Except GoldenError (TalentIngestResponse × GoldenDb) := do
  require (req.tuple.sourceSystemId = principal.sourceSystemId) .sourceSystemMismatch
  let input ← toResolutionInput host tokenKey req
  let prior ← replay db req.sourceEventId req.tuple
  snapshotOutcome host db req principal input now prior

/-! ## Erasure -/

/-- `talent.erased`, as validated. -/
structure TalentErasedRequest where
  tuple : SourceTuple
  sourceEventId : JsString
  deriving DecidableEq

/-- A subject is reachable while one of its references is active. -/
def accessStateOf (db : GoldenDb) (subjectId : Nat) : AccessState :=
  if (db.referencesOf subjectId).any (·.status == .active) then .active else .auditRetained

/-- Mark the reference erased and bring its subject's access state up to date. -/
def eraseReference (db : GoldenDb) (ref : ExternalTalentReference) (now : Nat) :
    Except GoldenError (TalentErasedResponse × GoldenDb) := do
  let db₁ := if ref.status = .erased then db
    else db.updateReference ref.id fun r => { r with status := .erased, erasedAt := some now }
  let subject ← survivingSubject db₁ ref.subjectId
  let access := accessStateOf db₁ subject.id
  .ok (⟨if ref.status = .erased then .alreadyErased else .erased,
    some subject.id, some access, false⟩,
    db₁.updateSubject subject.id fun s => { s with accessState := access })

/-- The reference that an erasure names, if there is one. -/
def eraseByTuple (db : GoldenDb) (tuple : SourceTuple) (now : Nat) :
    Except GoldenError (TalentErasedResponse × GoldenDb) :=
  match db.referenceByTuple? tuple with
  | none => .ok (⟨.notFound, none, none, false⟩, db)
  | some ref => eraseReference db ref now

/-- The first time an erasure event is seen. -/
def applyErasure (db : GoldenDb) (req : TalentErasedRequest) (now : Nat) :
    Except GoldenError (TalentErasedResponse × GoldenDb) := do
  let erased ← eraseByTuple db req.tuple now
  .ok (erased.1, erased.2.createInbox ⟨req.sourceEventId, req.tuple, .talentErased erased.1⟩)

def erasureOutcome (db : GoldenDb) (req : TalentErasedRequest) (now : Nat) :
    Option InboxResponse → Except GoldenError (TalentErasedResponse × GoldenDb)
  | some (.talentErased response) => .ok ({ response with replayed := true }, db)
  | some (.talentSnapshot _) => .error (.eventIdReused req.sourceEventId)
  | none => applyErasure db req now

/-- `TalentIngestService.erase`, from the validated request on. -/
def erase (db : GoldenDb) (req : TalentErasedRequest) (principal : IngestPrincipal) (now : Nat) :
    Except GoldenError (TalentErasedResponse × GoldenDb) := do
  require (req.tuple.sourceSystemId = principal.sourceSystemId) .sourceSystemMismatch
  let prior ← replay db req.sourceEventId req.tuple
  erasureOutcome db req now prior

end AramoPlatform.Intelligence
