import AramoPlatform.Sign.EngineRuns

/-!
# Retention and purge of one envelope

`SignPurgeRepository` on one envelope: a terminal envelope is queued, waits
fourteen days, may be dequeued, and is then purged in one transaction. What
goes depends on the level: the bytes, the metadata, and at the highest level
the personal data, in the rows and in the ledger.

The ledger is redacted from a fixed list of payload keys. `redactLedger` is
written for any type of payload, with the JSON that the column gives back
and the payload with some of its members replaced.
-/

namespace AramoPlatform.Sign

open Js Lib

/-! ## Levels, states, reasons -/

inductive PurgeLevel where
  | documents
  | documentsAndMetadata
  | documentsAndMetadataAndRedact
  deriving DecidableEq

def PurgeLevel.text : PurgeLevel → JsString
  | documents => js "DOCUMENTS"
  | documentsAndMetadata => js "DOCUMENTS_AND_METADATA"
  | documentsAndMetadataAndRedact => js "DOCUMENTS_AND_METADATA_AND_REDACT"

/-- `LEVEL_RANK`. -/
def PurgeLevel.rank : PurgeLevel → Nat
  | documents => 1
  | documentsAndMetadata => 2
  | documentsAndMetadataAndRedact => 3

inductive PurgeState where
  | queued
  | dequeued
  | executed
  deriving DecidableEq

/-- `EsignPurgeReason`. -/
inductive PurgeReason where
  | retention
  | targeted
  | allPartiesDeleted
  | accountClosed
  | manual
  deriving DecidableEq

def PurgeReason.text : PurgeReason → JsString
  | retention => js "retention"
  | targeted => js "targeted"
  | allPartiesDeleted => js "all_parties_deleted"
  | accountClosed => js "account_closed"
  | manual => js "manual"

/-- `PURGE_ELIGIBLE_STATUSES`. -/
def EnvelopeStatus.isPurgeEligible : EnvelopeStatus → Bool
  | completed | declined | voided => true
  | draft | sent | inProgress | expired => false

/-- `PURGE_QUEUE_DAYS * DAY_MS`. -/
def purgeQueueMs : Nat := 14 * 86400000

def purgedText : JsString := js "[purged]"

def redactedText : JsString := js "[redacted]"

def redactedPayloadValue : JsString := js "[REDACTED]"

def piiPayloadKeys : List JsString :=
  [js "title", js "reason", js "name", js "email", js "attested_name", js "subject",
    js "message", js "decline_reason", js "phone"]

/-! ## Redaction of a ledger -/

/-- A row of `SignatureEventRedaction`. -/
structure EventRedactionRow extends ChainRedactionRow where
  redactedAt : Nat
  redactedFields : List JsString
  originalPayloadSha256 : JsString

def isRedactedValue : JsVal → Bool
  | .str s => s == redactedPayloadValue
  | _ => false

/-- The members of a payload that are to be redacted; a payload that is not an
object has none. -/
def piiKeys : JsVal → List JsString
  | .obj members =>
    (members.filter fun m => piiPayloadKeys.contains m.1 && !isRedactedValue m.2).map Prod.fst
  | _ => []

section Redaction

variable {π : Type} (sha256 : JsString → JsString) (json : π → JsValue)
  (replace : List JsString → π → π) (envelopeId : JsString)

/-- An event without personal data is passed over. -/
def carriesPersonalData (ev : EventRow π) : Bool :=
  !((piiKeys (json ev.payload).val).isEmpty && ev.ipAddress.isNone && ev.userAgent.isNone)

/-- The record of a redaction, made from the unredacted row. -/
def redactionRow (now : Nat) (ev : EventRow π) : EventRedactionRow where
  eventId := ev.id
  originalEventHash := ev.eventHash
  verifiedBeforeRedaction := ev.eventHash == computeEventHash sha256 ev.previousEventHash
    { envelopeId := envelopeId, eventType := ev.eventType, actorType := ev.actorType,
      actorRef := ev.actorRef, payload := json ev.payload
      occurredAt := toISOString ev.occurredAt }
  redactedAt := now
  redactedFields := piiKeys (json ev.payload).val
  originalPayloadSha256 := sha256 (stringify (orNull (json ev.payload).val))

def redactEvent (ev : EventRow π) : EventRow π :=
  let keys := piiKeys (json ev.payload).val
  { ev with
    payload := if keys.isEmpty then ev.payload else replace keys ev.payload
    ipAddress := none, userAgent := none }

/-- The events a redaction rewrites: not redacted before, and with personal
data. -/
def toRedact (redactions : List EventRedactionRow) (ev : EventRow π) : Bool :=
  !redactions.any (·.eventId == ev.id) && carriesPersonalData json ev

/-- `redactLedger`, with the number of events redacted. Each event is updated
by its primary key, so the loop rewrites row by row. -/
def redactLedger (events : List (EventRow π)) (redactions : List EventRedactionRow) (now : Nat) :
    List (EventRow π) × List EventRedactionRow × Nat :=
  let selected := (listEvents events).filter (toRedact json redactions)
  (updateWhere (toRedact json redactions) (redactEvent json replace) events,
    redactions ++ selected.map (redactionRow sha256 json envelopeId now), selected.length)

end Redaction

/-! ## The payloads of the engine -/

/-- What the jsonb column gives back: the members in storage order, and `null`
for an event without a payload. -/
def storedJson : Option Payload → JsValue
  | none => ⟨.null, rfl⟩
  | some p => ⟨.obj ((p.members.insertionSort jsonbKeyLe).map fun m => (m.1, m.2.json)), by
      refine JsVal.wf_obj.mpr ⟨?_, fun m hm => ?_⟩
      · have hperm := (p.members.perm_insertionSort jsonbKeyLe).map Prod.fst
        simpa [Function.comp_def] using hperm.nodup_iff.mpr p.nodup
      · obtain ⟨m', -, rfl⟩ := List.mem_map.mp hm
        exact m'.2.wf_json⟩

/-- `{ ...payload, ...Object.fromEntries(keys.map((k) => [k, '[REDACTED]'])) }`. -/
def redactMembers (keys : List JsString) : Option Payload → Option Payload :=
  Option.map fun p =>
    { members := p.members.map fun m =>
        if keys.contains m.1 then (m.1, .text redactedPayloadValue) else m
      nodup := by
        have hkeys : (p.members.map fun m =>
            if keys.contains m.1 then (m.1, PayloadValue.text redactedPayloadValue)
            else m).map Prod.fst = p.members.map Prod.fst := by
          rw [List.map_map]
          refine List.map_congr_left fun m _ => ?_
          rw [Function.comp_apply]
          split <;> rfl
        exact hkeys ▸ p.nodup }

/-! ## The rows a purge writes -/

/-- The purge columns of `SignatureEnvelope`. -/
structure PurgeColumns where
  state : Option PurgeState := none
  level : Option PurgeLevel := none
  reason : Option PurgeReason := none
  requestedBy : Option Uuid := none
  queuedAt : Option Nat := none
  dueAt : Option Nat := none
  waitingUntil : Option Nat := none
  executedAt : Option Nat := none

inductive ArtifactKind where
  | executedDocument
  | executionCertificate
  | executedDocumentReissue
  | executionCertificateReissue
  | executedDocumentSeal
  deriving DecidableEq

/-- A row of one of the five tables that keep bytes. -/
structure ArtifactRow where
  kind : ArtifactKind
  bytes : Option (List UInt8)
  purgedAt : Option Nat

/-- The phone columns of a message delivery or a one-time-code challenge. -/
structure PhoneTrace where
  phoneHash : Option JsString
  phoneMasked : Option JsString

/-- An envelope with its purge, and the tables only a purge writes here. -/
structure RetentionState where
  engine : State
  purge : PurgeColumns
  redactions : List EventRedactionRow
  artifacts : List ArtifactRow
  /-- The documents with cached pages. -/
  pages : List Uuid
  /-- The recipients with messaging settings. -/
  messaging : List Uuid
  messageDeliveries : List PhoneTrace
  otpChallenges : List PhoneTrace

def RetentionState.at (s : RetentionState) (time : Nat) : RetentionState :=
  { s with engine := s.engine.at time }

/-! ## Queue and dequeue -/

section

variable (deps : Deps)

def levelValue (level : Option PurgeLevel) : PayloadValue := level.elim .null (.text ·.text)

def reasonValue (reason : Option PurgeReason) : PayloadValue := reason.elim .null (.text ·.text)

/-- The payload of a queue or a dequeue; `upgradedFrom` is the level an
upgrade replaces. -/
def purgeTransitionPayload (level : Option PurgeLevel) (reason : Option PurgeReason)
    (due : Option Nat) : (upgradedFrom : Option (Option PurgeLevel)) → Payload
  | none =>
    { members :=
        [(js "level", levelValue level), (js "purge_reason", reasonValue reason),
          (js "due_at", due.elim .null (.text <| toISOString ·))] }
  | some current =>
    { members :=
        [(js "level", levelValue level), (js "purge_reason", reasonValue reason),
          (js "due_at", due.elim .null (.text <| toISOString ·)),
          (js "upgraded_from", levelValue current)] }

def recordTransition (s : State) (event : LedgerEvent) (actorUserId : Option Uuid)
    (payload : Payload) : State :=
  s.appendEvent deps (serviceEvent event none (actorUserId.map deps.uuidText) (some payload))

structure QueueInput where
  level : PurgeLevel
  reason : PurgeReason
  actorUserId : Option Uuid
  now : Nat

inductive QueueOutcome where
  | queued
  | upgraded
  | alreadyQueued
  | notEligible
  | executed
  | dequeuedByAdmin
  deriving DecidableEq

/-- A purge not queued: the columns of a new one, due in fourteen days. -/
def enqueue (s : RetentionState) (input : QueueInput) : RetentionState :=
  let due := input.now + purgeQueueMs
  { s with
    purge :=
      { s.purge with
        state := some .queued, level := some input.level, reason := some input.reason
        requestedBy := input.actorUserId, queuedAt := some input.now, dueAt := some due
        waitingUntil := none }
    engine := recordTransition deps s.engine .envelopePurgeQueued input.actorUserId
      (purgeTransitionPayload (some input.level) (some input.reason) (some due) none) }

/-- A purge already queued at a lower level. -/
def upgrade (s : RetentionState) (input : QueueInput) : RetentionState :=
  { s with
    purge := { s.purge with level := some input.level }
    engine := recordTransition deps s.engine .envelopePurgeQueued input.actorUserId
      (purgeTransitionPayload (some input.level) (s.purge.reason.getD input.reason) s.purge.dueAt
        (some s.purge.level)) }

def queue (s : RetentionState) (input : QueueInput) : QueueOutcome × RetentionState :=
  if !s.engine.envelope.status.isPurgeEligible || s.engine.envelope.deletedAt.isSome then
    (.notEligible, s)
  else if s.purge.state = some .executed then (.executed, s)
  else if s.purge.state = some .dequeued ∧ input.reason = .retention then (.dequeuedByAdmin, s)
  else if s.purge.state = some .queued then
    if s.purge.level.any (input.level.rank ≤ ·.rank) then (.alreadyQueued, s)
    else (.upgraded, upgrade deps s input)
  else (.queued, enqueue deps s input)

/-- `dequeue`; an envelope that is not queued is left as it is. -/
def dequeue (s : RetentionState) (actorUserId : Uuid) : RetentionState :=
  if s.purge.state = some .queued then
    { s with
      purge := { s.purge with state := some .dequeued, waitingUntil := none }
      engine := recordTransition deps s.engine .envelopePurgeDequeued (some actorUserId)
        (purgeTransitionPayload s.purge.level s.purge.reason none none) }
  else s

def markWaiting (s : RetentionState) (waitUntil : Nat) : RetentionState :=
  if s.purge.state = some .queued then
    { s with purge := { s.purge with waitingUntil := some waitUntil } }
  else s

/-! ## Execution -/

/-- What the removal of the stored objects reports. -/
structure PurgeObjectsReport where
  deleted : Nat
  locked : List (JsString × Nat)

inductive ExecuteOutcome where
  | executed (level : Option PurgeLevel) (documents certificates eventsRedacted : Nat)
  | held
  | notDue
  deriving DecidableEq

def atLeast (level : Option PurgeLevel) (bound : PurgeLevel) : Bool :=
  level.any (bound.rank ≤ ·.rank)

/-- The artifacts of a kind that still have to be purged. -/
def unpurged (s : RetentionState) (kind : ArtifactKind) : Nat :=
  s.artifacts.countP fun a => a.kind == kind && a.purgedAt.isNone

/-- Every level: the bytes go, the rows stay, and the page cache is removed. -/
def purgeDocuments (s : RetentionState) (now : Nat) : RetentionState :=
  { s with
    artifacts := updateWhere (·.purgedAt.isNone)
      (fun a => { a with bytes := none, purgedAt := some now }) s.artifacts
    pages := s.pages.filter fun id => !s.engine.documents.any (·.id == id) }

/-- The subject, the message, the titles and the field values. -/
def purgeMetadata (s : State) : State :=
  { s with
    envelope := { s.envelope with subject := purgedText, message := none }
    documents := s.documents.map fun d => { d with title := purgedText }
    fields := updateWhere (fun f => s.documents.any (·.id == f.envelopeDocumentId))
      (fun f => { f with value := none }) s.fields }

/-- The personal data of the recipients, outside the ledger. -/
def redactParties (s : State) : State :=
  { s with
    signers := updateWhere (·.delegatedAt.isSome)
      (fun r => { r with
        delegatedFromName := some redactedText, delegatedFromEmail := some redactedText })
      (s.signers.map fun r =>
        { r with
          name := redactedText, email := some redactedText, declineReason := none
          accessCodeHash := none })
    acceptances := updateWhere (fun a => s.signers.any (·.id == a.signerId))
      (fun a => { a with attestedName := none }) s.acceptances
    bindings := s.bindings.map fun b => { b with email := redactedText }
    deliveries := s.deliveries.map fun d => { d with lastError := none } }

/-- The phone numbers and their traces. -/
def redactPhones (s : RetentionState) : RetentionState :=
  let cleared := fun _ : PhoneTrace => (⟨none, none⟩ : PhoneTrace)
  { s with
    messaging := []
    messageDeliveries := s.messageDeliveries.map cleared
    otpChallenges := s.otpChallenges.map cleared }

/-- The redaction of a purge: the recipients, their phones, and the ledger. -/
def redactEnvelope (s : RetentionState) (now : Nat) : RetentionState × Nat :=
  let (events, redactions, count) := redactLedger deps.sha256Hex storedJson redactMembers
    (deps.uuidText deps.envelopeId) s.engine.events s.redactions now
  ({ redactPhones s with
      engine := { redactParties s.engine with events := events }
      redactions := redactions }, count)

/-- What the levels above the documents clear, with the events redacted. -/
def purgeContent (s : RetentionState) (level : Option PurgeLevel) (now : Nat) :
    RetentionState × Nat :=
  let documents := purgeDocuments s now
  let cleared := if atLeast level .documentsAndMetadata then
      { documents with engine := purgeMetadata documents.engine }
    else documents
  if atLeast level .documentsAndMetadataAndRedact then redactEnvelope deps cleared now
  else (cleared, 0)

def purgedPayload (s : RetentionState) (objects : PurgeObjectsReport) (eventsRedacted : Nat) :
    Payload :=
  { members :=
      [(js "level", levelValue s.purge.level), (js "purge_reason", reasonValue s.purge.reason),
        (js "executed_documents", .num (unpurged s .executedDocument)),
        (js "certificates", .num (unpurged s .executionCertificate)),
        (js "s3_versions_deleted", .num objects.deleted),
        (js "s3_versions_locked", .num objects.locked.length),
        (js "events_redacted", .num eventsRedacted)] }

/-- Queued, due, and not waiting for an object lock. -/
def isDue (p : PurgeColumns) (now : Nat) : Bool :=
  p.state == some .queued && p.dueAt.any (· ≤ now) && p.waitingUntil.all (· ≤ now)

/-- `execute`; `held` is the legal hold that the transaction reads. -/
def execute (s : RetentionState) (held : Bool) (objects : PurgeObjectsReport) (now : Nat) :
    ExecuteOutcome × RetentionState :=
  if !isDue s.purge now then (.notDue, s)
  else if held then (.held, s)
  else
    let (content, count) := purgeContent deps s s.purge.level now
    (.executed s.purge.level (unpurged s .executedDocument) (unpurged s .executionCertificate)
        count,
      { content with
        purge :=
          { s.purge with state := some .executed, executedAt := some now, waitingUntil := none }
        engine := content.engine.appendEvent deps
          (serviceEvent .envelopePurged none none (some (purgedPayload s objects count))) })

/-! ## Runs -/

inductive RetentionCall where
  | engine (call : Call)
  | queue (time : Nat) (input : QueueInput)
  | dequeue (time : Nat) (actorUserId : Uuid)
  | markWaiting (time waitUntil : Nat)
  | execute (time : Nat) (held : Bool) (objects : PurgeObjectsReport) (now : Nat)

/-- One transaction, of the engine or of the purge; none starts before the
last one. `now` is the caller's clock. -/
def retentionStep (s : RetentionState) (call : RetentionCall) (t : RetentionState) : Prop :=
  match call with
  | .engine call => engineStep deps s.engine call t.engine ∧ t = { s with engine := t.engine }
  | .queue time input => s.engine.clock ≤ time ∧ t = (queue deps (s.at time) input).2
  | .dequeue time actor => s.engine.clock ≤ time ∧ t = dequeue deps (s.at time) actor
  | .markWaiting time waitUntil => s.engine.clock ≤ time ∧ t = markWaiting (s.at time) waitUntil
  | .execute time held objects now =>
    s.engine.clock ≤ time ∧ t = (execute deps (s.at time) held objects now).2

end

inductive ExecutionMode where
  | acknowledgement
  | singleSignature
  | multiSignature
  deriving DecidableEq

def ExecutionMode.text : ExecutionMode → JsString
  | acknowledgement => js "ACKNOWLEDGEMENT"
  | singleSignature => js "SINGLE_SIGNATURE"
  | multiSignature => js "MULTI_SIGNATURE"

/-- The ledger that `createEnvelope` starts. -/
def createdLedger (deps : Deps) (executionMode : ExecutionMode) (createdBy : JsString)
    (envelopeMode : EnvelopeMode) (time : Nat) : List (EventRow (Option Payload)) :=
  let payload : Payload := match envelopeMode with
    | .standard => { members := [(js "execution_mode", .text executionMode.text)] }
    | .self =>
      { members :=
          [(js "execution_mode", .text executionMode.text),
            (js "envelope_mode", .text (js "SELF"))] }
  appendEvent deps.sha256Hex payloadJson (deps.uuidText deps.envelopeId) []
    (serviceEvent .envelopeCreated none (some createdBy) (some payload)) time (deps.eventId 0)

/-- A new draft: its ledger holds its creation, and no purge has been asked
for. -/
structure Created (deps : Deps) (s : RetentionState) : Prop where
  initial : Initial s.engine
  ledger : ∃ executionMode createdBy time,
    s.engine.events = createdLedger deps executionMode createdBy s.engine.envelope.envelopeMode time
  noPurge : s.purge.state = none
  noRedactions : s.redactions = []

end AramoPlatform.Sign
