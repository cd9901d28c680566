import AramoPlatform.Lib.Latest
import AramoPlatform.Lib.Outcome

/-!
# The consent ledger

The rows of `TalentConsentEvent` and their one writer for grants and revokes,
`recordConsentEvent`. The ledger only grows: a grant that ends is followed by
another row, and what a talent has consented to is read off all of them.
-/

namespace AramoPlatform.Consent

open Lib List

/-- `CONSENT_SCOPES`. -/
inductive ConsentScope
  | profileStorage
  | resumeProcessing
  | matching
  | contacting
  | crossTenantVisibility
  | recording
  | transcription
  | aiProcessing
  deriving DecidableEq

namespace ConsentScope

def wire : ConsentScope → String
  | profileStorage => "profile_storage"
  | resumeProcessing => "resume_processing"
  | matching => "matching"
  | contacting => "contacting"
  | crossTenantVisibility => "cross_tenant_visibility"
  | recording => "recording"
  | transcription => "transcription"
  | aiProcessing => "ai_processing"

end ConsentScope

/-- `PROFILE_CONSENT_SCOPES`: the scopes that the state read shows. -/
def profileConsentScopes : List ConsentScope :=
  [.profileStorage, .resumeProcessing, .matching, .contacting, .crossTenantVisibility]

inductive ConsentAction
  | granted
  | revoked
  | expired
  deriving DecidableEq

/-- `CONSENT_LEDGER_CAPTURED_METHODS`: the sources of consent. -/
inductive CapturedMethod
  | selfSignup
  | recruiterCapture
  | uploadFlow
  | imported
  | portalSelfService
  | recruiterCreateDefault
  deriving DecidableEq

/-- What the readers take from the free `metadata` of a row. -/
structure ConsentMetadata where
  /-- The strings of `permitted_channels`, when that is an array. -/
  permittedChannels : Option (List String)
  /-- `reconcile.operation_id`. -/
  reconcileOperation : Option Nat
  deriving DecidableEq

def ConsentMetadata.none : ConsentMetadata := ⟨.none, .none⟩

/-- A `TalentConsentEvent`. Times are instants in milliseconds. -/
structure ConsentEvent where
  id : Nat
  tenantId : Nat
  talentRecordId : Nat
  scope : ConsentScope
  action : ConsentAction
  capturedByActorId : Option Nat
  capturedMethod : CapturedMethod
  consentVersion : String
  occurredAt : Nat
  expiresAt : Option Nat
  metadata : ConsentMetadata
  createdAt : Nat
  deriving DecidableEq

/-- The rows of a talent, in the order in which they are stored. -/
def talentRows (events : List ConsentEvent) (tenantId talentRecordId : Nat) : List ConsentEvent :=
  events.filter fun e => e.tenantId == tenantId && e.talentRecordId == talentRecordId

/-- The server's `Date.prototype.setMonth`, which depends on its time zone. -/
structure Calendar where
  monthsBefore : Nat → Nat → Nat
  monthsAfter : Nat → Nat → Nat

/-- Twelve months around a date in January 2026, in UTC. -/
def commonYear : Calendar where
  monthsBefore _ t := t - 31536000000
  monthsAfter _ t := t + 31536000000

/-! ## Recording a grant or a revoke -/

/-- The keys of the at-create default and those of requests, which are UUIDs,
with a scope after them where a request is fanned out. -/
inductive IdempotencyKey
  | createDefault (talentRecordId : Nat) (scope : ConsentScope)
  | request (key : String)
  deriving DecidableEq

/-- What the hashed body says: the default's canonical body, or a request's. -/
inductive RequestHash
  | createDefault (talentRecordId : Nat) (scope : ConsentScope) (consentVersion : String)
  | request (body : String)
  deriving DecidableEq

structure RecordConsentEventInput where
  tenantId : Nat
  talentRecordId : Nat
  action : ConsentAction
  scope : ConsentScope
  capturedMethod : CapturedMethod
  capturedByActorId : Option Nat
  consentVersion : String
  occurredAt : Nat
  expiresAt : Option Nat
  metadata : ConsentMetadata
  idempotencyKey : IdempotencyKey
  requestHash : RequestHash
  deriving DecidableEq

structure ConsentEventResponse where
  eventId : Nat
  tenantId : Nat
  talentRecordId : Nat
  scope : ConsentScope
  action : ConsentAction
  capturedMethod : CapturedMethod
  capturedByActorId : Option Nat
  consentVersion : String
  occurredAt : Nat
  expiresAt : Option Nat
  recordedAt : Nat
  revokedEventId : Option Nat
  metadata : ConsentMetadata
  deriving DecidableEq

/-- A row of `IdempotencyKey`. -/
structure IdempotencyRow where
  tenantId : Nat
  key : IdempotencyKey
  requestHash : RequestHash
  responseBody : ConsentEventResponse
  deriving DecidableEq

structure ConsentDb where
  events : List ConsentEvent
  idempotencyKeys : List IdempotencyRow
  /-- The next `uuidv7`. -/
  nextId : Nat
  deriving DecidableEq

inductive ConsentError
  | internalError
  | idempotencyKeyConflict
  deriving DecidableEq

variable {db db' : ConsentDb} {input : RecordConsentEventInput}
  {clock tenantId talentRecordId : Nat}

/-- `idempotencyKey.findUnique` on the tenant and the key. -/
def ConsentDb.idempotencyKey? (db : ConsentDb) (tenantId : Nat) (key : IdempotencyKey) :
    Option IdempotencyRow :=
  db.idempotencyKeys.find? fun r => r.tenantId == tenantId && r.key == key

/-- The grant that a revoke names as revoked. -/
def ConsentDb.priorGrant (db : ConsentDb) (input : RecordConsentEventInput) : Option ConsentEvent :=
  latest (·.occurredAt) <| (talentRows db.events input.tenantId input.talentRecordId).filter
    fun e => e.scope == input.scope && e.action == .granted

/-- The row that a recorded input becomes. -/
def consentEventOf (input : RecordConsentEventInput) (id clock : Nat) : ConsentEvent where
  id := id
  tenantId := input.tenantId
  talentRecordId := input.talentRecordId
  scope := input.scope
  action := input.action
  capturedByActorId := input.capturedByActorId
  capturedMethod := input.capturedMethod
  consentVersion := input.consentVersion
  occurredAt := input.occurredAt
  expiresAt := if input.action == .granted then input.expiresAt else none
  metadata := input.metadata
  createdAt := clock

def responseOf (db : ConsentDb) (input : RecordConsentEventInput) (e : ConsentEvent) :
    ConsentEventResponse where
  eventId := e.id
  tenantId := e.tenantId
  talentRecordId := e.talentRecordId
  scope := e.scope
  action := e.action
  capturedMethod := e.capturedMethod
  capturedByActorId := e.capturedByActorId
  consentVersion := e.consentVersion
  occurredAt := e.occurredAt
  expiresAt := e.expiresAt
  recordedAt := e.createdAt
  revokedEventId := if input.action == .revoked then (db.priorGrant input).map (·.id) else none
  metadata := e.metadata

/-- Steps 2 to 7 of `recordConsentEvent`: the row, and the key with the response. -/
def ConsentDb.insertConsentEvent (db : ConsentDb) (clock : Nat) (input : RecordConsentEventInput) :
    ConsentDb × ConsentEventResponse :=
  let event := consentEventOf input db.nextId clock
  let response := responseOf db input event
  ({ events := db.events ++ [event]
     idempotencyKeys := db.idempotencyKeys ++
       [⟨input.tenantId, input.idempotencyKey, input.requestHash, response⟩]
     nextId := db.nextId + 1 }, response)

/-- One transaction. A key that another transaction commits first fails this one
on the unique index, with nothing written. -/
def recordConsentEvent (db : ConsentDb) (clock : Nat) (input : RecordConsentEventInput) :
    Except ConsentError (ConsentDb × ConsentEventResponse) :=
  if input.action == .expired then .error .internalError
  else
    match db.idempotencyKey? input.tenantId input.idempotencyKey with
    | some existing =>
      if existing.requestHash == input.requestHash then .ok (db, existing.responseBody)
      else .error .idempotencyKeyConflict
    | none => .ok (db.insertConsentEvent clock input)

/-- A call that succeeds is a replay, with its key stored, or records the row under a
new key. -/
theorem recordConsentEvent_cases {response : ConsentEventResponse}
    (h : recordConsentEvent db clock input = .ok (db', response)) :
    (∃ existing, db.idempotencyKey? input.tenantId input.idempotencyKey = some existing ∧
      existing.requestHash = input.requestHash ∧ response = existing.responseBody ∧ db' = db) ∨
    (db.idempotencyKey? input.tenantId input.idempotencyKey = none ∧
      input.action ≠ .expired ∧ (db', response) = db.insertConsentEvent clock input) := by
  unfold recordConsentEvent at h
  split at h
  · cases h
  next haction =>
    cases hkey : db.idempotencyKey? input.tenantId input.idempotencyKey with
    | some existing =>
      rw [hkey] at h
      dsimp only at h
      split at h
      next hhash =>
        obtain ⟨rfl, rfl⟩ := Prod.mk.inj (Except.ok.inj h)
        exact .inl ⟨existing, rfl, eq_of_beq hhash, rfl, rfl⟩
      · cases h
    | none =>
      rw [hkey] at h
      exact .inr ⟨rfl, by simpa using haction, (Except.ok.inj h).symm⟩

@[simp] theorem insertConsentEvent_events :
    (db.insertConsentEvent clock input).1.events =
      db.events ++ [consentEventOf input db.nextId clock] := rfl

theorem talentRows_append (events rows : List ConsentEvent) :
    talentRows (events ++ rows) tenantId talentRecordId =
      talentRows events tenantId talentRecordId ++ talentRows rows tenantId talentRecordId :=
  filter_append events rows

theorem talentRows_singleton (e : ConsentEvent) :
    talentRows [e] tenantId talentRecordId =
      if e.tenantId = tenantId ∧ e.talentRecordId = talentRecordId then [e] else [] := by
  simp [talentRows, filter_cons]

theorem idempotencyKey?_append (events : List ConsentEvent) (n : Nat) {row : IdempotencyRow}
    {key : IdempotencyKey} {keys : List IdempotencyRow} :
    (ConsentDb.mk events (keys ++ [row]) n).idempotencyKey? tenantId key =
      ((ConsentDb.mk events keys n).idempotencyKey? tenantId key).or
        (if row.tenantId = tenantId ∧ row.key = key then some row else none) := by
  simp only [ConsentDb.idempotencyKey?, find?_append, find?_cons, find?_nil]
  by_cases h : row.tenantId = tenantId ∧ row.key = key
  · simp [h]
  · have hmiss : (row.tenantId == tenantId && row.key == key) = false := by
      rw [Bool.eq_false_iff]
      simpa using h
    rw [hmiss, if_neg h]

theorem insertConsentEvent_idempotencyKey? (key : IdempotencyKey) :
    (db.insertConsentEvent clock input).1.idempotencyKey? tenantId key =
      (db.idempotencyKey? tenantId key).or
        (if input.tenantId = tenantId ∧ input.idempotencyKey = key then
          some ⟨input.tenantId, input.idempotencyKey, input.requestHash,
            (db.insertConsentEvent clock input).2⟩
        else none) :=
  idempotencyKey?_append (db.insertConsentEvent clock input).1.events (db.nextId + 1)

/-! ## The history -/

structure HistoryCursor where
  createdAt : Nat
  eventId : Nat
  deriving DecidableEq

structure ConsentHistoryEvent where
  eventId : Nat
  scope : ConsentScope
  action : ConsentAction
  createdAt : Nat
  expiresAt : Option Nat
  deriving DecidableEq

structure ConsentHistory where
  events : List ConsentHistoryEvent
  nextCursor : Option HistoryCursor
  deriving DecidableEq

/-- `ORDER BY created_at DESC, id DESC`. -/
def newestFirst (a b : ConsentEvent) : Prop :=
  b.createdAt < a.createdAt ∨ (b.createdAt = a.createdAt ∧ b.id ≤ a.id)

instance : DecidableRel newestFirst := fun a b =>
  inferInstanceAs (Decidable (b.createdAt < a.createdAt ∨
    (b.createdAt = a.createdAt ∧ b.id ≤ a.id)))

/-- The cursor predicate `(created_at, id) < (cursor.created_at, cursor.event_id)`. -/
def HistoryCursor.covers (cursor : HistoryCursor) (e : ConsentEvent) : Bool :=
  decide (e.createdAt < cursor.createdAt) ||
    (e.createdAt == cursor.createdAt && decide (e.id < cursor.eventId))

/-- `resolveHistory` on the rows of a talent. -/
def resolveHistory (rows : List ConsentEvent) (scope : Option ConsentScope) (limit : Nat)
    (cursor : Option HistoryCursor) : ConsentHistory :=
  let found := rows.filter fun e => scope.all (e.scope == ·) && cursor.all (·.covers e)
  let page := (found.insertionSort newestFirst).take (limit + 1)
  let hasMore := decide (limit < page.length)
  let pageRows := if hasMore then page.take limit else page
  { events := pageRows.map fun e => ⟨e.id, e.scope, e.action, e.createdAt, e.expiresAt⟩
    nextCursor := if hasMore then pageRows.getLast?.map fun e => ⟨e.createdAt, e.id⟩ else none }

theorem resolveHistory_one_isEmpty (rows : List ConsentEvent) :
    (resolveHistory rows none 1 none).events.isEmpty = rows.isEmpty := by
  have hfound : rows.filter (fun e => (none : Option ConsentScope).all (e.scope == ·) &&
      (none : Option HistoryCursor).all (·.covers e)) = rows := by
    simp
  cases rows with
  | nil => rfl
  | cons e rest =>
    unfold resolveHistory
    rw [hfound]
    have hsorted : ((e :: rest).insertionSort newestFirst) ≠ [] := by
      rw [← length_pos_iff, length_insertionSort]
      exact Nat.succ_pos _
    dsimp only
    split <;> simpa using hsorted

theorem resolveHistory_length {rows : List ConsentEvent} {limit : Nat} (h : rows.length ≤ limit) :
    (resolveHistory rows none limit none).events.length = rows.length := by
  have hfound : rows.filter (fun e => (none : Option ConsentScope).all (e.scope == ·) &&
      (none : Option HistoryCursor).all (·.covers e)) = rows := by
    simp
  have hpage : ((rows.insertionSort newestFirst).take (limit + 1)).length = rows.length := by
    rw [length_take, length_insertionSort]
    omega
  unfold resolveHistory
  rw [hfound]
  dsimp only
  rw [hpage]
  have hless : decide (limit < rows.length) = false := by simpa using h
  rw [hless, if_neg Bool.false_ne_true, length_map, hpage]

end AramoPlatform.Consent
