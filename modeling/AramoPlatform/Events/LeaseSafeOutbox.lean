import AramoPlatform.Js.UtcDate
import AramoPlatform.Js.Value
import AramoPlatform.Lib.Rows

/-!
# The lease-safe outbox

A durable row becomes an envelope, and a publisher works on the rows that it
has claimed. The claim counts the attempt and stamps a lease; the other three
operations end an attempt: published, released or quarantined. All times are
readings of the database clock, in milliseconds.
-/

namespace AramoPlatform.Events

open Js Lib List

/-! ## Envelopes -/

/-- `created_at` is the instant of the column; a `Date` has a smaller range. -/
structure CanonicalOutboxRow where
  id : JsString
  tenantId : JsString
  eventType : JsString
  eventPayload : JsVal
  createdAt : Int
  eventVersion : Option JsString
  source : Option JsString
  subjectType : Option JsString
  subjectId : Option JsString
  correlationId : Option JsString
  causationId : Option JsString

structure AramoEventEnvelope where
  eventId : JsString
  eventType : JsString
  eventVersion : JsString
  tenantId : JsString
  source : JsString
  subjectType : JsString
  subjectId : JsString
  occurredAt : JsString
  correlationId : JsString
  causationId : Option JsString
  payload : JsVal

/-- The derivations are of the producer; one that throws gives `none`. -/
structure EnvelopeDefaults where
  source : JsString
  eventVersion : JsString
  subjectTypeFor : CanonicalOutboxRow → Option JsString
  subjectIdFor : CanonicalOutboxRow → Option JsString
  correlationIdFor : Option (CanonicalOutboxRow → Option (Option JsString))

/-- `row.correlation_id ?? defaults.correlationIdFor?.(row) ?? row.id`. -/
def correlationOf (row : CanonicalOutboxRow) (defaults : EnvelopeDefaults) : Option JsString :=
  match row.correlationId, defaults.correlationIdFor with
  | some correlation, _ => some correlation
  | none, some derive => (derive row).map (·.getD row.id)
  | none, none => some row.id

/-- `buildEventEnvelope`, which throws where a derivation does or the instant is
no valid date. -/
def buildEventEnvelope (row : CanonicalOutboxRow) (defaults : EnvelopeDefaults) :
    Option AramoEventEnvelope := do
  let correlation ← correlationOf row defaults
  let subjectType ← row.subjectType.or (defaults.subjectTypeFor row)
  let subjectId ← row.subjectId.or (defaults.subjectIdFor row)
  let createdAt ← timeClip row.createdAt
  pure
    { eventId := row.id
      eventType := row.eventType
      eventVersion := row.eventVersion.getD defaults.eventVersion
      tenantId := row.tenantId
      source := row.source.getD defaults.source
      subjectType := subjectType
      subjectId := subjectId
      occurredAt := createdAt.toISOString
      correlationId := correlation
      causationId := row.causationId
      payload := row.eventPayload }

/-! ## The table -/

/-- A claimed row, with the attempts as they are after the claim. -/
structure LeasedOutboxRow extends CanonicalOutboxRow where
  publishAttempts : Nat

structure OutboxRow extends LeasedOutboxRow where
  publishedAt : Option Nat
  quarantinedAt : Option Nat
  quarantineReason : Option JsString
  claimedAt : Option Nat
  leaseExpiresAt : Option Nat
  lastPublishError : Option JsString

namespace OutboxRow

/-- The row as its producer inserts it. -/
def fresh (row : CanonicalOutboxRow) : OutboxRow where
  toCanonicalOutboxRow := row
  publishAttempts := 0
  publishedAt := none
  quarantinedAt := none
  quarantineReason := none
  claimedAt := none
  leaseExpiresAt := none
  lastPublishError := none

/-- Neither published nor quarantined. -/
def isOpen (r : OutboxRow) : Bool := r.publishedAt.isNone && r.quarantinedAt.isNone

/-- `lease_expires_at IS NULL OR lease_expires_at < now()`. -/
def leaseFree (now : Nat) (r : OutboxRow) : Bool := r.leaseExpiresAt.all (· < now)

def claimable (maxAttempts now : Nat) (r : OutboxRow) : Bool :=
  r.isOpen && decide (r.publishAttempts < maxAttempts) && r.leaseFree now

/-- What a claim writes. -/
def stamp (leaseSeconds now : Nat) (r : OutboxRow) : OutboxRow :=
  { r with
    claimedAt := some now
    leaseExpiresAt := some (now + leaseSeconds * 1000)
    publishAttempts := r.publishAttempts + 1 }

@[simp] theorem leaseFree_stamp (leaseSeconds now : Nat) (r : OutboxRow) :
    (r.stamp leaseSeconds now).leaseFree now = false := by
  simp [stamp, leaseFree]

theorem isOpen_iff {r : OutboxRow} :
    r.isOpen = true ↔ r.publishedAt = none ∧ r.quarantinedAt = none := by
  simp [isOpen]

theorem claimable_iff {maxAttempts now : Nat} {r : OutboxRow} :
    r.claimable maxAttempts now = true ↔
      r.isOpen = true ∧ r.publishAttempts < maxAttempts ∧ r.leaseFree now = true := by
  simp [claimable, and_assoc]

end OutboxRow

/-! ## The operations -/

/-- `updateMany`: the number of the rows that match, and the table after. -/
def updateMany (p : OutboxRow → Bool) (f : OutboxRow → OutboxRow) (rows : List OutboxRow) :
    Nat × List OutboxRow :=
  (rows.countP p, updateWhere p f rows)

/-- The rows that a claim takes: claimable, not locked by a concurrent claim,
the oldest first, at most `limit`. -/
def claimCandidates (limit maxAttempts now : Nat) (locked : List JsString)
    (rows : List OutboxRow) : List OutboxRow :=
  ((rows.filter fun r => r.claimable maxAttempts now && !locked.contains r.id).insertionSort
    (·.createdAt ≤ ·.createdAt)).take limit

/-- `claimOutboxBatch`: the claimed rows, and the table after. -/
def claimOutboxBatch (limit leaseSeconds maxAttempts now : Nat) (locked : List JsString)
    (rows : List OutboxRow) : List LeasedOutboxRow × List OutboxRow :=
  let taken := claimCandidates limit maxAttempts now locked rows
  (taken.map fun r => (r.stamp leaseSeconds now).toLeasedOutboxRow,
    updateWhere (fun r => (taken.map (·.id)).contains r.id) (·.stamp leaseSeconds now) rows)

def markOutboxPublished (eventIds : List JsString) (now : Nat) :
    List OutboxRow → Nat × List OutboxRow :=
  updateMany (fun r => eventIds.contains r.id && r.publishedAt.isNone)
    fun r => { r with publishedAt := some now }

def releaseOutboxLease (eventIds : List JsString) (lastError : JsString) :
    List OutboxRow → Nat × List OutboxRow :=
  updateMany (fun r => eventIds.contains r.id && r.isOpen)
    fun r =>
      { r with
        claimedAt := none, leaseExpiresAt := none, lastPublishError := some lastError }

def quarantineOutbox (eventIds : List JsString) (reason : JsString) (now : Nat) :
    List OutboxRow → Nat × List OutboxRow :=
  updateMany (fun r => eventIds.contains r.id && r.publishedAt.isNone)
    fun r => { r with quarantinedAt := some now, quarantineReason := some reason }

/-! ## What a claim takes -/

section Claim

variable {limit leaseSeconds maxAttempts now : Nat} {locked : List JsString}
  {rows : List OutboxRow} {r : OutboxRow}

theorem of_mem_claimCandidates (h : r ∈ claimCandidates limit maxAttempts now locked rows) :
    r ∈ rows ∧ r.claimable maxAttempts now = true := by
  have hsorted := mem_of_mem_take h
  rw [mem_insertionSort, mem_filter, Bool.and_eq_true] at hsorted
  exact ⟨hsorted.1, hsorted.2.1⟩

theorem claimCandidates_keys (h : (rows.map (·.id)).Nodup) :
    ((claimCandidates limit maxAttempts now locked rows).map (·.id)).Nodup := by
  have hfilter : ((rows.filter fun r => r.claimable maxAttempts now && !locked.contains r.id).map
      (·.id)).Nodup := h.sublist (filter_sublist.map _)
  have hsorted := ((perm_insertionSort (fun a b : OutboxRow =>
    a.createdAt ≤ b.createdAt) _).map
    (·.id)).nodup_iff.mpr hfilter
  exact hsorted.sublist ((take_sublist _ _).map _)

theorem mem_claimCandidates_of_id (h : (rows.map (·.id)).Nodup) (hr : r ∈ rows)
    (hid : ((claimCandidates limit maxAttempts now locked rows).map (·.id)).contains r.id = true) :
    r ∈ claimCandidates limit maxAttempts now locked rows := by
  rw [contains_iff_mem, mem_map] at hid
  obtain ⟨r', hr', heq⟩ := hid
  exact inj_on_of_nodup_map h (of_mem_claimCandidates hr').1 hr heq ▸ hr'

end Claim

end AramoPlatform.Events
