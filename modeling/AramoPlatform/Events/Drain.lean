import AramoPlatform.Events.LeaseSafeOutbox
import AramoPlatform.Lib.Runs
import Mathlib.Data.List.Infix
import Mathlib.Logic.Function.Basic

/-!
# The lease-safe drain

`drainOnce` claims a batch, quarantines what cannot be mapped, publishes the
rest and writes the answer back in three updates. Each of these is a
transaction or a call of its own, so with several workers they interleave and a
worker may stop between any two. `drainOnce` is the whole pass as the service
writes it; `drainNext` takes it one operation at a time.
-/

namespace AramoPlatform.Events

open Js Lib List

/-! ## One pass -/

/-- The configuration; its readers take positive numbers only. -/
structure LeaseSafeOutboxDrainConfig where
  limit : Nat
  leaseSeconds : Nat
  maxAttempts : Nat
  budget : 0 < maxAttempts

structure OutboxDrainOutcome where
  claimed : Nat
  published : Nat
  failed : Nat
  quarantined : Nat
  deriving DecidableEq

structure OutboxPublishResult where
  publishedEventIds : List JsString
  failedEventIds : List JsString
  deriving DecidableEq

/-- A row that maps to an envelope. -/
def mappable (defaults : EnvelopeDefaults) (row : LeasedOutboxRow) : Bool :=
  (buildEventEnvelope row.toCanonicalOutboxRow defaults).isSome

/-- `envelopes`. -/
def envelopesOf (defaults : EnvelopeDefaults) (rows : List LeasedOutboxRow) :
    List AramoEventEnvelope :=
  rows.filterMap fun row => buildEventEnvelope row.toCanonicalOutboxRow defaults

/-- `unmappable`. -/
def unmappableIds (defaults : EnvelopeDefaults) (rows : List LeasedOutboxRow) : List JsString :=
  (rows.filter fun row => !mappable defaults row).map (·.id)

/-- `byId.get`: the last row that was set under the id. -/
def byId (rows : List LeasedOutboxRow) (id : JsString) : Option LeasedOutboxRow :=
  rows.reverse.find? (·.id == id)

section Config

variable (config : LeaseSafeOutboxDrainConfig) (defaults : EnvelopeDefaults)

/-- `row?.publish_attempts ?? max_attempts`. -/
def attemptsOf (rows : List LeasedOutboxRow) (id : JsString) : Nat :=
  ((byId rows id).map (·.publishAttempts)).getD config.maxAttempts

def overBudget (rows : List LeasedOutboxRow) (failedEventIds : List JsString) : List JsString :=
  failedEventIds.filter fun id => config.maxAttempts ≤ attemptsOf config rows id

def retryable (rows : List LeasedOutboxRow) (failedEventIds : List JsString) : List JsString :=
  failedEventIds.filter fun id => attemptsOf config rows id < config.maxAttempts

/-- `drainOnce`, alone on the table: the outcome, unless the publisher throws,
and the table after. An update by no ids is no update, so the length checks
before the updates are left out. -/
def drainOnce (publish : List AramoEventEnvelope → Option OutboxPublishResult) (now : Nat)
    (locked : List JsString) (rows : List OutboxRow) :
    Option OutboxDrainOutcome × List OutboxRow :=
  let (batch, rows) :=
    claimOutboxBatch config.limit config.leaseSeconds config.maxAttempts now locked rows
  if batch.isEmpty then (some ⟨0, 0, 0, 0⟩, rows)
  else
    let (unmapped, rows) :=
      quarantineOutbox (unmappableIds defaults batch) (js "envelope_mapping_failed") now rows
    if (envelopesOf defaults batch).isEmpty then (some ⟨batch.length, 0, 0, unmapped⟩, rows)
    else
      match publish (envelopesOf defaults batch) with
      | none => (none, rows)
      | some result =>
        let (published, rows) := markOutboxPublished result.publishedEventIds now rows
        let (exceeded, rows) := quarantineOutbox (overBudget config batch result.failedEventIds)
          (js "max_publish_attempts_exceeded") now rows
        let (_, rows) := releaseOutboxLease (retryable config batch result.failedEventIds)
          (js "transport_publish_failed") rows
        (some ⟨batch.length, published, result.failedEventIds.length, unmapped + exceeded⟩, rows)

end Config

/-! ## One operation at a time -/

/-- Where a worker is in its pass: which operation comes next. -/
inductive DrainPhase where
  | idle (last : Option OutboxDrainOutcome)
  | claimed (batch : List LeasedOutboxRow)
  | mapped (batch : List LeasedOutboxRow) (unmapped : Nat)
  | answered (batch : List LeasedOutboxRow) (unmapped : Nat) (result : OutboxPublishResult)
  | marked (batch : List LeasedOutboxRow) (unmapped : Nat) (result : OutboxPublishResult)
      (published : Nat)
  | judged (batch : List LeasedOutboxRow) (quarantined : Nat) (result : OutboxPublishResult)
      (published : Nat)

namespace DrainPhase

/-- The rows that the worker holds in memory. -/
def batch : DrainPhase → List LeasedOutboxRow
  | idle _ => []
  | claimed batch | mapped batch _ | answered batch _ _ | marked batch _ _ _
  | judged batch _ _ _ => batch

/-- The answer that is still to be written back. -/
def result : DrainPhase → Option OutboxPublishResult
  | idle _ | claimed _ | mapped _ _ => none
  | answered _ _ result | marked _ _ result _ | judged _ _ result _ => some result

end DrainPhase

/-- A call of the publisher that it answered: the rows of the envelopes, and the
answer. -/
structure PublishCall where
  sent : List LeasedOutboxRow
  result : OutboxPublishResult

structure DrainState where
  rows : List OutboxRow
  now : Nat
  workers : Nat → DrainPhase
  calls : List PublishCall

namespace DrainState

/-- An empty outbox. -/
def start (now : Nat) : DrainState where
  rows := []
  now := now
  workers := fun _ => .idle none
  calls := []

/-- One worker goes on to its next phase. -/
def move (s : DrainState) (w : Nat) (phase : DrainPhase) (rows : List OutboxRow)
    (calls : List PublishCall) : DrainState :=
  { s with
    rows := rows
    workers := Function.update s.workers w phase
    calls := s.calls ++ calls }

variable (s : DrainState)

@[simp] theorem rows_move (w : Nat) (phase : DrainPhase) (rows : List OutboxRow)
    (calls : List PublishCall) : (s.move w phase rows calls).rows = rows := rfl

@[simp] theorem now_move (w : Nat) (phase : DrainPhase) (rows : List OutboxRow)
    (calls : List PublishCall) : (s.move w phase rows calls).now = s.now := rfl

@[simp] theorem workers_move (w : Nat) (phase : DrainPhase)
    (rows : List OutboxRow) (calls : List PublishCall) :
    (s.move w phase rows calls).workers w = phase := by
  simp [move]

theorem workers_move_of_ne {w w' : Nat} (hne : w' ≠ w) (phase : DrainPhase)
    (rows : List OutboxRow) (calls : List PublishCall) :
    (s.move w phase rows calls).workers w' = s.workers w' := by
  simp [move, hne]

@[simp] theorem calls_move (w : Nat) (phase : DrainPhase) (rows : List OutboxRow)
    (calls : List PublishCall) : (s.move w phase rows calls).calls = s.calls ++ calls := rfl

end DrainState

/-- What happens to the outbox. A publisher that throws and a worker that
crashes leave the pass where it is. -/
inductive DrainAction where
  | append (row : CanonicalOutboxRow)
  | tick (ms : Nat)
  | claim (w : Nat) (locked : List JsString)
  | park (w : Nat)
  | publish (w : Nat) (answer : Option OutboxPublishResult)
  | mark (w : Nat)
  | quarantine (w : Nat)
  | release (w : Nat)
  | crash (w : Nat)

section Config

variable (config : LeaseSafeOutboxDrainConfig) (defaults : EnvelopeDefaults)

def drainNext (s : DrainState) : DrainAction → Option DrainState
  | .append row =>
    if s.rows.any (·.id == row.id) then none else some { s with rows := s.rows ++ [.fresh row] }
  | .tick ms => some { s with now := s.now + ms }
  | .claim w locked =>
    match s.workers w with
    | .idle _ =>
      let (batch, rows) := claimOutboxBatch config.limit config.leaseSeconds config.maxAttempts
        s.now locked s.rows
      some (s.move w (if batch.isEmpty then .idle (some ⟨0, 0, 0, 0⟩) else .claimed batch) rows [])
    | _ => none
  | .park w =>
    match s.workers w with
    | .claimed batch =>
      let (unmapped, rows) := quarantineOutbox (unmappableIds defaults batch)
        (js "envelope_mapping_failed") s.now s.rows
      some (s.move w (if (envelopesOf defaults batch).isEmpty then
        .idle (some ⟨batch.length, 0, 0, unmapped⟩) else .mapped batch unmapped) rows [])
    | _ => none
  | .publish w answer =>
    match s.workers w, answer with
    | .mapped _ _, none => some (s.move w (.idle none) s.rows [])
    | .mapped batch unmapped, some result =>
      some (s.move w (.answered batch unmapped result) s.rows
        [⟨batch.filter (mappable defaults), result⟩])
    | _, _ => none
  | .mark w =>
    match s.workers w with
    | .answered batch unmapped result =>
      let (published, rows) := markOutboxPublished result.publishedEventIds s.now s.rows
      some (s.move w (.marked batch unmapped result published) rows [])
    | _ => none
  | .quarantine w =>
    match s.workers w with
    | .marked batch unmapped result published =>
      let (exceeded, rows) := quarantineOutbox (overBudget config batch result.failedEventIds)
        (js "max_publish_attempts_exceeded") s.now s.rows
      some (s.move w (.judged batch (unmapped + exceeded) result published) rows [])
    | _ => none
  | .release w =>
    match s.workers w with
    | .judged batch quarantined result published =>
      let (_, rows) := releaseOutboxLease (retryable config batch result.failedEventIds)
        (js "transport_publish_failed") s.rows
      some (s.move w (.idle (some
        ⟨batch.length, published, result.failedEventIds.length, quarantined⟩)) rows [])
    | _ => none
  | .crash w => some (s.move w (.idle none) s.rows [])

def drainStep (s : DrainState) (a : DrainAction) (t : DrainState) : Prop :=
  drainNext config defaults s a = some t

end Config

/-! ## What one operation does -/

/-- The operations, by the phase that the worker is in. A claim of nothing and a
batch without an envelope end the pass. -/
inductive DrainMove (config : LeaseSafeOutboxDrainConfig) (defaults : EnvelopeDefaults)
    (s : DrainState) : DrainAction → DrainState → Prop
  | append {row : CanonicalOutboxRow} (fresh : ∀ r ∈ s.rows, r.id ≠ row.id) :
      DrainMove config defaults s (.append row) { s with rows := s.rows ++ [.fresh row] }
  | tick {ms : Nat} : DrainMove config defaults s (.tick ms) { s with now := s.now + ms }
  | claim {w : Nat} {locked : List JsString} {last : Option OutboxDrainOutcome}
      {phase : DrainPhase} (idle : s.workers w = .idle last)
      (batch : phase.batch = (claimOutboxBatch config.limit config.leaseSeconds config.maxAttempts
        s.now locked s.rows).1)
      (next : (∃ outcome, phase = .idle outcome) ∨ phase = .claimed phase.batch) :
      DrainMove config defaults s (.claim w locked) (s.move w phase (claimOutboxBatch config.limit
        config.leaseSeconds config.maxAttempts s.now locked s.rows).2 [])
  | park {w : Nat} {batch : List LeasedOutboxRow} {phase : DrainPhase} {reason : JsString}
      (claimed : s.workers w = .claimed batch)
      (next : (∃ outcome, phase = .idle outcome ∧ envelopesOf defaults batch = []) ∨
        ∃ unmapped, phase = .mapped batch unmapped) :
      DrainMove config defaults s (.park w) (s.move w phase
        (quarantineOutbox (unmappableIds defaults batch) reason s.now s.rows).2 [])
  | threw {w : Nat} :
      DrainMove config defaults s (.publish w none) (s.move w (.idle none) s.rows [])
  | publish {w unmapped : Nat} {batch : List LeasedOutboxRow} {result : OutboxPublishResult}
      (mapped : s.workers w = .mapped batch unmapped) :
      DrainMove config defaults s (.publish w (some result)) (s.move w
        (.answered batch unmapped result) s.rows [⟨batch.filter (mappable defaults), result⟩])
  | mark {w unmapped published : Nat} {batch : List LeasedOutboxRow} {result : OutboxPublishResult}
      (answered : s.workers w = .answered batch unmapped result) :
      DrainMove config defaults s (.mark w) (s.move w (.marked batch unmapped result published)
        (markOutboxPublished result.publishedEventIds s.now s.rows).2 [])
  | quarantine {w unmapped published quarantined : Nat} {batch : List LeasedOutboxRow}
      {result : OutboxPublishResult} {reason : JsString}
      (marked : s.workers w = .marked batch unmapped result published) :
      DrainMove config defaults s (.quarantine w) (s.move w
        (.judged batch quarantined result published)
        (quarantineOutbox (overBudget config batch result.failedEventIds) reason s.now s.rows).2 [])
  | release {w quarantined published : Nat} {batch : List LeasedOutboxRow}
      {result : OutboxPublishResult} {lastError : JsString} {last : Option OutboxDrainOutcome}
      (judged : s.workers w = .judged batch quarantined result published) :
      DrainMove config defaults s (.release w) (s.move w (.idle last)
        (releaseOutboxLease (retryable config batch result.failedEventIds) lastError s.rows).2 [])
  | crash {w : Nat} : DrainMove config defaults s (.crash w) (s.move w (.idle none) s.rows [])

theorem drainStep_move {config : LeaseSafeOutboxDrainConfig} {defaults : EnvelopeDefaults}
    {s t : DrainState} {a : DrainAction} (h : drainStep config defaults s a t) :
    DrainMove config defaults s a t := by
  unfold drainStep at h
  cases a with
  | append row =>
    simp only [drainNext] at h
    split at h
    · cases h
    next hnew =>
      cases h
      exact .append (by simpa using hnew)
  | tick ms =>
    cases h
    exact .tick
  | claim w locked =>
    simp only [drainNext] at h
    split at h
    next hidle =>
      cases h
      split
      next hempty => exact .claim hidle (List.isEmpty_iff.mp hempty).symm (.inl ⟨_, rfl⟩)
      · exact .claim hidle rfl (.inr rfl)
    · cases h
  | park w =>
    simp only [drainNext] at h
    split at h
    next hclaimed =>
      cases h
      split
      next hempty => exact .park hclaimed (.inl ⟨_, rfl, List.isEmpty_iff.mp hempty⟩)
      · exact .park hclaimed (.inr ⟨_, rfl⟩)
    · cases h
  | publish w answer =>
    simp only [drainNext] at h
    split at h
    · cases h
      exact .threw
    next hmapped =>
      cases h
      exact .publish hmapped
    · cases h
  | mark w =>
    simp only [drainNext] at h
    split at h
    next hanswered =>
      cases h
      exact .mark hanswered
    · cases h
  | quarantine w =>
    simp only [drainNext] at h
    split at h
    next hmarked =>
      cases h
      exact .quarantine hmarked
    · cases h
  | release w =>
    simp only [drainNext] at h
    split at h
    next hjudged =>
      cases h
      exact .release hjudged
    · cases h
  | crash w =>
    cases h
    exact .crash

/-! ## What the pass knows of its rows -/

section Batch

variable {config : LeaseSafeOutboxDrainConfig} {defaults : EnvelopeDefaults}
  {batch : List LeasedOutboxRow} {b : LeasedOutboxRow} {id : JsString}

theorem of_byId (h : byId batch id = some b) : b ∈ batch ∧ b.id = id := by
  have hmem := mem_of_find?_eq_some h
  have hid := find?_some h
  exact ⟨mem_reverse.mp hmem, by simpa using hid⟩

theorem byId_eq_none : byId batch id = none ↔ ∀ b ∈ batch, b.id ≠ id := by
  simp [byId]

theorem byId_of_mem (hkeys : (batch.map (·.id)).Nodup) (hb : b ∈ batch) :
    byId batch b.id = some b := by
  cases hfind : byId batch b.id with
  | none => exact absurd rfl (byId_eq_none.mp hfind b hb)
  | some b' =>
    obtain ⟨hmem, hid⟩ := of_byId hfind
    rw [inj_on_of_nodup_map hkeys hmem hb hid]

theorem mem_unmappableIds :
    id ∈ unmappableIds defaults batch ↔ ∃ b ∈ batch, mappable defaults b = false ∧ b.id = id := by
  simp [unmappableIds, and_assoc]

theorem envelopesOf_isEmpty :
    (envelopesOf defaults batch).isEmpty = true ↔ ∀ b ∈ batch, mappable defaults b = false := by
  simp [envelopesOf, mappable]

/-- A failed id is over the budget or to be retried, by the attempts of its row;
an id that is not in the batch is over the budget. -/
theorem mem_overBudget {failed : List JsString} :
    id ∈ overBudget config batch failed ↔
      id ∈ failed ∧ ∀ b, byId batch id = some b → config.maxAttempts ≤ b.publishAttempts := by
  rw [overBudget, mem_filter, decide_eq_true_eq, attemptsOf]
  cases byId batch id <;> simp

theorem mem_retryable {failed : List JsString} :
    id ∈ retryable config batch failed ↔
      id ∈ failed ∧ ∃ b, byId batch id = some b ∧ b.publishAttempts < config.maxAttempts := by
  rw [retryable, mem_filter, decide_eq_true_eq, attemptsOf]
  cases byId batch id <;> simp

end Batch

/-! ## A pass that is not interleaved -/

/-- `drainOnce` is the operations of one worker with nothing in between. -/
theorem exec_drainOnce (config : LeaseSafeOutboxDrainConfig) (defaults : EnvelopeDefaults)
    (publish : List AramoEventEnvelope → Option OutboxPublishResult) (locked : List JsString)
    {s : DrainState} {w : Nat} {last : Option OutboxDrainOutcome}
    (hidle : s.workers w = .idle last) :
    ∃ actions, (exec (drainNext config defaults) s actions).map (fun t => (t.workers w, t.rows)) =
      some (Prod.map .idle id (drainOnce config defaults publish s.now locked s.rows)) := by
  cases hclaim : claimOutboxBatch config.limit config.leaseSeconds config.maxAttempts s.now locked
      s.rows with
  | mk batch rows =>
    by_cases hbatch : batch = []
    · refine ⟨[.claim w locked], ?_⟩
      simp [exec, drainNext, drainOnce, hidle, hclaim, hbatch]
    by_cases henvelopes : envelopesOf defaults batch = []
    · refine ⟨[.claim w locked, .park w], ?_⟩
      simp [exec, drainNext, drainOnce, hidle, hclaim, hbatch, henvelopes]
    cases hanswer : publish (envelopesOf defaults batch) with
    | none =>
      refine ⟨[.claim w locked, .park w, .publish w none], ?_⟩
      simp [exec, drainNext, drainOnce, hidle, hclaim, hbatch, henvelopes, hanswer]
    | some result =>
      refine ⟨[.claim w locked, .park w, .publish w (some result), .mark w, .quarantine w,
        .release w], ?_⟩
      simp [exec, drainNext, drainOnce, hidle, hclaim, hbatch, henvelopes, hanswer]

end AramoPlatform.Events
