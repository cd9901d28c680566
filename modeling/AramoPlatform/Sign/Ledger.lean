import AramoPlatform.Js.Date
import AramoPlatform.Lib.Runs
import AramoPlatform.Sign.HashChain

/-!
# The event ledger of an envelope

`EsignRepository.appendEvent`, `listEvents` and `terminalEventHash` over the
`SignatureEvent` rows of one envelope. The payload type is left open, with
its JSON given by `json`: the ledger never looks into it except to hash it.

`appendEvent` is three separate moments: the predecessor is read, the clock
is read and the hash computed, and the row is inserted. `ledgerStep` gives
each its own step, with any number of transactions open at once, at READ
COMMITTED: a read sees the committed rows and those of its own transaction.
-/

namespace AramoPlatform.Sign

open Js Lib

/-- A row of `SignatureEvent`, in one envelope. -/
structure EventRow (π : Type) where
  id : Uuid
  signerId : Option Uuid
  eventType : JsString
  actorType : JsString
  actorRef : Option JsString
  payload : π
  previousEventHash : Option JsString
  eventHash : JsString
  occurredAt : Nat
  ipAddress : Option JsString := none
  userAgent : Option JsString := none

structure AppendEventInput (π : Type) where
  signerId : Option Uuid
  eventType : JsString
  actorType : JsString
  actorRef : Option JsString
  payload : π
  ipAddress : Option JsString := none
  userAgent : Option JsString := none

section Ledger

variable {π : Type}

/-! ## Reading in chain order -/

/-- `orderBy: [{ occurred_at: 'asc' }, { id: 'asc' }]`. -/
def chainLe (a b : EventRow π) : Prop :=
  a.occurredAt < b.occurredAt ∨ a.occurredAt = b.occurredAt ∧ a.id ≤ b.id

/-- `a` stands strictly before `b` in that order. -/
def chainLt (a b : EventRow π) : Prop :=
  a.occurredAt < b.occurredAt ∨ a.occurredAt = b.occurredAt ∧ a.id < b.id

instance : DecidableRel (@chainLe π) := fun a b =>
  inferInstanceAs (Decidable (a.occurredAt < b.occurredAt ∨ a.occurredAt = b.occurredAt ∧ _))

instance : Std.Total (@chainLe π) := ⟨fun a b => by unfold chainLe; grind⟩

instance : IsTrans (EventRow π) chainLe := ⟨fun a b c h h' => by unfold chainLe at *; grind⟩

def listEvents (rows : List (EventRow π)) : List (EventRow π) := rows.insertionSort chainLe

/-- `findFirst` with both columns descending. -/
def lastEvent (rows : List (EventRow π)) : Option (EventRow π) :=
  (rows.insertionSort fun a b => chainLe b a).head?

def terminalEventHash (rows : List (EventRow π)) : Option JsString :=
  (lastEvent rows).map EventRow.eventHash

variable {rows : List (EventRow π)}

section

variable (h : rows.Pairwise chainLt)

include h

theorem chainLe_of_chainLt :
    rows.Pairwise chainLe :=
  h.imp fun hab => by unfold chainLt at hab; unfold chainLe; grind

theorem listEvents_of_ascending :
    listEvents rows = rows :=
  (chainLe_of_chainLt h).insertionSort_eq

theorem lastEvent_of_ascending :
    lastEvent rows = rows.getLast? := by
  have hnd : (rows.map fun e => (e.occurredAt, e.id)).Nodup := by
    refine List.pairwise_map.mpr (h.imp fun hab heq => ?_)
    simp only [Prod.mk.injEq] at heq
    unfold chainLt at hab
    grind
  have hanti : ∀ a ∈ rows, ∀ b ∈ rows, chainLe a b → chainLe b a → a = b := by
    intro a ha b hb hab hba
    refine List.inj_on_of_nodup_map hnd ha hb ?_
    unfold chainLe at hab hba
    grind
  rw [lastEvent, insertionSort_flip_of_pairwise (chainLe_of_chainLt h) hanti, List.head?_reverse]

theorem terminalEventHash_of_ascending :
    terminalEventHash rows = terminal EventRow.eventHash rows := by
  rw [terminalEventHash, lastEvent_of_ascending h, terminal]

end

/-! ## Appending -/

variable (sha256 : JsString → JsString) (json : π → JsValue) (envelopeId : JsString)

/-- The hashed core of an input at a time. -/
def eventCore (input : AppendEventInput π) (now : Nat) : EventHashInput :=
  { envelopeId := envelopeId, eventType := input.eventType, actorType := input.actorType,
    actorRef := input.actorRef, payload := json input.payload, occurredAt := toISOString now }

/-- The row `appendEvent` inserts, from the predecessor it read. -/
def newEvent (previousHash : Option JsString) (input : AppendEventInput π) (now : Nat)
    (id : Uuid) : EventRow π :=
  { id := id, signerId := input.signerId, eventType := input.eventType,
    actorType := input.actorType, actorRef := input.actorRef, payload := input.payload,
    previousEventHash := previousHash,
    eventHash := computeEventHash sha256 previousHash (eventCore json envelopeId input now),
    occurredAt := now, ipAddress := input.ipAddress, userAgent := input.userAgent }

/-- `appendEvent` with nothing in between. -/
def appendEvent (rows : List (EventRow π)) (input : AppendEventInput π) (now : Nat) (id : Uuid) :
    List (EventRow π) :=
  rows ++ [newEvent sha256 json envelopeId (terminalEventHash rows) input now id]

/-- What `verifyEventChain` is given for a row: the payload is the one the
jsonb column gives back. -/
def chainRow (readBack : JsValue → JsValue) (row : EventRow π) : ChainEventRow :=
  { id := row.id, envelopeId := envelopeId, eventType := row.eventType,
    actorType := row.actorType, actorRef := row.actorRef, payload := readBack (json row.payload),
    occurredAt := toISOString row.occurredAt, previousEventHash := row.previousEventHash,
    eventHash := row.eventHash }

/-- A jsonb column stores any value whose member names are Unicode text, and
gives back the same JSON value. -/
def JsonbRoundTrip (readBack : JsValue → JsValue) : Prop :=
  ∀ v : JsValue, v.val.allKeys isWellFormed = true → SameJson v.val (readBack v).val

theorem recomputes_newEvent {readBack : JsValue → JsValue} (hback : JsonbRoundTrip readBack)
    {input : AppendEventInput π} (hkeys : (json input.payload).val.allKeys isWellFormed = true)
    (previousHash : Option JsString) (now : Nat) (id : Uuid) :
    Recomputes sha256 (chainRow json envelopeId readBack
      (newEvent sha256 json envelopeId previousHash input now id)) := by
  simp only [Recomputes, computeEventHash, chainRow, newEvent]
  congr 1
  refine eventText_congr rfl rfl rfl rfl ?_ rfl
  simp only [canonicalJson_orNull, eventCore]
  exact (canonicalJson_congr (hback _ hkeys) (json input.payload).wf (readBack _).wf hkeys).symm

end Ledger

end AramoPlatform.Sign
