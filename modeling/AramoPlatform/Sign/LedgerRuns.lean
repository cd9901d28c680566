import AramoPlatform.Sign.Ledger
import AramoPlatform.Sign.TamperEvidence

/-!
# Concurrent appends

The callers of `appendEvent` as a transition system: any number of open
transactions, each of which reads its predecessor, takes its time stamp and
inserts, any number of times, and then commits or rolls back. The clock of
the stamps never goes backwards; event ids are arbitrary but unique.

The ledger is linear in every run in which a predecessor is only read while
no other transaction has an append under way, and every row that is inserted
stands after all rows in `(occurred_at, id)` order. The invariant
(`LedgerInv`) is that the table is the committed rows followed by those of
one transaction, and that the whole of it is a chain in strictly ascending
order.
-/

namespace AramoPlatform.Sign

open Js Lib List

abbrev Tx := Nat

/-- An `appendEvent` call that has read its predecessor and not inserted yet.
`occurredAt` is set once `new Date()` has been called. -/
structure Flight (π : Type) where
  input : AppendEventInput π
  previousHash : Option JsString
  occurredAt : Option Nat

/-- The `SignatureEvent` rows of the envelope in the order of their inserts,
with the transaction that has not committed them yet, if any. -/
structure LedgerState (π : Type) where
  table : List (Option Tx × EventRow π)
  flights : List (Tx × Flight π)
  clock : Nat

inductive LedgerAction (π : Type) where
  | read (tx : Tx) (input : AppendEventInput π)
  | stamp (tx : Tx) (now : Nat)
  | create (tx : Tx) (id : Uuid)
  | commit (tx : Tx)
  | rollback (tx : Tx)

namespace LedgerState

variable {π : Type}

/-- A ledger before its first event. -/
def empty : LedgerState π := { table := [], flights := [], clock := 0 }

def flightOf (s : LedgerState π) (tx : Tx) : Option (Flight π) :=
  (s.flights.find? (·.1 == tx)).map Prod.snd

/-- READ COMMITTED, and the transaction's own rows. -/
def visible (s : LedgerState π) (tx : Tx) : List (EventRow π) :=
  (s.table.filter fun e => e.1.isNone || e.1 == some tx).map Prod.snd

/-- What a reader outside the open transactions sees. -/
def committed (s : LedgerState π) : List (EventRow π) :=
  (s.table.filter fun e => e.1.isNone).map Prod.snd

end LedgerState

section Machine

variable {π : Type} (sha256 : JsString → JsString) (json : π → JsValue) (envelopeId : JsString)

/-- One step of one caller. A refused step (a row with a used id, a payload
that the jsonb column does not take) is no step. -/
def ledgerStep (s : LedgerState π) : LedgerAction π → Option (LedgerState π)
  | .read tx input =>
      match s.flightOf tx with
      | some _ => none
      | none =>
          some { s with flights :=
            (tx, ⟨input, terminalEventHash (s.visible tx), none⟩) :: s.flights }
  | .stamp tx now =>
      match s.flightOf tx with
      | some ⟨input, previousHash, none⟩ =>
          if s.clock ≤ now then
            some { s with
              clock := now
              flights := (tx, ⟨input, previousHash, some now⟩) ::
                s.flights.filter (·.1 != tx) }
          else none
      | _ => none
  | .create tx id =>
      match s.flightOf tx with
      | some ⟨input, previousHash, some now⟩ =>
          if s.table.all (·.2.id != id) && (json input.payload).val.allKeys isWellFormed then
            some { s with
              table := s.table ++
                [(some tx, newEvent sha256 json envelopeId previousHash input now id)]
              flights := s.flights.filter (·.1 != tx) }
          else none
      | _ => none
  | .commit tx =>
      match s.flightOf tx with
      | some _ => none
      | none =>
          some { s with table := s.table.map fun e => (if e.1 == some tx then none else e.1, e.2) }
  | .rollback tx =>
      some { s with
        table := s.table.filter fun e => e.1 ≠ some tx
        flights := s.flights.filter (·.1 != tx) }

/-- The condition on a step: a predecessor is read while no other transaction
has an append under way or an uncommitted event, and a row is inserted after
every other row in `(occurred_at, id)` order. -/
def InOrder (s : LedgerState π) : LedgerAction π → Prop
  | .read tx _ =>
      (∀ f ∈ s.flights, f.1 = tx) ∧ ∀ e ∈ s.table, e.1 = none ∨ e.1 = some tx
  | .create tx id =>
      ∀ f ∈ s.flightOf tx, ∀ now ∈ f.occurredAt, ∀ e ∈ s.table,
        e.2.occurredAt < now ∨ e.2.occurredAt = now ∧ e.2.id < id
  | _ => True

instance (s : LedgerState π) : (a : LedgerAction π) → Decidable (InOrder s a)
  | .read tx _ => inferInstanceAs (Decidable
      ((∀ f ∈ s.flights, f.1 = tx) ∧ ∀ e ∈ s.table, e.1 = none ∨ e.1 = some tx))
  | .create tx id => inferInstanceAs (Decidable
      (∀ f ∈ s.flightOf tx, ∀ now ∈ f.occurredAt, ∀ e ∈ s.table,
        e.2.occurredAt < now ∨ e.2.occurredAt = now ∧ e.2.id < id))
  | .stamp _ _ | .commit _ | .rollback _ => .isTrue trivial

/-- What a reader of the ledger relies on, the rows given in the order of
their inserts: read back in chain order every event verifies, each event
names the hash of the one appended before it, and the terminal hash is that
of the last one appended. -/
structure LedgerLinear (readBack : JsValue → JsValue) (rows : List (EventRow π)) : Prop where
  verified : ∀ redactions, AllVerified sha256
    ((listEvents rows).map (chainRow json envelopeId readBack)) redactions
  linked : Linked EventRow.previousEventHash EventRow.eventHash none rows
  terminal : terminalEventHash rows = terminal EventRow.eventHash rows

/-- A chain in strictly ascending order whose hashes recompute. -/
structure ChainOk (readBack : JsValue → JsValue) (rows : List (EventRow π)) : Prop where
  ascending : rows.Pairwise chainLt
  linked : Linked EventRow.previousEventHash EventRow.eventHash none rows
  recomputes : ∀ e ∈ rows, Recomputes sha256 (chainRow json envelopeId readBack e)

variable {sha256 json envelopeId} {readBack : JsValue → JsValue}

theorem linked_map_chainRow (prior : Option JsString) (rows : List (EventRow π)) :
    Linked ChainEventRow.previousEventHash ChainEventRow.eventHash prior
      (rows.map (chainRow json envelopeId readBack)) ↔
    Linked EventRow.previousEventHash EventRow.eventHash prior rows := by
  induction rows generalizing prior with
  | nil => rfl
  | cons e rest ih => simp only [map_cons, Linked, ih, chainRow]

namespace ChainOk

theorem nil : ChainOk sha256 json envelopeId readBack [] :=
  ⟨.nil, trivial, by simp⟩

theorem of_append {rows rows' : List (EventRow π)}
    (h : ChainOk sha256 json envelopeId readBack (rows ++ rows')) :
    ChainOk sha256 json envelopeId readBack rows :=
  ⟨(pairwise_append.mp h.ascending).1, Linked.of_append _ _ h.linked,
    fun e he => h.recomputes e (by simp [he])⟩

theorem linear {rows : List (EventRow π)} (h : ChainOk sha256 json envelopeId readBack rows) :
    LedgerLinear sha256 json envelopeId readBack rows := by
  refine ⟨fun redactions => (allVerified_iff sha256).mpr ⟨?_, ?_⟩, h.linked,
    terminalEventHash_of_ascending h.ascending⟩
  · rw [listEvents_of_ascending h.ascending, linked_map_chainRow]
    exact h.linked
  · rw [listEvents_of_ascending h.ascending]
    simpa only [forall_mem_map] using h.recomputes

theorem concat (hback : JsonbRoundTrip readBack) {rows : List (EventRow π)}
    (h : ChainOk sha256 json envelopeId readBack rows) {input : AppendEventInput π}
    (hkeys : (json input.payload).val.allKeys isWellFormed = true) {now : Nat} {id : Uuid}
    (hafter : ∀ e ∈ rows, e.occurredAt < now ∨ e.occurredAt = now ∧ e.id < id) :
    ChainOk sha256 json envelopeId readBack
      (rows ++ [newEvent sha256 json envelopeId (terminal EventRow.eventHash rows)
        input now id]) := by
  refine ⟨?_, ?_, ?_⟩
  · refine pairwise_append.mpr ⟨h.ascending, pairwise_singleton _ _, ?_⟩
    intro a ha b hb
    rw [mem_singleton.mp hb]
    exact hafter a ha
  · exact (linked_concat _ _ _ _).mpr ⟨h.linked, rfl⟩
  · intro e he
    rcases mem_append.mp he with he | he
    · exact h.recomputes e he
    · rw [mem_singleton.mp he]
      exact recomputes_newEvent sha256 json envelopeId hback hkeys _ _ _

end ChainOk

/-! ## The invariant -/

/-- The table is the committed rows and then those of one transaction, only
that transaction may have an append under way, and it chains from the last
row. -/
structure LedgerInv (sha256 : JsString → JsString) (json : π → JsValue) (envelopeId : JsString)
    (readBack : JsValue → JsValue) (s : LedgerState π) (tx : Tx)
    (done own : List (EventRow π)) : Prop where
  table : s.table = done.map (fun e => (none, e)) ++ own.map (fun e => (some tx, e))
  flights : s.flights = [] ∨
    ∃ f, s.flights = [(tx, f)] ∧ f.previousHash = terminal EventRow.eventHash (done ++ own)
  chain : ChainOk sha256 json envelopeId readBack (done ++ own)

def LedgerOk (sha256 : JsString → JsString) (json : π → JsValue) (envelopeId : JsString)
    (readBack : JsValue → JsValue) (s : LedgerState π) : Prop :=
  ∃ tx done own, LedgerInv sha256 json envelopeId readBack s tx done own

namespace LedgerInv

variable {s : LedgerState π} {tx : Tx} {done own : List (EventRow π)}

section

variable (h : LedgerInv sha256 json envelopeId readBack s tx done own)

include h

theorem visible_eq :
    s.visible tx = done ++ own := by
  simp [LedgerState.visible, h.table, filter_append, filter_map, Function.comp_def]

theorem committed_eq :
    s.committed = done := by
  simp [LedgerState.committed, h.table, filter_append, filter_map, Function.comp_def]

theorem flight_inv {tx' : Tx}
    {f : Flight π} (hf : s.flightOf tx' = some f) :
    tx' = tx ∧ s.flights = [(tx, f)] ∧
      f.previousHash = terminal EventRow.eventHash (done ++ own) := by
  rcases h.flights with hnil | ⟨f', hone, hprev⟩
  · simp [LedgerState.flightOf, hnil] at hf
  · by_cases htx : tx = tx'
    · subst htx
      simp only [LedgerState.flightOf, hone, find?_cons, beq_self_eq_true, Option.map_some,
        Option.some.injEq] at hf
      exact ⟨rfl, hf ▸ hone, hf ▸ hprev⟩
    · simp [LedgerState.flightOf, hone, htx] at hf

/-- A transaction that may read can take the place of the one transaction. -/
theorem reown {tx' : Tx}
    (hnone : s.flightOf tx' = none) (hflights : ∀ f ∈ s.flights, f.1 = tx')
    (hrows : ∀ e ∈ s.table, e.1 = none ∨ e.1 = some tx') :
    LedgerInv sha256 json envelopeId readBack s tx' done own ∧ s.flights = [] := by
  have hempty : s.flights = [] := by
    rcases h.flights with hnil | ⟨f, hone, _⟩
    · exact hnil
    · have htx : tx = tx' := hflights (tx, f) (by simp [hone])
      simp [LedgerState.flightOf, hone, htx] at hnone
  refine ⟨⟨?_, .inl hempty, h.chain⟩, hempty⟩
  cases own with
  | nil => simpa using h.table
  | cons e rest =>
    have howner := hrows (some tx, e) (by simp [h.table])
    simp only [reduceCtorEq, Option.some.injEq, false_or] at howner
    exact howner ▸ h.table

/-! ### One action of the one transaction, or of another -/

variable {t : LedgerState π} {tx' : Tx}

theorem read {input : AppendEventInput π}
    (hstep : ledgerStep sha256 json envelopeId s (.read tx' input) = some t)
    (hord : InOrder s (.read tx' input)) :
    LedgerOk sha256 json envelopeId readBack t := by
  simp only [ledgerStep] at hstep
  split at hstep
  · cases hstep
  · rename_i hnone
    cases hstep
    obtain ⟨h', hempty⟩ := h.reown hnone hord.1 hord.2
    refine ⟨tx', done, own, h'.table, .inr ⟨_, by rw [hempty], ?_⟩, h'.chain⟩
    simp only [h'.visible_eq]
    exact terminalEventHash_of_ascending h'.chain.ascending

theorem stamp {now : Nat} (hstep : ledgerStep sha256 json envelopeId s (.stamp tx' now) = some t) :
    LedgerOk sha256 json envelopeId readBack t := by
  simp only [ledgerStep] at hstep
  split at hstep
  · rename_i input previousHash hf
    split at hstep
    · cases hstep
      obtain ⟨rfl, hone, hprev⟩ := h.flight_inv hf
      have hrest : s.flights.filter (·.1 != tx') = [] := by simp [hone]
      exact ⟨tx', done, own, h.table,
        .inr ⟨⟨input, previousHash, some now⟩, by rw [hrest], hprev⟩,
        h.chain⟩
    · cases hstep
  · cases hstep

theorem create (hback : JsonbRoundTrip readBack) {id : Uuid}
    (hstep : ledgerStep sha256 json envelopeId s (.create tx' id) = some t)
    (hord : InOrder s (.create tx' id)) :
    LedgerOk sha256 json envelopeId readBack t := by
  simp only [ledgerStep] at hstep
  split at hstep
  · rename_i input previousHash now hf
    split at hstep
    · rename_i hcond
      cases hstep
      obtain ⟨rfl, hone, hprev⟩ := h.flight_inv hf
      simp only [Bool.and_eq_true] at hcond
      have hafter : ∀ e ∈ done ++ own, e.occurredAt < now ∨ e.occurredAt = now ∧ e.id < id := by
        intro e he
        have hmem : ∃ o, (o, e) ∈ s.table := by
          rcases mem_append.mp he with he | he
          · exact ⟨none, by simp [h.table, he]⟩
          · exact ⟨some tx', by simp [h.table, he]⟩
        obtain ⟨o, ho⟩ := hmem
        exact hord _ hf now rfl (o, e) ho
      simp only at hprev
      subst hprev
      refine ⟨tx', done, own ++ [newEvent sha256 json envelopeId
        (terminal EventRow.eventHash (done ++ own)) input now id], ?_, .inl (by simp [hone]), ?_⟩
      · simp [h.table]
      · rw [← append_assoc]
        exact h.chain.concat hback hcond.2 hafter
    · cases hstep
  · cases hstep

theorem commit (hstep : ledgerStep sha256 json envelopeId s (.commit tx') = some t) :
    LedgerOk sha256 json envelopeId readBack t := by
  simp only [ledgerStep] at hstep
  split at hstep
  · cases hstep
  · rename_i hnone
    cases hstep
    by_cases htx : tx = tx'
    · -- the own rows join the committed ones, and no flight is left
      subst htx
      have hempty : s.flights = [] := by
        rcases h.flights with hnil | ⟨f, hone, _⟩
        · exact hnil
        · simp [LedgerState.flightOf, hone] at hnone
      refine ⟨tx, done ++ own, [], ?_, .inl hempty, by simpa using h.chain⟩
      simp [h.table, Function.comp_def]
    · refine ⟨tx, done, own, ?_, h.flights, h.chain⟩
      simp [h.table, Function.comp_def, htx]

theorem rollback (hstep : ledgerStep sha256 json envelopeId s (.rollback tx') = some t) :
    LedgerOk sha256 json envelopeId readBack t := by
  simp only [ledgerStep] at hstep
  cases hstep
  by_cases htx : tx = tx'
  · subst htx
    refine ⟨tx, done, [], ?_, .inl ?_, by simpa using h.chain.of_append⟩
    · simp [h.table, filter_append, filter_map, Function.comp_def]
    · rcases h.flights with hnil | ⟨f, hone, _⟩ <;> simp [*]
  · refine ⟨tx, done, own, ?_, ?_, h.chain⟩
    · simp [h.table, filter_append, filter_map, Function.comp_def, htx]
    · rcases h.flights with hnil | ⟨f, hone, hprev⟩
      · exact .inl (by simp [hnil])
      · exact .inr ⟨f, by simp [hone, htx], hprev⟩

end

end LedgerInv

/-- **One step in order keeps the invariant.** -/
theorem ledgerOk_step (hback : JsonbRoundTrip readBack) {s t : LedgerState π} {a : LedgerAction π}
    (hs : LedgerOk sha256 json envelopeId readBack s)
    (hstep : ledgerStep sha256 json envelopeId s a = some t) (hord : InOrder s a) :
    LedgerOk sha256 json envelopeId readBack t := by
  obtain ⟨tx, done, own, h⟩ := hs
  cases a with
  | read tx' input => exact h.read hstep hord
  | stamp tx' now => exact h.stamp hstep
  | create tx' id => exact h.create hback hstep hord
  | commit tx' => exact h.commit hstep
  | rollback tx' => exact h.rollback hstep

/-- **Ledger linearity.** In every run whose steps are in order, the committed
ledger is linear in every state reached. -/
theorem ledger_linear_of_inOrder (sha256 : JsString → JsString) (json : π → JsValue)
    (envelopeId : JsString) (readBack : JsValue → JsValue) (hback : JsonbRoundTrip readBack)
    (as : List (LedgerAction π)) (s : LedgerState π)
    (hrun : Run (Guarded (fun s a t => ledgerStep sha256 json envelopeId s a = some t) InOrder)
      LedgerState.empty as s) :
    LedgerLinear sha256 json envelopeId readBack s.committed := by
  have hinit : LedgerOk sha256 json envelopeId readBack (LedgerState.empty : LedgerState π) :=
    ⟨0, [], [], rfl, .inl rfl, .nil⟩
  obtain ⟨tx, done, own, h⟩ :=
    hrun.invariant (I := LedgerOk sha256 json envelopeId readBack)
      (fun s a t hs hst => ledgerOk_step hback hs hst.1 hst.2) hinit
  rw [h.committed_eq]
  exact h.chain.of_append.linear

end Machine

/-! ## Two runs -/

/-- The input of a sent event. -/
def sentInput (payload : JsValue) : AppendEventInput JsValue :=
  { signerId := none, eventType := js "ENVELOPE_SENT", actorType := js "SERVICE",
    actorRef := none, payload := payload }

def sentWithMessage : AppendEventInput JsValue := sentInput messageCore.payload

/-- What the exchange of a link appends, twice in one transaction. -/
def exchangeInput (eventType : String) : AppendEventInput JsValue where
  signerId := none
  eventType := js eventType
  actorType := js "SIGNER"
  actorRef := some (js "signer-1")
  payload := exchangedCore.payload

/-- The digests of three events that follow each other. -/
def openedSha256 : JsString → JsString :=
  digestsAt
    [(eventText none (eventCore id (js "env-1") sentWithMessage 1767603600000), messageHash),
      (eventText (some messageHash) (eventCore id (js "env-1") (exchangeInput "SESSION_EXCHANGED")
        1767603900000), exchangedRow.eventHash),
      (eventText (some exchangedRow.eventHash) (eventCore id (js "env-1")
        (exchangeInput "ENVELOPE_IN_PROGRESS") 1767603900000),
        js "V68M8_kif2NsivfsKTTkeMb1nP-fLc98en-cyTzcLpo")]

/-- The three rows, the last two of one millisecond and with ids in order. -/
def openedRows : List (EventRow JsValue) :=
  [(sentWithMessage, 1767603600000, 7), (exchangeInput "SESSION_EXCHANGED", 1767603900000, 3),
    (exchangeInput "ENVELOPE_IN_PROGRESS", 1767603900000, 4)].foldl
      (fun rows append => appendEvent openedSha256 id (js "env-1") rows append.1 append.2.1
        append.2.2) []

/-- One transaction sends the envelope, and a second one appends twice in one millisecond. -/
theorem ledger_linear_opened : openedRows.length = 3 ∧
    LedgerLinear openedSha256 id (js "env-1") id openedRows := by
  refine ⟨rfl, ledger_linear_of_inOrder openedSha256 id (js "env-1") id
    (fun v _ => SameJson.refl v.wf)
    [.read 1 sentWithMessage, .stamp 1 1767603600000, .create 1 7, .commit 1,
      .read 2 (exchangeInput "SESSION_EXCHANGED"), .stamp 2 1767603900000, .create 2 3,
      .read 2 (exchangeInput "ENVELOPE_IN_PROGRESS"), .stamp 2 1767603900000, .create 2 4,
      .commit 2]
    ⟨openedRows.map fun e => (none, e), [], 1767603900000⟩ ?_⟩
  refine .cons ⟨rfl, by decide⟩ (.cons ⟨rfl, trivial⟩ (.cons ⟨rfl, by decide⟩
    (.cons ⟨rfl, trivial⟩ ?_)))
  refine .cons ⟨rfl, by decide⟩ (.cons ⟨rfl, trivial⟩ (.cons ⟨rfl, by decide⟩ ?_))
  refine .cons ⟨rfl, by decide⟩ (.cons ⟨rfl, trivial⟩ (.cons ⟨rfl, by decide⟩ ?_))
  exact .cons ⟨rfl, trivial⟩ (.nil _)

/-- One transaction appends two events in the same millisecond, and the
second one draws the smaller id. -/
theorem ledger_not_linear_on_tie :
    ¬ ∀ (sha256 : JsString → JsString) (readBack : JsValue → JsValue), JsonbRoundTrip readBack →
        ∀ (as : List (LedgerAction JsValue)) (s : LedgerState JsValue),
          Run (fun s a t => ledgerStep sha256 id (js "env-1") s a = some t)
            LedgerState.empty as s →
          LedgerLinear sha256 id (js "env-1") readBack s.committed := by
  intro hclaim
  let sha256 : JsString → JsString := id
  let input := sentInput ⟨.null, by decide⟩
  let first := newEvent sha256 id (js "env-1") none input 5 7
  let second := newEvent sha256 id (js "env-1") (some first.eventHash) input 5 3
  have hrun : Run (fun s a t => ledgerStep sha256 id (js "env-1") s a = some t)
      LedgerState.empty
      [.read 1 input, .stamp 1 5, .create 1 7, .read 1 input, .stamp 1 5, .create 1 3, .commit 1]
      { table := [(none, first), (none, second)], flights := [], clock := 5 } :=
    .cons rfl (.cons rfl (.cons rfl (.cons rfl (.cons rfl (.cons rfl (.cons rfl (.nil _)))))))
  have hlinear := hclaim sha256 id (fun v _ => SameJson.refl v.wf) _ _ hrun
  -- the second event is read first, and it does not name `null`
  have hlink := ((allVerified_iff sha256).mp (hlinear.verified [])).1
  exact absurd hlink.1 (Option.some_ne_none _)

end AramoPlatform.Sign
