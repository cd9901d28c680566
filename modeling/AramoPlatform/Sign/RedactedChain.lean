import AramoPlatform.Sign.Purge

/-!
# A redacted chain still verifies

Redaction rewrites the payload that a hash covers and leaves the hashes as they
were. The record it writes, from the row before the rewrite, is what the
verifier goes by from then on: an event that recomputed is attested, one that
did not was linked only and stays so, and no event breaks. What has been
redacted is not redacted again.
-/

namespace AramoPlatform.Sign

open Js Lib List

/-! ## What the verifier reports -/

section Verifier

variable (sha256 : JsString → JsString) {redactions : List ChainRedactionRow}

variable {events : List ChainEventRow} {prior : Option JsString} {out : ChainVerification}

theorem verifyRows_broken_iff :
    (verifyRows sha256 redactions out prior events).broken = [] ↔
      out.broken = [] ∧
        Linked ChainEventRow.previousEventHash ChainEventRow.eventHash prior events ∧
        ∀ ev ∈ events, rowStatus sha256 redactions ev ≠ .broken := by
  induction events generalizing out prior with
  | nil => simp [verifyRows, Linked]
  | cons ev rest ih =>
    have hrow : (verifyRow sha256 redactions out prior ev).broken = [] ↔
        out.broken = [] ∧ ev.previousEventHash = prior ∧
          rowStatus sha256 redactions ev ≠ .broken := by
      by_cases hlink : ev.previousEventHash = prior
      · cases hstatus : rowStatus sha256 redactions ev <;> simp [verifyRow, hlink, hstatus]
      · cases hstatus : rowStatus sha256 redactions ev <;> simp [verifyRow, hlink, hstatus]
    rw [verifyRows, ih, hrow, Linked, forall_mem_cons]
    tauto

/-- The statuses of the report, in the order of the events. -/
def reported (redactions : List ChainRedactionRow) :
    Option JsString → List ChainEventRow → List (Uuid × ChainEventStatus)
  | _, [] => []
  | prior, ev :: rest =>
      (ev.id, if ev.previousEventHash == prior then rowStatus sha256 redactions ev else .broken) ::
        reported redactions (some ev.eventHash) rest

theorem verifyRows_reported :
    (verifyRows sha256 redactions out prior events).statuses =
      out.statuses ++ reported sha256 redactions prior events := by
  induction events generalizing out prior with
  | nil => simp [verifyRows, reported]
  | cons ev rest ih =>
    have hrow : (verifyRow sha256 redactions out prior ev).statuses = out.statuses ++
        [(ev.id, if ev.previousEventHash == prior then rowStatus sha256 redactions ev
          else .broken)] := by
      unfold verifyRow
      dsimp only
      split <;> split <;> simp_all
    rw [verifyRows, ih, hrow, reported, append_assoc, singleton_append]

theorem reported_of_linked
    (hlinked : Linked ChainEventRow.previousEventHash ChainEventRow.eventHash prior events) :
    reported sha256 redactions prior events =
      events.map fun ev => (ev.id, rowStatus sha256 redactions ev) := by
  induction events generalizing prior with
  | nil => rfl
  | cons ev rest ih =>
    obtain ⟨hlink, hrest⟩ := hlinked
    simp [reported, hlink, ih hrest]

theorem verifyEventChain_ok_iff :
    (verifyEventChain sha256 events redactions).ok = true ↔
      Linked ChainEventRow.previousEventHash ChainEventRow.eventHash none events ∧
        ∀ ev ∈ events, rowStatus sha256 redactions ev ≠ .broken := by
  have hbroken : (verifyRows sha256 redactions .start none events).broken = [] ↔ _ :=
    verifyRows_broken_iff sha256
  simp only [ChainVerification.start, true_and] at hbroken
  rw [verifyEventChain]
  simp only [List.isEmpty_iff]
  exact hbroken

theorem verifyEventChain_statuses
    (hlinked : Linked ChainEventRow.previousEventHash ChainEventRow.eventHash none events) :
    (verifyEventChain sha256 events redactions).statuses =
      events.map fun ev => (ev.id, rowStatus sha256 redactions ev) := by
  have hstatuses : (verifyEventChain sha256 events redactions).statuses =
      reported sha256 redactions none events :=
    verifyRows_reported sha256
  rw [hstatuses, reported_of_linked sha256 hlinked]

/-! ## Whether the counters are those of the report -/

/-- An event that does not recompute, and whose redaction record is of another hash. -/
def BadlyRecorded (redactions : List ChainRedactionRow) (ev : ChainEventRow) : Prop :=
  ¬ Recomputes sha256 ev ∧
    ∃ r, redactionOf redactions ev.id = some r ∧ r.originalEventHash ≠ ev.eventHash

theorem rowStatus_eq_broken {ev : ChainEventRow} :
    rowStatus sha256 redactions ev = .broken ↔ BadlyRecorded sha256 redactions ev := by
  unfold rowStatus BadlyRecorded Recomputes
  by_cases hrec : computeEventHash sha256 ev.previousEventHash ev.toEventHashInput = ev.eventHash
  · simp [hrec]
  · cases hrow : redactionOf redactions ev.id with
    | none => simp [hrec]
    | some r =>
      by_cases hhash : r.originalEventHash = ev.eventHash
      · cases hverified : r.verifiedBeforeRedaction <;> simp [hrec, hhash, hverified]
      · simp [hrec, hhash]

/-- The counter of a status; what is broken is listed. -/
def ChainVerification.counter (out : ChainVerification) : ChainEventStatus → Nat
  | .verified => out.verified
  | .redactedAttested => out.redactedAttested
  | .redactedLinkOnly => out.redactedLinkOnly
  | .linkOnly => out.linkOnly
  | .broken => out.broken.length

/-- Each event that does not follow the one before it has the property. -/
def LinkedUnless (p : ChainEventRow → Prop) : Option JsString → List ChainEventRow → Prop
  | _, [] => True
  | prior, ev :: rest =>
      (ev.previousEventHash = prior ∨ p ev) ∧ LinkedUnless p (some ev.eventHash) rest

theorem LinkedUnless.forall_iff {ι : Type} {q : ι → Prop} {p : ι → ChainEventRow → Prop} :
    (∀ i, q i → LinkedUnless (p i) prior events) ↔
      LinkedUnless (fun ev => ∀ i, q i → p i ev) prior events := by
  induction events generalizing prior with
  | nil => simp [LinkedUnless]
  | cons ev rest ih =>
    simp only [LinkedUnless, ← ih]
    by_cases hlink : ev.previousEventHash = prior
    · simp [hlink]
    · simp only [hlink, false_or]
      exact ⟨fun h => ⟨fun i hi => (h i hi).1, fun i hi => (h i hi).2⟩,
        fun h i hi => ⟨h.1 i hi, h.2 i hi⟩⟩

theorem verifyRows_counter {status : ChainEventStatus} (hstatus : status ≠ .broken) :
    (verifyRows sha256 redactions out prior events).counter status =
      out.counter status + events.countP (rowStatus sha256 redactions · == status) := by
  induction events generalizing out prior with
  | nil => simp [verifyRows]
  | cons ev rest ih =>
    have hrow : (verifyRow sha256 redactions out prior ev).counter status = out.counter status +
        if rowStatus sha256 redactions ev == status then 1 else 0 := by
      by_cases hlink : ev.previousEventHash = prior <;>
        cases hown : rowStatus sha256 redactions ev <;> cases status <;>
          simp_all [verifyRow, ChainVerification.counter]
    rw [verifyRows, ih, hrow, countP_cons]
    omega

/-- No status is reported more often than it is counted, and as often only where
no event with it is unlinked. -/
theorem countP_reported {status : ChainEventStatus} (hstatus : status ≠ .broken) :
    (reported sha256 redactions prior events).countP (·.2 == status) ≤
        events.countP (rowStatus sha256 redactions · == status) ∧
      (events.countP (rowStatus sha256 redactions · == status) =
          (reported sha256 redactions prior events).countP (·.2 == status) ↔
        LinkedUnless (rowStatus sha256 redactions · ≠ status) prior events) := by
  induction events generalizing prior with
  | nil => simp [reported, LinkedUnless]
  | cons ev rest ih =>
    have hrest := @ih (some ev.eventHash)
    obtain ⟨hle, hiff⟩ := hrest
    rw [reported, countP_cons, countP_cons, LinkedUnless, ← hiff]
    by_cases hlink : ev.previousEventHash = prior
    · simp only [hlink, beq_self_eq_true, if_true, true_or, true_and]
      exact ⟨by omega, by omega⟩
    · have hbroken : (ChainEventStatus.broken == status) = false :=
        beq_eq_false_iff_ne.mpr hstatus.symm
      by_cases hown : rowStatus sha256 redactions ev = status
      · simp [hlink, hbroken, hown]
        omega
      · simp [hlink, hbroken, hown]
        omega

theorem map_fst_reported (prior : Option JsString) :
    (reported sha256 redactions prior events).map Prod.fst = events.map (·.id) := by
  induction events generalizing prior with
  | nil => rfl
  | cons ev rest ih => exact congrArg (ev.id :: ·) (ih _)

theorem reported_broken :
    (∀ p ∈ reported sha256 redactions prior events, p.2 ≠ .broken) ↔
      Linked ChainEventRow.previousEventHash ChainEventRow.eventHash prior events ∧
        ∀ ev ∈ events, rowStatus sha256 redactions ev ≠ .broken := by
  induction events generalizing prior with
  | nil => simp [reported, Linked]
  | cons ev rest ih =>
    rw [reported, forall_mem_cons, ih, Linked, forall_mem_cons]
    by_cases hlink : ev.previousEventHash = prior
    · simp [hlink]
      tauto
    · simp [hlink]

/-- The report is one status an event, in order, and its counters are those of its statuses. -/
structure ReportConsistent (events : List ChainEventRow) (out : ChainVerification) : Prop where
  order : out.statuses.map Prod.fst = events.map (·.id)
  counters : ∀ status, status ≠ .broken →
    out.counter status = out.statuses.countP (·.2 == status)
  total : out.statuses.countP (·.2 != .broken) + out.statuses.countP (·.2 == .broken) =
    events.length
  ok : out.ok = true ↔ ∀ p ∈ out.statuses, p.2 ≠ .broken

/-- **The counters are those of the report exactly where an unlinked event is
broken by its redaction record too**: an event that only its link breaks is
counted by its own status, and reported as broken. -/
theorem verifyEventChain_consistent_iff (events : List ChainEventRow)
    (redactions : List ChainRedactionRow) :
    ReportConsistent events (verifyEventChain sha256 events redactions) ↔
      LinkedUnless (BadlyRecorded sha256 redactions) none events := by
  have hstatuses : (verifyEventChain sha256 events redactions).statuses =
      reported sha256 redactions none events :=
    verifyRows_reported sha256
  have hids : (reported sha256 redactions none events).map Prod.fst = events.map (·.id) :=
    map_fst_reported sha256 none
  have hcounter (status : ChainEventStatus) (hne : status ≠ .broken) :
      (verifyEventChain sha256 events redactions).counter status =
        events.countP (rowStatus sha256 redactions · == status) := by
    have hrows : (verifyRows sha256 redactions .start none events).counter status = _ :=
      verifyRows_counter sha256 hne
    have hcounter : (verifyEventChain sha256 events redactions).counter status =
        (verifyRows sha256 redactions .start none events).counter status := by
      cases status <;> rfl
    rw [hcounter, hrows]
    cases status <;> exact Nat.zero_add _
  have hcond : LinkedUnless (BadlyRecorded sha256 redactions) none events ↔
      ∀ status, status ≠ .broken →
        LinkedUnless (rowStatus sha256 redactions · ≠ status) none events := by
    rw [LinkedUnless.forall_iff]
    have hbad (ev : ChainEventRow) : BadlyRecorded sha256 redactions ev ↔
        ∀ status, status ≠ .broken → rowStatus sha256 redactions ev ≠ status := by
      rw [← rowStatus_eq_broken]
      constructor
      · intro h status hne heq
        exact hne (heq.symm.trans h)
      · intro h
        by_contra hne
        exact h _ hne rfl
    rw [show BadlyRecorded sha256 redactions = _ from funext fun ev => propext (hbad ev)]
  rw [hcond]
  constructor
  · intro h status hne
    have hcount := h.counters status hne
    rw [hcounter status hne, hstatuses] at hcount
    exact (countP_reported sha256 hne).2.mp hcount
  · intro h
    refine ⟨hstatuses ▸ hids, fun status hne => ?_, ?_, ?_⟩
    · rw [hcounter status hne, hstatuses]
      exact (countP_reported sha256 hne).2.mpr (h status hne)
    · have hlength := congrArg List.length hids
      rw [length_map, length_map] at hlength
      rw [hstatuses, ← hlength, length_eq_countP_add_countP (·.2 != .broken)]
      simp [Bool.beq_eq_decide_eq]
    · rw [verifyEventChain_ok_iff, hstatuses, reported_broken]

def strayCore : EventHashInput where
  envelopeId := js "env-1"
  eventType := js "ENVELOPE_SENT"
  actorType := js "SYSTEM"
  actorRef := none
  payload := storedJson none
  occurredAt := js "2026-01-05T09:00:00.000Z"

/-- Two events that recompute, the second after one that is not there. -/
def strayEvents : List ChainEventRow :=
  [(1, none), (2, some (js "lost"))].map fun (eventId, prior) =>
    { strayCore with
      id := eventId, previousEventHash := prior, eventHash := computeEventHash id prior strayCore }

theorem stray_event_counted :
    ¬ ReportConsistent strayEvents (verifyEventChain id strayEvents []) := by
  intro h
  have hverified := h.counters .verified (by decide)
  revert hverified
  decide +kernel

/-- A record made from the row tells its status, once it no longer recomputes. -/
theorem rowStatus_of_record {row : ChainEventRow} {record : ChainRedactionRow}
    (hno : ¬ Recomputes sha256 row) (hrecord : redactionOf redactions row.id = some record)
    (hhash : record.originalEventHash = row.eventHash) :
    rowStatus sha256 redactions row =
      if record.verifiedBeforeRedaction then .redactedAttested else .redactedLinkOnly := by
  unfold Recomputes at hno
  unfold rowStatus
  rw [if_neg hno, hrecord]
  simp [hhash]

end Verifier

/-! ## What a redaction does to a row -/

section Redacted

variable {π : Type} (sha256 : JsString → JsString) (json : π → JsValue)
  (replace : List JsString → π → π) (envelopeId : JsString)

/-- The rows the verifier is given, in chain order. -/
def chainRows (events : List (EventRow π)) : List ChainEventRow :=
  (listEvents events).map (chainRow json envelopeId id)

def chainRedactions (redactions : List EventRedactionRow) : List ChainRedactionRow :=
  redactions.map (·.toChainRedactionRow)

/-- The row of an event after the ledger has been redacted. -/
def redacted (redactions : List EventRedactionRow) (ev : EventRow π) : EventRow π :=
  if toRedact json redactions ev then redactEvent json replace ev else ev

variable {sha256 json replace envelopeId} {events : List (EventRow π)}
  {redactions : List EventRedactionRow} {now : Nat} {ev : EventRow π}

theorem redacted_columns (ev : EventRow π) :
    (redacted json replace redactions ev).id = ev.id ∧
      (redacted json replace redactions ev).previousEventHash = ev.previousEventHash ∧
      (redacted json replace redactions ev).eventHash = ev.eventHash ∧
      (redacted json replace redactions ev).occurredAt = ev.occurredAt := by
  unfold redacted
  split <;> exact ⟨rfl, rfl, rfl, rfl⟩

theorem listEvents_redactLedger :
    listEvents (redactLedger sha256 json replace envelopeId events redactions now).1 =
      (listEvents events).map (redacted json replace redactions) := by
  have hstep : (redactLedger sha256 json replace envelopeId events redactions now).1 =
      events.map (redacted json replace redactions) := rfl
  rw [hstep]
  refine (map_insertionSort chainLe chainLe _ _ fun a _ b _ => ?_).symm
  have hsame : ∀ ev, (redacted json replace redactions ev).id = ev.id ∧
      (redacted json replace redactions ev).occurredAt = ev.occurredAt :=
    fun ev => ⟨(redacted_columns ev).1, (redacted_columns ev).2.2.2⟩
  unfold chainLe
  rw [(hsame a).1, (hsame a).2, (hsame b).1, (hsame b).2]

theorem linked_redactLedger :
    Linked ChainEventRow.previousEventHash ChainEventRow.eventHash none
        (chainRows json envelopeId
          (redactLedger sha256 json replace envelopeId events redactions now).1) ↔
      Linked ChainEventRow.previousEventHash ChainEventRow.eventHash none
        (chainRows json envelopeId events) := by
  refine linked_congr _ _ ?_
  rw [chainRows, chainRows, listEvents_redactLedger]
  simp only [map_map]
  refine map_congr_left fun ev _ => ?_
  have hhashes : (redacted json replace redactions ev).previousEventHash = ev.previousEventHash ∧
      (redacted json replace redactions ev).eventHash = ev.eventHash :=
    ⟨(redacted_columns ev).2.1, (redacted_columns ev).2.2.1⟩
  simp [chainRow, hhashes]

/-! ## The records -/

/-- The records a redaction writes. -/
def newRecords (sha256 : JsString → JsString) (json : π → JsValue) (envelopeId : JsString)
    (events : List (EventRow π)) (redactions : List EventRedactionRow) (now : Nat) :
    List ChainRedactionRow :=
  chainRedactions (((listEvents events).filter (toRedact json redactions)).map
    (redactionRow sha256 json envelopeId now))

theorem chainRedactions_redactLedger :
    chainRedactions (redactLedger sha256 json replace envelopeId events redactions now).2.1 =
      chainRedactions redactions ++ newRecords sha256 json envelopeId events redactions now :=
  map_append

/-- Event ids are different, so a record of an event is made from its row. -/
theorem record_of_mem (hids : (events.map (·.id)).Nodup) (hmem : ev ∈ events)
    {record : ChainRedactionRow}
    (hrecord : record ∈ newRecords sha256 json envelopeId events redactions now)
    (hid : record.eventId = ev.id) :
    toRedact json redactions ev = true ∧
      record = (redactionRow sha256 json envelopeId now ev).toChainRedactionRow := by
  obtain ⟨row, hrow, rfl⟩ := mem_map.mp hrecord
  obtain ⟨ev', hev', rfl⟩ := mem_map.mp hrow
  obtain ⟨hlisted, hredact⟩ := mem_filter.mp hev'
  have hmem' : ev' ∈ events := (mem_insertionSort chainLe).mp hlisted
  obtain rfl := inj_on_of_nodup_map hids hmem' hmem hid
  exact ⟨hredact, rfl⟩

theorem redactionOf_append {old new : List ChainRedactionRow} {id : Uuid} :
    redactionOf (old ++ new) id = (redactionOf new id).or (redactionOf old id) := by
  unfold redactionOf
  rw [reverse_append, find?_append]

theorem redactionOf_of_toRedact (hids : (events.map (·.id)).Nodup) (hmem : ev ∈ events)
    (hredact : toRedact json redactions ev = true) :
    redactionOf (chainRedactions
        (redactLedger sha256 json replace envelopeId events redactions now).2.1) ev.id =
      some (redactionRow sha256 json envelopeId now ev).toChainRedactionRow := by
  rw [chainRedactions_redactLedger, redactionOf_append]
  cases hfind : redactionOf (newRecords sha256 json envelopeId events redactions now) ev.id with
  | none =>
    have hlisted : ev ∈ listEvents events := (mem_insertionSort chainLe).mpr hmem
    have hnew : (redactionRow sha256 json envelopeId now ev).toChainRedactionRow ∈
        newRecords sha256 json envelopeId events redactions now :=
      mem_map_of_mem (mem_map_of_mem (mem_filter.mpr ⟨hlisted, hredact⟩))
    simpa [redactionRow] using find?_eq_none.mp hfind _ (mem_reverse.mpr hnew)
  | some record =>
    have hin := mem_reverse.mp (mem_of_find?_eq_some hfind)
    rw [(record_of_mem hids hmem hin (by simpa using find?_some hfind)).2]
    rfl

theorem redactionOf_of_not_toRedact (hids : (events.map (·.id)).Nodup) (hmem : ev ∈ events)
    (hredact : toRedact json redactions ev = false) :
    redactionOf (chainRedactions
        (redactLedger sha256 json replace envelopeId events redactions now).2.1) ev.id =
      redactionOf (chainRedactions redactions) ev.id := by
  rw [chainRedactions_redactLedger, redactionOf_append]
  cases hfind : redactionOf (newRecords sha256 json envelopeId events redactions now) ev.id with
  | none => rfl
  | some record =>
    have hin := mem_reverse.mp (mem_of_find?_eq_some hfind)
    have hyes := (record_of_mem hids hmem hin (by simpa using find?_some hfind)).1
    rw [hredact] at hyes
    cases hyes

/-! ## The status of an event -/

theorem verifiedBefore_iff :
    (redactionRow sha256 json envelopeId now ev).verifiedBeforeRedaction = true ↔
      Recomputes sha256 (chainRow json envelopeId id ev) := by
  simp only [redactionRow, beq_iff_eq]
  exact eq_comm

/-- A status after a redaction: intact, and attested where it was verified. -/
def StatusKept (old new : ChainEventStatus) : Prop :=
  new ≠ .broken ∧ (old = .verified → new = .verified ∨ new = .redactedAttested)

section

variable (hids : (events.map (·.id)).Nodup)

include hids

/-- A rewritten event still recomputes, or is reported by its new record. -/
theorem statusKept_of_toRedact (hmem : ev ∈ events)
    (hredact : toRedact json redactions ev = true) :
    StatusKept (rowStatus sha256 (chainRedactions redactions) (chainRow json envelopeId id ev))
      (rowStatus sha256 (chainRedactions
          (redactLedger sha256 json replace envelopeId events redactions now).2.1)
        (chainRow json envelopeId id (redactEvent json replace ev))) := by
  by_cases hstill : Recomputes sha256 (chainRow json envelopeId id (redactEvent json replace ev))
  · rw [(rowStatus_eq_verified sha256 _).mpr hstill]
    exact ⟨by simp, fun _ => .inl rfl⟩
  · have hrecord : redactionOf (chainRedactions
        (redactLedger sha256 json replace envelopeId events redactions now).2.1)
          (chainRow json envelopeId id (redactEvent json replace ev)).id =
        some (redactionRow sha256 json envelopeId now ev).toChainRedactionRow :=
      redactionOf_of_toRedact hids hmem hredact
    rw [StatusKept, rowStatus_of_record sha256 hstill hrecord rfl, rowStatus_eq_verified,
      ← verifiedBefore_iff]
    cases hbefore : (redactionRow sha256 json envelopeId now ev).verifiedBeforeRedaction <;> simp

theorem rowStatus_of_not_toRedact (hmem : ev ∈ events)
    (hredact : toRedact json redactions ev = false) :
    rowStatus sha256 (chainRedactions
        (redactLedger sha256 json replace envelopeId events redactions now).2.1)
      (chainRow json envelopeId id ev) =
      rowStatus sha256 (chainRedactions redactions) (chainRow json envelopeId id ev) := by
  have hrecord : redactionOf (chainRedactions
      (redactLedger sha256 json replace envelopeId events redactions now).2.1)
        (chainRow json envelopeId id ev).id =
      redactionOf (chainRedactions redactions) (chainRow json envelopeId id ev).id :=
    redactionOf_of_not_toRedact hids hmem hredact
  unfold rowStatus
  rw [hrecord]

theorem statusKept_redacted (hmem : ev ∈ events)
    (hok : rowStatus sha256 (chainRedactions redactions) (chainRow json envelopeId id ev) ≠
      .broken) :
    StatusKept (rowStatus sha256 (chainRedactions redactions) (chainRow json envelopeId id ev))
      (rowStatus sha256 (chainRedactions
          (redactLedger sha256 json replace envelopeId events redactions now).2.1)
        (chainRow json envelopeId id (redacted json replace redactions ev))) := by
  unfold redacted
  by_cases hredact : toRedact json redactions ev = true
  · rw [if_pos hredact]
    exact statusKept_of_toRedact hids hmem hredact
  · rw [if_neg hredact, rowStatus_of_not_toRedact hids hmem (by simpa using hredact)]
    exact ⟨hok, fun h => .inl h⟩

end

/-! ## A second redaction -/

theorem not_toRedact_again (hmem : ev ∈ events) :
    toRedact json (redactLedger sha256 json replace envelopeId events redactions now).2.1
      (redacted json replace redactions ev) = false := by
  have hid : (redacted json replace redactions ev).id = ev.id := (redacted_columns ev).1
  by_cases hredact : toRedact json redactions ev = true
  · -- the event has a record now
    have hlisted : ev ∈ listEvents events := (mem_insertionSort chainLe).mpr hmem
    have hrecorded : (redactLedger sha256 json replace envelopeId events redactions now).2.1.any
        (fun r => r.eventId == ev.id) = true :=
      any_eq_true.mpr ⟨redactionRow sha256 json envelopeId now ev, mem_append_right _
        (mem_map_of_mem (mem_filter.mpr ⟨hlisted, hredact⟩)), by simp [redactionRow]⟩
    simp [toRedact, hid, hrecorded]
  · have hsame : redacted json replace redactions ev = ev := if_neg hredact
    rw [hsame]
    simp only [toRedact, Bool.and_eq_true, not_and, Bool.not_eq_true', Bool.not_eq_true] at hredact
    by_cases hold : redactions.any (fun r => r.eventId == ev.id) = true
    · have hrecorded : (redactLedger sha256 json replace envelopeId events redactions now).2.1.any
          (fun r => r.eventId == ev.id) = true := by
        simp only [redactLedger, any_append, hold, Bool.true_or]
      simp [toRedact, hrecorded]
    · simp [toRedact, hredact (by simpa using hold)]

theorem redactLedger_again (now' : Nat) :
    redactLedger sha256 json replace envelopeId
        (redactLedger sha256 json replace envelopeId events redactions now).1
        (redactLedger sha256 json replace envelopeId events redactions now).2.1 now' =
      ((redactLedger sha256 json replace envelopeId events redactions now).1,
        (redactLedger sha256 json replace envelopeId events redactions now).2.1, 0) := by
  have hnone : ∀ ev ∈ (redactLedger sha256 json replace envelopeId events redactions now).1,
      toRedact json (redactLedger sha256 json replace envelopeId events redactions now).2.1 ev =
        false := by
    intro ev hev
    obtain ⟨ev₀, hmem, rfl⟩ := mem_map.mp hev
    exact not_toRedact_again hmem
  generalize (redactLedger sha256 json replace envelopeId events redactions now).1 = rows at hnone ⊢
  generalize (redactLedger sha256 json replace envelopeId events redactions now).2.1 = records
    at hnone ⊢
  have hselected : (listEvents rows).filter (toRedact json records) = [] := by
    refine filter_eq_nil_iff.mpr fun ev hev => ?_
    simp [hnone ev ((mem_insertionSort chainLe).mp hev)]
  have hrows : updateWhere (toRedact json records) (redactEvent json replace) rows = rows :=
    updateWhere_of_forall_not hnone
  simp [redactLedger, hselected, hrows]

/-- **Redaction keeps the chain verifiable.** A ledger that verifies does so
after a redaction, with the records it wrote: in the order of the chain every
event is intact, one that was verified is verified or attested, and a second
redaction finds nothing to do. -/
theorem redactLedger_verifies (hids : (events.map (·.id)).Nodup)
    (hok : (verifyEventChain sha256 (chainRows json envelopeId events)
      (chainRedactions redactions)).ok = true)
    {events' : List (EventRow π)} {redactions' : List EventRedactionRow} {count : Nat}
    (h : redactLedger sha256 json replace envelopeId events redactions now =
      (events', redactions', count)) :
    (verifyEventChain sha256 (chainRows json envelopeId events')
        (chainRedactions redactions')).ok = true ∧
      List.Forall₂ (fun old new => new.1 = old.1 ∧ StatusKept old.2 new.2)
        (verifyEventChain sha256 (chainRows json envelopeId events)
          (chainRedactions redactions)).statuses
        (verifyEventChain sha256 (chainRows json envelopeId events')
          (chainRedactions redactions')).statuses ∧
      ∀ now', redactLedger sha256 json replace envelopeId events' redactions' now' =
        (events', redactions', 0) := by
  obtain ⟨hevents, hredactions, -⟩ :
      (redactLedger sha256 json replace envelopeId events redactions now).1 = events' ∧
        (redactLedger sha256 json replace envelopeId events redactions now).2.1 = redactions' ∧
          (redactLedger sha256 json replace envelopeId events redactions now).2.2 = count := by
    rw [h]
    exact ⟨rfl, rfl, rfl⟩
  subst hevents hredactions
  obtain ⟨hlinked, hintact⟩ := (verifyEventChain_ok_iff sha256).mp hok
  have hlinked' : Linked ChainEventRow.previousEventHash ChainEventRow.eventHash none
      (chainRows json envelopeId
        (redactLedger sha256 json replace envelopeId events redactions now).1) :=
    linked_redactLedger.mpr hlinked
  -- every row of the chain, with its row after the redaction
  have hkept : ∀ ev ∈ listEvents events,
      StatusKept (rowStatus sha256 (chainRedactions redactions) (chainRow json envelopeId id ev))
        (rowStatus sha256 (chainRedactions
            (redactLedger sha256 json replace envelopeId events redactions now).2.1)
          (chainRow json envelopeId id (redacted json replace redactions ev))) := by
    intro ev hev
    exact statusKept_redacted hids ((mem_insertionSort chainLe).mp hev)
      (hintact _ (mem_map_of_mem hev))
  refine ⟨(verifyEventChain_ok_iff sha256).mpr ⟨hlinked', fun row hrow => ?_⟩, ?_,
    redactLedger_again⟩
  · rw [chainRows, listEvents_redactLedger, map_map] at hrow
    obtain ⟨ev, hev, rfl⟩ := mem_map.mp hrow
    exact (hkept ev hev).1
  · rw [verifyEventChain_statuses sha256 hlinked, verifyEventChain_statuses sha256 hlinked',
      chainRows, chainRows, listEvents_redactLedger, map_map, map_map, map_map]
    refine forall₂_map_left_iff.mpr (forall₂_map_right_iff.mpr
      (forall₂_same.mpr fun ev hev => ⟨?_, hkept ev hev⟩))
    exact (redacted_columns ev).1

end Redacted

/-- An attached document, recorded with its title. -/
def attachedEvent : AppendEventInput (Option Payload) where
  signerId := none
  eventType := js "DOCUMENT_ATTACHED"
  actorType := js "SERVICE"
  actorRef := none
  payload := some { members := [(js "title", .typed (js "Offer"))] }

/-- The envelope is sent five minutes later, with nothing typed. -/
def sentAfterwards : AppendEventInput (Option Payload) where
  signerId := none
  eventType := js "ENVELOPE_SENT"
  actorType := js "SERVICE"
  actorRef := none
  payload := some { members := [(js "signers", .num 2)] }

def attachedHash : JsString := js "Fz9hSCbnvHfazYUIfLnp5PMiKXYK3sZ8BV4J43kXa7M"

def attachedSha256 : JsString → JsString :=
  digestsAt
    [(eventText none (eventCore storedJson (js "env-1") attachedEvent 1767603600000),
        attachedHash),
      (eventText (some attachedHash) (eventCore storedJson (js "env-1") sentAfterwards
        1767603900000), js "8tMYq0KdEayE4lfI_r0aaCibahl3c8VU2GrQbb_pvJ0")]

/-- The ledger of the two events. -/
def attachedLedger : List (EventRow (Option Payload)) :=
  appendEvent attachedSha256 storedJson (js "env-1")
    (appendEvent attachedSha256 storedJson (js "env-1") [] attachedEvent 1767603600000 1)
    sentAfterwards 1767603900000 2

/-- The title is redacted, and the chain of both events still verifies. -/
theorem redactLedger_verifies_attachedLedger :
    (verifyEventChain attachedSha256 (chainRows storedJson (js "env-1") attachedLedger) []).ok =
        true ∧
      ∃ events' redactions', redactLedger attachedSha256 storedJson redactMembers (js "env-1")
          attachedLedger [] 1767700000000 = (events', redactions', 1) ∧
        events'.length = 2 ∧
        (verifyEventChain attachedSha256 (chainRows storedJson (js "env-1") events')
          (chainRedactions redactions')).ok = true := by
  have hok : (verifyEventChain attachedSha256 (chainRows storedJson (js "env-1") attachedLedger)
      (chainRedactions [])).ok = true := by decide +kernel
  refine ⟨hok, _, _, rfl, by decide +kernel, ?_⟩
  exact (redactLedger_verifies (by decide +kernel) hok rfl).1

end AramoPlatform.Sign
