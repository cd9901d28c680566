import AramoPlatform.Sign.EffectFacts
import AramoPlatform.Sign.Purge

/-!
# What a full purge leaves in the ledger

Redaction goes by key. The texts that the engine records under `title` and
`reason` are on the list, the sender's message is recorded under
`sender_message`, which is not: it stays in the ledger after a purge that
reports success.

In every run in which no envelope is sent with a message, a full purge
leaves no typed text in any payload, and the hashes of the chain as they
were.
-/

namespace AramoPlatform.Sign

open Js Lib List

/-- A typed text other than the mark of a redaction. -/
def PayloadValue.isFreeText : PayloadValue → Bool
  | typed s => s != redactedPayloadValue
  | _ => false

def hasFreeText (payload : Option Payload) : Bool :=
  payload.any fun p => p.members.any (·.2.isFreeText)

/-- The columns of the chain. -/
def chainColumns (events : List (EventRow (Option Payload))) :
    List (Uuid × Option JsString × JsString) :=
  events.map fun e => (e.id, e.previousEventHash, e.eventHash)

/-- The ledger after a full purge of `s`: no free text, and the chain of `s`
with the event of the purge after it. -/
structure FullyPurged (s t : RetentionState) : Prop where
  noFreeText : ∀ e ∈ t.engine.events, hasFreeText e.payload = false
  hashes : ∃ purged, chainColumns t.engine.events = chainColumns s.engine.events ++ [purged]

/-- The envelope is sent without a message. -/
def SendsNoMessage (s : RetentionState) (call : RetentionCall) : Prop :=
  match call with
  | .engine ⟨_, .send _ _ _⟩ => ∀ text, s.engine.envelope.message = some text → text = []
  | _ => True

variable {deps : Deps} {s t : RetentionState}

/-! ## One payload -/

theorem mem_piiKeys {p : Payload} {m : JsString × PayloadValue} (hm : m ∈ p.members)
    (hkey : piiPayloadKeys.contains m.1 = true) (hnew : isRedactedValue m.2.json = false) :
    m.1 ∈ piiKeys (storedJson (some p)).val := by
  have hstored : (m.1, m.2.json) ∈
      (p.members.insertionSort jsonbKeyLe).map fun m => (m.1, m.2.json) :=
    mem_map.mpr ⟨m, (mem_insertionSort jsonbKeyLe).mpr hm, rfl⟩
  refine mem_map.mpr ⟨_, mem_filter.mpr ⟨hstored, ?_⟩, rfl⟩
  simp only [hkey, hnew, Bool.not_false, Bool.and_true]

theorem not_freeText_of_not_mem {p : Payload} (hok : onlyTitleOrReason (some p) = true)
    {m : JsString × PayloadValue} (hm : m ∈ p.members)
    (hnot : m.1 ∉ piiKeys (storedJson (some p)).val) : m.2.isFreeText = false := by
  obtain ⟨key, value⟩ := m
  cases value with
  | typed text =>
    have hkey : key = js "title" ∨ key = js "reason" := by
      have hall := all_eq_true.mp hok _ hm
      simpa [PayloadValue.isTyped] using hall
    have hlisted : piiPayloadKeys.contains key = true := by
      rcases hkey with rfl | rfl <;> decide
    by_contra hfree
    refine hnot (mem_piiKeys hm hlisted ?_)
    simpa [PayloadValue.isFreeText, isRedactedValue, PayloadValue.json] using hfree
  | _ => rfl

theorem redactMembers_no_freeText {payload : Option Payload}
    (hok : onlyTitleOrReason payload = true) :
    hasFreeText (redactMembers (piiKeys (storedJson payload).val) payload) = false := by
  cases payload with
  | none => rfl
  | some p =>
    simp only [hasFreeText, redactMembers, Option.map_some, Option.any_some, any_eq_false]
    intro m hm
    obtain ⟨m₀, hm₀, rfl⟩ := mem_map.mp hm
    split
    · exact Bool.false_ne_true
    next hnot =>
      rw [not_freeText_of_not_mem hok hm₀ (by simpa using hnot)]
      exact Bool.false_ne_true

theorem no_freeText_of_piiKeys {payload : Option Payload}
    (hok : onlyTitleOrReason payload = true)
    (hnone : piiKeys (storedJson payload).val = []) : hasFreeText payload = false := by
  cases payload with
  | none => rfl
  | some p =>
    simp only [hasFreeText, Option.any_some, any_eq_false]
    intro m hm
    rw [not_freeText_of_not_mem hok hm (by simp [hnone])]
    exact Bool.false_ne_true

/-! ## One ledger -/

/-- Typed text stands under `title` and `reason` only, in the whole ledger. -/
def LedgerText (events : List (EventRow (Option Payload))) : Prop :=
  ∀ e ∈ events, onlyTitleOrReason e.payload = true

theorem redactEvent_no_freeText {e : EventRow (Option Payload)}
    (hok : onlyTitleOrReason e.payload = true) :
    hasFreeText (redactEvent storedJson redactMembers e).payload = false := by
  simp only [redactEvent]
  split
  next hnone => exact no_freeText_of_piiKeys hok (by simpa using hnone)
  · exact redactMembers_no_freeText hok

theorem redactLedger_no_freeText {sha256 : JsString → JsString} {envelopeId : JsString}
    {events : List (EventRow (Option Payload))} (hok : LedgerText events) (now : Nat) :
    ∀ e ∈ (redactLedger sha256 storedJson redactMembers envelopeId events [] now).1,
      hasFreeText e.payload = false := by
  intro e he
  rcases of_mem_updateWhere he with ⟨hmem, hnot⟩ | ⟨e₀, hmem, -, rfl⟩
  · refine no_freeText_of_piiKeys (hok e hmem) ?_
    simp only [toRedact, carriesPersonalData, any_nil, Bool.not_false, Bool.true_and,
      Bool.not_eq_false', Bool.and_eq_true, List.isEmpty_iff] at hnot
    exact hnot.1.1
  · exact redactEvent_no_freeText (hok e₀ hmem)

theorem chainColumns_redactLedger {sha256 : JsString → JsString} {envelopeId : JsString}
    (events : List (EventRow (Option Payload))) (redactions : List EventRedactionRow) (now : Nat) :
    chainColumns
      (redactLedger sha256 storedJson redactMembers envelopeId events redactions now).1 =
        chainColumns events :=
  map_updateWhere _ fun _ => rfl

/-! ## Steps of the purge -/

/-- What a queue, a dequeue or a waiting time can do: nothing, or a change of
a purge that has not been executed, with at most one event. -/
structure PurgeMoved (deps : Deps) (s t : RetentionState) : Prop where
  state : s.purge.state ≠ some .executed
  redactions : t.redactions = s.redactions
  engine : t.engine = s.engine ∨ ∃ event actor payload,
    onlyTitleOrReason (some payload) = true ∧
      t.engine = recordTransition deps s.engine event actor payload

theorem purgeTransitionPayload_text (level : Option PurgeLevel) (reason : Option PurgeReason)
    (due : Option Nat) (upgradedFrom : Option (Option PurgeLevel)) :
    onlyTitleOrReason (some (purgeTransitionPayload level reason due upgradedFrom)) = true := by
  rcases upgradedFrom with _ | (_ | current) <;> cases level <;> cases reason <;> cases due <;> rfl

theorem queue_moved (deps : Deps) (s : RetentionState) (input : QueueInput) :
    (queue deps s input).2 = s ∨ PurgeMoved deps s (queue deps s input).2 := by
  unfold queue
  split
  · exact .inl rfl
  split
  · exact .inl rfl
  next hopen =>
    split
    · exact .inl rfl
    split
    · split
      · exact .inl rfl
      · exact .inr ⟨hopen, rfl, .inr ⟨_, _, _, purgeTransitionPayload_text _ _ _ _, rfl⟩⟩
    · exact .inr ⟨hopen, rfl, .inr ⟨_, _, _, purgeTransitionPayload_text _ _ _ _, rfl⟩⟩

theorem dequeue_moved (deps : Deps) (s : RetentionState) (actor : Uuid) :
    dequeue deps s actor = s ∨ PurgeMoved deps s (dequeue deps s actor) := by
  unfold dequeue
  split
  next hqueued =>
    exact .inr ⟨by simp [hqueued], rfl, .inr ⟨_, _, _, purgeTransitionPayload_text _ _ _ _, rfl⟩⟩
  · exact .inl rfl

theorem markWaiting_moved (deps : Deps) (s : RetentionState) (waitUntil : Nat) :
    markWaiting s waitUntil = s ∨ PurgeMoved deps s (markWaiting s waitUntil) := by
  unfold markWaiting
  split
  next hqueued => exact .inr ⟨by simp [hqueued], rfl, .inl rfl⟩
  · exact .inl rfl

theorem execute_cases (deps : Deps) (s : RetentionState) (held :
    Bool) (objects : PurgeObjectsReport)
    (now : Nat) : (execute deps s held objects now).2 = s ∨
      (execute deps s held objects now).2.purge.state = some .executed := by
  unfold execute
  split
  · exact .inl rfl
  split
  · exact .inl rfl
  · exact .inr rfl

/-! ## Over runs -/

/-- Until the purge is executed nothing is redacted, and the ledger holds typed
text only where redaction looks for it. -/
def Unpurged (s : RetentionState) : Prop :=
  s.purge.state ≠ some .executed → s.redactions = [] ∧ LedgerText s.engine.events

/-- Until then the rows of the engine are in order, too. -/
def Orderly (s : RetentionState) : Prop :=
  s.purge.state ≠ some .executed → Unpurged s ∧ EngineWf s.engine

theorem LedgerText.append {events : List (EventRow (Option Payload))} (h : LedgerText events)
    {e : EventRow (Option Payload)} (he : onlyTitleOrReason e.payload = true) :
    LedgerText (events ++ [e]) := by
  intro e' he'
  rcases (mem_append.mp he').imp_right mem_singleton.mp with hold | rfl
  · exact h e' hold
  · exact he

theorem orderly_of_moved (h : t = s ∨ PurgeMoved deps s t) (hinv : Orderly s) : Orderly t := by
  rcases h with rfl | h
  · exact hinv
  obtain ⟨hunpurged, hwf⟩ := hinv h.state
  obtain ⟨hnone, htext⟩ := hunpurged h.state
  intro _
  rcases h.engine with hsame | ⟨event, actor, payload, hok, hevent⟩
  · exact ⟨fun _ => ⟨h.redactions.trans hnone, hsame ▸ htext⟩, hsame ▸ hwf⟩
  · rw [hevent]
    refine ⟨fun _ => ⟨h.redactions.trans hnone, ?_⟩, ?_⟩
    · rw [hevent]
      exact htext.append hok
    · exact ⟨hwf.sessions, hwf.attempts, hwf.signerIds, hwf.fieldIds, hwf.payments⟩

/-- The engine records typed text under `title` and `reason`, but for the
message of a send. -/
theorem engine_ledgerText {s t : State} {call : Call} (hwf : EngineWf s)
    (hsend : ∀ full actorRef now, call.op = .send full actorRef now →
      ∀ text, s.envelope.message = some text → text = [])
    (h : engineStep deps s call t) (hinv : LedgerText s.events) : LedgerText t.events := by
  obtain ⟨new, hnew, hrec⟩ := (run_outcome (hwf.at call.time) h.2).events
  intro e he
  rw [hnew] at he
  rcases mem_append.mp he with hold | he
  · exact hinv e hold
  · rcases (hrec e he).text with hok | ⟨⟨full, actorRef, now, hop⟩, hpayload⟩
    · exact hok
    · have hempty : sentPayload s.envelope.message = none := by
        cases hmessage : s.envelope.message with
        | none => rfl
        | some text =>
          rw [hsend full actorRef now hop text hmessage]
          rfl
      have hpayload : e.payload = sentPayload s.envelope.message := hpayload
      rw [hpayload, hempty]
      rfl

theorem step_orderly {call : RetentionCall} (h : Orderly s)
    (hstep : Guarded (retentionStep deps) SendsNoMessage s call t) : Orderly t := by
  obtain ⟨hstep, hsend⟩ := hstep
  have hnow : ∀ time, Orderly (s.at time) := fun time hopen =>
    have ⟨hunpurged, hwf⟩ := h hopen
    ⟨hunpurged, hwf.at time⟩
  cases call with
  | engine call =>
    obtain ⟨hengine, hrest⟩ := hstep
    rw [hrest]
    intro hopen
    obtain ⟨hunpurged, hwf⟩ := h hopen
    obtain ⟨hnone, htext⟩ := hunpurged hopen
    refine ⟨fun _ => ⟨hnone, engine_ledgerText hwf ?_ hengine htext⟩, step_wf hwf hengine⟩
    intro full actorRef now hop
    obtain ⟨time, op⟩ := call
    subst hop
    exact hsend
  | queue time input =>
    obtain ⟨-, rfl⟩ := hstep
    exact orderly_of_moved (queue_moved deps (s.at time) input) (hnow time)
  | dequeue time actor =>
    obtain ⟨-, rfl⟩ := hstep
    exact orderly_of_moved (dequeue_moved deps (s.at time) actor) (hnow time)
  | markWaiting time waitUntil =>
    obtain ⟨-, rfl⟩ := hstep
    exact orderly_of_moved (markWaiting_moved deps (s.at time) waitUntil) (hnow time)
  | execute time held objects now =>
    obtain ⟨-, rfl⟩ := hstep
    rcases execute_cases deps (s.at time) held objects now with hsame | hdone
    · rw [hsame]
      exact hnow time
    · exact fun hopen => absurd hdone hopen

theorem Created.orderly (h : Created deps s) : Orderly s := by
  intro _
  refine ⟨fun _ => ⟨h.noRedactions, ?_⟩, h.initial.wf⟩
  obtain ⟨executionMode, createdBy, time, hledger⟩ := h.ledger
  rw [hledger]
  intro e he
  obtain rfl := mem_singleton.mp he
  cases s.engine.envelope.envelopeMode <;> rfl

/-! ## The purge itself -/

theorem chainColumns_append (events : List (EventRow (Option Payload)))
    (e : EventRow (Option Payload)) :
    chainColumns (events ++ [e]) = chainColumns events ++
      [(e.id, e.previousEventHash, e.eventHash)] := by
  simp [chainColumns]

theorem purgedPayload_text (s : RetentionState) (objects : PurgeObjectsReport) (n : Nat) :
    hasFreeText (some (purgedPayload s objects n)) = false := by
  unfold purgedPayload levelValue reasonValue
  cases s.purge.level <;> cases s.purge.reason <;> rfl

theorem execute_executed {u : RetentionState} {held : Bool} {objects : PurgeObjectsReport}
    {now documents certificates redacted : Nat} {level : Option PurgeLevel}
    (h : execute deps s held objects now = (.executed level documents certificates redacted, u)) :
    s.purge.state = some .queued ∧ s.purge.level = level ∧ ∃ e : EventRow (Option Payload),
      u.engine.events = (purgeContent deps s level now).1.engine.events ++ [e] ∧
        hasFreeText e.payload = false := by
  unfold execute at h
  split at h
  · cases h
  next hdue =>
    split at h
    · cases h
    · simp only [Prod.mk.injEq, ExecuteOutcome.executed.injEq] at h
      obtain ⟨⟨rfl, -⟩, rfl⟩ := h
      refine ⟨?_, rfl, _, rfl, purgedPayload_text s objects _⟩
      simp only [isDue, Bool.not_eq_true, Bool.not_eq_false', Bool.and_eq_true, beq_iff_eq] at hdue
      exact hdue.1.1

/-- **A full purge leaves no free text in the ledger**, and the hashes of the
chain as they were, after every run in which no send finds a message. -/
theorem purge_leaves_no_free_text {init u : RetentionState} {calls : List RetentionCall}
    {time : Nat} {held : Bool} {objects : PurgeObjectsReport} {now : Nat}
    {documents certificates redacted : Nat} (hinit : Created deps init)
    (hrun : Run (Guarded (retentionStep deps) SendsNoMessage) init calls s)
    (hexec : execute deps (s.at time) held objects now = (.executed
      (some .documentsAndMetadataAndRedact) documents certificates redacted, u)) :
    FullyPurged s u := by
  have hinv : Orderly s := hrun.invariant (fun _ _ _ h hstep => step_orderly h hstep) hinit.orderly
  obtain ⟨hqueued, -, e, hevents, hfree⟩ := execute_executed hexec
  -- a queued purge has not been executed before
  have hopen : s.purge.state ≠ some .executed := by
    have hqueued : s.purge.state = some .queued := hqueued
    simp [hqueued]
  obtain ⟨hnone, htext⟩ := (hinv hopen).1 hopen
  have hcontent : u.engine.events = (redactLedger deps.sha256Hex storedJson redactMembers
      (deps.uuidText deps.envelopeId) s.engine.events [] now).1 ++ [e] := by
    rw [hevents, ← hnone]
    rfl
  refine ⟨fun e' he' => ?_, (e.id, e.previousEventHash, e.eventHash), ?_⟩
  · rw [hcontent] at he'
    rcases (mem_append.mp he').imp_right mem_singleton.mp with hold | rfl
    · exact redactLedger_no_freeText htext now e' hold
    · exact hfree
  · rw [hcontent, chainColumns_append, chainColumns_redactLedger]

/-- The step a call computes. -/
def retentionNext (deps : Deps) (s : RetentionState) (call : RetentionCall) :
    Option RetentionState :=
  match call with
  | .engine call => (engineNext deps s.engine call).map fun engine => { s with engine := engine }
  | .queue time input =>
    if s.engine.clock ≤ time then some (queue deps (s.at time) input).2 else none
  | .dequeue time actor =>
    if s.engine.clock ≤ time then some (dequeue deps (s.at time) actor) else none
  | .markWaiting time waitUntil =>
    if s.engine.clock ≤ time then some (markWaiting (s.at time) waitUntil) else none
  | .execute time held objects now =>
    if s.engine.clock ≤ time then some (execute deps (s.at time) held objects now).2 else none

theorem retentionStep_of_next {call : RetentionCall} (h : retentionNext deps s call = some t) :
    retentionStep deps s call t := by
  cases call with
  | engine call =>
    obtain ⟨engine, hnext, rfl⟩ := Option.map_eq_some_iff.mp h
    exact ⟨engineStep_of_next hnext, rfl⟩
  | _ =>
    simp only [retentionNext, Option.ite_none_right_eq_some, Option.some.injEq] at h
    exact ⟨h.1, h.2.symm⟩

/-- A draft of one signer, with a message of the sender or without. -/
def draftWithMessage (message : Option JsString) : RetentionState :=
  let draft := newDraft .parallel [newSigner 1 (js "ada@example.com")] [newField 10 1 .signature]
  { engine :=
      { draft with
        envelope := { draft.envelope with message := message }
        events := createdLedger plainDeps .singleSignature (js "sender") .standard 0 }
    purge := {}, redactions := [], artifacts := [], pages := [], messaging := []
    messageDeliveries := [], otpChallenges := [] }

theorem draftWithMessage_created (message : Option JsString) :
    Created plainDeps (draftWithMessage message) where
  initial := by
    have hdraft : Initial (newDraft .parallel [newSigner 1 (js "ada@example.com")]
        [newField 10 1 .signature]) :=
      newDraft_initial (by decide) (by decide) (by simp [newSigner]) (by simp [newField])
    exact ⟨hdraft.draft, hdraft.signerIds, hdraft.fieldIds, hdraft.pending, hdraft.undelegated,
      hdraft.unfilled, rfl, rfl, rfl, rfl, rfl⟩
  ledger := ⟨.singleSignature, js "sender", 0, rfl⟩
  noPurge := rfl
  noRedactions := rfl

/-- A document is attached, the envelope sent and voided, and its purge queued. -/
def sentVoidedQueued (s : RetentionState) : List RetentionCall :=
  [.engine ⟨0, .addDraftDocument (js "sender") (js "Offer") (.owned (js "key") (js "pdf"))⟩,
    .engine (sendNow s.engine 1), .engine ⟨2, .voidEnvelope (js "sender") (js "Withdrawn")⟩,
    .queue 3 ⟨.documentsAndMetadataAndRedact, .manual, some 9, 3⟩]

/-- The purge of `s` on the day it is due. -/
def executeDue (s : RetentionState) : ExecuteOutcome × RetentionState :=
  execute plainDeps (s.at (3 + purgeQueueMs)) false ⟨0, []⟩ (3 + purgeQueueMs)

/-- The condition, as a test. -/
def sendsNoMessage (s : RetentionState) (_ : RetentionCall) : Bool :=
  s.engine.envelope.message.isNone

theorem sendsNoMessage_of_test (s : RetentionState) (call : RetentionCall)
    (h : sendsNoMessage s call = true) : SendsNoMessage s call := by
  unfold SendsNoMessage
  split
  · intro text hmessage
    simp [sendsNoMessage, hmessage] at h
  · trivial

theorem purge_leaves_no_free_text_voided :
    ∃ s, Run (Guarded (retentionStep plainDeps) SendsNoMessage) (draftWithMessage none)
        (sentVoidedQueued (draftWithMessage none)) s ∧
      s.engine.events.any (hasFreeText ·.payload) = true ∧ FullyPurged s (executeDue s).2 := by
  have hexec : (exec (fun s call => if sendsNoMessage s call then
      retentionNext plainDeps s call else none) (draftWithMessage none)
      (sentVoidedQueued (draftWithMessage none))).any (fun s =>
        s.engine.events.any (hasFreeText ·.payload) &&
          (executeDue s).1 == .executed (some .documentsAndMetadataAndRedact) 0 0 2) = true := rfl
  obtain ⟨s, hrun, hs⟩ := run_of_exec (fun _ _ _ =>
    guarded_of_next (fun _ _ _ => retentionStep_of_next) sendsNoMessage_of_test) hexec
  simp only [Bool.and_eq_true, beq_iff_eq] at hs
  exact ⟨s, hrun, hs.1, purge_leaves_no_free_text (draftWithMessage_created none) hrun
    (Prod.ext hs.2 rfl)⟩

/-- Sent with a message, the envelope keeps it in its ledger after the purge. -/
theorem purge_keeps_sender_message :
    ¬ ∀ (deps : Deps) (init s u : RetentionState) (calls : List RetentionCall) (time : Nat)
        (held : Bool) (objects : PurgeObjectsReport) (now documents certificates redacted : Nat),
        Created deps init → Run (retentionStep deps) init calls s →
        execute deps (s.at time) held objects now = (.executed
          (some .documentsAndMetadataAndRedact) documents certificates redacted, u) →
        FullyPurged s u := by
  intro hclaim
  have hexec : (exec (retentionNext plainDeps) (draftWithMessage (some (js "Please sign")))
      (sentVoidedQueued (draftWithMessage (some (js "Please sign"))))).any (fun s =>
        (executeDue s).2.engine.events.any (hasFreeText ·.payload) &&
          (executeDue s).1 == .executed (some .documentsAndMetadataAndRedact) 0 0 2) = true := rfl
  obtain ⟨s, hrun, hs⟩ := run_of_exec (fun _ _ _ => retentionStep_of_next) hexec
  simp only [Bool.and_eq_true, beq_iff_eq, any_eq_true] at hs
  obtain ⟨⟨e, he, hfree⟩, hdone⟩ := hs
  have hpurged := hclaim plainDeps _ s (executeDue s).2 _ (3 + purgeQueueMs) false ⟨0, []⟩
    (3 + purgeQueueMs) 0 0 2 (draftWithMessage_created _) hrun (Prod.ext hdone rfl)
  rw [hpurged.noFreeText e he] at hfree
  cases hfree

end AramoPlatform.Sign
