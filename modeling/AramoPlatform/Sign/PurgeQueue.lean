import AramoPlatform.Sign.Lifecycle
import AramoPlatform.Sign.Redaction

/-!
# The purge queue

An envelope waits in the queue for fourteen days before its bytes go. The
selection of what is due and its execution are separate transactions, so the
execution tests the queue again under the lock, and reads the legal hold
there. What it tests is only the due date of the row: that this date lies
fourteen days after the step that queued the envelope is a fact about the
runs, in which envelopes are upgraded, made to wait, dequeued and queued
again.
-/

namespace AramoPlatform.Sign

open Js Lib

/-- The transactions on an envelope; the selection only reads. -/
inductive PurgeCall where
  | retention (call : RetentionCall)
  | dueForExecution (time : Nat) (held : Bool) (now : Nat)

def purgeStep (deps : Deps) (s : RetentionState) (call : PurgeCall) (t : RetentionState) : Prop :=
  match call with
  | .retention call => retentionStep deps s call t
  | .dueForExecution time _ _ => s.engine.clock ≤ time ∧ t = s.at time

variable {deps : Deps} {init s t u : RetentionState} {calls : List PurgeCall}

/-! ## One step -/

/-- Everything a step can do. -/
inductive PurgeMove (deps : Deps) (s : RetentionState) : PurgeCall → RetentionState → Prop
  | engine {call : Call} {e : State} (h : engineStep deps s.engine call e) :
      PurgeMove deps s (.retention (.engine call)) { s with engine := e }
  | unchanged (call : PurgeCall) (time : Nat) : PurgeMove deps s call (s.at time)
  | enqueued (time : Nat) (input : QueueInput)
      (eligible : s.engine.envelope.status.isPurgeEligible = true)
      (state : s.purge.state = none ∨ s.purge.state = some .dequeued ∧ input.reason ≠ .retention) :
      PurgeMove deps s (.retention (.queue time input)) (enqueue deps (s.at time) input)
  | upgraded (time : Nat) (input : QueueInput) (state : s.purge.state = some .queued)
      (level : s.purge.level.any (input.level.rank ≤ ·.rank) = false) :
      PurgeMove deps s (.retention (.queue time input)) (upgrade deps (s.at time) input)
  | dequeued (time : Nat) (actor : Uuid) (state : s.purge.state = some .queued) :
      PurgeMove deps s (.retention (.dequeue time actor))
        { s with
          purge := { s.purge with state := some .dequeued, waitingUntil := none }
          engine := recordTransition deps (s.engine.at time) .envelopePurgeDequeued (some actor)
            (purgeTransitionPayload s.purge.level s.purge.reason none none) }
  | waiting (time waitUntil : Nat) (state : s.purge.state = some .queued) :
      PurgeMove deps s (.retention (.markWaiting time waitUntil))
        { s.at time with purge := { s.purge with waitingUntil := some waitUntil } }
  | executed (time : Nat) (objects : PurgeObjectsReport) (now : Nat)
      (due : isDue s.purge now = true) :
      PurgeMove deps s (.retention (.execute time false objects now))
        (execute deps (s.at time) false objects now).2

theorem queue_move (time : Nat) (input : QueueInput) :
    PurgeMove deps s (.retention (.queue time input)) (queue deps (s.at time) input).2 := by
  unfold queue
  split
  · exact .unchanged _ time
  next heligible =>
    have heligible : s.engine.envelope.status.isPurgeEligible = true := by
      simp only [Bool.or_eq_true, not_or, Bool.not_eq_true, Bool.not_eq_false'] at heligible
      exact heligible.1
    split
    · exact .unchanged _ time
    next hopen =>
      split
      · exact .unchanged _ time
      next hretention =>
        split
        next hqueued =>
          split
          · exact .unchanged _ time
          next hlevel =>
            rw [Bool.not_eq_true] at hlevel
            exact .upgraded time input hqueued hlevel
        next hnot =>
          refine .enqueued time input heligible ?_
          -- the states left are no purge, and a dequeued one that may be queued again
          have hstate : (s.at time).purge.state = s.purge.state := rfl
          rw [hstate] at hopen hretention hnot
          cases hs : s.purge.state with
          | none => exact .inl rfl
          | some state =>
            cases state with
            | queued => exact absurd hs hnot
            | executed => exact absurd hs hopen
            | dequeued => exact .inr ⟨rfl, fun hr => hretention ⟨hs, hr⟩⟩

variable {call : PurgeCall}

theorem purgeStep_move (h : purgeStep deps s call t) :
    PurgeMove deps s call t := by
  cases call with
  | dueForExecution time held now =>
    obtain ⟨-, rfl⟩ := h
    exact .unchanged _ time
  | retention call =>
    cases call with
    | engine call =>
      obtain ⟨hengine, hrest⟩ := h
      rw [hrest]
      exact .engine hengine
    | queue time input =>
      obtain ⟨-, rfl⟩ := h
      exact queue_move time input
    | dequeue time actor =>
      obtain ⟨-, rfl⟩ := h
      unfold dequeue
      split
      next hqueued => exact .dequeued time actor hqueued
      · exact .unchanged _ time
    | markWaiting time waitUntil =>
      obtain ⟨-, rfl⟩ := h
      unfold markWaiting
      split
      next hqueued => exact .waiting time waitUntil hqueued
      · exact .unchanged _ time
    | execute time held objects now =>
      obtain ⟨-, rfl⟩ := h
      cases hdue : isDue s.purge now with
      | false =>
        have hsame : (execute deps (s.at time) held objects now).2 = s.at time := by
          simp [execute, RetentionState.at, hdue]
        rw [hsame]
        exact .unchanged _ time
      | true =>
        cases held with
        | false => exact .executed time objects now hdue
        | true =>
          have hsame : (execute deps (s.at time) true objects now).2 = s.at time := by
            simp [execute, RetentionState.at, hdue]
          rw [hsame]
          exact .unchanged _ time

section

variable (h : PurgeMove deps s call t)

include h

/-- A step that leaves the envelope in the queue found it there, with the same
due date and no higher level, or has queued it. -/
theorem PurgeMove.queued
    (hqueued : t.purge.state = some .queued) :
    (s.purge.state = some .queued ∧ t.purge.dueAt = s.purge.dueAt ∧
      ∀ level, s.purge.level = some level →
        ∃ level', t.purge.level = some level' ∧ level.rank ≤ level'.rank) ∨
    ∃ time input, call = .retention (.queue time input) ∧ s.purge.state ≠ some .queued ∧
      s.engine.envelope.status.isPurgeEligible = true ∧
      (s.purge.state = none ∨ input.reason ≠ .retention) ∧
      t.purge.dueAt = some (input.now + purgeQueueMs) ∧ t.purge.level = some input.level ∧
      t.engine.envelope.status = s.engine.envelope.status := by
  cases h with
  | engine | unchanged =>
    exact .inl ⟨hqueued, rfl, fun level hlevel => ⟨level, hlevel, Nat.le_refl _⟩⟩
  | enqueued time input eligible state =>
    refine .inr ⟨time, input, rfl, ?_, eligible, state.imp_right And.right, rfl, rfl, rfl⟩
    rcases state with hnone | ⟨hdequeued, -⟩
    · simp [hnone]
    · simp [hdequeued]
  | upgraded time input state level =>
    refine .inl ⟨state, rfl, fun old hold => ⟨input.level, rfl, ?_⟩⟩
    simp only [hold, Option.any_some, decide_eq_false_iff_not] at level
    omega
  | dequeued _ _ _ => simp at hqueued
  | waiting _ _ state =>
    exact .inl ⟨state, rfl, fun level hlevel => ⟨level, hlevel, Nat.le_refl _⟩⟩
  | executed time objects now due =>
    have hdone : (execute deps (s.at time) false objects now).2.purge.state = some .executed := by
      simp [execute, RetentionState.at, due]
    simp [hdone] at hqueued

theorem PurgeMove.final
    (hdone : s.purge.state = some .executed) : t = { s with engine := t.engine } := by
  cases h with
  | engine _ => rfl
  | unchanged _ _ => rfl
  | enqueued _ _ _ state | upgraded _ _ state | dequeued _ _ state | waiting _ _ state =>
    simp [hdone] at state
  | executed _ _ _ due => simp [isDue, hdone] at due

theorem PurgeMove.asked
    (hsome : s.purge.state ≠ none) : t.purge.state ≠ none := by
  cases h with
  | engine | unchanged | upgraded | waiting => exact hsome
  | enqueued _ _ _ _ => simp [enqueue]
  | dequeued _ _ _ => simp
  | executed time objects now due => simp [execute, RetentionState.at, due]

end

/-- A step that removes bytes or pages, or ends the purge. -/
def Removes (s t : RetentionState) : Prop :=
  t.artifacts ≠ s.artifacts ∨ t.pages ≠ s.pages ∨
    s.purge.state ≠ some .executed ∧ t.purge.state = some .executed

/-- Only an execution that reads no hold, of a purge that is due, removes
anything. -/
theorem PurgeMove.removes (h : PurgeMove deps s call t) (hremoves : Removes s t) :
    ∃ time objects now, call = .retention (.execute time false objects now) ∧
      isDue s.purge now = true := by
  -- a step that keeps the tables and does not execute removes nothing
  have hkept : t.artifacts = s.artifacts → t.pages = s.pages →
      (t.purge.state = some .executed → s.purge.state = some .executed) → False := by
    intro hartifacts hpages hstate
    rcases hremoves with hne | hne | ⟨hne, hdone⟩
    · exact hne hartifacts
    · exact hne hpages
    · exact hne (hstate hdone)
  cases h with
  | engine | unchanged | upgraded | waiting => exact (hkept rfl rfl id).elim
  | enqueued _ _ _ _ => exact (hkept rfl rfl (by simp [enqueue])).elim
  | dequeued _ _ _ => exact (hkept rfl rfl (by simp)).elim
  | executed time objects now due => exact ⟨time, objects, now, rfl, due⟩

/-! ## Over runs -/

/-- Until a purge is executed, it is in the queue only for an envelope that
has ended, and with a level. -/
def QueueSound (s : RetentionState) : Prop :=
  s.purge.state ≠ some .executed → EngineWf s.engine ∧
    (s.purge.state = some .queued → s.engine.envelope.status.isPurgeEligible = true ∧
      ∃ level, s.purge.level = some level)

theorem EnvelopeStatus.terminal_of_purgeEligible {status : EnvelopeStatus}
    (h : status.isPurgeEligible = true) : status.isTerminal = true := by
  cases status <;> first | rfl | cases h

theorem EngineWf.recordTransition {e : State} (h : EngineWf e) (event : LedgerEvent)
    (actor : Option Uuid) (payload : Payload) :
    EngineWf (recordTransition deps e event actor payload) :=
  ⟨h.sessions, h.attempts, h.signerIds, h.fieldIds, h.payments⟩

theorem PurgeMove.sound (h : PurgeMove deps s call t) (hs : QueueSound s) :
    QueueSound t := by
  intro hopen
  have hbefore : s.purge.state ≠ some .executed := by
    intro hdone
    rw [h.final hdone] at hopen
    exact hopen hdone
  obtain ⟨hwf, hqueue⟩ := hs hbefore
  cases h with
  | engine hengine =>
    refine ⟨step_wf hwf hengine, fun hqueued => ?_⟩
    obtain ⟨heligible, hlevel⟩ := hqueue hqueued
    -- an envelope that has ended keeps its status
    have hsame := step_terminal hwf hengine (EnvelopeStatus.terminal_of_purgeEligible heligible)
    exact ⟨hsame ▸ heligible, hlevel⟩
  | unchanged _ time => exact ⟨hwf.at time, hqueue⟩
  | enqueued time input eligible _ =>
    exact ⟨(hwf.at time).recordTransition _ _ _, fun _ => ⟨eligible, input.level, rfl⟩⟩
  | upgraded time input state _ =>
    exact ⟨(hwf.at time).recordTransition _ _ _,
      fun _ => ⟨(hqueue state).1, input.level, rfl⟩⟩
  | dequeued time actor _ => exact ⟨(hwf.at time).recordTransition _ _ _, by simp⟩
  | waiting time _ state => exact ⟨hwf.at time, fun _ => hqueue state⟩
  | executed time objects now due => simp [execute, RetentionState.at, due] at hopen

theorem Created.queueSound (h : Created deps init) : QueueSound init :=
  fun _ => ⟨h.initial.wf, by simp [h.noPurge]⟩

theorem run_queueSound (hinit : Created deps init) (hrun : Run (purgeStep deps) init calls s) :
    QueueSound s := by
  refine hrun.invariant (I := QueueSound) ?_ hinit.queueSound
  intro a call b ha hstep
  exact (purgeStep_move hstep).sound ha

/-- The steps that leave the envelope in the queue. -/
def StaysQueued (deps : Deps) (s : RetentionState) (call : PurgeCall) (t : RetentionState) : Prop :=
  purgeStep deps s call t ∧ t.purge.state = some .queued

/-- The run ends in the queue, and the step that last moved the envelope into
it read the clock `queuedAt`. -/
def QueuedSince (deps : Deps) (init : RetentionState) (calls : List PurgeCall) (s : RetentionState)
    (queuedAt : Nat) : Prop :=
  ∃ before a time input b after,
    calls = before ++ .retention (.queue time input) :: after ∧ input.now = queuedAt ∧
      Run (purgeStep deps) init before a ∧ a.purge.state ≠ some .queued ∧
      StaysQueued deps a (.retention (.queue time input)) b ∧ Run (StaysQueued deps) b after s

/-- The due date of a queued envelope lies fourteen days after the step that
last queued it, however often it was upgraded or made to wait since. -/
theorem run_queuedSince (hinit : init.purge.state ≠ some .queued)
    (hrun : Run (purgeStep deps) init calls s) (hqueued : s.purge.state = some .queued) :
    ∃ queuedAt, QueuedSince deps init calls s queuedAt ∧
      s.purge.dueAt = some (queuedAt + purgeQueueMs) := by
  revert hqueued
  refine hrun.history (P := fun calls s => s.purge.state = some .queued → ∃ queuedAt,
    QueuedSince deps init calls s queuedAt ∧ s.purge.dueAt = some (queuedAt + purgeQueueMs))
    (fun h => absurd h hinit) ?_
  intro calls call s t hrun ih hstep hqueued
  rcases (purgeStep_move hstep).queued hqueued with
    ⟨hbefore, hdue, -⟩ | ⟨time, input, rfl, hbefore, -, -, hdue, -⟩
  · -- the step found the envelope in the queue: the same step has queued it
    obtain ⟨queuedAt, ⟨before, a, time, input, b, after, rfl, hnow, h₁, h₂, h₃, h₄⟩, hdue'⟩ :=
      ih hbefore
    refine ⟨queuedAt, ⟨before, a, time, input, b, after ++ [call], ?_, hnow, h₁, h₂, h₃, ?_⟩, ?_⟩
    · rw [List.append_assoc, List.cons_append]
    · exact h₄.snoc ⟨hstep, hqueued⟩
    · rw [hdue, hdue']
  · exact ⟨input.now, ⟨calls, s, time, input, t, [], rfl, rfl, hrun, hbefore, ⟨hstep, hqueued⟩,
      .nil t⟩, hdue⟩

theorem run_final (hrun : Run (purgeStep deps) s calls t) (hdone : s.purge.state = some .executed) :
    t = { s with engine := t.engine } := by
  induction hrun with
  | nil _ => rfl
  | cons hstep _ ih =>
    have hone := (purgeStep_move hstep).final hdone
    have hrest := ih (by rw [hone]; exact hdone)
    rw [hrest, hone]

theorem run_level {level : PurgeLevel} (hrun : Run (StaysQueued deps) s calls t)
    (hlevel : s.purge.level = some level) (hqueued : s.purge.state = some .queued) :
    ∃ level', t.purge.level = some level' ∧ level.rank ≤ level'.rank := by
  induction hrun generalizing level with
  | nil _ => exact ⟨level, hlevel, Nat.le_refl _⟩
  | cons hstep _ ih =>
    obtain ⟨hstep, hstays⟩ := hstep
    rcases (purgeStep_move hstep).queued hstays with ⟨-, -, hup⟩ | ⟨_, _, -, hnot, -⟩
    · obtain ⟨mid, hmid, hle⟩ := hup level hlevel
      obtain ⟨level', hlevel', hle'⟩ := ih hmid hstays
      exact ⟨level', hlevel', Nat.le_trans hle hle'⟩
    · exact absurd hqueued hnot

/-- What a removal of bytes, or the end of the purge, has behind it. -/
structure RemovalAllowed (deps : Deps) (init : RetentionState) (calls : List PurgeCall)
    (s : RetentionState) (call : PurgeCall) : Prop where
  status : s.engine.envelope.status = .completed ∨ s.engine.envelope.status = .declined ∨
    s.engine.envelope.status = .voided
  queued : s.purge.state = some .queued
  /-- The transaction reads no legal hold, fourteen days after the queue step. -/
  execution : ∃ time objects now queuedAt,
    call = .retention (.execute time false objects now) ∧
      QueuedSince deps init calls s queuedAt ∧ queuedAt + purgeQueueMs ≤ now

/-- The safety of the purge queue in a state that a run has reached. -/
structure PurgeQueueSafe (deps : Deps) (init : RetentionState) (calls : List PurgeCall)
    (s : RetentionState) : Prop where
  removal : ∀ call t, purgeStep deps s call t → Removes s t → RemovalAllowed deps init calls s call
  final : s.purge.state = some .executed → ∀ calls' t, Run (purgeStep deps) s calls' t →
    t = { s with engine := t.engine }
  level : s.purge.state = some .queued → ∃ level, s.purge.level = some level ∧
    ∀ calls' t, Run (StaysQueued deps) s calls' t →
      ∃ level', t.purge.level = some level' ∧ level.rank ≤ level'.rank
  /-- Once dequeued, at any time before, it is not queued again for retention. -/
  retention : ∀ before after a, calls = before ++ after → Run (purgeStep deps) init before a →
    Run (purgeStep deps) a after s → a.purge.state = some .dequeued →
    ∀ time input t, input.reason = .retention →
      purgeStep deps s (.retention (.queue time input)) t →
      t.purge.state = some .queued → s.purge.state = some .queued

theorem isDue_iff {p : PurgeColumns} {now : Nat} : isDue p now = true ↔
    p.state = some .queued ∧ (∃ due, p.dueAt = some due ∧ due ≤ now) ∧
      ∀ wait, p.waitingUntil = some wait → wait ≤ now := by
  cases hdue : p.dueAt <;> cases hwait : p.waitingUntil <;>
    simp [isDue, hdue, hwait, and_assoc]

theorem EnvelopeStatus.isPurgeEligible_iff {status : EnvelopeStatus} :
    status.isPurgeEligible = true ↔
      status = .completed ∨ status = .declined ∨ status = .voided := by
  cases status <;> simp [isPurgeEligible]

/-- **The purge queue is safe**, in every state that any order of the calls
reaches. -/
theorem purge_queue_safe (hinit : Created deps init) (hrun : Run (purgeStep deps) init calls s) :
    PurgeQueueSafe deps init calls s := by
  have hsound := run_queueSound hinit hrun
  constructor
  case removal =>
    intro call t hstep hremoves
    obtain ⟨time, objects, now, rfl, hdue⟩ := (purgeStep_move hstep).removes hremoves
    obtain ⟨hqueued, ⟨due, hdueAt, hle⟩, -⟩ := isDue_iff.mp hdue
    obtain ⟨queuedAt, hsince, hdueAt'⟩ := run_queuedSince (by simp [hinit.noPurge]) hrun hqueued
    have heq : due = queuedAt + purgeQueueMs := Option.some.inj (hdueAt.symm.trans hdueAt')
    obtain ⟨-, hqueue⟩ := hsound (by simp [hqueued])
    exact ⟨EnvelopeStatus.isPurgeEligible_iff.mp (hqueue hqueued).1, hqueued, time, objects, now,
      queuedAt, rfl, hsince, heq ▸ hle⟩
  case final =>
    intro hdone calls' t hrun'
    exact run_final hrun' hdone
  case level =>
    intro hqueued
    obtain ⟨-, hqueue⟩ := hsound (by simp [hqueued])
    obtain ⟨-, level, hlevel⟩ := hqueue hqueued
    exact ⟨level, hlevel, fun calls' t hrun' => run_level hrun' hlevel hqueued⟩
  case retention =>
    intro before after a _ _ hafter hdequeued time input t hreason hstep hqueued
    -- the purge was asked for, so the step would queue it again
    have hasked : s.purge.state ≠ none := by
      refine hafter.invariant (I := fun s => s.purge.state ≠ none) ?_ (by simp [hdequeued])
      intro b call c hb hone
      exact (purgeStep_move hone).asked hb
    rcases (purgeStep_move hstep).queued hqueued with ⟨hsame, -⟩ | ⟨_, input', hcall, -, -, hno, -⟩
    · exact hsame
    · obtain ⟨-, rfl⟩ : _ ∧ input = input' := by simpa using hcall
      rcases hno with hnone | hne
      · exact absurd hnone hasked
      · exact absurd hreason hne

/-- The step a call computes. -/
def purgeNext (deps : Deps) (s : RetentionState) (call : PurgeCall) : Option RetentionState :=
  match call with
  | .retention call => retentionNext deps s call
  | .dueForExecution time _ _ => if s.engine.clock ≤ time then some (s.at time) else none

theorem purgeStep_of_next (h : purgeNext deps s call = some t) :
    purgeStep deps s call t := by
  cases call with
  | retention call => exact retentionStep_of_next h
  | dueForExecution time held now =>
    simp only [purgeNext, Option.ite_none_right_eq_some, Option.some.injEq] at h
    exact ⟨h.1, h.2.symm⟩

/-- Voided and queued, then dequeued, refused for retention, queued again by
hand at time 6, raised to a higher level and selected. -/
def requeued : List PurgeCall :=
  (sentVoidedQueued (draftWithMessage none)).map .retention ++
    [.retention (.dequeue 4 9), .retention (.queue 5 ⟨.documents, .retention, none, 5⟩),
      .retention (.queue 6 ⟨.documents, .manual, some 9, 6⟩),
      .retention (.queue 7 ⟨.documentsAndMetadata, .targeted, some 9, 7⟩),
      .dueForExecution (6 + purgeQueueMs) false (6 + purgeQueueMs)]

/-- Fourteen days after the second queue step the purge is executed. -/
theorem purge_queue_safe_requeued :
    ∃ s t, Run (purgeStep plainDeps) (draftWithMessage none) requeued s ∧
      purgeStep plainDeps s
        (.retention (.execute (6 + purgeQueueMs) false ⟨0, []⟩ (6 + purgeQueueMs))) t ∧
      Removes s t ∧ PurgeQueueSafe plainDeps (draftWithMessage none) requeued s := by
  have hexec : (exec (purgeNext plainDeps) (draftWithMessage none) requeued).any (fun s =>
      s.purge.state == some .queued &&
        (purgeNext plainDeps s (.retention (.execute (6 + purgeQueueMs) false ⟨0, []⟩
          (6 + purgeQueueMs)))).any (·.purge.state == some .executed)) = true := rfl
  obtain ⟨s, hrun, hs⟩ := run_of_exec (fun _ _ _ => purgeStep_of_next) hexec
  simp only [Bool.and_eq_true, beq_iff_eq, Option.any_eq_true] at hs
  obtain ⟨hqueued, t, hnext, hdone⟩ := hs
  exact ⟨s, t, hrun, purgeStep_of_next hnext, .inr (.inr ⟨by simp [hqueued], hdone⟩),
    purge_queue_safe (draftWithMessage_created none) hrun⟩

end AramoPlatform.Sign
