import AramoPlatform.Lib.RollingWindow
import AramoPlatform.Sign.Lifecycle

/-!
# Reminder limits

A reminder reads the clock, waits for the envelope lock, reads the ledger back
from that time, and is recorded at a later one. What it reads goes back at
least as far as both limits do from its own event, so the limits hold of the
ledger whatever ran in between.
-/

namespace AramoPlatform.Sign

open Js Lib List

variable {deps : Deps} {s t u : State} {limits : ReminderLimits}

/-! ## The reminders of a ledger -/

def isReminder (e : EventRow (Option Payload)) : Bool :=
  e.eventType == LedgerEvent.signatureReminderSent.text

def reminders (s : State) : List (EventRow (Option Payload)) := s.events.filter isReminder

def reminderTimes (s : State) : List Nat := (reminders s).map (·.occurredAt)

/-- The event names the signer among those it reminded. -/
def remindsSigner (e : EventRow (Option Payload)) (signerId : JsString) : Bool :=
  (signerIdsOf e.payload).any (·.contains signerId)

/-- The times as a query gives them. -/
def orderedTimes (s : State) : List Nat :=
  ((listEvents s.events).filter isReminder).map (·.occurredAt)

theorem orderedTimes_perm (s : State) : (orderedTimes s).Perm (reminderTimes s) :=
  ((perm_insertionSort _ s.events).filter _).map _

theorem orderedTimes_sorted (s : State) : (orderedTimes s).Pairwise (· ≤ ·) := by
  refine pairwise_map.mpr (((pairwise_insertionSort chainLe s.events).filter _).imp ?_)
  intro a b hab
  unfold chainLe at hab
  omega

theorem length_recent_ordered (window x : Nat) (s : State) :
    (RollingWindow.recent window x (orderedTimes s)).length =
      (RollingWindow.recent window x (reminderTimes s)).length :=
  ((orderedTimes_perm s).filter _).length_eq

theorem inWindow_times (s : State) (now : Nat) (limits : ReminderLimits) :
    ((reminderHistory s now limits).filter fun h =>
        decide (now < h.occurredAt + limits.perEnvelopeWindowMs)).map (·.occurredAt) =
      RollingWindow.recent limits.perEnvelopeWindowMs now (orderedTimes s) := by
  simp only [reminderHistory, RollingWindow.recent, orderedTimes, filter_map,
    filter_filter, map_map, Function.comp_def]
  congr 1
  refine filter_congr fun e _ => ?_
  by_cases hin : now < e.occurredAt + limits.perEnvelopeWindowMs
  · have hlong : now < e.occurredAt + max limits.perEnvelopeWindowMs
      limits.perSignerCooldownMs := by
      omega
    simp [isReminder, hin, hlong]
  · simp [hin]

/-! ## The envelope's window -/

theorem envelopeReminderAvailableAt_none {x : Nat} :
    envelopeReminderAvailableAt (reminderHistory s x limits) x limits = .ok none ↔
      (RollingWindow.recent limits.perEnvelopeWindowMs x (reminderTimes s)).length <
        limits.perEnvelopeMax := by
  rw [← length_recent_ordered, ← inWindow_times, length_map]
  unfold envelopeReminderAvailableAt
  dsimp only
  split
  next hroom => simp [hroom]
  next hfull => simp [hfull]

variable {now retryAt : Nat}

theorem envelopeReminderAvailableAt_some
    (h : envelopeReminderAvailableAt (reminderHistory s now limits) now limits =
      .ok (some retryAt)) :
    let times := RollingWindow.recent limits.perEnvelopeWindowMs now (orderedTimes s)
    limits.perEnvelopeMax ≤ times.length ∧
      ∃ pivot, times[times.length - limits.perEnvelopeMax]? = some pivot ∧
        pivot + limits.perEnvelopeWindowMs = retryAt := by
  dsimp only
  rw [← inWindow_times, length_map]
  unfold envelopeReminderAvailableAt at h
  dsimp only at h
  split at h
  · cases h
  next hfull =>
    simp only [map_eq_ok, orThrow_eq_ok, Option.some.injEq] at h
    obtain ⟨entry, hentry, hretry⟩ := h
    exact ⟨by omega, entry.occurredAt, by rw [getElem?_map, hentry]; rfl, hretry⟩

/-- **The time of a refusal is the earliest that admits a reminder**, in any
state with the same reminders. -/
theorem retryAt_isLeast
    (h : envelopeReminderAvailableAt (reminderHistory s now limits) now limits =
      .ok (some retryAt)) (hsame : reminders u = reminders s) :
    IsLeast {x | envelopeReminderAvailableAt (reminderHistory u x limits) x limits = .ok none}
      retryAt := by
  obtain ⟨hfull, pivot, hpivot, rfl⟩ := envelopeReminderAvailableAt_some h
  have hadmits (x : Nat) :
      envelopeReminderAvailableAt (reminderHistory u x limits) x limits = .ok none ↔
        pivot + limits.perEnvelopeWindowMs ≤ x := by
    rw [envelopeReminderAvailableAt_none, reminderTimes, hsame]
    show (RollingWindow.recent limits.perEnvelopeWindowMs x (reminderTimes s)).length < _ ↔ _
    rw [← length_recent_ordered]
    exact RollingWindow.length_recent_lt_iff (orderedTimes_sorted s) hfull x hpivot
  constructor
  · exact (hadmits _).mpr (Nat.le_refl _)
  · intro x hx
    exact (hadmits x).mp hx

/-! ## One signer's cooldown -/

/-- A signer who may be reminded is out of the cooldown of every reminder. -/
theorem nextReminderAt_none {signerId : JsString} {now : Nat}
    (h : nextReminderAt (reminderHistory s now limits) signerId now limits = none)
    {e : EventRow (Option Payload)} (he : e ∈ reminders s) (hnames :
      remindsSigner e signerId = true) :
    e.occurredAt + limits.perSignerCooldownMs ≤ now := by
  obtain ⟨hmem, htype⟩ := mem_filter.mp he
  by_cases hin : now < e.occurredAt + max limits.perEnvelopeWindowMs limits.perSignerCooldownMs
  · have hentry : ⟨e.occurredAt, signerIdsOf e.payload⟩ ∈ reminderHistory s now limits := by
      refine mem_map.mpr ⟨e, mem_filter.mpr ⟨?_, ?_⟩, rfl⟩
      · exact (perm_insertionSort _ s.events).mem_iff.mpr hmem
      · have htext : (e.eventType == LedgerEvent.signatureReminderSent.text) = true := htype
        simp [htext, hin]
    have hcounts : (signerIdsOf e.payload).all (·.contains signerId) = true := by
      unfold remindsSigner at hnames
      cases hids : signerIdsOf e.payload <;> simp_all
    have htime : e.occurredAt ∈ ((reminderHistory s now limits).filter fun h =>
        h.signerIds.all (·.contains signerId)).map (·.occurredAt) :=
      mem_map.mpr ⟨_, mem_filter.mpr ⟨hentry, hcounts⟩, rfl⟩
    unfold nextReminderAt at h
    dsimp only at h
    cases hlast : (((reminderHistory s now limits).filter fun h =>
        h.signerIds.all (·.contains signerId)).map (·.occurredAt)).max? with
    | none =>
      rw [max?_eq_none_iff] at hlast
      rw [hlast] at htime
      cases htime
    | some last =>
      have hle : e.occurredAt ≤ last := (max?_eq_some_iff.mp hlast).2 _ htime
      rw [hlast] at h
      have hlate : ¬ now < last + limits.perSignerCooldownMs := by
        simpa [Option.filter] using h
      omega
  · omega

/-! ## Reminders -/

variable {history : List ReminderHistoryEntry}

theorem applyReminderLimits_ok {rows targets : List SignerRow}
    {now : Nat} (h : applyReminderLimits deps history rows now limits = .ok targets) :
    envelopeReminderAvailableAt history now limits = .ok none ∧ ∀ r ∈ targets,
      nextReminderAt history (deps.uuidText r.id) now limits = none := by
  unfold applyReminderLimits at h
  dsimp only at h
  split at h
  · cases h
  · cases h
  next hopen =>
    split at h
    · cases h
    · cases h
      refine ⟨hopen, fun r hr => ?_⟩
      simpa using (mem_filter.mp hr).2

theorem envelopeReminderAvailableAt_error {now : Nat}
    {e : EsignError} (h : envelopeReminderAvailableAt history now limits = .error e) :
    e = .typeError := by
  unfold envelopeReminderAvailableAt at h
  dsimp only at h
  split at h
  · cases h
  · obtain ⟨-, rfl⟩ := orThrow_eq_error.mp (map_eq_error.mp h)
    rfl

theorem applyReminderLimits_daily {rows : List SignerRow}
    (h : applyReminderLimits deps history rows now limits =
      .error (.reminderLimit .dailyLimit retryAt)) :
    envelopeReminderAvailableAt history now limits = .ok (some retryAt) := by
  unfold applyReminderLimits at h
  dsimp only at h
  split at h
  next e havailable =>
    cases h
    cases envelopeReminderAvailableAt_error havailable
  next retryAt' hfull =>
    cases h
    exact hfull
  · split at h
    · cases h
    · cases h

theorem replaceLinks_error {ids : List Uuid} {now : Nat} {e : EsignError}
    (h : ids.foldlM (replaceLink now) s = .error e) : e = .recordNotFound := by
  induction ids generalizing s with
  | nil => cases h
  | cons id rest ih =>
    rw [foldlM_cons, bind_eq_error] at h
    rcases h with hlink | ⟨w, -, hrest⟩
    · simp only [replaceLink, State.mintSession, bind_eq_error, require_eq_error] at hlink
      rcases hlink with ⟨-, rfl⟩ | ⟨_, -, hpure⟩
      · rfl
      · cases hpure
    · exact ih hrest

/-- A reminder that the daily limit refuses was refused by the envelope's window. -/
theorem remindSigner_daily {actorRef : JsString} {signerId : Option Uuid}
    (h : remindSigner deps s actorRef signerId (some limits) now =
      .error (.reminderLimit .dailyLimit retryAt)) :
    envelopeReminderAvailableAt (reminderHistory s now limits) now limits = .ok (some retryAt) := by
  simp only [remindSigner, bind_eq_error, require_eq_error, reduceCtorEq, and_false,
    false_or] at h
  obtain ⟨-, -, -, -, -, -, hlimit | ⟨_, -, hlinks | ⟨_, -, hpure⟩⟩⟩ := h
  · exact applyReminderLimits_daily hlimit
  · cases replaceLinks_error hlinks
  · cases hpure

/-- **What a limited reminder leaves**: the window had room, every signer it
names was out of the cooldown, and one event tells so. -/
theorem remindSigner_limited {actorRef : JsString} {signerId : Option Uuid} {now : Nat}
    (h : remindSigner deps s actorRef signerId (some limits) now = .ok t) :
    (RollingWindow.recent limits.perEnvelopeWindowMs now (reminderTimes s)).length <
        limits.perEnvelopeMax ∧
      ∃ e, t.events = s.events ++ [e] ∧ isReminder e = true ∧ e.occurredAt = t.clock ∧
        ∀ e' ∈ reminders s, ∀ id, remindsSigner e' id = true → remindsSigner e id = true →
          e'.occurredAt + limits.perSignerCooldownMs ≤ now := by
  simp only [remindSigner, bind_eq_ok, require_eq_ok, pure_eq_ok] at h
  obtain ⟨-, -, -, -, -, -, targets, htargets, minted, hmint, rfl⟩ := h
  obtain ⟨hroom, hcool⟩ := applyReminderLimits_ok htargets
  have hevents := State.appendEvent_events deps minted (serviceEvent .signatureReminderSent none
    (some actorRef)
    (some { members := [(js "signer_ids", .texts (targets.map fun r => deps.uuidText r.id))] }))
  rw [Sign.appendEvent, replaceLinks_events hmint] at hevents
  refine ⟨envelopeReminderAvailableAt_none.mp hroom, _, hevents, ?_, ?_, ?_⟩
  · rfl
  · rfl
  · intro e he id hold hnew
    have hid : ∃ r ∈ targets, deps.uuidText r.id = id := by
      simpa [remindsSigner, newEvent, serviceEvent, signerIdsOf] using hnew
    obtain ⟨r, hr, rfl⟩ := hid
    exact nextReminderAt_none (hcool r hr) he hold

/-! ## Over runs -/

/-- Every reminder has these limits, and read its time before it had the lock. -/
def RemindsWithin (limits : ReminderLimits) (_ : State) (call : Call) : Prop :=
  match call.op with
  | .remindSigner _ _ given now => given = some limits ∧ now ≤ call.time
  | _ => True

/-- The limits hold of the reminders recorded so far. -/
structure LimitsHold (limits : ReminderLimits) (s : State) : Prop where
  window : ∀ x, RollingWindow.held limits.perEnvelopeWindowMs x (reminderTimes s) ≤
    limits.perEnvelopeMax
  apart : (reminders s).Pairwise fun e e' => ∀ signerId, remindsSigner e signerId = true →
    remindsSigner e' signerId = true → e.occurredAt + limits.perSignerCooldownMs ≤ e'.occurredAt

theorem LimitsHold.congr (h : LimitsHold limits s) (hsame : reminders t = reminders s) :
    LimitsHold limits t := by
  constructor
  · rw [reminderTimes, hsame]
    exact h.window
  · rw [hsame]
    exact h.apart

theorem step_limitsHold {call : Call} (h : EngineWf s ∧ LimitsHold limits s)
    (hstep : Guarded (engineStep deps) (RemindsWithin limits) s call t) :
    EngineWf t ∧ LimitsHold limits t := by
  obtain ⟨hwf, heffect⟩ := step_effect h.1 hstep.1
  refine ⟨heffect.wf hwf, ?_⟩
  by_cases hremind : ∃ actorRef signerId given now,
    call.op = .remindSigner actorRef signerId given now
  · obtain ⟨actorRef, signerId, given, now, hop⟩ := hremind
    have hok : given = some limits ∧ now ≤ call.time := by
      have hok : RemindsWithin limits s call := hstep.2
      simpa only [RemindsWithin, hop] using hok
    obtain ⟨rfl, hnow⟩ := hok
    have hrun : remindSigner deps (s.at call.time) actorRef signerId (some limits) now = .ok t := by
      have hrun := hstep.1.2
      rwa [hop] at hrun
    obtain ⟨hroom, e, hevents, htype, htime, hapart⟩ := remindSigner_limited hrun
    have htime : e.occurredAt = call.time := htime.trans heffect.clock
    have hreminders : reminders t = reminders s ++ [e] := by
      have hsplit : t.events = s.events ++ [e] := hevents
      rw [reminders, hsplit, filter_append, filter_cons_of_pos htype, filter_nil]
      rfl
    constructor
    · intro x
      rw [reminderTimes, hreminders, map_append, map_singleton, htime]
      exact RollingWindow.held_snoc_le h.2.window hnow hroom x
    · rw [hreminders, pairwise_append]
      refine ⟨h.2.apart, pairwise_singleton _ _, fun e' he' e'' he'' id hold hnew => ?_⟩
      obtain rfl := mem_singleton.mp he''
      have hle := hapart e' he' id hold hnew
      omega
  · obtain ⟨new, hnew, hrec⟩ := (run_outcome (hwf.at call.time) hstep.1.2).events
    refine h.2.congr ?_
    have hnone : new.filter isReminder = [] := by
      refine filter_eq_nil_iff.mpr fun e he htype => ?_
      exact hremind ((hrec e he).reminder (beq_iff_eq.mp htype))
    have hsplit : t.events = s.events ++ new := hnew
    rw [reminders, hsplit, filter_append, hnone, append_nil]
    rfl

/-- **The reminder limits hold in every rolling window.** From a ledger with no
reminder, whatever runs in between and however long a reminder waits for the
lock, no window holds more than the limit, no signer is named twice within the
cooldown, and a refusal for the day reports the earliest time that admits a
reminder if none is sent meanwhile. -/
theorem reminder_limits_hold {calls : List Call} (hwf : EngineWf s) (hnone : reminders s = [])
    (hrun : Run (Guarded (engineStep deps) (RemindsWithin limits)) s calls t) :
    LimitsHold limits t ∧ ∀ time actorRef signerId now retryAt,
      (Op.remindSigner actorRef signerId (some limits) now).run deps (t.at time) =
          .error (.reminderLimit .dailyLimit retryAt) →
        ∀ u, reminders u = reminders t →
          IsLeast {x | envelopeReminderAvailableAt (reminderHistory u x limits) x limits = .ok none}
            retryAt := by
  have hstart : LimitsHold limits s := by
    constructor
    · simp [reminderTimes, hnone, RollingWindow.held]
    · simp [hnone]
  obtain ⟨-, hholds⟩ := hrun.invariant (fun _ _ _ h hstep => step_limitsHold h hstep) ⟨hwf, hstart⟩
  refine ⟨hholds, fun time actorRef signerId now retryAt hrefused u hsame => ?_⟩
  have hfull := remindSigner_daily hrefused
  exact retryAt_isLeast hfull hsame

/-! ## Two reminders in a second -/

def twoInASecond : ReminderLimits where
  perSignerCooldownMs := 60
  perEnvelopeWindowMs := 1000
  perEnvelopeMax := 2

/-- A reminder that read the clock at `now`. -/
def remindAt (now time : Nat) : Call :=
  ⟨time, .remindSigner (js "sender") none (some twoInASecond) now⟩

theorem reminder_limits_hold_twoInASecond : ∃ t,
    Run (Guarded (engineStep plainDeps) (RemindsWithin twoInASecond)) oneSigner
      [sendNow oneSigner 0, remindAt 5 10, remindAt 70 70] t ∧
      (reminders t).length = 2 ∧ LimitsHold twoInASecond t ∧
      IsLeast {x | envelopeReminderAvailableAt (reminderHistory t x twoInASecond) x twoInASecond =
        .ok none} 1010 := by
  obtain ⟨t, hrun, htest⟩ := guardedRun_of_exec (engineNext plainDeps)
    (fun _ _ _ => engineStep_of_next) (RemindsWithin twoInASecond)
    (fun _ call => match call.op with
      | .remindSigner _ _ given now => decide (given = some twoInASecond ∧ now ≤ call.time)
      | _ => true)
    (fun _ call hok => by
      obtain ⟨time, op⟩ := call
      cases op <;> simp_all [RemindsWithin])
    oneSigner [sendNow oneSigner 0, remindAt 5 10, remindAt 70 70]
    (fun t => (reminders t).length == 2 &&
      match (remindAt 90 100).op.run plainDeps (t.at 100) with
      | .error (.reminderLimit .dailyLimit retryAt) => retryAt == 1010
      | .error _ | .ok _ => false)
    (by decide +kernel)
  simp only [Bool.and_eq_true, beq_iff_eq] at htest
  obtain ⟨hlength, hrefused⟩ := htest
  split at hrefused
  next retryAt hrun' =>
    obtain rfl := beq_iff_eq.mp hrefused
    obtain ⟨hholds, hleast⟩ := reminder_limits_hold oneSigner_initial.wf rfl hrun
    exact ⟨t, hrun, hlength, hholds, hleast _ _ _ _ _ hrun' t rfl⟩
  all_goals cases hrefused

end AramoPlatform.Sign
