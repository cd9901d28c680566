import AramoPlatform.Subscription.Allowance

/-!
# The allowance over runs

The period is counted from a column that a reservation writes, so its bound
holds in any order of the calls. The day window is counted up to the clock
reading of the caller: a row that was reserved by a later clock is not in
it, and a reservation that commits after such a row does not see it.
-/

namespace AramoPlatform.Subscription

open Js Lib List

variable {key : JsString} {s t : AllowanceState}

/-- The limits of the plan that the subscription is pinned to. -/
def periodLimit (key : JsString) (s : AllowanceState) : Option Nat :=
  (s.subscription.bind fun sub => limitOf sub.terms key).bind id

def dayLimit (key : JsString) (s : AllowanceState) : Option Nat :=
  s.subscription.bind fun sub => dailyLimitOf sub.terms key

/-- A reservation at `time` charges its key: the subscription sends, the key has
no counted row, and both limits have room. -/
def Charges (key : JsString) (s : AllowanceState) (sendKey : JsString) (time : Nat) : Prop :=
  ∃ plan, activePlan s.subscription key time = .ok plan ∧
    (∀ u ∈ s.usage, u.sendKey = sendKey → u.state.isCounted = false) ∧
    (∀ limit, plan.limit = some limit → usedIn s.usage plan.period.start < limit) ∧
    ∀ limit, plan.dailyLimit = some limit → (dailyUsage s.usage time).used < limit

/-- A charge under a day limit finds no counted row that was reserved in the
twenty-four hours after its own clock reading. -/
def SeesLatest (key : JsString) (s : AllowanceState) : AllowanceCall → Prop
  | .reserve sendKey time _ =>
    dayLimit key s ≠ none → Charges key s sendKey time → ∀ u ∈ s.usage,
      u.state.isCounted = true → u.reservedAt ≤ time ∨ time + dayWindowMs ≤ u.reservedAt
  | _ => True

/-! ## The rows a step writes -/

/-- What a step does to the rows: a charge, the end of a reservation, or
nothing. -/
inductive UsageMove (key : JsString) (s : AllowanceState) : AllowanceCall → AllowanceState → Prop
  | kept {call : AllowanceCall} {t : AllowanceState} (usage : t.usage = s.usage)
      (events : t.usageEvents = s.usageEvents) : UsageMove key s call t
  | charged {sendKey : JsString} {time : Nat} {ttlMs : Option Nat} {t : AllowanceState}
      {plan : ActivePlan} (active : activePlan s.subscription key time = .ok plan)
      (fresh : ∀ u ∈ s.usage, u.sendKey = sendKey → u.state.isCounted = false)
      (limit : ∀ limit, plan.limit = some limit → usedIn s.usage plan.period.start < limit)
      (daily : ∀ limit, plan.dailyLimit = some limit → (dailyUsage s.usage time).used < limit)
      (usage : t.usage = chargeRow s.usage sendKey plan.period.start time
        (ttlMs.getD defaultReservationTtlMs))
      (events : t.usageEvents = s.usageEvents) : UsageMove key s (.reserve sendKey time ttlMs) t
  | consumed {call : AllowanceCall} {sendKey usageEventType : JsString} {time : Nat}
      {t : AllowanceState} (one : s.usage.countP (isReserved sendKey) = 1)
      (usage : t.usage = updateWhere (isReserved sendKey)
        (fun u => { u with state := .consumed, finalizedAt := some time }) s.usage)
      (events : t.usageEvents = s.usageEvents ++ [(sendKey, usageEventType)]) :
      UsageMove key s call t
  | released {call : AllowanceCall} {sendKey : JsString} {time : Nat} {t : AllowanceState}
      (usage : t.usage = updateWhere (isReserved sendKey)
        (fun u => { u with state := .released, finalizedAt := some time }) s.usage)
      (events : t.usageEvents = s.usageEvents) : UsageMove key s call t

theorem reserve_move (sendKey : JsString) (time : Nat) (ttlMs : Option Nat) :
    UsageMove key s (.reserve sendKey time ttlMs) (reserve key s sendKey time ttlMs).2 := by
  unfold reserve
  split
  · exact .kept rfl rfl
  next plan hplan =>
    dsimp only
    split
    · exact .kept rfl rfl
    next hfresh =>
      split
      · exact .kept rfl rfl
      next hlimit =>
        split
        · exact .kept rfl rfl
        next hdaily =>
          refine .charged hplan ?_ ?_ ?_ rfl rfl
          · simpa using hfresh
          · intro limit hsome
            simpa [hsome] using hlimit
          · intro limit hsome
            simpa [hsome, windowOf] using hdaily

theorem consume_move (call : AllowanceCall) (sendKey usageEventType : JsString) (time : Nat) :
    UsageMove key s call (consume s sendKey usageEventType time).2 := by
  unfold consume
  split
  next hone => exact .consumed hone rfl rfl
  · exact .kept rfl rfl

variable {call : AllowanceCall}

theorem UsageMove.congr {u : AllowanceState} (h : UsageMove key s call t)
    (husage : u.usage = t.usage) (hevents : u.usageEvents = t.usageEvents) :
    UsageMove key s call u := by
  cases h with
  | kept usage events => exact .kept (husage.trans usage) (hevents.trans events)
  | charged active fresh limit daily usage events =>
    exact .charged active fresh limit daily (husage.trans usage) (hevents.trans events)
  | consumed one usage events =>
    exact .consumed one (husage.trans usage) (hevents.trans events)
  | released usage events => exact .released (husage.trans usage) (hevents.trans events)

theorem allowanceStep_move (h : allowanceStep key s call t) :
    UsageMove key s call t := by
  cases h
  cases call with
  | reserve sendKey time ttlMs => exact reserve_move sendKey time ttlMs
  | consume sendKey usageEventType time => exact consume_move _ sendKey usageEventType time
  | release sendKey time => exact .released rfl rfl
  | resolveStale | subscriptionMoved => exact .kept rfl rfl
  | resolveNext i usageEventType outcome time =>
    unfold allowanceNext
    dsimp only
    split
    next sendKey rest _ =>
      cases outcome with
      | accepted => exact (consume_move _ sendKey usageEventType time).congr rfl rfl
      | notAccepted => exact .released rfl rfl
      | unknown => exact .kept rfl rfl
    · exact .kept rfl rfl

theorem allowanceStep_limits (h : allowanceStep key s call t) :
    periodLimit key t = periodLimit key s ∧ dayLimit key t = dayLimit key s := by
  cases h
  cases call with
  | reserve sendKey time ttlMs =>
    simp only [allowanceNext, reserve]
    repeat' split
    all_goals exact ⟨rfl, rfl⟩
  | consume sendKey usageEventType time =>
    simp only [allowanceNext, consume]
    split <;> exact ⟨rfl, rfl⟩
  | release | resolveStale => exact ⟨rfl, rfl⟩
  | subscriptionMoved status graceUntil supportExtensions =>
    cases hsub : s.subscription <;> simp [allowanceNext, periodLimit, dayLimit, hsub]
  | resolveNext i usageEventType outcome time =>
    unfold allowanceNext
    dsimp only
    split
    · cases outcome with
      | accepted =>
        simp only [resolveOne, consume]
        split <;> exact ⟨rfl, rfl⟩
      | notAccepted | unknown => exact ⟨rfl, rfl⟩
    · exact ⟨rfl, rfl⟩

theorem activePlan_limits {time : Nat} {plan : ActivePlan}
    (h : activePlan s.subscription key time = .ok plan) :
    plan.limit = periodLimit key s ∧ plan.dailyLimit = dayLimit key s := by
  simp only [activePlan, bind_eq_ok, orThrow_eq_ok, require_eq_ok, pure_eq_ok] at h
  obtain ⟨sub, hsub, limit, hlimit, -, -, rfl⟩ := h
  simp [periodLimit, dayLimit, hsub, hlimit]

/-! ## The charged row -/

section Charge

variable {usage : List AllowanceUsage} {sendKey : JsString} {start time ttlMs : Nat}

theorem chargeRow_keys (h : (usage.map (·.sendKey)).Nodup) :
    ((chargeRow usage sendKey start time ttlMs).map (·.sendKey)).Nodup := by
  unfold chargeRow
  split
  · exact nodup_updateWhere (fun _ => rfl) h
  next hnew =>
    refine nodup_concat h fun u hu hkey => hnew ?_
    exact any_eq_true.mpr ⟨u, hu, by simpa using hkey⟩

theorem countP_chargeRow (h : (usage.map (·.sendKey)).Nodup) (q : AllowanceUsage → Bool) :
    (chargeRow usage sendKey start time ttlMs).countP q ≤ usage.countP q + 1 := by
  unfold chargeRow
  split
  · exact countP_updateWhere_key h
  · rw [countP_append, countP_singleton]
    split <;> omega

theorem countP_chargeRow_of_not {q : AllowanceUsage → Bool}
    (h : ∀ u : AllowanceUsage, u.state = .reserved → u.periodStart = start → u.reservedAt = time →
      q u = false) :
    (chargeRow usage sendKey start time ttlMs).countP q ≤ usage.countP q := by
  unfold chargeRow
  split
  · refine countP_updateWhere_le fun u _ _ hq => ?_
    rw [h _ rfl rfl rfl] at hq
    cases hq
  · rw [countP_append, countP_singleton, h _ rfl rfl rfl]
    simp

theorem mem_chargeRow_of_ne {u : AllowanceUsage} (hu : u ∈ usage) (hne : u.sendKey ≠ sendKey) :
    u ∈ chargeRow usage sendKey start time ttlMs := by
  unfold chargeRow
  split
  · exact mem_updateWhere_of_not hu (by simpa using hne)
  · exact mem_append_left _ hu

end Charge

/-! ## The invariants -/

/-- The rows are within the limit of each period, and the usage events are those
of consumed keys, one each. -/
structure WithinPeriods (key : JsString) (s : AllowanceState) : Prop where
  keys : (s.usage.map (·.sendKey)).Nodup
  period : ∀ limit, periodLimit key s = some limit → ∀ start, usedIn s.usage start ≤ limit
  events : (s.usageEvents.map Prod.fst).Nodup
  consumed : ∀ e ∈ s.usageEvents, ∃ u ∈ s.usage, u.sendKey = e.1 ∧ u.state = .consumed

/-- The rows are within the limit of every window of twenty-four hours. -/
def WithinDays (key : JsString) (s : AllowanceState) : Prop :=
  ∀ limit, dayLimit key s = some limit → ∀ stop, s.usage.countP (inDayWindow stop) ≤ limit

theorem UsageMove.consumed_kept (h : UsageMove key s call t)
    {u : AllowanceUsage} (hu : u ∈ s.usage) (hstate : u.state = .consumed) : u ∈ t.usage := by
  have hnot : ∀ sendKey, isReserved sendKey u = false := by
    intro sendKey
    simp [isReserved, hstate]
  cases h with
  | kept usage _ => exact usage ▸ hu
  | charged _ fresh _ _ usage _ =>
    rw [usage]
    refine mem_chargeRow_of_ne hu fun hkey => ?_
    have := fresh u hu hkey
    simp [hstate, UsageState.isCounted] at this
  | consumed _ usage | released usage => exact usage ▸ mem_updateWhere_of_not hu (hnot _)

theorem countP_finish_le {usage : List AllowanceUsage} {sendKey : JsString}
    {f : AllowanceUsage → AllowanceUsage} {q : AllowanceUsage → Bool}
    (hf : ∀ u, u.state = .reserved → q (f u) = true → q u = true) :
    (updateWhere (isReserved sendKey) f usage).countP q ≤ usage.countP q := by
  refine countP_updateWhere_le fun u _ hp hq => hf u ?_ hq
  simpa [isReserved] using (Bool.and_eq_true_iff.mp hp).2

section

variable (h : UsageMove key s call t)

include h

theorem UsageMove.keys
    (hs : (s.usage.map (·.sendKey)).Nodup) : (t.usage.map (·.sendKey)).Nodup := by
  cases h with
  | kept usage _ => exact usage ▸ hs
  | charged _ _ _ _ usage _ => exact usage ▸ chargeRow_keys hs
  | consumed _ usage | released usage => exact usage ▸ nodup_updateWhere (fun _ => rfl) hs

/-- A charge counts the rows of its period under the lock, so the period stays
within the limit. -/
theorem UsageMove.period
    (hs : WithinPeriods key s) {limit : Nat} (hlimit : periodLimit key s = some limit)
    (start : Nat) : usedIn t.usage start ≤ limit := by
  have hbefore := hs.period limit hlimit start
  cases h with
  | kept usage _ => exact usage ▸ hbefore
  | @charged sendKey time ttlMs _ plan active fresh hbound _ usage _ =>
    rw [usage]
    by_cases hstart : start = plan.period.start
    · subst hstart
      have hlt := hbound limit ((activePlan_limits active).1.trans hlimit)
      exact Nat.le_trans (countP_chargeRow hs.keys _) hlt
    · refine Nat.le_trans (countP_chargeRow_of_not fun u _ hu _ => ?_) hbefore
      simp only [inPeriod, hu, Bool.and_eq_false_iff, beq_eq_false_iff_ne]
      exact .inr fun heq => hstart heq.symm
  | consumed _ usage _ =>
    rw [usage]
    refine Nat.le_trans (countP_finish_le fun u hu hq => ?_) hbefore
    simp_all [inPeriod, UsageState.isCounted]
  | released usage _ =>
    rw [usage]
    refine Nat.le_trans (countP_finish_le fun u _ hq => ?_) hbefore
    simp [inPeriod, UsageState.isCounted] at hq

theorem UsageMove.events
    (hs : WithinPeriods key s) : (t.usageEvents.map Prod.fst).Nodup ∧
      ∀ e ∈ t.usageEvents, ∃ u ∈ t.usage, u.sendKey = e.1 ∧ u.state = .consumed := by
  have hold : ∀ e ∈ s.usageEvents, ∃ u ∈ t.usage, u.sendKey = e.1 ∧ u.state = .consumed := by
    intro e he
    obtain ⟨u, hu, hkey, hstate⟩ := hs.consumed e he
    exact ⟨u, h.consumed_kept hu hstate, hkey, hstate⟩
  cases h with
  | kept _ events | charged _ _ _ _ _ events | released _ events =>
    rw [events]
    exact ⟨hs.events, hold⟩
  | @consumed _ sendKey usageEventType time _ one usage events =>
    -- the key has a reserved row, so it has no usage event yet
    obtain ⟨r, hr, hreserved⟩ := countP_pos_iff.mp (by omega : 0 < s.usage.countP
      (isReserved sendKey))
    simp only [isReserved, Bool.and_eq_true, beq_iff_eq] at hreserved
    rw [events]
    constructor
    · refine nodup_concat hs.events fun e he hsend => ?_
      obtain ⟨u, hu, hkey, hstate⟩ := hs.consumed e he
      obtain rfl := inj_on_of_nodup_map hs.keys hu hr
        (hkey.trans (hsend.trans hreserved.1.symm))
      simp [hstate] at hreserved
    · intro e he
      rcases (mem_append.mp he).imp_right mem_singleton.mp with he | rfl
      · exact hold e he
      · refine ⟨{ r with state := .consumed, finalizedAt := some time }, ?_, hreserved.1, rfl⟩
        rw [usage]
        exact mem_updateWhere_of_pos hr (by simp [isReserved, hreserved])

end

theorem step_withinPeriods (hs : WithinPeriods key s)
    (hstep : allowanceStep key s call t) : WithinPeriods key t := by
  have hmove := allowanceStep_move hstep
  obtain ⟨hevents, hconsumed⟩ := hmove.events hs
  refine ⟨hmove.keys hs.keys, fun limit hlimit start => ?_, hevents, hconsumed⟩
  exact hmove.period hs ((allowanceStep_limits hstep).1 ▸ hlimit) start

/-! ## The day window -/

/-- A row of a window, reserved no later than `time`, is in the window that ends
there. -/
theorem inDayWindow_of_le {u : AllowanceUsage} {time stop : Nat} (hle : u.reservedAt ≤ time)
    (hstop : time ≤ stop) (h : inDayWindow stop u = true) : inDayWindow time u = true := by
  simp only [inDayWindow, Bool.and_eq_true, decide_eq_true_eq] at h ⊢
  obtain ⟨⟨hcounted, hsince⟩, -⟩ := h
  exact ⟨⟨hcounted, by omega⟩, hle⟩

/-- With no row reserved in the day after `time`, a window that `time` lies in
holds only rows that a reservation at `time` counts. -/
theorem countP_window_le {usage : List AllowanceUsage} {time stop : Nat}
    (hlatest : ∀ u ∈ usage, u.state.isCounted = true →
      u.reservedAt ≤ time ∨ time + dayWindowMs ≤ u.reservedAt)
    (hstop : time ≤ stop) (hsince : stop < time + dayWindowMs) :
    usage.countP (inDayWindow stop) ≤ (dailyUsage usage time).used := by
  refine countP_mono_left fun u hu hwindow => ?_
  have hcounted : u.state.isCounted = true := by simp_all [inDayWindow]
  have hbefore : u.reservedAt ≤ stop := by simp_all [inDayWindow]
  rcases hlatest u hu hcounted with hle | hafter
  · exact inDayWindow_of_le hle hstop hwindow
  · omega

theorem UsageMove.day (h : UsageMove key s call t)
    (hkeys : (s.usage.map (·.sendKey)).Nodup) (hlatest : SeesLatest key s call)
    (hs : WithinDays key s) {limit : Nat} (hlimit : dayLimit key s = some limit) (stop : Nat) :
    t.usage.countP (inDayWindow stop) ≤ limit := by
  have hbefore := hs limit hlimit stop
  cases h with
  | kept usage _ => exact usage ▸ hbefore
  | @charged sendKey time ttlMs _ plan active fresh hperiod hbound usage _ =>
    rw [usage]
    have hrows := hlatest (by simp [hlimit]) ⟨plan, active, fresh, hperiod, hbound⟩
    by_cases hin : time ≤ stop ∧ stop < time + dayWindowMs
    · obtain ⟨hstop, hsince⟩ := hin
      have hle := countP_window_le hrows hstop hsince
      have hlt := hbound limit ((activePlan_limits active).2.trans hlimit)
      have hone : (chargeRow s.usage sendKey plan.period.start time
          (ttlMs.getD defaultReservationTtlMs)).countP (inDayWindow stop) ≤
          s.usage.countP (inDayWindow stop) + 1 := countP_chargeRow hkeys _
      omega
    · refine Nat.le_trans (countP_chargeRow_of_not fun u _ _ hu => ?_) hbefore
      simp only [inDayWindow, hu, Bool.and_eq_false_iff, decide_eq_false_iff_not]
      omega
  | consumed _ usage _ =>
    rw [usage]
    refine Nat.le_trans (countP_finish_le fun u hu hq => ?_) hbefore
    simp_all [inDayWindow, UsageState.isCounted]
  | released usage _ =>
    rw [usage]
    refine Nat.le_trans (countP_finish_le fun u _ hq => ?_) hbefore
    simp [inDayWindow, UsageState.isCounted] at hq

/-! ## Over runs -/

/-- A ledger that nobody has charged yet. -/
structure Uncharged (s : AllowanceState) : Prop where
  usage : s.usage = []
  events : s.usageEvents = []

theorem Uncharged.withinPeriods (h : Uncharged s) : WithinPeriods key s := by
  refine ⟨by simp [h.usage], fun limit _ start => ?_, by simp [h.events], by simp [h.events]⟩
  simp [h.usage, usedIn]

theorem run_consumed_kept {calls : List AllowanceCall} (hrun : Run (allowanceStep key) s calls t) :
    ∀ u ∈ s.usage, u.state = .consumed → u ∈ t.usage := by
  induction hrun with
  | nil _ => exact fun u hu _ => hu
  | cons hstep _ ih =>
    intro u hu hstate
    exact ih u ((allowanceStep_move hstep).consumed_kept hu hstate) hstate

/-- **The allowance is kept.** In every state that any order of the calls
reaches, each period is within the limit, no key is counted twice, a consumed
key stays consumed and has written at most one usage event. In every run in
which no charge finds a row reserved in the day after its own clock reading,
each window of twenty-four hours is within the day limit as well. -/
theorem allowance_kept {init : AllowanceState} (hinit : Uncharged init) :
    (∀ calls s, Run (allowanceStep key) init calls s → WithinPeriods key s ∧
      ∀ calls' t, Run (allowanceStep key) s calls' t →
        ∀ u ∈ s.usage, u.state = .consumed → u ∈ t.usage) ∧
    ∀ calls s, Run (Guarded (allowanceStep key) (SeesLatest key)) init calls s →
      WithinDays key s := by
  constructor
  · intro calls s hrun
    refine ⟨?_, fun calls' t hrun' => run_consumed_kept hrun'⟩
    exact hrun.invariant (fun _ _ _ hs hstep => step_withinPeriods hs hstep) hinit.withinPeriods
  · intro calls s hrun
    have hboth : WithinPeriods key s ∧ WithinDays key s := by
      refine hrun.invariant (I := fun s => WithinPeriods key s ∧ WithinDays key s) ?_
        ⟨hinit.withinPeriods, fun limit _ stop => by simp [hinit.usage]⟩
      rintro a call b ⟨hperiods, hdays⟩ ⟨hstep, hlatest⟩
      refine ⟨step_withinPeriods hperiods hstep, fun limit hlimit stop => ?_⟩
      exact (allowanceStep_move hstep).day hperiods.keys hlatest hdays
        ((allowanceStep_limits hstep).2 ▸ hlimit) stop
    exact hboth.2

/-- A free plan with `limit` sends a period and one a day. -/
def onePerDay (limit : Nat) : AllowanceState where
  subscription := some
    { status := .active, graceUntil := none, supportExtensions := [], periodAnchor := 0
      planKey := js "free"
      terms :=
        { commitmentMonths := none, eligibility := none
          allowances := [⟨js "sends", some limit, false, js "MONTH"⟩]
          allowanceWindows := [⟨js "sends", js "DAY", 1⟩]
          capacities := [] } }
  usage := []
  usageEvents := []
  resolvers := []

theorem onePerDay_uncharged (limit : Nat) : Uncharged (onePerDay limit) := ⟨rfl, rfl⟩

/-- Two sends a day apart, the second reserved again after a release. -/
def twoSends : List AllowanceCall :=
  [.reserve (js "a") 1000 none, .consume (js "a") (js "SENT") 1500,
    .reserve (js "b") (1000 + dayWindowMs) none, .release (js "b") (2000 + dayWindowMs),
    .reserve (js "b") (3000 + dayWindowMs) none]

theorem allowance_kept_two_sends :
    ∃ s, Run (Guarded (allowanceStep (js "sends")) (SeesLatest (js "sends"))) (onePerDay 5)
        twoSends s ∧ s.usage.length = 2 ∧
      WithinPeriods (js "sends") s ∧ WithinDays (js "sends") s := by
  obtain ⟨hall, hguarded⟩ := @allowance_kept (js "sends") _ (onePerDay_uncharged 5)
  have hrun : Run (Guarded (allowanceStep (js "sends")) (SeesLatest (js "sends"))) (onePerDay 5)
      twoSends _ :=
    .cons ⟨rfl, fun _ _ => by decide⟩ <| .cons ⟨rfl, trivial⟩ <|
      .cons ⟨rfl, fun _ _ => by decide⟩ <| .cons ⟨rfl, trivial⟩ <|
        .cons ⟨rfl, fun _ _ => by decide⟩ (.nil _)
  exact ⟨_, hrun, by decide, (hall _ _ (hrun.mono fun _ _ _ hstep => hstep.1)).1,
    hguarded _ _ hrun⟩

/-- Two callers read the clock a millisecond apart and commit in the other
order: the earlier one does not count the later one's row. -/
def crossedSends : List AllowanceCall :=
  [.reserve (js "a") 1001 none, .reserve (js "b") 1000 none]

theorem day_limit_exceeded :
    ¬ ∀ (key : JsString) (init s : AllowanceState) (calls : List AllowanceCall), Uncharged init →
        Run (allowanceStep key) init calls s → WithinPeriods key s ∧ WithinDays key s := by
  intro hclaim
  have hrun : Run (allowanceStep (js "sends")) (onePerDay 5) crossedSends _ :=
    .cons rfl (.cons rfl (.nil _))
  have hdays := (hclaim _ _ _ _ (onePerDay_uncharged 5) hrun).2 1 (by decide) 1001
  exact absurd hdays (by decide)

end AramoPlatform.Subscription
