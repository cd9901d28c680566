import AramoPlatform.Js.UtcDate

/-!
# Billing periods on the calendar

The monthly periods of a subscription over dates of any sign, as the billing
code computes them. Period `k` starts at the anchor moved by `k` calendar
months: each boundary is reached from the anchor itself, so a short month
clamps its own boundary and no later one. The number of the period is
estimated from the months alone and corrected at most once.
-/

namespace AramoPlatform.Subscription.Utc

open Js Lib

def hours (d : Date) : Int := d.timeInDay / 3600000

def minutes (d : Date) : Int := d.timeInDay / 60000 % 60

def seconds (d : Date) : Int := d.timeInDay / 1000 % 60

def milliseconds (d : Date) : Int := d.timeInDay % 1000

def addMonthsClamped (anchor : Date) (months : Int) : Option Date := do
  let m := anchor.civil.month + months
  let targetYear := anchor.civil.year + m / 12
  let targetMonth := m % 12
  let lastInTarget ← dateUTC targetYear (targetMonth + 1) 0 0 0 0 0
  let day := min anchor.civil.date lastInTarget.civil.date
  dateUTC targetYear targetMonth day (hours anchor) (minutes anchor) (seconds anchor)
    (milliseconds anchor)

/-- Either end may be an invalid date. -/
structure BillingPeriod where
  start : Option Date
  stop : Option Date
  deriving DecidableEq

/-- The months from one date to another, by the calendar alone. -/
def monthsBetween (anchor time : Date) : Int :=
  (time.civil.year - anchor.civil.year) * 12 + (time.civil.month - anchor.civil.month)

/-- The monthly period containing `time`. Before the anchor, the first period. -/
def billingPeriodAt (anchor time : Date) : BillingPeriod :=
  if time.time < anchor.time then ⟨some anchor, addMonthsClamped anchor 1⟩
  else
    let k := monthsBetween anchor time
    let k := if (addMonthsClamped anchor k).any (fun start => time.time < start.time) then k - 1
      else k
    ⟨addMonthsClamped anchor k, addMonthsClamped anchor (k + 1)⟩

/-! ## One boundary -/

theorem clock (d : Date) :
    hours d * 3600000 + minutes d * 60000 + seconds d * 1000 + milliseconds d = d.timeInDay := by
  have := d.timeInDay_bounds
  unfold hours minutes seconds milliseconds msPerDay at *
  omega

theorem dateUTC_civil {year month date time : Int} (hyear : 1000 ≤ year ∧ year ≤ 9002)
    (hmonth : 0 ≤ month ∧ month ≤ 11) (hdate : 1 ≤ date ∧ date ≤ daysInMonth year month)
    (htime : 0 ≤ time ∧ time < msPerDay) :
    ∃ d : Date, timeClip (dayNumber year month date * msPerDay + time) = some d ∧
      d.civil = ⟨year, month, date⟩ ∧ d.timeInDay = time := by
  have hlast := daysInMonth_bounds year month
  have hday : -400000 ≤ dayNumber year month date ∧ dayNumber year month date ≤ 2600000 := by
    unfold dayNumber daysToMonth marchDays epochDays
    dsimp only
    split <;> omega
  unfold msPerDay at *
  have hvalid : -maxTime ≤ dayNumber year month date * 86400000 + time ∧
      dayNumber year month date * 86400000 + time ≤ maxTime := by
    unfold maxTime
    omega
  refine ⟨⟨_, hvalid⟩, dif_pos hvalid, ?_, ?_⟩
  · have hdiv : (dayNumber year month date * 86400000 + time) / 86400000 =
        dayNumber year month date := by omega
    show Lib.civil ((dayNumber year month date * 86400000 + time) / 86400000) = _
    rw [hdiv]
    exact civil_dayNumber hmonth hdate
  · show (dayNumber year month date * 86400000 + time) % 86400000 = time
    omega

/-- A date is the anchor moved by so many months: in that month, on the day of
the anchor or the last one there is, at its time of day. -/
structure MovedBy (anchor : Date) (months : Int) (d : Date) : Prop where
  month : d.civil.monthIndex = anchor.civil.monthIndex + months
  date : d.civil.date = min anchor.civil.date (daysInMonth d.civil.year d.civil.month)
  time : d.timeInDay = anchor.timeInDay

theorem addMonthsClamped_spec {anchor : Date} {months : Int}
    (hlo : 12 * 1000 ≤ anchor.civil.monthIndex + months)
    (hhi : anchor.civil.monthIndex + months < 12 * 9003) :
    ∃ d, addMonthsClamped anchor months = some d ∧ MovedBy anchor months d := by
  obtain ⟨year, hyear⟩ :
      ∃ year, anchor.civil.year + (anchor.civil.month + months) / 12 = year := ⟨_, rfl⟩
  obtain ⟨month, hmonth⟩ : ∃ month, (anchor.civil.month + months) % 12 = month := ⟨_, rfl⟩
  have hindex : 12 * year + month = anchor.civil.monthIndex + months := by
    unfold CivilDate.monthIndex
    omega
  have hmonths : 0 ≤ month ∧ month ≤ 11 := by omega
  have hyears : 1000 ≤ year ∧ year ≤ 9002 := by omega
  have hold : ¬ (0 ≤ year ∧ year ≤ 99) := by omega
  have hlength := daysInMonth_bounds year month
  -- day zero of the next month is the last of this one
  obtain ⟨last, hlast, hcivil, -⟩ := dateUTC_civil hyears hmonths
    (show 1 ≤ daysInMonth year month ∧ daysInMonth year month ≤ daysInMonth year month by omega)
    (show 0 ≤ (0 : Int) ∧ (0 : Int) < msPerDay by decide)
  have hzero : dayNumber year (month + 1) 0 = dayNumber year month (daysInMonth year month) := by
    rw [dayNumber_succ_month hmonths, Int.zero_add]
  obtain ⟨hone, -⟩ : 1 ≤ anchor.civil.date ∧ _ := civil_date_bounds anchor.day
  obtain ⟨d, hd, hdcivil, hdtime⟩ := dateUTC_civil hyears hmonths
    (show 1 ≤ min anchor.civil.date (daysInMonth year month) ∧ _ by omega) anchor.timeInDay_bounds
  refine ⟨d, ?_, ?_, ?_, hdtime⟩
  · unfold addMonthsClamped dateUTC
    rw [Int.add_zero] at hlast
    simp [hyear, hmonth, hold, hzero, clock, hlast, hcivil, hd]
  · rw [hdcivil, ← hindex]
    rfl
  · rw [hdcivil]

theorem MovedBy.refl (anchor : Date) : MovedBy anchor 0 anchor := by
  have hlast : anchor.civil.date ≤ _ := (civil_date_bounds anchor.day).2
  constructor
  · omega
  · exact (min_eq_left hlast).symm
  · rfl

theorem date_lt_of_monthIndex_lt {d d' : Date} (h : d.civil.monthIndex < d'.civil.monthIndex) :
    d.time < d'.time := by
  have hday : d.day < d'.day := lt_of_monthIndex_lt h
  have := d.timeInDay_bounds
  have := d'.timeInDay_bounds
  have := d.day_timeInDay
  have := d'.day_timeInDay
  unfold msPerDay at *
  omega

theorem MovedBy.lt {anchor d d' : Date} {i j : Int} (hd : MovedBy anchor i d)
    (hd' : MovedBy anchor j d') (h : i < j) : d.time < d'.time := by
  have := hd.month
  have := hd'.month
  exact date_lt_of_monthIndex_lt (by omega)

theorem MovedBy.unique {anchor d d' : Date} {months : Int} (hd : MovedBy anchor months d)
    (hd' : MovedBy anchor months d') : d = d' := by
  have hindex : d.civil.monthIndex = d'.civil.monthIndex := by rw [hd.month, hd'.month]
  have hm : 0 ≤ d.civil.month ∧ d.civil.month ≤ 11 := civil_month_bounds d.day
  have hm' : 0 ≤ d'.civil.month ∧ d'.civil.month ≤ 11 := civil_month_bounds d'.day
  unfold CivilDate.monthIndex at hindex
  have hyear : d.civil.year = d'.civil.year := by omega
  have hmonth : d.civil.month = d'.civil.month := by omega
  have hdate : d.civil.date = d'.civil.date := by rw [hd.date, hd'.date, hyear, hmonth]
  have hself : dayNumber d.civil.year d.civil.month d.civil.date = d.day :=
    dayNumber_civil_self d.day
  have hself' : dayNumber d'.civil.year d'.civil.month d'.civil.date = d'.day :=
    dayNumber_civil_self d'.day
  rw [hyear, hmonth, hdate, hself'] at hself
  have htime : d.time = d'.time := by
    rw [d.day_timeInDay, d'.day_timeInDay, hself, hd.time, hd'.time]
  cases d
  cases d'
  simpa using htime

/-! ## The period of an instant -/

theorem monthsBetween_eq (anchor time : Date) :
    monthsBetween anchor time = time.civil.monthIndex - anchor.civil.monthIndex := by
  unfold monthsBetween CivilDate.monthIndex
  omega

theorem monthIndex_le {anchor time : Date} (h : anchor.time ≤ time.time) :
    anchor.civil.monthIndex ≤ time.civil.monthIndex := by
  by_cases hlt : time.civil.monthIndex < anchor.civil.monthIndex
  · have := date_lt_of_monthIndex_lt hlt
    omega
  · omega

/-- The period from the `k`-th boundary of an anchor to the next. -/
structure IsPeriod (anchor : Date) (k : Int) (p : BillingPeriod) (start stop : Date) : Prop where
  ends : p = ⟨some start, some stop⟩
  start_moved : MovedBy anchor k start
  stop_moved : MovedBy anchor (k + 1) stop

/-- One correction of the estimate is enough: the estimated boundary lies in
the month of the instant, so the one before it is earlier than the instant and
the one after it later. -/
theorem billingPeriodAt_spec {anchor time : Date} (hanchor : 1000 ≤ anchor.civil.year)
    (hle : anchor.time ≤ time.time) (hyear : time.civil.year ≤ 9001) :
    ∃ (k : Int) (start stop : Date), 0 ≤ k ∧
      IsPeriod anchor k (billingPeriodAt anchor time) start stop ∧
      start.time ≤ time.time ∧ time.time < stop.time := by
  have hmonths := monthIndex_le hle
  have hk := monthsBetween_eq anchor time
  obtain ⟨k, hkeq⟩ : ∃ k, monthsBetween anchor time = k := ⟨_, rfl⟩
  rw [hkeq] at hk
  obtain ⟨hm, -⟩ : 0 ≤ anchor.civil.month ∧ _ := civil_month_bounds anchor.day
  obtain ⟨-, hm'⟩ : _ ∧ time.civil.month ≤ 11 := civil_month_bounds time.day
  have hlo : 12 * 1000 ≤ anchor.civil.monthIndex := by
    unfold CivilDate.monthIndex
    omega
  have hhi : time.civil.monthIndex < 12 * 9002 := by
    unfold CivilDate.monthIndex
    omega
  have hnot : ¬ time.time < anchor.time := by omega
  obtain ⟨mid, hmid, hmoved⟩ := addMonthsClamped_spec (show 12 * 1000 ≤ anchor.civil.monthIndex +
    k by omega) (by omega)
  have hsame := hmoved.month
  unfold billingPeriodAt
  rw [if_neg hnot]
  dsimp only
  rw [hkeq, hmid, Option.any_some]
  by_cases hlate : time.time < mid.time
  · -- the anchor itself is not after the instant, so the estimate was not zero
    have hpos : k ≠ 0 := by
      rintro rfl
      rw [hmoved.unique (MovedBy.refl anchor)] at hlate
      exact hnot hlate
    obtain ⟨start, hstart, hstarted⟩ :=
      addMonthsClamped_spec (show 12 * 1000 ≤ anchor.civil.monthIndex + (k - 1) by omega) (by omega)
    have hbefore := hstarted.month
    refine ⟨k - 1, start, mid, by omega, ⟨?_, hstarted, ?_⟩, ?_, hlate⟩
    · simp [hlate, hstart, hmid]
    · rwa [Int.sub_add_cancel]
    · have := date_lt_of_monthIndex_lt (show start.civil.monthIndex <
        time.civil.monthIndex by omega)
      omega
  · obtain ⟨stop, hstop, hstopped⟩ :=
      addMonthsClamped_spec (show 12 * 1000 ≤ anchor.civil.monthIndex + (k + 1) by omega) (by omega)
    have hafter := hstopped.month
    refine ⟨k, mid, stop, by omega, ⟨?_, hmoved, hstopped⟩, by omega, ?_⟩
    · simp [hlate, hstop, hmid]
    · exact date_lt_of_monthIndex_lt (by omega)

theorem IsPeriod.before {anchor : Date} {i j : Int} {p p' : BillingPeriod}
    {start stop start' stop' : Date} (hp : IsPeriod anchor i p start stop)
    (hp' : IsPeriod anchor j p' start' stop') (h : i < j) : stop.time ≤ start'.time := by
  by_cases hnext : i + 1 = j
  · subst hnext
    rw [hp.stop_moved.unique hp'.start_moved]
  · have := hp.stop_moved.lt hp'.start_moved (by omega)
    omega

theorem MovedBy.anchor_le {anchor d : Date} {k : Int} (hd : MovedBy anchor k d) (hk : 0 ≤ k) :
    anchor.time ≤ d.time := by
  by_cases hzero : k = 0
  · subst hzero
    rw [hd.unique (MovedBy.refl anchor)]
  · have := (MovedBy.refl anchor).lt hd (by omega)
    omega

theorem billingPeriodAt_boundary {anchor d : Date} {k : Int} (hanchor : 1000 ≤ anchor.civil.year)
    (hd : MovedBy anchor k d) (hk : 0 ≤ k) (hyear : d.civil.year ≤ 9001) :
    ∃ stop, IsPeriod anchor k (billingPeriodAt anchor d) d stop := by
  obtain ⟨j, start, stop, -, hperiod, hge, hlt⟩ :=
    billingPeriodAt_spec hanchor (hd.anchor_le hk) hyear
  have hjk : j = k := by
    rcases Int.lt_trichotomy j k with h | h | h
    · by_cases hnext : j + 1 = k
      · subst hnext
        rw [hd.unique hperiod.stop_moved] at hlt
        omega
      · have := hperiod.stop_moved.lt hd (by omega)
        omega
    · exact h
    · have := hd.lt hperiod.start_moved h
      omega
  subst hjk
  rw [hperiod.start_moved.unique hd] at hperiod
  exact ⟨stop, hperiod⟩

theorem year_le_of_monthIndex {d : Date} {year : Int}
    (h : d.civil.monthIndex < 12 * (year + 1)) : d.civil.year ≤ year := by
  obtain ⟨hm, -⟩ : 0 ≤ d.civil.month ∧ _ := civil_month_bounds d.day
  unfold CivilDate.monthIndex at h
  omega

/-- **Billing periods tile time.** An instant at or after the anchor lies in its
period, whose ends are the anchor moved by whole months; the period is that of
its own start, the end of it starts the next, and another instant has the same
period or one that does not meet it. -/
theorem billingPeriodAt_tiles (anchor time : Date) (hanchor : 1000 ≤ anchor.civil.year)
    (hle : anchor.time ≤ time.time) (hyear : time.civil.year ≤ 9000) :
    ∃ (k : Nat) (start stop : Date),
      billingPeriodAt anchor time = ⟨some start, some stop⟩ ∧
      start.time ≤ time.time ∧ time.time < stop.time ∧
      MovedBy anchor k start ∧ MovedBy anchor (k + 1) stop ∧
      billingPeriodAt anchor start = billingPeriodAt anchor time ∧
      (∃ next, billingPeriodAt anchor stop = ⟨some stop, some next⟩) ∧
      ∀ other : Date, anchor.time ≤ other.time → other.civil.year ≤ 9000 →
        ∃ start' stop', billingPeriodAt anchor other = ⟨some start', some stop'⟩ ∧
          (start' = start ∧ stop' = stop ∨
            stop'.time ≤ start.time ∨ stop.time ≤ start'.time) := by
  obtain ⟨k, start, stop, hk, hperiod, hge, hlt⟩ := billingPeriodAt_spec hanchor hle (by omega)
  obtain ⟨n, rfl⟩ := Int.eq_ofNat_of_zero_le hk
  obtain ⟨-, hm⟩ : _ ∧ time.civil.month ≤ 11 := civil_month_bounds time.day
  have hlast : time.civil.monthIndex < 12 * (9000 + 1) := by
    unfold CivilDate.monthIndex
    omega
  have hmonth := monthIndex_le hge
  have hstarted := hperiod.start_moved.month
  have hstopped := hperiod.stop_moved.month
  obtain ⟨stop', hself⟩ := billingPeriodAt_boundary hanchor hperiod.start_moved hk
    (year_le_of_monthIndex (by omega))
  obtain ⟨next, hnext⟩ := billingPeriodAt_boundary hanchor hperiod.stop_moved (by omega)
    (year_le_of_monthIndex (by omega))
  refine ⟨n, start, stop, hperiod.ends, hge, hlt, hperiod.start_moved, hperiod.stop_moved, ?_,
    ⟨next, hnext.ends⟩, ?_⟩
  · rw [hself.ends, hperiod.ends, hself.stop_moved.unique hperiod.stop_moved]
  · intro other hother hotherYear
    obtain ⟨j, start', stop', -, hperiod', -, -⟩ :=
      billingPeriodAt_spec hanchor hother (by omega)
    refine ⟨start', stop', hperiod'.ends, ?_⟩
    rcases Int.lt_trichotomy j n with h | rfl | h
    · exact .inr (.inl (hperiod'.before hperiod h))
    · exact .inl ⟨hperiod'.start_moved.unique hperiod.start_moved,
        hperiod'.stop_moved.unique hperiod.stop_moved⟩
    · exact .inr (.inr (hperiod.before hperiod' h))

/-- On 31 January 2024 a subscription starts; 10 March is in the period from
29 February to 31 March. -/
theorem billingPeriodAt_tiles_leapDay :
    ∃ (k : Nat) (start stop : Date),
      billingPeriodAt ⟨1706694245006, by decide⟩ ⟨1710000000000, by decide⟩ =
        ⟨some start, some stop⟩ ∧
      start.time ≤ 1710000000000 ∧ 1710000000000 < stop.time ∧
      MovedBy ⟨1706694245006, by decide⟩ k start ∧
      MovedBy ⟨1706694245006, by decide⟩ (k + 1) stop := by
  obtain ⟨k, start, stop, hends, hge, hlt, hstart, hstop, -⟩ := billingPeriodAt_tiles
    ⟨1706694245006, by decide⟩ ⟨1710000000000, by decide⟩ (by decide) (by decide) (by decide)
  exact ⟨k, start, stop, hends, hge, hlt, hstart, hstop⟩

example : billingPeriodAt ⟨1706694245006, by decide⟩ ⟨1710000000000, by decide⟩ =
    ⟨some ⟨1709199845006, by decide⟩, some ⟨1711878245006, by decide⟩⟩ := by
  decide +kernel

end AramoPlatform.Subscription.Utc
