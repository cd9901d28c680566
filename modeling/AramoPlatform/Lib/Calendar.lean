import Mathlib.Tactic.IntervalCases
import Mathlib.Tactic.Ring
import Mathlib.Algebra.Order.Ring.Int

/-!
# The proleptic Gregorian calendar

Days are numbered from 1970-01-01, before it with negative numbers. Years are
counted from March inside, so that a leap day is the last of its year: a day is
the `k`-th of the year from 1 March of year `p`, and its month and its date
depend on `k` alone. Months are numbered from zero.
-/

namespace AramoPlatform.Lib

/-- A leap year has a 29 February. -/
def isLeap (y : Int) : Bool := y % 4 == 0 && (y % 100 != 0 || y % 400 == 0)

theorem isLeap_iff {y : Int} : isLeap y = true ↔ y % 4 = 0 ∧ (y % 100 ≠ 0 ∨ y % 400 = 0) := by
  simp [isLeap]

/-- The days from 1 March of year 0 to 1 March of year `y`. -/
def marchDays (y : Int) : Int := 365 * y + y / 4 - y / 100 + y / 400

theorem marchDays_succ (y : Int) :
    marchDays (y + 1) = marchDays y + 365 + if isLeap (y + 1) then 1 else 0 := by
  unfold marchDays
  by_cases h : isLeap (y + 1) = true
  · rw [if_pos h]
    rw [isLeap_iff] at h
    omega
  · rw [if_neg h]
    rw [isLeap_iff] at h
    omega

/-- From 1 March to 1 March there are 365 days, and one more over a leap day. -/
theorem marchDays_gap (y : Int) :
    marchDays y + 365 ≤ marchDays (y + 1) ∧ marchDays (y + 1) ≤ marchDays y + 366 := by
  rw [marchDays_succ]
  split <;> omega

theorem marchDays_lt {a b : Int} (h : a < b) : marchDays (a + 1) ≤ marchDays b := by
  unfold marchDays
  omega

theorem isLeap_next {y : Int} (h : isLeap (y + 1) = true) : isLeap y = false ∧
    isLeap (y + 2) = false := by
  rw [← Bool.not_eq_true, ← Bool.not_eq_true, isLeap_iff, isLeap_iff]
  rw [isLeap_iff] at h
  omega

/-- The year from March that holds the `w`-th day after 1 March of year 0. -/
def marchYear (w : Int) : Int :=
  let y := w * 400 / 146097
  if marchDays (y + 1) ≤ w then y + 1 else if marchDays y ≤ w then y else y - 1

theorem marchYear_spec (w : Int) :
    marchDays (marchYear w) ≤ w ∧ w < marchDays (marchYear w + 1) := by
  unfold marchYear
  dsimp only
  split
  next h =>
    refine ⟨h, ?_⟩
    unfold marchDays
    omega
  next h =>
    split
    next h' => exact ⟨h', by omega⟩
    next h' =>
      refine ⟨?_, by rw [Int.sub_add_cancel]; omega⟩
      unfold marchDays at h' ⊢
      omega

/-- The days from 1 March of year 0 to 1 January 1970. -/
def epochDays : Int := 719468

/-- The year from March of a day, and how many days of that year went before it. -/
def yearOf (z : Int) : Int := marchYear (z + epochDays)

def dayOfYear (z : Int) : Int := z + epochDays - marchDays (yearOf z)

variable (z : Int)

theorem yearOf_spec :
    marchDays (yearOf z) ≤ z + epochDays ∧ z + epochDays < marchDays (yearOf z + 1) :=
  marchYear_spec _

theorem marchDays_yearOf : marchDays (yearOf z) + dayOfYear z = z + epochDays := by
  unfold dayOfYear
  omega

theorem dayOfYear_bounds :
    0 ≤ dayOfYear z ∧ dayOfYear z ≤ 365 ∧ (dayOfYear z = 365 → isLeap (yearOf z + 1) = true) := by
  obtain ⟨hle, hlt⟩ := yearOf_spec z
  rw [marchDays_succ] at hlt
  unfold dayOfYear
  split at hlt
  next h => exact ⟨by omega, by omega, fun _ => h⟩
  next => exact ⟨by omega, by omega, by omega⟩

theorem yearOf_unique {z p k : Int} (hz : marchDays p + k = z + epochDays) (hk : 0 ≤ k)
    (hlt : k < 365 ∨ k = 365 ∧ isLeap (p + 1) = true) : yearOf z = p ∧ dayOfYear z = k := by
  obtain ⟨hle, hlt'⟩ := yearOf_spec z
  have hnext : marchDays p + k < marchDays (p + 1) := by
    rw [marchDays_succ]
    rcases hlt with h | ⟨h, hleap⟩
    · split <;> omega
    · rw [if_pos hleap]
      omega
  have heq : yearOf z = p := by
    rcases Int.lt_trichotomy (yearOf z) p with h | h | h
    · have := marchDays_lt h
      omega
    · exact h
    · have := marchDays_lt h
      omega
  refine ⟨heq, ?_⟩
  unfold dayOfYear
  rw [heq]
  omega

/-! ## Months and dates -/

structure CivilDate where
  year : Int
  /-- From 0 to 11. -/
  month : Int
  /-- From 1. -/
  date : Int
  deriving DecidableEq

/-- The days of the year from March before the month. -/
def daysToMonth (month : Int) : Int := (153 * ((month + 10) % 12) + 2) / 5

/-- The date of a day. -/
def civil (z : Int) : CivilDate :=
  let k := dayOfYear z
  let m := (5 * k + 2) / 153
  { year := if m < 10 then yearOf z else yearOf z + 1
    month := if m < 10 then m + 2 else m - 10
    date := k - (153 * m + 2) / 5 + 1 }

/-- The number of a day; a month out of range counts into another year, and a
date out of range into another month. -/
def dayNumber (year month date : Int) : Int :=
  let y := year + month / 12
  let m := month % 12
  marchDays (if m < 2 then y - 1 else y) + daysToMonth m + (date - 1) - epochDays

theorem civil_month_bounds : 0 ≤ (civil z).month ∧ (civil z).month ≤ 11 := by
  obtain ⟨hle, hlt, -⟩ := dayOfYear_bounds z
  unfold civil
  dsimp only
  split <;> omega

theorem dayNumber_civil (z n : Int) :
    dayNumber ((civil z).year + n) (civil z).month (civil z).date =
      marchDays (yearOf z + n) + dayOfYear z - epochDays := by
  obtain ⟨hle, hlt, -⟩ := dayOfYear_bounds z
  have hmonth : 0 ≤ (5 * dayOfYear z + 2) / 153 ∧ (5 * dayOfYear z + 2) / 153 ≤ 11 := by omega
  unfold dayNumber civil daysToMonth
  dsimp only
  generalize hm : (5 * dayOfYear z + 2) / 153 = m at hmonth ⊢
  by_cases hjan : m < 10
  · have hyear : yearOf z + n + (m + 2) / 12 = yearOf z + n := by omega
    have hmod : (m + 2) % 12 = m + 2 := by omega
    have hto : (m + 2 + 10) % 12 = m := by omega
    rw [if_pos hjan, if_pos hjan, hyear, hmod, if_neg (by omega), hto]
    omega
  · have hyear : yearOf z + 1 + n + (m - 10) / 12 - 1 = yearOf z + n := by omega
    have hmod : (m - 10) % 12 = m - 10 := by omega
    have hto : (m - 10 + 10) % 12 = m := by omega
    rw [if_neg hjan, if_neg hjan, hmod, if_pos (by omega), hyear, hto]
    omega

/-- **A date has one number.** -/
theorem dayNumber_civil_self :
    dayNumber (civil z).year (civil z).month (civil z).date = z := by
  have h := dayNumber_civil z 0
  rw [Int.add_zero, Int.add_zero, marchDays_yearOf] at h
  omega

theorem dayNumber_years (year month date n : Int) :
    dayNumber year (month + 12 * n) date = dayNumber (year + n) month date := by
  have hdiv : year + (month + 12 * n) / 12 = year + n + month / 12 := by omega
  have hmod : (month + 12 * n) % 12 = month % 12 := by omega
  unfold dayNumber
  dsimp only
  rw [hdiv, hmod]

theorem dayNumber_date (year month date n : Int) :
    dayNumber year month (date + n) = dayNumber year month date + n := by
  unfold dayNumber
  dsimp only
  omega

theorem civil_of_dayOfYear :
    ∃ m, (5 * dayOfYear z + 2) / 153 = m ∧ 0 ≤ m ∧ m ≤ 11 ∧ 0 ≤ dayOfYear z ∧ dayOfYear z ≤ 365 ∧
      civil z = ⟨if m < 10 then yearOf z else yearOf z + 1, if m < 10 then m + 2 else m - 10,
        dayOfYear z - (153 * m + 2) / 5 + 1⟩ := by
  obtain ⟨hle, hlt, -⟩ := dayOfYear_bounds z
  exact ⟨_, rfl, by omega, by omega, hle, hlt, rfl⟩

theorem civil_leapDay {z : Int} :
    dayOfYear z = 365 ↔ (civil z).month = 1 ∧ (civil z).date = 29 := by
  obtain ⟨m, hm, hlo, hhi, hle, hlt, hcivil⟩ := civil_of_dayOfYear z
  rw [hcivil]
  constructor
  · intro h
    have : m = 11 := by omega
    subst this
    simp [h]
  · rintro ⟨hfeb, hdate⟩
    dsimp only at hfeb hdate
    have : m = 11 := by
      split at hfeb <;> omega
    subst this
    simp at hdate
    omega

theorem civil_firstDay {z : Int} :
    dayOfYear z = 0 ↔ (civil z).month = 2 ∧ (civil z).date = 1 := by
  obtain ⟨m, hm, hlo, hhi, hle, hlt, hcivil⟩ := civil_of_dayOfYear z
  rw [hcivil]
  constructor
  · intro h
    have : m = 0 := by omega
    subst this
    simp [h]
  · rintro ⟨hmar, hdate⟩
    dsimp only at hmar hdate
    have : m = 0 := by
      split at hmar <;> omega
    subst this
    simp at hdate
    omega

theorem civil_year {z : Int} :
    (civil z).year = if (civil z).month < 2 then yearOf z + 1 else yearOf z := by
  obtain ⟨m, hm, hlo, hhi, hle, hlt, hcivil⟩ := civil_of_dayOfYear z
  rw [hcivil]
  by_cases hjan : m < 10
  · have : ¬ m + 2 < 2 := by omega
    simp [hjan, this]
  · have : m - 10 < 2 := by omega
    simp [hjan, this]

/-! ## The length of a month -/

def daysInMonth (year month : Int) : Int :=
  if month = 1 then if isLeap year then 29 else 28
  else if month = 3 ∨ month = 5 ∨ month = 8 ∨ month = 10 then 30
  else 31

theorem civil_date_of_year {z : Int} (h : dayOfYear z ≠ 365) (year : Int) :
    (civil z).date ≤ daysInMonth year (civil z).month := by
  obtain ⟨m, hm, hlo, hhi, hle, hlt, hcivil⟩ := civil_of_dayOfYear z
  rw [hcivil]
  dsimp only
  interval_cases m <;> simp [daysInMonth] <;> (try split) <;> omega

theorem civil_date_bounds :
    1 ≤ (civil z).date ∧ (civil z).date ≤ daysInMonth (civil z).year (civil z).month := by
  obtain ⟨hle, hlt, hleap⟩ := dayOfYear_bounds z
  constructor
  · unfold civil
    dsimp only
    omega
  · by_cases hlast : dayOfYear z = 365
    · obtain ⟨hmonth, hdate⟩ := civil_leapDay.mp hlast
      have hyear : (civil z).year = yearOf z + 1 := by rw [civil_year, hmonth, if_pos (by omega)]
      simp [hmonth, hdate, hyear, daysInMonth, hleap hlast]
    · exact civil_date_of_year hlast _

theorem civil_dayNumber {year month date : Int} (hmonth : 0 ≤ month ∧ month ≤ 11)
    (hdate : 1 ≤ date ∧ date ≤ daysInMonth year month) :
    civil (dayNumber year month date) = ⟨year, month, date⟩ := by
  obtain ⟨hlo, hhi⟩ := hmonth
  obtain ⟨hone, hlast⟩ := hdate
  have hdiv : year + month / 12 = year := by omega
  have hmod : month % 12 = month := by omega
  obtain ⟨p, hp⟩ : ∃ p, (if month < 2 then year - 1 else year) = p := ⟨_, rfl⟩
  have hnumber : marchDays p + (daysToMonth month + (date - 1)) =
      dayNumber year month date + epochDays := by
    unfold dayNumber
    dsimp only
    rw [hdiv, hmod, hp]
    omega
  -- the place in the year from March, and that its month is the given one
  have hplace : 0 ≤ daysToMonth month + (date - 1) ∧
      (daysToMonth month + (date - 1) < 365 ∨
        daysToMonth month + (date - 1) = 365 ∧ isLeap (p + 1) = true) ∧
      (5 * (daysToMonth month + (date - 1)) + 2) / 153 = (month + 10) % 12 := by
    subst hp
    unfold daysInMonth at hlast
    unfold daysToMonth
    by_cases hfeb : month = 1
    · subst hfeb
      rw [if_pos rfl] at hlast
      by_cases hleap : isLeap year = true
      · rw [if_pos hleap] at hlast
        simp [hleap]
        omega
      · rw [if_neg hleap] at hlast
        simp [hleap]
        omega
    · rw [if_neg hfeb] at hlast
      interval_cases month <;> simp at hlast ⊢ <;> omega
  obtain ⟨hplace, hyear, hm⟩ := hplace
  obtain ⟨hp', hk⟩ := yearOf_unique hnumber hplace hyear
  obtain ⟨m, hm', -, -, -, -, hcivil⟩ := civil_of_dayOfYear (dayNumber year month date)
  rw [hcivil, ← hm', hp', hk, hm, ← hp]
  unfold daysToMonth
  by_cases hjan : month < 2
  · have hten : (month + 10) % 12 = month + 10 := by omega
    have hno : ¬ month + 10 < 10 := by omega
    rw [hten, if_neg hno, if_neg hno, if_pos hjan]
    congr 1 <;> omega
  · have hten : (month + 10) % 12 = month - 2 := by omega
    have hyes : month - 2 < 10 := by omega
    rw [hten, if_pos hyes, if_pos hyes, if_neg hjan]
    congr 1 <;> omega

theorem dayNumber_succ_month {year month : Int} (hmonth : 0 ≤ month ∧ month ≤ 11) (date : Int) :
    dayNumber year (month + 1) date = dayNumber year month (date + daysInMonth year month) := by
  obtain ⟨hlo, hhi⟩ := hmonth
  have hleap := marchDays_succ (year - 1)
  rw [Int.sub_add_cancel] at hleap
  by_cases hfeb : month = 1
  · subst hfeb
    have hmarch : dayNumber year (1 + 1) date = marchDays year + (date - 1) - epochDays := by
      simp [dayNumber, daysToMonth]
    have hfebruary : ∀ d, dayNumber year 1 d = marchDays (year - 1) + 337 +
      (d - 1) - epochDays := by
      simp [dayNumber, daysToMonth]
    rw [hmarch, hfebruary, hleap, daysInMonth, if_pos rfl]
    split <;> omega
  · simp only [dayNumber, daysToMonth, daysInMonth, if_neg hfeb]
    interval_cases month <;> simp at hfeb ⊢ <;> omega

theorem daysInMonth_bounds (year month : Int) :
    28 ≤ daysInMonth year month ∧ daysInMonth year month ≤ 31 := by
  unfold daysInMonth
  split
  · split <;> omega
  · split <;> omega

/-! ## Months in a row -/

/-- The months from January of year 0. -/
def CivilDate.monthIndex (c : CivilDate) : Int := 12 * c.year + c.month

/-- The first day of a month. -/
def monthStart (n : Int) : Int := dayNumber (n / 12) (n % 12) 1

theorem monthStart_succ (n : Int) :
    monthStart (n + 1) = monthStart n + daysInMonth (n / 12) (n % 12) := by
  have hnext : monthStart (n + 1) = dayNumber (n / 12) (n % 12 + 1) 1 := by
    have hdiv : (n + 1) / 12 + (n + 1) % 12 / 12 = n / 12 + (n % 12 + 1) / 12 := by omega
    have hmod : (n + 1) % 12 % 12 = (n % 12 + 1) % 12 := by omega
    unfold monthStart dayNumber
    dsimp only
    rw [hdiv, hmod]
  rw [hnext, dayNumber_succ_month (by omega), dayNumber_date]
  rfl

theorem monthStart_lt {n n' : Int} (h : n < n') : monthStart n < monthStart n' := by
  obtain ⟨j, rfl⟩ : ∃ j : Nat, n' = n + 1 + j := ⟨(n' - n - 1).toNat, by omega⟩
  clear h
  induction j with
  | zero =>
    have := daysInMonth_bounds (n / 12) (n % 12)
    have := monthStart_succ n
    simp
    omega
  | succ j ih =>
    have := daysInMonth_bounds ((n + 1 + j) / 12) ((n + 1 + j) % 12)
    have hsucc := monthStart_succ (n + 1 + j)
    have hcast : n + 1 + ((j + 1 : Nat) : Int) = n + 1 + j + 1 := by omega
    rw [hcast]
    omega

theorem monthStart_civil :
    monthStart (civil z).monthIndex ≤ z ∧ z < monthStart ((civil z).monthIndex + 1) := by
  obtain ⟨hlo, hhi⟩ := civil_month_bounds z
  obtain ⟨hone, hlast⟩ := civil_date_bounds z
  have hdiv : (civil z).monthIndex / 12 = (civil z).year := by
    unfold CivilDate.monthIndex
    omega
  have hmod : (civil z).monthIndex % 12 = (civil z).month := by
    unfold CivilDate.monthIndex
    omega
  have hself := dayNumber_civil_self z
  have hdate := dayNumber_date (civil z).year (civil z).month 1 ((civil z).date - 1)
  rw [show 1 + ((civil z).date - 1) = (civil z).date by omega, hself] at hdate
  rw [monthStart_succ, hdiv, hmod, monthStart, hdiv, hmod]
  omega

theorem lt_of_monthIndex_lt {z z' : Int} (h : (civil z).monthIndex < (civil z').monthIndex) :
    z < z' := by
  have hz := (monthStart_civil z).2
  have hz' := (monthStart_civil z').1
  rcases Int.lt_or_eq_of_le (show (civil z).monthIndex + 1 ≤ (civil z').monthIndex by omega) with
    hlt | heq
  · have := monthStart_lt hlt
    omega
  · rw [heq] at hz
    omega

end AramoPlatform.Lib
