import AramoPlatform.Js.Date
import AramoPlatform.Lib.Calendar

/-!
# Dates in UTC

A `Date` that is valid is a number of milliseconds from the epoch, at most
8.64e15 either way. The setters compute with days and may leave the range; the
date is then invalid, and no number compares with its time.
-/

namespace AramoPlatform.Js

open Lib

def msPerDay : Int := 86400000

/-- The last time of a valid date. -/
def maxTime : Int := 8640000000000000

structure Date where
  time : Int
  valid : -maxTime ≤ time ∧ time ≤ maxTime
  deriving DecidableEq

def timeClip (time : Int) : Option Date :=
  if valid : -maxTime ≤ time ∧ time ≤ maxTime then some ⟨time, valid⟩ else none

/-- `new Date(Date.UTC(…))`. A year from 0 to 99 is of the twentieth century. -/
def dateUTC (year month date hours minutes seconds milliseconds : Int) : Option Date :=
  let year := if 0 ≤ year ∧ year ≤ 99 then 1900 + year else year
  timeClip (dayNumber year month date * msPerDay +
    (hours * 3600000 + minutes * 60000 + seconds * 1000 + milliseconds))

namespace Date

/-- `Day`: the days from the epoch. -/
def day (d : Date) : Int := d.time / msPerDay

/-- `TimeWithinDay`. -/
def timeInDay (d : Date) : Int := d.time % msPerDay

/-- Year, month and date. -/
def civil (d : Date) : CivilDate := Lib.civil d.day

def getMonth (d : Date) : Int := d.civil.month

/-- `setMonth` keeps the year, the date and the time of day; what the month has
too few days for rolls over into the next. -/
def setMonth (d : Date) (month : Int) : Option Date :=
  timeClip (dayNumber d.civil.year month d.civil.date * msPerDay + d.timeInDay)

def getDate (d : Date) : Int := d.civil.date

/-- `setUTCDate`. -/
def setDate (d : Date) (date : Int) : Option Date :=
  timeClip (dayNumber d.civil.year d.civil.month date * msPerDay + d.timeInDay)

/-- The year of a date text: four digits, or a sign and six. -/
def yearText (year : Int) : JsString :=
  if 0 ≤ year ∧ year ≤ 9999 then decimals 4 year.toNat
  else (if year < 0 then js "-" else js "+") ++ decimals 6 year.natAbs

def toISOString (d : Date) : JsString :=
  let t := d.timeInDay.toNat
  yearText d.civil.year ++ js "-" ++ decimals 2 (d.civil.month + 1).toNat ++ js "-" ++
    decimals 2 d.civil.date.toNat ++
    js "T" ++ decimals 2 (t / 3600000) ++ js ":" ++ decimals 2 (t / 60000 % 60) ++
    js ":" ++ decimals 2 (t / 1000 % 60) ++ js "." ++ decimals 3 (t % 1000) ++ js "Z"

example : toISOString ⟨951782399999, by decide⟩ = js "2000-02-28T23:59:59.999Z" := by
  decide +kernel

theorem day_timeInDay (d : Date) : d.time = d.day * msPerDay + d.timeInDay := by
  unfold day timeInDay msPerDay
  omega

theorem timeInDay_bounds (d : Date) : 0 ≤ d.timeInDay ∧ d.timeInDay < msPerDay := by
  unfold timeInDay msPerDay
  omega

theorem setDate_add (d : Date) (n : Int) :
    d.setDate (d.getDate + n) = timeClip (d.time + n * msPerDay) := by
  have hday : dayNumber d.civil.year d.civil.month d.civil.date = d.day :=
    dayNumber_civil_self d.day
  unfold setDate getDate
  rw [dayNumber_date, hday, d.day_timeInDay]
  congr 1
  ring

end Date

theorem timeClip_eq_some {time : Int} {d : Date} : timeClip time = some d ↔ d.time = time := by
  unfold timeClip
  constructor
  · intro h
    split at h
    · rw [← Option.some.inj h]
    · cases h
  · rintro rfl
    rw [dif_pos d.valid]

theorem timeClip_eq_none {time : Int} :
    timeClip time = none ↔ time < -maxTime ∨ maxTime < time := by
  unfold timeClip
  split <;> simp <;> omega

end AramoPlatform.Js
