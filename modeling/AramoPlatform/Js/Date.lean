import AramoPlatform.Js.Text

/-!
# Dates

A `Date` is its time value, in milliseconds from the epoch; dates before it
do not occur. `toISOString` writes it in UTC with the proleptic Gregorian
calendar, years above 9999 with six digits and a sign.
-/

namespace AramoPlatform.Js

/-- The last `w` decimal digits of `n`. -/
def decimals : Nat → Nat → JsString
  | 0, _ => []
  | w + 1, n => decimals w (n / 10) ++ [(48 + n % 10).toUInt16]

/-- Year, month and day of the `days`-th day after 1970-01-01. Years run from
March here, so that the leap day is the last of its year. -/
def civilDate (days : Nat) : Nat × Nat × Nat :=
  let z := days + 719468
  let era := z / 146097
  let dayOfEra := z % 146097
  let yearOfEra := (dayOfEra - dayOfEra / 1460 + dayOfEra / 36524 - dayOfEra / 146096) / 365
  let dayOfYear := dayOfEra - (365 * yearOfEra + yearOfEra / 4 - yearOfEra / 100)
  let m := (5 * dayOfYear + 2) / 153
  let day := dayOfYear - (153 * m + 2) / 5 + 1
  let month := if m < 10 then m + 3 else m - 9
  let year := yearOfEra + era * 400 + if month ≤ 2 then 1 else 0
  (year, month, day)

def toISOString (ms : Nat) : JsString :=
  let (year, month, day) := civilDate (ms / 86400000)
  let t := ms % 86400000
  (if year < 10000 then decimals 4 year else js "+" ++ decimals 6 year) ++
    js "-" ++ decimals 2 month ++ js "-" ++ decimals 2 day ++
    js "T" ++ decimals 2 (t / 3600000) ++ js ":" ++ decimals 2 (t / 60000 % 60) ++
    js ":" ++ decimals 2 (t / 1000 % 60) ++ js "." ++ decimals 3 (t % 1000) ++ js "Z"

example : toISOString 1767603600000 = js "2026-01-05T09:00:00.000Z" := by decide

example : toISOString 951782399999 = js "2000-02-28T23:59:59.999Z" := by decide

end AramoPlatform.Js
