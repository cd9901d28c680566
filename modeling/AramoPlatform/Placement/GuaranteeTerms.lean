import AramoPlatform.Js.Decimal
import AramoPlatform.Js.UtcDate
import AramoPlatform.Lib.Outcome
import AramoPlatform.Placement.Lifecycles

/-!
# Guarantee terms

The terms of a permanent start as a request writes them, with texts for dates
and money, and the snapshot that is derived from them. The window is half open
and counts calendar days in UTC.
-/

namespace AramoPlatform.Placement

open Js Lib

/-! ## Texts -/

/-- `MONEY_12_2`: at most ten digits and at most two after a point. -/
def isMoney122 (s : JsString) : Bool :=
  let whole := s.takeWhile isDigit
  (1 ≤ whole.length && whole.length ≤ 10) &&
    match s.dropWhile isDigit with
    | [] => true
    | point :: fraction =>
      point == 0x2E && (1 ≤ fraction.length && fraction.length ≤ 2) && fraction.all isDigit

/-- `ISO_DATE`: the groups of a text of the form `yyyy-mm-dd`. -/
def isoDateGroups (s : JsString) : Option (JsString × JsString × JsString) :=
  let year := s.take 4
  let month := (s.drop 5).take 2
  let date := s.drop 8
  if s = year ++ js "-" ++ month ++ js "-" ++ date ∧ year.length = 4 ∧ month.length = 2 ∧
      date.length = 2 ∧ (year ++ month ++ date).all isDigit = true then
    some (year, month, date)
  else none

/-- `new Date` of a day at midnight. A date that its month does not have rolls over, up to
the 31st. -/
def dateOfGroups (year month date : Nat) : Option Date :=
  if 1 ≤ month ∧ month ≤ 12 ∧ 1 ≤ date ∧ date ≤ 31 then
    timeClip (dayNumber year (month - 1 : Int) date * msPerDay)
  else none

def parseCalendarDate (value : JsString) : Option Date := do
  let (year, month, date) ← isoDateGroups value
  let d ← dateOfGroups (digitsValue year) (digitsValue month) (digitsValue date)
  if d.toISOString.take 10 = value then some d else none

example : (parseCalendarDate (js "2026-02-28")).map Date.time = some 1772236800000 := by
  decide +kernel

example : parseCalendarDate (js "2026-02-30") = none := by decide +kernel

theorem timeInDay_parseCalendarDate {value : JsString} {d : Date}
    (h : parseCalendarDate value = some d) : d.timeInDay = 0 := by
  unfold parseCalendarDate at h
  obtain ⟨groups, -, h⟩ := Option.bind_eq_some_iff.mp h
  obtain ⟨d', hdate, h⟩ := Option.bind_eq_some_iff.mp h
  split at h
  · rw [← Option.some.inj h]
    unfold dateOfGroups at hdate
    split at hdate
    · have htime := timeClip_eq_some.mp hdate
      unfold Date.timeInDay
      rw [htime]
      exact Int.mul_emod_left _ _
    · cases hdate
  · cases h

/-! ## Terms -/

def addUtcDays (start : Date) (days : Int) : Option Date := start.setDate (start.getDate + days)

/-- `REMEDY_POLICIES`, by their wire names. -/
def RemedyPolicy.wire : RemedyPolicy → JsString
  | .replacement => js "REPLACEMENT"
  | .refund => js "REFUND"
  | .proratedCredit => js "PRORATED_CREDIT"

def remedyPolicies : List RemedyPolicy := [.replacement, .refund, .proratedCredit]

/-- The ISO 4217 codes that are active. -/
def iso4217Active : List String :=
  ["AED", "AFN", "ALL", "AMD", "ANG", "AOA", "ARS", "AUD", "AWG", "AZN", "BAM", "BBD", "BDT",
    "BGN", "BHD", "BIF", "BMD", "BND", "BOB", "BOV", "BRL", "BSD", "BTN", "BWP", "BYN", "BZD",
    "CAD", "CDF", "CHE", "CHF", "CHW", "CLF", "CLP", "CNY", "COP", "COU", "CRC", "CUP", "CVE",
    "CZK", "DJF", "DKK", "DOP", "DZD", "EGP", "ERN", "ETB", "EUR", "FJD", "FKP", "GBP", "GEL",
    "GHS", "GIP", "GMD", "GNF", "GTQ", "GYD", "HKD", "HNL", "HTG", "HUF", "IDR", "ILS", "INR",
    "IQD", "IRR", "ISK", "JMD", "JOD", "JPY", "KES", "KGS", "KHR", "KMF", "KPW", "KRW", "KWD",
    "KYD", "KZT", "LAK", "LBP", "LKR", "LRD", "LSL", "LYD", "MAD", "MDL", "MGA", "MKD", "MMK",
    "MNT", "MOP", "MRU", "MUR", "MVR", "MWK", "MXN", "MXV", "MYR", "MZN", "NAD", "NGN", "NIO",
    "NOK", "NPR", "NZD", "OMR", "PAB", "PEN", "PGK", "PHP", "PKR", "PLN", "PYG", "QAR", "RON",
    "RSD", "RUB", "RWF", "SAR", "SBD", "SCR", "SDG", "SEK", "SGD", "SHP", "SLE", "SOS", "SRD",
    "SSP", "STN", "SVC", "SYP", "SZL", "THB", "TJS", "TMT", "TND", "TOP", "TRY", "TTD", "TWD",
    "TZS", "UAH", "UGX", "USD", "USN", "UYI", "UYU", "UYW", "UZS", "VED", "VES", "VND", "VUV",
    "WST", "XAF", "XCD", "XOF", "XPF", "YER", "ZAR", "ZMW", "ZWG"]

def isIso4217Currency (value : JsString) : Bool := iso4217Active.any fun code => value == js code

/-- The number of a request body is a fraction before it is checked. -/
structure GuaranteeTermsInput where
  guaranteeStartDate : JsString
  guaranteeDurationDays : ℚ
  remedyPolicy : JsString
  exposureAmount : JsString
  exposureCurrency : JsString
  termsSource : JsString
  deriving DecidableEq

structure ValidatedGuaranteeSnapshot where
  guaranteeStartDate : Date
  guaranteeDurationDays : Nat
  guaranteeEndDate : Date
  remedyPolicy : RemedyPolicy
  guaranteeExposureAmount : JsString
  guaranteeExposureCurrency : JsString
  termsSource : JsString
  recordedBy : JsString
  deriving DecidableEq

inductive GuaranteeTermsError where
  | termsRequired
  | recordedByRequired
  | termsSourceRequired
  | remedyPolicyInvalid (remedyPolicy : JsString)
  | startDateInvalid (guaranteeStartDate : JsString)
  | durationNotPositiveInteger (guaranteeDurationDays : ℚ)
  | endNotAfterStart
  | exposureAmountInvalid
  | exposureCurrencyInvalid
  deriving DecidableEq

namespace GuaranteeTermsError

def code : GuaranteeTermsError → String
  | termsRequired | termsSourceRequired | remedyPolicyInvalid _ =>
      "PERMANENT_PLACEMENT_TERMS_REQUIRED"
  | recordedByRequired => "VALIDATION_ERROR"
  | startDateInvalid _ | durationNotPositiveInteger _ | endNotAfterStart =>
    "PERMANENT_PLACEMENT_GUARANTEE_WINDOW_INVALID"
  | exposureAmountInvalid | exposureCurrencyInvalid => "PERMANENT_PLACEMENT_EXPOSURE_INVALID"

def status : GuaranteeTermsError → Nat
  | recordedByRequired => 400
  | _ => 422

/-- The reason of the details, or the field. -/
def reason : GuaranteeTermsError → String
  | termsRequired => "guarantee_terms_required"
  | recordedByRequired => "recorded_by"
  | termsSourceRequired => "terms_source_required"
  | remedyPolicyInvalid _ => "remedy_policy_invalid"
  | startDateInvalid _ => "start_date_invalid"
  | durationNotPositiveInteger _ => "duration_not_positive_integer"
  | endNotAfterStart => "end_not_after_start"
  | exposureAmountInvalid => "exposure_amount_invalid"
  | exposureCurrencyInvalid => "exposure_currency_invalid"

end GuaranteeTermsError

def validateGuaranteeTerms (terms : Option GuaranteeTermsInput) (recordedBy : Option JsString) :
    Except GuaranteeTermsError ValidatedGuaranteeSnapshot := do
  let terms ← orThrow terms .termsRequired
  let recordedBy ← orThrow (recordedBy.filter (· != [])) .recordedByRequired
  require (trim terms.termsSource != []) .termsSourceRequired
  let policy ← orThrow (remedyPolicies.find? (·.wire == terms.remedyPolicy))
    (.remedyPolicyInvalid terms.remedyPolicy)
  let start ← orThrow (parseCalendarDate terms.guaranteeStartDate)
    (.startDateInvalid terms.guaranteeStartDate)
  let duration := terms.guaranteeDurationDays
  require (duration.den == 1 && decide (0 < duration)) (.durationNotPositiveInteger duration)
  -- the time of an invalid end compares with no other
  let stop ← orThrow ((addUtcDays start duration.num).filter fun stop => start.time < stop.time)
    .endNotAfterStart
  require (isMoney122 terms.exposureAmount) .exposureAmountInvalid
  require (isIso4217Currency terms.exposureCurrency) .exposureCurrencyInvalid
  return ⟨start, duration.num.toNat, stop, policy, terms.exposureAmount, terms.exposureCurrency,
    terms.termsSource, recordedBy⟩

/-- What the validated terms are. -/
structure ValidatedGuaranteeSnapshot.Sound (s : ValidatedGuaranteeSnapshot) : Prop where
  midnight : s.guaranteeStartDate.timeInDay = 0
  positive : 0 < s.guaranteeDurationDays
  window : s.guaranteeEndDate.time =
    s.guaranteeStartDate.time + s.guaranteeDurationDays * msPerDay
  money : isMoney122 s.guaranteeExposureAmount = true
  currency : isIso4217Currency s.guaranteeExposureCurrency = true

theorem validateGuaranteeTerms_sound {terms : Option GuaranteeTermsInput}
    {recordedBy : Option JsString} {s : ValidatedGuaranteeSnapshot}
    (h : validateGuaranteeTerms terms recordedBy = .ok s) : s.Sound := by
  simp only [validateGuaranteeTerms, bind_eq_ok, orThrow_eq_ok, require_eq_ok, pure_eq_ok,
    Bool.and_eq_true, decide_eq_true_eq, Option.filter_eq_some_iff] at h
  obtain ⟨input, -, recordedBy', -, -, -, policy, -, start, hstart, -, ⟨-, hpos⟩, stop,
    ⟨hstop, -⟩, -, hmoney, -, hcurrency, rfl⟩ := h
  have hnum : 0 < input.guaranteeDurationDays.num := Rat.num_pos.mpr hpos
  have hdays : (input.guaranteeDurationDays.num.toNat : Int) = input.guaranteeDurationDays.num :=
    Int.toNat_of_nonneg hnum.le
  unfold addUtcDays at hstop
  rw [Date.setDate_add] at hstop
  exact {
    midnight := timeInDay_parseCalendarDate hstart
    positive := show 0 < input.guaranteeDurationDays.num.toNat by omega
    window := by
      show stop.time = start.time + (input.guaranteeDurationDays.num.toNat : Int) * msPerDay
      rw [hdays]
      exact timeClip_eq_some.mp hstop
    money := hmoney
    currency := hcurrency }

end AramoPlatform.Placement
