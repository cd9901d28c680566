import AramoPlatform.Placement.GuaranteeTerms
import AramoPlatform.Placement.Operations

/-!
# Prorated credits

What a falloff makes due, in decimals of twenty significant digits. The product
of the exposure and the remaining days is exact; the quotient is rounded, and
rounded again to cents. The first rounding is monotone and keeps every half
cent, so the second one sees what it would see of the exact quotient.
-/

namespace AramoPlatform.Placement

open Js Lib

namespace Proration

/-- Whole days between two midnights. -/
def calendarDaysBetween (startDate endDate : Date) : Int :=
  (2 * (endDate.time - startDate.time) + msPerDay) / (2 * msPerDay)

structure RemedyInput where
  remedyPolicy : RemedyPolicy
  exposureAmount : JsString
  exposureCurrency : JsString
  guaranteeDurationDays : Nat
  guaranteeEndDate : Date
  falloffEffectiveDate : Date

structure RemedyObligation where
  remedyType : RemedyPolicy
  dueState : PermanentState
  calculatedAmount : Option JsString
  currency : Option JsString
  remainingDays : Option Int
  deriving DecidableEq

/-- The days that remain, at least none and at most all of them. -/
def RemedyInput.remainingDays (input : RemedyInput) : Int :=
  max 0 (min (calendarDaysBetween input.falloffEffectiveDate input.guaranteeEndDate)
    input.guaranteeDurationDays)

def RemedyInput.credit (input : RemedyInput) (exposure : Decimal) : Decimal :=
  (exposure.times (input.remainingDays : ℚ)).div (input.guaranteeDurationDays : ℚ)

/-- `none` where the amount is no decimal. -/
def computeRemedyObligation (input : RemedyInput) : Option RemedyObligation := do
  let exposure ← Decimal.ofText input.exposureAmount
  let dueState := input.remedyPolicy.dueState
  match input.remedyPolicy with
  | .replacement => some ⟨.replacement, dueState, none, none, none⟩
  | .refund => some ⟨.refund, dueState, some exposure.toFixed2, some input.exposureCurrency, none⟩
  | .proratedCredit =>
    let clamped : Decimal := max 0 (min (input.credit exposure) exposure)
    some ⟨.proratedCredit, dueState, some clamped.toFixed2, some input.exposureCurrency,
      some input.remainingDays⟩

/-! ## Recording a falloff -/

/-- The guarantee columns of a permanent placement; the exposure is a `Decimal(12,2)`. -/
structure GuaranteeColumns where
  guaranteeStartDate : Date
  guaranteeDurationDays : Nat
  guaranteeEndDate : Date
  remedyPolicy : RemedyPolicy
  guaranteeExposureAmount : Decimal
  guaranteeExposureCurrency : JsString
  deriving DecidableEq

/-- The insert of the snapshot, where its amount is a decimal. -/
def storeGuarantee (s : ValidatedGuaranteeSnapshot) : Option GuaranteeColumns :=
  (Decimal.ofText s.guaranteeExposureAmount).map fun amount =>
    ⟨s.guaranteeStartDate, s.guaranteeDurationDays, s.guaranteeEndDate, s.remedyPolicy,
      roundToStep (1 / 100) amount, s.guaranteeExposureCurrency⟩

structure PermanentPlacementRow where
  lifecycleState : PermanentState
  guarantee : GuaranteeColumns

def permanentFalloffReasonCodes : List String :=
  ["TALENT_RESIGNED", "CLIENT_TERMINATED_PERFORMANCE", "CLIENT_TERMINATED_CONDUCT",
    "CLIENT_TERMINATED_BUSINESS_NEED", "MUTUAL_SEPARATION", "JOB_ABANDONMENT",
    "EMPLOYMENT_INELIGIBILITY"]

def isPermanentFalloffReasonCode (value : JsString) : Bool :=
  permanentFalloffReasonCodes.any fun code => value == js code

inductive FalloffError where
  | stateInvalid
  | falloffReasonInvalid (reason : JsString)
  | effectiveDateInvalid (effectiveDate : JsString)
  | effectiveDateBeforeStart (effectiveDate : JsString)
  | effectiveDateOnOrAfterEnd (effectiveDate : JsString)
  deriving DecidableEq

structure FalloffRequest where
  reason : JsString
  effectiveDate : JsString

/-- The checks of `recordFalloff`, up to the date that it accepts. -/
def acceptFalloff (current : PermanentPlacementRow) (input : FalloffRequest) :
    Except FalloffError Date := do
  require (canTransitionPermanentPlacement current.lifecycleState .fellOff) .stateInvalid
  require (isPermanentFalloffReasonCode input.reason) (.falloffReasonInvalid input.reason)
  let effective ← orThrow (parseCalendarDate input.effectiveDate)
    (.effectiveDateInvalid input.effectiveDate)
  require (!decide (effective.time < current.guarantee.guaranteeStartDate.time))
    (.effectiveDateBeforeStart input.effectiveDate)
  require (!decide (current.guarantee.guaranteeEndDate.time ≤ effective.time))
    (.effectiveDateOnOrAfterEnd input.effectiveDate)
  return effective

/-- The obligation that `recordFalloff` writes for the date. -/
def falloffObligation (g : GuaranteeColumns) (effective : Date) : Option RemedyObligation :=
  computeRemedyObligation {
    remedyPolicy := g.remedyPolicy
    exposureAmount := g.guaranteeExposureAmount.toFixed2
    exposureCurrency := g.guaranteeExposureCurrency
    guaranteeDurationDays := g.guaranteeDurationDays
    guaranteeEndDate := g.guaranteeEndDate
    falloffEffectiveDate := effective }

/-! ## Amounts as cents -/

theorem ofText_of_isMoney122 {s : JsString} (h : isMoney122 s = true) :
    ∃ c : ℕ, c < 10 ^ 12 ∧ Decimal.ofText s = some ((c : ℚ) / 100) := by
  have hwhole : digitsValue (s.takeWhile isDigit) < 10 ^ (s.takeWhile isDigit).length :=
    digitsValue_lt List.all_takeWhile
  unfold isMoney122 at h
  unfold Decimal.ofText
  dsimp only at h ⊢
  rw [Bool.and_eq_true, Bool.and_eq_true, decide_eq_true_eq, decide_eq_true_eq] at h
  obtain ⟨⟨hone, hten⟩, hrest⟩ := h
  have hne : s.takeWhile isDigit ≠ [] := List.ne_nil_of_length_pos hone
  have hbound : digitsValue (s.takeWhile isDigit) < 10 ^ 10 :=
    lt_of_lt_of_le hwhole (Nat.pow_le_pow_right (by omega) hten)
  generalize digitsValue (s.takeWhile isDigit) = n at hbound ⊢
  cases hdrop : s.dropWhile isDigit with
  | nil =>
    refine ⟨n * 100, by omega, ?_⟩
    dsimp only
    rw [if_neg hne]
    congr 1
    push_cast
    ring
  | cons point fraction =>
    rw [hdrop] at hrest
    simp only [Bool.and_eq_true, decide_eq_true_eq, beq_iff_eq] at hrest
    obtain ⟨⟨hpoint, hsome, htwo⟩, hdigits⟩ := hrest
    have hlt := digitsValue_lt hdigits
    dsimp only
    rw [if_pos ⟨hpoint, hne, List.ne_nil_of_length_pos hsome, hdigits⟩]
    generalize digitsValue fraction = f at hlt ⊢
    -- one decimal place or two
    rcases (by omega : fraction.length = 1 ∨ fraction.length = 2) with hlen | hlen
    · rw [hlen] at hlt ⊢
      refine ⟨n * 100 + f * 10, by omega, ?_⟩
      congr 1
      push_cast
      ring
    · rw [hlen] at hlt ⊢
      refine ⟨n * 100 + f, by omega, ?_⟩
      congr 1
      push_cast
      ring

theorem cents_div_hundred (c : ℕ) : Decimal.cents ((c : ℚ) / 100) = c := by
  unfold Decimal.cents
  rw [div_mul_cancel₀ _ (by norm_num : (100 : ℚ) ≠ 0)]
  have h := roundHalfUp_intCast (K := ℚ) c
  push_cast at h
  rw [h]
  rfl

variable {s : ValidatedGuaranteeSnapshot}

theorem storeGuarantee_of_sound (h : s.Sound) :
    ∃ c : ℕ, c < 10 ^ 12 ∧ Decimal.ofText s.guaranteeExposureAmount = some ((c : ℚ) / 100) ∧
      storeGuarantee s = some ⟨s.guaranteeStartDate, s.guaranteeDurationDays,
        s.guaranteeEndDate, s.remedyPolicy, (c : ℚ) / 100, s.guaranteeExposureCurrency⟩ := by
  obtain ⟨c, hlt, htext⟩ := ofText_of_isMoney122 h.money
  refine ⟨c, hlt, htext, ?_⟩
  have hstep : roundToStep (1 / 100) ((c : ℚ) / 100) = c / 100 :=
    roundToStep_eq_self (by norm_num) (n := c) (by push_cast; ring)
  unfold storeGuarantee
  rw [htext, Option.map_some, hstep]

/-! ## The rounded quotient -/

/-- The exact credit in cents, as a fraction: `r` of `d` days of `c` cents. -/
def exactCents (c r d : ℕ) : ℚ := (c * r : ℕ) / (d : ℚ)

theorem exactCents_nonneg (c r d : ℕ) : 0 ≤ exactCents c r d := by
  unfold exactCents
  positivity

theorem exactCents_le {c r d : ℕ} (hrd : r ≤ d) (hd : 0 < d) : exactCents c r d ≤ c := by
  have hd' : (0 : ℚ) < d := by exact_mod_cast hd
  unfold exactCents
  rw [div_le_iff₀ hd']
  exact_mod_cast Nat.mul_le_mul_left c hrd

/-- Cents with a few decimal places are kept by the intermediate rounding. -/
theorem roundToDigits_cents {y : ℚ} {m : ℕ} {e : ℤ} (hm : m < 10 ^ 20)
    (h : y / 100 = m * (10 : ℚ) ^ e) : roundToDigits 20 (y / 100) * 100 = y := by
  rw [h, roundToDigits_eq_self hm, ← h]
  ring

/-- **The credit in twenty digits has the cents of the exact one.** The nearest half cent
above is at least 1/73000 cents away, and so is a number of eighteen digits between. -/
theorem roundHalfUp_credit {c r d : ℕ} (hc : c < 10 ^ 12) (hrd : r ≤ d) (hd : 0 < d)
    (hmax : d ≤ 36500) :
    roundHalfUp (roundToDigits 20 (exactCents c r d / 100) * 100) =
      roundHalfUp (exactCents c r d) := by
  have hx := exactCents_nonneg c r d
  obtain ⟨n, hn⟩ := Int.eq_ofNat_of_zero_le (roundHalfUp_nonneg hx)
  have hle : n ≤ c := by
    have h := roundHalfUp_mono (exactCents_le (c := c) hrd hd)
    have hcast := roundHalfUp_intCast (K := ℚ) c
    push_cast at hcast
    rw [hn, hcast] at h
    exact_mod_cast h
  have hlt : exactCents c r d ≤ n + 1 / 2 - 1 / (2 * d) := by
    exact quotient_le_of_lt (n := n) hd (roundHalfUp_eq_iff.mp hn).2
  have hfar : (1 : ℚ) / 1000000 ≤ 1 / (2 * d) := by
    have hd' : (0 : ℚ) < d := by exact_mod_cast hd
    have hmax' : (d : ℚ) ≤ 36500 := by exact_mod_cast hmax
    exact one_div_le_one_div_of_le (by linarith) (by linarith)
  rw [hn]
  apply roundHalfUp_round (f := fun y => roundToDigits 20 (y / 100) * 100)
    (b := (n : ℚ) + 1 / 2 - 1 / 1000000) (x := exactCents c r d)
  · intro a b ha hab
    have h := roundToDigits_mono (p := 20) (by omega) (by positivity : 0 ≤ a / 100)
      (div_le_div_of_nonneg_right hab (by norm_num))
    linarith
  · exact hx
  · exact hn
  · have h := roundToDigits_nonneg (p := 20) (by positivity : 0 ≤ exactCents c r d / 100)
    linarith
  · intro hpos
    have hone : 1 ≤ n := by exact_mod_cast hpos
    obtain ⟨k, rfl⟩ : ∃ k, n = k + 1 := ⟨n - 1, by omega⟩
    apply roundToDigits_cents (m := 10 * k + 5) (e := -3) (by omega)
    push_cast
    norm_num
    ring
  · apply roundToDigits_cents (m := 1000000 * n + 499999) (e := -8) (by omega)
    push_cast
    norm_num
    ring
  · linarith
  · push_cast
    linarith

/-! ## The obligation -/

theorem calendarDaysBetween_eq {startDate endDate : Date} {r : Int}
    (h : endDate.time = startDate.time + r * msPerDay) :
    calendarDaysBetween startDate endDate = r := by
  unfold calendarDaysBetween
  unfold msPerDay at h ⊢
  omega

/-- The product of the exposure and the days has fewer than twenty digits. -/
theorem credit_eq {input : RemedyInput} {c r : ℕ} (hc : c < 10 ^ 12)
    (hr : input.remainingDays = r) (hrd : r ≤ 36500) :
    input.credit ((c : ℚ) / 100) =
      roundToDigits 20 (exactCents c r input.guaranteeDurationDays / 100) := by
  have hproduct : Decimal.times ((c : ℚ) / 100) (input.remainingDays : ℚ) = (c * r : ℕ) / 100 := by
    have hsmall : c * r < 10 ^ 20 := calc
      c * r ≤ c * 36500 := Nat.mul_le_mul_left c hrd
      _ < 10 ^ 20 := by omega
    have hexact : (c : ℚ) / 100 * (input.remainingDays : ℚ) =
      (c * r : ℕ) * (10 : ℚ) ^ (-2 : ℤ) := by
      rw [hr]
      push_cast
      norm_num
      ring
    unfold Decimal.times Decimal.precision
    rw [hexact, roundToDigits_eq_self hsmall]
    norm_num
    ring
  unfold RemedyInput.credit Decimal.div Decimal.precision
  rw [hproduct, exactCents]
  congr 1
  ring

/-- **The amount is the exact quotient, rounded once.** -/
theorem falloffObligation_of_days {g : GuaranteeColumns} {effective : Date} {c r : ℕ}
    (hpolicy : g.remedyPolicy = .proratedCredit) (hexposure :
      g.guaranteeExposureAmount = (c : ℚ) / 100)
    (hc : c < 10 ^ 12) (hpos : 0 < g.guaranteeDurationDays) (hmax : g.guaranteeDurationDays ≤ 36500)
    (hr : r ≤ g.guaranteeDurationDays)
    (hdays : g.guaranteeEndDate.time = effective.time + r * msPerDay) :
    falloffObligation g effective = some ⟨.proratedCredit, .proratedCreditDue,
      some (Decimal.centsText (roundHalfUp (exactCents c r g.guaranteeDurationDays)).toNat),
      some g.guaranteeExposureCurrency, some r⟩ := by
  have hnonneg := exactCents_nonneg c r g.guaranteeDurationDays
  have htext : g.guaranteeExposureAmount.toFixed2 = Decimal.centsText c := by
    rw [hexposure]
    exact congrArg Decimal.centsText (cents_div_hundred c)
  unfold falloffObligation computeRemedyObligation
  rw [hpolicy, htext, Decimal.ofText_centsText]
  dsimp only [bind, Option.bind]
  generalize hinput : RemedyInput.mk _ _ _ _ _ _ = input
  have hremaining : input.remainingDays = r := by
    subst hinput
    unfold RemedyInput.remainingDays
    rw [calendarDaysBetween_eq hdays]
    dsimp only
    omega
  have hduration : input.guaranteeDurationDays = g.guaranteeDurationDays := by rw [← hinput]
  have hcredit := credit_eq hc hremaining (hr.trans hmax)
  rw [hduration] at hcredit
  -- the defensive clamp changes nothing
  have hle : input.credit ((c : ℚ) / 100) ≤ c / 100 := by
    have hwhole : roundToDigits 20 ((c : ℚ) / 100) = c / 100 := by
      have h := roundToDigits_eq_self (K := ℚ) (p := 20) (n := c) (e := -2) (by omega)
      norm_num at h
      rw [div_eq_mul_inv]
      linarith
    rw [hcredit, ← hwhole]
    exact roundToDigits_mono (by omega) (by positivity)
      (div_le_div_of_nonneg_right (exactCents_le hr hpos) (by norm_num))
  have hlow : 0 ≤ input.credit ((c : ℚ) / 100) := by
    rw [hcredit]
    exact roundToDigits_nonneg (by positivity)
  rw [hremaining, min_eq_left hle, max_eq_right hlow, hcredit]
  have hcents := roundHalfUp_credit hc hr hpos hmax
  unfold Decimal.toFixed2 Decimal.cents
  rw [hcents]
  rfl

/-! ## The repository's cents -/

/-- The columns are those of the snapshot, with the amount in cents and the dates in days. -/
structure SameGuarantee (g : GuaranteeColumns) (p : GuaranteeSnapshot) : Prop where
  duration : g.guaranteeDurationDays = p.terms.durationDays
  policy : g.remedyPolicy = p.terms.remedyPolicy
  amount : g.guaranteeExposureAmount = (p.terms.exposureAmount : ℚ) / 100
  currency : g.guaranteeExposureCurrency = p.terms.exposureCurrency
  endDate : g.guaranteeEndDate.time = p.endDate * msPerDay

/-- An obligation in cents, as the columns have it. -/
def ofCents (o : Placement.RemedyObligation) : RemedyObligation :=
  ⟨o.remedyType, o.remedyType.dueState, o.calculatedAmount.map Decimal.centsText, o.currency,
    o.remainingDays.map (↑)⟩

theorem roundHalfUp_exactCents {c r d : ℕ} (hd : 0 < d) :
    roundHalfUp (exactCents c r d) = PlacementTx.roundedShare c r d := by
  have hd' : (0 : ℚ) < d := by exact_mod_cast hd
  rw [roundHalfUp_eq_iff]
  have hdiv := Nat.div_add_mod (2 * c * r + d) (2 * d)
  have hlt := Nat.mod_lt (2 * c * r + d) (by omega : 0 < 2 * d)
  unfold PlacementTx.roundedShare exactCents
  generalize (2 * c * r + d) / (2 * d) = q at hdiv
  generalize (2 * c * r + d) % (2 * d) = m at hdiv hlt
  have hq : (2 * d * q + m : ℚ) = 2 * c * r + d := by exact_mod_cast hdiv
  have hm : (m : ℚ) < 2 * d := by exact_mod_cast hlt
  have hm0 : (0 : ℚ) ≤ m := by positivity
  push_cast
  constructor
  · rw [le_div_iff₀ hd']
    linarith
  · rw [div_lt_iff₀ hd']
    linarith

/-- **The repository's obligation is the one of the exact amounts**, in cents. -/
theorem falloffObligation_eq_ofCents {g : GuaranteeColumns} {p : GuaranteeSnapshot}
    {effective : Date} {falloffDate : ℕ} (h : SameGuarantee g p)
    (hc : p.terms.exposureAmount < 10 ^ 12) (hmax : p.terms.durationDays ≤ 36500)
    (heffective : effective.time = falloffDate * msPerDay) (hstart : p.startDate ≤ falloffDate)
    (hend : falloffDate < p.endDate) :
    falloffObligation g effective =
      some (ofCents (PlacementTx.computeRemedyObligation p falloffDate)) := by
  have htext : g.guaranteeExposureAmount.toFixed2 = Decimal.centsText p.terms.exposureAmount := by
    rw [h.amount]
    exact congrArg Decimal.centsText (cents_div_hundred _)
  cases hpolicy : p.terms.remedyPolicy with
  | replacement =>
    unfold falloffObligation computeRemedyObligation PlacementTx.computeRemedyObligation
    rw [h.policy, hpolicy, htext, Decimal.ofText_centsText]
    rfl
  | refund =>
    unfold falloffObligation computeRemedyObligation PlacementTx.computeRemedyObligation
    rw [h.policy, hpolicy, htext, Decimal.ofText_centsText, h.currency]
    dsimp only [bind, Option.bind]
    rw [← h.amount, htext]
    rfl
  | proratedCredit =>
    have hlast : p.endDate = p.startDate + p.terms.durationDays := rfl
    have hdays : g.guaranteeEndDate.time =
        effective.time + ((p.endDate - falloffDate : ℕ) : Int) * msPerDay := by
      rw [h.endDate, heffective, Nat.cast_sub hend.le]
      ring
    have hle : p.endDate - falloffDate ≤ p.terms.durationDays := by omega
    rw [falloffObligation_of_days (h.policy.trans hpolicy) h.amount hc
      (h.duration ▸ p.terms.durationDays_pos) (h.duration ▸ hmax) (h.duration ▸ hle) hdays,
      h.duration, h.currency, roundHalfUp_exactCents p.terms.durationDays_pos]
    unfold PlacementTx.computeRemedyObligation
    rw [hpolicy]
    dsimp only
    rw [min_eq_left hle]
    rfl

/-! ## The accepted date -/

theorem acceptFalloff_days {row : PermanentPlacementRow}
    {input : FalloffRequest} {d : Date} (hs : s.Sound)
    (hstart : row.guarantee.guaranteeStartDate = s.guaranteeStartDate)
    (hend : row.guarantee.guaranteeEndDate = s.guaranteeEndDate)
    (h : acceptFalloff row input = .ok d) :
    ∃ r : ℕ, 1 ≤ r ∧ r ≤ s.guaranteeDurationDays ∧
      s.guaranteeEndDate.time = d.time + r * msPerDay ∧
      (d = s.guaranteeStartDate → r = s.guaranteeDurationDays) := by
  simp only [acceptFalloff, bind_eq_ok, orThrow_eq_ok, require_eq_ok, pure_eq_ok, Bool.not_eq_true',
    decide_eq_false_iff_not, hstart, hend] at h
  obtain ⟨-, -, -, -, d', hdate, -, hafter, -, hbefore, rfl⟩ := h
  have hmidnight := timeInDay_parseCalendarDate hdate
  have hd := d'.day_timeInDay
  have hfirst := s.guaranteeStartDate.day_timeInDay
  have hwindow := hs.window
  rw [hmidnight] at hd
  rw [hs.midnight] at hfirst
  unfold msPerDay at *
  refine ⟨(s.guaranteeStartDate.day + s.guaranteeDurationDays - d'.day).toNat, ?_, ?_, ?_, ?_⟩
  · omega
  · omega
  · omega
  · intro h
    rw [h]
    omega

/-! ## Exactness -/

/-- The amount that is written, as a number. -/
def RemedyObligation.amount (o : RemedyObligation) : Option Decimal :=
  o.calculatedAmount.bind Decimal.ofText

/-- Exposure times remaining days over duration, half up to cents. -/
def exactCredit (s : ValidatedGuaranteeSnapshot) (exposure : ℚ) (falloff : Date) : ℚ :=
  let days : ℚ := (s.guaranteeEndDate.time - falloff.time) / msPerDay
  roundToStep (1 / 100) (exposure * days / s.guaranteeDurationDays)

structure CreditFor (s : ValidatedGuaranteeSnapshot) (exposure : ℚ) (falloff : Date)
    (o : RemedyObligation) : Prop where
  amount : o.amount = some (exactCredit s exposure falloff)
  nonneg : 0 ≤ exactCredit s exposure falloff
  le_exposure : exactCredit s exposure falloff ≤ exposure
  atStart : falloff = s.guaranteeStartDate → exactCredit s exposure falloff = exposure
  remaining : ∃ r, o.remainingDays = some r ∧ 1 ≤ r ∧ r ≤ s.guaranteeDurationDays

theorem exactCredit_eq {d : Date} {r : ℕ} (c : ℕ)
    (h : s.guaranteeEndDate.time = d.time + r * msPerDay) :
    exactCredit s ((c : ℚ) / 100) d =
      (roundHalfUp (exactCents c r s.guaranteeDurationDays) : ℚ) / 100 := by
  have hms : (msPerDay : ℚ) ≠ 0 := by norm_num [msPerDay]
  have hdays : ((s.guaranteeEndDate.time : ℚ) - d.time) / msPerDay = r := by
    rw [h]
    push_cast
    field_simp
    ring
  have hcents : (c : ℚ) / 100 * r / s.guaranteeDurationDays / (1 / 100) =
      exactCents c r s.guaranteeDurationDays := by
    unfold exactCents
    push_cast
    ring
  unfold exactCredit roundToStep
  dsimp only
  rw [hdays, hcents]
  ring

/-- The obligation of `r` remaining days. -/
def creditOfDays (s : ValidatedGuaranteeSnapshot) (c r : ℕ) : RemedyObligation :=
  ⟨.proratedCredit, .proratedCreditDue,
    some (Decimal.centsText (roundHalfUp (exactCents c r s.guaranteeDurationDays)).toNat),
    some s.guaranteeExposureCurrency, some r⟩

theorem creditFor_of_days {d : Date} {c r : ℕ}
    (hpos : 0 < s.guaranteeDurationDays) (hone : 1 ≤ r) (hle : r ≤ s.guaranteeDurationDays)
    (hdays : s.guaranteeEndDate.time = d.time + r * msPerDay)
    (hfirst : d = s.guaranteeStartDate → r = s.guaranteeDurationDays) :
    CreditFor s ((c : ℚ) / 100) d (creditOfDays s c r) := by
  have hcredit := exactCredit_eq c hdays
  have hround := roundHalfUp_nonneg (exactCents_nonneg c r s.guaranteeDurationDays)
  have hwhole : roundHalfUp (c : ℚ) = c := roundHalfUp_intCast (K := ℚ) c
  constructor
  · show Decimal.ofText (Decimal.centsText _) = _
    rw [Decimal.ofText_centsText, hcredit]
    congr 2
    exact_mod_cast Int.toNat_of_nonneg hround
  · rw [hcredit]
    have hcast : (0 : ℚ) ≤ roundHalfUp (exactCents c r s.guaranteeDurationDays) := by
      exact_mod_cast hround
    linarith
  · have hupper := roundHalfUp_mono (exactCents_le (c := c) hle hpos)
    rw [hwhole] at hupper
    have hcast : (roundHalfUp (exactCents c r s.guaranteeDurationDays) : ℚ) ≤ c := by
      exact_mod_cast hupper
    rw [hcredit]
    linarith
  · intro hstart
    have hall : exactCents c r s.guaranteeDurationDays = c := by
      have hd : (s.guaranteeDurationDays : ℚ) ≠ 0 := by exact_mod_cast hpos.ne'
      unfold exactCents
      rw [hfirst hstart]
      push_cast
      field_simp
    rw [hcredit, hall, hwhole]
    push_cast
    rfl
  · exact ⟨r, rfl, by exact_mod_cast hone, by exact_mod_cast hle⟩

theorem exactCredit_le {d d' : Date} {c r r' : ℕ}
    (hdays : s.guaranteeEndDate.time = d.time + r * msPerDay)
    (hdays' : s.guaranteeEndDate.time = d'.time + r' * msPerDay) (h : d.time ≤ d'.time) :
    exactCredit s ((c : ℚ) / 100) d' ≤ exactCredit s ((c : ℚ) / 100) d := by
  have hfewer : r' ≤ r := by
    unfold msPerDay at hdays hdays'
    omega
  have hmono : exactCents c r' s.guaranteeDurationDays ≤
    exactCents c r s.guaranteeDurationDays := by
    have hcast : ((c * r' : ℕ) : ℚ) ≤ (c * r : ℕ) := by
      exact_mod_cast Nat.mul_le_mul_left c hfewer
    exact div_le_div_of_nonneg_right hcast (Nat.cast_nonneg _)
  have hcast : (roundHalfUp (exactCents c r' s.guaranteeDurationDays) : ℚ) ≤
      roundHalfUp (exactCents c r s.guaranteeDurationDays) := by
    exact_mod_cast roundHalfUp_mono hmono
  rw [exactCredit_eq c hdays, exactCredit_eq c hdays']
  linarith

/-- **The prorated credit is exact**: it is the exact quotient half up to cents, between
nothing and the exposure, all of it for a falloff on the first day, and no larger for a later
falloff. -/
theorem prorated_credit_exact {terms : Option GuaranteeTermsInput} {recordedBy : Option JsString}
    {s : ValidatedGuaranteeSnapshot} {row : PermanentPlacementRow} {input : FalloffRequest}
    {d : Date} (hterms : validateGuaranteeTerms terms recordedBy = .ok s)
    (hmax : s.guaranteeDurationDays ≤ 36500) (hpolicy : s.remedyPolicy = .proratedCredit)
    (hrow : storeGuarantee s = some row.guarantee) (hfalloff : acceptFalloff row input = .ok d) :
    ∃ exposure o, Decimal.ofText s.guaranteeExposureAmount = some exposure ∧
      falloffObligation row.guarantee d = some o ∧ CreditFor s exposure d o ∧
      ∀ input' d', acceptFalloff row input' = .ok d' → d.time ≤ d'.time →
        exactCredit s exposure d' ≤ exactCredit s exposure d := by
  have hs := validateGuaranteeTerms_sound hterms
  obtain ⟨c, hc, htext, hstored⟩ := storeGuarantee_of_sound hs
  have hcolumns := Option.some.inj (hrow.symm.trans hstored)
  have hstart : row.guarantee.guaranteeStartDate = s.guaranteeStartDate := by rw [hcolumns]
  have hend : row.guarantee.guaranteeEndDate = s.guaranteeEndDate := by rw [hcolumns]
  obtain ⟨r, hone, hle, hdays, hfirst⟩ := acceptFalloff_days hs hstart hend hfalloff
  refine ⟨(c : ℚ) / 100, creditOfDays s c r, htext, ?_,
    creditFor_of_days hs.positive hone hle hdays hfirst, ?_⟩
  · rw [hcolumns]
    exact falloffObligation_of_days hpolicy rfl hc hs.positive hmax hle hdays
  · intro input' d' hfalloff' hlater
    obtain ⟨r', -, -, hdays', -⟩ := acceptFalloff_days hs hstart hend hfalloff'
    exact exactCredit_le hdays hdays' hlater

def quarterTerms : GuaranteeTermsInput where
  guaranteeStartDate := js "2026-01-01"
  guaranteeDurationDays := 90
  remedyPolicy := js "PRORATED_CREDIT"
  exposureAmount := js "10000.5"
  exposureCurrency := js "USD"
  termsSource := js "MANUAL"

def quarterSnapshot : ValidatedGuaranteeSnapshot where
  guaranteeStartDate := ⟨1767225600000, by decide⟩
  guaranteeDurationDays := 90
  guaranteeEndDate := ⟨1775001600000, by decide⟩
  remedyPolicy := .proratedCredit
  guaranteeExposureAmount := js "10000.5"
  guaranteeExposureCurrency := js "USD"
  termsSource := js "MANUAL"
  recordedBy := js "u1"

def quarterRow : PermanentPlacementRow where
  lifecycleState := .guaranteeActive
  guarantee := ⟨⟨1767225600000, by decide⟩, 90, ⟨1775001600000, by decide⟩, .proratedCredit,
    20001 / 2, js "USD"⟩

/-- The falloff of 2026-02-01. -/
def februaryFalloff : Date := ⟨1769904000000, by decide⟩

theorem prorated_credit_exact_quarter :
    ∃ exposure o, Decimal.ofText quarterSnapshot.guaranteeExposureAmount = some exposure ∧
      falloffObligation quarterRow.guarantee februaryFalloff = some o ∧
      CreditFor quarterSnapshot exposure februaryFalloff o ∧
      ∀ input' d', acceptFalloff quarterRow input' = .ok d' → februaryFalloff.time ≤ d'.time →
        exactCredit quarterSnapshot exposure d' ≤ exactCredit quarterSnapshot
          exposure februaryFalloff :=
  prorated_credit_exact
    (show validateGuaranteeTerms (some quarterTerms) (some (js "u1")) =
      .ok quarterSnapshot from rfl)
    (by decide) rfl
    (show storeGuarantee quarterSnapshot = some quarterRow.guarantee by decide +kernel)
    (show acceptFalloff quarterRow ⟨js "MUTUAL_SEPARATION", js "2026-02-01"⟩ =
      .ok februaryFalloff from rfl)

end Proration

end AramoPlatform.Placement
