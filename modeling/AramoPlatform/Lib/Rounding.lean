import Mathlib.Algebra.Order.Field.Power
import Mathlib.Algebra.Order.Floor.Ring
import Mathlib.Algebra.Order.Floor.Semiring
import Mathlib.Data.Int.Log
import Mathlib.Tactic.FieldSimp
import Mathlib.Tactic.Linarith
import Mathlib.Tactic.Positivity
import Mathlib.Tactic.Ring

/-!
# Decimal rounding

Rounding half up to a step, and to a number of significant digits, of numbers
that are not negative. Both are monotone and keep what is on their grid, and
so what is rounded in between cannot move a number over a boundary of the
coarser grid that the finer one holds.
-/

namespace AramoPlatform.Lib

variable {K : Type*} [Field K] [LinearOrder K] [IsStrictOrderedRing K] [FloorRing K]

/-- The nearest integer; a half goes up. -/
def roundHalfUp (x : K) : ℤ := ⌊x + 1 / 2⌋

/-- The nearest multiple of a step. -/
def roundToStep (step x : K) : K := roundHalfUp (x / step) * step

/-- The step of the last of `p` significant digits. -/
def lastDigit (p : ℕ) (x : K) : K := (10 : K) ^ (Int.log 10 x + 1 - p)

/-- Half up to `p` significant digits. -/
def roundToDigits (p : ℕ) (x : K) : K := if x = 0 then 0 else roundToStep (lastDigit p x) x

/-! ## To the integers -/

theorem roundHalfUp_mono {x y : K} (h : x ≤ y) : roundHalfUp x ≤ roundHalfUp y :=
  Int.floor_le_floor (by linarith)

theorem roundHalfUp_intCast (n : ℤ) : roundHalfUp (n : K) = n := by
  unfold roundHalfUp
  rw [Int.floor_eq_iff]
  constructor <;> linarith

theorem le_roundHalfUp {n : ℤ} {x : K} : n ≤ roundHalfUp x ↔ (n : K) - 1 / 2 ≤ x := by
  unfold roundHalfUp
  rw [Int.le_floor]
  constructor <;> intro h <;> linarith

theorem roundHalfUp_nonneg {x : K} (h : 0 ≤ x) : 0 ≤ roundHalfUp x := by
  rw [le_roundHalfUp]
  push_cast
  linarith

/-! ## To a step -/

variable {step x y : K}

theorem roundToStep_mono (hstep : 0 < step) (h : x ≤ y) : roundToStep step x ≤
    roundToStep step y := by
  have hdiv : x / step ≤ y / step := div_le_div_of_nonneg_right h hstep.le
  have hcast : (roundHalfUp (x / step) : K) ≤ roundHalfUp (y / step) := by
    exact_mod_cast roundHalfUp_mono hdiv
  exact mul_le_mul_of_nonneg_right hcast hstep.le

theorem roundToStep_eq_self (hstep : 0 < step) {n : ℤ} (h : x = n * step) :
    roundToStep step x = x := by
  rw [h]
  unfold roundToStep
  rw [mul_div_assoc, div_self hstep.ne', mul_one, roundHalfUp_intCast]

theorem roundToStep_nonneg (hstep : 0 < step) (h : 0 ≤ x) : 0 ≤ roundToStep step x := by
  have hcast : (0 : K) ≤ roundHalfUp (x / step) := by
    exact_mod_cast roundHalfUp_nonneg (div_nonneg h hstep.le)
  exact mul_nonneg hcast hstep.le

/-! ## To significant digits -/

variable {p : ℕ}

theorem lastDigit_pos : 0 < lastDigit p x := by
  unfold lastDigit
  positivity

omit [IsStrictOrderedRing K] in
theorem roundToDigits_of_pos (h : 0 < x) : roundToDigits p x = roundToStep (lastDigit p x) x :=
  if_neg h.ne'

omit [IsStrictOrderedRing K] in
theorem roundToDigits_zero : roundToDigits p (0 : K) = 0 := if_pos rfl

omit [IsStrictOrderedRing K] in
theorem zpow_eq_mul_lastDigit {e : ℤ} (h : Int.log 10 x + 1 - p ≤ e) :
    ∃ n : ℤ, (10 : K) ^ e = n * lastDigit p x := by
  obtain ⟨k, hk⟩ := Int.eq_ofNat_of_zero_le (show 0 ≤ e - (Int.log 10 x + 1 - p) by omega)
  refine ⟨10 ^ k, ?_⟩
  unfold lastDigit
  push_cast
  rw [← zpow_natCast, ← zpow_add₀ (by norm_num : (10 : K) ≠ 0)]
  congr 1
  omega

/-- A rounded number has not left its power of ten, but for the next one itself. -/
theorem roundToDigits_bounds (hp : 0 < p) (h : 0 < x) :
    (10 : K) ^ Int.log 10 x ≤ roundToDigits p x ∧
      roundToDigits p x ≤ (10 : K) ^ (Int.log 10 x + 1) := by
  have hlow : (10 : K) ^ Int.log 10 x ≤ x := by
    exact_mod_cast Int.zpow_log_le_self (by norm_num : 1 < 10) h
  have hhigh : x < (10 : K) ^ (Int.log 10 x + 1) := by
    exact_mod_cast Int.lt_zpow_succ_log_self (by norm_num : 1 < 10) x
  obtain ⟨n, hn⟩ := zpow_eq_mul_lastDigit (x := x) (p := p) (e := Int.log 10 x) (by omega)
  obtain ⟨m, hm⟩ := zpow_eq_mul_lastDigit (x := x) (p := p) (e := Int.log 10 x + 1) (by omega)
  have hpos : 0 < lastDigit p x := lastDigit_pos
  rw [roundToDigits_of_pos h]
  constructor
  · rw [← roundToStep_eq_self hpos hn]
    exact roundToStep_mono hpos hlow
  · rw [← roundToStep_eq_self hpos hm]
    exact roundToStep_mono hpos hhigh.le

theorem roundToDigits_nonneg (h : 0 ≤ x) : 0 ≤ roundToDigits p x := by
  unfold roundToDigits
  split
  · exact le_refl 0
  · exact roundToStep_nonneg lastDigit_pos h

/-- **Rounding to significant digits is monotone**, also from one power of ten to another. -/
theorem roundToDigits_mono (hp : 0 < p) (hx : 0 ≤ x) (h : x ≤ y) :
    roundToDigits p x ≤ roundToDigits p y := by
  rcases hx.eq_or_lt with rfl | hpos
  · rw [roundToDigits_zero]
    exact roundToDigits_nonneg h
  · have hy : 0 < y := lt_of_lt_of_le hpos h
    have hlog : Int.log 10 x ≤ Int.log 10 y := Int.log_mono_right hpos h
    rcases hlog.eq_or_lt with heq | hlt
    · rw [roundToDigits_of_pos hpos, roundToDigits_of_pos hy]
      unfold lastDigit
      rw [heq]
      exact roundToStep_mono (by positivity) h
    · calc roundToDigits p x ≤ (10 : K) ^ (Int.log 10 x + 1) := (roundToDigits_bounds hp hpos).2
        _ ≤ (10 : K) ^ Int.log 10 y := zpow_le_zpow_right₀ (by norm_num) (by omega)
        _ ≤ roundToDigits p y := (roundToDigits_bounds hp hy).1

/-- **A number of at most `p` digits is kept**: `n` units of a power of ten. -/
theorem roundToDigits_eq_self {n : ℕ} {e : ℤ} (hn : n < 10 ^ p) :
    roundToDigits p ((n : K) * 10 ^ e) = n * 10 ^ e := by
  rcases Nat.eq_zero_or_pos n with rfl | hpos
  · simp [roundToDigits_zero]
  · have hx : 0 < (n : K) * 10 ^ e := by positivity
    have hlt : (n : K) * 10 ^ e < (10 : K) ^ ((p : ℤ) + e) := by
      rw [zpow_add₀ (by norm_num : (10 : K) ≠ 0), zpow_natCast]
      have hcast : (n : K) < 10 ^ p := by exact_mod_cast hn
      exact mul_lt_mul_of_pos_right hcast (by positivity)
    have hlog : Int.log 10 ((n : K) * 10 ^ e) < p + e :=
      (Int.lt_zpow_iff_log_lt (by norm_num : 1 < 10) hx).mp (by exact_mod_cast hlt)
    -- the unit is a multiple of the step
    obtain ⟨m, hm⟩ := zpow_eq_mul_lastDigit (x := (n : K) * 10 ^ e) (p := p) (e := e) (by omega)
    have hgrid : (n : K) * 10 ^ e = ((n * m : ℤ) : K) * lastDigit p ((n : K) * 10 ^ e) := by
      push_cast
      rw [mul_assoc, ← hm]
    rw [roundToDigits_of_pos hx]
    exact roundToStep_eq_self lastDigit_pos hgrid

/-! ## Rounding twice -/

theorem roundHalfUp_eq_iff {n : ℤ} : roundHalfUp x = n ↔ (n : K) - 1 / 2 ≤ x ∧ x < n + 1 / 2 := by
  unfold roundHalfUp
  rw [Int.floor_eq_iff]
  constructor <;> rintro ⟨hlow, hhigh⟩ <;> constructor <;> linarith

/-- **An intermediate rounding changes nothing**, if it is monotone and keeps the half below
the result and some bound of the number under the half above. -/
theorem roundHalfUp_round {f : K → K} {n : ℤ} {b : K}
    (hmono : ∀ a b, 0 ≤ a → a ≤ b → f a ≤ f b) (hx : 0 ≤ x) (hn : roundHalfUp x = n)
    (hpos : 0 ≤ f x) (hhalf : 0 < n → f ((n : K) - 1 / 2) = n - 1 / 2)
    (hbound : f b = b) (hle : x ≤ b) (hlt : b < n + 1 / 2) : roundHalfUp (f x) = n := by
  obtain ⟨hlow, hhigh⟩ := roundHalfUp_eq_iff.mp hn
  rw [roundHalfUp_eq_iff]
  constructor
  · by_cases h : 0 < n
    · have hone : (1 : K) ≤ n := by exact_mod_cast h
      calc (n : K) - 1 / 2 = f ((n : K) - 1 / 2) := (hhalf h).symm
        _ ≤ f x := hmono _ _ (by linarith) hlow
    · have hzero : (n : K) ≤ 0 := by exact_mod_cast not_lt.mp h
      linarith
  · calc f x ≤ f b := hmono _ _ hx hle
      _ = b := hbound
      _ < n + 1 / 2 := hlt

theorem quotient_le_of_lt {a d : ℕ} {n : ℤ} (hd : 0 < d) (h : (a : K) / d < n + 1 / 2) :
    (a : K) / d ≤ n + 1 / 2 - 1 / (2 * d) := by
  have hd' : (0 : K) < d := by exact_mod_cast hd
  rw [div_lt_iff₀ hd'] at h
  have hint : (2 * a : ℤ) < (2 * n + 1) * d := by
    have : (2 * a : K) < (2 * n + 1) * d := by linarith
    exact_mod_cast this
  have hle : (2 * a + 1 : K) ≤ (2 * n + 1) * d := by exact_mod_cast hint
  have hsplit : (n + 1 / 2 - 1 / (2 * d) : K) = ((2 * n + 1) * d - 1) / 2 / d := by
    field_simp
  rw [hsplit, div_le_div_iff_of_pos_right hd']
  linarith

end AramoPlatform.Lib
