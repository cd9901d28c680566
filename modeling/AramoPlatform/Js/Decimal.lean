import AramoPlatform.Js.Date
import AramoPlatform.Lib.Rounding
import Mathlib.Data.Nat.Digits.Lemmas
import Mathlib.Data.Rat.Floor

/-!
# Decimals

`Prisma.Decimal` as it is configured: every operation is rounded half up to
twenty significant digits. A decimal is its value; the amounts that occur are
not negative.
-/

namespace AramoPlatform.Js

open Lib List

/-! ## Digits -/

def isDigit (u : UInt16) : Bool := 0x30 ≤ u && u ≤ 0x39

def digitUnitOf (d : Nat) : UInt16 := (48 + d).toUInt16

def digitValue (u : UInt16) : Nat := u.toNat - 48

/-- The number that digits write. -/
def digitsValue (s : JsString) : Nat := Nat.ofDigits 10 (s.reverse.map digitValue)

/-- A number without leading zeros. -/
def natText (n : Nat) : JsString :=
  if n = 0 then js "0" else (Nat.digits 10 n).reverse.map digitUnitOf

theorem digitUnitOf_spec : ∀ d, d < 10 →
    isDigit (digitUnitOf d) = true ∧ digitValue (digitUnitOf d) = d := by decide

theorem digitsValue_map {ds : List Nat} (h : ∀ d ∈ ds, d < 10) :
    digitsValue (ds.reverse.map digitUnitOf) = Nat.ofDigits 10 ds := by
  unfold digitsValue
  rw [← map_reverse, reverse_reverse, map_map]
  congr 1
  conv_rhs => rw [← map_id ds]
  apply map_congr_left
  intro d hd
  exact (digitUnitOf_spec d (h d hd)).2

theorem digitsValue_lt {s : JsString} (h : s.all isDigit = true) :
    digitsValue s < 10 ^ s.length := by
  have hdigits : ∀ d ∈ s.reverse.map digitValue, d < 10 := by
    intro d hd
    obtain ⟨u, hu, rfl⟩ := mem_map.mp hd
    have hdigit := all_eq_true.mp h u (mem_reverse.mp hu)
    unfold isDigit at hdigit
    unfold digitValue
    rw [Bool.and_eq_true, decide_eq_true_eq, decide_eq_true_eq, UInt16.le_iff_toNat_le,
      UInt16.le_iff_toNat_le] at hdigit
    have hle : u.toNat ≤ 57 := hdigit.2
    omega
  have hlt := Nat.ofDigits_lt_base_pow_length (by omega : 1 < 10) hdigits
  rwa [length_map, length_reverse] at hlt

theorem digitsValue_natText (n : Nat) : digitsValue (natText n) = n := by
  unfold natText
  split
  next h =>
    subst h
    rfl
  next h =>
    rw [digitsValue_map fun d hd => Nat.digits_lt_base (by omega) hd, Nat.ofDigits_digits]

theorem isDigit_natText (n : Nat) : ∀ u ∈ natText n, isDigit u = true := by
  unfold natText
  split
  · exact all_eq_true.mp (by decide)
  · intro u hu
    obtain ⟨d, hd, rfl⟩ := mem_map.mp hu
    exact (digitUnitOf_spec d (Nat.digits_lt_base (by omega) (mem_reverse.mp hd))).1

theorem natText_ne_nil (n : Nat) : natText n ≠ [] := by
  unfold natText
  split
  · decide
  next h => simpa using Nat.digits_ne_nil_iff_ne_zero.mpr h

theorem isDigit_decimals (w n : Nat) : ∀ u ∈ decimals w n, isDigit u = true := by
  induction w generalizing n with
  | zero => simp [decimals]
  | succ w ih =>
    intro u hu
    rcases mem_append.mp hu with h | h
    · exact ih _ u h
    · rw [mem_singleton.mp h]
      exact (digitUnitOf_spec (n % 10) (Nat.mod_lt _ (by omega))).1

theorem length_decimals (w n : Nat) : (decimals w n).length = w := by
  induction w generalizing n with
  | zero => rfl
  | succ w ih => simp [decimals, ih]

theorem digitsValue_decimals (w n : Nat) : digitsValue (decimals w n) = n % 10 ^ w := by
  induction w generalizing n with
  | zero => simp [decimals, digitsValue, Nat.mod_one]
  | succ w ih =>
    have hlast := (digitUnitOf_spec (n % 10) (Nat.mod_lt _ (by omega))).2
    have hih := ih (n / 10)
    unfold digitsValue at hih ⊢
    unfold decimals
    rw [reverse_append, reverse_singleton, singleton_append, map_cons,
      Nat.ofDigits_cons, hih, show (48 + n % 10).toUInt16 = digitUnitOf (n % 10) from rfl, hlast,
      Nat.pow_succ, Nat.mul_comm (10 ^ w) 10, Nat.mod_mul]

/-! ## Decimals -/

abbrev Decimal := ℚ

namespace Decimal

/-- `new Decimal`, of a text with digits and perhaps a point; others do not reach it. -/
def ofText (s : JsString) : Option Decimal :=
  let whole := s.takeWhile isDigit
  match s.dropWhile isDigit with
  | [] => if whole = [] then none else some (digitsValue whole)
  | point :: fraction =>
    if point = 0x2E ∧ whole ≠ [] ∧ fraction ≠ [] ∧ fraction.all isDigit = true then
      some (digitsValue whole + digitsValue fraction / 10 ^ fraction.length)
    else none

/-- The `precision` that is not configured otherwise. -/
def precision : Nat := 20

def times (x y : Decimal) : Decimal := roundToDigits precision (x * y)

def div (x y : Decimal) : Decimal := roundToDigits precision (x / y)

/-- The hundredths of a decimal, half up. -/
def cents (x : Decimal) : Nat := (roundHalfUp (x * 100)).toNat

/-- An amount of cents with two decimal places. -/
def centsText (n : Nat) : JsString := natText (n / 100) ++ js "." ++ decimals 2 (n % 100)

/-- `toFixed(2, ROUND_HALF_UP)`. -/
def toFixed2 (x : Decimal) : JsString := centsText x.cents

theorem ofText_centsText (n : Nat) : ofText (centsText n) = some ((n : ℚ) / 100) := by
  have hpoint : isDigit 0x2E = false := by decide
  have htake : (centsText n).takeWhile isDigit = natText (n / 100) := by
    unfold centsText
    rw [append_assoc, takeWhile_append_of_pos (isDigit_natText _)]
    simp [js, utf16Encode, hpoint]
  have hdrop : (centsText n).dropWhile isDigit = 0x2E :: decimals 2 (n % 100) := by
    unfold centsText
    rw [append_assoc, dropWhile_append_of_pos (isDigit_natText _)]
    simp [js, utf16Encode, hpoint]
  have hsome : decimals 2 (n % 100) ≠ [] := by
    intro h
    have := length_decimals 2 (n % 100)
    rw [h] at this
    cases this
  unfold ofText
  rw [htake, hdrop]
  dsimp only
  rw [if_pos ⟨rfl, natText_ne_nil _, hsome, all_eq_true.mpr (isDigit_decimals _ _)⟩,
    digitsValue_natText, digitsValue_decimals, length_decimals]
  congr 1
  have hsplit : (n : ℚ) = 100 * (n / 100 : ℕ) + (n % 100 : ℕ) := by
    exact_mod_cast (Nat.div_add_mod n 100).symm
  rw [show n % 100 % 10 ^ 2 = n % 100 by omega]
  conv_rhs => rw [hsplit]
  ring

end Decimal

end AramoPlatform.Js
