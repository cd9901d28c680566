import AramoPlatform.Js.Text
import Mathlib.Algebra.GroupWithZero.Nat

/-!
# Plans and their versions

A subscription is pinned to a version of a plan; the version carries the
terms. One version of a plan at most is published, and that one is sold.
-/

namespace AramoPlatform.Subscription

open Js

abbrev Uuid := Nat

def hexDigit (n : Nat) : UInt16 := (if n < 10 then 48 + n else 87 + n).toUInt16

/-- The `count` hexadecimal digits of `n` from the digit `start` down. -/
def hexDigits (n start count : Nat) : JsString :=
  (List.range count).map fun i => hexDigit (n / 16 ^ (start - i) % 16)

/-- The text of an id: thirty-two digits in five groups. -/
def uuidText (id : Uuid) : JsString :=
  hexDigits id 31 8 ++ js "-" ++ hexDigits id 23 4 ++ js "-" ++ hexDigits id 19 4 ++ js "-" ++
    hexDigits id 15 4 ++ js "-" ++ hexDigits id 11 12

example : uuidText 0x12345678abcd0000ffff00000000000a =
    js "12345678-abcd-0000-ffff-00000000000a" := by
  decide

@[simp] theorem hexDigits_length (n start count : Nat) :
    (hexDigits n start count).length = count := by
  rw [hexDigits, List.length_map, List.length_range]

theorem uuidText_length (id : Uuid) : (uuidText id).length = 36 := by
  have hdash : (js "-").length = 1 := by decide
  simp only [uuidText, List.length_append, hexDigits_length, hdash]

/-- The first unit of an id is a hexadecimal digit, so not the letter `s`. -/
theorem uuidText_head (id : Uuid) : ∃ u rest, uuidText id = u :: rest ∧ u ≠ 115 := by
  have hdigit : ∀ d, d < 16 → Subscription.hexDigit d ≠ 115 := by decide
  obtain ⟨rest, hrest⟩ : ∃ rest,
      hexDigits id 31 8 = Subscription.hexDigit (id / 16 ^ 31 % 16) :: rest := ⟨_, rfl⟩
  have hone := hdigit _ (Nat.mod_lt (id / 16 ^ 31) (by decide))
  rw [uuidText, hrest]
  simp only [List.cons_append]
  exact ⟨_, _, rfl, hone⟩

/-- A key of the product registry, `sign` so far. -/
abbrev ProductKey := JsString

inductive PlanStatus where
  | active
  | inactive
  deriving DecidableEq

inductive SalesModel where
  | selfService
  | contactSales
  | operator
  | free
  deriving DecidableEq

structure Plan where
  id : Uuid
  key : JsString
  productKey : ProductKey
  tenantKind : Option JsString
  status : PlanStatus
  salesModel : SalesModel
  sellable : Bool
  deriving DecidableEq

structure PlanAllowance where
  allowanceKey : JsString
  includedQuantity : Option Nat
  unlimited : Bool
  period : JsString
  deriving DecidableEq

structure AllowanceWindow where
  allowanceKey : JsString
  windowKind : JsString
  limitQuantity : Nat
  deriving DecidableEq

structure PlanCapacity where
  capacityKey : JsString
  limitQuantity : Option Nat
  unlimited : Bool
  deriving DecidableEq

/-- `planVersionTerms`: the terms of a version, past their checksum. -/
structure PlanVersionContent where
  commitmentMonths : Option Nat
  eligibility : Option JsString
  allowances : List PlanAllowance
  allowanceWindows : List AllowanceWindow
  capacities : List PlanCapacity
  deriving DecidableEq

inductive PlanVersionStatus where
  | draft
  | published
  | retired
  deriving DecidableEq

structure PlanVersionRow where
  id : Uuid
  planId : Uuid
  versionNumber : Nat
  status : PlanVersionStatus
  terms : PlanVersionContent
  deriving DecidableEq

def currentPublishedVersion (versions : List PlanVersionRow) (planId : Uuid) :
    Option PlanVersionRow :=
  versions.find? fun v => v.planId == planId && v.status == .published

/-! ## What a change of version takes away -/

/-- The target is a lower quantity than the source. -/
def lowers (fromUnlimited : Bool) (fromQuantity : Option Nat) (toUnlimited : Bool)
    (toQuantity : Option Nat) : Bool :=
  !toUnlimited && (fromUnlimited || match fromQuantity, toQuantity with
    | some f, some t => decide (t < f)
    | _, _ => true)

inductive TermChange where
  | allowance (key : JsString)
  | capacity (key : JsString)
  | window (key windowKind : JsString)
  deriving DecidableEq

/-- `changedTerms`: the terms that the target lowers or leaves undefined. -/
def changedTerms (source target : PlanVersionContent) : List TermChange :=
  (source.allowances.filterMap fun a =>
    match target.allowances.find? (·.allowanceKey == a.allowanceKey) with
    | none => some (.allowance a.allowanceKey)
    | some b =>
      if b.period != a.period ||
          lowers a.unlimited a.includedQuantity b.unlimited b.includedQuantity then
        some (.allowance a.allowanceKey)
      else none) ++
  (source.capacities.filterMap fun c =>
    match target.capacities.find? (·.capacityKey == c.capacityKey) with
    | none => some (.capacity c.capacityKey)
    | some d =>
      if lowers c.unlimited c.limitQuantity d.unlimited d.limitQuantity then
        some (.capacity c.capacityKey)
      else none) ++
  target.allowanceWindows.filterMap fun w =>
    match source.allowanceWindows.find? fun v =>
        v.allowanceKey == w.allowanceKey && v.windowKind == w.windowKind with
    | none => some (.window w.allowanceKey w.windowKind)
    | some v => if w.limitQuantity < v.limitQuantity then some (.window w.allowanceKey w.windowKind)
      else none

end AramoPlatform.Subscription
