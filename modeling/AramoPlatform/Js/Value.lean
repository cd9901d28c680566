import AramoPlatform.Js.Text
import AramoPlatform.Lib.Sorting

/-!
# JavaScript values

The values a ledger payload can hold: what `JSON.parse` or an object literal
gives, `undefined` included. An object is its own enumerable members in
creation order. `ownKeys` is the order in which the language enumerates them
and `assign` is `out[k] = v` on a plain object, where the name `__proto__`
reaches the prototype setter and creates no own property.

Two values are the same JSON value (`SameJson`) when they differ at most in
the order of object members, in `undefined` members, and in `undefined`
standing where JSON has `null`.
-/

namespace AramoPlatform.Js

open Lib List

/-- The units `Number::toString` uses for a finite number. -/
def isNumUnit (u : UInt16) : Bool :=
  (48 ≤ u && u ≤ 57) || u == 0x2D || u == 0x2B || u == 0x2E || u == 0x65

/-- A finite number, as `Number::toString` writes it. -/
structure JsNum where
  text : JsString
  nonempty : text ≠ []
  numeric : text.all isNumUnit = true
  deriving DecidableEq

/-- The raw shape of a value. Well-formed values are `JsValue`. -/
inductive JsVal where
  | undefined
  | null
  | bool (b : Bool)
  | num (n : JsNum)
  | str (s : JsString)
  | arr (elems : List JsVal)
  | obj (members : List (JsString × JsVal))

namespace JsVal

def isUndefined : JsVal → Bool
  | .undefined => true
  | _ => false

@[simp] theorem isUndefined_eq_false {v : JsVal} : v.isUndefined = false ↔ v ≠ .undefined := by
  cases v <;> simp [isUndefined]

@[simp] theorem isUndefined_str (s : JsString) : (str s).isUndefined = false := rfl

@[elab_as_elim, induction_eliminator]
theorem induct {P : JsVal → Prop} (undefined : P .undefined) (null : P .null)
    (bool : ∀ b, P (.bool b)) (num : ∀ n, P (.num n)) (str : ∀ s, P (.str s))
    (arr : ∀ elems : List JsVal, (∀ v ∈ elems, P v) → P (.arr elems))
    (obj : ∀ members : List (JsString × JsVal), (∀ m ∈ members, P m.2) → P (.obj members)) :
    ∀ v, P v
  | .undefined => undefined
  | .null => null
  | .bool b => bool b
  | .num n => num n
  | .str s => str s
  | .arr elems => arr elems fun v _ => induct undefined null bool num str arr obj v
  | .obj members => obj members fun m _ => induct undefined null bool num str arr obj m.2
termination_by v => sizeOf v
decreasing_by
  · rename_i hv
    have := sizeOf_lt_of_mem hv
    simp only [JsVal.arr.sizeOf_spec]
    omega
  · rename_i hm
    have hlt := sizeOf_lt_of_mem hm
    obtain ⟨k, v⟩ := m
    simp only [JsVal.obj.sizeOf_spec, Prod.mk.sizeOf_spec] at hlt ⊢
    omega

mutual
/-- Every object below has its member names once. -/
def wf : JsVal → Bool
  | .arr elems => wfElems elems
  | .obj members => decide (members.map Prod.fst).Nodup && wfMembers members
  | _ => true
termination_by structural v => v

def wfElems : List JsVal → Bool
  | [] => true
  | v :: rest => v.wf && wfElems rest
termination_by structural l => l

def wfMembers : List (JsString × JsVal) → Bool
  | [] => true
  | (_, v) :: rest => v.wf && wfMembers rest
termination_by structural l => l
end

theorem wfElems_eq (l : List JsVal) : wfElems l = l.all wf := by
  induction l with
  | nil => simp [wfElems]
  | cons v rest ih => simp [wfElems, ih]

theorem wfMembers_eq (l : List (JsString × JsVal)) : wfMembers l = l.all (fun m => m.2.wf) := by
  induction l with
  | nil => simp [wfMembers]
  | cons m rest ih => simp [wfMembers, ih]

theorem wf_arr {elems : List JsVal} : (arr elems).wf = true ↔ ∀ v ∈ elems, v.wf = true := by
  simp [wf, wfElems_eq]

theorem wf_obj {members : List (JsString × JsVal)} :
    (obj members).wf = true ↔
      (members.map Prod.fst).Nodup ∧ ∀ m ∈ members, m.2.wf = true := by
  simp [wf, wfMembers_eq]

/-- A member the program sees as set. -/
def Defines (members : List (JsString × JsVal)) (k : JsString) (v : JsVal) : Prop :=
  (k, v) ∈ members ∧ v ≠ .undefined

theorem Defines.unique {members : List (JsString × JsVal)} (hnd : (members.map Prod.fst).Nodup)
    {k : JsString} {v w : JsVal} (hv : Defines members k v) (hw : Defines members k w) :
    v = w := by
  have h := inj_on_of_nodup_map hnd hv.1 hw.1 rfl
  exact (Prod.mk.injEq _ _ _ _ ▸ h).2

mutual
/-- Every name of a defined member, at any depth, passes the test. -/
def allKeys (p : JsString → Bool) : JsVal → Bool
  | .arr elems => allKeysElems p elems
  | .obj members => allKeysMembers p members
  | _ => true
termination_by structural v => v

def allKeysElems (p : JsString → Bool) : List JsVal → Bool
  | [] => true
  | v :: rest => v.allKeys p && allKeysElems p rest
termination_by structural l => l

def allKeysMembers (p : JsString → Bool) : List (JsString × JsVal) → Bool
  | [] => true
  | (k, v) :: rest => (v.isUndefined || p k) && v.allKeys p && allKeysMembers p rest
termination_by structural l => l
end

theorem allKeys_arr {p : JsString → Bool} {l : List JsVal} :
    (arr l).allKeys p = true ↔ ∀ v ∈ l, v.allKeys p = true := by
  have helems : allKeysElems p l = l.all (allKeys p) := by
    induction l with
    | nil => simp [allKeysElems]
    | cons v rest ih => simp [allKeysElems, ih]
  simp [allKeys, helems]

theorem allKeys_obj {p : JsString → Bool} {ms : List (JsString × JsVal)} :
    (obj ms).allKeys p = true ↔ ∀ k v, Defines ms k v → p k = true ∧ v.allKeys p = true := by
  have hmembers : allKeysMembers p ms =
      ms.all fun m => (m.2.isUndefined || p m.1) && m.2.allKeys p := by
    induction ms with
    | nil => simp [allKeysMembers]
    | cons m rest ih => simp [allKeysMembers, ih]
  simp only [allKeys, hmembers, all_eq_true, Bool.and_eq_true, Bool.or_eq_true]
  constructor
  · rintro h k v ⟨hmem, hdef⟩
    obtain ⟨hk, hv⟩ := h (k, v) hmem
    rw [← isUndefined_eq_false] at hdef
    simp only [hdef, Bool.false_eq_true, false_or] at hk
    exact ⟨hk, hv⟩
  · rintro h ⟨k, v⟩ hmem
    by_cases hdef : v = .undefined
    · subst hdef
      exact ⟨.inl rfl, rfl⟩
    · exact ⟨.inr (h k v ⟨hmem, hdef⟩).1, (h k v ⟨hmem, hdef⟩).2⟩

theorem allKeys_true (v : JsVal) : v.allKeys (fun _ => true) = true := by
  induction v with
  | arr l ih => exact allKeys_arr.mpr ih
  | obj ms ih => exact allKeys_obj.mpr fun k v hv => ⟨rfl, ih (k, v) hv.1⟩
  | _ => rfl

end JsVal

/-- A value: member names are unique at every level. -/
structure JsValue where
  val : JsVal
  wf : val.wf = true

/-- Equality of JSON values: object order is ignored, undefined members are
dropped, and `undefined` elsewhere is `null`. -/
inductive SameJson : JsVal → JsVal → Prop
  | nullish {v w : JsVal} (hv : v = .undefined ∨ v = .null) (hw : w = .undefined ∨ w = .null) :
      SameJson v w
  | bool (b : Bool) : SameJson (.bool b) (.bool b)
  | num (n : JsNum) : SameJson (.num n) (.num n)
  | str (s : JsString) : SameJson (.str s) (.str s)
  | arr {l l' : List JsVal} (hlen : l.length = l'.length)
      (helem : ∀ (i : Nat) (v w : JsVal), l[i]? = some v → l'[i]? = some w → SameJson v w) :
      SameJson (.arr l) (.arr l')
  | obj {ms ms' : List (JsString × JsVal)}
      (hkeys : ∀ k, (∃ v, JsVal.Defines ms k v) ↔ ∃ v, JsVal.Defines ms' k v)
      (hvals : ∀ k v w, JsVal.Defines ms k v → JsVal.Defines ms' k w → SameJson v w) :
      SameJson (.obj ms) (.obj ms')

theorem SameJson.refl {v : JsVal} (h : v.wf = true) : SameJson v v := by
  induction v with
  | undefined => exact .nullish (.inl rfl) (.inl rfl)
  | null => exact .nullish (.inr rfl) (.inr rfl)
  | bool b => exact .bool b
  | num n => exact .num n
  | str s => exact .str s
  | arr l ih =>
    refine .arr rfl fun i v w hv hw => ?_
    rw [hv, Option.some.injEq] at hw
    have hmem := mem_of_getElem? hv
    exact hw ▸ ih v hmem (JsVal.wf_arr.mp h v hmem)
  | obj ms ih =>
    obtain ⟨hnd, hwf⟩ := JsVal.wf_obj.mp h
    refine .obj (fun k => Iff.rfl) fun k v w hv hw => ?_
    exact hv.unique hnd hw ▸ ih (k, v) hv.1 (hwf (k, v) hv.1)

/-! ## The order of own members -/

/-- The value of a name that is a canonical array index, below `2^32 - 1`. -/
def arrayIndex (k : JsString) : Option Nat :=
  let n := k.foldl (fun n u => 10 * n + (u.toNat - 48)) 0
  if k ≠ [] ∧ (k.all fun u => 48 ≤ u && u ≤ 57) ∧ (k.length = 1 ∨ k.head? ≠ some 48) ∧
      n < 4294967295 then some n
  else none

section Members

variable {α : Type}

/-- The numeric order of array indices. -/
def indexLe (a b : JsString × α) : Prop := (arrayIndex a.1).getD 0 ≤ (arrayIndex b.1).getD 0

instance : DecidableRel (@indexLe α) := fun a b =>
  inferInstanceAs (Decidable ((arrayIndex a.1).getD 0 ≤ (arrayIndex b.1).getD 0))

instance : Std.Total (@indexLe α) := ⟨fun _ _ => Nat.le_total _ _⟩

instance : IsTrans (JsString × α) indexLe := ⟨fun _ _ _ => Nat.le_trans⟩

/-- `OrdinaryOwnPropertyKeys`: array indices first and ascending, then the
other names in creation order. -/
def ownKeys (ms : List (JsString × α)) : List (JsString × α) :=
  (ms.filter fun m => (arrayIndex m.1).isSome).insertionSort indexLe ++
    ms.filter fun m => (arrayIndex m.1).isNone

theorem perm_ownKeys (ms : List (JsString × α)) : (ownKeys ms).Perm ms := by
  have hrest : (ms.filter fun m => (arrayIndex m.1).isNone) =
      ms.filter fun m => !(arrayIndex m.1).isSome := by
    congr 1
    funext m
    cases arrayIndex m.1 <;> rfl
  unfold ownKeys
  rw [hrest]
  exact ((perm_insertionSort _ _).append_right _).trans (filter_append_perm _ ms)

theorem ownKeys_filter (p : JsString × α → Bool) (ms : List (JsString × α)) :
    ownKeys (ms.filter p) = (ownKeys ms).filter p := by
  have hcomm : ∀ q : JsString × α → Bool, (ms.filter p).filter q = (ms.filter q).filter p := by
    intro q
    simp only [filter_filter]
    congr 1
    funext m
    exact Bool.and_comm _ _
  simp only [ownKeys, filter_append, hcomm, filter_insertionSort]

theorem map_ownKeys {β : Type} (f : JsString × α → JsString × β) (hf : ∀ m, (f m).1 = m.1)
    (ms : List (JsString × α)) : (ownKeys ms).map f = ownKeys (ms.map f) := by
  simp only [ownKeys, map_append, filter_map, Function.comp_def, hf]
  congr 1
  refine map_insertionSort _ _ f _ fun a _ b _ => ?_
  simp only [indexLe, hf]

/-- The name whose assignment reaches the prototype setter. -/
def protoKey : JsString := js "__proto__"

/-- `out[k] = v` on an object created as `{}`. -/
def assign (out : List (JsString × α)) (m : JsString × α) : List (JsString × α) :=
  if m.1 = protoKey then out
  else if out.any (·.1 == m.1) then out.map fun o => if o.1 = m.1 then m else o
  else out ++ [m]

/-- Assigning distinct fresh names one after the other appends them all,
except `__proto__`. -/
theorem foldl_assign (ms out : List (JsString × α)) (hnd : ((out ++ ms).map Prod.fst).Nodup) :
    ms.foldl assign out = out ++ ms.filter fun m => m.1 ≠ protoKey := by
  induction ms generalizing out with
  | nil => simp
  | cons m rest ih =>
    have hnd' := hnd
    simp only [map_append, map_cons, nodup_append, nodup_cons,
      mem_cons] at hnd
    obtain ⟨hout, ⟨hm, hrest⟩, hdisj⟩ := hnd
    have hskip : ((out ++ rest).map Prod.fst).Nodup := by
      simp only [map_append, nodup_append]
      exact ⟨hout, hrest, fun a ha b hb => hdisj a ha b (.inr hb)⟩
    rw [foldl_cons]
    by_cases hp : m.1 = protoKey
    · rw [show assign out m = out by simp [assign, hp], ih out hskip]
      simp [hp]
    · have hfresh : (out.any fun o => o.1 == m.1) = false := by
        simp only [any_eq_false, beq_iff_eq]
        intro o ho heq
        exact hdisj o.1 (mem_map_of_mem ho) m.1 (.inl rfl) heq
      rw [show assign out m = out ++ [m] by simp [assign, hp, hfresh],
        ih (out ++ [m]) (by simpa using hnd')]
      simp [hp]

end Members

end AramoPlatform.Js
