import AramoPlatform.Js.Value

/-!
# Values up to the order of their keys

Two values are the same up to the order of their keys when only the order of
object members differs, at any depth. `sortKeys` is the order in which
`Array.prototype.sort` puts the names of an object: by UTF-16 code units.
-/

namespace AramoPlatform.Js

open Lib List

/-- Equality that ignores the order of object members. -/
inductive SameUpToKeyOrder : JsVal → JsVal → Prop
  | undefined : SameUpToKeyOrder .undefined .undefined
  | null : SameUpToKeyOrder .null .null
  | bool (b : Bool) : SameUpToKeyOrder (.bool b) (.bool b)
  | num (n : JsNum) : SameUpToKeyOrder (.num n) (.num n)
  | str (s : JsString) : SameUpToKeyOrder (.str s) (.str s)
  | arr {l l' : List JsVal} (hlen : l.length = l'.length)
      (helem : ∀ (i : Nat) (v w : JsVal), l[i]? = some v → l'[i]? = some w → SameUpToKeyOrder v w) :
      SameUpToKeyOrder (.arr l) (.arr l')
  | obj {ms ms' : List (JsString × JsVal)}
      (hkeys : ∀ k, (∃ v, (k, v) ∈ ms) ↔ ∃ v, (k, v) ∈ ms')
      (hvals : ∀ k v w, (k, v) ∈ ms → (k, w) ∈ ms' → SameUpToKeyOrder v w) :
      SameUpToKeyOrder (.obj ms) (.obj ms')

theorem member_unique {ms : List (JsString × JsVal)} (hnd : (ms.map Prod.fst).Nodup)
    {k : JsString} {v w : JsVal} (hv : (k, v) ∈ ms) (hw : (k, w) ∈ ms) : v = w := by
  have h := inj_on_of_nodup_map hnd hv hw rfl
  exact (Prod.mk.injEq _ _ _ _ ▸ h).2

namespace SameUpToKeyOrder

theorem refl {v : JsVal} (h : v.wf = true) : SameUpToKeyOrder v v := by
  induction v with
  | undefined => exact .undefined
  | null => exact .null
  | bool b => exact .bool b
  | num n => exact .num n
  | str s => exact .str s
  | arr l ih =>
    refine .arr rfl fun i v w hv hw => ?_
    rw [hv, Option.some.injEq] at hw
    have hmem := mem_of_getElem? hv
    exact hw ▸ ih v hmem (JsVal.wf_arr.mp h v hmem)
  | obj ms ih =>
    obtain ⟨hnd, hwf⟩ := JsVal.wf_obj.mp h
    refine .obj (fun k => Iff.rfl) fun k v w hv hw => ?_
    exact member_unique hnd hv hw ▸ ih (k, v) hv (hwf (k, v) hv)

theorem symm {v w : JsVal} (h : SameUpToKeyOrder v w) : SameUpToKeyOrder w v := by
  induction h with
  | undefined => exact .undefined
  | null => exact .null
  | bool b => exact .bool b
  | num n => exact .num n
  | str s => exact .str s
  | arr hlen _ ih => exact .arr hlen.symm fun i v w hv hw => ih i w v hw hv
  | obj hkeys _ ih => exact .obj (fun k => (hkeys k).symm) fun k v w hv hw => ih k w v hw hv

theorem trans {u v w : JsVal} (h : SameUpToKeyOrder u v) (h' : SameUpToKeyOrder v w) :
    SameUpToKeyOrder u w := by
  induction h generalizing w with
  | undefined | null | bool | num | str => exact h'
  | @arr l l' hlen helem ih =>
    cases h' with
    | arr hlen' helem' =>
      refine .arr (hlen.trans hlen') fun i a c ha hc => ?_
      -- the middle list has an element at this place as well
      have hi : i < l'.length := by
        have := (List.getElem?_eq_some_iff.mp ha).1
        omega
      have hb : l'[i]? = some l'[i] := getElem?_eq_getElem hi
      exact ih i a _ ha hb (helem' i _ c hb hc)
  | @obj ms ms' hkeys hvals ih =>
    cases h' with
    | obj hkeys' hvals' =>
      refine .obj (fun k => (hkeys k).trans (hkeys' k)) fun k a c ha hc => ?_
      obtain ⟨b, hb⟩ := (hkeys k).mp ⟨a, ha⟩
      exact ih k a b ha hb (hvals' k b c hb hc)

theorem isUndefined_eq {v w : JsVal} (h : SameUpToKeyOrder v w) :
    v.isUndefined = w.isUndefined := by
  cases h <;> rfl

end SameUpToKeyOrder

/-! ## The order of `sort()` -/

/-- The order of strings by their code units. -/
def unitsLe : JsString → JsString → Bool
  | [], _ => true
  | _ :: _, [] => false
  | a :: as, b :: bs => a < b || (a == b && unitsLe as bs)

theorem unitsLe_total (x y : JsString) : unitsLe x y = true ∨ unitsLe y x = true := by
  induction x generalizing y with
  | nil => exact .inl rfl
  | cons a x ih =>
    cases y with
    | nil => exact .inr rfl
    | cons b y =>
      simp only [unitsLe, Bool.or_eq_true, decide_eq_true_eq, Bool.and_eq_true, beq_iff_eq]
      have := ih y
      grind

theorem unitsLe_trans {x y z : JsString} (h : unitsLe x y = true) (h' : unitsLe y z = true) :
    unitsLe x z = true := by
  induction x generalizing y z with
  | nil => rfl
  | cons a x ih =>
    cases y with
    | nil => cases h
    | cons b y =>
      cases z with
      | nil => cases h'
      | cons c z =>
        simp only [unitsLe, Bool.or_eq_true, decide_eq_true_eq, Bool.and_eq_true,
          beq_iff_eq] at h h' ⊢
        have hrec := @ih y z
        grind

theorem unitsLe_antisymm {x y : JsString} (h : unitsLe x y = true) (h' : unitsLe y x = true) :
    x = y := by
  induction x generalizing y with
  | nil =>
    cases y with
    | nil => rfl
    | cons b y => cases h'
  | cons a x ih =>
    cases y with
    | nil => cases h
    | cons b y =>
      simp only [unitsLe, Bool.or_eq_true, decide_eq_true_eq, Bool.and_eq_true, beq_iff_eq] at h h'
      have hrec := @ih y
      grind

section Members

variable {α : Type}

/-- The order of members by their names. -/
def keyLe (m m' : JsString × α) : Prop := unitsLe m.1 m'.1 = true

instance : DecidableRel (@keyLe α) := fun m m' =>
  inferInstanceAs (Decidable (unitsLe m.1 m'.1 = true))

instance : Std.Total (@keyLe α) := ⟨fun m m' => unitsLe_total m.1 m'.1⟩

instance : IsTrans (JsString × α) keyLe := ⟨fun _ _ _ => unitsLe_trans⟩

/-- The members in the order of `Object.keys(obj).sort()`. -/
def sortKeys (ms : List (JsString × α)) : List (JsString × α) :=
  (ownKeys ms).insertionSort keyLe

theorem perm_sortKeys (ms : List (JsString × α)) : (sortKeys ms).Perm ms :=
  (perm_insertionSort keyLe (ownKeys ms)).trans (perm_ownKeys ms)

theorem sortKeys_eq_of_perm {ms ms' : List (JsString × α)} (h : ms.Perm ms')
    (hnd : (ms.map Prod.fst).Nodup) : sortKeys ms = sortKeys ms' := by
  have hperm : (ownKeys ms).Perm (ownKeys ms') :=
    (perm_ownKeys ms).trans (h.trans (perm_ownKeys ms').symm)
  refine insertionSort_eq_of_perm hperm fun m hm m' hm' hle hle' => ?_
  have hkey : m.1 = m'.1 := unitsLe_antisymm hle hle'
  exact inj_on_of_nodup_map hnd ((perm_ownKeys ms).mem_iff.mp hm)
    ((perm_ownKeys ms).mem_iff.mp hm') hkey

theorem sortKeys_filter (p : JsString × α → Bool) (ms : List (JsString × α)) :
    sortKeys (ms.filter p) = (sortKeys ms).filter p := by
  rw [sortKeys, sortKeys, ownKeys_filter, filter_insertionSort]

theorem map_sortKeys {β : Type} (g : α → β) (ms : List (JsString × α)) :
    ((sortKeys ms).map fun m => (m.1, g m.2)) = sortKeys (ms.map fun m => (m.1, g m.2)) := by
  rw [sortKeys, sortKeys, ← map_ownKeys (fun m => (m.1, g m.2)) fun _ => rfl]
  exact map_insertionSort _ _ _ _ fun _ _ _ _ => Iff.rfl

end Members

end AramoPlatform.Js
