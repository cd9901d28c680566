import AramoPlatform.Js.Objects
import AramoPlatform.Sign.HashChain

/-!
# Values read back from jsonb columns

A jsonb column keeps a JSON value and not the text it came in. What is read
back has the members of every object in the storage order of jsonb, shorter
names first and then by their bytes, whatever order they were written in. Two
columns with equal values are therefore read back alike, and `JSON.stringify`
compares them by value.
-/

namespace AramoPlatform.Commercial

open Js Lib Sign List

/-- The members in storage order. Names with the same bytes do not occur in a
column; the inner order makes the result depend on the members alone. -/
def storageOrder (ms : List (JsString × JsVal)) : List (JsString × JsVal) :=
  (sortKeys ms).insertionSort jsonbKeyLe

mutual
/-- What is read back from the column that a value was written to. An
`undefined` element is written as `null`, an `undefined` member not at all. -/
def jsonb : JsVal → JsVal
  | .undefined => .null
  | .arr elems => .arr (jsonbElems elems)
  | .obj members => .obj (storageOrder (jsonbMembers members))
  | v => v
termination_by structural v => v

def jsonbElems : List JsVal → List JsVal
  | [] => []
  | v :: rest => jsonb v :: jsonbElems rest
termination_by structural l => l

def jsonbMembers : List (JsString × JsVal) → List (JsString × JsVal)
  | [] => []
  | (k, v) :: rest =>
      if v.isUndefined then jsonbMembers rest else (k, jsonb v) :: jsonbMembers rest
termination_by structural l => l
end

theorem jsonbElems_eq (l : List JsVal) : jsonbElems l = l.map jsonb := by
  induction l with
  | nil => simp [jsonbElems]
  | cons v rest ih => simp [jsonbElems, ih]

theorem jsonbMembers_eq (ms : List (JsString × JsVal)) :
    jsonbMembers ms = (ms.filter fun m => !m.2.isUndefined).map fun m => (m.1, jsonb m.2) := by
  induction ms with
  | nil => simp [jsonbMembers]
  | cons m rest ih =>
    obtain ⟨k, v⟩ := m
    by_cases hv : v.isUndefined <;> simp [jsonbMembers, hv, ih]

theorem jsonb_ne_undefined (v : JsVal) : jsonb v ≠ .undefined := by
  cases v <;> simp [jsonb]

theorem perm_storageOrder (ms : List (JsString × JsVal)) : (storageOrder ms).Perm ms :=
  (perm_insertionSort jsonbKeyLe _).trans (perm_sortKeys ms)

theorem jsonbMembers_eq_kept (ms : List (JsString × JsVal)) :
    jsonbMembers ms = keptMembers jsonb (fun _ => true) ms := by
  simp [jsonbMembers_eq, keptMembers]

theorem mem_jsonbMembers {ms : List (JsString × JsVal)} {k : JsString} {w : JsVal} :
    (k, w) ∈ jsonbMembers ms ↔ ∃ v, JsVal.Defines ms k v ∧ w = jsonb v := by
  simp [jsonbMembers_eq_kept, mem_keptMembers]

theorem nodup_jsonbMembers {ms : List (JsString × JsVal)} (hnd : (ms.map Prod.fst).Nodup) :
    ((jsonbMembers ms).map Prod.fst).Nodup :=
  jsonbMembers_eq_kept ms ▸ nodup_keptMembers hnd

/-! ## The text of what is read back -/

theorem treeForm_jsonb : TreeForm (fun v => toJson (jsonb v)) (fun _ => true) where
  undefined := rfl
  null := rfl
  bool _ := rfl
  num _ := rfl
  str _ := rfl
  arr l := by simp [jsonb, jsonbElems_eq, toJson, toJsonElems_eq, Function.comp_def]
  obj ms hnd := by
    refine ⟨_, rfl, fun k j => ?_⟩
    rw [(perm_ownKeys _).mem_iff, toJsonMembers_eq]
    simp only [mem_map, mem_filter, (perm_storageOrder _).mem_iff, Prod.mk.injEq,
      Bool.not_eq_true', JsVal.isUndefined_eq_false, true_and]
    constructor
    · rintro ⟨⟨k', w⟩, ⟨hmem, -⟩, rfl, rfl⟩
      obtain ⟨v, hv, rfl⟩ := mem_jsonbMembers.mp hmem
      exact ⟨v, hv, rfl⟩
    · rintro ⟨v, hv, rfl⟩
      exact ⟨(k, jsonb v), ⟨mem_jsonbMembers.mpr ⟨v, hv, rfl⟩, jsonb_ne_undefined v⟩, rfl, rfl⟩

/-- **Equal values are read back alike.** -/
theorem jsonb_congr {v w : JsVal} (h : SameJson v w) (hv : v.wf = true) (hw : w.wf = true) :
    jsonb v = jsonb w := by
  refine form_congr (fun _ => true) rfl (fun l l' hl => ?_)
    (fun ms ms' hms _ _ hperm => ?_) h hv hw (JsVal.allKeys_true v)
  · rw [jsonb, jsonb, jsonbElems_eq, jsonbElems_eq, hl]
  · rw [← jsonbMembers_eq_kept, ← jsonbMembers_eq_kept] at hperm
    rw [jsonb, jsonb, storageOrder, storageOrder,
      sortKeys_eq_of_perm hperm (nodup_jsonbMembers (JsVal.wf_obj.mp hms).1)]

/-- **`JSON.stringify` compares what is read back by value.** -/
theorem stringify_jsonb_iff {v w : JsVal} (hv : v.wf = true) (hw : w.wf = true) :
    stringify (jsonb v) = stringify (jsonb w) ↔ SameJson v w := by
  constructor
  · intro h
    exact treeForm_jsonb.same hv hw (JsVal.allKeys_true v)
      (JsVal.allKeys_true w) (print_injective h)
  · intro h
    rw [jsonb_congr h hv hw]

/-! ## Reading members -/

theorem prop_eq_iff {ms : List (JsString × JsVal)} (hnd : (ms.map Prod.fst).Nodup) {k : String}
    {v : JsVal} (hdef : v ≠ .undefined) :
    (JsVal.obj ms).prop k = v ↔ JsVal.Defines ms (js k) v := by
  simp only [JsVal.prop]
  constructor
  · intro h
    cases hfind : ms.find? (·.1 == js k) with
    | none =>
      simp only [hfind, Option.map_none, Option.getD_none] at h
      exact absurd h.symm hdef
    | some m =>
      simp only [hfind, Option.map_some, Option.getD_some] at h
      have hkey : m.1 = js k := by simpa using find?_some hfind
      have hmem := mem_of_find?_eq_some hfind
      exact ⟨by rw [← hkey, ← h]; exact hmem, hdef⟩
  · rintro ⟨hmem, -⟩
    cases hfind : ms.find? (·.1 == js k) with
    | none => simpa using find?_eq_none.mp hfind (js k, v) hmem
    | some m =>
      have hkey : m.1 = js k := by simpa using find?_some hfind
      have hmem' : (js k, m.2) ∈ ms := hkey ▸ mem_of_find?_eq_some hfind
      rw [Option.map_some, Option.getD_some, member_unique hnd hmem' hmem]

/-- A member is read back as its value is; without a value there is no member. -/
theorem prop_jsonb {v : JsVal} (hv : v.wf = true) (k : String) :
    (jsonb v).prop k = if (v.prop k).isUndefined then .undefined else jsonb (v.prop k) := by
  cases v with
  | obj ms =>
    obtain ⟨hnd, -⟩ := JsVal.wf_obj.mp hv
    have hstored : ((storageOrder (jsonbMembers ms)).map Prod.fst).Nodup := by
      rw [((perm_storageOrder _).map Prod.fst).nodup_iff]
      exact nodup_jsonbMembers hnd
    rw [jsonb]
    by_cases hdef : (JsVal.obj ms).prop k = .undefined
    · rw [hdef]
      show _ = JsVal.undefined
      by_contra hne
      obtain ⟨hmem, -⟩ := (prop_eq_iff hstored hne).mp rfl
      obtain ⟨w, hw, -⟩ := mem_jsonbMembers.mp ((perm_storageOrder _).mem_iff.mp hmem)
      exact hw.2 (((prop_eq_iff hnd hw.2).mpr hw).symm.trans hdef)
    · rw [if_neg (by simpa using hdef)]
      have hdefines := (prop_eq_iff hnd hdef).mp rfl
      exact (prop_eq_iff hstored (jsonb_ne_undefined _)).mpr
        ⟨(perm_storageOrder _).mem_iff.mpr (mem_jsonbMembers.mpr ⟨_, hdefines, rfl⟩),
          jsonb_ne_undefined _⟩
  | _ => rfl

end AramoPlatform.Commercial
