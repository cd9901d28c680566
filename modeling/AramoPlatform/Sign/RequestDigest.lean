import AramoPlatform.Js.Objects
import AramoPlatform.Js.TreeForm

/-!
# The digest input of a request

`sign-idempotency.repository.ts`: the text of a request that its idempotency
key is bound to (`stableJson`), and its digest. The text is that of the tree
with sorted members, so it determines the value up to the order of its members
and up to its numbers beyond the doubles, which stand in it as `null`.
-/

namespace AramoPlatform.Sign

open Js List

mutual
/-- What is neither an array nor an object is `JSON.stringify(v ?? null)`. -/
def stableJson : JsVal → JsString
  | .undefined | .null => stringify .null
  | .bool b => stringify (.bool b)
  | .num n => stringify (finiteOrNull (.num n))
  | .str s => stringify (.str s)
  | .arr elems => js "[" ++ joinWith (js ",") (stableElems elems) ++ js "]"
  | .obj members =>
      js "\x7b" ++ joinWith (js ",") ((sortKeys (stableMembers members)).map fun m =>
        quote m.1 ++ js ":" ++ m.2) ++ js "\x7d"
termination_by structural v => v

/-- `v.map(stableJson)`. -/
def stableElems : List JsVal → List JsString
  | [] => []
  | v :: rest => stableJson v :: stableElems rest
termination_by structural l => l

/-- The defined members with their texts. Their order is that of the names. -/
def stableMembers : List (JsString × JsVal) → List (JsString × JsString)
  | [] => []
  | (k, v) :: rest =>
      if v.isUndefined then stableMembers rest else (k, stableJson v) :: stableMembers rest
termination_by structural l => l
end

def idempotencyRequestHash (sha256 : JsString → JsString) (value : JsValue) : JsString :=
  sha256 (stableJson value.val)

theorem stableJson_eq_print (v : JsVal) : stableJson v = print (sortedTree (finiteOrNull v)) := by
  induction v with
  | num n => by_cases hn : isInfinite n <;> simp [stableJson, finiteOrNull, hn] <;> rfl
  | arr l ih =>
    have helems : stableElems l = (sortedElems (finiteElems l)).map print := by
      induction l with
      | nil => rfl
      | cons v rest ihl =>
        rw [stableElems, finiteElems, sortedElems, map_cons, ih v mem_cons_self,
          ihl fun w hw => ih w (mem_cons_of_mem v hw)]
    rw [stableJson, helems, finiteOrNull, sortedTree, print_arr]
    rfl
  | obj ms ih =>
    have hmembers : stableMembers ms =
        (sortedMembers (finiteMembers ms)).map fun m => (m.1, print m.2) := by
      induction ms with
      | nil => rfl
      | cons m rest ihm =>
        obtain ⟨k, v⟩ := m
        have hrest := ihm fun m hm => ih m (mem_cons_of_mem _ hm)
        have hhead := ih (k, v) mem_cons_self
        by_cases hv : v.isUndefined
        · simp [stableMembers, finiteMembers, sortedMembers, hv, hrest]
        · simp [stableMembers, finiteMembers, sortedMembers, hv, hrest, hhead]
    have hcolon (k text : JsString) : quote k ++ js ":" ++ text = quote k ++ 0x3A :: text :=
      append_assoc _ _ _
    rw [stableJson, hmembers, ← map_sortKeys print, map_map, finiteOrNull, sortedTree,
      print_obj]
    simp only [Function.comp_def, hcolon]
    rfl
  | _ => rfl

/-- The text is that of the value with `null` for `Infinity`. -/
theorem stableJson_eq_iff (v w : JsValue) :
    stableJson v.val = stableJson w.val ↔
      SameJson (finiteOrNull v.val) (finiteOrNull w.val) := by
  rw [stableJson_eq_print, stableJson_eq_print]
  have hiff := sortedTree_eq_iff (wf_finiteOrNull v.wf) (wf_finiteOrNull w.wf)
  constructor
  · intro h
    exact hiff.mp (print_injective h)
  · intro h
    rw [hiff.mpr h]

/-- **The digest input is canonical** for two values exactly when they do not
differ only in a number beyond the doubles where the other has `null`. -/
theorem stableJson_canonical_iff (v w : JsValue) :
    (stableJson v.val = stableJson w.val ↔ SameJson v.val w.val) ↔
      (SameJson (finiteOrNull v.val) (finiteOrNull w.val) → SameJson v.val w.val) := by
  rw [stableJson_eq_iff]
  exact ⟨Iff.mp, fun h => ⟨h, sameJson_finiteOrNull⟩⟩

/-- `{"x":1e999}` and `{"x":null}` have one digest input. -/
theorem infinity_digested_as_null : ¬ ∀ v w : JsValue,
    stableJson v.val = stableJson w.val ↔ SameJson v.val w.val := by
  intro hclaim
  have hsame := (hclaim ⟨.obj [(js "x", .num ⟨js "1e309", by decide, by decide⟩)], by decide⟩
    ⟨.obj [(js "x", .null)], by decide⟩).mp (by decide)
  cases hsame with
  | nullish hv _ => rcases hv with hv | hv <;> cases hv
  | obj _ hvals =>
    have hx := hvals (js "x") _ _ ⟨mem_cons_self, by simp⟩ ⟨mem_cons_self, by simp⟩
    cases hx with
    | nullish hv _ => rcases hv with hv | hv <;> cases hv

/-- Names are sorted, and an undefined member is left out. -/
example : stableJson (.obj [(js "b", .null), (js "c", .undefined), (js "a", .bool true)]) =
    js "\x7b\"a\":true,\"b\":null\x7d" := by decide

end AramoPlatform.Sign
