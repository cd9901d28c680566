import AramoPlatform.Sign.TamperEvidence

/-!
# The fingerprint of a request body

`canonicalize.ts`: the body rebuilt with sorted keys at every level
(`canonicalize`), serialised and digested (`hashCanonicalizedBody`). SHA-256 is
a parameter. The rebuild `result[k] = …` loses an own member named `__proto__`,
and `JSON.stringify` writes `null` for a number beyond the doubles, so what the
text says of a body is the body without both (`legible`).
-/

namespace AramoPlatform.Common

open Js Lib Sign

mutual
def canonicalize : JsVal → JsVal
  | .arr elems => .arr (canonicalizeElems elems)
  | .obj members => .obj ((sortKeys (canonicalizeMembers members)).foldl assign [])
  | v => v
termination_by structural v => v

/-- `value.map(canonicalize)`. -/
def canonicalizeElems : List JsVal → List JsVal
  | [] => []
  | v :: rest => canonicalize v :: canonicalizeElems rest
termination_by structural l => l

/-- The members with each value rebuilt. The order of the keys does not depend
on the values. -/
def canonicalizeMembers : List (JsString × JsVal) → List (JsString × JsVal)
  | [] => []
  | (k, v) :: rest => (k, canonicalize v) :: canonicalizeMembers rest
termination_by structural l => l
end

/-- `JSON.stringify(canonicalize(body))`. -/
def canonicalText (body : JsValue) : JsString := stringify (finiteOrNull (canonicalize body.val))

def hashCanonicalizedBody (sha256 : JsString → JsString) (body : JsValue) : JsString :=
  sha256 (canonicalText body)

/-- The body without its `__proto__` members, and with `null` for `Infinity`. -/
def legible (v : JsVal) : JsVal := stripProto (finiteOrNull v)

/-! ## What is rebuilt -/

theorem canonicalizeElems_eq (l : List JsVal) : canonicalizeElems l = l.map canonicalize := by
  induction l with
  | nil => simp [canonicalizeElems]
  | cons v rest ih => simp [canonicalizeElems, ih]

theorem canonicalizeMembers_eq (ms : List (JsString × JsVal)) :
    canonicalizeMembers ms = ms.map fun m => (m.1, canonicalize m.2) := by
  induction ms with
  | nil => simp [canonicalizeMembers]
  | cons m rest ih => simp [canonicalizeMembers, ih]

@[simp] theorem isUndefined_canonicalize (v : JsVal) :
    (canonicalize v).isUndefined = v.isUndefined := by
  cases v <;> simp [canonicalize, JsVal.isUndefined]

variable {ms : List (JsString × JsVal)}

theorem canonicalize_obj (hnd : (ms.map Prod.fst).Nodup) :
    canonicalize (.obj ms) = .obj (sortKeys ((ms.filter fun m => m.1 != protoKey).map fun m =>
      (m.1, canonicalize m.2))) := by
  have hsorted : ((sortKeys (canonicalizeMembers ms)).map Prod.fst).Nodup := by
    rw [((perm_sortKeys _).map Prod.fst).nodup_iff, canonicalizeMembers_eq]
    simpa [Function.comp_def] using hnd
  rw [canonicalize, foldl_assign _ _ (by simpa using hsorted), List.nil_append,
    ← sortKeys_filter, canonicalizeMembers_eq, List.filter_map]
  congr 3
  simp [Function.comp_def, bne, beq_eq_decide]

theorem canonicalize_stripProto {v : JsVal} (h : v.wf = true) :
    canonicalize (stripProto v) = canonicalize v := by
  induction v with
  | arr l ih =>
    simp only [stripProto, stripElems_eq, canonicalize, canonicalizeElems_eq, List.map_map]
    congr 1
    exact List.map_congr_left fun v hv => ih v hv (JsVal.wf_arr.mp h v hv)
  | obj ms ih =>
    obtain ⟨hnd, hwf⟩ := JsVal.wf_obj.mp h
    have hnd' : ((stripMembers ms).map Prod.fst).Nodup := by
      rw [map_fst_stripMembers]
      exact hnd.sublist (List.filter_sublist.map Prod.fst)
    have hrest : (stripMembers ms).filter (·.1 != protoKey) = stripMembers ms := by
      rw [List.filter_eq_self, stripMembers_eq]
      grind
    rw [stripProto, canonicalize_obj hnd', canonicalize_obj hnd, hrest, stripMembers_eq,
      List.map_map]
    congr 2
    refine List.map_congr_left fun m hm => ?_
    have hmem := (List.mem_filter.mp hm).1
    simp [ih m hmem (hwf m hmem)]
  | _ => rfl

theorem finiteOrNull_canonicalize {v : JsVal} (h : v.wf = true) :
    finiteOrNull (canonicalize v) = canonicalize (finiteOrNull v) := by
  induction v with
  | num n => by_cases hn : isInfinite n <;> simp [canonicalize, finiteOrNull, hn]
  | arr l ih =>
    simp only [canonicalize, canonicalizeElems_eq, finiteOrNull, finiteElems_eq, List.map_map]
    congr 1
    exact List.map_congr_left fun v hv => ih v hv (JsVal.wf_arr.mp h v hv)
  | obj ms ih =>
    obtain ⟨hnd, hwf⟩ := JsVal.wf_obj.mp h
    rw [canonicalize_obj hnd, finiteOrNull, finiteMembers_eq, map_sortKeys finiteOrNull,
      finiteOrNull, canonicalize_obj (nodup_finiteMembers hnd), finiteMembers_eq, List.filter_map,
      List.map_map, List.map_map]
    congr 2
    refine List.map_congr_left fun m hm => ?_
    have hmem := (List.mem_filter.mp hm).1
    simp [ih m hmem (hwf m hmem)]
  | _ => rfl

/-! ## What the text determines -/

/-- The tree of the rebuilt body. -/
def bodyTree (v : JsVal) : Json := toJson (canonicalize v)

theorem bodyTree_arr (l : List JsVal) : bodyTree (.arr l) = .arr (l.map bodyTree) := by
  simp [bodyTree, canonicalize, canonicalizeElems_eq, toJson, toJsonElems_eq, Function.comp_def]

theorem bodyTree_obj (hnd : (ms.map Prod.fst).Nodup) :
    bodyTree (.obj ms) = .obj (ownKeys (sortKeys (keptMembers bodyTree (· != protoKey) ms))) := by
  rw [bodyTree, canonicalize_obj hnd, toJson, toJsonMembers_eq, ← sortKeys_filter,
    map_sortKeys toJson, List.filter_map, List.map_map, List.filter_filter, keptMembers]
  simp [Function.comp_def, bodyTree]

theorem treeForm_bodyTree : TreeForm bodyTree (· != protoKey) where
  undefined := rfl
  null := rfl
  bool _ := rfl
  num _ := rfl
  str _ := rfl
  arr := bodyTree_arr
  obj ms hnd := by
    refine ⟨_, bodyTree_obj hnd, fun k j => ?_⟩
    rw [(perm_ownKeys _).mem_iff, (perm_sortKeys _).mem_iff, mem_keptMembers]

theorem bodyTree_congr {v w : JsVal} (h : SameJson v w) (hv : v.wf = true) (hw : w.wf = true) :
    bodyTree v = bodyTree w := by
  refine form_congr (· != protoKey) rfl (fun l l' hl => ?_) (fun ms ms' hms hms' _ hperm => ?_)
    h hv hw (JsVal.allKeys_true v)
  · rw [bodyTree_arr, bodyTree_arr, hl]
  · have hnd := (JsVal.wf_obj.mp hms).1
    rw [bodyTree_obj hnd, bodyTree_obj (JsVal.wf_obj.mp hms').1,
      sortKeys_eq_of_perm hperm (nodup_keptMembers hnd)]

/-- **The text is that of the legible body.** -/
theorem canonicalText_eq_iff {v w : JsValue} :
    canonicalText v = canonicalText w ↔ SameJson (legible v.val) (legible w.val) := by
  have hwf : ∀ u : JsValue, (legible u.val).wf = true := fun u =>
    wf_stripProto (wf_finiteOrNull u.wf)
  have htree : ∀ u : JsValue, canonicalText u = print (bodyTree (legible u.val)) := by
    intro u
    rw [canonicalText, finiteOrNull_canonicalize u.wf, bodyTree, legible,
      canonicalize_stripProto (wf_finiteOrNull u.wf), stringify]
  rw [htree, htree]
  constructor
  · intro h
    exact treeForm_bodyTree.same (hwf v) (hwf w) (protoFree_stripProto _) (protoFree_stripProto _)
      (print_injective h)
  · intro h
    rw [bodyTree_congr h (hwf v) (hwf w)]

/-- **The text tells two bodies apart as it should exactly when they do not
differ only in what it loses.** -/
theorem canonicalText_canonical_iff (v w : JsValue) :
    (canonicalText v = canonicalText w ↔ SameJson v.val w.val) ↔
      (SameJson (legible v.val) (legible w.val) → SameJson v.val w.val) := by
  rw [canonicalText_eq_iff]
  constructor
  · intro h
    exact h.mp
  · intro h
    refine ⟨h, fun hsame => canonicalText_eq_iff.mp ?_⟩
    rw [canonicalText, canonicalText, finiteOrNull_canonicalize v.wf,
      finiteOrNull_canonicalize w.wf]
    exact congrArg print (bodyTree_congr (sameJson_finiteOrNull hsame) (wf_finiteOrNull v.wf)
      (wf_finiteOrNull w.wf))

/-- A body with the one member `__proto__` has the text of the empty body. -/
theorem protoMember_same_text : ¬ ∀ v w : JsValue,
    canonicalText v = canonicalText w ↔ SameJson v.val w.val := by
  intro hclaim
  have hsame := (hclaim ⟨.obj [(protoKey, .obj [])], by decide⟩ ⟨.obj [], by decide⟩).mp (by decide)
  cases hsame with
  | nullish hv _ => rcases hv with hv | hv <;> cases hv
  | obj hkeys _ =>
    obtain ⟨w, hw, -⟩ := (hkeys protoKey).mp ⟨.obj [], by simp, by simp⟩
    cases hw

end AramoPlatform.Common
