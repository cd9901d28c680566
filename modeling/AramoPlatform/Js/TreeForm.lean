import AramoPlatform.Js.KeyOrder
import AramoPlatform.Js.Stringify

/-!
# Trees that determine a value

The trees that values are compared by differ in the order of their members and
in the names they keep. Two facts serve them all: a form that sees of an object
only its kept members, in any order, is the same for one JSON value
(`form_congr`), and a tree that writes every defined member of the names it
keeps determines the JSON value of those names (`TreeForm.same`). The tree with
sorted members does both.
-/

namespace AramoPlatform.Js

section Forms

variable {α : Type} {form : JsVal → α} {keeps valid : JsString → Bool}
  {ms : List (JsString × JsVal)}

/-- The defined members of the names that are kept, each with its form. -/
def keptMembers (form : JsVal → α) (keeps : JsString → Bool) (ms : List (JsString × JsVal)) :
    List (JsString × α) :=
  (ms.filter fun m => !m.2.isUndefined && keeps m.1).map fun m => (m.1, form m.2)

theorem mem_keptMembers {k : JsString} {a : α} :
    (k, a) ∈ keptMembers form keeps ms ↔
      keeps k = true ∧ ∃ v, JsVal.Defines ms k v ∧ a = form v := by
  simp only [keptMembers, List.mem_map, List.mem_filter, Bool.and_eq_true, Bool.not_eq_true',
    Prod.mk.injEq, JsVal.isUndefined_eq_false]
  constructor
  · rintro ⟨m, ⟨hm, hdef, hk⟩, rfl, rfl⟩
    exact ⟨hk, m.2, ⟨hm, hdef⟩, rfl⟩
  · rintro ⟨hk, v, ⟨hv, hdef⟩, rfl⟩
    exact ⟨(k, v), ⟨hv, hdef, hk⟩, rfl, rfl⟩

theorem nodup_keptMembers (hnd : (ms.map Prod.fst).Nodup) :
    ((keptMembers form keeps ms).map Prod.fst).Nodup := by
  have hkeys : (keptMembers form keeps ms).map Prod.fst =
      (ms.filter fun m => !m.2.isUndefined && keeps m.1).map Prod.fst := by
    simp [keptMembers, Function.comp_def]
  rw [hkeys]
  exact hnd.sublist (List.filter_sublist.map Prod.fst)

/-- **One JSON value has one form**, where the form of an object does not see
the order of the kept members. -/
theorem form_congr (keeps : JsString → Bool) (hnull : form .undefined = form .null)
    (harr : ∀ l l', l.map form = l'.map form → form (.arr l) = form (.arr l'))
    (hobj : ∀ ms ms', (JsVal.obj ms).wf = true → (JsVal.obj ms').wf = true →
      (JsVal.obj ms).allKeys valid = true →
      (keptMembers form keeps ms).Perm (keptMembers form keeps ms') →
      form (.obj ms) = form (.obj ms'))
    {v w : JsVal} (h : SameJson v w) (hv : v.wf = true) (hw : w.wf = true)
    (hkeys : v.allKeys valid = true) : form v = form w := by
  induction h with
  | nullish hn hn' => rcases hn with rfl | rfl <;> rcases hn' with rfl | rfl <;> simp [hnull]
  | bool _ | num _ | str _ => rfl
  | @arr l l' hlen _ ih =>
    refine harr l l' (List.ext_getElem (by simp [hlen]) fun i hi hi' => ?_)
    simp only [List.length_map] at hi hi'
    simp only [List.getElem_map]
    exact ih i _ _ (List.getElem?_eq_getElem hi) (List.getElem?_eq_getElem hi')
      (JsVal.wf_arr.mp hv _ (List.getElem_mem hi)) (JsVal.wf_arr.mp hw _ (List.getElem_mem hi'))
      (JsVal.allKeys_arr.mp hkeys _ (List.getElem_mem hi))
  | @obj ms ms' hsame _ ih =>
    obtain ⟨hnd, hwf⟩ := JsVal.wf_obj.mp hv
    obtain ⟨hnd', hwf'⟩ := JsVal.wf_obj.mp hw
    have hval : ∀ k a b, JsVal.Defines ms k a → JsVal.Defines ms' k b → form a = form b :=
      fun k a b ha hb =>
        ih k a b ha hb (hwf _ ha.1) (hwf' _ hb.1) (JsVal.allKeys_obj.mp hkeys k a ha).2
    refine hobj ms ms' hv hw hkeys ((List.perm_ext_iff_of_nodup (nodup_keptMembers hnd).of_map
      (nodup_keptMembers hnd').of_map).mpr fun ⟨k, x⟩ => ?_)
    rw [mem_keptMembers, mem_keptMembers]
    refine and_congr_right fun _ => ⟨?_, ?_⟩
    · rintro ⟨a, ha, rfl⟩
      obtain ⟨b, hb⟩ := (hsame k).mp ⟨a, ha⟩
      exact ⟨b, hb, hval k a b ha hb⟩
    · rintro ⟨b, hb, rfl⟩
      obtain ⟨a, ha⟩ := (hsame k).mpr ⟨b, hb⟩
      exact ⟨a, ha, (hval k a b ha hb).symm⟩

end Forms

/-- The tree of a value, constructor by constructor; of an object it has the
defined members whose name is kept, in whatever order. -/
structure TreeForm (tree : JsVal → Json) (keeps : JsString → Bool) : Prop where
  undefined : tree .undefined = .null
  null : tree .null = .null
  bool : ∀ b, tree (.bool b) = .bool b
  num : ∀ n, tree (.num n) = .num n
  str : ∀ s, tree (.str s) = .str s
  arr : ∀ l, tree (.arr l) = .arr (l.map tree)
  obj : ∀ ms : List (JsString × JsVal), (ms.map Prod.fst).Nodup →
    ∃ js, tree (.obj ms) = .obj js ∧
      ∀ k j, (k, j) ∈ js ↔ keeps k = true ∧ ∃ v, JsVal.Defines ms k v ∧ j = tree v

/-- The shape of the tree. -/
def JsVal.shape : JsVal → Nat
  | .undefined | .null => 0
  | .bool b => if b then 1 else 2
  | .str _ => 3
  | .arr _ => 4
  | .obj _ => 5
  | .num _ => 6

namespace TreeForm

variable {tree : JsVal → Json} {keeps : JsString → Bool}

section

variable (h : TreeForm tree keeps)

include h

/-- A defined member of one object is found in the other, with the same tree. -/
theorem member_of_eq {ms ms' : List (JsString × JsVal)}
    (hnd : (ms.map Prod.fst).Nodup) (hnd' : (ms'.map Prod.fst).Nodup)
    (heq : tree (.obj ms) = tree (.obj ms')) {k : JsString} {v : JsVal} (hk : keeps k = true)
    (hv : JsVal.Defines ms k v) : ∃ w, JsVal.Defines ms' k w ∧ tree v = tree w := by
  obtain ⟨js, hjs, hmem⟩ := h.obj ms hnd
  obtain ⟨js', hjs', hmem'⟩ := h.obj ms' hnd'
  rw [hjs, hjs', Json.obj.injEq] at heq
  subst heq
  obtain ⟨-, w, hw, hvw⟩ := (hmem' k (tree v)).mp ((hmem k (tree v)).mpr ⟨hk, v, hv, rfl⟩)
  exact ⟨w, hw, hvw⟩

theorem shape_tree {v : JsVal} (hv : v.wf = true) :
    (tree v).shape = v.shape := by
  cases v with
  | undefined => rw [h.undefined]; rfl
  | null => rw [h.null]; rfl
  | bool b => rw [h.bool]; rfl
  | num n => rw [h.num]; rfl
  | str s => rw [h.str]; rfl
  | arr l => rw [h.arr]; rfl
  | obj ms =>
    obtain ⟨js, hjs, -⟩ := h.obj ms (JsVal.wf_obj.mp hv).1
    rw [hjs]
    rfl

theorem shape_eq {v w : JsVal} (hv : v.wf = true) (hw : w.wf = true)
    (heq : tree v = tree w) : v.shape = w.shape := by
  rw [← h.shape_tree hv, heq, h.shape_tree hw]

/-- **The tree determines the value**, where it keeps every name. -/
theorem same {v w : JsVal} (hv : v.wf = true) (hw : w.wf = true)
    (kv : v.allKeys keeps = true) (kw : w.allKeys keeps = true) (heq : tree v = tree w) :
    SameJson v w := by
  induction v generalizing w with
  | undefined | null =>
    have hshape := h.shape_eq hv hw heq
    cases w with
    | undefined | null => exact .nullish (by simp) (by simp)
    | bool b => cases b <;> cases hshape
    | _ => cases hshape
  | bool b =>
    have hshape := h.shape_eq hv hw heq
    cases w with
    | bool b' =>
      have hb : b = b' := by simpa [h.bool] using heq
      exact hb ▸ .bool b
    | _ => cases b <;> cases hshape
  | num n =>
    have hshape := h.shape_eq hv hw heq
    cases w with
    | num n' =>
      have hn : n = n' := by simpa [h.num] using heq
      exact hn ▸ .num n
    | bool b => cases b <;> cases hshape
    | _ => cases hshape
  | str s =>
    have hshape := h.shape_eq hv hw heq
    cases w with
    | str s' =>
      have hs : s = s' := by simpa [h.str] using heq
      exact hs ▸ .str s
    | bool b => cases b <;> cases hshape
    | _ => cases hshape
  | arr l ih =>
    have hshape := h.shape_eq hv hw heq
    cases w with
    | arr l' =>
      have hmap : l.map tree = l'.map tree := by simpa [h.arr] using heq
      refine .arr (by simpa using congrArg List.length hmap) fun i a b ha hb => ?_
      have hab : tree a = tree b := by
        have := congrArg (·[i]?) hmap
        simpa [ha, hb] using this
      have hal := List.mem_of_getElem? ha
      have hbl := List.mem_of_getElem? hb
      exact ih a hal (JsVal.wf_arr.mp hv a hal) (JsVal.wf_arr.mp hw b hbl)
        (JsVal.allKeys_arr.mp kv a hal) (JsVal.allKeys_arr.mp kw b hbl) hab
    | bool b => cases b <;> cases hshape
    | _ => cases hshape
  | obj ms ih =>
    have hshape := h.shape_eq hv hw heq
    obtain ⟨hnd, hwf⟩ := JsVal.wf_obj.mp hv
    cases w with
    | obj ms' =>
      obtain ⟨hnd', hwf'⟩ := JsVal.wf_obj.mp hw
      refine .obj (fun k => ⟨?_, ?_⟩) fun k a b ha hb => ?_
      · rintro ⟨a, ha⟩
        obtain ⟨b, hb, -⟩ := h.member_of_eq hnd hnd' heq (JsVal.allKeys_obj.mp kv k a ha).1 ha
        exact ⟨b, hb⟩
      · rintro ⟨b, hb⟩
        obtain ⟨a, ha, -⟩ := h.member_of_eq hnd' hnd heq.symm (JsVal.allKeys_obj.mp kw k b hb).1 hb
        exact ⟨a, ha⟩
      · obtain ⟨hk, hka⟩ := JsVal.allKeys_obj.mp kv k a ha
        obtain ⟨b', hb', hab⟩ := h.member_of_eq hnd hnd' heq hk ha
        rw [hb'.unique hnd' hb] at hab
        exact ih (k, a) ha.1 (hwf (k, a) ha.1) (hwf' (k, b) hb.1) hka
          (JsVal.allKeys_obj.mp kw k b hb).2 hab
    | bool b => cases b <;> cases hshape
    | _ => cases hshape

end

end TreeForm

/-! ## The tree with sorted members -/

mutual
/-- The tree of a value, with the defined members of every object sorted. -/
def sortedTree : JsVal → Json
  | .undefined | .null => .null
  | .bool b => .bool b
  | .num n => .num n
  | .str s => .str s
  | .arr elems => .arr (sortedElems elems)
  | .obj members => .obj (sortKeys (sortedMembers members))
termination_by structural v => v

def sortedElems : List JsVal → List Json
  | [] => []
  | v :: rest => sortedTree v :: sortedElems rest
termination_by structural l => l

def sortedMembers : List (JsString × JsVal) → List (JsString × Json)
  | [] => []
  | (k, v) :: rest =>
      if v.isUndefined then sortedMembers rest else (k, sortedTree v) :: sortedMembers rest
termination_by structural l => l
end

theorem sortedElems_eq (l : List JsVal) : sortedElems l = l.map sortedTree := by
  induction l with
  | nil => rfl
  | cons v rest ih => simp [sortedElems, ih]

theorem sortedMembers_eq (ms : List (JsString × JsVal)) :
    sortedMembers ms = keptMembers sortedTree (fun _ => true) ms := by
  induction ms with
  | nil => rfl
  | cons m rest ih =>
    obtain ⟨k, v⟩ := m
    by_cases hv : v.isUndefined <;> simp [sortedMembers, keptMembers, hv, ih]

theorem treeForm_sortedTree : TreeForm sortedTree fun _ => true where
  undefined := rfl
  null := rfl
  bool _ := rfl
  num _ := rfl
  str _ := rfl
  arr l := by rw [sortedTree, sortedElems_eq]
  obj ms _ := by
    refine ⟨_, rfl, fun k j => ?_⟩
    rw [(perm_sortKeys _).mem_iff, sortedMembers_eq, mem_keptMembers]

theorem sortedTree_eq_iff {v w : JsVal} (hv : v.wf = true) (hw : w.wf = true) :
    sortedTree v = sortedTree w ↔ SameJson v w := by
  constructor
  · intro h
    exact treeForm_sortedTree.same hv hw (JsVal.allKeys_true v) (JsVal.allKeys_true w) h
  · intro h
    refine form_congr (fun _ => true) rfl (fun l l' hl =>
      ?_) (fun ms ms' hms _ _ hperm => ?_) h hv hw
      (JsVal.allKeys_true v)
    · rw [sortedTree, sortedTree, sortedElems_eq, sortedElems_eq, hl]
    · rw [sortedTree, sortedTree, sortedMembers_eq, sortedMembers_eq,
        sortKeys_eq_of_perm hperm (nodup_keptMembers (JsVal.wf_obj.mp hms).1)]

end AramoPlatform.Js
