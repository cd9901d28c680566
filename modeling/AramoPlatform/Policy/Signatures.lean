import AramoPlatform.Js.KeyOrder
import AramoPlatform.Js.Stringify
import Mathlib.Data.List.Forall2

/-!
# The text of an effect's parameters

`stable` of `compose.ts`, the serialisation with sorted keys that tells the
parameters of effects apart. `JSON.stringify` gives no text for `undefined`
and `null` for a number beyond the doubles, so what the text says of a value is
the value without both (`asWritten`): up to the order of keys it says no more
and no less.
-/

namespace AramoPlatform.Policy

open Js Lib List

/-- `parts.join(',')`. -/
def joinComma : List JsString → JsString
  | [] => []
  | [part] => part
  | part :: rest => part ++ 0x2C :: joinComma rest

mutual
/-- `none` is the `undefined` that `JSON.stringify(undefined)` returns: `join`
writes it as nothing and a template literal as its name. -/
def stable : JsVal → Option JsString
  | .undefined => none
  | .null => some (stringify .null)
  | .bool b => some (stringify (.bool b))
  | .num n => some (stringify (finiteOrNull (.num n)))
  | .str s => some (stringify (.str s))
  | .arr elems => some (0x5B :: (joinComma (stableElems elems) ++ [0x5D]))
  | .obj members =>
      some (0x7B :: (joinComma ((sortKeys (stableMembers members)).map fun m =>
        quote m.1 ++ 0x3A :: m.2) ++ [0x7D]))
termination_by structural v => v

def stableElems : List JsVal → List JsString
  | [] => []
  | v :: rest => (stable v).getD [] :: stableElems rest
termination_by structural l => l

/-- The members with the text of each value. Their order is that of the names. -/
def stableMembers : List (JsString × JsVal) → List (JsString × JsString)
  | [] => []
  | (k, v) :: rest => (k, (stable v).getD (js "undefined")) :: stableMembers rest
termination_by structural l => l
end

mutual
/-- What the text says of a value: `Infinity` stands in it as `null`, and an
array of one `undefined` as the empty array. -/
def asWritten : JsVal → JsVal
  | .num n => if isInfinite n then .null else .num n
  | .arr elems =>
      .arr (if elems.map JsVal.isUndefined = [true] then [] else writtenElems elems)
  | .obj members => .obj (writtenMembers members)
  | v => v
termination_by structural v => v

def writtenElems : List JsVal → List JsVal
  | [] => []
  | v :: rest => asWritten v :: writtenElems rest
termination_by structural l => l

def writtenMembers : List (JsString × JsVal) → List (JsString × JsVal)
  | [] => []
  | (k, v) :: rest => (k, asWritten v) :: writtenMembers rest
termination_by structural l => l
end

theorem stableElems_eq (l : List JsVal) : stableElems l = l.map fun v => (stable v).getD [] := by
  induction l with
  | nil => simp [stableElems]
  | cons v rest ih => simp [stableElems, ih]

theorem stableMembers_eq (ms : List (JsString × JsVal)) :
    stableMembers ms = ms.map fun m => (m.1, (stable m.2).getD (js "undefined")) := by
  induction ms with
  | nil => simp [stableMembers]
  | cons m rest ih => simp [stableMembers, ih]

theorem writtenElems_eq (l : List JsVal) : writtenElems l = l.map asWritten := by
  induction l with
  | nil => simp [writtenElems]
  | cons v rest ih => simp [writtenElems, ih]

theorem writtenMembers_eq (ms : List (JsString × JsVal)) :
    writtenMembers ms = ms.map fun m => (m.1, asWritten m.2) := by
  induction ms with
  | nil => simp [writtenMembers]
  | cons m rest ih => simp [writtenMembers, ih]

theorem keys_stableMembers (ms : List (JsString × JsVal)) :
    (stableMembers ms).map Prod.fst = ms.map Prod.fst := by
  simp [stableMembers_eq, Function.comp_def]

theorem keys_writtenMembers (ms : List (JsString × JsVal)) :
    (writtenMembers ms).map Prod.fst = ms.map Prod.fst := by
  simp [writtenMembers_eq, Function.comp_def]

@[simp] theorem isUndefined_asWritten (v : JsVal) : (asWritten v).isUndefined = v.isUndefined := by
  cases v with
  | num n => by_cases hn : isInfinite n <;> simp [asWritten, hn, JsVal.isUndefined]
  | _ => simp [asWritten, JsVal.isUndefined]

theorem wf_asWritten {v : JsVal} (h : v.wf = true) : (asWritten v).wf = true := by
  induction v with
  | num n => by_cases hn : isInfinite n <;> simp [asWritten, hn, JsVal.wf]
  | arr l ih =>
    rw [asWritten]
    split
    · rfl
    · simp only [writtenElems_eq, JsVal.wf_arr, forall_mem_map] at h ⊢
      exact fun v hv => ih v hv (h v hv)
  | obj ms ih =>
    obtain ⟨hnd, hwf⟩ := JsVal.wf_obj.mp h
    refine JsVal.wf_obj.mpr ⟨by rwa [keys_writtenMembers], ?_⟩
    simp only [writtenMembers_eq, forall_mem_map]
    exact fun m hm => ih m hm (hwf m hm)
  | _ => rfl

/-! ## The text is that of the value as written -/

theorem eq_undefined_of_lone {l : List JsVal} (h : l.map JsVal.isUndefined = [true]) :
    l = [.undefined] := by
  obtain ⟨v, rfl, hv⟩ := map_eq_singleton_iff.mp h
  cases v <;> first | rfl | cases hv

theorem stable_asWritten (v : JsVal) : stable (asWritten v) = stable v := by
  induction v with
  | num n => by_cases hn : isInfinite n <;> simp [stable, asWritten, finiteOrNull, hn]
  | arr l ih =>
    rw [asWritten]
    split
    next hlone =>
      rw [eq_undefined_of_lone hlone]
      decide
    · rw [stable, stable, writtenElems_eq, stableElems_eq, stableElems_eq, map_map]
      congr 4
      exact map_congr_left fun v hv => by simp [ih v hv]
  | obj ms ih =>
    have hmembers : stableMembers (writtenMembers ms) = stableMembers ms := by
      rw [writtenMembers_eq, stableMembers_eq, stableMembers_eq, map_map]
      exact map_congr_left fun m hm => by simp [ih m hm]
    rw [asWritten, stable, stable, hmembers]
  | _ => rfl

theorem stable_congr {v w : JsVal} (h : SameUpToKeyOrder v w) (hv : v.wf = true)
    (hw : w.wf = true) : stable v = stable w := by
  induction h with
  | undefined | null | bool b | num n | str s => rfl
  | @arr l l' hlen _ ih =>
    have helems : stableElems l = stableElems l' := by
      rw [stableElems_eq, stableElems_eq]
      apply ext_getElem
      · simpa using hlen
      · intro i hi hi'
        simp only [length_map] at hi hi'
        simp only [getElem_map]
        rw [ih i l[i] l'[i] (getElem?_eq_getElem hi) (getElem?_eq_getElem hi')
          (JsVal.wf_arr.mp hv _ (getElem_mem hi))
          (JsVal.wf_arr.mp hw _ (getElem_mem hi'))]
    simp only [stable, helems]
  | @obj ms ms' hkeys _ ih =>
    obtain ⟨hnd, hwf⟩ := JsVal.wf_obj.mp hv
    obtain ⟨hnd', hwf'⟩ := JsVal.wf_obj.mp hw
    have hkeysNd : ((stableMembers ms).map Prod.fst).Nodup := by rwa [keys_stableMembers]
    have hkeysNd' : ((stableMembers ms').map Prod.fst).Nodup := by rwa [keys_stableMembers]
    -- both objects have the same names, and the same text under each
    have hmem : ∀ m, m ∈ stableMembers ms ↔ m ∈ stableMembers ms' := by
      rintro ⟨name, text⟩
      simp only [stableMembers_eq, mem_map, Prod.mk.injEq, Prod.exists]
      constructor
      · rintro ⟨k, v, hv, rfl, rfl⟩
        obtain ⟨w, hw⟩ := (hkeys k).mp ⟨v, hv⟩
        exact ⟨k, w, hw, rfl, by rw [ih k v w hv hw (hwf _ hv) (hwf' _ hw)]⟩
      · rintro ⟨k, w, hw, rfl, rfl⟩
        obtain ⟨v, hv⟩ := (hkeys k).mpr ⟨w, hw⟩
        exact ⟨k, v, hv, rfl, by rw [ih k v w hv hw (hwf _ hv) (hwf' _ hw)]⟩
    have hperm : (stableMembers ms).Perm (stableMembers ms') :=
      (perm_ext_iff_of_nodup hkeysNd.of_map hkeysNd'.of_map).mpr hmem
    simp only [stable, sortKeys_eq_of_perm hperm hkeysNd]

/-! ## The text is prefix-free -/

/-- The text of a member's value. -/
def memberText (v : JsVal) : JsString := (stable v).getD (js "undefined")

/-- The text of an element. -/
def elemText (v : JsVal) : JsString := (stable v).getD []

theorem elemText_eq {v : JsVal} (h : v ≠ .undefined) : elemText v = memberText v := by
  cases v <;> first | rfl | exact absurd rfl h

/-- The class of the unit that the text starts with. -/
def textClass : JsVal → Nat
  | .undefined => 7
  | .null => 0
  | .bool b => if b then 1 else 2
  | .num n => if isInfinite n then 0 else 6
  | .str _ => 3
  | .arr _ => 4
  | .obj _ => 5

theorem memberText_head (v : JsVal) :
    ∃ u t, memberText v = u :: t ∧ headClass u = textClass v := by
  cases v with
  | undefined => exact ⟨_, _, rfl, by decide⟩
  | null => exact ⟨_, _, rfl, by decide⟩
  | bool b => cases b <;> exact ⟨_, _, rfl, by decide⟩
  | num n =>
    obtain ⟨u, t, hprint, hu⟩ := print_head (toJson (finiteOrNull (.num n)))
    refine ⟨u, t, hprint, hu.trans ?_⟩
    by_cases hn : isInfinite n <;> simp [finiteOrNull, textClass, hn, toJson, Json.shape]
  | str s => exact ⟨0x22, quoteBody s ++ [0x22], rfl, rfl⟩
  | arr l => exact ⟨_, _, rfl, rfl⟩
  | obj ms => exact ⟨_, _, rfl, rfl⟩

theorem textClass_eq {v w : JsVal} {r r' : JsString}
    (h : memberText v ++ r = memberText w ++ r') : textClass v = textClass w := by
  obtain ⟨u, t, hv, hu⟩ := memberText_head v
  obtain ⟨u', t', hw, hu'⟩ := memberText_head w
  rw [hv, hw] at h
  rw [← hu, ← hu', (List.cons.inj h).1]

theorem eq_undefined_of_textClass {v : JsVal} (h : textClass v = 7) : v = .undefined := by
  cases v with
  | undefined => rfl
  | bool b => cases b <;> cases h
  | num n => by_cases hn : isInfinite n <;> simp [textClass, hn] at h
  | _ => cases h

theorem arr_of_textClass {v : JsVal} (h : textClass v = 4) : ∃ l, v = .arr l := by
  cases v with
  | arr l => exact ⟨l, rfl⟩
  | bool b => cases b <;> cases h
  | num n => by_cases hn : isInfinite n <;> simp [textClass, hn] at h
  | _ => cases h

theorem obj_of_textClass {v : JsVal} (h : textClass v = 5) : ∃ ms, v = .obj ms := by
  cases v with
  | obj ms => exact ⟨ms, rfl⟩
  | bool b => cases b <;> cases h
  | num n => by_cases hn : isInfinite n <;> simp [textClass, hn] at h
  | _ => cases h

/-- A separator starts no text but that of `undefined`. -/
theorem eq_undefined_of_stops {v : JsVal} {s r : JsString} (hs : Stops s)
    (h : s = memberText v ++ r) : v = .undefined := by
  obtain ⟨u, t, hv, hu⟩ := memberText_head v
  have hclass : headClass u = 7 := by
    rcases hs u (by rw [h, hv]; rfl) with rfl | rfl | rfl <;> decide
  exact eq_undefined_of_textClass (hu ▸ hclass)

/-- The elements after the first, and what follows the array. -/
def elemTail (r : JsString) : List JsVal → JsString
  | [] => 0x5D :: r
  | v :: rest => 0x2C :: (elemText v ++ elemTail r rest)

/-- The members after the first, and what follows the object. -/
def memberTail (r : JsString) : List (JsString × JsVal) → JsString
  | [] => 0x7D :: r
  | m :: rest => 0x2C :: (quote m.1 ++ 0x3A :: (memberText m.2 ++ memberTail r rest))

theorem stops_elemTail (r : JsString) (l : List JsVal) : Stops (elemTail r l) := by
  cases l <;> simp [elemTail, Stops]

theorem stops_memberTail (r : JsString) (ms : List (JsString × JsVal)) :
    Stops (memberTail r ms) := by
  cases ms <;> simp [memberTail, Stops]

theorem joinComma_elems (r : JsString) (v : JsVal) (l : List JsVal) :
    joinComma ((v :: l).map elemText) ++ 0x5D :: r = elemText v ++ elemTail r l := by
  induction l generalizing v with
  | nil => rfl
  | cons w rest ih =>
    have hrest := ih w
    simp only [map_cons, joinComma, elemTail, append_assoc, cons_append] at hrest ⊢
    rw [hrest]

theorem joinComma_members (r : JsString) (m : JsString × JsVal) (ms : List (JsString × JsVal)) :
    joinComma ((m :: ms).map fun m => quote m.1 ++ 0x3A :: memberText m.2) ++ 0x7D :: r =
      quote m.1 ++ 0x3A :: (memberText m.2 ++ memberTail r ms) := by
  induction ms generalizing m with
  | nil => simp [joinComma, memberTail]
  | cons next rest ih =>
    have hrest := ih next
    simp only [map_cons, joinComma, memberTail, append_assoc,
      cons_append] at hrest ⊢
    rw [hrest]

/-! ## The text determines the value as written -/

/-- One value as written, up to the order of keys. -/
def WrittenAlike (v w : JsVal) : Prop := SameUpToKeyOrder (asWritten v) (asWritten w)

theorem WrittenAlike.of_eq {v w : JsVal} (hv : v.wf = true) (h : asWritten v = asWritten w) :
    WrittenAlike v w := by
  rw [WrittenAlike, ← h]
  exact .refl (wf_asWritten hv)

/-- The text of the value, before a separator, determines both. -/
def Determined (v : JsVal) : Prop :=
  ∀ ⦃w : JsVal⦄ ⦃r r' : JsString⦄, w.wf = true → Stops r → Stops r' →
    memberText v ++ r = memberText w ++ r' → WrittenAlike v w ∧ r = r'

/-- The value a scalar of the tree was read from. -/
def ofScalar : Json → JsVal
  | .bool b => .bool b
  | .num n => .num n
  | .str s => .str s
  | _ => .null

/-- What is no array, no object and not `undefined` is printed as it is. -/
theorem scalar_print {v : JsVal} (h : textClass v ∉ [4, 5, 7]) :
    memberText v = print (toJson (asWritten v)) ∧
      ofScalar (toJson (asWritten v)) = asWritten v := by
  cases v with
  | num n =>
    by_cases hn : isInfinite n <;>
      simp [memberText, stable, finiteOrNull, asWritten, hn, stringify, toJson, ofScalar]
  | undefined | arr | obj => simp [textClass] at h
  | _ => exact ⟨rfl, rfl⟩

theorem scalar_append_inj {v w : JsVal} {r r' : JsString} (hv : textClass v ∉ [4, 5, 7])
    (hr : Stops r) (hr' : Stops r') (h : memberText v ++ r = memberText w ++ r') :
    asWritten v = asWritten w ∧ r = r' := by
  have hw : textClass w ∉ [4, 5, 7] := textClass_eq h ▸ hv
  obtain ⟨hprint, hback⟩ := scalar_print hv
  obtain ⟨hprint', hback'⟩ := scalar_print hw
  rw [hprint, hprint'] at h
  obtain ⟨hjson, hrr⟩ := print_append_inj _ _ hr hr' h
  exact ⟨by rw [← hback, hjson, hback'], hrr⟩

theorem elem_append_inj {v w : JsVal} {s s' : JsString} (hv : Determined v) (hw : w.wf = true)
    (hs : Stops s) (hs' : Stops s') (h : elemText v ++ s = elemText w ++ s') :
    WrittenAlike v w ∧ s = s' := by
  by_cases hundef : v = .undefined
  · by_cases hundef' : w = .undefined
    · rw [hundef, hundef'] at h ⊢
      exact ⟨.undefined, h⟩
    · rw [hundef, elemText_eq hundef'] at h
      exact absurd (eq_undefined_of_stops hs h) hundef'
  · by_cases hundef' : w = .undefined
    · rw [hundef', elemText_eq hundef] at h
      exact absurd (eq_undefined_of_stops hs' h.symm) hundef
    · rw [elemText_eq hundef, elemText_eq hundef'] at h
      exact hv hw hs hs' h

theorem elemTail_inj {l l' : List JsVal} {r r' : JsString} (hl : ∀ v ∈ l, Determined v)
    (hl' : ∀ w ∈ l', w.wf = true) (h : elemTail r l = elemTail r' l') :
    List.Forall₂ WrittenAlike l l' ∧ r = r' := by
  induction l generalizing l' with
  | nil =>
    cases l' with
    | nil => exact ⟨.nil, (List.cons.inj h).2⟩
    | cons w rest' => exact absurd (List.cons.inj h).1 (by decide)
  | cons v rest ih =>
    cases l' with
    | nil => exact absurd (List.cons.inj h).1 (by decide)
    | cons w rest' =>
      obtain ⟨hhead, htail⟩ := elem_append_inj (hl v mem_cons_self)
        (hl' w mem_cons_self) (stops_elemTail r rest) (stops_elemTail r' rest')
        (List.cons.inj h).2
      obtain ⟨hrest, hr⟩ := ih (fun v hv => hl v (mem_cons_of_mem _ hv))
        (fun w hw => hl' w (mem_cons_of_mem _ hw)) htail
      exact ⟨.cons hhead hrest, hr⟩

theorem memberTail_inj {ms ms' : List (JsString × JsVal)} {r r' : JsString}
    (hms : ∀ m ∈ ms, Determined m.2) (hms' : ∀ m ∈ ms', m.2.wf = true)
    (h : memberTail r ms = memberTail r' ms') :
    List.Forall₂ (fun m m' => m.1 = m'.1 ∧ WrittenAlike m.2 m'.2) ms ms' ∧ r = r' := by
  induction ms generalizing ms' with
  | nil =>
    cases ms' with
    | nil => exact ⟨.nil, (List.cons.inj h).2⟩
    | cons m rest' => exact absurd (List.cons.inj h).1 (by decide)
  | cons m rest ih =>
    cases ms' with
    | nil => exact absurd (List.cons.inj h).1 (by decide)
    | cons m' rest' =>
      obtain ⟨hkey, hval⟩ := quote_append_inj (List.cons.inj h).2
      obtain ⟨hhead, htail⟩ := hms m mem_cons_self (hms' m' mem_cons_self)
        (stops_memberTail r rest) (stops_memberTail r' rest') (List.cons.inj hval).2
      obtain ⟨hrest, hr⟩ := ih (fun m hm => hms m (mem_cons_of_mem _ hm))
        (fun m hm => hms' m (mem_cons_of_mem _ hm)) htail
      exact ⟨.cons ⟨hkey, hhead⟩ hrest, hr⟩

theorem writtenAlike_arr {l l' : List JsVal} (h : List.Forall₂ WrittenAlike l l') :
    WrittenAlike (.arr l) (.arr l') := by
  have hundef : l.map JsVal.isUndefined = l'.map JsVal.isUndefined := by
    induction h with
    | nil => rfl
    | @cons v w rest rest' hhead _ ih =>
      rw [map_cons, map_cons, ih, ← isUndefined_asWritten v, ← isUndefined_asWritten w,
        hhead.isUndefined_eq]
  rw [WrittenAlike, asWritten, asWritten, hundef]
  split
  · exact .arr rfl fun i v w hv hw => by cases hv
  · rw [writtenElems_eq, writtenElems_eq]
    refine .arr (by simpa using h.length_eq) fun i a b ha hb => ?_
    simp only [getElem?_map, Option.map_eq_some_iff] at ha hb
    obtain ⟨v, hv, rfl⟩ := ha
    obtain ⟨w, hw, rfl⟩ := hb
    obtain ⟨hi, rfl⟩ := List.getElem?_eq_some_iff.mp hv
    obtain ⟨hi', rfl⟩ := List.getElem?_eq_some_iff.mp hw
    exact h.get hi hi'

theorem writtenAlike_obj {ms ms' : List (JsString × JsVal)} (hnd' : (ms'.map Prod.fst).Nodup)
    (h : List.Forall₂ (fun m m' => m.1 = m'.1 ∧ WrittenAlike m.2 m'.2)
      (sortKeys ms) (sortKeys ms')) : WrittenAlike (.obj ms) (.obj ms') := by
  have hsorted : (sortKeys ms).map Prod.fst = (sortKeys ms').map Prod.fst := by
    rw [← forall₂_eq_eq_eq, forall₂_map_left_iff, forall₂_map_right_iff]
    exact h.imp fun _ _ hm => hm.1
  have hname (k : JsString) (ms : List (JsString × JsVal)) :
      (∃ v, (k, v) ∈ writtenMembers ms) ↔ k ∈ (sortKeys ms).map Prod.fst := by
    rw [((perm_sortKeys ms).map Prod.fst).mem_iff, ← keys_writtenMembers ms]
    simp
  refine SameUpToKeyOrder.obj (fun k => by rw [hname, hname, hsorted]) fun k a b ha hb => ?_
  simp only [writtenMembers_eq, mem_map, Prod.mk.injEq] at ha hb
  obtain ⟨m, hm, rfl, rfl⟩ := ha
  obtain ⟨m', hm', hkey, rfl⟩ := hb
  -- the member beside `m` in the sorted order is the one of its name
  obtain ⟨i, hi, hmi⟩ := mem_iff_getElem.mp ((perm_sortKeys ms).mem_iff.mpr hm)
  obtain ⟨hkey', hval⟩ := h.get hi (h.length_eq ▸ hi)
  have hbeside : (sortKeys ms').get ⟨i, h.length_eq ▸ hi⟩ = m' :=
    inj_on_of_nodup_map hnd' ((perm_sortKeys ms').mem_iff.mp (get_mem _ _)) hm'
      (by rw [hkey, ← hmi]; exact hkey'.symm)
  rw [← hmi, ← hbeside]
  exact hval

/-- An array whose text ends at once has no element or one `undefined`. -/
theorem lone_of_closes {w : JsVal} {rest : List JsVal} {r r' : JsString}
    (h : 0x5D :: r = elemText w ++ elemTail r' rest) : w = .undefined ∧ rest = [] ∧ r = r' := by
  have hundef : w = .undefined := by
    by_contra hne
    rw [elemText_eq hne] at h
    exact hne (eq_undefined_of_stops (by simp [Stops]) h)
  subst hundef
  cases rest with
  | nil => exact ⟨rfl, rfl, (List.cons.inj h).2⟩
  | cons v rest => exact absurd (List.cons.inj h).1 (by decide)

theorem writtenAlike_lone : WrittenAlike (.arr []) (.arr [.undefined]) :=
  SameUpToKeyOrder.arr rfl fun i v w hv _ => by cases hv

theorem elems_append_inj {l l' : List JsVal} {r r' : JsString} (hl : ∀ v ∈ l, Determined v)
    (hl' : ∀ w ∈ l', w.wf = true)
    (h : joinComma (l.map elemText) ++ 0x5D :: r = joinComma (l'.map elemText) ++ 0x5D :: r') :
    WrittenAlike (.arr l) (.arr l') ∧ r = r' := by
  cases l with
  | nil =>
    cases l' with
    | nil => exact ⟨writtenAlike_arr .nil, (List.cons.inj h).2⟩
    | cons w rest' =>
      rw [joinComma_elems] at h
      obtain ⟨rfl, rfl, hr⟩ := lone_of_closes h
      exact ⟨writtenAlike_lone, hr⟩
  | cons v rest =>
    cases l' with
    | nil =>
      rw [joinComma_elems] at h
      obtain ⟨rfl, rfl, hr⟩ := lone_of_closes h.symm
      exact ⟨writtenAlike_lone.symm, hr.symm⟩
    | cons w rest' =>
      rw [joinComma_elems, joinComma_elems] at h
      obtain ⟨hall, hr⟩ := elemTail_inj hl hl' (congrArg (List.cons 0x2C) h)
      exact ⟨writtenAlike_arr hall, hr⟩

theorem members_append_inj {ms ms' : List (JsString × JsVal)} {r r' : JsString}
    (hms : ∀ m ∈ ms, Determined m.2) (hms' : ∀ m ∈ ms', m.2.wf = true)
    (h : joinComma (ms.map fun m => quote m.1 ++ 0x3A :: memberText m.2) ++ 0x7D :: r =
      joinComma (ms'.map fun m => quote m.1 ++ 0x3A :: memberText m.2) ++ 0x7D :: r') :
    List.Forall₂ (fun m m' => m.1 = m'.1 ∧ WrittenAlike m.2 m'.2) ms ms' ∧ r = r' := by
  cases ms with
  | nil =>
    cases ms' with
    | nil => exact ⟨.nil, (List.cons.inj h).2⟩
    | cons m rest' =>
      rw [joinComma_members] at h
      exact absurd (List.cons.inj h).1 (by decide)
  | cons m rest =>
    cases ms' with
    | nil =>
      rw [joinComma_members] at h
      exact absurd (List.cons.inj h).1 (by decide)
    | cons m' rest' =>
      rw [joinComma_members, joinComma_members] at h
      exact memberTail_inj hms hms' (congrArg (List.cons 0x2C) h)

theorem memberText_arr (l : List JsVal) :
    memberText (.arr l) = 0x5B :: (joinComma (l.map elemText) ++ [0x5D]) := by
  rw [memberText, stable, stableElems_eq]
  rfl

theorem memberText_obj (ms : List (JsString × JsVal)) :
    memberText (.obj ms) = 0x7B :: (joinComma ((sortKeys ms).map fun m =>
      quote m.1 ++ 0x3A :: memberText m.2) ++ [0x7D]) := by
  rw [memberText, stable, stableMembers_eq, ← map_sortKeys fun v => (stable v).getD _, map_map]
  rfl

theorem determined {v : JsVal} (hv : v.wf = true) : Determined v := by
  induction v with
  | undefined =>
    intro w r r' _ _ _ h
    obtain rfl := eq_undefined_of_textClass (textClass_eq h).symm
    exact ⟨.undefined, append_cancel_left h⟩
  | arr l ih =>
    intro w r r' hw _ _ h
    obtain ⟨l', rfl⟩ := arr_of_textClass (textClass_eq h).symm
    rw [memberText_arr, memberText_arr] at h
    simp only [cons_append, append_assoc, nil_append, List.cons.injEq,
      true_and] at h
    exact elems_append_inj (fun v hmem => ih v hmem (JsVal.wf_arr.mp hv v hmem))
      (JsVal.wf_arr.mp hw) h
  | obj ms ih =>
    intro w r r' hw _ _ h
    obtain ⟨ms', rfl⟩ := obj_of_textClass (textClass_eq h).symm
    obtain ⟨-, hwf⟩ := JsVal.wf_obj.mp hv
    obtain ⟨hnd', hwf'⟩ := JsVal.wf_obj.mp hw
    rw [memberText_obj, memberText_obj] at h
    simp only [cons_append, append_assoc, nil_append, List.cons.injEq,
      true_and] at h
    obtain ⟨hall, hr⟩ := members_append_inj
      (fun m hm => ih m ((perm_sortKeys ms).mem_iff.mp hm)
        (hwf m ((perm_sortKeys ms).mem_iff.mp hm)))
      (fun m hm => hwf' m ((perm_sortKeys ms').mem_iff.mp hm)) h
    exact ⟨writtenAlike_obj hnd' hall, hr⟩
  | bool b =>
    intro w r r' _ hr hr' h
    obtain ⟨heq, hrr⟩ := scalar_append_inj (by cases b <;> decide) hr hr' h
    exact ⟨.of_eq hv heq, hrr⟩
  | num n =>
    intro w r r' _ hr hr' h
    have hscalar : textClass (.num n) ∉ [4, 5, 7] := by
      by_cases hn : isInfinite n <;> simp [textClass, hn]
    obtain ⟨heq, hrr⟩ := scalar_append_inj hscalar hr hr' h
    exact ⟨.of_eq hv heq, hrr⟩
  | null | str s =>
    intro w r r' _ hr hr' h
    obtain ⟨heq, hrr⟩ := scalar_append_inj (by simp [textClass]) hr hr' h
    exact ⟨.of_eq hv heq, hrr⟩

/-- **The text of a value is that of the value as written**, up to the order of
its keys and to nothing else. -/
theorem stable_eq_iff {v w : JsVal} (hv : v.wf = true) (hw : w.wf = true) :
    stable v = stable w ↔ WrittenAlike v w := by
  constructor
  · intro h
    have htext : memberText v ++ [] = memberText w ++ [] := by rw [memberText, h, memberText]
    exact (determined hv hw (by simp [Stops]) (by simp [Stops]) htext).1
  · intro h
    rw [← stable_asWritten v, ← stable_asWritten w]
    exact stable_congr h (wf_asWritten hv) (wf_asWritten hw)

/-- `[undefined]` and `[]` have one text, and so have `Infinity` and `null`. -/
example : stable (.arr [.undefined]) = stable (.arr []) ∧
    stable (.num ⟨js "1e309", by decide, by decide⟩) = stable .null := by decide

end AramoPlatform.Policy
