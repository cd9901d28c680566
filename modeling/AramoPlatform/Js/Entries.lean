import AramoPlatform.Js.Objects

/-!
# Copying the entries of an object

The loop `for (const [k, v] of Object.entries(obj)) out[k] = v`. What one
assignment does to one member it does alone, so the loop commutes with a change
of the values and with a choice of the names, and of distinct names it keeps
every one but `__proto__`. Objects that differ in the order of their members
are copied to such objects.
-/

namespace AramoPlatform.Js

section Members

variable {α : Type}

/-- `for (const [k, v] of Object.entries(ms)) out[k] = v`, from `out = {}`. -/
def copyEntries (ms : List (JsString × α)) : List (JsString × α) :=
  (ownKeys ms).foldl assign []

/-! ## One assignment -/

theorem mem_assign {out : List (JsString × α)} {m x : JsString × α} (hm : m.1 ≠ protoKey) :
    x ∈ assign out m ↔ x = m ∨ (x ∈ out ∧ x.1 ≠ m.1) := by
  rw [assign, if_neg hm]
  split
  case isTrue h =>
    obtain ⟨o, ho, hkey⟩ := List.any_eq_true.mp h
    rw [beq_iff_eq] at hkey
    simp only [List.mem_map]
    constructor
    · rintro ⟨y, hy, rfl⟩
      by_cases hy' : y.1 = m.1
      · simp [hy']
      · simp [hy', hy]
    · rintro (rfl | ⟨hx, hne⟩)
      · exact ⟨o, ho, by simp [hkey]⟩
      · exact ⟨x, hx, by simp [hne]⟩
  case isFalse h =>
    rw [List.any_eq_true] at h
    simp only [List.mem_append, List.mem_singleton]
    constructor
    · rintro (hx | rfl)
      · exact .inr ⟨hx, fun heq => h ⟨x, hx, by simp [heq]⟩⟩
      · exact .inl rfl
    · rintro (rfl | ⟨hx, -⟩)
      · exact .inr rfl
      · exact .inl hx

theorem nodup_assign {out : List (JsString × α)} (hnd : (out.map Prod.fst).Nodup)
    (m : JsString × α) : ((assign out m).map Prod.fst).Nodup := by
  rw [assign]
  split
  · exact hnd
  split
  case isTrue h =>
    have hkeys : (out.map fun o => if o.1 = m.1 then m else o).map Prod.fst = out.map Prod.fst := by
      rw [List.map_map]
      refine List.map_congr_left fun o _ => ?_
      by_cases ho : o.1 = m.1 <;> simp [ho]
    rw [hkeys]
    exact hnd
  case isFalse h =>
    rw [List.map_append, List.nodup_append]
    refine ⟨hnd, by simp, fun a ha b hb hab => h ?_⟩
    obtain ⟨o, ho, rfl⟩ := List.mem_map.mp ha
    simp only [List.map_cons, List.map_nil, List.mem_singleton] at hb
    exact List.any_eq_true.mpr ⟨o, ho, by simp [hab, hb]⟩

theorem map_assign {β : Type} {f : JsString × α → JsString × β} (hf : ∀ m, (f m).1 = m.1)
    (out : List (JsString × α)) (m : JsString × α) :
    (assign out m).map f = assign (out.map f) (f m) := by
  have hany : ((out.map f).any fun o => o.1 == m.1) = out.any fun o => o.1 == m.1 := by
    simp [List.any_map, Function.comp_def, hf]
  simp only [assign, hf, hany]
  split
  · rfl
  split
  · simp only [List.map_map]
    refine List.map_congr_left fun o _ => ?_
    by_cases ho : o.1 = m.1 <;> simp [ho, hf]
  · simp

theorem filter_assign (p : JsString → Bool) (out : List (JsString × α)) (m : JsString × α) :
    (assign out m).filter (fun o => p o.1) =
      if p m.1 then assign (out.filter fun o => p o.1) m else out.filter fun o => p o.1 := by
  by_cases hproto : m.1 = protoKey
  · simp [assign, hproto]
  by_cases hp : p m.1
  · have hany : ((out.filter fun o => p o.1).any fun o => o.1 == m.1) =
        out.any fun o => o.1 == m.1 := by
      rw [List.any_filter]
      congr 1
      funext o
      by_cases ho : o.1 = m.1 <;> simp [ho, hp]
    rw [if_pos hp, assign, if_neg hproto, assign, if_neg hproto, hany]
    split
    · rw [List.filter_map]
      congr 1
      refine List.filter_congr fun o _ => ?_
      by_cases ho : o.1 = m.1 <;> simp [ho]
    · simp [hp]
  · rw [if_neg hp, assign, if_neg hproto]
    split
    · rw [List.filter_map]
      have hkeep : (out.filter ((fun o => p o.1) ∘ fun o => if o.1 = m.1 then m else o)) =
          out.filter fun o => p o.1 := by
        refine List.filter_congr fun o _ => ?_
        by_cases ho : o.1 = m.1 <;> simp [ho]
      rw [hkeep]
      conv_rhs => rw [← List.map_id (out.filter fun o => p o.1)]
      refine List.map_congr_left fun o ho => ?_
      have hpo : p o.1 = true := (List.mem_filter.mp ho).2
      have hne : o.1 ≠ m.1 := fun heq => hp (heq ▸ hpo)
      simp [hne]
    · simp [hp]

/-! ## The loop -/

/-- A change of the values alone may be made before the loop or after it. -/
theorem map_copyEntries {β : Type} {f : JsString × α → JsString × β} (hf : ∀ m, (f m).1 = m.1)
    (ms : List (JsString × α)) : (copyEntries ms).map f = copyEntries (ms.map f) := by
  have hfold : ∀ l out : List (JsString × α),
      (l.foldl assign out).map f = (l.map f).foldl assign (out.map f) := by
    intro l
    induction l with
    | nil => intro out; rfl
    | cons m rest ih =>
      intro out
      rw [List.foldl_cons, ih, map_assign hf, List.map_cons, List.foldl_cons]
  rw [copyEntries, hfold, map_ownKeys f hf]
  rfl

theorem filter_copyEntries (p : JsString → Bool) (ms : List (JsString × α)) :
    (copyEntries ms).filter (fun m => p m.1) = copyEntries (ms.filter fun m => p m.1) := by
  have hfold : ∀ l out : List (JsString × α),
      (l.foldl assign out).filter (fun m => p m.1) =
        (l.filter fun m => p m.1).foldl assign (out.filter fun m => p m.1) := by
    intro l
    induction l with
    | nil => intro out; rfl
    | cons m rest ih =>
      intro out
      rw [List.foldl_cons, ih, filter_assign]
      by_cases hp : p m.1 <;> simp [hp]
  rw [copyEntries, hfold, copyEntries, ownKeys_filter]
  rfl

theorem nodup_copyEntries (ms : List (JsString × α)) :
    ((copyEntries ms).map Prod.fst).Nodup := by
  have hfold : ∀ l out : List (JsString × α), (out.map Prod.fst).Nodup →
      ((l.foldl assign out).map Prod.fst).Nodup := by
    intro l
    induction l with
    | nil => exact fun out hnd => hnd
    | cons m rest ih => exact fun out hnd => ih _ (nodup_assign hnd m)
  exact hfold _ [] (by simp)

theorem mem_copyEntries {ms : List (JsString × α)} (hnd : (ms.map Prod.fst).Nodup)
    {m : JsString × α} : m ∈ copyEntries ms ↔ m ∈ ms ∧ m.1 ≠ protoKey := by
  have hkeys : (([] ++ ownKeys ms).map Prod.fst).Nodup := by
    rw [List.nil_append, ((perm_ownKeys ms).map Prod.fst).nodup_iff]
    exact hnd
  rw [copyEntries, foldl_assign _ _ hkeys]
  simp [(perm_ownKeys ms).mem_iff]

end Members

/-! ## Values that differ in the order of members -/

/-- Two values that are the same up to the order of members. -/
structure Alike (v w : JsVal) : Prop where
  left : v.wf = true
  right : w.wf = true
  same : SameUpToKeyOrder v w

/-- Two lists of members with the same names and alike values. -/
structure AlikeMembers (ms ms' : List (JsString × JsVal)) : Prop where
  nodup : (ms.map Prod.fst).Nodup
  nodup' : (ms'.map Prod.fst).Nodup
  keys : ∀ k, (∃ v, (k, v) ∈ ms) ↔ ∃ v, (k, v) ∈ ms'
  vals : ∀ k v w, (k, v) ∈ ms → (k, w) ∈ ms' → Alike v w

theorem Alike.refl {v : JsVal} (h : v.wf = true) : Alike v v := ⟨h, h, .refl h⟩

theorem alike_obj {ms ms' : List (JsString × JsVal)} :
    Alike (.obj ms) (.obj ms') ↔ AlikeMembers ms ms' := by
  constructor
  · rintro ⟨hwf, hwf', hsame⟩
    obtain ⟨hnd, hvals⟩ := JsVal.wf_obj.mp hwf
    obtain ⟨hnd', hvals'⟩ := JsVal.wf_obj.mp hwf'
    cases hsame with
    | obj hkeys hsame =>
      exact ⟨hnd, hnd', hkeys, fun k v w hv hw => ⟨hvals _ hv, hvals' _ hw, hsame k v w hv hw⟩⟩
  · rintro ⟨hnd, hnd', hkeys, hvals⟩
    refine ⟨JsVal.wf_obj.mpr ⟨hnd, ?_⟩, JsVal.wf_obj.mpr ⟨hnd', ?_⟩,
      .obj hkeys fun k v w hv hw => (hvals k v w hv hw).same⟩
    · rintro ⟨k, v⟩ hv
      obtain ⟨w, hw⟩ := (hkeys k).mp ⟨v, hv⟩
      exact (hvals k v w hv hw).left
    · rintro ⟨k, w⟩ hw
      obtain ⟨v, hv⟩ := (hkeys k).mpr ⟨w, hw⟩
      exact (hvals k v w hv hw).right

theorem alike_arr {l l' : List JsVal} :
    Alike (.arr l) (.arr l') ↔ List.Forall₂ Alike l l' := by
  constructor
  · rintro ⟨hwf, hwf', hsame⟩
    rw [JsVal.wf_arr] at hwf hwf'
    cases hsame with
    | arr hlen helem =>
      refine List.forall₂_iff_get.mpr ⟨hlen, fun i hi hi' => ?_⟩
      exact ⟨hwf _ (List.get_mem _ _), hwf' _ (List.get_mem _ _),
        helem i _ _ (List.getElem?_eq_getElem hi) (List.getElem?_eq_getElem hi')⟩
  · intro h
    obtain ⟨hlen, hget⟩ := List.forall₂_iff_get.mp h
    refine ⟨JsVal.wf_arr.mpr fun v hv => ?_, JsVal.wf_arr.mpr fun w hw => ?_,
      .arr hlen fun i v w hv hw => ?_⟩
    · obtain ⟨i, hi, rfl⟩ := List.getElem_of_mem hv
      exact (hget i hi (hlen ▸ hi)).left
    · obtain ⟨i, hi, rfl⟩ := List.getElem_of_mem hw
      exact (hget i (hlen ▸ hi) hi).right
    · obtain ⟨hi, rfl⟩ := List.getElem?_eq_some_iff.mp hv
      obtain ⟨hi', rfl⟩ := List.getElem?_eq_some_iff.mp hw
      exact (hget i hi hi').same

theorem Alike.isObj_eq {v w : JsVal} (h : Alike v w) : v.isObj = w.isObj := by
  cases h.same <;> rfl

namespace AlikeMembers

variable {ms ms' : List (JsString × JsVal)}

section

variable (h : AlikeMembers ms ms')

include h

theorem any_eq (p : JsString → Bool) :
    (ms.any fun m => p m.1) = ms'.any fun m => p m.1 := by
  rw [Bool.eq_iff_iff, List.any_eq_true, List.any_eq_true]
  constructor
  · rintro ⟨⟨k, v⟩, hv, hk⟩
    obtain ⟨w, hw⟩ := (h.keys k).mp ⟨v, hv⟩
    exact ⟨(k, w), hw, hk⟩
  · rintro ⟨⟨k, w⟩, hw, hk⟩
    obtain ⟨v, hv⟩ := (h.keys k).mpr ⟨w, hw⟩
    exact ⟨(k, v), hv, hk⟩

theorem filter (p : JsString → Bool) :
    AlikeMembers (ms.filter fun m => p m.1) (ms'.filter fun m => p m.1) where
  nodup := h.nodup.sublist (List.filter_sublist.map Prod.fst)
  nodup' := h.nodup'.sublist (List.filter_sublist.map Prod.fst)
  keys k := by
    simp only [List.mem_filter, exists_and_right, h.keys k]
  vals k v w hv hw :=
    h.vals k v w (List.mem_of_mem_filter hv) (List.mem_of_mem_filter hw)

theorem map {f : JsString × JsVal → JsString × JsVal}
    (hf : ∀ m, (f m).1 = m.1)
    (hval : ∀ k v w, (k, v) ∈ ms → (k, w) ∈ ms' → Alike (f (k, v)).2 (f (k, w)).2) :
    AlikeMembers (ms.map f) (ms'.map f) := by
  have hkeys : ∀ l : List (JsString × JsVal), (l.map f).map Prod.fst = l.map Prod.fst := by
    intro l
    simp [Function.comp_def, hf]
  refine ⟨by rw [hkeys]; exact h.nodup, by rw [hkeys]; exact h.nodup', fun k => ?_, ?_⟩
  · have hmem : ∀ l : List (JsString × JsVal), (∃ v, (k, v) ∈ l.map f) ↔ ∃ v, (k, v) ∈ l := by
      intro l
      have : ∀ l' : List (JsString × JsVal), (∃ v, (k, v) ∈ l') ↔ k ∈ l'.map Prod.fst := by simp
      rw [this, this, hkeys]
    rw [hmem, hmem]
    exact h.keys k
  · intro k v w hv hw
    obtain ⟨⟨k₁, v₁⟩, hv₁, hfv⟩ := List.mem_map.mp hv
    obtain ⟨⟨k₂, w₂⟩, hw₂, hfw⟩ := List.mem_map.mp hw
    have hk₁ : k₁ = k := (hf (k₁, v₁)).symm.trans (by rw [hfv])
    have hk₂ : k₂ = k := (hf (k₂, w₂)).symm.trans (by rw [hfw])
    subst hk₁ hk₂
    have hvw := hval k₂ v₁ w₂ hv₁ hw₂
    rw [hfv, hfw] at hvw
    exact hvw

theorem assign {k : JsString} {v : JsVal} (hk : k ≠ protoKey)
    (hv : v.wf = true) : AlikeMembers (assign ms (k, v)) (assign ms' (k, v)) where
  nodup := nodup_assign h.nodup _
  nodup' := nodup_assign h.nodup' _
  keys k' := by
    simp only [mem_assign (m := (k, v)) hk, Prod.mk.injEq]
    by_cases hkk : k' = k
    · simp [hkk]
    · simp [hkk, h.keys k']
  vals k' a b ha hb := by
    rw [mem_assign hk] at ha hb
    rcases ha with ha | ⟨ha, hne⟩
    · rcases hb with hb | ⟨-, hne⟩
      · rw [(Prod.mk.inj ha).2, (Prod.mk.inj hb).2]
        exact .refl hv
      · exact absurd (Prod.mk.inj ha).1 hne
    · rcases hb with hb | ⟨hb, -⟩
      · exact absurd (Prod.mk.inj hb).1 hne
      · exact h.vals k' a b ha hb

theorem copyEntries :
    AlikeMembers (copyEntries ms) (copyEntries ms') where
  nodup := nodup_copyEntries ms
  nodup' := nodup_copyEntries ms'
  keys k := by
    simp only [mem_copyEntries h.nodup, mem_copyEntries h.nodup', exists_and_right, h.keys k]
  vals k v w hv hw :=
    h.vals k v w ((mem_copyEntries h.nodup).mp hv).1 ((mem_copyEntries h.nodup').mp hw).1

end

end AlikeMembers

/-- Induction over two values that differ in the order of members: a walk over
the elements and the members takes alike values to alike ones. -/
theorem Alike.induct {P : JsVal → JsVal → Prop}
    (leaf : ∀ v : JsVal, v.wf = true → v.isObj = false → (∀ l, v ≠ .arr l) → P v v)
    (arr : ∀ l l' : List JsVal, List.Forall₂ P l l' → P (.arr l) (.arr l'))
    (obj : ∀ ms ms' : List (JsString × JsVal), AlikeMembers ms ms' →
      (∀ k v w, (k, v) ∈ ms → (k, w) ∈ ms' → P v w) → P (.obj ms) (.obj ms')) :
    ∀ v w : JsVal, Alike v w → P v w := by
  intro v
  induction v with
  | arr l ih =>
    intro w h
    cases w with
    | arr l' =>
      obtain ⟨hlen, hget⟩ := List.forall₂_iff_get.mp (alike_arr.mp h)
      refine arr l l' (List.forall₂_iff_get.mpr ⟨hlen, fun i hi hi' => ?_⟩)
      exact ih _ (List.get_mem _ _) _ (hget i hi hi')
    | _ => cases h.same
  | obj ms ih =>
    intro w h
    cases w with
    | obj ms' =>
      have hms := alike_obj.mp h
      exact obj ms ms' hms fun k v w hv hw => ih (k, v) hv w (hms.vals k v w hv hw)
    | _ => cases h.same
  | _ =>
    intro w h
    cases h.same
    exact leaf _ h.left rfl fun l hl => by cases hl

end AramoPlatform.Js
