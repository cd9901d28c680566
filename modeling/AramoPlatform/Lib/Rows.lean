import Mathlib.Data.List.Nodup

/-!
# Tables of rows

A table is a list of rows. `updateWhere` is an `UPDATE … WHERE`: it rewrites
the rows that match and keeps the others and their order. What a proof asks
of it is nearly always one of two things: where a row of the result comes
from, and that a projection or a selection of the rows is untouched.
-/

namespace AramoPlatform.Lib

variable {α β : Type}

/-- `UPDATE … SET f WHERE p`. -/
def updateWhere (p : α → Bool) (f : α → α) (rows : List α) : List α :=
  rows.map fun r => if p r then f r else r

variable {p q : α → Bool} {f : α → α} {rows : List α}

theorem mem_updateWhere {r : α} :
    r ∈ updateWhere p f rows ↔ ∃ r₀ ∈ rows, (if p r₀ then f r₀ else r₀) = r := by
  simp [updateWhere]

theorem of_mem_updateWhere {r : α} (h : r ∈ updateWhere p f rows) :
    (r ∈ rows ∧ p r = false) ∨ ∃ r₀ ∈ rows, p r₀ = true ∧ r = f r₀ := by
  obtain ⟨r₀, hmem, rfl⟩ := mem_updateWhere.mp h
  cases hp : p r₀ with
  | false => exact .inl ⟨by simpa [hp] using hmem, by simp [hp]⟩
  | true => exact .inr ⟨r₀, hmem, hp, by simp⟩

theorem mem_updateWhere_of_not {r : α} (hmem : r ∈ rows) (hp : p r = false) :
    r ∈ updateWhere p f rows :=
  mem_updateWhere.mpr ⟨r, hmem, by simp [hp]⟩

theorem mem_updateWhere_of_pos {r : α} (hmem : r ∈ rows) (hp : p r = true) :
    f r ∈ updateWhere p f rows :=
  mem_updateWhere.mpr ⟨r, hmem, by simp [hp]⟩

theorem exists_updateWhere {Q : α → Prop} {r : α} (hmem : r ∈ rows) (hkeep : p r = false → Q r)
    (hf : p r = true → Q (f r)) : ∃ x ∈ updateWhere p f rows, Q x := by
  cases hp : p r with
  | false => exact ⟨r, mem_updateWhere_of_not hmem hp, hkeep hp⟩
  | true => exact ⟨f r, mem_updateWhere_of_pos hmem hp, hf hp⟩

theorem exists_updateWhere_iff {Q : α → Prop} (hf : ∀ r ∈ rows, p r = true → (Q (f r) ↔ Q r)) :
    (∃ x ∈ updateWhere p f rows, Q x) ↔ ∃ x ∈ rows, Q x := by
  constructor
  · rintro ⟨x, hx, hq⟩
    rcases of_mem_updateWhere hx with ⟨hold, -⟩ | ⟨r, hold, hp, rfl⟩
    · exact ⟨x, hold, hq⟩
    · exact ⟨r, hold, (hf r hold hp).mp hq⟩
  · rintro ⟨r, hr, hq⟩
    exact exists_updateWhere hr (fun _ => hq) fun hp => (hf r hr hp).mpr hq

theorem map_updateWhere (g : α → β) (h : ∀ r, g (f r) = g r) :
    (updateWhere p f rows).map g = rows.map g := by
  simp only [updateWhere, List.map_map]
  refine List.map_congr_left fun r _ => ?_
  by_cases hp : p r = true <;> simp [Function.comp_apply, hp, h]

theorem nodup_updateWhere {key : α → β} (hkey : ∀ r, key (f r) = key r)
    (h : (rows.map key).Nodup) : ((updateWhere p f rows).map key).Nodup := by
  rw [map_updateWhere key hkey]
  exact h

theorem nodup_concat {key : α → β} (h : (rows.map key).Nodup) {row : α}
    (hnew : ∀ r ∈ rows, key r ≠ key row) : ((rows ++ [row]).map key).Nodup := by
  rw [List.map_append, List.nodup_append]
  refine ⟨h, List.nodup_singleton _, ?_⟩
  intro k hk k' hk' heq
  obtain ⟨r, hr, rfl⟩ := List.mem_map.mp hk
  exact hnew r hr (heq.trans (List.mem_singleton.mp hk'))

/-- The rows selected by `q` are untouched when no selected row matches and
no rewritten row becomes selected. -/
theorem filter_updateWhere (h : ∀ r ∈ rows, p r = true → q r = false ∧ q (f r) = false) :
    (updateWhere p f rows).filter q = rows.filter q := by
  induction rows with
  | nil => rfl
  | cons r rows ih =>
    have htail := ih fun r' hr' => h r' (List.mem_cons_of_mem _ hr')
    simp only [updateWhere] at htail
    by_cases hp : p r = true
    · obtain ⟨hq, hq'⟩ := h r List.mem_cons_self hp
      simp [updateWhere, hp, hq, hq', htail]
    · simp [updateWhere, hp, List.filter_cons, htail]

theorem updateWhere_of_forall_not (h : ∀ r ∈ rows, p r = false) : updateWhere p f rows = rows := by
  conv_rhs => rw [← List.map_id rows]
  exact List.map_congr_left fun r hr => by simp [h r hr]

theorem updateWhere_congr (h : ∀ r ∈ rows, p r = q r) :
    updateWhere p f rows = updateWhere q f rows := by
  refine List.map_congr_left fun r hr => ?_
  simp only [h r hr]

@[simp] theorem updateWhere_nil : updateWhere p f [] = [] := rfl

theorem updateWhere_cons (r : α) (rest : List α) :
    updateWhere p f (r :: rest) = (if p r then f r else r) :: updateWhere p f rest := rfl

theorem filter_updateWhere_of_keep (hq : ∀ r, q (f r) = q r) :
    (updateWhere p f rows).filter q = updateWhere p f (rows.filter q) := by
  induction rows with
  | nil => rfl
  | cons r rest ih =>
    have hrow : q (if p r then f r else r) = q r := by
      split
      · exact hq r
      · rfl
    rw [updateWhere_cons, List.filter_cons, List.filter_cons, hrow, ih]
    split
    · rw [updateWhere_cons]
    · rfl

/-- An update that brings no new row under `q` adds nothing to the count. -/
theorem countP_updateWhere_le (h : ∀ r ∈ rows, p r = true → q (f r) = true → q r = true) :
    (updateWhere p f rows).countP q ≤ rows.countP q := by
  induction rows with
  | nil => exact Nat.le_refl _
  | cons r rest ih =>
    have hrest := ih fun x hx => h x (List.mem_cons_of_mem _ hx)
    have hone : q (if p r then f r else r) = true → q r = true := by
      intro hq
      split at hq
      next hp => exact h r List.mem_cons_self hp hq
      · exact hq
    rw [updateWhere_cons, List.countP_cons, List.countP_cons]
    by_cases hq : q (if p r then f r else r) = true
    · rw [if_pos hq, if_pos (hone hq)]
      omega
    · rw [if_neg hq]
      omega

variable {key : α → β}

/-- A key is carried by one row at most, so an update by key adds at most one. -/
theorem countP_updateWhere_key [BEq β] [LawfulBEq β] {k : β}
    (hnd : (rows.map key).Nodup) :
    (updateWhere (fun r => key r == k) f rows).countP q ≤ rows.countP q + 1 := by
  induction rows with
  | nil => exact Nat.zero_le _
  | cons r rest ih =>
    obtain ⟨hr, hrest⟩ := List.nodup_cons.mp hnd
    rw [updateWhere_cons, List.countP_cons, List.countP_cons]
    by_cases hk : (key r == k) = true
    · -- the key is used up, so the other rows stay
      have hsame : updateWhere (fun r => key r == k) f rest = rest := by
        refine updateWhere_of_forall_not fun x hx => ?_
        rw [beq_eq_false_iff_ne]
        intro hxk
        exact hr (List.mem_map.mpr ⟨x, hx, hxk.trans (eq_of_beq hk).symm⟩)
      rw [hsame]
      split <;> split <;> omega
    · have hle := ih hrest
      rw [if_neg hk]
      omega

/-- The update of one row, in a count: the row goes, and what it becomes
comes. -/
theorem countP_updateWhere_of_mem [BEq β] [LawfulBEq β] (hnd : (rows.map key).Nodup)
    {a : α} (ha : a ∈ rows) :
    (updateWhere (fun r => key r == key a) f rows).countP q + (if q a then 1 else 0) =
      rows.countP q + if q (f a) then 1 else 0 := by
  induction rows with
  | nil => cases ha
  | cons r rest ih =>
    obtain ⟨hr, hrest⟩ := List.nodup_cons.mp hnd
    rw [updateWhere_cons, List.countP_cons, List.countP_cons]
    by_cases hk : (key r == key a) = true
    · have hra : r = a := by
        rcases List.mem_cons.mp ha with rfl | hmem
        · rfl
        · exact absurd (List.mem_map.mpr ⟨a, hmem, (eq_of_beq hk).symm⟩) hr
      subst hra
      have hsame : updateWhere (fun x => key x == key r) f rest = rest := by
        refine updateWhere_of_forall_not fun x hx => ?_
        rw [beq_eq_false_iff_ne]
        intro hxk
        exact hr (List.mem_map.mpr ⟨x, hx, hxk⟩)
      rw [if_pos hk, hsame]
      omega
    · have hmem : a ∈ rest := by
        rcases List.mem_cons.mp ha with rfl | hmem
        · exact absurd (beq_self_eq_true _) hk
        · exact hmem
      have hcount := ih hrest hmem
      rw [if_neg hk]
      omega

theorem find?_updateWhere (hq : ∀ r, q (f r) = q r) :
    (updateWhere p f rows).find? q = (rows.find? q).map fun r => if p r then f r else r := by
  have hcomp : (q ∘ fun r => if p r then f r else r) = q := by
    funext r
    by_cases hp : p r = true <;> simp [Function.comp_apply, hp, hq]
  rw [updateWhere, List.find?_map, hcomp]

section

variable (hnd : (rows.map key).Nodup)

include hnd

theorem countP_le_one
    (h : ∀ a ∈ rows, ∀ b ∈ rows, q a = true → q b = true → a = b) : rows.countP q ≤ 1 := by
  rw [List.countP_eq_length_filter]
  have hmem : ∀ x ∈ rows.filter q, x ∈ rows ∧ q x = true := fun x hx => List.mem_filter.mp hx
  have hfilter : (rows.filter q).Nodup := (List.Nodup.of_map key hnd).filter _
  cases hrows : rows.filter q with
  | nil => exact Nat.zero_le _
  | cons a rest =>
    cases rest with
    | nil => exact Nat.le_refl _
    | cons b more =>
      rw [hrows] at hmem hfilter
      obtain ⟨ha, hqa⟩ := hmem a List.mem_cons_self
      obtain ⟨hb, hqb⟩ := hmem b (List.mem_cons_of_mem _ List.mem_cons_self)
      obtain rfl := h a ha b hb hqa hqb
      exact absurd List.mem_cons_self (List.nodup_cons.mp hfilter).1

theorem mem_updateWhere_key [BEq β] [LawfulBEq β]
    {a : α} (ha : a ∈ rows) {x : α} :
    x ∈ updateWhere (fun r => key r == key a) f rows ↔ x ∈ rows ∧ key x ≠ key a ∨ x = f a := by
  constructor
  · intro hx
    rcases of_mem_updateWhere hx with ⟨hmem, hkey⟩ | ⟨r, hmem, hkey, rfl⟩
    · exact .inl ⟨hmem, by simpa using hkey⟩
    · obtain rfl := List.inj_on_of_nodup_map hnd hmem ha (eq_of_beq hkey)
      exact .inr rfl
  · rintro (⟨hmem, hkey⟩ | rfl)
    · exact mem_updateWhere_of_not hmem (by simpa using hkey)
    · exact mem_updateWhere_of_pos ha (beq_self_eq_true _)

end

theorem updateWhere_eq_self (h : ∀ r ∈ rows, p r = true → f r = r) :
    updateWhere p f rows = rows := by
  conv_rhs => rw [← List.map_id rows]
  refine List.map_congr_left fun r hr => ?_
  by_cases hp : p r = true
  · simp [hp, h r hr hp]
  · simp [hp]

theorem updateWhere_comp {g : α → α} (hp : ∀ r, p (f r) = p r) :
    updateWhere p g (updateWhere p f rows) = updateWhere p (fun r => g (f r)) rows := by
  rw [updateWhere, updateWhere, updateWhere, List.map_map]
  refine List.map_congr_left fun r _ => ?_
  cases h : p r with
  | false => simp [h]
  | true => simp [h, hp]

theorem updateWhere_updateWhere (hidem : ∀ r, f (f r) = f r) (hq : ∀ r, q (f r) = q r) :
    updateWhere q f (updateWhere p f rows) = updateWhere (fun r => p r || q r) f rows := by
  simp only [updateWhere, List.map_map]
  refine List.map_congr_left fun r _ => ?_
  by_cases hp : p r = true
  · by_cases hr : q r = true
    · simp [hp, hq, hr, hidem]
    · simp [hp, hq, hr]
  · simp [hp]

theorem find?_key_eq_some [DecidableEq β] (hnd : (rows.map key).Nodup) {a : α}
    (ha : a ∈ rows) : rows.find? (fun r => key r == key a) = some a := by
  cases hfind : rows.find? (fun r => key r == key a) with
  | none => simpa using List.find?_eq_none.mp hfind a ha
  | some b =>
    have hkey : key b = key a := by simpa using List.find?_some hfind
    rw [List.inj_on_of_nodup_map hnd (List.mem_of_find?_eq_some hfind) ha hkey]

theorem forall₂_updateWhere {R : α → α → Prop} (hrefl : ∀ r ∈ rows, p r = false → R r r)
    (hf : ∀ r ∈ rows, p r = true → R r (f r)) : List.Forall₂ R rows (updateWhere p f rows) := by
  induction rows with
  | nil => exact .nil
  | cons r rows ih =>
    refine .cons ?_ (ih (fun r' hr' => hrefl r' (List.mem_cons_of_mem _ hr'))
      fun r' hr' => hf r' (List.mem_cons_of_mem _ hr'))
    cases hp : p r with
    | false => simpa [hp] using hrefl r List.mem_cons_self hp
    | true => simpa [hp] using hf r List.mem_cons_self hp

/-! ## Tables row by row -/

section Rowwise

variable {R : α → α → Prop} {old new : List α}

theorem exists_old_of_mem (h : List.Forall₂ R old new) {x : α} (hx : x ∈ new) :
    ∃ y ∈ old, R y x := by
  induction h with
  | nil => cases hx
  | cons hyx _ ih =>
    rcases List.mem_cons.mp hx with rfl | hx
    · exact ⟨_, List.mem_cons_self, hyx⟩
    · obtain ⟨y, hy, hR⟩ := ih hx
      exact ⟨y, List.mem_cons_of_mem _ hy, hR⟩

theorem exists_getElem?_of_forall₂ {R : α → β → Prop} {xs : List α} {ys : List β}
    (h : List.Forall₂ R xs ys) {k : Nat} {a : α} (hk : xs[k]? = some a) :
    ∃ b, ys[k]? = some b ∧ R a b := by
  induction h generalizing k with
  | nil => simp at hk
  | @cons a' b' _ _ hab _ ih =>
    cases k with
    | zero =>
      obtain rfl := Option.some.inj hk
      exact ⟨b', rfl, hab⟩
    | succ k => exact ih hk

theorem exists_new_of_mem (h : List.Forall₂ R old new) {y : α} (hy : y ∈ old) :
    ∃ x ∈ new, R y x :=
  exists_old_of_mem h.flip hy

theorem forall₂_trans (hR : ∀ x y z, R x y → R y z → R x z) {mid : List α}
    (h : List.Forall₂ R old mid) (h' : List.Forall₂ R mid new) : List.Forall₂ R old new := by
  induction h generalizing new with
  | nil => exact h'
  | cons hxy _ ih =>
    cases h' with
    | cons hyz hrest => exact .cons (hR _ _ _ hxy hyz) (ih hrest)

theorem forall₂_and {R' : α → α → Prop} (h : List.Forall₂ R old new)
    (h' : List.Forall₂ R' old new) : List.Forall₂ (fun y x => R y x ∧ R' y x) old new := by
  induction h with
  | nil => exact .nil
  | cons hyx _ ih =>
    cases h' with
    | cons hyx' hrest => exact .cons ⟨hyx, hyx'⟩ (ih hrest)

theorem map_eq_of_forall₂ {g : α → β} (h : List.Forall₂ R old new)
    (hR : ∀ y x, R y x → g x = g y) : new.map g = old.map g := by
  induction h with
  | nil => rfl
  | cons hyx _ ih => rw [List.map_cons, List.map_cons, hR _ _ hyx, ih]

end Rowwise

/-! ## Tables with generated keys

A table whose keys come from a counter: no key is used twice, and a row with
a key from before the counter was at `next` continues a row that was there.
`kept y x` says how a row may change over its life, `fresh x` what holds of
a row that was not there before. -/

section Keyed

variable {key : α → Nat} {kept : α → α → Prop} {fresh : α → Prop}
  {old : List α} {next : Nat} {new : List α} {next' : Nat}

/-- Distinct keys below the counter. -/
structure Keyed (key : α → Nat) (rows : List α) (next : Nat) : Prop where
  nodup : (rows.map key).Nodup
  lt : ∀ x ∈ rows, key x < next

theorem Keyed.insert (h : Keyed key old next) {x : α} (hkey : key x = next) :
    Keyed key (old ++ [x]) (next + 1) := by
  refine ⟨?_, fun z hz => ?_⟩
  · exact nodup_concat h.nodup fun z hz => hkey ▸ Nat.ne_of_lt (h.lt z hz)
  · rcases (List.mem_append.mp hz).imp_right List.mem_singleton.mp with hz | rfl
    · exact Nat.lt_succ_of_lt (h.lt z hz)
    · omega

theorem Keyed.update (h : Keyed key old next) (hkey : ∀ x, key (f x) = key x) :
    Keyed key (updateWhere p f old) next := by
  refine ⟨?_, fun x hx => ?_⟩
  · exact nodup_updateWhere hkey h.nodup
  · rcases of_mem_updateWhere hx with ⟨hmem, -⟩ | ⟨x₀, hmem, -, rfl⟩
    · exact h.lt x hmem
    · exact hkey x₀ ▸ h.lt x₀ hmem

theorem Keyed.mono (h : Keyed key old next) {next' : Nat} (hle : next ≤ next') :
    Keyed key old next' :=
  ⟨h.nodup, fun x hx => Nat.lt_of_lt_of_le (h.lt x hx) hle⟩

/-- The table `new` came from `old` by updates that `kept` allows and by
inserts of `fresh` rows. -/
structure Continues (key : α → Nat) (kept : α → α → Prop) (fresh : α → Prop)
    (old : List α) (next : Nat) (new : List α) (next' : Nat) : Prop where
  keyed : Keyed key new next'
  le : next ≤ next'
  origin : ∀ x ∈ new, (∃ y ∈ old, key x = key y ∧ kept y x) ∨ next ≤ key x ∧ fresh x
  stays : ∀ y ∈ old, ∃ x ∈ new, key x = key y ∧ kept y x

namespace Continues

theorem refl (h : Keyed key old next) (hkept : ∀ y, kept y y) :
    Continues key kept fresh old next old next :=
  ⟨h, Nat.le_refl _, fun x hx => .inl ⟨x, hx, rfl, hkept x⟩, fun y hy => ⟨y, hy, rfl, hkept y⟩⟩

section

variable (h : Continues key kept fresh old next new next')

include h

theorem mono {next'' : Nat}
    (hle : next' ≤ next'') : Continues key kept fresh old next new next'' :=
  ⟨⟨h.keyed.nodup, fun x hx => Nat.lt_of_lt_of_le (h.keyed.lt x hx) hle⟩,
    Nat.le_trans h.le hle, h.origin, h.stays⟩

theorem of_le {first : Nat}
    (hle : first ≤ next) : Continues key kept fresh old first new next' :=
  ⟨h.keyed, Nat.le_trans hle h.le,
    fun x hx => (h.origin x hx).imp_right fun hf => ⟨Nat.le_trans hle hf.1, hf.2⟩, h.stays⟩

theorem imp {fresh' : α → Prop}
    (himp : ∀ x ∈ new, fresh x → fresh' x) : Continues key kept fresh' old next new next' :=
  ⟨h.keyed, h.le, fun x hx => (h.origin x hx).imp_right fun hf => ⟨hf.1, himp x hx hf.2⟩, h.stays⟩

theorem update
    (hkey : ∀ x, key (f x) = key x)
    (hkept : ∀ y ∈ old, ∀ x ∈ new, key x = key y → kept y x → p x = true → kept y (f x))
    (hfresh : ∀ x ∈ new, fresh x → p x = true → fresh (f x)) :
    Continues key kept fresh old next (updateWhere p f new) next' := by
  refine ⟨h.keyed.update hkey, h.le, fun x hx => ?_, fun y hy => ?_⟩
  · rcases of_mem_updateWhere hx with ⟨hmem, -⟩ | ⟨x₀, hmem, hp, rfl⟩
    · exact h.origin x hmem
    · rcases h.origin x₀ hmem with ⟨y, hy, hk, hky⟩ | ⟨hle, hf⟩
      · exact .inl ⟨y, hy, (hkey x₀).trans hk, hkept y hy x₀ hmem hk hky hp⟩
      · exact .inr ⟨(hkey x₀).symm ▸ hle, hfresh x₀ hmem hf hp⟩
  · obtain ⟨x, hx, hk, hky⟩ := h.stays y hy
    cases hp : p x with
    | false => exact ⟨x, mem_updateWhere_of_not hx hp, hk, hky⟩
    | true => exact ⟨f x, mem_updateWhere_of_pos hx hp, (hkey x).trans hk,
        hkept y hy x hx hk hky hp⟩

theorem insert {x : α} (hkey : key x = next')
    (hfresh : fresh x) : Continues key kept fresh old next (new ++ [x]) (next' + 1) := by
  refine ⟨h.keyed.insert hkey, Nat.le_succ_of_le h.le, fun z hz => ?_, fun y hy => ?_⟩
  · rcases (List.mem_append.mp hz).imp_right List.mem_singleton.mp with hz | rfl
    · exact h.origin z hz
    · exact .inr ⟨hkey.symm ▸ h.le, hfresh⟩
  · obtain ⟨z, hz, hk⟩ := h.stays y hy
    exact ⟨z, List.mem_append_left _ hz, hk⟩

end

/-- Over several steps the rows that were there at the start are still
continued; the others have later keys. -/
theorem trans (hkept : ∀ x y z, kept x y → kept y z → kept x z)
    (hfresh : ∀ x y, fresh x → kept x y → fresh y) {new' : List α} {next'' : Nat}
    (h : Continues key kept fresh old next new next')
    (h' : Continues key kept fresh new next' new' next'') :
    Continues key kept fresh old next new' next'' := by
  refine ⟨h'.keyed, Nat.le_trans h.le h'.le, fun x hx => ?_, fun z hz => ?_⟩
  · rcases h'.origin x hx with ⟨y, hy, hk, hkx⟩ | ⟨hle, hf⟩
    · rcases h.origin y hy with ⟨z, hz, hk', hky⟩ | ⟨hle, hf⟩
      · exact .inl ⟨z, hz, hk.trans hk', hkept z y x hky hkx⟩
      · exact .inr ⟨hk ▸ hle, hfresh y x hf hkx⟩
    · exact .inr ⟨Nat.le_trans h.le hle, hf⟩
  · obtain ⟨y, hy, hk, hky⟩ := h.stays z hz
    obtain ⟨x, hx, hk', hkx⟩ := h'.stays y hy
    exact ⟨x, hx, hk'.trans hk, hkept z y x hky hkx⟩

end Continues

end Keyed

/-! ## Folds -/

theorem foldl_frame {γ : Type} {g : β → γ} {step : β → α → β}
    (h : ∀ b a, g (step b a) = g b) (l : List α) (b : β) : g (l.foldl step b) = g b := by
  induction l generalizing b with
  | nil => rfl
  | cons a rest ih => exact (ih (step b a)).trans (h b a)

end AramoPlatform.Lib
