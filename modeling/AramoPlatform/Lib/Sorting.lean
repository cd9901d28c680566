import Mathlib.Data.List.Sort
import Mathlib.Order.OrderDual

/-!
# Stable sorting

Facts about `List.insertionSort`, the stable sort that stands for
`Array.prototype.sort` and for `ORDER BY`, beyond those of the library: it
commutes with filtering, and two lists with the same elements sort to the
same list when only equal elements tie.
-/

namespace AramoPlatform.Lib

section Sorting

variable {α : Type} {r : α → α → Prop} [DecidableRel r]

theorem filter_orderedInsert [IsTrans α r] (p : α → Bool) (a : α) {l : List α}
    (hl : l.Pairwise r) :
    (l.orderedInsert r a).filter p =
      if p a then (l.filter p).orderedInsert r a else l.filter p := by
  induction l with
  | nil => by_cases ha : p a <;> simp [ha]
  | cons b rest ih =>
    rw [List.pairwise_cons] at hl
    by_cases hab : r a b
    · -- everything after `b` is above `a` as well, so `a` comes first
      have hfirst : ∀ m : List α, (∀ c ∈ m, c = b ∨ c ∈ rest) →
          m.orderedInsert r a = a :: m := by
        intro m hm
        cases m with
        | nil => rfl
        | cons c m =>
          refine List.orderedInsert_cons_of_le r _ ?_
          rcases hm c (by simp) with rfl | hc
          · exact hab
          · exact IsTrans.trans _ _ _ hab (hl.1 c hc)
      rw [List.orderedInsert_cons_of_le r _ hab, List.filter_cons]
      split
      · refine (hfirst _ fun c hc => ?_).symm
        simpa using (List.mem_filter.mp hc).1
      · rfl
    · rw [List.orderedInsert_of_not_le r _ hab, List.filter_cons, ih hl.2, List.filter_cons]
      by_cases hb : p b <;> by_cases ha : p a <;> simp [hb, ha, hab]

theorem filter_insertionSort [Std.Total r] [IsTrans α r] (p : α → Bool) (l : List α) :
    (l.insertionSort r).filter p = (l.filter p).insertionSort r := by
  induction l with
  | nil => rfl
  | cons a rest ih =>
    rw [List.insertionSort_cons, filter_orderedInsert p a (List.pairwise_insertionSort r rest), ih,
      List.filter_cons]
    split <;> rfl

/-- Lists with the same elements sort to the same list when no two different
elements tie. -/
theorem insertionSort_eq_of_perm [Std.Total r] [IsTrans α r] {l l' : List α} (h : l.Perm l')
    (hanti : ∀ a ∈ l, ∀ b ∈ l, r a b → r b a → a = b) :
    l.insertionSort r = l'.insertionSort r := by
  have hperm : (l.insertionSort r).Perm (l'.insertionSort r) :=
    (List.perm_insertionSort r l).trans (h.trans (List.perm_insertionSort r l').symm)
  refine hperm.eq_of_pairwise ?_ (List.pairwise_insertionSort r l)
    (List.pairwise_insertionSort r l')
  intro a b ha hb hab hba
  refine hanti a ?_ b ?_ hab hba
  · exact (List.perm_insertionSort r l).mem_iff.mp ha
  · exact h.mem_iff.mpr ((List.perm_insertionSort r l').mem_iff.mp hb)

theorem insertionSort_flip_of_pairwise [Std.Total r] [IsTrans α r] {l : List α}
    (hl : l.Pairwise r) (hanti : ∀ a ∈ l, ∀ b ∈ l, r a b → r b a → a = b) :
    l.insertionSort (fun a b => r b a) = l.reverse := by
  have : Std.Total fun a b => r b a := ⟨fun a b => Std.Total.total b a⟩
  have : IsTrans α fun a b => r b a := ⟨fun a b c h h' => IsTrans.trans c b a h' h⟩
  rw [insertionSort_eq_of_perm l.reverse_perm.symm (r := fun a b => r b a)
    fun a ha b hb hab hba => hanti a ha b hb hba hab]
  exact (List.pairwise_reverse.mpr hl).insertionSort_eq

omit [DecidableRel r] in
/-- A sorted list is what satisfies a downward closed condition, then the rest. -/
theorem filter_append_filter_of_pairwise {l : List α} (hl : l.Pairwise r) {p : α → Bool}
    (hp : ∀ a b, r a b → p b = true → p a = true) :
    l.filter p ++ l.filter (fun a => !p a) = l := by
  induction l with
  | nil => rfl
  | cons a rest ih =>
    obtain ⟨ha, hrest⟩ := List.pairwise_cons.mp hl
    cases hpa : p a with
    | true => simp [hpa, ih hrest]
    | false =>
      -- nothing after `a` satisfies it either
      have hnone : rest.filter p = [] := by
        refine List.filter_eq_nil_iff.mpr fun b hb hpb => ?_
        rw [hp a b (ha b hb) hpb] at hpa
        cases hpa
      have htail := ih hrest
      rw [hnone, List.nil_append] at htail
      simp [hpa, hnone, htail]

/-- An element that stands before the others in the order, and in the list
before those it ties with. -/
def LeadsSort (r : α → α → Prop) (l : List α) (a : α) : Prop :=
  ∃ before after, l = before ++ a :: after ∧ (∀ x ∈ before, ¬ r x a) ∧ ∀ x ∈ after, r a x

omit [DecidableRel r] in
theorem LeadsSort.le [Std.Total r] {l : List α} {a b : α} (h : LeadsSort r l a) (hb : b ∈ l) :
    r a b := by
  obtain ⟨before, after, rfl, hbefore, hafter⟩ := h
  rcases List.mem_append.mp hb with hb | hb
  · exact (Std.Total.total a b).resolve_right (hbefore b hb)
  · rcases List.mem_cons.mp hb with rfl | hb
    · exact (Std.Total.total b b).elim id id
    · exact hafter b hb

omit [DecidableRel r] in
theorem leadsSort_cons_iff {l : List α} {a b : α} :
    LeadsSort r (b :: l) a ↔ (a = b ∧ ∀ x ∈ l, r b x) ∨ (¬ r b a ∧ LeadsSort r l a) := by
  constructor
  · rintro ⟨before, after, hl, hbefore, hafter⟩
    cases before with
    | nil =>
      obtain ⟨rfl, rfl⟩ := List.cons.inj hl
      exact .inl ⟨rfl, hafter⟩
    | cons c before =>
      obtain ⟨rfl, rfl⟩ := List.cons.inj hl
      obtain ⟨hne, hbefore⟩ := List.forall_mem_cons.mp hbefore
      exact .inr ⟨hne, before, after, rfl, hbefore, hafter⟩
  · rintro (⟨rfl, hafter⟩ | ⟨hne, before, after, rfl, hbefore, hafter⟩)
    · exact ⟨[], l, rfl, by simp, hafter⟩
    · exact ⟨b :: before, after, rfl, List.forall_mem_cons.mpr ⟨hne, hbefore⟩, hafter⟩

/-- The sort is stable: its head is the first in the list of the least elements. -/
theorem head?_insertionSort_iff [Std.Total r] [IsTrans α r] {l : List α} {a : α} :
    (l.insertionSort r).head? = some a ↔ LeadsSort r l a := by
  induction l generalizing a with
  | nil => simp [LeadsSort]
  | cons b rest ih =>
    rw [List.insertionSort_cons, leadsSort_cons_iff, ← ih]
    cases hsorted : rest.insertionSort r with
    | nil =>
      have hrest : rest = [] := (hsorted ▸ (List.perm_insertionSort r rest)).nil_eq.symm
      subst hrest
      simp [eq_comm]
    | cons c tail =>
      have hc : LeadsSort r rest c := ih.mp (by rw [hsorted]; rfl)
      by_cases hbc : r b c
      · rw [List.orderedInsert_cons_of_le r _ hbc]
        simp only [List.head?_cons, Option.some.injEq]
        constructor
        · rintro rfl
          exact .inl ⟨rfl, fun x hx => IsTrans.trans _ _ _ hbc (hc.le hx)⟩
        · rintro (⟨rfl, -⟩ | ⟨hne, rfl⟩)
          · rfl
          · exact absurd hbc hne
      · rw [List.orderedInsert_of_not_le r _ hbc]
        simp only [List.head?_cons, Option.some.injEq]
        constructor
        · rintro rfl
          exact .inr ⟨hbc, rfl⟩
        · rintro (⟨-, hall⟩ | ⟨-, heq⟩)
          · have hmem : c ∈ rest := (List.perm_insertionSort r rest).mem_iff.mp
              (hsorted ▸ List.mem_cons_self)
            exact absurd (hall c hmem) hbc
          · exact heq

theorem orderedInsert_append_singleton {a x : α} (hax : r a x) (l : List α) :
    (l ++ [x]).orderedInsert r a = l.orderedInsert r a ++ [x] := by
  induction l with
  | nil => simp [hax]
  | cons b rest ih =>
    by_cases hab : r a b
    · simp [hab]
    · simp [hab, ih]

theorem insertionSort_append_singleton {l : List α} {x : α} (h : ∀ a ∈ l, r a x) :
    (l ++ [x]).insertionSort r = l.insertionSort r ++ [x] := by
  induction l with
  | nil => rfl
  | cons a rest ih =>
    obtain ⟨ha, hrest⟩ := List.forall_mem_cons.mp h
    rw [List.cons_append, List.insertionSort_cons, ih hrest, orderedInsert_append_singleton ha,
      List.insertionSort_cons]

end Sorting

/-! ## Comparing by one key after the other

A comparison function of the form `byKey || rest`: the keys decide where they
differ, and the rest decides where they agree. A descending key is a key in the
dual order. -/

section Lexicographic

variable {α β : Type} [LinearOrder β] {key : α → β} {r : α → α → Prop}

/-- First by the key, then by `r`. -/
def lexLe (key : α → β) (r : α → α → Prop) (a b : α) : Prop :=
  key a < key b ∨ key a = key b ∧ r a b

theorem lexLe_total (hr : ∀ a b, r a b ∨ r b a) (a b : α) :
    lexLe key r a b ∨ lexLe key r b a := by
  rcases lt_trichotomy (key a) (key b) with hlt | heq | hgt
  · exact .inl (.inl hlt)
  · rcases hr a b with h | h
    · exact .inl (.inr ⟨heq, h⟩)
    · exact .inr (.inr ⟨heq.symm, h⟩)
  · exact .inr (.inl hgt)

theorem lexLe_trans (hr : ∀ a b c, r a b → r b c → r a c) {a b c : α}
    (hab : lexLe key r a b) (hbc : lexLe key r b c) : lexLe key r a c := by
  rcases hab with hlt | ⟨heq, h⟩
  · rcases hbc with hlt' | ⟨heq', -⟩
    · exact .inl (lt_trans hlt hlt')
    · exact .inl (heq' ▸ hlt)
  · rcases hbc with hlt' | ⟨heq', h'⟩
    · exact .inl (heq ▸ hlt')
    · exact .inr ⟨heq.trans heq', hr a b c h h'⟩

theorem lexLe_tie {a b : α} (hab : lexLe key r a b) (hba : lexLe key r b a) :
    key a = key b ∧ r a b ∧ r b a := by
  rcases hab with hlt | ⟨heq, h⟩
  · rcases hba with hgt | ⟨heq, -⟩
    · exact absurd hlt (lt_asymm hgt)
    · exact absurd (heq ▸ hlt) (lt_irrefl _)
  · rcases hba with hgt | ⟨-, h'⟩
    · exact absurd (heq ▸ hgt) (lt_irrefl _)
    · exact ⟨heq, h, h'⟩

end Lexicographic

end AramoPlatform.Lib
