import Mathlib.Data.List.Basic

/-!
# The first element of each key

A pass over a list that keeps an element unless one with its key was kept
before. What it returns has every key of the list once; which element stands
for a key depends on the order.
-/

namespace AramoPlatform.Lib

variable {α β : Type} [DecidableEq β] {key : α → β} {seen : List β} {l : List α} {a b : α}

/-- The elements whose key was neither seen before nor met earlier in the list. -/
def firstBy (key : α → β) : List β → List α → List α
  | _, [] => []
  | seen, a :: rest =>
      if key a ∈ seen then firstBy key seen rest
      else a :: firstBy key (key a :: seen) rest

theorem mem_of_mem_firstBy (h : a ∈ firstBy key seen l) : a ∈ l ∧ key a ∉ seen := by
  induction l generalizing seen with
  | nil => cases h
  | cons x rest ih =>
    rw [firstBy] at h
    split at h
    · obtain ⟨hmem, hnew⟩ := ih h
      exact ⟨List.mem_cons_of_mem _ hmem, hnew⟩
    next hx =>
      rcases List.mem_cons.mp h with rfl | h
      · exact ⟨List.mem_cons_self, hx⟩
      · obtain ⟨hmem, hnew⟩ := ih h
        exact ⟨List.mem_cons_of_mem _ hmem, fun hs => hnew (List.mem_cons_of_mem _ hs)⟩

theorem exists_firstBy (h : a ∈ l) (hnew : key a ∉ seen) :
    ∃ b ∈ firstBy key seen l, key b = key a := by
  induction l generalizing seen with
  | nil => cases h
  | cons x rest ih =>
    rw [firstBy]
    split
    next hx =>
      rcases List.mem_cons.mp h with rfl | h
      · exact absurd hx hnew
      · exact ih h hnew
    · by_cases hkey : key x = key a
      · exact ⟨x, List.mem_cons_self, hkey⟩
      · rcases List.mem_cons.mp h with rfl | h
        · exact absurd rfl hkey
        · have hnew' : key a ∉ key x :: seen := by
            simp only [List.mem_cons, not_or]
            exact ⟨fun heq => hkey heq.symm, hnew⟩
          obtain ⟨b, hb, hbkey⟩ := ih h hnew'
          exact ⟨b, List.mem_cons_of_mem _ hb, hbkey⟩

theorem firstBy_injective (ha : a ∈ firstBy key seen l) (hb : b ∈ firstBy key seen l)
    (hkey : key a = key b) : a = b := by
  induction l generalizing seen with
  | nil => cases ha
  | cons x rest ih =>
    rw [firstBy] at ha hb
    split at ha
    next hx =>
      rw [if_pos hx] at hb
      exact ih ha hb
    next hx =>
      rw [if_neg hx] at hb
      rcases List.mem_cons.mp ha with rfl | ha
      · rcases List.mem_cons.mp hb with rfl | hb
        · rfl
        · exact absurd (hkey ▸ List.mem_cons_self) (mem_of_mem_firstBy hb).2
      · rcases List.mem_cons.mp hb with rfl | hb
        · exact absurd (hkey ▸ List.mem_cons_self) (mem_of_mem_firstBy ha).2
        · exact ih ha hb

theorem firstBy_sublist (key : α → β) (seen : List β) (l : List α) :
    (firstBy key seen l).Sublist l := by
  induction l generalizing seen with
  | nil => exact .slnil
  | cons x rest ih =>
    rw [firstBy]
    split
    · exact (ih seen).cons x
    · exact (ih _).cons_cons x

theorem firstBy_pairwise (key : α → β) (seen : List β) (l : List α) :
    (firstBy key seen l).Pairwise fun a b => key a ≠ key b := by
  induction l generalizing seen with
  | nil => exact .nil
  | cons x rest ih =>
    rw [firstBy]
    split
    · exact ih seen
    · refine (ih _).cons fun b hb heq => ?_
      exact (mem_of_mem_firstBy hb).2 (heq ▸ List.mem_cons_self)

theorem firstBy_append_left (h : a ∈ firstBy key seen l) (l' : List α) :
    a ∈ firstBy key seen (l ++ l') := by
  induction l generalizing seen with
  | nil => cases h
  | cons x rest ih =>
    rw [firstBy] at h
    rw [List.cons_append, firstBy]
    split at h
    next hx =>
      rw [if_pos hx]
      exact ih h
    next hx =>
      rw [if_neg hx]
      rcases List.mem_cons.mp h with rfl | h
      · exact List.mem_cons_self
      · exact List.mem_cons_of_mem _ (ih h)

/-- What is kept stands in the list with no earlier element of its key. -/
theorem mem_firstBy_iff : a ∈ firstBy key seen l ↔
    key a ∉ seen ∧ ∃ before after, l = before ++ a :: after ∧ ∀ b ∈ before, key b ≠ key a := by
  induction l generalizing seen with
  | nil => simp [firstBy]
  | cons x rest ih =>
    rw [firstBy]
    constructor
    · intro h
      split at h
      next hx =>
        obtain ⟨hnew, before, after, rfl, hbefore⟩ := ih.mp h
        exact ⟨hnew, x :: before, after, rfl,
          List.forall_mem_cons.mpr ⟨fun heq => hnew (heq ▸ hx), hbefore⟩⟩
      next hx =>
        rcases List.mem_cons.mp h with rfl | h
        · exact ⟨hx, [], rest, rfl, fun b hb => by cases hb⟩
        · obtain ⟨hnew, before, after, rfl, hbefore⟩ := ih.mp h
          rw [List.mem_cons, not_or] at hnew
          exact ⟨hnew.2, x :: before, after, rfl,
            List.forall_mem_cons.mpr ⟨fun heq => hnew.1 heq.symm, hbefore⟩⟩
    · rintro ⟨hnew, before, after, hl, hbefore⟩
      cases before with
      | nil =>
        obtain ⟨rfl, rfl⟩ := List.cons.inj hl
        rw [if_neg hnew]
        exact List.mem_cons_self
      | cons b before =>
        obtain ⟨rfl, rfl⟩ := List.cons.inj hl
        obtain ⟨hne, hbefore⟩ := List.forall_mem_cons.mp hbefore
        split
        · exact ih.mpr ⟨hnew, before, after, rfl, hbefore⟩
        · refine List.mem_cons_of_mem _ (ih.mpr ⟨?_, before, after, rfl, hbefore⟩)
          rw [List.mem_cons, not_or]
          exact ⟨fun heq => hne heq.symm, hnew⟩

theorem firstBy_mono {seen' : List β} (hsub : ∀ k ∈ seen, k ∈ seen') (h : a ∈ firstBy key seen' l) :
    a ∈ firstBy key seen l := by
  induction l generalizing seen seen' with
  | nil => cases h
  | cons x rest ih =>
    rw [firstBy] at h ⊢
    split at h
    next hx =>
      split
      · exact ih hsub h
      · by_cases hkey : key a = key x
        · exact absurd (hkey ▸ hx) (mem_of_mem_firstBy h).2
        · refine List.mem_cons_of_mem _ (ih (fun k hk => ?_) h)
          rcases List.mem_cons.mp hk with rfl | hk
          · exact hx
          · exact hsub k hk
    next hx =>
      rw [if_neg fun hs => hx (hsub _ hs)]
      rcases List.mem_cons.mp h with rfl | h
      · exact List.mem_cons_self
      · refine List.mem_cons_of_mem _ (ih (fun k hk => ?_) h)
        rcases List.mem_cons.mp hk with rfl | hk
        · exact List.mem_cons_self
        · exact List.mem_cons_of_mem _ (hsub k hk)

theorem mem_firstBy_append {l' : List α} (h : a ∈ firstBy key seen (l ++ l')) :
    a ∈ firstBy key seen l ∨ a ∈ firstBy key seen l' := by
  induction l generalizing seen with
  | nil => exact .inr h
  | cons x rest ih =>
    rw [List.cons_append, firstBy] at h
    rw [firstBy]
    split at h
    next hx =>
      rw [if_pos hx]
      exact ih h
    next hx =>
      rw [if_neg hx]
      rcases List.mem_cons.mp h with rfl | h
      · exact .inl List.mem_cons_self
      · rcases ih h with h | h
        · exact .inl (List.mem_cons_of_mem _ h)
        · exact .inr (firstBy_mono (fun k hk => List.mem_cons_of_mem _ hk) h)

/-- The first of its key in several lists is the first of its key in one of them. -/
theorem mem_firstBy_flatMap {γ : Type} {f : γ → List α} {m : List γ}
    (h : a ∈ firstBy key [] (m.flatMap f)) : ∃ x ∈ m, a ∈ firstBy key [] (f x) := by
  induction m with
  | nil => cases h
  | cons x rest ih =>
    rw [List.flatMap_cons] at h
    rcases mem_firstBy_append h with h | h
    · exact ⟨x, List.mem_cons_self, h⟩
    · obtain ⟨y, hy, ha⟩ := ih h
      exact ⟨y, List.mem_cons_of_mem _ hy, ha⟩

end AramoPlatform.Lib
