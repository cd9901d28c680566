import Mathlib.Data.List.Induction

/-!
# Paths with dot segments

A path as steps: a name, `..` or `.`. Walking it keeps a stack of names, and
`..` at the root stays at the root. Which name stands first in the end is a
matter of levels alone.
-/

namespace AramoPlatform.Lib

inductive Step (α : Type) where
  | up
  | here
  | name (a : α)
  deriving DecidableEq

namespace DotSegments

variable {α : Type} {x y : α} {steps pre post : List (Step α)} {s : Step α}

/-- One step on the stack of names. -/
def push (stack : List α) : Step α → List α
  | .up => stack.dropLast
  | .here => stack
  | .name a => stack ++ [a]

def walk (steps : List (Step α)) : List α := steps.foldl push []

/-- One step up or down from a level. -/
def move (d : Nat) : Step α → Nat
  | .up => d - 1
  | .here => d
  | .name _ => d + 1

/-- The level that some steps lead to from the level `d`. -/
def level (d : Nat) (steps : List (Step α)) : Nat := steps.foldl move d

@[simp] theorem level_nil (d : Nat) : level d ([] : List (Step α)) = d := rfl

@[simp] theorem level_append (d : Nat) (xs ys : List (Step α)) :
    level d (xs ++ ys) = level (level d xs) ys := List.foldl_append

@[simp] theorem level_name (d : Nat) (steps : List (Step α)) :
    level d (.name x :: steps) = level (d + 1) steps := rfl

@[simp] theorem level_singleton (d : Nat) (s : Step α) : level d [s] = move d s := rfl

theorem walk_concat (steps : List (Step α)) (s : Step α) :
    walk (steps ++ [s]) = push (walk steps) s := by
  unfold walk
  rw [List.foldl_append]
  rfl

theorem length_walk (steps : List (Step α)) : (walk steps).length = level 0 steps := by
  induction steps using List.reverseRec with
  | nil => rfl
  | append_singleton steps s ih =>
    rw [walk_concat, level_append, ← ih]
    cases s with
    | up => exact List.length_dropLast
    | here => rfl
    | name a => exact List.length_append

/-- The steps behind a name at the root never climb back over it. -/
def Above (post : List (Step α)) : Prop := ∀ p, p <+: post → 0 < level 1 p

/-- A name that stands at the root: the steps before it lead back there, and those behind it
never climb over it. -/
def AtRoot (x : α) (steps : List (Step α)) : Prop :=
  ∃ pre post, steps = pre ++ .name x :: post ∧ level 0 pre = 0 ∧ Above post

theorem above_concat : Above (post ++ [s]) ↔ Above post ∧ 0 < move (level 1 post) s := by
  constructor
  · intro h
    constructor
    · exact fun p hp => h p (hp.trans (List.prefix_append post [s]))
    · have := h _ (List.prefix_refl _)
      rwa [level_append] at this
  · rintro ⟨h, hlast⟩ p hp
    rcases List.prefix_concat_iff.mp hp with rfl | hp
    · rw [level_append]
      exact hlast
    · exact h p hp

/-- A name at the root stays there under one more step that does not climb over it. -/
theorem atRoot_concat : AtRoot x (steps ++ [s]) ↔
    (AtRoot x steps ∧ 0 < level 0 (steps ++ [s])) ∨ s = .name x ∧ level 0 steps = 0 := by
  constructor
  · rintro ⟨pre, post, hsteps, hpre, habove⟩
    rcases List.eq_nil_or_concat post with rfl | ⟨post, s', rfl⟩
    · obtain ⟨rfl, hs⟩ := List.append_inj' hsteps rfl
      exact .inr ⟨List.head_eq_of_cons_eq hs, hpre⟩
    · rw [List.concat_eq_append, ← List.cons_append, ← List.append_assoc] at hsteps
      obtain ⟨rfl, hs⟩ := List.append_inj' hsteps rfl
      obtain rfl := List.head_eq_of_cons_eq hs
      rw [List.concat_eq_append] at habove
      obtain ⟨habove, hlast⟩ := above_concat.mp habove
      left
      apply And.intro ⟨pre, post, rfl, hpre, habove⟩
      rw [level_append, level_append, hpre, level_name, level_singleton]
      exact hlast
  · rintro (⟨⟨pre, post, rfl, hpre, habove⟩, hpos⟩ | ⟨rfl, hlevel⟩)
    · refine ⟨pre, post ++ [s], by simp, hpre, above_concat.mpr ⟨habove, ?_⟩⟩
      rwa [level_append, level_append, hpre, level_name, level_singleton] at hpos
    · refine ⟨steps, [], rfl, hlevel, ?_⟩
      intro p hp
      rw [List.prefix_nil.mp hp]
      exact Nat.one_pos

/-- **What stands first on the walk is the name at the root.** -/
theorem head_walk_iff : (walk steps).head? = some x ↔ AtRoot x steps := by
  induction steps using List.reverseRec with
  | nil =>
    constructor
    · intro h
      cases h
    · rintro ⟨pre, post, hsteps, -⟩
      exact absurd hsteps (by simp)
  | append_singleton steps s ih =>
    have hlength := length_walk steps
    rw [atRoot_concat, ← ih, walk_concat, level_append, ← hlength, level_singleton]
    cases hstack : walk steps with
    | nil =>
      cases s with
      | up | here | name => simp [push, move]
    | cons y rest =>
      cases s with
      | up =>
        cases rest with
        | nil | cons => simp [push, move]
      | here | name => simp [push, move]

/-- The names of a path: a path that does not end in a name ends in a blank one. -/
def resolve (blank : α) (steps : List (Step α)) : List α :=
  match steps.getLast? with
  | some (.name _) => walk steps
  | _ => walk steps ++ [blank]

theorem resolve_ne_nil (blank : α) (steps : List (Step α)) : resolve blank steps ≠ [] := by
  unfold resolve
  split
  next a hlast =>
    obtain ⟨init, rfl⟩ := List.getLast?_eq_some_iff.mp hlast
    rw [walk_concat]
    exact List.append_ne_nil_of_right_ne_nil _ (List.cons_ne_nil _ _)
  next => exact List.append_ne_nil_of_right_ne_nil _ (List.cons_ne_nil _ _)

theorem mem_walk (h : x ∈ walk steps) : Step.name x ∈ steps := by
  induction steps using List.reverseRec with
  | nil => cases h
  | append_singleton steps s ih =>
    rw [walk_concat] at h
    cases s with
    | up => exact List.mem_append_left _ (ih (List.dropLast_subset _ h))
    | here => exact List.mem_append_left _ (ih h)
    | name a =>
      rcases List.mem_append.mp h with h | h
      · exact List.mem_append_left _ (ih h)
      · rw [List.mem_singleton.mp h]
        simp

theorem mem_resolve {blank : α} (h : x ∈ resolve blank steps) : x = blank ∨
    Step.name x ∈ steps := by
  unfold resolve at h
  split at h
  · exact .inr (mem_walk h)
  · rcases List.mem_append.mp h with h | h
    · exact .inr (mem_walk h)
    · exact .inl (List.mem_singleton.mp h)

/-- **The first name of a path is the one at the root.** -/
theorem head_resolve_iff {blank : α} (hx : x ≠ blank) :
    (resolve blank steps).head? = some x ↔ AtRoot x steps := by
  rw [← head_walk_iff]
  unfold resolve
  split
  · rfl
  · cases walk steps with
    | nil => simpa using hx.symm
    | cons y rest => rfl

end DotSegments

end AramoPlatform.Lib
