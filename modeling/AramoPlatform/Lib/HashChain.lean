import Mathlib.Data.List.Forall2
import Mathlib.Data.List.Induction

/-!
# Hash chains

A list of entries, each of which names the hash of the entry before it. The
two facts every user needs: a chain is extended by an entry that names its
terminal hash (`linked_concat`), and, where an entry's hash binds its
contents and its predecessor, the terminal hash binds the whole list
(`same_of_terminal_eq`).
-/

namespace AramoPlatform.Lib

section HashChain

variable {E H : Type} (prev : E → Option H) (hash : E → H)

/-- The hash of the last entry. -/
def terminal (l : List E) : Option H := l.getLast?.map hash

/-- Each entry names the hash of the one before it, the first one `prior`. -/
def Linked : Option H → List E → Prop
  | _, [] => True
  | prior, e :: rest => prev e = prior ∧ Linked (some (hash e)) rest

@[simp] theorem terminal_nil : terminal hash [] = none := rfl

@[simp] theorem terminal_concat (l : List E) (e : E) :
    terminal hash (l ++ [e]) = some (hash e) := by
  simp [terminal]

theorem terminal_eq_none {l : List E} : terminal hash l = none ↔ l = [] := by
  simp [terminal]

theorem linked_concat_from (prior : Option H) (l : List E) (e : E) :
    Linked prev hash prior (l ++ [e]) ↔
      Linked prev hash prior l ∧ prev e = (terminal hash l).or prior := by
  induction l generalizing prior with
  | nil => simp [Linked]
  | cons a rest ih =>
    have hterm : (terminal hash (a :: rest)).or prior =
        (terminal hash rest).or (some (hash a)) := by
      cases rest with
      | nil => simp [terminal]
      | cons b rest =>
        cases h : terminal hash (b :: rest) with
        | none => simp [terminal_eq_none] at h
        | some x => simp_all [terminal]
    simp only [List.cons_append, Linked, ih, hterm, and_assoc]

/-- A chain is extended exactly by an entry that names its terminal hash. -/
theorem linked_concat (l : List E) (e : E) :
    Linked prev hash none (l ++ [e]) ↔
      Linked prev hash none l ∧ prev e = terminal hash l := by
  rw [linked_concat_from, Option.or_none]

theorem Linked.of_append {prior : Option H} {l l' : List E}
    (h : Linked prev hash prior (l ++ l')) : Linked prev hash prior l := by
  induction l generalizing prior with
  | nil => trivial
  | cons e rest ih => exact ⟨h.1, ih h.2⟩

theorem linked_congr {prior : Option H} {l l' : List E}
    (h : l.map (fun e => (prev e, hash e)) = l'.map fun e => (prev e, hash e)) :
    Linked prev hash prior l ↔ Linked prev hash prior l' := by
  induction l generalizing prior l' with
  | nil =>
    cases l' with
    | nil => rfl
    | cons e' rest' => simp at h
  | cons e rest ih =>
    cases l' with
    | nil => simp at h
    | cons e' rest' =>
      simp only [List.map_cons, List.cons.injEq, Prod.mk.injEq] at h
      obtain ⟨⟨hprev, hhash⟩, hrest⟩ := h
      rw [Linked, Linked, hprev, hhash, ih hrest]

/-- **The terminal hash commits to the whole chain.** `bound` is the only
thing asked of the hash: on the entries at hand, equal hashes mean the same
contents and the same predecessor. -/
theorem same_of_terminal_eq {Same : E → E → Prop} {l l' : List E}
    (bound : ∀ e ∈ l, ∀ e' ∈ l', hash e = hash e' → prev e = prev e' ∧ Same e e')
    (hl : Linked prev hash none l) (hl' : Linked prev hash none l')
    (hterm : terminal hash l = terminal hash l') : List.Forall₂ Same l l' := by
  -- from the last entry backwards: equal hashes give equal predecessors
  induction l using List.reverseRecOn generalizing l' with
  | nil =>
    have hnil : l' = [] := (terminal_eq_none hash).mp hterm.symm
    subst hnil
    exact .nil
  | append_singleton l e ih =>
    induction l' using List.reverseRecOn with
    | nil => simp at hterm
    | append_singleton l' e' _ =>
      rw [linked_concat] at hl hl'
      simp only [terminal_concat, Option.some.injEq] at hterm
      obtain ⟨hprev, hsame⟩ := bound e (by simp) e' (by simp) hterm
      have hfront : List.Forall₂ Same l l' := by
        refine ih ?_ hl.1 hl'.1 ?_
        · intro a ha b hb
          exact bound a (by simp [ha]) b (by simp [hb])
        · rw [← hl.2, ← hl'.2, hprev]
      exact List.rel_append hfront (.cons hsame .nil)

end HashChain

end AramoPlatform.Lib
