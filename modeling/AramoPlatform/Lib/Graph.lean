import Mathlib.Logic.Relation
import Mathlib.Data.List.Nodup
import Mathlib.Data.List.Range

/-!
# Directed graphs, searched

Cycles, and two searches that keep the nodes they have visited in a list: one
with a queue of nodes to expand, one that expands a whole layer at a time. The
graph of the queue search may change between two expansions: what it has
covered is said of a relation that the expansions are complete for.
-/

namespace AramoPlatform.Lib

open Relation List

variable {α : Type}

/-! ## Cycles -/

/-- No node reaches itself. -/
def Acyclic (r : α → α → Prop) : Prop := ∀ x, ¬ TransGen r x x

/-- An edge from `a` to `b` closes a cycle. -/
def ClosesCycle (r : α → α → Prop) (a b : α) : Prop := ReflTransGen r b a

theorem Acyclic.mono {r r' : α → α → Prop} (h : Acyclic r) (himp : ∀ x y, r' x y → r x y) :
    Acyclic r' :=
  fun x hx => h x (TransGen.mono himp x x hx)

variable {r : α → α → Prop}

theorem acyclic_of_rank (rank : α → Nat) (h : ∀ x y, r x y → rank y < rank x) :
    Acyclic r := by
  have hdown : ∀ x y, TransGen r x y → rank y < rank x := by
    intro x y hxy
    induction hxy with
    | single hone => exact h _ _ hone
    | tail _ hlast ih => exact (h _ _ hlast).trans ih
  intro x hx
  exact lt_irrefl _ (hdown x x hx)

/-- A path in the graph with one more edge either avoids the edge, or takes it
between a path to its source and one from its target. -/
theorem transGen_insert {r r' : α → α → Prop} {a b : α} (hopen : ¬ ClosesCycle r a b)
    (himp : ∀ x y, r' x y → r x y ∨ (x = a ∧ y = b)) {x y : α} (h : TransGen r' x y) :
    TransGen r x y ∨ (ReflTransGen r x a ∧ ReflTransGen r b y) := by
  induction h with
  | single hxy =>
    rcases himp _ _ hxy with hold | ⟨rfl, rfl⟩
    · exact .inl (.single hold)
    · exact .inr ⟨.refl, .refl⟩
  | tail _ hyz ih =>
    rcases ih with hxy | ⟨hxa, hby⟩
    · rcases himp _ _ hyz with hold | ⟨rfl, rfl⟩
      · exact .inl (hxy.tail hold)
      · exact .inr ⟨hxy.to_reflTransGen, .refl⟩
    · rcases himp _ _ hyz with hold | ⟨rfl, rfl⟩
      · exact .inr ⟨hxa, hby.tail hold⟩
      · exact absurd hby hopen

theorem Acyclic.insert {r r' : α → α → Prop} {a b : α} (h : Acyclic r)
    (hopen : ¬ ClosesCycle r a b) (himp : ∀ x y, r' x y → r x y ∨ (x = a ∧ y = b)) :
    Acyclic r' := by
  intro x hx
  rcases transGen_insert hopen himp hx with hold | ⟨hxa, hbx⟩
  · exact h x hold
  · exact hopen (hbx.trans hxa)

/-- `y` is `n` edges from `x`. -/
inductive Steps (r : α → α → Prop) : Nat → α → α → Prop
  | zero (x : α) : Steps r 0 x x
  | succ {n : Nat} {x y z : α} : Steps r n x y → r y z → Steps r (n + 1) x z

/-- `y` is at least one and at most `n` edges from `x`. -/
def Within (r : α → α → Prop) (n : Nat) (x y : α) : Prop := ∃ k, 1 ≤ k ∧ k ≤ n ∧ Steps r k x y

theorem Within.mono {n m : Nat} {x y : α} (h : Within r n x y) (hle : n ≤ m) :
    Within r m x y := by
  obtain ⟨k, hone, hk, hsteps⟩ := h
  exact ⟨k, hone, hk.trans hle, hsteps⟩

theorem Within.succ {n : Nat} {x y z : α} (h : Within r n x y) (hyz : r y z) :
    Within r (n + 1) x z := by
  obtain ⟨k, hone, hk, hsteps⟩ := h
  exact ⟨k + 1, by omega, Nat.succ_le_succ hk, .succ hsteps hyz⟩

theorem Within.last {n : Nat} {x z : α} (h : Within r (n + 1) x z) (hnot : ¬ Within r n x z) :
    ∃ y, Steps r n x y ∧ r y z := by
  obtain ⟨k, hone, hk, hsteps⟩ := h
  obtain rfl : k = n + 1 := by
    by_contra hne
    exact hnot ⟨k, hone, by omega, hsteps⟩
  cases hsteps with
  | succ hbefore hlast => exact ⟨_, hbefore, hlast⟩

/-! ## Visiting nodes -/

/-- The loop over the neighbours of a node: those not visited, and not to be
left out, are visited and put aside. -/
def discover [DecidableEq α] (skip : α → Bool) : List α → List α × List α → List α × List α
  | [], s => s
  | x :: xs, (visited, pending) =>
      if visited.contains x || skip x then discover skip xs (visited, pending)
      else discover skip xs (visited ++ [x], pending ++ [x])

variable {skip : α → Bool} {xs visited pending : List α}

theorem mem_discover [DecidableEq α] {y : α} :
    (y ∈ (discover skip xs (visited, pending)).1 ↔ y ∈ visited ∨ (y ∈ xs ∧ skip y = false)) ∧
      (y ∈ (discover skip xs (visited, pending)).2 ↔
        y ∈ pending ∨ (y ∈ xs ∧ skip y = false ∧ y ∉ visited)) := by
  induction xs generalizing visited pending with
  | nil => simp [discover]
  | cons x xs ih =>
    rw [discover]
    split
    next h =>
      simp only [Bool.or_eq_true, contains_iff_mem] at h
      rw [ih.1, ih.2]
      grind
    next h =>
      simp only [Bool.or_eq_true, contains_iff_mem, not_or, Bool.not_eq_true] at h
      rw [ih.1, ih.2]
      grind

theorem nodup_discover [DecidableEq α] (h : visited.Nodup) :
    (discover skip xs (visited, pending)).1.Nodup := by
  induction xs generalizing visited pending with
  | nil => exact h
  | cons x xs ih =>
    rw [discover]
    split
    · exact ih h
    next hnew =>
      simp only [Bool.or_eq_true, contains_iff_mem, not_or] at hnew
      refine ih (nodup_append.mpr ⟨h, nodup_singleton x, ?_⟩)
      rintro a ha b hb rfl
      exact hnew.1 (mem_singleton.mp hb ▸ ha)

theorem length_discover [DecidableEq α] (skip : α → Bool) (xs visited pending : List α) :
    (discover skip xs (visited, pending)).1.length + pending.length =
      visited.length + (discover skip xs (visited, pending)).2.length := by
  induction xs generalizing visited pending with
  | nil => rfl
  | cons x xs ih =>
    rw [discover]
    split
    · exact ih visited pending
    · have := ih (visited ++ [x]) (pending ++ [x])
      simp only [length_append, length_singleton] at this
      omega

/-! ## With a queue -/

/-- Every node met is either still in the queue or all its neighbours are
visited. -/
def Covered (r : α → α → Prop) (start : α) (queue visited : List α) : Prop :=
  ∀ x, x = start ∨ x ∈ visited → x ∈ queue ∨ ∀ y, r x y → y ∈ visited

theorem covered_start (r : α → α → Prop) (start : α) : Covered r start [start] [] := by
  rintro x (rfl | hx)
  · exact .inl mem_cons_self
  · cases hx

/-- One node is expanded: its neighbours may be more than those the relation
has now. -/
theorem Covered.expand [DecidableEq α] {start current : α} {queue visited found : List α}
    (h : Covered r start (current :: queue) visited) (hfound : ∀ y, r current y → y ∈ found) :
    Covered r start (discover (fun _ => false) found (visited, queue)).2
      (discover (fun _ => false) found (visited, queue)).1 := by
  intro x hx
  simp only [mem_discover.1, mem_discover.2, and_true, true_and] at hx ⊢
  by_cases hmet : x = start ∨ x ∈ visited
  · rcases h x hmet with hqueue | hclosed
    · rcases mem_cons.mp hqueue with rfl | hrest
      · exact .inr fun y hy => .inr (hfound y hy)
      · exact .inl (.inl hrest)
    · exact .inr fun y hy => .inl (hclosed y hy)
  · have hnew : x ∈ found ∧ x ∉ visited := by tauto
    exact .inl (.inr hnew)

/-- With nothing left in the queue, every node behind the start is visited. -/
theorem Covered.mem_of_transGen {start y : α} {visited : List α}
    (h : Covered r start [] visited) (hpath : TransGen r start y) : y ∈ visited := by
  induction hpath with
  | single hy => exact (h start (.inl rfl)).resolve_left not_mem_nil _ hy
  | tail _ hyz ih => exact (h _ (.inr ih)).resolve_left not_mem_nil _ hyz

/-! ## Layer by layer -/

/-- After `n` layers: the nodes within `n` edges are visited, and what follows them is behind the
frontier. Nodes to be left out are not visited. -/
structure Layered (r : α → α → Prop) (skip : α → Bool) (start : α) (n : Nat)
    (visited frontier : List α) : Prop where
  visited : ∀ y, y ∈ visited ↔ skip y = false ∧ Within r n start y
  reached : ∀ x ∈ frontier, Steps r n start x
  next : ∀ y, Within r (n + 1) start y → ¬ Within r n start y → ∃ x ∈ frontier, r x y

theorem layered_start (r : α → α → Prop) (skip : α → Bool) (start : α) :
    Layered r skip start 0 [] [start] where
  visited y := by
    constructor
    · intro hy
      cases hy
    · rintro ⟨-, k, hone, hk, -⟩
      omega
  reached x hx := mem_singleton.mp hx ▸ .zero _
  next y hy hnot := by
    obtain ⟨x, hx, hxy⟩ := hy.last hnot
    cases hx
    exact ⟨start, mem_cons_self, hxy⟩

/-- Only the start may be left out: what is behind it is behind its first neighbours. -/
theorem Layered.expand [DecidableEq α] {skip : α → Bool} {start : α} {n : Nat}
    {visited frontier found : List α} (hskip : ∀ x, skip x = true → x = start)
    (h : Layered r skip start n visited frontier) (hfound : ∀ y,
      y ∈ found ↔ ∃ x ∈ frontier, r x y) :
    Layered r skip start (n + 1) (discover skip found (visited, [])).1
      (discover skip found (visited, [])).2 where
  visited y := by
    rw [mem_discover.1, hfound, h.visited]
    constructor
    · rintro (⟨hkept, hnear⟩ | ⟨⟨x, hx, hxy⟩, hkept⟩)
      · exact ⟨hkept, hnear.mono (Nat.le_succ n)⟩
      · exact ⟨hkept, n + 1, Nat.succ_pos n, le_rfl, .succ (h.reached x hx) hxy⟩
    · rintro ⟨hkept, hnear⟩
      by_cases hold : Within r n start y
      · exact .inl ⟨hkept, hold⟩
      · exact .inr ⟨h.next y hnear hold, hkept⟩
  reached y hy := by
    obtain hnil | ⟨hin, -, -⟩ := mem_discover.2.mp hy
    · cases hnil
    · obtain ⟨x, hx, hxy⟩ := (hfound y).mp hin
      exact .succ (h.reached x hx) hxy
  next z hz hnot := by
    obtain ⟨y, hy, hyz⟩ := hz.last hnot
    have hfar : ¬ Within r n start y := fun hnear => hnot (hnear.succ hyz)
    refine ⟨y, mem_discover.2.mpr (.inr ⟨?_, ?_, ?_⟩), hyz⟩
    · exact (hfound y).mpr (h.next y ⟨n + 1, Nat.succ_pos n, le_rfl, hy⟩ hfar)
    · -- otherwise `z` is a neighbour of the start
      by_contra hleft
      obtain rfl := hskip y (Bool.not_eq_false _ ▸ hleft)
      exact hnot ⟨1, le_rfl, Nat.succ_pos n, .succ (.zero _) hyz⟩
    · exact fun hmem => hfar ((h.visited y).mp hmem).2

theorem Layered.done [DecidableEq α] {skip : α → Bool} {start : α} {n : Nat} {visited : List α}
    (hskip : ∀ x, skip x = true → x = start) (h : Layered r skip start n visited [])
    (more : Nat) : Layered r skip start (n + more) visited [] := by
  induction more with
  | zero => exact h
  | succ more ih =>
    have hnone : ∀ y, y ∈ ([] : List α) ↔ ∃ x ∈ [], r x y := by simp
    exact ih.expand hskip hnone

end AramoPlatform.Lib
