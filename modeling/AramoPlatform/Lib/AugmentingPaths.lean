import Mathlib.Combinatorics.Enumerative.DoubleCounting
import Mathlib.Data.Finset.Basic
import Mathlib.Logic.Function.Basic

/-!
# Matching along augmenting paths

Tasks are matched to workers one after the other. A task takes a free worker,
or one whose task can be moved to another worker, by a search that visits no
worker twice. A matching is the map of the workers to the tasks they hold.

The search fails only where no matching of the tasks matched so far has the
new one as well: the workers it has seen are all taken, by tasks that have no
worker outside of them. The tasks left over are therefore those of the greedy
choice of a matchable set, whatever the order of the workers, and no set of
more tasks is matchable.
-/

namespace AramoPlatform.Lib

namespace Matching

variable {ι α : Type}

/-! ## Matchings -/

/-- Every task of the set can have a worker of its own. -/
def Matchable (adj : ι → List α) (s : Finset ι) : Prop :=
  ∃ owner : α → Option ι, ∀ i ∈ s, ∃ u ∈ adj i, owner u = some i

variable {adj : ι → List α}

theorem Matchable.mono {s t : Finset ι} (h : Matchable adj t) (hst : s ⊆ t) :
    Matchable adj s := by
  obtain ⟨owner, howner⟩ := h
  exact ⟨owner, fun i hi => howner i (hst hi)⟩

theorem matchable_congr {adj adj' : ι → List α} (h : ∀ i u, u ∈ adj i ↔ u ∈ adj' i) :
    Matchable adj = Matchable adj' := by
  funext s
  simp only [Matchable, h]

/-- The map gives every task of the set one worker, and no other task any. -/
structure IsMatching (adj : ι → List α) (owner : α → Option ι) (s : Finset ι) : Prop where
  edge : ∀ u i, owner u = some i → u ∈ adj i
  unique : ∀ u v i, owner u = some i → owner v = some i → u = v
  held : ∀ i, i ∈ s ↔ ∃ u, owner u = some i

theorem isMatching_empty (adj : ι → List α) : IsMatching adj (fun _ => none) ∅ where
  edge _ _ h := by cases h
  unique _ _ _ h := by cases h
  held i := by simp

variable {owner : α → Option ι}

theorem IsMatching.matchable {s : Finset ι}
    (h : IsMatching adj owner s) : Matchable adj s := by
  refine ⟨owner, fun i hi => ?_⟩
  obtain ⟨u, hu⟩ := (h.held i).mp hi
  exact ⟨u, h.edge u i hu, hu⟩

/-! ## Where no task can be added -/

/-- Workers that are all taken, by tasks that have no worker outside of them;
nor has the new one. -/
structure Stuck (adj : ι → List α) (owner : α → Option ι) (i : ι) (seen : List α) : Prop where
  task : adj i ⊆ seen
  closed : ∀ u ∈ seen, ∃ j, owner u = some j ∧ adj j ⊆ seen

/-- **Where every other task is stuck, no larger set is matchable.** -/
theorem card_le_of_stuck {s t : Finset ι}
    (h : IsMatching adj owner s) (hstuck : ∀ i ∈ t, i ∉ s → ∃ seen, Stuck adj owner i seen)
    (ht : Matchable adj t) : t.card ≤ s.card := by
  classical
  obtain ⟨owner', howner'⟩ := ht
  -- the workers that a search for one of the other tasks has seen
  let seen (u : α) : Prop := ∃ i ∈ t, i ∉ s ∧ ∃ l, Stuck adj owner i l ∧ u ∈ l
  have hclosed : ∀ u, seen u → ∃ j, owner u = some j ∧ ∀ v ∈ adj j, seen v := by
    rintro u ⟨i, hi, his, l, hl, hu⟩
    obtain ⟨j, hj, hadj⟩ := hl.closed u hu
    exact ⟨j, hj, fun v hv => ⟨i, hi, his, l, hl, hadj hv⟩⟩
  -- the tasks that hold one of them, and those together with the other tasks of `t`
  let holders := s.filter fun j => ∃ u, seen u ∧ owner u = some j
  have hworker : ∀ i ∈ t, i ∉ s ∨ i ∈ holders → ∃ u, seen u ∧ owner' u = some i := by
    intro i hi hor
    obtain ⟨u, hu, hown⟩ := howner' i hi
    refine ⟨u, ?_, hown⟩
    rcases hor with his | hhold
    · obtain ⟨l, hl⟩ := hstuck i hi his
      exact ⟨i, hi, his, l, hl, hl.task hu⟩
    · obtain ⟨-, v, hv, hvi⟩ := Finset.mem_filter.mp hhold
      obtain ⟨j, hj, hadj⟩ := hclosed v hv
      rw [hvi, Option.some.injEq] at hj
      exact hadj u (hj ▸ hu)
  have hcrowd : (t.filter fun i => i ∉ s ∨ i ∈ holders).card ≤ holders.card := by
    refine Finset.card_le_card_of_forall_subsingleton
      (fun i j => ∃ u, seen u ∧ owner' u = some i ∧ owner u = some j) ?_ ?_
    · intro i hi
      obtain ⟨hit, hor⟩ := Finset.mem_filter.mp hi
      obtain ⟨u, hu, hui⟩ := hworker i hit hor
      obtain ⟨j, hj, -⟩ := hclosed u hu
      exact ⟨j, Finset.mem_filter.mpr ⟨(h.held j).mpr ⟨u, hj⟩, u, hu, hj⟩, u, hu, hui, hj⟩
    · rintro j - i ⟨-, u, -, hui, huj⟩ i' ⟨-, u', -, hui', huj'⟩
      have huu : u = u' := h.unique u u' j huj huj'
      rw [huu, hui', Option.some.injEq] at hui
      exact hui.symm
  -- the rest of `t` is in `s`, outside of the holders
  have hrest : (t.filter fun i => ¬(i ∉ s ∨ i ∈ holders)) ⊆ s \ holders := by
    intro i hi
    obtain ⟨-, hnot⟩ := Finset.mem_filter.mp hi
    rw [Finset.mem_sdiff]
    exact ⟨by_contra fun his => hnot (.inl his), fun hhold => hnot (.inr hhold)⟩
  have hsplit := Finset.card_filter_add_card_filter_not (s := t) (fun i => i ∉ s ∨ i ∈ holders)
  have hholders : (s \ holders).card + holders.card = s.card :=
    Finset.card_sdiff_add_card_eq_card (Finset.filter_subset _ s)
  have hle := Finset.card_le_card hrest
  omega

/-- **A stuck task cannot be added.** -/
theorem not_matchable_of_stuck [DecidableEq ι] {s : Finset ι} {i : ι}
    (h : IsMatching adj owner s) (hi : i ∉ s) {seen : List α} (hstuck : Stuck adj owner i seen) :
    ¬ Matchable adj (insert i s) := by
  intro hmatch
  have hcard : (insert i s).card ≤ s.card := by
    refine card_le_of_stuck h (fun j hj hjs => ?_) hmatch
    rcases Finset.mem_insert.mp hj with rfl | hmem
    · exact ⟨seen, hstuck⟩
    · exact absurd hmem hjs
  rw [Finset.card_insert_of_notMem hi] at hcard
  omega

/-! ## The search -/

section Search

variable [DecidableEq α]

/-- The workers seen by the search, and who holds what. -/
structure Search (ι α : Type) where
  seen : List α
  owner : α → Option ι

/-- The loop over the workers a task may have; a taken one is asked to move its
task elsewhere. -/
def tryWorkers (move : ι → Search ι α → Bool × Search ι α) (i : ι) :
    List α → Search ι α → Bool × Search ι α
  | [], s => (false, s)
  | u :: rest, s =>
      if u ∈ s.seen then tryWorkers move i rest s
      else
        let s := { s with seen := u :: s.seen }
        match s.owner u with
        | none => (true, { s with owner := Function.update s.owner u (some i) })
        | some held =>
          match move held s with
          | (true, s') => (true, { s' with owner := Function.update s'.owner u (some i) })
          | (false, s') => tryWorkers move i rest s'

/-- The search for a worker, up to a depth. -/
def augment (adj : ι → List α) : Nat → ι → Search ι α → Bool × Search ι α
  | 0, _, s => (false, s)
  | depth + 1, i, s => tryWorkers (augment adj depth) i (adj i) s

/-! ### What a successful search has found -/

/-- The map after the tasks have moved along a path that starts at a task and
avoids some workers. -/
inductive Augments (adj : ι → List α) :
    List α → (α → Option ι) → ι → (α → Option ι) → Prop
  | free {seen : List α} {owner : α → Option ι} {i : ι} {u : α} (hu : u ∈ adj i)
      (hseen : u ∉ seen) (hfree : owner u = none) :
      Augments adj seen owner i (Function.update owner u (some i))
  | shift {seen : List α} {owner owner' : α → Option ι} {i held : ι} {u : α} (hu : u ∈ adj i)
      (hseen : u ∉ seen) (hheld : owner u = some held)
      (h : Augments adj (u :: seen) owner held owner') :
      Augments adj seen owner i (Function.update owner' u (some i))

namespace Augments

variable {adj : ι → List α} {seen seen' : List α} {owner owner' : α → Option ι} {i : ι}

theorem mono (h : Augments adj seen owner i owner') (hsub : seen' ⊆ seen) :
    Augments adj seen' owner i owner' := by
  induction h generalizing seen' with
  | free hu hseen hfree => exact .free hu (fun hmem => hseen (hsub hmem)) hfree
  | shift hu hseen hheld _ ih =>
    exact .shift hu (fun hmem => hseen (hsub hmem)) hheld (ih (List.cons_subset_cons _ hsub))

theorem frame (h : Augments adj seen owner i owner') : ∀ x ∈ seen, owner' x = owner x := by
  induction h with
  | @free seen owner i u _ hseen _ =>
    intro x hx
    have hne : x ≠ u := fun heq => hseen (heq ▸ hx)
    exact Function.update_of_ne hne _ _
  | @shift seen owner owner' i held u _ hseen _ _ ih =>
    intro x hx
    have hne : x ≠ u := fun heq => hseen (heq ▸ hx)
    rw [Function.update_of_ne hne, ih x (List.mem_cons_of_mem u hx)]

/-- What the moves do to a map that gives each task one worker, except that the
task at hand may be held by an avoided one. -/
structure Moved (adj : ι → List α) (seen : List α) (owner : α → Option ι) (i : ι)
    (owner' : α → Option ι) : Prop where
  edge : ∀ x j, owner' x = some j → x ∈ adj j
  held : ∀ j, j ≠ i → ((∃ x, owner' x = some j) ↔ ∃ x, owner x = some j)
  unique : ∀ x y j, j ≠ i → owner' x = some j → owner' y = some j → x = y
  added : ∃ x, x ∉ seen ∧ owner' x = some i ∧
    ∀ y, owner' y = some i → y = x ∨ owner y = some i

theorem update_some {owner : α → Option ι} {u x : α} {i j : ι}
    (h : Function.update owner u (some i) x = some j) :
    (x = u ∧ j = i) ∨ (x ≠ u ∧ owner x = some j) := by
  by_cases hxu : x = u
  · subst hxu
    rw [Function.update_self, Option.some.injEq] at h
    exact .inl ⟨rfl, h.symm⟩
  · exact .inr ⟨hxu, by rwa [Function.update_of_ne hxu] at h⟩

theorem moved (h : Augments adj seen owner i owner')
    (hedge : ∀ x j, owner x = some j → x ∈ adj j)
    (hunique : ∀ x y j, owner x = some j → owner y = some j → x = y)
    (hat : ∀ x, owner x = some i → x ∈ seen) : Moved adj seen owner i owner' := by
  induction h with
  | @free seen owner i u hu hseen hfree =>
    have hback : ∀ x j, j ≠ i → Function.update owner u (some i) x = some j →
        owner x = some j :=
      fun x j hj hx => ((update_some hx).resolve_left fun h => hj h.2).2
    refine ⟨fun x j hx => ?_, fun j hj => ⟨?_, ?_⟩, fun x y j hj hx hy => ?_, u, hseen, ?_, ?_⟩
    · rcases update_some hx with ⟨rfl, rfl⟩ | ⟨-, hx⟩
      · exact hu
      · exact hedge x j hx
    · rintro ⟨x, hx⟩
      exact ⟨x, hback x j hj hx⟩
    · rintro ⟨x, hx⟩
      have hxu : x ≠ u := fun heq => by rw [heq, hfree] at hx; cases hx
      exact ⟨x, by rw [Function.update_of_ne hxu, hx]⟩
    · exact hunique x y j (hback x j hj hx) (hback y j hj hy)
    · exact Function.update_self _ _ _
    · intro y hy
      exact (update_some hy).imp And.left And.right
  | @shift seen owner owner' i held u hu hseen hheld hrest ih =>
    have hin := ih hedge hunique fun x hx => by
      rw [hunique x u held hx hheld]
      exact List.mem_cons_self
    have hu' : owner' u = some held := by rw [hrest.frame u List.mem_cons_self, hheld]
    have hne : i ≠ held := fun heq => hseen (hat u (heq ▸ hheld))
    obtain ⟨x₀, hx₀, hx₀held, honly⟩ := hin.added
    have hx₀u : x₀ ≠ u := fun heq => hx₀ (heq ▸ List.mem_cons_self)
    refine ⟨fun x j hx => ?_, fun j hj => ?_, fun x y j hj hx hy => ?_, u, hseen, ?_, ?_⟩
    · rcases update_some hx with ⟨rfl, rfl⟩ | ⟨-, hx⟩
      · exact hu
      · exact hin.edge x j hx
    · by_cases hjh : j = held
      · -- the task that was moved away from `u` is held by the new worker
        subst hjh
        exact ⟨fun _ => ⟨u, hheld⟩, fun _ => ⟨x₀, by rw [Function.update_of_ne hx₀u, hx₀held]⟩⟩
      · rw [← hin.held j hjh]
        constructor
        · rintro ⟨x, hx⟩
          exact ⟨x, ((update_some hx).resolve_left fun h => hj h.2).2⟩
        · rintro ⟨x, hx⟩
          have hxu : x ≠ u := by
            intro heq
            rw [heq, hu', Option.some.injEq] at hx
            exact hjh hx.symm
          exact ⟨x, by rw [Function.update_of_ne hxu, hx]⟩
    · obtain ⟨hxu, hx⟩ := (update_some hx).resolve_left fun h => hj h.2
      obtain ⟨hyu, hy⟩ := (update_some hy).resolve_left fun h => hj h.2
      by_cases hjh : j = held
      · subst hjh
        have hnew : ∀ z, z ≠ u → owner' z = some j → z = x₀ := fun z hzu hz =>
          (honly z hz).resolve_right fun hold => hzu (hunique z u j hold hheld)
        rw [hnew x hxu hx, hnew y hyu hy]
      · exact hin.unique x y j hjh hx hy
    · exact Function.update_self _ _ _
    · intro y hy
      rcases update_some hy with ⟨rfl, -⟩ | ⟨-, hy⟩
      · exact .inl rfl
      · -- the task was held by an avoided worker, which has kept it
        obtain ⟨x, hx⟩ := (hin.held i hne).mp ⟨y, hy⟩
        have hx' : owner' x = some i := by
          rw [hrest.frame x (List.mem_cons_of_mem u (hat x hx)), hx]
        rw [hin.unique y x i hne hy hx']
        exact .inr hx

/-- **Along an augmenting path a matching gains the task.** -/
theorem isMatching [DecidableEq ι] {s : Finset ι} (h : Augments adj [] owner i owner')
    (hs : IsMatching adj owner s) (hi : i ∉ s) : IsMatching adj owner' (insert i s) := by
  have hnot : ∀ x, owner x ≠ some i := fun x hx => hi ((hs.held i).mpr ⟨x, hx⟩)
  have hmoved := h.moved hs.edge hs.unique fun x hx => absurd hx (hnot x)
  obtain ⟨x₀, -, hx₀, honly⟩ := hmoved.added
  have hnew : ∀ y, owner' y = some i → y = x₀ :=
    fun y hy => (honly y hy).resolve_right (hnot y)
  refine ⟨hmoved.edge, fun x y j hx hy => ?_, fun j => ?_⟩
  · by_cases hj : j = i
    · rw [hnew x (hj ▸ hx), hnew y (hj ▸ hy)]
    · exact hmoved.unique x y j hj hx hy
  · rw [Finset.mem_insert]
    by_cases hj : j = i
    · subst hj
      exact ⟨fun _ => ⟨x₀, hx₀⟩, fun _ => .inl rfl⟩
    · rw [hmoved.held j hj, ← hs.held j]
      exact or_iff_right hj

end Augments

/-! ### What a failed search has seen -/

/-- The workers seen since are taken, by tasks whose workers have all been seen. -/
structure Explored (adj : ι → List α) (owner : α → Option ι) (seen seen' : List α) : Prop where
  subset : seen ⊆ seen'
  closed : ∀ u ∈ seen', u ∉ seen → ∃ j, owner u = some j ∧ adj j ⊆ seen'

theorem Explored.trans {adj : ι → List α} {owner : α → Option ι} {seen seen' seen'' : List α}
    (h : Explored adj owner seen seen') (h' : Explored adj owner seen' seen'') :
    Explored adj owner seen seen'' := by
  refine ⟨List.Subset.trans h.subset h'.subset, fun u hu hnew => ?_⟩
  by_cases hmid : u ∈ seen'
  · obtain ⟨j, hj, hadj⟩ := h.closed u hmid hnew
    exact ⟨j, hj, List.Subset.trans hadj h'.subset⟩
  · exact h'.closed u hu hmid

/-- What the search for a task has done once it has gone through some workers. -/
structure Searched (adj : ι → List α) (i : ι) (tried : List α) (s : Search ι α)
    (r : Bool × Search ι α) : Prop where
  found : r.1 = true → Augments adj s.seen s.owner i r.2.owner
  failed : r.1 = false →
    r.2.owner = s.owner ∧ Explored adj s.owner s.seen r.2.seen ∧ tried ⊆ r.2.seen

/-- How many of the workers have not been seen. -/
def unseen (workers : Finset α) (seen : List α) : Nat := (workers.filter (· ∉ seen)).card

theorem unseen_le {workers : Finset α} {seen seen' : List α} (h : seen ⊆ seen') :
    unseen workers seen' ≤ unseen workers seen := by
  refine Finset.card_le_card fun u hu => ?_
  obtain ⟨hmem, hnot⟩ := Finset.mem_filter.mp hu
  exact Finset.mem_filter.mpr ⟨hmem, fun hseen => hnot (h hseen)⟩

theorem unseen_cons_lt {workers : Finset α} {seen : List α} {u : α} (hu : u ∈ workers)
    (hnew : u ∉ seen) : unseen workers (u :: seen) < unseen workers seen := by
  refine Finset.card_lt_card ⟨fun v hv => ?_, fun hsub => ?_⟩
  · obtain ⟨hmem, hnot⟩ := Finset.mem_filter.mp hv
    exact Finset.mem_filter.mpr ⟨hmem, fun hseen => hnot (List.mem_cons_of_mem u hseen)⟩
  · have hmem := Finset.mem_filter.mp (hsub (Finset.mem_filter.mpr ⟨hu, hnew⟩))
    exact hmem.2 List.mem_cons_self

section Correct

variable {adj : ι → List α} {workers : Finset α}

theorem tryWorkers_spec {move : ι → Search ι α → Bool × Search ι α} {depth : Nat}
    (hmove : ∀ held s, unseen workers s.seen < depth →
      Searched adj held (adj held) s (move held s)) {i : ι} (l : List α)
    (hl : l ⊆ adj i) (hworkers : ∀ u ∈ l, u ∈ workers) (s : Search ι α)
    (hdepth : unseen workers s.seen < depth + 1) :
    Searched adj i l s (tryWorkers move i l s) := by
  induction l generalizing s with
  | nil =>
    refine ⟨fun h => (by cases h), fun _ => ⟨rfl, ⟨List.Subset.refl _, ?_⟩, List.nil_subset _⟩⟩
    exact fun u hu hnew => absurd hu hnew
  | cons u rest ih =>
    have hrest := ih (fun v hv => hl (List.mem_cons_of_mem u hv))
      fun v hv => hworkers v (List.mem_cons_of_mem u hv)
    have hu : u ∈ adj i := hl List.mem_cons_self
    rw [tryWorkers]
    by_cases hseen : u ∈ s.seen
    · rw [if_pos hseen]
      obtain ⟨hfound, hfailed⟩ := hrest s hdepth
      refine ⟨hfound, fun h => ?_⟩
      obtain ⟨howner, hexplored, htried⟩ := hfailed h
      exact ⟨howner, hexplored, List.cons_subset.mpr ⟨hexplored.subset hseen, htried⟩⟩
    · rw [if_neg hseen]
      have hlt := unseen_cons_lt (hworkers u List.mem_cons_self) hseen
      cases howner : s.owner u with
      | none =>
        simp only [howner]
        exact ⟨fun _ => .free hu hseen howner, fun h => by cases h⟩
      | some held =>
        simp only [howner]
        obtain ⟨hfound, hfailed⟩ := hmove held ⟨u :: s.seen, s.owner⟩ (by simp only; omega)
        cases hres : move held ⟨u :: s.seen, s.owner⟩ with
        | mk found s' =>
          rw [hres] at hfound hfailed
          cases found with
          | true => exact ⟨fun _ => .shift hu hseen howner (hfound rfl), fun h => by cases h⟩
          | false =>
            obtain ⟨howner', hexplored, hheld⟩ := hfailed rfl
            -- the worker just seen is taken, and its task's workers have been seen
            have hupto : Explored adj s.owner s.seen s'.seen := by
              refine ⟨List.Subset.trans (List.subset_cons_self u _) hexplored.subset,
                fun v hv hnew => ?_⟩
              by_cases hvu : v = u
              · exact ⟨held, hvu ▸ howner, hheld⟩
              · exact hexplored.closed v hv fun hmem => (List.mem_cons.mp hmem).elim hvu hnew
            have hle : unseen workers s'.seen ≤ unseen workers s.seen := unseen_le hupto.subset
            obtain ⟨hfound', hfailed'⟩ := hrest s' (by omega)
            rw [howner'] at hfound' hfailed'
            refine ⟨fun h => (hfound' h).mono hupto.subset, fun h => ?_⟩
            obtain ⟨howner'', hexplored', htried⟩ := hfailed' h
            refine ⟨howner'', hupto.trans hexplored', List.cons_subset.mpr ⟨?_, htried⟩⟩
            exact hexplored'.subset (hexplored.subset List.mem_cons_self)

/-- **The search, deep enough to see every worker.** -/
theorem augment_spec (hworkers : ∀ i, ∀ u ∈ adj i, u ∈ workers) (depth : Nat) (i : ι)
    (s : Search ι α) (hdepth : unseen workers s.seen < depth) :
    Searched adj i (adj i) s (augment adj depth i s) := by
  induction depth generalizing i s with
  | zero => omega
  | succ depth ih =>
    exact tryWorkers_spec ih (adj i) (List.Subset.refl _) (hworkers i) s hdepth

variable [DecidableEq ι] {owner : α → Option ι} {s : Finset ι} {i : ι} {depth : Nat}

/-- **The search finds a worker exactly where the tasks with the new one are
matchable**; then they are matched, and otherwise nothing has changed. -/
theorem augment_exact (hworkers : ∀ i, ∀ u ∈ adj i, u ∈ workers) (hdepth : workers.card < depth)
    (hs : IsMatching adj owner s) (hi : i ∉ s) :
    ((augment adj depth i ⟨[], owner⟩).1 = true ↔ Matchable adj (insert i s)) ∧
    IsMatching adj (augment adj depth i ⟨[], owner⟩).2.owner
      (if (augment adj depth i ⟨[], owner⟩).1 then insert i s else s) := by
  have hunseen : unseen workers [] < depth :=
    (Finset.card_le_card (Finset.filter_subset _ _)).trans_lt hdepth
  obtain ⟨hfound, hfailed⟩ := augment_spec hworkers depth i ⟨[], owner⟩ hunseen
  cases hres : (augment adj depth i ⟨[], owner⟩).1 with
  | true =>
    have hmatching := (hfound hres).isMatching hs hi
    exact ⟨⟨fun _ => hmatching.matchable, fun _ => rfl⟩, hmatching⟩
  | false =>
    obtain ⟨howner, hexplored, htried⟩ := hfailed hres
    have hstuck : Stuck adj owner i (augment adj depth i ⟨[], owner⟩).2.seen :=
      ⟨htried, fun u hu => hexplored.closed u hu List.not_mem_nil⟩
    refine ⟨⟨fun h => (by cases h), fun h => ?_⟩, ?_⟩
    · exact absurd h (not_matchable_of_stuck hs hi hstuck)
    · rw [howner]
      exact hs

theorem exists_stuck (hworkers : ∀ i, ∀ u ∈ adj i, u ∈ workers) (hs : IsMatching adj owner s)
    (hi : i ∉ s) (hnot : ¬ Matchable adj (insert i s)) : ∃ seen, Stuck adj owner i seen := by
  have hunseen : unseen workers [] < workers.card + 1 :=
    (Finset.card_le_card (Finset.filter_subset _ _)).trans_lt (Nat.lt_succ_self _)
  obtain ⟨hfound, hfailed⟩ := augment_spec hworkers _ i ⟨[], owner⟩ hunseen
  cases hres : (augment adj (workers.card + 1) i ⟨[], owner⟩).1 with
  | true => exact absurd ((hfound hres).isMatching hs hi).matchable hnot
  | false =>
    obtain ⟨-, hexplored, htried⟩ := hfailed hres
    exact ⟨_, htried, fun u hu => hexplored.closed u hu List.not_mem_nil⟩

end Correct

/-! ## One task after the other -/

/-- The tasks that find no worker in turn, and who holds what at the end. -/
def assignEach (adj : ι → List α) (depth : Nat) :
    List ι → (α → Option ι) → List ι × (α → Option ι)
  | [], owner => ([], owner)
  | i :: rest, owner =>
      let r := augment adj depth i ⟨[], owner⟩
      let r' := assignEach adj depth rest r.2.owner
      (if r.1 then r'.1 else i :: r'.1, r'.2)

section Greedy

variable [DecidableEq ι]

open Classical in
/-- The greedy choice of an admissible set: the tasks chosen, with those there
were, and the tasks left out. -/
noncomputable def greedy (P : Finset ι → Prop) : Finset ι → List ι → Finset ι × List ι
  | s, [] => (s, [])
  | s, i :: rest =>
      if P (insert i s) then greedy P (insert i s) rest
      else ((greedy P s rest).1, i :: (greedy P s rest).2)

variable {P : Finset ι → Prop}

theorem subset_greedy (s : Finset ι) (l : List ι) : s ⊆ (greedy P s l).1 := by
  induction l generalizing s with
  | nil => exact Finset.Subset.refl s
  | cons i rest ih =>
    rw [greedy]
    split
    · exact (Finset.subset_insert i s).trans (ih _)
    · exact ih s

variable {l : List ι} {s : Finset ι}

/-- A task is chosen, or left out because a part of the choice did not allow it. -/
theorem mem_greedy_or {j : ι} (hj : j ∈ s ∨ j ∈ l) :
    j ∈ (greedy P s l).1 ∨ ∃ t ⊆ (greedy P s l).1, ¬ P (insert j t) := by
  induction l generalizing s with
  | nil => exact .inl (hj.resolve_right List.not_mem_nil)
  | cons i rest ih =>
    rw [greedy]
    split
    case isTrue hP =>
      refine ih ?_
      rcases hj with hj | hj
      · exact .inl (Finset.mem_insert_of_mem hj)
      · rcases List.mem_cons.mp hj with rfl | hj
        · exact .inl (Finset.mem_insert_self j s)
        · exact .inr hj
    case isFalse hP =>
      rcases hj with hj | hj
      · exact ih (.inl hj)
      · rcases List.mem_cons.mp hj with rfl | hj
        · exact .inr ⟨s, subset_greedy s rest, hP⟩
        · exact ih (.inr hj)

theorem card_greedy (hl : l.Nodup) (hs : ∀ i ∈ l, i ∉ s) :
    (greedy P s l).1.card + (greedy P s l).2.length = s.card + l.length := by
  induction l generalizing s with
  | nil => rfl
  | cons i rest ih =>
    obtain ⟨hi, hrest⟩ := List.nodup_cons.mp hl
    have his : i ∉ s := hs i List.mem_cons_self
    have htail : ∀ j ∈ rest, j ∉ s := fun j hj => hs j (List.mem_cons_of_mem i hj)
    rw [greedy]
    split
    · have hstep := ih (s := insert i s) hrest fun j hj hmem => by
        rcases Finset.mem_insert.mp hmem with rfl | hmem
        · exact hi hj
        · exact htail j hj hmem
      rw [hstep, Finset.card_insert_of_notMem his, List.length_cons]
      omega
    · have hstep := ih hrest htail
      simp only [List.length_cons]
      omega

theorem mem_of_mem_greedy {j : ι} (hj : j ∈ (greedy P s l).1) :
    j ∈ s ∨ j ∈ l := by
  induction l generalizing s with
  | nil => exact .inl hj
  | cons i rest ih =>
    rw [greedy] at hj
    split at hj
    · rcases ih hj with hmem | hmem
      · rcases Finset.mem_insert.mp hmem with rfl | hmem
        · exact .inr List.mem_cons_self
        · exact .inl hmem
      · exact .inr (List.mem_cons_of_mem i hmem)
    · exact (ih hj).imp id (List.mem_cons_of_mem i)

theorem left_subset_greedy (s : Finset ι) (l : List ι) : (greedy P s l).2 ⊆ l := by
  induction l generalizing s with
  | nil => exact List.Subset.refl _
  | cons i rest ih =>
    rw [greedy]
    split
    · exact List.Subset.trans (ih _) (List.subset_cons_self i rest)
    · exact List.cons_subset_cons i (ih s)

variable {adj : ι → List α} {workers : Finset α} {depth : Nat}

section

variable (hworkers : ∀ i, ∀ u ∈ adj i, u ∈ workers)

include hworkers

/-- **Task by task the search makes the greedy choice of a matchable set.** -/
theorem assignEach_exact
    (hdepth : workers.card < depth) (hl : l.Nodup) {owner : α → Option ι}
    (hs : IsMatching adj owner s) (hnew : ∀ i ∈ l, i ∉ s) :
    (assignEach adj depth l owner).1 = (greedy (Matchable adj) s l).2 ∧
      IsMatching adj (assignEach adj depth l owner).2 (greedy (Matchable adj) s l).1 := by
  induction l generalizing owner s with
  | nil => exact ⟨rfl, hs⟩
  | cons i rest ih =>
    obtain ⟨hi, hrest⟩ := List.nodup_cons.mp hl
    have his : i ∉ s := hnew i List.mem_cons_self
    have htail : ∀ j ∈ rest, j ∉ s := fun j hj => hnew j (List.mem_cons_of_mem i hj)
    obtain ⟨hexact, hmatching⟩ := augment_exact hworkers hdepth hs his
    rw [assignEach, greedy]
    by_cases hP : Matchable adj (insert i s)
    · have hfound := hexact.mpr hP
      rw [hfound, if_pos rfl] at hmatching
      have hstep := ih hrest hmatching fun j hj hmem => by
        rcases Finset.mem_insert.mp hmem with rfl | hmem
        · exact hi hj
        · exact htail j hj hmem
      rw [if_pos hP]
      simp only [hfound, if_true]
      exact hstep
    · have hfailed : (augment adj depth i ⟨[], owner⟩).1 = false := by
        rw [← Bool.not_eq_true]
        exact fun h => hP (hexact.mp h)
      rw [hfailed, if_neg (by simp)] at hmatching
      obtain ⟨hun, hfinal⟩ := ih hrest hmatching htail
      rw [if_neg hP]
      simp only [hfailed, Bool.false_eq_true, if_false]
      exact ⟨by rw [hun], hfinal⟩

/-- **No set of more tasks is matchable.** -/
theorem card_le_greedy (hl : l.Nodup)
    {t : Finset ι} (ht : ∀ i ∈ t, i ∈ l) (hmatch : Matchable adj t) :
    t.card ≤ (greedy (Matchable adj) ∅ l).1.card := by
  obtain ⟨-, hfinal⟩ := assignEach_exact hworkers (Nat.lt_succ_self _) hl
    (isMatching_empty adj) fun i _ => Finset.notMem_empty i
  refine card_le_of_stuck hfinal (fun i hi hout => ?_) hmatch
  obtain ⟨part, hpart, hnot⟩ := (mem_greedy_or (.inr (ht i hi))).resolve_left hout
  refine exists_stuck hworkers hfinal hout fun h => hnot ?_
  exact h.mono (Finset.insert_subset_insert i hpart)

theorem matchable_greedy
    (hl : l.Nodup) : Matchable adj (greedy (Matchable adj) ∅ l).1 :=
  (assignEach_exact hworkers (Nat.lt_succ_self _) hl (isMatching_empty adj)
    fun i _ => Finset.notMem_empty i).2.matchable

end

end Greedy

end Search

end Matching

end AramoPlatform.Lib
