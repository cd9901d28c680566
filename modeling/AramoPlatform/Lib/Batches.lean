import Mathlib.Data.List.Basic
import Mathlib.Tactic.Common

/-!
# Batches from the head of a list

A worker asks for the first items that are due, drops those it has tried before
and tries the rest, until nothing is left of a batch. What it has done is due
no more; what has failed stays due, in its place.
-/

namespace AramoPlatform.Lib

variable {σ α : Type} [DecidableEq α]

/-- The rounds of a worker: the state it ends in and the items in the order in which it
tried them. -/
def workBatches (due : σ → List α) (work : σ → α → σ) (size : ℕ) : ℕ → σ →
    List α → Option (σ × List α)
  | 0, _, _ => none
  | fuel + 1, s, tried =>
    let batch := ((due s).take size).filter fun x => x ∉ tried
    if batch = [] then some (s, tried)
    else workBatches due work size fuel (batch.foldl work s) (tried ++ batch)

/-- What is due once the items of `tried` have been: in its place, all but those done. -/
def stillDue (fails : α → Bool) (all tried : List α) : List α :=
  all.filter fun x => x ∉ tried || fails x

/-- What the work on a due item leaves due, in the states that it keeps to. -/
def WorksOff (P : σ → Prop) (due : σ → List α) (work : σ → α → σ) (fails : α → Bool) : Prop :=
  ∀ s x, P s → x ∈ due s → P (work s x) ∧ due (work s x) = (due s).filter fun y => y ≠ x || fails y

section

variable {P : σ → Prop} {due : σ → List α} {work : σ → α → σ} {fails : α →
  Bool} {size fuel : ℕ} {s t : σ}
  {all tried rest : List α}

theorem stillDue_append (h : (tried ++ rest).Nodup) :
    stillDue fails (tried ++ rest) tried = tried.filter fails ++ rest := by
  unfold stillDue
  rw [List.filter_append]
  congr 1
  · apply List.filter_congr
    intro x hx
    simp [hx]
  · apply List.filter_eq_self.mpr
    intro x hx
    have : x ∉ tried := fun hmem => (List.nodup_append.mp h).2.2 x hmem x hx rfl
    simp [this]

theorem batch_eq (h : (tried ++ rest).Nodup) :
    ((stillDue fails (tried ++ rest) tried).take size).filter (fun x => x ∉ tried) =
      rest.take (size - (tried.filter fails).length) := by
  rw [stillDue_append h, List.take_append, List.filter_append]
  have hfailed : ((tried.filter fails).take size).filter (fun x => x ∉ tried) = [] := by
    apply List.filter_eq_nil_iff.mpr
    intro x hx
    have := List.mem_of_mem_filter (List.mem_of_mem_take hx)
    simp [this]
  have hrest : (rest.take (size - (tried.filter fails).length)).filter (fun x => x ∉ tried) =
      rest.take (size - (tried.filter fails).length) := by
    apply List.filter_eq_self.mpr
    intro x hx
    have : x ∉ tried := fun hmem =>
      (List.nodup_append.mp h).2.2 x hmem x (List.mem_of_mem_take hx) rfl
    simp [this]
  rw [hfailed, hrest, List.nil_append]

theorem due_foldl_work (hwork : WorksOff P due work fails) {batch : List α} (hP : P s)
    (hs : due s = stillDue fails all tried) (hbatch : ∀ x ∈ batch, x ∈ all)
    (hnew : (tried ++ batch).Nodup) :
    P (batch.foldl work s) ∧ due (batch.foldl work s) = stillDue fails all (tried ++ batch) := by
  induction batch generalizing s tried with
  | nil => simpa using ⟨hP, hs⟩
  | cons x batch ih =>
    have hx : x ∉ tried := fun hmem =>
      (List.nodup_append.mp hnew).2.2 x hmem x List.mem_cons_self rfl
    have hdue : x ∈ due s := by
      rw [hs]
      exact List.mem_filter.mpr ⟨hbatch x List.mem_cons_self, by simp [hx]⟩
    obtain ⟨hP', hwork'⟩ := hwork s x hP hdue
    rw [List.append_cons] at hnew ⊢
    rw [List.foldl_cons]
    apply ih hP' _ (fun y hy => hbatch y (List.mem_cons_of_mem _ hy)) hnew
    rw [hwork', hs]
    unfold stillDue
    rw [List.filter_filter]
    apply List.filter_congr
    intro y _
    by_cases hy : y = x <;> simp [hy, hx]

/-! ## A run -/

/-- Fewer items have failed than a batch holds, but for the last one tried. -/
def RoomBeforeLast (fails : α → Bool) (size : ℕ) (tried : List α) : Prop :=
  tried ≠ [] → (tried.dropLast.filter fails).length < size

omit [DecidableEq α] in
theorem roomBeforeLast_append {k : ℕ} (hk : k = size - (tried.filter fails).length)
    (hne : rest.take k ≠ []) : RoomBeforeLast fails size (tried ++ rest.take k) := by
  intro _
  have hpos : 0 < (rest.take k).length := List.length_pos_iff.mpr hne
  have hlen : (rest.take k).length ≤ k := by
    rw [List.length_take]
    exact Nat.min_le_left _ _
  have hfew : ((rest.take k).dropLast.filter fails).length ≤ (rest.take k).length - 1 := by
    have h := List.length_filter_le fails (rest.take k).dropLast
    rwa [List.length_dropLast] at h
  rw [List.dropLast_append_of_ne_nil hne, List.filter_append, List.length_append]
  omega

/-- **A worker ends.** What it has tried stands at the head of what was due, and it stops
when that is all or when the failed ones fill a batch. -/
theorem workBatches_ends
    (hwork : WorksOff P due work fails) (hP : P s)
    (hs : due s = stillDue fails (tried ++ rest) tried) (hnodup : (tried ++ rest).Nodup)
    (hroom : RoomBeforeLast fails size tried) (hfuel : rest.length < fuel) :
    ∃ t done left, workBatches due work size fuel s tried = some (t, done) ∧
      tried ++ rest = done ++ left ∧ (left = [] ∨ size ≤ (done.filter fails).length) ∧
      RoomBeforeLast fails size done := by
  induction fuel generalizing s tried rest with
  | zero => omega
  | succ fuel ih =>
    obtain ⟨k, hk⟩ : ∃ k, k = size - (tried.filter fails).length := ⟨_, rfl⟩
    have hbatch : ((due s).take size).filter (fun x => x ∉ tried) = rest.take k := by
      rw [hs, batch_eq hnodup, hk]
    unfold workBatches
    dsimp only
    rw [hbatch]
    by_cases hempty : rest.take k = []
    · rw [if_pos hempty]
      refine ⟨s, tried, rest, rfl, rfl, ?_, hroom⟩
      rcases List.take_eq_nil_iff.mp hempty with hzero | hnil
      · right
        omega
      · left
        exact hnil
    · rw [if_neg hempty]
      have hsplit : tried ++ rest = tried ++ rest.take k ++ rest.drop k := by
        rw [List.append_assoc, List.take_append_drop]
      rw [hsplit] at hs hnodup ⊢
      obtain ⟨hP', hdue⟩ := due_foldl_work hwork hP hs
        (fun x hx => List.mem_append_left _ (List.mem_append_right _ hx))
        (List.nodup_append.mp hnodup).1
      apply ih hP' hdue hnodup (roomBeforeLast_append hk hempty)
      have hpos : 0 < (rest.take k).length := List.length_pos_iff.mpr hempty
      have hlen := congrArg List.length (List.take_append_drop k rest)
      rw [List.length_append] at hlen
      omega

/-- **It skips nobody exactly when fewer items fail, the last one aside, than a batch holds.** -/
theorem workBatches_all_iff
    (hwork : WorksOff P due work fails) (hP : P s) (hnodup : (due s).Nodup) (hsize : 0 < size)
      (hfuel : (due s).length < fuel) :
    ∃ t done, workBatches due work size fuel s [] = some (t, done) ∧ done.Nodup ∧ done <+: due s ∧
      (done = due s ↔ ((due s).dropLast.filter fails).length < size) := by
  have hstart : due s = stillDue fails ([] ++ due s) [] := by simp [stillDue]
  obtain ⟨t, done, left, hrun, hsplit, hstop, hroom⟩ :=
    workBatches_ends hwork hP hstart hnodup (fun h => absurd rfl h) hfuel
  rw [List.nil_append] at hsplit
  refine ⟨t, done, hrun, ?_, ⟨left, hsplit.symm⟩, ?_⟩
  · rw [hsplit] at hnodup
    exact (List.nodup_append.mp hnodup).1
  · constructor
    · intro hall
      rw [← hall]
      by_cases hnil : done = []
      · simpa [hnil] using hsize
      · exact hroom hnil
    · intro hfew
      rcases hstop with rfl | hfull
      · simpa using hsplit.symm
      · -- the failed ones that fill a batch stand before the last item, if any is left
        by_cases hleft : left = []
        · rw [hsplit, hleft, List.append_nil]
        · rw [hsplit, List.dropLast_append_of_ne_nil hleft, List.filter_append,
            List.length_append] at hfew
          omega

end

end AramoPlatform.Lib
