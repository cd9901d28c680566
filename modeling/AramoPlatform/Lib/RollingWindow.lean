import Mathlib.Data.List.Count
import Mathlib.Order.Bounds.Basic

/-!
# Limits in a rolling window

Times recorded one after the other, each only where fewer than a limit of those
before it lay in a window. The window may be taken back from a time that was
read earlier: then it holds at least the times it should. No window ever holds
more than the limit, and after a refusal the next admission is told by one time
of the window.
-/

namespace AramoPlatform.Lib

namespace RollingWindow

/-- How many of the times lie in `(x - window, x]`. -/
def held (window x : Nat) (times : List Nat) : Nat :=
  times.countP fun a => decide (x < a + window) && decide (a ≤ x)

/-- The times after `x - window`. -/
def recent (window x : Nat) (times : List Nat) : List Nat :=
  times.filter fun a => decide (x < a + window)

theorem held_le_length_recent {window x y : Nat} (h : y ≤ x) (times : List Nat) :
    held window x times ≤ (recent window y times).length := by
  rw [held, recent, ← List.countP_eq_length_filter]
  refine List.countP_mono_left fun a _ ha => ?_
  simp only [Bool.and_eq_true, decide_eq_true_eq] at ha ⊢
  omega

/-- **A time recorded under the limit breaks no window**: `read` is the time the
window was taken back from. -/
theorem held_snoc_le {window limit read time : Nat} {times : List Nat}
    (h : ∀ x, held window x times ≤ limit) (hread : read ≤ time)
    (hlimit : (recent window read times).length < limit) (x : Nat) :
    held window x (times ++ [time]) ≤ limit := by
  rw [held, List.countP_append, List.countP_singleton]
  by_cases hx : time ≤ x
  · have hle : held window x times ≤ (recent window read times).length :=
      held_le_length_recent (Nat.le_trans hread hx) times
    rw [held] at hle
    split <;> omega
  · have hold := h x
    rw [held] at hold
    simp [hx, hold]

/-- **The time that tells when the window admits one more**: with times in
ascending order, the one at `limit` from the end of what is recent. -/
theorem length_recent_lt_iff {window limit read : Nat} {times : List Nat}
    (hsorted : times.Pairwise (· ≤ ·)) (hfull : limit ≤ (recent window read times).length)
    {pivot : Nat} (x : Nat)
    (hpivot : (recent window read times)[(recent window read times).length - limit]? = some pivot) :
    (recent window x times).length < limit ↔ pivot + window ≤ x := by
  -- the pivot, with those before and those after it
  obtain ⟨older, newer, hsplit, hnewer⟩ : ∃ older newer,
      recent window read times = older ++ pivot :: newer ∧ newer.length + 1 = limit := by
    obtain ⟨hlt, hget⟩ := List.getElem?_eq_some_iff.mp hpivot
    refine ⟨(recent window read times).take ((recent window read times).length - limit),
      (recent window read times).drop ((recent window read times).length - limit + 1), ?_, ?_⟩
    · rw [← hget, List.getElem_cons_drop, List.take_append_drop]
    · rw [List.length_drop]
      omega
  have hrecent : (older ++ pivot :: newer).Sublist times := hsplit ▸ List.filter_sublist
  obtain ⟨-, hafter, hbefore⟩ := List.pairwise_append.mp (hsorted.sublist hrecent)
  have hlate : read < pivot + window := by
    have hmem : pivot ∈ recent window read times := by simp [hsplit]
    simpa [recent] using (List.mem_filter.mp hmem).2
  constructor
  · intro hfew
    by_contra hearly
    -- the pivot and those after it are still in the window
    have hall : recent window x (pivot :: newer) = pivot :: newer := by
      refine List.filter_eq_self.mpr fun a ha => ?_
      have hle : pivot ≤ a := by
        rcases List.mem_cons.mp ha with rfl | ha
        · exact Nat.le_refl _
        · exact (List.pairwise_cons.mp hafter).1 a ha
      simp only [decide_eq_true_eq]
      omega
    have hsub : (pivot :: newer).Sublist (recent window x times) :=
      hall ▸ ((List.sublist_append_right older _).trans hrecent).filter _
    have hlen := hsub.length_le
    rw [List.length_cons] at hlen
    omega
  · intro hage
    -- the pivot and those before it have left the window
    have hgone : recent window x (older ++ [pivot]) = [] := by
      refine List.filter_eq_nil_iff.mpr fun a ha => ?_
      have hle : a ≤ pivot := by
        rcases List.mem_append.mp ha with ha | ha
        · exact hbefore a ha pivot List.mem_cons_self
        · rw [List.mem_singleton.mp ha]
      simp only [decide_eq_true_eq]
      omega
    have hall : recent window x times = recent window x (older ++ [pivot] ++ newer) := by
      rw [List.append_assoc, List.singleton_append, ← hsplit, recent, recent, recent,
        List.filter_filter]
      refine List.filter_congr fun a _ => ?_
      by_cases ha : x < a + window
      · have hread : read < a + window := by omega
        simp [ha, hread]
      · simp [ha]
    rw [hall, recent, List.filter_append]
    rw [recent] at hgone
    rw [hgone, List.nil_append]
    have hle := List.length_filter_le (fun a => decide (x < a + window)) newer
    omega

end RollingWindow

end AramoPlatform.Lib
