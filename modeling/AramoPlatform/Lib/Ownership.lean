import AramoPlatform.Lib.Rows

/-!
# Rows that belong to owners

A table whose rows have a key and an owner that may be changed. Rows are given
to another owner by their keys (`repoint`); everything that some owners have is
gathered under one (`gather`). Giving an owner's rows away gathers them, and
giving them back by the same keys takes that owner out of the gathering again,
whatever else was gathered in between.
-/

namespace AramoPlatform.Lib

variable {α : Type}

/-- How a row carries its key and its owner. -/
structure Owned (α : Type) where
  key : α → Nat
  owner : α → Nat
  give : Nat → α → α
  key_give : ∀ s a, key (give s a) = key a
  owner_give : ∀ s a, owner (give s a) = s
  give_give : ∀ s t a, give s (give t a) = give s a
  give_owner : ∀ a, give (owner a) a = a

namespace Owned

variable (T : Owned α) {rows : List α} {into c : Nat} {M N : List Nat}

/-- The rows of an owner. -/
def rowsAt (c : Nat) (rows : List α) : List α := rows.filter (T.owner · == c)

/-- `UPDATE … SET owner WHERE key IN ids`. -/
def repoint (ids : List Nat) (s : Nat) (rows : List α) : List α :=
  updateWhere (fun r => ids.contains (T.key r)) (T.give s) rows

/-- Everything of the owners in `M` is at `into`. -/
def gather (into : Nat) (M : List Nat) (rows : List α) : List α :=
  updateWhere (fun r => M.contains (T.owner r)) (T.give into) rows

@[simp] theorem mem_rowsAt {r : α} : r ∈ T.rowsAt c rows ↔ r ∈ rows ∧ T.owner r = c := by
  simp [rowsAt]

@[simp] theorem gather_nil : T.gather into [] rows = rows :=
  updateWhere_of_forall_not fun _ _ => rfl

theorem gather_congr (h : ∀ c, c ∈ M ↔ c ∈ N) : T.gather into M rows = T.gather into N rows := by
  refine updateWhere_congr fun r _ => ?_
  rw [Bool.eq_iff_iff, List.contains_iff_mem, List.contains_iff_mem]
  exact h _

theorem gather_gather : T.gather into M (T.gather into N rows) = T.gather into (M ++ N) rows := by
  simp only [gather, updateWhere, List.map_map]
  refine List.map_congr_left fun r _ => ?_
  simp only [Function.comp_apply, List.contains_eq_mem, List.mem_append, Bool.decide_or]
  by_cases hN : T.owner r ∈ N
  · simp [hN, T.give_give]
  · simp [hN]

theorem rowsAt_gather (hM : c ∉ M) (hc : c ≠ into) :
    T.rowsAt c (T.gather into M rows) = T.rowsAt c rows := by
  refine filter_updateWhere fun r _ hr => ?_
  rw [List.contains_iff_mem] at hr
  refine ⟨?_, ?_⟩
  · have hne : T.owner r ≠ c := fun h => hM (h ▸ hr)
    simpa using hne
  · rw [T.owner_give]
    simpa using hc.symm

/-- Ids that name exactly the rows of an owner. -/
def Names (ids : List Nat) (c : Nat) (rows : List α) : Prop :=
  ∀ r ∈ rows, ids.contains (T.key r) = true ↔ T.owner r = c

theorem names_rowsAt (hkeys : (rows.map T.key).Nodup) :
    T.Names ((T.rowsAt c rows).map T.key) c rows := by
  intro r hr
  rw [List.contains_iff_mem, List.mem_map]
  constructor
  · rintro ⟨x, hx, hkey⟩
    obtain ⟨hx, howner⟩ := (T.mem_rowsAt).mp hx
    rwa [← List.inj_on_of_nodup_map hkeys hx hr hkey]
  · intro howner
    exact ⟨r, (T.mem_rowsAt).mpr ⟨hr, howner⟩, rfl⟩

theorem repoint_eq_gather {ids : List Nat} (hids : T.Names ids c rows) :
    T.repoint ids into rows = T.gather into [c] rows := by
  refine updateWhere_congr fun r hr => ?_
  rw [Bool.eq_iff_iff, hids r hr, List.contains_iff_mem, List.mem_singleton]

theorem Names.gather {ids : List Nat} (hids : T.Names ids c rows) (hM : c ∉ M) (hc : c ≠ into) :
    T.Names ids c (T.gather into M rows) := by
  intro r hr
  rcases of_mem_updateWhere hr with ⟨hmem, -⟩ | ⟨y, hmem, hy, rfl⟩
  · exact hids r hmem
  · rw [T.key_give, T.owner_give, hids y hmem]
    rw [List.contains_iff_mem] at hy
    exact ⟨fun h => absurd (h ▸ hy) hM, fun h => absurd h.symm hc⟩

theorem repoint_congr {ids ids' : List Nat} (h : ∀ id, id ∈ ids ↔ id ∈ ids') :
    T.repoint ids into rows = T.repoint ids' into rows := by
  refine updateWhere_congr fun r _ => ?_
  rw [Bool.eq_iff_iff, List.contains_iff_mem, List.contains_iff_mem]
  exact h _

theorem mem_keys_gathered (hM : c ∈ M) {id : Nat} (h : id ∈ (T.rowsAt c rows).map T.key) :
    id ∈ (T.rowsAt into (T.gather into M rows)).map T.key := by
  obtain ⟨r, hr, rfl⟩ := List.mem_map.mp h
  obtain ⟨hmem, howner⟩ := T.mem_rowsAt.mp hr
  refine List.mem_map.mpr ⟨T.give into r,
    T.mem_rowsAt.mpr ⟨?_, T.owner_give into r⟩, T.key_give _ _⟩
  refine mem_updateWhere_of_pos hmem ?_
  rw [howner, List.contains_iff_mem]
  exact hM

theorem exists_of_mem_gather {r : α} (h : r ∈ T.gather into M rows) :
    ∃ y ∈ rows, r = T.give (T.owner r) y := by
  rcases of_mem_updateWhere h with ⟨hmem, -⟩ | ⟨y, hmem, -, rfl⟩
  · exact ⟨r, hmem, (T.give_owner r).symm⟩
  · exact ⟨y, hmem, by rw [T.owner_give]⟩

theorem repoint_gather {ids : List Nat} (hids : T.Names ids c rows) (hM : c ∉ M) :
    T.repoint ids c (T.gather into (c :: M) rows) = T.gather into M rows := by
  simp only [repoint, gather, updateWhere, List.map_map]
  refine List.map_congr_left fun r hr => ?_
  simp only [Function.comp_apply, List.contains_eq_mem, List.mem_cons]
  have hnames := hids r hr
  rw [List.contains_eq_mem, decide_eq_true_eq] at hnames
  by_cases howner : T.owner r = c
  · -- the owner's row went over and comes back
    have hback : T.give c r = r := by
      rw [← howner]
      exact T.give_owner r
    simp [howner, hM, T.key_give, hnames.mpr howner, T.give_give, hback]
  · have hkey : T.key r ∉ ids := fun h => howner (hnames.mp h)
    by_cases hmem : T.owner r ∈ M
    · simp [hmem, T.key_give, hkey]
    · simp [howner, hmem, hkey]

theorem rowsAt_repoint {ids : List Nat} {s : Nat}
    (hids : ∀ r ∈ rows, ids.contains (T.key r) = true → T.owner r ≠ c) (hs : s ≠ c) :
    T.rowsAt c (T.repoint ids s rows) = T.rowsAt c rows := by
  refine filter_updateWhere fun r hr hkey => ⟨beq_eq_false_iff_ne.mpr (hids r hr hkey), ?_⟩
  rw [T.owner_give]
  exact beq_eq_false_iff_ne.mpr hs

theorem forall₂_repoint (ids : List Nat) (s : Nat) :
    List.Forall₂ (fun y x => x = T.give (T.owner x) y) rows (T.repoint ids s rows) := by
  refine forall₂_updateWhere ?_ ?_
  · exact fun r _ _ => (T.give_owner r).symm
  · intro r _ _
    rw [T.owner_give]

end Owned

end AramoPlatform.Lib
