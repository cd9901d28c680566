import AramoPlatform.Lib.Rows

/-!
# Rows under a unique key

Finding a row by its key, and `INSERT … ON CONFLICT (key) DO UPDATE`. After an
upsert its row is found under its key and every other key shows what it showed
before.
-/

namespace AramoPlatform.Lib

variable {α κ : Type} [DecidableEq κ] {key : α → κ} {rows rs : List α} {r x : α} {k : κ}

def findKey (key : α → κ) (k : κ) (rows : List α) : Option α := rows.find? fun x => key x = k

/-- The row takes the place of the one with its key, or is added. -/
def upsert (key : α → κ) (rows : List α) (r : α) : List α :=
  if rows.any fun x => key x = key r then updateWhere (fun x => key x = key r) (fun _ => r) rows
  else rows ++ [r]

theorem findKey_key (h : findKey key k rows = some x) : key x = k := by
  have := List.find?_some h
  simpa using this

theorem mem_of_findKey (h : findKey key k rows = some x) : x ∈ rows := List.mem_of_find?_eq_some h

theorem findKey_eq_none : findKey key k rows = none ↔ ∀ x ∈ rows, key x ≠ k := by
  simp [findKey]

theorem findKey_append_singleton (hne : findKey key (key r) rows = none) :
    findKey key k (rows ++ [r]) = if key r = k then some r else findKey key k rows := by
  rw [findKey, List.find?_append]
  by_cases hk : key r = k
  · subst hk
    have hnone : rows.find? (fun x => decide (key x = key r)) = none := hne
    rw [hnone, if_pos rfl]
    simp
  · rw [if_neg hk]
    simp [findKey, hk]

theorem findKey_updateWhere {f : α → α} {k' : κ} (hf : ∀ x, key x = k' → key (f x) = k') :
    findKey key k (updateWhere (fun x => key x = k') f rows) =
      if k' = k then (findKey key k rows).map f else findKey key k rows := by
  induction rows with
  | nil => split <;> rfl
  | cons a rest ih =>
    rw [updateWhere_cons]
    rw [findKey] at ih ⊢
    by_cases ha : key a = k'
    · simp only [ha, decide_true, if_true, List.find?_cons, hf a ha, ih, findKey]
      by_cases hk : k' = k
      · simp only [hk, decide_true, if_true, Option.map_some]
      · simp only [hk, decide_false, if_false]
    · simp only [ha, decide_false, Bool.false_eq_true, if_false, List.find?_cons, ih, findKey]
      by_cases hk : k' = k
      · have hak : ¬ key a = k := fun heq => ha (heq.trans hk.symm)
        simp only [hk, hak, decide_false, if_true]
      · simp only [hk, if_false]

theorem findKey_upsert :
    findKey key k (upsert key rows r) = if key r = k then some r else findKey key k rows := by
  rw [upsert]
  split
  next hany =>
    rw [findKey_updateWhere fun _ _ => rfl]
    by_cases hk : key r = k
    · rw [if_pos hk, if_pos hk]
      obtain ⟨x, hx, hxk⟩ := List.any_eq_true.mp hany
      cases hfind : findKey key k rows with
      | none =>
        exact absurd ((by simpa using hxk : key x = key r).trans hk)
          (findKey_eq_none.mp hfind x hx)
      | some y => rfl
    · rw [if_neg hk, if_neg hk]
  next hany =>
    refine findKey_append_singleton (findKey_eq_none.mpr fun x hx heq => hany ?_)
    exact List.any_eq_true.mpr ⟨x, hx, by simpa using heq⟩

theorem mem_upsert (h : x ∈ upsert key rows r) : x = r ∨ x ∈ rows := by
  rw [upsert] at h
  split at h
  · rcases of_mem_updateWhere h with ⟨hx, -⟩ | ⟨y, -, -, rfl⟩
    · exact .inr hx
    · exact .inl rfl
  · rcases List.mem_append.mp h with hx | hx
    · exact .inr hx
    · exact .inl (List.mem_singleton.mp hx)

theorem mem_foldl_upsert (h : x ∈ rs.foldl (upsert key) rows) : x ∈ rs ∨ x ∈ rows := by
  induction rs generalizing rows with
  | nil => exact .inr h
  | cons r rest ih =>
    rcases ih h with h | h
    · exact .inl (List.mem_cons_of_mem _ h)
    · rcases mem_upsert h with rfl | h
      · exact .inl List.mem_cons_self
      · exact .inr h

theorem findKey_foldl_upsert_of_ne (h : ∀ r ∈ rs, key r ≠ k) :
    findKey key k (rs.foldl (upsert key) rows) = findKey key k rows := by
  induction rs generalizing rows with
  | nil => rfl
  | cons r rest ih =>
    rw [List.foldl_cons, ih fun x hx => h x (List.mem_cons_of_mem _ hx), findKey_upsert,
      if_neg (h r List.mem_cons_self)]

/-- Where a key names one of the rows, each of them is found after they were upserted. -/
theorem findKey_foldl_upsert (hinj : ∀ a ∈ rs, ∀ b ∈ rs, key a = key b → a = b) (hr : r ∈ rs) :
    findKey key (key r) (rs.foldl (upsert key) rows) = some r := by
  induction rs generalizing rows with
  | nil => cases hr
  | cons a rest ih =>
    have hrest : ∀ x ∈ rest, ∀ y ∈ rest, key x = key y → x = y := fun x hx y hy =>
      hinj x (List.mem_cons_of_mem _ hx) y (List.mem_cons_of_mem _ hy)
    rw [List.foldl_cons]
    by_cases hmem : r ∈ rest
    · exact ih hrest hmem
    · obtain rfl : r = a := (List.mem_cons.mp hr).resolve_right hmem
      rw [findKey_foldl_upsert_of_ne, findKey_upsert, if_pos rfl]
      intro x hx heq
      exact hmem (hinj x (List.mem_cons_of_mem _ hx) r List.mem_cons_self heq ▸ hx)

theorem mem_foldl_upsert_self (hinj : ∀ a ∈ rs, ∀ b ∈ rs, key a = key b → a = b) (hr : r ∈ rs) :
    r ∈ rs.foldl (upsert key) rows :=
  mem_of_findKey (findKey_foldl_upsert hinj hr)

theorem upsert_upsert : upsert key (upsert key rows r) r = upsert key rows r := by
  have hall : ∀ x ∈ upsert key rows r, key x = key r → x = r := by
    intro x hx hk
    rw [upsert] at hx
    split at hx
    · rcases of_mem_updateWhere hx with ⟨-, hne⟩ | ⟨y, -, -, rfl⟩
      · exact absurd hk (by simpa using hne)
      · rfl
    next hany =>
      rcases List.mem_append.mp hx with hx | hx
      · exact absurd (List.any_eq_true.mpr ⟨x, hx, by simpa using hk⟩) hany
      · exact List.mem_singleton.mp hx
  have hfound : findKey key (key r) (upsert key rows r) = some r := by
    rw [findKey_upsert, if_pos rfl]
  have hany : ((upsert key rows r).any fun x => key x = key r) = true :=
    List.any_eq_true.mpr ⟨r, mem_of_findKey hfound, by simp⟩
  rw [upsert, if_pos hany]
  exact updateWhere_eq_self fun x hx hk => (hall x hx (by simpa using hk)).symm

end AramoPlatform.Lib
