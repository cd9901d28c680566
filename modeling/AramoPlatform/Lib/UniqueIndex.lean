import AramoPlatform.Lib.Rows

/-!
# Partial unique indexes

The key of a partial unique index is an option: a row outside the condition of
the index has none. An insert checks its key against the rows; an update that
takes rows out of the index, or leaves their keys, checks nothing.
-/

namespace AramoPlatform.Lib

variable {α β κ : Type} {key : α → Option κ} {rows : List α}

/-- Two rows with one key are one row. -/
def UniqueIndex (key : α → Option κ) (rows : List α) : Prop :=
  ∀ a ∈ rows, ∀ b ∈ rows, ∀ k, key a = some k → key b = some k → a = b

namespace UniqueIndex

theorem nil : UniqueIndex key [] := by
  intro a ha
  cases ha

section

variable (h : UniqueIndex key rows)

include h

theorem insert {x : α}
    (hx : ∀ a ∈ rows, ∀ k, key x = some k → key a ≠ some k) : UniqueIndex key (rows ++ [x]) := by
  intro a ha b hb k hka hkb
  rcases List.mem_append.mp ha with hold | hnew <;>
    rcases List.mem_append.mp hb with hold' | hnew'
  · exact h a hold b hold' k hka hkb
  · obtain rfl := List.mem_singleton.mp hnew'
    exact absurd hka (hx a hold k hkb)
  · obtain rfl := List.mem_singleton.mp hnew
    exact absurd hkb (hx b hold' k hka)
  · rw [List.mem_singleton.mp hnew, List.mem_singleton.mp hnew']

theorem mono {key' : α → Option κ}
    (hkey : ∀ r ∈ rows, key' r = none ∨ key' r = key r) : UniqueIndex key' rows := by
  have hback : ∀ r ∈ rows, ∀ k, key' r = some k → key r = some k := by
    intro r hr k hk
    rcases hkey r hr with hnone | hsame
    · rw [hnone] at hk
      cases hk
    · exact hsame ▸ hk
  intro a ha b hb k hka hkb
  exact h a ha b hb k (hback a ha k hka) (hback b hb k hkb)

theorem update {p : α → Bool} {f : α → α}
    (hf : ∀ r ∈ rows, p r = true → key (f r) = none ∨ key (f r) = key r) :
    UniqueIndex key (updateWhere p f rows) := by
  -- a row that still has a key had it before
  have hback : ∀ x ∈ updateWhere p f rows, ∀ k, key x = some k →
      ∃ r ∈ rows, key r = some k ∧ (if p r then f r else r) = x := by
    intro x hx k hk
    obtain ⟨r, hr, rfl⟩ := mem_updateWhere.mp hx
    cases hp : p r with
    | false => exact ⟨r, hr, by simpa [hp] using hk, by simp [hp]⟩
    | true =>
      rw [hp, if_pos rfl] at hk
      rcases hf r hr hp with hnone | hsame
      · rw [hnone] at hk
        cases hk
      · exact ⟨r, hr, hsame ▸ hk, by simp [hp]⟩
  intro a ha b hb k hka hkb
  obtain ⟨r, hr, hkr, rfl⟩ := hback a ha k hka
  obtain ⟨s, hs, hks, rfl⟩ := hback b hb k hkb
  rw [h r hr s hs k hkr hks]

/-- One row, updated by its primary key, takes a key that no other row has. -/
theorem update_row [BEq β] [LawfulBEq β] {pk : α → β} {f : α → α} {x : α} (hnd :
    (rows.map pk).Nodup) (hx : x ∈ rows)
    (hf : ∀ b ∈ rows, ∀ k, key (f x) = some k → key b = some k → b = x) :
    UniqueIndex key (updateWhere (fun r => pk r == pk x) f rows) := by
  intro a ha b hb k hka hkb
  rcases (mem_updateWhere_key hnd hx).mp ha with ⟨ha, hne⟩ | rfl <;>
    rcases (mem_updateWhere_key hnd hx).mp hb with ⟨hb, hne'⟩ | rfl
  · exact h a ha b hb k hka hkb
  · obtain rfl := hf a ha k hkb hka
    exact absurd rfl hne
  · obtain rfl := hf b hb k hka hkb
    exact absurd rfl hne'
  · rfl

end

end UniqueIndex

end AramoPlatform.Lib
