import AramoPlatform.Intelligence.GoldenRuns
import AramoPlatform.Intelligence.Survivors

/-!
# The identity tables stay in order

A source reference has one active identifier row per key, and a key is bound,
active and verified, on one row at most. The invariant is kept by every
statement under a condition on what it writes, and so by every operation.
-/

namespace AramoPlatform.Intelligence

open Js Lib List

/-- The row is an active identifier that came in through the reference. -/
def SubjectIdentifier.ownedBy (referenceId : Nat) (i : SubjectIdentifier) : Bool :=
  i.sourceReferenceId == some referenceId && i.status == .active

/-- The order of the identifiers. -/
structure IdentifiersInOrder (rows : List SubjectIdentifier) (next : Nat) : Prop where
  keyed : Keyed (·.id) rows next
  sources : ∀ i ∈ rows, ∀ r, i.sourceReferenceId = some r → r < next
  own : ∀ i ∈ rows, ∀ j ∈ rows, ∀ r, i.ownedBy r = true → j.ownedBy r = true → i.key = j.key → i = j
  bound : ∀ i ∈ rows, ∀ j ∈ rows, i.activeVerified = true → j.activeVerified = true →
    i.key = j.key → i = j

/-- The order of the identity tables. -/
structure IdentityInOrder (db : GoldenDb) : Prop where
  subjects : Keyed (·.id) db.subjects db.nextId
  references : Keyed (·.id) db.references db.nextId
  tuples : (db.references.map (·.tuple)).Nodup
  identifiers : IdentifiersInOrder db.identifiers db.nextId

/-! ## Identifiers -/

namespace IdentifiersInOrder

variable {rows : List SubjectIdentifier} {next : Nat}

theorem mono (h : IdentifiersInOrder rows next) {next' : Nat} (hle : next ≤ next') :
    IdentifiersInOrder rows next' :=
  ⟨h.keyed.mono hle, fun i hi r hr => Nat.lt_of_lt_of_le (h.sources i hi r hr) hle, h.own, h.bound⟩

/-- A new row whose key is not yet the reference's and, if it is bound, not yet bound. -/
theorem insert (h : IdentifiersInOrder rows next) {row : SubjectIdentifier} (hid : row.id = next)
    (hsource : ∀ r, row.sourceReferenceId = some r → r < next)
    (hown : ∀ r, row.ownedBy r = true → ∀ j ∈ rows, j.ownedBy r = true → j.key ≠ row.key)
    (hbound : row.activeVerified = true → ∀ j ∈ rows, j.activeVerified = true → j.key ≠ row.key) :
    IdentifiersInOrder (rows ++ [row]) (next + 1) := by
  refine ⟨h.keyed.insert hid, ?_, ?_, ?_⟩
  · intro i hi r hr
    rcases (mem_append.mp hi).imp_right mem_singleton.mp with hi | rfl
    · exact Nat.lt_succ_of_lt (h.sources i hi r hr)
    · exact Nat.lt_succ_of_lt (hsource r hr)
  · intro i hi j hj r hiown hjown hkey
    rcases (mem_append.mp hi).imp_right mem_singleton.mp with hold | rfl
    · rcases (mem_append.mp hj).imp_right mem_singleton.mp with hj | rfl
      · exact h.own i hold j hj r hiown hjown hkey
      · exact absurd hkey (hown r hjown i hold hiown)
    · rcases mem_append.mp hj with hj | hj
      · exact absurd hkey.symm (hown r hiown j hj hjown)
      · exact (mem_singleton.mp hj).symm
  · intro i hi j hj hibound hjbound hkey
    rcases (mem_append.mp hi).imp_right mem_singleton.mp with hold | rfl
    · rcases (mem_append.mp hj).imp_right mem_singleton.mp with hj | rfl
      · exact h.bound i hold j hj hibound hjbound hkey
      · exact absurd hkey (hbound hjbound i hold hibound)
    · rcases mem_append.mp hj with hj | hj
      · exact absurd hkey.symm (hbound hibound j hj hjbound)
      · exact (mem_singleton.mp hj).symm

/-- What an update keeps of a row: it may end its life, not begin it. -/
structure Kept (y x : SubjectIdentifier) : Prop where
  id : x.id = y.id
  key : x.key = y.key
  source : x.sourceReferenceId = y.sourceReferenceId
  status : x.status = .active → y.status = .active

theorem Kept.ownedBy {y x : SubjectIdentifier} (h : Kept y x) {r : Nat}
    (hown : x.ownedBy r = true) : y.ownedBy r = true := by
  simp only [SubjectIdentifier.ownedBy, Bool.and_eq_true, beq_iff_eq] at hown ⊢
  exact ⟨h.source ▸ hown.1, h.status hown.2⟩

variable {f : SubjectIdentifier → SubjectIdentifier}

section

variable (h : IdentifiersInOrder rows next)

include h

/-- An update of rows, where a row that becomes bound is alone with its key. -/
theorem update {p : SubjectIdentifier → Bool}
    (hf : ∀ x, Kept x (f x))
    (hbound : ∀ x ∈ rows, p x = true → (f x).activeVerified = true →
      x.activeVerified = true ∨ ∀ j ∈ rows, j.activeVerified = true → j.key ≠ x.key)
    (hone : ∀ x ∈ rows, ∀ y ∈ rows, p x = true → p y = true → (f x).activeVerified = true →
      (f y).activeVerified = true → x.activeVerified = false → x.key = y.key → x = y) :
    IdentifiersInOrder (updateWhere p f rows) next := by
  -- the row behind a row of the result
  have hof : ∀ x ∈ updateWhere p f rows, ∃ y ∈ rows, Kept y x ∧
      (x = y ∨ p y = true ∧ x = f y) := by
    intro x hx
    rcases of_mem_updateWhere hx with ⟨hmem, -⟩ | ⟨y, hmem, hp, rfl⟩
    · exact ⟨x, hmem, ⟨rfl, rfl, rfl, id⟩, .inl rfl⟩
    · exact ⟨y, hmem, hf y, .inr ⟨hp, rfl⟩⟩
  have heq : ∀ x ∈ updateWhere p f rows, ∀ x' ∈ updateWhere p f rows, ∀ y ∈ rows, Kept y x →
      Kept y x' → x = x' := by
    intro x hx x' hx' y _ hk hk'
    exact inj_on_of_nodup_map (h.keyed.update fun x => (hf x).id).nodup hx hx'
      (hk.id.trans hk'.id.symm)
  refine ⟨h.keyed.update fun x => (hf x).id, ?_, ?_, ?_⟩
  · intro x hx r hr
    obtain ⟨y, hy, hkept, -⟩ := hof x hx
    exact h.sources y hy r (hkept.source ▸ hr)
  · intro x hx x' hx' r hxown hxown' hkey
    obtain ⟨y, hy, hkept, -⟩ := hof x hx
    obtain ⟨y', hy', hkept', -⟩ := hof x' hx'
    have hsame := h.own y hy y' hy' r (hkept.ownedBy hxown) (hkept'.ownedBy hxown')
      (by rw [← hkept.key, ← hkept'.key, hkey])
    exact heq x hx x' hx' y hy hkept (hsame ▸ hkept')
  · intro x hx x' hx' hxbound hxbound' hkey
    obtain ⟨y, hy, hkept, hxy⟩ := hof x hx
    obtain ⟨y', hy', hkept', hxy'⟩ := hof x' hx'
    have hkeys : y.key = y'.key := by rw [← hkept.key, ← hkept'.key, hkey]
    -- a row that was bound before, or became bound alone with its key
    have hbefore : ∀ z ∈ rows, ∀ w, (w = z ∨ p z = true ∧ w = f z) → w.activeVerified = true →
        z.activeVerified = true ∨ p z = true ∧ w = f z ∧ z.activeVerified = false ∧
          ∀ j ∈ rows, j.activeVerified = true → j.key ≠ z.key := by
      intro z hz w hw hwbound
      rcases hw with rfl | ⟨hp, rfl⟩
      · exact .inl hwbound
      · cases hzb : z.activeVerified with
        | true => exact .inl rfl
        | false =>
          rcases hbound z hz hp hwbound with hb | halone
          · rw [hb] at hzb
            cases hzb
          · exact .inr ⟨hp, rfl, rfl, halone⟩
    have hsame : y = y' := by
      rcases hbefore y hy x hxy hxbound with hyb | ⟨hp, hxf, hyb, halone⟩
      · rcases hbefore y' hy' x' hxy' hxbound' with hyb' | ⟨-, -, -, halone'⟩
        · exact h.bound y hy y' hy' hyb hyb' hkeys
        · exact absurd hkeys (halone' y hy hyb)
      · rcases hbefore y' hy' x' hxy' hxbound' with hyb' | ⟨hp', hxf', -, -⟩
        · exact absurd hkeys.symm (halone y' hy' hyb')
        · exact hone y hy y' hy' hp hp' (hxf ▸ hxbound) (hxf' ▸ hxbound') hyb hkeys
    exact heq x hx x' hx' y hy hkept (hsame ▸ hkept')

theorem update_of_kept {p : SubjectIdentifier → Bool}
    (hf : ∀ x, Kept x (f x))
    (hbound : ∀ x, (f x).activeVerified = true → x.activeVerified = true) :
    IdentifiersInOrder (updateWhere p f rows) next := by
  refine h.update hf (fun x _ _ hx => .inl (hbound x hx)) ?_
  intro x _ y _ _ _ hx _ hnot _
  rw [hbound x hx] at hnot
  cases hnot

theorem update_row {row : SubjectIdentifier} (hrow : row ∈ rows)
    (hf : ∀ x, Kept x (f x))
    (hbound : (f row).activeVerified = true → row.activeVerified = true ∨
      ∀ j ∈ rows, j.activeVerified = true → j.key ≠ row.key) :
    IdentifiersInOrder (updateWhere (·.id == row.id) f rows) next := by
  have hthis : ∀ x ∈ rows, (x.id == row.id) = true → x = row := by
    intro x hx hid
    exact inj_on_of_nodup_map h.keyed.nodup hx hrow (eq_of_beq hid)
  refine h.update hf ?_ ?_
  · intro x hx hid hxb
    obtain rfl := hthis x hx hid
    exact hbound hxb
  · intro x hx y hy hxid hyid _ _ _ _
    rw [hthis x hx hxid, hthis y hy hyid]

end

end IdentifiersInOrder

end AramoPlatform.Intelligence
