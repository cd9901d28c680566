import AramoPlatform.Intelligence.IdentityResolution

/-!
# Surviving subjects

How the merge chain of a subject is followed: the survivor follows to itself, a
new subject changes no chain, and an update that leaves the merge columns alone
changes the survivors in place. The anchor matches of some rows are those of
their survivors.
-/

namespace AramoPlatform.Intelligence

open Js Lib List

section Chains

variable {db db' : GoldenDb}

variable {s : GoldenTalent}

theorem mem_of_subject? {id : Nat} (h : db.subject? id = some s) :
    s ∈ db.subjects ∧ s.id = id :=
  ⟨mem_of_find?_eq_some h, by simpa using find?_some h⟩

variable {fuel id : Nat}

theorem followMerges_succ :
    followMerges db (fuel + 1) id = .ok s ↔ ∃ t, db.subject? id = some t ∧
      ((t.resolutionStatus = .merged ∧ ∃ into, t.mergedIntoId = some into ∧
          followMerges db fuel into = .ok s) ∨
        ¬(t.resolutionStatus = .merged ∧ t.mergedIntoId.isSome = true) ∧ t = s) := by
  rw [followMerges, bind_eq_ok]
  refine exists_congr fun t => ?_
  rw [orThrow_eq_ok]
  refine and_congr_right fun _ => ?_
  cases hinto : t.mergedIntoId with
  | none => simp
  | some into =>
    by_cases hmerged : t.resolutionStatus = .merged
    · simp [hmerged]
    · simp [hmerged]

theorem survivor_of_followMerges
    (h : followMerges db fuel id = .ok s) : db.subject? s.id = some s ∧
      ¬(s.resolutionStatus = .merged ∧ s.mergedIntoId.isSome = true) := by
  induction fuel generalizing id with
  | zero => cases h
  | succ fuel ih =>
    obtain ⟨t, ht, ⟨-, into, -, hrest⟩ | ⟨hend, rfl⟩⟩ := followMerges_succ.mp h
    · exact ih hrest
    · rw [(mem_of_subject? ht).2]
      exact ⟨ht, hend⟩

theorem followMerges_survivor {fuel fuel' id : Nat}
    (h : followMerges db fuel id = .ok s) : followMerges db (fuel' + 1) s.id = .ok s := by
  obtain ⟨hfind, hend⟩ := survivor_of_followMerges h
  exact followMerges_succ.mpr ⟨s, hfind, .inr ⟨hend, rfl⟩⟩

theorem followMerges_congr (h : db'.subjects = db.subjects) (fuel id : Nat) :
    followMerges db' fuel id = followMerges db fuel id := by
  induction fuel generalizing id with
  | zero => rfl
  | succ fuel ih => simp only [followMerges, GoldenDb.subject?, h, ih]

theorem followMerges_createSubject {status : ResolutionStatus}
    (h : followMerges db fuel id = .ok s) :
    followMerges (db.createSubject status) fuel id = .ok s := by
  have hfind : ∀ {x : Nat} {t : GoldenTalent}, db.subject? x = some t →
      (db.createSubject status).subject? x = some t := by
    intro x t ht
    show (db.subjects ++ [_]).find? _ = some t
    rw [find?_append, show db.subjects.find? _ = some t from ht]
    rfl
  induction fuel generalizing id with
  | zero => cases h
  | succ fuel ih =>
    obtain ⟨t, ht, hnext⟩ := followMerges_succ.mp h
    refine followMerges_succ.mpr ⟨t, hfind ht, ?_⟩
    rcases hnext with ⟨hmerged, into, hinto, hrest⟩ | hend
    · exact .inl ⟨hmerged, into, hinto, ih hrest⟩
    · exact .inr hend

/-- An update that keeps the id and the merge columns. -/
structure KeepsMerge (f : GoldenTalent → GoldenTalent) : Prop where
  id : ∀ s, (f s).id = s.id
  merged : ∀ s, (f s).resolutionStatus = .merged ↔ s.resolutionStatus = .merged
  into : ∀ s, (f s).mergedIntoId = s.mergedIntoId

theorem followMerges_updateSubject {f : GoldenTalent → GoldenTalent} (hf : KeepsMerge f)
    (target : Nat) (h : followMerges db fuel id = .ok s) :
    followMerges (db.updateSubject target f) fuel id = .ok (if s.id = target then f s else s) := by
  have hfind : ∀ {x : Nat} {t : GoldenTalent}, db.subject? x = some t →
      (db.updateSubject target f).subject? x = some (if t.id = target then f t else t) := by
    intro x t ht
    show (updateWhere _ f db.subjects).find? _ = _
    rw [find?_updateWhere (fun r => by rw [hf.id r]), show db.subjects.find? _ = some t from ht]
    simp [beq_iff_eq]
  induction fuel generalizing id with
  | zero => cases h
  | succ fuel ih =>
    obtain ⟨t, ht, hnext⟩ := followMerges_succ.mp h
    refine followMerges_succ.mpr ⟨_, hfind ht, ?_⟩
    have hmerged : (if t.id = target then f t else t).resolutionStatus = .merged ↔
        t.resolutionStatus = .merged := by
      split
      · exact hf.merged t
      · exact Iff.rfl
    have hinto : (if t.id = target then f t else t).mergedIntoId = t.mergedIntoId := by
      split
      · exact hf.into t
      · rfl
    rw [hmerged, hinto]
    rcases hnext with ⟨hm, into, hi, hrest⟩ | ⟨hend, rfl⟩
    · exact .inl ⟨hm, into, hi, ih hrest⟩
    · exact .inr ⟨hend, rfl⟩

end Chains

/-! ## Anchor matches -/

/-- The match of one bound row. -/
def matchOf (db : GoldenDb) (row : SubjectIdentifier) : Option VerifiedAnchorMatch :=
  match survivingSubject db row.subjectId with
  | .ok s => if s.resolutionStatus = .merged then none else some ⟨row.key, s.id⟩
  | .error _ => none

theorem matchOf_of_survivor {db : GoldenDb} {row : SubjectIdentifier} {s : GoldenTalent}
    (h : survivingSubject db row.subjectId = .ok s) :
    matchOf db row = if s.resolutionStatus = .merged then none else some ⟨row.key, s.id⟩ := by
  unfold matchOf
  rw [h]

theorem anchorMatches_eq_ok {db : GoldenDb} {rows : List SubjectIdentifier}
    {found : List VerifiedAnchorMatch} : anchorMatches db rows = .ok found ↔
      (∀ row ∈ rows, ∃ s, survivingSubject db row.subjectId = .ok s) ∧
        found = rows.filterMap (matchOf db) := by
  induction rows generalizing found with
  | nil => simp [anchorMatches, eq_comm]
  | cons row rest ih =>
    simp only [anchorMatches, bind_eq_ok, Except.ok.injEq, forall_mem_cons]
    constructor
    · rintro ⟨s, hs, others, hothers, rfl⟩
      obtain ⟨hall, rfl⟩ := ih.mp hothers
      refine ⟨⟨⟨s, hs⟩, hall⟩, ?_⟩
      rw [filterMap_cons, matchOf_of_survivor hs]
      split <;> rfl
    · rintro ⟨⟨⟨s, hs⟩, hall⟩, rfl⟩
      refine ⟨s, hs, _, ih.mpr ⟨hall, rfl⟩, ?_⟩
      rw [filterMap_cons, matchOf_of_survivor hs]
      split <;> rfl

end AramoPlatform.Intelligence
