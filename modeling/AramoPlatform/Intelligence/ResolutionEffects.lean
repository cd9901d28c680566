import AramoPlatform.Intelligence.RecordedIdentifiers

/-!
# What a resolution leaves in the tables

Resolution taken apart: what the facts of a snapshot say about the tables,
where the subject and the reference end up, and what is recorded under them.
-/

namespace AramoPlatform.Intelligence

open Js Lib List

/-! ## Identifiers of a request -/

theorem dedupeStep_keys (byKey : List ResolutionIdentifier) (id : ResolutionIdentifier) :
    (dedupeStep byKey id).map (·.key) = byKey.map (·.key) ∨
      (dedupeStep byKey id).map (·.key) = byKey.map (·.key) ++ [id.key] ∧
        id.key ∉ byKey.map (·.key) := by
  unfold dedupeStep
  cases hfind : byKey.find? (·.key == id.key) with
  | none =>
    refine .inr ⟨by simp, ?_⟩
    intro hmem
    obtain ⟨x, hx, hkey⟩ := mem_map.mp hmem
    have hnot := find?_eq_none.mp hfind x hx
    rw [hkey, beq_self_eq_true] at hnot
    exact hnot rfl
  | some prior =>
    refine .inl ?_
    dsimp only
    split
    · -- the verified mention has the same key
      simp only [updateWhere, map_map]
      refine map_congr_left fun x _ => ?_
      by_cases hkey : x.key = id.key
      · simp [hkey]
      · simp [hkey]
    · split
      · exact map_updateWhere _ fun _ => rfl
      · rfl

theorem dedupeIdentifiers_nodup (list : List ResolutionIdentifier) :
    ((dedupeIdentifiers list).map (·.key)).Nodup := by
  have hfold : ∀ (rest byKey : List ResolutionIdentifier), (byKey.map (·.key)).Nodup →
      ((rest.foldl dedupeStep byKey).map (·.key)).Nodup := by
    intro rest
    induction rest with
    | nil => exact fun _ h => h
    | cons id rest ih =>
      intro byKey hbyKey
      refine ih _ ?_
      rcases dedupeStep_keys byKey id with hsame | ⟨hmore, hnew⟩
      · rw [hsame]
        exact hbyKey
      · rw [hmore, nodup_append]
        refine ⟨hbyKey, by simp, ?_⟩
        intro k hk k' hk'
        rw [mem_singleton.mp hk']
        exact fun heq => hnew (heq ▸ hk)
  exact hfold list [] nodup_nil

/-! ## Resolution -/

section Resolution

variable {host : Host} {db db' : GoldenDb} {input : ResolutionInput} {facts : ResolutionFacts}

theorem existing_of_gatherFacts (h : gatherFacts db input = .ok facts) :
    facts.request = snapshotOf input ∧
      match facts.existingReference with
      | none => db.referenceByTuple? input.tuple = none
      | some ref => ∃ r s, db.referenceByTuple? input.tuple = some r ∧ r.status = .active ∧
          survivingSubject db r.subjectId = .ok s ∧
          ref = ⟨r.id, s.id, r.lastIdentitySnapshot⟩ := by
  simp only [gatherFacts, bind_eq_ok, Except.ok.injEq] at h
  obtain ⟨existing, hexisting, found, -, rfl⟩ := h
  refine ⟨rfl, ?_⟩
  unfold existingReference at hexisting
  cases href : db.referenceByTuple? input.tuple with
  | none =>
    rw [href] at hexisting
    obtain rfl := Except.ok.inj hexisting
    rfl
  | some r =>
    rw [href] at hexisting
    simp only [bind_eq_ok, require_eq_ok, decide_eq_true_eq, Except.ok.injEq] at hexisting
    obtain ⟨-, hactive, s, hs, rfl⟩ := hexisting
    exact ⟨r, s, rfl, hactive, hs, rfl⟩

/-- The verified keys of a request. -/
def verifiedKeys (input : ResolutionInput) : List IdentifierKey :=
  ((dedupeIdentifiers input.identifiers).filter (·.verified)).map (·.key)

theorem matches_of_gatherFacts (h : gatherFacts db input = .ok facts) :
    (∀ row ∈ db.activeVerified (verifiedKeys input),
      ∃ s, survivingSubject db row.subjectId = .ok s) ∧
      facts.verifiedMatches = (db.activeVerified (verifiedKeys input)).filterMap (matchOf db) := by
  simp only [gatherFacts, bind_eq_ok, Except.ok.injEq] at h
  obtain ⟨existing, -, found, hfound, rfl⟩ := h
  exact anchorMatches_eq_ok.mp hfound

theorem matchOf_eq_some {row : SubjectIdentifier} {m : VerifiedAnchorMatch}
    (h : matchOf db row = some m) : ∃ s, survivingSubject db row.subjectId = .ok s ∧
      m = ⟨row.key, s.id⟩ ∧ s.resolutionStatus ≠ .merged := by
  unfold matchOf at h
  cases hs : survivingSubject db row.subjectId with
  | error e =>
    rw [hs] at h
    cases h
  | ok s =>
    rw [hs] at h
    dsimp only at h
    split at h
    · cases h
    case isFalse hmerged => exact ⟨s, rfl, (Option.some.inj h).symm, hmerged⟩

theorem survivor_of_match (h : gatherFacts db input = .ok facts) {m : VerifiedAnchorMatch}
    (hm : m ∈ facts.verifiedMatches) : ∃ row ∈ db.activeVerified (verifiedKeys input), ∃ s,
      survivingSubject db row.subjectId = .ok s ∧ m = ⟨row.key, s.id⟩ := by
  rw [(matches_of_gatherFacts h).2] at hm
  obtain ⟨row, hrow, hmatch⟩ := mem_filterMap.mp hm
  obtain ⟨s, hs, hm, -⟩ := matchOf_eq_some hmatch
  exact ⟨row, hrow, s, hs, hm⟩

theorem mem_distinctSubjects {found : List VerifiedAnchorMatch} {s : Nat} :
    s ∈ distinctSubjects found ↔ ∃ m ∈ found, m.subjectId = s := by
  simp [distinctSubjects]

theorem survivor_of_decision (h : gatherFacts db input = .ok facts) {subjectId : Nat}
    (hdecision : (decideResolution host facts).subjectId = some subjectId) :
    ∃ x s, survivingSubject db x = .ok s ∧ s.id = subjectId := by
  have hexisting := (existing_of_gatherFacts h).2
  unfold decideResolution at hdecision
  cases href : facts.existingReference with
  | some ref =>
    rw [href] at hexisting hdecision
    obtain ⟨r, s, -, -, hs, rfl⟩ := hexisting
    exact ⟨_, s, hs, Option.some.inj hdecision⟩
  | none =>
    rw [href] at hdecision
    dsimp only at hdecision
    cases hsubjects : distinctSubjects facts.verifiedMatches with
    | nil => simp [hsubjects] at hdecision
    | cons first rest =>
      cases rest with
      | cons _ _ => simp [hsubjects] at hdecision
      | nil =>
        simp only [hsubjects, Option.some.injEq] at hdecision
        have hmem : first ∈ distinctSubjects facts.verifiedMatches := by
          rw [hsubjects]
          exact mem_cons_self
        obtain ⟨m, hm, hsubject⟩ := mem_distinctSubjects.mp hmem
        obtain ⟨row, -, s, hs, rfl⟩ := survivor_of_match h hm
        exact ⟨_, s, hs, hsubject.trans hdecision⟩

end Resolution

/-! ### Where the subject and the reference end up -/

section Placement

variable {host : Host} {db : GoldenDb} (decision : ResolutionDecision)

theorem placeSubject_keepsMerge :
    KeepsMerge fun s : GoldenTalent =>
      { s with
        resolutionStatus :=
          if decision.linkedByVerifiedAnchor && s.resolutionStatus == .provisional then .active
          else s.resolutionStatus
        accessState := .active } := by
  refine ⟨fun _ => rfl, fun s => ?_, fun _ => rfl⟩
  dsimp only
  split
  case isTrue h =>
    simp only [Bool.and_eq_true, beq_iff_eq] at h
    simp [h.2]
  · rfl

theorem survivor_placeSubject {x : Nat} {s : GoldenTalent} (h : survivingSubject db x = .ok s) :
    ∃ s', survivingSubject (placeSubject db decision).2 x = .ok s' ∧ s'.id = s.id ∧
      (s'.resolutionStatus = .merged ↔ s.resolutionStatus = .merged) := by
  unfold placeSubject
  cases decision.subjectId with
  | none => exact ⟨s, followMerges_createSubject h, rfl, Iff.rfl⟩
  | some id =>
    refine ⟨_, followMerges_updateSubject (placeSubject_keepsMerge decision) id h, ?_, ?_⟩
    · split <;> rfl
    · split
      · exact (placeSubject_keepsMerge decision).merged s
      · exact Iff.rfl

section

variable (hkeyed : Keyed (·.id) db.subjects db.nextId)

include hkeyed

theorem survivor_createSubject
    (status : ResolutionStatus) (hstatus : status ≠ .merged) :
    survivingSubject (db.createSubject status) db.nextId = .ok ⟨db.nextId,
      status, .active, none⟩ := by
  refine followMerges_succ.mpr ⟨⟨db.nextId, status, .active, none⟩, ?_, .inr ⟨?_, rfl⟩⟩
  · show (db.subjects ++ [_]).find? _ = _
    have hnone : db.subjects.find? (·.id == db.nextId) = none := by
      refine find?_eq_none.mpr fun s hs => ?_
      have hlt := hkeyed.lt s hs
      simp only [beq_iff_eq]
      omega
    rw [find?_append, hnone]
    simp
  · exact fun h => hstatus h.1

theorem survivor_placed
    (hdecision : ∀ id, decision.subjectId = some id → ∃ x s,
      survivingSubject db x = .ok s ∧ s.id = id) :
    ∃ t, survivingSubject (placeSubject db decision).2 (placeSubject db decision).1 = .ok t ∧
      t.id = (placeSubject db decision).1 ∧ t.accessState = .active := by
  unfold placeSubject
  cases hid : decision.subjectId with
  | none =>
    exact ⟨_, survivor_createSubject hkeyed _ ResolutionStatus.noConfusion, rfl, rfl⟩
  | some id =>
    obtain ⟨x, s, hs, rfl⟩ := hdecision id hid
    have hself : survivingSubject db s.id = .ok s := followMerges_survivor hs
    refine ⟨_, followMerges_updateSubject (placeSubject_keepsMerge decision) s.id hself, ?_, ?_⟩
    · rw [if_pos rfl]
    · rw [if_pos rfl]

theorem subjects_placeSubject :
    Keyed (·.id) (placeSubject db decision).2.subjects (placeSubject db decision).2.nextId := by
  unfold placeSubject
  cases decision.subjectId with
  | none => exact hkeyed.insert rfl
  | some id => exact hkeyed.update (placeSubject_keepsMerge decision).id

end

theorem frame_placeSubject (db : GoldenDb) :
    (placeSubject db decision).2.references = db.references ∧
    (placeSubject db decision).2.identifiers = db.identifiers ∧
    (placeSubject db decision).2.conflicts = db.conflicts ∧
    db.nextId ≤ (placeSubject db decision).2.nextId := by
  unfold placeSubject
  cases decision.subjectId with
  | none => exact ⟨rfl, rfl, rfl, Nat.le_succ _⟩
  | some id => exact ⟨rfl, rfl, rfl, Nat.le_refl _⟩

end Placement

/-- The reference of a snapshot, as it stands in the table. -/
def ReferencePlaced (db : GoldenDb) (input : ResolutionInput)
    (referenceId subjectId : Nat) : Prop :=
  ∃ r, db.referenceByTuple? input.tuple = some r ∧ r.id = referenceId ∧ r.subjectId = subjectId ∧
    r.status = .active ∧ r.lastIdentitySnapshot = snapshotOf input

section PlaceReference

variable {db : GoldenDb} {input : ResolutionInput} (subjectId : Nat)

theorem mem_of_referenceByTuple? {tuple : SourceTuple} {r : ExternalTalentReference}
    (h : db.referenceByTuple? tuple = some r) : r ∈ db.references ∧ r.tuple = tuple :=
  ⟨mem_of_find?_eq_some h, by simpa using find?_some h⟩

theorem tuples_updateReference (db : GoldenDb) (id : Nat)
    {f : ExternalTalentReference → ExternalTalentReference} (hf : ∀ r, (f r).tuple = r.tuple) :
    (db.updateReference id f).references.map (·.tuple) = db.references.map (·.tuple) :=
  map_updateWhere _ hf

theorem referenceByTuple?_updateReference (db : GoldenDb) (id : Nat)
    {f : ExternalTalentReference → ExternalTalentReference} (hf : ∀ r, (f r).tuple = r.tuple)
    (tuple : SourceTuple) : (db.updateReference id f).referenceByTuple? tuple =
      (db.referenceByTuple? tuple).map fun r => if r.id == id then f r else r :=
  find?_updateWhere fun r => by rw [hf r]

/-- The existing reference that a placement is given is the one of the tuple. -/
def ExistingOf (db : GoldenDb) (input : ResolutionInput) : Option ExistingReference → Prop
  | none => db.referenceByTuple? input.tuple = none
  | some ref => ∃ r, db.referenceByTuple? input.tuple = some r ∧ r.status = .active ∧ ref.id = r.id

theorem referencePlaced {existing : Option ExistingReference}
    (hexisting : ExistingOf db input existing) :
    ReferencePlaced (placeReference db existing input subjectId).2 input
      (placeReference db existing input subjectId).1 subjectId := by
  cases existing with
  | none =>
    refine ⟨⟨db.nextId, input.tuple, subjectId, .active, none, snapshotOf input⟩, ?_, rfl, rfl, rfl,
      rfl⟩
    show (db.references ++ [_]).find? _ = _
    rw [find?_append, show db.references.find? _ = none from hexisting]
    simp
  | some ref =>
    obtain ⟨r, hfind, hactive, hid⟩ := hexisting
    refine ⟨{ r with lastIdentitySnapshot := snapshotOf input, subjectId := subjectId }, ?_,
      hid.symm, rfl, hactive, rfl⟩
    refine (referenceByTuple?_updateReference db ref.id ?_ input.tuple).trans ?_
    · exact fun _ => rfl
    · simp [hfind, hid]

theorem references_placeReference (hkeyed : Keyed (·.id) db.references db.nextId)
    (htuples : (db.references.map (·.tuple)).Nodup) {existing : Option ExistingReference}
    (hexisting : ExistingOf db input existing) :
    Keyed (·.id) (placeReference db existing input subjectId).2.references
        (placeReference db existing input subjectId).2.nextId ∧
      ((placeReference db existing input subjectId).2.references.map (·.tuple)).Nodup ∧
      (placeReference db existing input subjectId).1 <
        (placeReference db existing input subjectId).2.nextId := by
  cases existing with
  | none =>
    refine ⟨hkeyed.insert rfl, ?_, Nat.lt_succ_self _⟩
    refine nodup_concat htuples fun r hr => ?_
    have hnone : db.referenceByTuple? input.tuple = none := hexisting
    have hnot := find?_eq_none.mp hnone r hr
    simpa using hnot
  | some ref =>
    obtain ⟨r, hfind, -, hid⟩ := hexisting
    refine ⟨hkeyed.update fun _ => rfl, ?_, ?_⟩
    · have hsame := tuples_updateReference db ref.id (f := fun r =>
        { r with lastIdentitySnapshot := snapshotOf input, subjectId := subjectId }) fun _ => rfl
      exact hsame ▸ htuples
    · show ref.id < db.nextId
      rw [hid]
      exact hkeyed.lt r (mem_of_referenceByTuple? hfind).1

theorem frame_placeReference (db : GoldenDb) (existing : Option ExistingReference)
    (input : ResolutionInput) :
    (placeReference db existing input subjectId).2.subjects = db.subjects ∧
    (placeReference db existing input subjectId).2.identifiers = db.identifiers ∧
    (placeReference db existing input subjectId).2.conflicts = db.conflicts ∧
    db.nextId ≤ (placeReference db existing input subjectId).2.nextId := by
  cases existing with
  | none => exact ⟨rfl, rfl, rfl, Nat.le_succ _⟩
  | some ref => exact ⟨rfl, rfl, rfl, Nat.le_refl _⟩

end PlaceReference

/-! ### The whole resolution -/

section Apply

variable {host : Host} {db : GoldenDb} {input : ResolutionInput} {facts : ResolutionFacts}

theorem openConflicts_frame (db : GoldenDb) (subjectId : Nat) (planned : List PlannedConflict) :
    (openConflicts db subjectId planned).2.subjects = db.subjects ∧
    (openConflicts db subjectId planned).2.references = db.references ∧
    (openConflicts db subjectId planned).2.identifiers = db.identifiers ∧
    db.nextId ≤ (openConflicts db subjectId planned).2.nextId := by
  unfold openConflicts
  dsimp only
  generalize planned.filter _ = fresh
  induction fresh generalizing db with
  | nil => exact ⟨rfl, rfl, rfl, Nat.le_refl _⟩
  | cons c rest ih =>
    obtain ⟨hs, hr, hi, hn⟩ := ih (db.createConflict subjectId c.conflictType c.relatedSubjectIds
      c.signature)
    exact ⟨hs, hr, hi, Nat.le_trans (Nat.le_succ _) hn⟩

theorem existingOf_gatherFacts (h : gatherFacts db input = .ok facts) :
    ExistingOf db input facts.existingReference := by
  have hexisting := (existing_of_gatherFacts h).2
  cases href : facts.existingReference with
  | none =>
    rw [href] at hexisting
    exact hexisting
  | some ref =>
    rw [href] at hexisting
    obtain ⟨r, s, hfind, hactive, -, rfl⟩ := hexisting
    exact ⟨r, hfind, hactive, rfl⟩

/-- The subject and the reference of a snapshot are in place; the identifiers are
still those of the start. -/
structure Placed (db : GoldenDb) (input : ResolutionInput) (subjectId referenceId : Nat)
    (db' : GoldenDb) : Prop where
  subjects : Keyed (·.id) db'.subjects db'.nextId
  references : Keyed (·.id) db'.references db'.nextId
  tuples : (db'.references.map (·.tuple)).Nodup
  placed : ReferencePlaced db' input referenceId subjectId
  survives : ∃ t, survivingSubject db' subjectId = .ok t ∧ t.id = subjectId ∧
    t.accessState = .active
  survivors : ∀ x s, survivingSubject db x = .ok s → ∃ s', survivingSubject db' x = .ok s' ∧
    s'.id = s.id ∧ (s'.resolutionStatus = .merged ↔ s.resolutionStatus = .merged)
  reference : referenceId < db'.nextId
  next : db.nextId ≤ db'.nextId

theorem Placed.frame {subjectId referenceId : Nat} {db₁ db₂ : GoldenDb}
    (h : Placed db input subjectId referenceId db₁) (hs : db₂.subjects = db₁.subjects)
    (hr : db₂.references = db₁.references) (hn : db₁.nextId ≤ db₂.nextId) :
    Placed db input subjectId referenceId db₂ := by
  refine ⟨?_, ?_, ?_, ?_, ?_, ?_, Nat.lt_of_lt_of_le h.reference hn, Nat.le_trans h.next hn⟩
  · rw [hs]
    exact h.subjects.mono hn
  · rw [hr]
    exact h.references.mono hn
  · rw [hr]
    exact h.tuples
  · have hplaced := h.placed
    unfold ReferencePlaced GoldenDb.referenceByTuple? at *
    rw [hr]
    exact hplaced
  · have hsurvives := h.survives
    unfold survivingSubject at *
    rw [followMerges_congr hs]
    exact hsurvives
  · intro x s hx
    have hsurvivors := h.survivors x s hx
    unfold survivingSubject at *
    rw [followMerges_congr hs]
    exact hsurvivors

theorem placed_spec (horder : IdentityInOrder db) {decision : ResolutionDecision}
    (hdecision : ∀ id, decision.subjectId = some id → ∃ x s,
      survivingSubject db x = .ok s ∧ s.id = id)
    {existing : Option ExistingReference} (hexisting : ExistingOf db input existing) :
    Placed db input (placeSubject db decision).1
      (placeReference (placeSubject db decision).2 existing input (placeSubject db decision).1).1
      (placeReference (placeSubject db decision).2 existing input
        (placeSubject db decision).1).2 := by
  have hsubjects := subjects_placeSubject decision horder.subjects
  have hsurvives := survivor_placed decision horder.subjects hdecision
  obtain ⟨hr, -, -, hn⟩ := frame_placeSubject decision db
  have hexisting' : ExistingOf (placeSubject db decision).2 input existing := by
    unfold ExistingOf GoldenDb.referenceByTuple? at *
    rw [hr]
    exact hexisting
  have hkeyed : Keyed (·.id) (placeSubject db decision).2.references
      (placeSubject db decision).2.nextId := by
    rw [hr]
    exact horder.references.mono hn
  obtain ⟨hreferences, htuples, hlt⟩ :=
    references_placeReference (placeSubject db decision).1 hkeyed
    (by rw [hr]; exact horder.tuples) hexisting'
  obtain ⟨hs, -, -, hn'⟩ := frame_placeReference (placeSubject db decision).1
    (placeSubject db decision).2 existing input
  refine ⟨?_, hreferences, htuples, referencePlaced _ hexisting', ?_, ?_, hlt, Nat.le_trans hn hn'⟩
  · rw [hs]
    exact hsubjects.mono hn'
  · unfold survivingSubject at *
    rw [followMerges_congr hs]
    exact hsurvives
  · intro x s hx
    have hsurvivor := survivor_placeSubject decision hx
    unfold survivingSubject at *
    rw [followMerges_congr hs]
    exact hsurvivor

/-- What a resolution leaves in the tables. -/
structure ResolvedTables (db : GoldenDb) (input : ResolutionInput) (subjectId referenceId : Nat)
    (db' : GoldenDb) : Prop where
  placed : Placed db input subjectId referenceId db'
  /-- The identifiers are recorded over those of the start. -/
  recorded : ∃ mid : GoldenDb, mid.identifiers = db.identifiers ∧
    Recorded mid subjectId referenceId (dedupeIdentifiers input.identifiers) db'

theorem applyDecision_spec (host : Host) (horder : IdentityInOrder db) (h :
    gatherFacts db input = .ok facts)
    (now : Nat) : ResolvedTables db input (applyDecision host db input now facts).1.subjectId
      (applyDecision host db input now facts).1.referenceId
      (applyDecision host db input now facts).2 := by
  have hdecision : ∀ id, (decideResolution host facts).subjectId = some id →
      ∃ x s, survivingSubject db x = .ok s ∧ s.id = id := fun _ hid => survivor_of_decision h hid
  have hplaced := placed_spec horder hdecision (existingOf_gatherFacts h)
  unfold applyDecision
  dsimp only
  generalize decideResolution host facts = decision at hplaced ⊢
  obtain ⟨-, hi₁, -, -⟩ := frame_placeSubject decision db
  generalize placeSubject db decision = subject at hplaced hi₁ ⊢
  obtain ⟨-, hi₂, -, -⟩ := frame_placeReference subject.1 subject.2 facts.existingReference input
  generalize placeReference subject.2 facts.existingReference input subject.1 = reference
    at hplaced hi₂ ⊢
  obtain ⟨hs₃, hr₃, hi₃, hn₃⟩ := openConflicts_frame reference.2 subject.1 decision.conflicts
  generalize openConflicts reference.2 subject.1 decision.conflicts = conflicts
    at hs₃ hr₃ hi₃ hn₃ ⊢
  have hopened := hplaced.frame hs₃ hr₃ hn₃
  have hidentifiers : conflicts.2.identifiers = db.identifiers := hi₃.trans (hi₂.trans hi₁)
  have hrecorded := recordIdentifiers_spec now subject.1
    (by rw [hidentifiers]; exact horder.identifiers.mono hopened.next) hopened.reference
    (dedupeIdentifiers_nodup input.identifiers)
  refine ⟨hopened.frame ?_ ?_ hrecorded.frame.next, conflicts.2, hidentifiers, hrecorded⟩
  · rw [hrecorded.frame.rest]
  · rw [hrecorded.frame.rest]

theorem ResolvedTables.inOrder {subjectId referenceId : Nat} {db' : GoldenDb}
    (h : ResolvedTables db input subjectId referenceId db') : IdentityInOrder db' := by
  obtain ⟨_, -, hrecorded⟩ := h.recorded
  exact ⟨h.placed.subjects, h.placed.references, h.placed.tuples, hrecorded.order⟩

end Apply

end AramoPlatform.Intelligence
