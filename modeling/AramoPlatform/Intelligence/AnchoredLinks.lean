import AramoPlatform.Intelligence.Resend
import AramoPlatform.Intelligence.TransactionLocks

/-!
# Only verified anchors link sources

While no subject is merged or split, a reference keeps the subject that it was
first given, and it was given one that existed before only through an
identifier that its snapshot vouched for and that was bound there. So of two
references on one subject, the later one came in through a verified anchor.
-/

namespace AramoPlatform.Intelligence

open Js Lib List

/-- A step that is neither a merge nor a split. -/
abbrev PlainStep (env : GoldenEnv) : GoldenDb → GoldenOp → GoldenDb → Prop :=
  Guarded (GoldenStep env) fun _ op => op.keepsSubjects = true

/-- Nothing was merged, and every reference has its subject. -/
structure Unmerged (db : GoldenDb) : Prop where
  order : IdentityInOrder db
  live : ∀ s ∈ db.subjects, s.resolutionStatus ≠ .merged
  owned : ∀ r ∈ db.references, ∃ s ∈ db.subjects, s.id = r.subjectId

/-- A reference that keeps its id, its tuple and its subject. -/
def SameReference (r r' : ExternalTalentReference) : Prop :=
  r'.id = r.id ∧ r'.tuple = r.tuple ∧ r'.subjectId = r.subjectId

def KeepsReferences (db db' : GoldenDb) : Prop :=
  ∀ r ∈ db.references, ∃ r' ∈ db'.references, SameReference r r'

/-- No reference of the database has the id. -/
def NewReference (db : GoldenDb) (r : ExternalTalentReference) : Prop :=
  ∀ r₀ ∈ db.references, r₀.id ≠ r.id

/-- The snapshot of the reference vouches for an identifier that is bound on its
subject, and for none that is bound on another. -/
structure Anchored (db : GoldenDb) (r : ExternalTalentReference) : Prop where
  bound : ∃ k ∈ r.lastIdentitySnapshot.verified, ∃ i ∈ db.identifiers,
    i.activeVerified = true ∧ i.key = k ∧ i.subjectId = r.subjectId
  only : ∀ k ∈ r.lastIdentitySnapshot.verified, ∀ i ∈ db.identifiers,
    i.activeVerified = true → i.key = k → i.subjectId = r.subjectId

/-- What one step does to the references. -/
structure ReferenceStep (db db' : GoldenDb) : Prop where
  keeps : KeepsReferences db db'
  anchored : ∀ r ∈ db'.references, NewReference db r →
    (∃ s ∈ db.subjects, s.id = r.subjectId) → Anchored db r
  one : ∀ r ∈ db'.references, ∀ r' ∈ db'.references, NewReference db r → NewReference db r' → r = r'
  owned : ∀ r ∈ db'.references, ∃ s ∈ db'.subjects, s.id = r.subjectId
  live : ∀ s ∈ db'.subjects, s.resolutionStatus ≠ .merged

theorem SameReference.refl (r : ExternalTalentReference) : SameReference r r := ⟨rfl, rfl, rfl⟩

theorem KeepsReferences.trans {a b c : GoldenDb} (h : KeepsReferences a b)
    (h' : KeepsReferences b c) : KeepsReferences a c := by
  intro r hr
  obtain ⟨r', hr', hid, htuple, hsubject⟩ := h r hr
  obtain ⟨r'', hr'', hid', htuple', hsubject'⟩ := h' r' hr'
  exact ⟨r'', hr'', hid'.trans hid, htuple'.trans htuple, hsubject'.trans hsubject⟩

section Steps

variable {env : GoldenEnv} {host : Host} {db db' : GoldenDb} {input : ResolutionInput}
  {facts : ResolutionFacts}

theorem Unmerged.survivor_id (h : Unmerged db) {x : Nat} {s : GoldenTalent}
    (hs : survivingSubject db x = .ok s) : s.id = x := by
  obtain ⟨t, ht, ⟨hmerged, -⟩ | ⟨-, rfl⟩⟩ := followMerges_succ.mp hs
  · exact absurd hmerged (h.live t (mem_of_subject? ht).1)
  · exact (mem_of_subject? ht).2

theorem kept_of_ids (hids : db'.subjects.map (·.id) = db.subjects.map (·.id)) :
    ∀ s ∈ db.subjects, ∃ s' ∈ db'.subjects, s'.id = s.id :=
  fun _ hs => mem_map.mp (hids ▸ mem_map_of_mem hs)

theorem referenceStep_of_updateWhere (h : Unmerged db) {p : ExternalTalentReference → Bool}
    {f : ExternalTalentReference → ExternalTalentReference}
    (hr : db'.references = updateWhere p f db.references)
    (hf : ∀ r ∈ db.references, p r = true → SameReference r (f r))
    (hsubjects : ∀ s ∈ db.subjects, ∃ s' ∈ db'.subjects, s'.id = s.id)
    (hlive : ∀ s ∈ db'.subjects, s.resolutionStatus ≠ .merged) : ReferenceStep db db' := by
  have hsame : ∀ r ∈ db.references, SameReference r (if p r then f r else r) := by
    intro r hmem
    split
    next hp => exact hf r hmem hp
    · exact .refl r
  have hold : ∀ r ∈ db'.references, ∃ r₀ ∈ db.references, SameReference r₀ r := by
    intro r hmem
    rw [hr] at hmem
    obtain ⟨r₀, hr₀, rfl⟩ := mem_updateWhere.mp hmem
    exact ⟨r₀, hr₀, hsame r₀ hr₀⟩
  have hnone : ∀ r ∈ db'.references, ¬ NewReference db r := by
    intro r hmem hnew
    obtain ⟨r₀, hr₀, hid, -⟩ := hold r hmem
    exact hnew r₀ hr₀ hid.symm
  refine ⟨?_, fun r hmem hnew => absurd hnew (hnone r hmem),
    fun r hmem _ _ hnew => absurd hnew (hnone r hmem), ?_, hlive⟩
  · exact fun r hmem => ⟨_, hr ▸ mem_updateWhere.mpr ⟨r, hmem, rfl⟩, hsame r hmem⟩
  · intro r hmem
    obtain ⟨r₀, hr₀, -, -, hsubject⟩ := hold r hmem
    obtain ⟨s, hs, hid⟩ := h.owned r₀ hr₀
    obtain ⟨s', hs', hid'⟩ := hsubjects s hs
    exact ⟨s', hs', hid'.trans (hid.trans hsubject.symm)⟩

theorem referenceStep_of_same (h : Unmerged db) (hr : db'.references = db.references)
    (hlive : ∀ s ∈ db'.subjects, s.resolutionStatus ≠ .merged)
    (hids : db'.subjects.map (·.id) = db.subjects.map (·.id)) : ReferenceStep db db' :=
  referenceStep_of_updateWhere h (f := id)
    (hr.trans (updateWhere_of_forall_not fun _ _ => rfl).symm) (fun _ _ hp => nomatch hp)
    (kept_of_ids hids) hlive

/-! ## A snapshot -/

theorem mem_snapshot_verified {k : IdentifierKey} :
    k ∈ (snapshotOf input).verified ↔ k ∈ verifiedKeys input := by
  simp [snapshotOf, keysOf, verifiedKeys]

/-- A single anchored subject is the one where every verified key is bound. -/
theorem anchored_of_decision (h : Unmerged db) (hfacts : gatherFacts db input = .ok facts)
    (hexisting : facts.existingReference = none) {subjectId : Nat}
    (hdecision : (decideResolution host facts).subjectId = some subjectId)
    {r : ExternalTalentReference} (hr : r.subjectId = subjectId)
    (hsnapshot : r.lastIdentitySnapshot = snapshotOf input) : Anchored db r := by
  have honly : ∀ row ∈ db.activeVerified (verifiedKeys input),
      row.subjectId ∈ distinctSubjects facts.verifiedMatches := by
    intro row hrow
    obtain ⟨hsurvive, hmatches⟩ := matches_of_gatherFacts hfacts
    obtain ⟨s, hs⟩ := hsurvive row hrow
    have hid := h.survivor_id hs
    have hlive : s.resolutionStatus ≠ .merged :=
      h.live s (mem_of_subject? (survivor_of_followMerges hs).1).1
    have hmatch : matchOf db row = some ⟨row.key, s.id⟩ := by
      rw [matchOf, hs]
      exact if_neg hlive
    refine mem_distinctSubjects.mpr ⟨⟨row.key, s.id⟩, ?_, hid⟩
    rw [hmatches]
    exact mem_filterMap.mpr ⟨row, hrow, hmatch⟩
  have hone : distinctSubjects facts.verifiedMatches = [subjectId] := by
    rw [decideResolution, hexisting] at hdecision
    cases hsubjects : distinctSubjects facts.verifiedMatches with
    | nil => simp [hsubjects] at hdecision
    | cons first rest =>
      cases rest with
      | nil =>
        simp only [hsubjects, Option.some.injEq] at hdecision
        rw [hdecision]
      | cons _ _ => simp [hsubjects] at hdecision
  constructor
  · have hmem : subjectId ∈ distinctSubjects facts.verifiedMatches := by
      rw [hone]
      exact mem_singleton.mpr rfl
    obtain ⟨m, hm, hsubject⟩ := mem_distinctSubjects.mp hmem
    obtain ⟨row, hrow, s, hs, rfl⟩ := survivor_of_match hfacts hm
    obtain ⟨hi, hbound, hkey⟩ := mem_activeVerified.mp hrow
    refine ⟨row.key, ?_, row, hi, hbound, rfl, ?_⟩
    · rw [hsnapshot]
      exact mem_snapshot_verified.mpr hkey
    · rw [hr, ← hsubject, ← h.survivor_id hs]
  · intro k hk i hi hbound hkey
    rw [hsnapshot, mem_snapshot_verified] at hk
    have hmem := honly i (mem_activeVerified.mpr ⟨hi, hbound, hkey ▸ hk⟩)
    rw [hone, mem_singleton] at hmem
    rw [hmem, hr]

theorem placed_cases (host : Host) (hfacts : gatherFacts db input = .ok facts) :
    ((decideResolution host facts).subjectId = none ∧
        (placeSubject db (decideResolution host facts)).1 = db.nextId) ∨
      ∃ s ∈ db.subjects, (decideResolution host facts).subjectId = some s.id ∧
        (placeSubject db (decideResolution host facts)).1 = s.id := by
  unfold placeSubject
  cases hid : (decideResolution host facts).subjectId with
  | none => exact .inl ⟨rfl, rfl⟩
  | some id =>
    obtain ⟨x, s, hs, rfl⟩ := survivor_of_decision hfacts hid
    exact .inr ⟨s, (mem_of_subject? (survivor_of_followMerges hs).1).1, rfl, rfl⟩

theorem subjects_placed (decision : ResolutionDecision) (h : Unmerged db) :
    (∀ s ∈ (placeSubject db decision).2.subjects, s.resolutionStatus ≠ .merged) ∧
      (∀ s ∈ db.subjects, ∃ s' ∈ (placeSubject db decision).2.subjects, s'.id = s.id) ∧
      (decision.subjectId = none → ∃ s ∈ (placeSubject db decision).2.subjects,
        s.id = (placeSubject db decision).1) := by
  unfold placeSubject
  cases decision.subjectId with
  | none =>
    refine ⟨?_, fun s hs => ⟨s, mem_append_left _ hs, rfl⟩, fun _ => ?_⟩
    · intro s hs
      rcases mem_append.mp hs with hs | hs
      · exact h.live s hs
      · rw [mem_singleton.mp hs]
        exact ResolutionStatus.noConfusion
    · exact ⟨_, mem_append_right _ (mem_singleton.mpr rfl), rfl⟩
  | some id =>
    have hkeeps := placeSubject_keepsMerge decision
    refine ⟨?_, ?_, fun hnone => by cases hnone⟩
    · intro s hs
      rcases of_mem_updateWhere hs with ⟨hs, -⟩ | ⟨s₀, hs₀, -, rfl⟩
      · exact h.live s hs
      · exact fun hmerged => h.live s₀ hs₀ ((hkeeps.merged s₀).mp hmerged)
    · intro s hs
      have hmap : (updateWhere (·.id == id) (fun s : GoldenTalent =>
          { s with
            resolutionStatus :=
              if decision.linkedByVerifiedAnchor && s.resolutionStatus == .provisional then .active
              else s.resolutionStatus
            accessState := .active }) db.subjects).map (·.id) = db.subjects.map (·.id) :=
        map_updateWhere _ fun _ => rfl
      exact mem_map.mp (hmap ▸ mem_map_of_mem hs)

theorem referenceStep_of_placed (h : Unmerged db) (hfacts : gatherFacts db input = .ok facts)
    (hr : db'.references = (placeReference (placeSubject db (decideResolution host facts)).2
      facts.existingReference input (placeSubject db (decideResolution host facts)).1).2.references)
    (hs : db'.subjects = (placeSubject db (decideResolution host facts)).2.subjects) :
    ReferenceStep db db' := by
  obtain ⟨hlive, hsubjects, hnewSubject⟩ := subjects_placed (decideResolution host facts) h
  rw [← hs] at hlive hsubjects hnewSubject
  have hrefs := (frame_placeSubject (decideResolution host facts) db).1
  have hnext := (frame_placeSubject (decideResolution host facts) db).2.2.2
  have hexists := (existing_of_gatherFacts hfacts).2
  cases hexisting : facts.existingReference with
  | some ref =>
    rw [hexisting] at hexists hr
    obtain ⟨r, s, hfind, -, hsurvives, rfl⟩ := hexists
    have hsid := h.survivor_id hsurvives
    -- the subject of the decision is the one that the reference has
    have hplaced : (placeSubject db (decideResolution host facts)).1 = r.subjectId := by
      rw [decideResolution, hexisting, placeSubject]
      exact hsid
    refine referenceStep_of_updateWhere h (p := (·.id == r.id)) (f := fun r₀ =>
      { r₀ with lastIdentitySnapshot := snapshotOf input, subjectId := r.subjectId })
      ?_ ?_ hsubjects hlive
    · rw [hr, hplaced]
      show updateWhere _ _ (placeSubject db (decideResolution host facts)).2.references = _
      rw [hrefs]
    · intro r₀ hr₀ hid
      have heq := inj_on_of_nodup_map h.order.references.nodup hr₀
        (mem_of_referenceByTuple? hfind).1
        (eq_of_beq hid)
      exact ⟨rfl, rfl, by rw [heq]⟩
  | none =>
    rw [hexisting] at hr
    have hrows : db'.references = db.references ++
        [⟨(placeSubject db (decideResolution host facts)).2.nextId, input.tuple,
          (placeSubject db (decideResolution host facts)).1, .active, none, snapshotOf input⟩] := by
      rw [hr]
      show (placeSubject db (decideResolution host facts)).2.references ++ _ = _
      rw [hrefs]
    have hthis : ∀ r₁ ∈ db'.references, NewReference db r₁ → r₁ =
        ⟨(placeSubject db (decideResolution host facts)).2.nextId, input.tuple,
          (placeSubject db (decideResolution host facts)).1, .active, none, snapshotOf input⟩ := by
      intro r₁ hr₁ hnew
      rw [hrows] at hr₁
      rcases mem_append.mp hr₁ with hr₁ | hr₁
      · exact absurd rfl (hnew r₁ hr₁)
      · exact mem_singleton.mp hr₁
    have hcases := placed_cases host hfacts
    refine ⟨?_, ?_, ?_, ?_, hlive⟩
    · intro r₀ hr₀
      refine ⟨r₀, ?_, .refl r₀⟩
      rw [hrows]
      exact mem_append_left _ hr₀
    · intro r₁ hr₁ hnew hsubject
      obtain ⟨s, hsmem, hsid⟩ := hsubject
      have hr₁' := hthis r₁ hr₁ hnew
      rcases hcases with ⟨-, hplaced⟩ | ⟨s', -, hdecision, hplaced⟩
      · -- a new subject is not one that was there
        have hlt := h.order.subjects.lt s hsmem
        rw [hsid, hr₁'] at hlt
        exact absurd hplaced (Nat.ne_of_lt hlt)
      · exact anchored_of_decision h hfacts hexisting hdecision (by rw [hr₁', hplaced])
          (by rw [hr₁'])
    · intro r₁ hr₁ r₂ hr₂ hnew hnew'
      rw [hthis r₁ hr₁ hnew, hthis r₂ hr₂ hnew']
    · intro r₁ hr₁
      rw [hrows] at hr₁
      rcases mem_append.mp hr₁ with hold | hone
      · obtain ⟨t, ht, hid⟩ := h.owned r₁ hold
        obtain ⟨t', ht', hid'⟩ := hsubjects t ht
        exact ⟨t', ht', hid'.trans hid⟩
      · rw [mem_singleton.mp hone]
        rcases hcases with ⟨hdecision, -⟩ | ⟨s', hs', -, hplaced⟩
        · exact hnewSubject hdecision
        · obtain ⟨t', ht', hid'⟩ := hsubjects s' hs'
          exact ⟨t', ht', hid'.trans hplaced.symm⟩

/-! ## The other operations -/

theorem referenceStep_erase (h : Unmerged db) {req : TalentErasedRequest}
    {principal : IngestPrincipal} {now : Nat} {response : TalentErasedResponse}
    (hout : erase db req principal now = .ok (response, db')) : ReferenceStep db db' := by
  have hupdated : ∀ (id : Nat) (accessState : AccessState),
      (db'.subjects = updateWhere (·.id == id) (fun s : GoldenTalent =>
        { s with accessState := accessState }) db.subjects) →
      (∀ s ∈ db'.subjects, s.resolutionStatus ≠ .merged) ∧
        db'.subjects.map (·.id) = db.subjects.map (·.id) := by
    intro id accessState hs
    rw [hs]
    refine ⟨fun s hmem => ?_, map_updateWhere _ fun _ => rfl⟩
    rcases of_mem_updateWhere hmem with ⟨hmem, -⟩ | ⟨s₀, hs₀, -, rfl⟩
    · exact h.live s hmem
    · exact h.live s₀ hs₀
  rcases erase_cases hout with hdb | ⟨row, hdb | ⟨ref, db₁, subject, -, hdb₁, -, hdb⟩⟩
  · rw [show db' = db from hdb]
    exact referenceStep_of_same h rfl h.live rfl
  · exact (show db' = _ from hdb) ▸ referenceStep_of_same h rfl h.live rfl
  · obtain rfl : db' = _ := hdb
    rcases hdb₁ with rfl | rfl
    · obtain ⟨hlive, hids⟩ := hupdated _ _ rfl
      exact referenceStep_of_same h rfl hlive hids
    · obtain ⟨hlive, hids⟩ := hupdated _ _ rfl
      exact referenceStep_of_updateWhere h rfl (fun _ _ _ => ⟨rfl, rfl, rfl⟩)
        (kept_of_ids hids) hlive

theorem referenceStep_of_step {op : GoldenOp} (h : Unmerged db) (hstep : PlainStep env db op db') :
    ReferenceStep db db' := by
  obtain ⟨hone, hplain⟩ := hstep
  by_cases htable : GoldenTable.references ∈ op.tables
  · cases op with
    | ingest =>
      obtain ⟨out, hout, rfl⟩ := map_eq_ok.mp hone
      obtain ⟨-, input, -, ⟨_, _, -, -, -, rfl⟩ | ⟨-, happly⟩⟩ := ingest_eq_ok.mp hout
      · exact referenceStep_of_same h rfl h.live rfl
      · obtain ⟨facts, hfacts, hrest⟩ := statements_applySnapshot happly
        refine referenceStep_of_placed h hfacts (hrest.frame (t := .references) (by decide)) ?_
        have hs : out.2.subjects = (placeReference (placeSubject db (decideResolution env.host
            facts)).2 facts.existingReference input (placeSubject db (decideResolution env.host
            facts)).1).2.subjects := hrest.frame (t := .subjects) (by decide)
        rw [hs]
        exact (frame_placeReference _ _ _ _).1
    | erase =>
      obtain ⟨out, hout, rfl⟩ := map_eq_ok.mp hone
      exact referenceStep_erase h hout
    | merge | split | restore => cases hplain
    | confirm | createVerification | relink | rebuild | openDispute | respond | withdraw
    | disputeAction | resolveContradiction | entitle =>
      simp [GoldenOp.tables, confirmTables] at htable
  · have hsubjects : GoldenTable.subjects ∉ op.tables := by
      cases op with
      | ingest | erase | merge | split | restore =>
        simp [GoldenOp.tables, ingestTables, moveTables] at htable
      | confirm | createVerification | relink | rebuild | openDispute | respond | withdraw
      | disputeAction | resolveContradiction | entitle =>
        simp [GoldenOp.tables, confirmTables]
    have hs : db'.subjects = db.subjects := (statements_of_step hone).frame hsubjects
    refine referenceStep_of_same h ((statements_of_step hone).frame htable) ?_ ?_
    · rw [hs]
      exact h.live
    · rw [hs]

theorem unmerged_of_step {op : GoldenOp} (h : Unmerged db) (hstep : PlainStep env db op db') :
    Unmerged db' := by
  have href := referenceStep_of_step h hstep
  exact ⟨identityInOrder_of_step db op db' h.order hstep.1, href.live, href.owned⟩

theorem unmerged_empty : Unmerged .empty :=
  ⟨identityInOrder_empty, by simp [GoldenDb.empty], by simp [GoldenDb.empty]⟩

theorem unmerged_of_run {ops : List GoldenOp} (h : Run (PlainStep env) .empty ops db) :
    Unmerged db :=
  h.invariant (fun _ _ _ hs hstep => unmerged_of_step hs hstep) unmerged_empty

theorem keepsReferences_of_run {ops : List GoldenOp} (hdb : Unmerged db)
    (h : Run (PlainStep env) db ops db') : KeepsReferences db db' :=
  h.related (fun _ r hr => ⟨r, hr, .refl r⟩) (fun _ _ _ hab hbc => hab.trans hbc)
    (fun _ _ _ hs hstep => unmerged_of_step hs hstep)
    (fun _ _ _ hs hstep => (referenceStep_of_step hs hstep).keeps) hdb

/-- A reference came in over a step of the run while another was on its subject,
through a verified anchor. -/
def LinkedWhile (env : GoldenEnv) (ops : List GoldenOp) (other r :
    ExternalTalentReference) : Prop :=
  ∃ before op after, ops = before ++ op :: after ∧ ∃ mid next,
    Run (PlainStep env) .empty before mid ∧ PlainStep env mid op next ∧
    (∃ o ∈ mid.references, SameReference o other) ∧
    ∃ r₀ ∈ next.references, SameReference r₀ r ∧ NewReference mid r₀ ∧ Anchored mid r₀

/-- **Sharing a subject**: of two references on one subject, one came in through a
verified anchor while the other was there. -/
theorem linked_of_shared {ops : List GoldenOp} (hrun : Run (PlainStep env) .empty ops db)
    {r r' : ExternalTalentReference} (hr : r ∈ db.references) (hr' : r' ∈ db.references)
    (hne : r.id ≠ r'.id) (hshared : r.subjectId = r'.subjectId) :
    LinkedWhile env ops r r' ∨ LinkedWhile env ops r' r := by
  -- by the history of the run: the last step left both, or brought one of them
  revert r r'
  refine hrun.history (P := fun ops db => ∀ {r r' : ExternalTalentReference}, r ∈ db.references →
    r' ∈ db.references → r.id ≠ r'.id → r.subjectId = r'.subjectId →
    LinkedWhile env ops r r' ∨ LinkedWhile env ops r' r) ?_ ?_
  · intro r r' hr
    cases hr
  · intro before op mid next hbefore ih hstep r r' hr hr' hne hshared
    have hmid := unmerged_of_run hbefore
    have href := referenceStep_of_step hmid hstep
    have hback : ∀ {x : ExternalTalentReference}, x ∈ next.references → ¬ NewReference mid x →
        ∃ x₀ ∈ mid.references, SameReference x₀ x := by
      intro x hx hold
      unfold NewReference at hold
      push Not at hold
      obtain ⟨x₀, hx₀, hid⟩ := hold
      obtain ⟨x₁, hx₁, hid₁, htuple, hsubject⟩ := href.keeps x₀ hx₀
      have heq : x₁ = x := inj_on_of_nodup_map
        (identityInOrder_of_step mid op next hmid.order hstep.1).references.nodup hx₁ hx
        (hid₁.trans hid)
      exact ⟨x₀, hx₀, heq ▸ ⟨hid₁, htuple, hsubject⟩⟩
    have hcame : ∀ {x y : ExternalTalentReference}, x ∈ next.references → y ∈ next.references →
        NewReference mid y → ¬ NewReference mid x → x.subjectId = y.subjectId →
        LinkedWhile env (before ++ [op]) x y := by
      intro x y hx hy hnew hold hsame
      obtain ⟨x₀, hx₀, hx₀x⟩ := hback hx hold
      refine ⟨before, op, [], rfl, mid, next, hbefore, hstep, ⟨x₀, hx₀, hx₀x⟩,
        y, hy, .refl y, hnew, ?_⟩
      obtain ⟨s, hs, hid⟩ := hmid.owned x₀ hx₀
      refine href.anchored y hy hnew ⟨s, hs, ?_⟩
      rw [hid, ← hsame, hx₀x.2.2]
    have hlater : ∀ {x y x₀ y₀ : ExternalTalentReference}, SameReference x₀ x → SameReference y₀ y →
        LinkedWhile env before x₀ y₀ → LinkedWhile env (before ++ [op]) x y := by
      rintro x y x₀ y₀ hx hy ⟨as, a, bs, rfl, m, n, hm, hn, ⟨o, ho, hox⟩, z, hz, hzy, hnew, hanchor⟩
      refine ⟨as, a, bs ++ [op], by simp, m, n, hm, hn, ⟨o, ho, ?_⟩, z, hz, ?_, hnew, hanchor⟩
      · exact ⟨hx.1.trans hox.1, hx.2.1.trans hox.2.1, hx.2.2.trans hox.2.2⟩
      · exact ⟨hy.1.trans hzy.1, hy.2.1.trans hzy.2.1, hy.2.2.trans hzy.2.2⟩
    by_cases hnew : NewReference mid r
    · by_cases hnew' : NewReference mid r'
      · exact absurd (congrArg ExternalTalentReference.id (href.one r hr r' hr' hnew hnew')) hne
      · exact .inr (hcame hr' hr hnew hnew' hshared.symm)
    · by_cases hnew' : NewReference mid r'
      · exact .inl (hcame hr hr' hnew' hnew hshared)
      · obtain ⟨r₀, hr₀, hrr⟩ := hback hr hnew
        obtain ⟨r₁, hr₁, hrr'⟩ := hback hr' hnew'
        have hne' : r₀.id ≠ r₁.id := by rwa [← hrr.1, ← hrr'.1]
        have hshared' : r₀.subjectId = r₁.subjectId := by rw [← hrr.2.2, ← hrr'.2.2, hshared]
        rcases ih hr₀ hr₁ hne' hshared' with hl | hl
        · exact .inl (hlater hrr hrr' hl)
        · exact .inr (hlater hrr' hrr hl)

end Steps

/-- **Verified anchors.** While nothing is merged or split: a reference keeps its
subject; one that is created on a subject that exists is anchored there by a
verified identifier, and nowhere else; of two references on one subject one came
in so while the other was there; a key has one active verified row; and a step
that binds a key holds the key's lock, so steps that bind it follow one another. -/
theorem only_verified_anchors_link (env : GoldenEnv) {ops : List GoldenOp} {db : GoldenDb}
    (hrun : Run (PlainStep env) .empty ops db) :
    (∀ ops' db', Run (PlainStep env) db ops' db' → KeepsReferences db db') ∧
    (∀ op db', PlainStep env db op db' → ∀ r ∈ db'.references, NewReference db r →
      (∃ s ∈ db.subjects, s.id = r.subjectId) → Anchored db r) ∧
    (∀ r ∈ db.references, ∀ r' ∈ db.references, r.id ≠ r'.id → r.subjectId = r'.subjectId →
      LinkedWhile env ops r r' ∨ LinkedWhile env ops r' r) ∧
    (∀ i ∈ db.identifiers, ∀ j ∈ db.identifiers, i.activeVerified = true →
      j.activeVerified = true → i.key = j.key → i = j) ∧
    ∀ op db', PlainStep env db op db' → ∀ i ∈ db'.identifiers, NewlyBound db i →
      identifierLockKey i.key ∈ lockKeys env db op := by
  have hdb := unmerged_of_run hrun
  refine ⟨fun ops' db' h => keepsReferences_of_run hdb h, ?_, ?_, hdb.order.identifiers.bound, ?_⟩
  · intro op db' hstep
    exact (referenceStep_of_step hdb hstep).anchored
  · intro r hr r' hr' hne hshared
    exact linked_of_shared hrun hr hr' hne hshared
  · intro op db' hstep i hi hnew
    exact lock_of_newlyBound hstep.2 hdb.order hstep.1 hi hnew

/-- Two sources that vouch for the same address. -/
def sharedAddress : List GoldenOp :=
  [.ingest (anchorSnapshot ⟨js "ATS", js "T1", js "ann"⟩ "a" ["ann@x.io"]) anAts 0,
    .ingest (anchorSnapshot ⟨js "ATS", js "T2", js "ann"⟩ "b" ["ann@x.io"]) anAts 0]

theorem only_verified_anchors_link_shared : ∃ db, Run (PlainStep plainEnv) .empty sharedAddress db ∧
    ∃ r ∈ db.references, ∃ r' ∈ db.references, r.id ≠ r'.id ∧
      (LinkedWhile plainEnv sharedAddress r r' ∨ LinkedWhile plainEnv sharedAddress r' r) := by
  obtain ⟨db, hrun, hp⟩ := guardedRun_of_exec _ (goldenStep_of_next plainEnv) _
    (fun _ op => op.keepsSubjects) (fun _ _ h => h) .empty sharedAddress
    (fun db => db.references.any fun r => db.references.any fun r' =>
      decide (r.id ≠ r'.id) && decide (r.subjectId = r'.subjectId)) (by decide +kernel)
  simp only [any_eq_true, Bool.and_eq_true, decide_eq_true_eq] at hp
  obtain ⟨r, hr, r', hr', hne, hshared⟩ := hp
  exact ⟨db, hrun, r, hr, r', hr', hne,
    (only_verified_anchors_link plainEnv hrun).2.2.1 r hr r' hr' hne hshared⟩

end AramoPlatform.Intelligence
