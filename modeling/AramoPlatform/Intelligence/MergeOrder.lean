import AramoPlatform.Intelligence.IdentityEffects

/-!
# Subjects in order

What a merge and its undoing rest on, kept by every operation: ids name one row,
a subject is merged exactly when it says into which, a live subject's access
state is the one its references give, and a merge event remembers live states.
-/

namespace AramoPlatform.Intelligence

open Js Lib List

/-! ## Ids -/

/-- In the tables that a merge moves or writes, an id names one row. -/
structure RowsKeyed (db : GoldenDb) (next : Nat) : Prop where
  subjects : Keyed (·.id) db.subjects next
  references : Keyed (·.id) db.references next
  identifiers : Keyed (·.id) db.identifiers next
  artifacts : Keyed (·.id) db.artifacts next
  conflicts : Keyed (·.id) db.conflicts next
  assertions : Keyed (·.id) db.assertions next
  mergeSplits : Keyed (·.id) db.mergeSplits next

theorem RowsKeyed.mono {db : GoldenDb} {next next' : Nat} (h : RowsKeyed db next)
    (hle : next ≤ next') : RowsKeyed db next' :=
  ⟨h.subjects.mono hle, h.references.mono hle, h.identifiers.mono hle, h.artifacts.mono hle,
    h.conflicts.mono hle, h.assertions.mono hle, h.mergeSplits.mono hle⟩

theorem Statement.rowsKeyed {tables : List GoldenTable} {db db' : GoldenDb}
    (hone : Statement tables db db') (h : RowsKeyed db db.nextId) : RowsKeyed db' db'.nextId := by
  have hnext := h.mono (Nat.le_succ db.nextId)
  cases hone with
  | createSubject => exact { hnext with subjects := h.subjects.insert rfl }
  | updateSubject id f hid => exact { h with subjects := h.subjects.update hid }
  | createReference => exact { hnext with references := h.references.insert rfl }
  | updateReference id f hid => exact { h with references := h.references.update hid }
  | repointReferences => exact { h with references := h.references.update fun _ => rfl }
  | createIdentifier => exact { hnext with identifiers := h.identifiers.insert rfl }
  | updateIdentifier id f hid => exact { h with identifiers := h.identifiers.update hid }
  | repointIdentifiers => exact { h with identifiers := h.identifiers.update fun _ => rfl }
  | repointArtifacts => exact { h with artifacts := h.artifacts.update fun _ => rfl }
  | createConflict => exact { hnext with conflicts := h.conflicts.insert rfl }
  | repointConflicts => exact { h with conflicts := h.conflicts.update fun _ => rfl }
  | createAssertion => exact { hnext with assertions := h.assertions.insert rfl }
  | setStatus | repointAssertions => exact { h with assertions := h.assertions.update fun _ => rfl }
  | createMergeSplit => exact { hnext with mergeSplits := h.mergeSplits.insert rfl }
  | appendEvent | appendLink | createVerification => exact { hnext with }
  | createInbox | updateVerification | entitle => exact { h with }
  | onDisputes _ hon =>
    have hle := h.mono hon.next
    rw [hon.rest]
    exact { hle with }

theorem rowsKeyed_of_step {env : GoldenEnv} (db : GoldenDb) (op : GoldenOp) (db' : GoldenDb)
    (h : RowsKeyed db db.nextId) (hstep : GoldenStep env db op db') : RowsKeyed db' db'.nextId :=
  (statements_of_step hstep).invariant Statement.rowsKeyed h

/-! ## Merge columns and access states -/

/-- A subject is merged exactly when it says into which, and a live one is reachable
exactly when one of its references is active. -/
structure SubjectInOrder (db : GoldenDb) (s : GoldenTalent) : Prop where
  link : s.resolutionStatus = .merged ↔ s.mergedIntoId.isSome = true
  access : s.resolutionStatus ≠ .merged → s.accessState = accessStateOf db s.id

def SubjectsInOrder (db : GoldenDb) : Prop := ∀ s ∈ db.subjects, SubjectInOrder db s

theorem accessStateOf_congr {db db' : GoldenDb} {id : Nat}
    (h : db'.referencesOf id = db.referencesOf id) : accessStateOf db' id =
      accessStateOf db id := by
  unfold accessStateOf
  rw [h]

theorem accessStateOf_of_active {db : GoldenDb} {r : ExternalTalentReference}
    (hr : r ∈ db.references) (hactive : r.status = .active) :
    accessStateOf db r.subjectId = .active := by
  refine if_pos (any_eq_true.mpr ⟨r, ?_, ?_⟩)
  · exact mem_filter.mpr ⟨hr, beq_self_eq_true _⟩
  · rw [hactive]
    rfl

theorem SubjectInOrder.congr {db db' : GoldenDb} {s : GoldenTalent} (h : SubjectInOrder db s)
    (hrefs : s.resolutionStatus ≠ .merged → db'.referencesOf s.id = db.referencesOf s.id) :
    SubjectInOrder db' s := by
  refine ⟨h.link, fun hlive => ?_⟩
  rw [accessStateOf_congr (hrefs hlive)]
  exact h.access hlive

theorem SubjectsInOrder.congr {db db' : GoldenDb} (h : SubjectsInOrder db)
    (hs : db'.subjects = db.subjects) (hr : db'.references = db.references) :
    SubjectsInOrder db' := by
  intro s hmem
  rw [hs] at hmem
  refine (h s hmem).congr fun _ => ?_
  unfold GoldenDb.referencesOf
  rw [hr]

theorem survivor_of_live {db : GoldenDb} {next : Nat} (hkeyed : Keyed (·.id) db.subjects next)
    {s t : GoldenTalent} (hs : s ∈ db.subjects) (hlive : s.resolutionStatus ≠ .merged)
    (h : survivingSubject db s.id = .ok t) : t = s := by
  obtain ⟨u, hu, hnext⟩ := followMerges_succ.mp h
  have hfound : db.subject? s.id = some s := find?_key_eq_some hkeyed.nodup hs
  rw [hfound] at hu
  obtain rfl := Option.some.inj hu
  rcases hnext with ⟨hmerged, -⟩ | ⟨-, rfl⟩
  · exact absurd hmerged hlive
  · rfl

theorem SubjectsInOrder.live_of_survivor {db : GoldenDb} (h : SubjectsInOrder db) {x : Nat}
    {s : GoldenTalent} (hs : survivingSubject db x = .ok s) :
    s ∈ db.subjects ∧ s.resolutionStatus ≠ .merged := by
  obtain ⟨hfind, hend⟩ := survivor_of_followMerges hs
  have hmem := (mem_of_subject? hfind).1
  exact ⟨hmem, fun hmerged => hend ⟨hmerged, (h s hmem).link.mp hmerged⟩⟩

/-! ### Ingest and erasure -/

section Placing

variable {db : GoldenDb} {input : ResolutionInput} {facts : ResolutionFacts}

theorem referencesOf_updateReference {id t : Nat}
    {f : ExternalTalentReference → ExternalTalentReference}
    (hold : ∀ r ∈ db.references, r.id = id → r.subjectId ≠ t)
    (hnew : ∀ r, r.subjectId ≠ t → (f r).subjectId ≠ t) :
    (db.updateReference id f).referencesOf t = db.referencesOf t := by
  refine filter_updateWhere fun r hr hid => ?_
  have hne := hold r hr (eq_of_beq hid)
  exact ⟨beq_eq_false_iff_ne.mpr hne, beq_eq_false_iff_ne.mpr (hnew r hne)⟩

theorem referencesOf_placeReference {existing : Option ExistingReference} {subjectId t : Nat}
    (hne : subjectId ≠ t)
    (hold : ∀ ref, existing = some ref → ∀ r ∈ db.references, r.id = ref.id → r.subjectId ≠ t) :
    (placeReference db existing input subjectId).2.referencesOf t = db.referencesOf t := by
  cases existing with
  | none =>
    show (db.references ++ [_]).filter _ = db.references.filter _
    rw [filter_append]
    simp [hne]
  | some ref => exact referencesOf_updateReference (hold ref rfl) fun _ _ => hne

theorem mem_placeSubject {decision : ResolutionDecision} {s : GoldenTalent}
    (h : SubjectsInOrder db) (hmem : s ∈ (placeSubject db decision).2.subjects) :
    s ∈ db.subjects ∧ (decision.subjectId.isSome = true → s.id ≠ (placeSubject db decision).1) ∨
      s.id = (placeSubject db decision).1 ∧ s.accessState = .active ∧
        (s.resolutionStatus = .merged ↔ s.mergedIntoId.isSome = true) := by
  unfold placeSubject at hmem ⊢
  cases hid : decision.subjectId with
  | none =>
    rw [hid] at hmem
    rcases (mem_append.mp hmem).imp_right mem_singleton.mp with hold | rfl
    · exact .inl ⟨hold, fun hsome => by cases hsome⟩
    · exact .inr ⟨rfl, rfl, by simp⟩
  | some id =>
    rw [hid] at hmem
    rcases of_mem_updateWhere hmem with ⟨hold, hne⟩ | ⟨y, hy, hyid, rfl⟩
    · exact .inl ⟨hold, fun _ => beq_eq_false_iff_ne.mp hne⟩
    · exact .inr ⟨eq_of_beq hyid, rfl,
        ((placeSubject_keepsMerge decision).merged y).trans (h y hy).link⟩

section

variable (hrows : RowsKeyed db db.nextId)

include hrows

/-- An existing reference is at the subject that the decision names, or at one that
was merged away. -/
theorem existing_subject {host : Host}
    (hfacts : gatherFacts db input = .ok facts) {ref : ExistingReference}
    (href : facts.existingReference = some ref) {s : GoldenTalent} (hs : s ∈ db.subjects)
    (hlive : s.resolutionStatus ≠ .merged)
    (hne : (placeSubject db (decideResolution host facts)).1 ≠ s.id) :
    ∀ r ∈ db.references, r.id = ref.id → r.subjectId ≠ s.id := by
  have hexisting := (existing_of_gatherFacts hfacts).2
  rw [href] at hexisting
  obtain ⟨r', t, hfind, -, hsurvivor, rfl⟩ := hexisting
  intro r hr hid hsubject
  obtain rfl := inj_on_of_nodup_map hrows.references.nodup hr
    (mem_of_referenceByTuple? hfind).1 hid
  -- the reference is at the live subject, so that is its survivor
  rw [hsubject] at hsurvivor
  obtain rfl := survivor_of_live hrows.subjects hs hlive hsurvivor
  refine hne ?_
  unfold decideResolution placeSubject
  rw [href]

theorem subjectsInOrder_placed {host : Host}
    (h : SubjectsInOrder db) (hfacts : gatherFacts db input = .ok facts) :
    SubjectsInOrder (placeReference (placeSubject db (decideResolution host facts)).2
      facts.existingReference input (placeSubject db (decideResolution host facts)).1).2 := by
  intro s hmem
  have hexisting : ExistingOf (placeSubject db (decideResolution host facts)).2 input
      facts.existingReference := by
    have hexisting := existingOf_gatherFacts hfacts
    unfold ExistingOf GoldenDb.referenceByTuple? at *
    rw [(frame_placeSubject _ db).1]
    exact hexisting
  have hplaced := referencePlaced (placeSubject db (decideResolution host facts)).1 hexisting
  obtain ⟨r, hfind, -, hsubject, hactive, -⟩ := hplaced
  rw [(frame_placeReference _ _ _ _).1] at hmem
  have hbyId : s.id = (placeSubject db (decideResolution host facts)).1 →
      accessStateOf (placeReference (placeSubject db (decideResolution host facts)).2
        facts.existingReference input (placeSubject db (decideResolution host facts)).1).2 s.id =
          .active := by
    intro hid
    have haccess := accessStateOf_of_active (mem_of_referenceByTuple? hfind).1 hactive
    rw [hsubject] at haccess
    rw [hid]
    exact haccess
  rcases mem_placeSubject h hmem with ⟨hold, hother⟩ | ⟨hid, haccess, hlink⟩
  · -- an old row: the placed subject is another one, found or new
    have hne : (placeSubject db (decideResolution host facts)).1 ≠ s.id := by
      cases hsome : (decideResolution host facts).subjectId with
      | some id => exact fun heq => hother (by rw [hsome]; rfl) heq.symm
      | none =>
        have hlt : s.id < db.nextId := hrows.subjects.lt s hold
        have hnew : (placeSubject db (decideResolution host facts)).1 = db.nextId := by
          unfold placeSubject
          rw [hsome]
        omega
    refine (h s hold).congr fun hlive => ?_
    rw [referencesOf_placeReference hne]
    · unfold GoldenDb.referencesOf
      rw [(frame_placeSubject _ db).1]
    · intro ref href
      rw [(frame_placeSubject _ db).1]
      exact existing_subject hrows hfacts href hold hlive hne
  · exact ⟨hlink, fun _ => haccess.trans (hbyId hid).symm⟩

/-- What an ingest does after the reference is placed leaves subjects and references alone. -/
theorem subjectsInOrder_ingest {host : Host} {tokenKey : Option JsString}
    {req : TalentIngestRequest} {principal : IngestPrincipal} {now : Nat}
    {out : TalentIngestResponse × GoldenDb}
    (h : SubjectsInOrder db) (hout : ingest host tokenKey db req principal now = .ok out) :
    SubjectsInOrder out.2 := by
  obtain ⟨-, input, -, ⟨_, _, -, -, -, rfl⟩ | ⟨-, hout⟩⟩ := ingest_eq_ok.mp hout
  · exact h
  · obtain ⟨facts, hfacts, hrest⟩ := statements_applySnapshot hout
    exact (subjectsInOrder_placed hrows h hfacts).congr (hrest.frame (t := .subjects) (by decide))
      (hrest.frame (t := .references) (by decide))

theorem subjectsInOrder_erase {req : TalentErasedRequest} {principal : IngestPrincipal} {now : Nat}
    {out : TalentErasedResponse × GoldenDb}
    (h : SubjectsInOrder db) (hout : erase db req principal now = .ok out) :
    SubjectsInOrder out.2 := by
  rcases erase_cases hout with hdb | ⟨row, hdb | ⟨ref, db₁, subject, hfind, hdb₁, hsurvivor, hdb⟩⟩
  · rwa [hdb]
  · rw [hdb]
    exact h.congr rfl rfl
  · rw [hdb]
    refine SubjectsInOrder.congr (?_ : SubjectsInOrder (db₁.updateSubject subject.id _)) rfl rfl
    -- the references of a subject that does not hold the erased one stay
    have hsubjects : db₁.subjects = db.subjects := by
      rcases hdb₁ with rfl | rfl <;> rfl
    have hrefs : ∀ t, ref.subjectId ≠ t → db₁.referencesOf t = db.referencesOf t := by
      intro t hne
      rcases hdb₁ with rfl | rfl
      · rfl
      · refine referencesOf_updateReference ?_ fun _ hold => hold
        intro r hr hid
        obtain rfl := inj_on_of_nodup_map hrows.references.nodup hr
          (mem_of_referenceByTuple? hfind).1 hid
        exact hne
    intro s hmem
    rcases of_mem_updateWhere hmem with ⟨hold, hne⟩ | ⟨y, hy, hyid, rfl⟩
    · rw [hsubjects] at hold
      refine (h s hold).congr fun hlive => hrefs s.id ?_
      intro hsubject
      rw [hsubject] at hsurvivor
      have hsurvivor' : survivingSubject db s.id = .ok subject := by
        unfold survivingSubject at *
        rwa [followMerges_congr hsubjects] at hsurvivor
      obtain rfl := survivor_of_live hrows.subjects hold hlive hsurvivor'
      simp at hne
    · rw [hsubjects] at hy
      refine ⟨(h y hy).link, fun _ => ?_⟩
      rw [← eq_of_beq hyid]
      exact accessStateOf_congr rfl

end

end Placing

end AramoPlatform.Intelligence
