import AramoPlatform.Intelligence.AccessStates
import AramoPlatform.Intelligence.Resend

/-!
# Access states over runs

Merge and split keep the access states as ingest and erasure do, and so does
every run of transactions that commit on what they read. Two erasures that
overlap each see the other's reference.
-/

namespace AramoPlatform.Intelligence

open Js Lib List

section Parts

variable {db : GoldenDb} {ids : List Nat}

/-! ## Merge and split -/

theorem wp_live {id : Nat} {Q : GoldenTalent → GoldenDb → Prop} (h : ∀ s, s.id = id → Q s db) :
    (GoldenTx.live id).wp accessCheck Q db := by
  rw [GoldenTx.live]
  simp only [bind_eq_tx]
  rw [Tx.wp_bind, GoldenTx.wp_read]
  intro found hfound
  rw [Tx.wp_bind, GoldenTx.wp_orThrow]
  rintro s rfl
  obtain ⟨t, ht, hst⟩ := subject_of_stands hfound
  rw [Tx.wp_bind, GoldenTx.wp_require]
  intro _
  exact h s ((sameLinks_of_standing hst).1.trans (mem_of_subject? ht).2)

/-- The references that were listed for a subject are its own. -/
def OwnReferences (db : GoldenDb) (subjectId : Nat) (moved : List Nat) : Prop :=
  ∀ r ∈ db.references, r.id ∈ moved → r.subjectId = subjectId

theorem wp_ownRows {id : Nat} {Q : GoldenTx.OwnRows → GoldenDb → Prop} (hc : Constraints db)
    (h : ∀ own : GoldenTx.OwnRows, OwnReferences db id (own.references.map (·.id)) → Q own db) :
    (GoldenTx.ownRows id).wp accessCheck Q db := by
  rw [GoldenTx.ownRows]
  simp only [bind_eq_tx]
  rw [Tx.wp_bind, GoldenTx.wp_read]
  intro references hrefs
  rw [Tx.wp_bind, GoldenTx.wp_read]
  intro assertions _
  rw [Tx.wp_bind, GoldenTx.wp_read]
  intro identifiers _
  rw [Tx.wp_bind, GoldenTx.wp_read]
  intro artifacts _
  rw [Tx.wp_bind, GoldenTx.wp_read]
  intro conflicts _
  refine h _ fun r hr hmem => ?_
  -- the listed ids are those of the subject's references
  have hids : references.map (·.id) = (db.referencesOf id).map (·.id) := by
    have hcols := congrArg (List.map Prod.fst) (show references.map (fun r => (r.id, r.status)) =
      (db.referencesOf id).map fun r => (r.id, r.status) from hrefs)
    rwa [map_map, map_map] at hcols
  have hmem' : r.id ∈ (db.referencesOf id).map (·.id) := hids ▸ hmem
  obtain ⟨r', hr', heq⟩ := mem_map.mp hmem'
  obtain ⟨hr', hsubject⟩ := mem_filter.mp hr'
  rw [inj_on_of_nodup_map hc.referenceIds hr hr' heq.symm]
  exact eq_of_beq hsubject

theorem wp_move (ids : List Nat) (src : Nat) {moved : MovedSet} {into : Nat} {actor : JsString}
    (h : AccessExcept ids db) (hown : OwnReferences db src moved.referenceIds) :
    (GoldenTx.move moved into actor).wp accessCheck
      (fun _ d => Constraints d ∧ AccessExcept (src :: into :: ids) d) db := by
  rw [GoldenTx.move]
  simp only [bind_eq_tx]
  rw [Tx.wp_bind, GoldenTx.wp_write]
  intro _ hafter
  have hrest : GoldenTx.Writes [.identifiers, .artifacts, .conflicts, .assertions, .assertionEvents]
      ((GoldenTx.write (.repointIdentifiers moved.identifierIds into)).bind fun _ =>
        (GoldenTx.write (.repointArtifacts moved.artifactIds into)).bind fun _ =>
        (GoldenTx.write (.repointConflicts moved.conflictIds into)).bind fun _ =>
        (GoldenTx.write (.repointAssertions moved.assertionIds into)).bind fun _ =>
        Tx.forEach moved.assertionIds fun id =>
          GoldenTx.appendEvent id .repointed none none actor) :=
    (GoldenTx.writes_write .identifiers rfl (by decide)).bind fun _ =>
      (GoldenTx.writes_write .artifacts rfl (by decide)).bind fun _ =>
      (GoldenTx.writes_write .conflicts rfl (by decide)).bind fun _ =>
      (GoldenTx.writes_write .assertions rfl (by decide)).bind fun _ =>
      Tx.only_forEach fun id => GoldenTx.writes_appendEvent (by decide) id _ _ _ _
  refine GoldenTx.wp_of_writes (I := fun d => Constraints d ∧ AccessExcept (src :: into :: ids) d)
    hrest (fun c d hmem hafter hd => ⟨hafter, ?_⟩) ⟨hafter, h.repoint hown⟩
  refine hd.2.of_same (write_frame (t := .subjects) ?_) (write_frame (t := .references) ?_)
  · intro heq
    rw [heq] at hmem
    exact absurd hmem (by decide)
  · intro heq
    rw [heq] at hmem
    exact absurd hmem (by decide)

theorem wp_updateAccess (ids : List Nat) {id : Nat} {f : AccessState → GoldenTalent →
    GoldenTalent} {α : Type}
    {next : Unit → GoldenTx α} {Q : α → GoldenDb → Prop} (hf : ∀ a s, (f a s).id = s.id ∧
      (f a s).accessState = a) (h : AccessExcept (id :: ids) db)
    (hnext : ∀ d, Constraints d → AccessExcept ids d → (next ()).wp accessCheck Q d) :
    ((GoldenTx.accessStateOf id).bind fun access =>
      (GoldenTx.write (.updateSubject id (f access))).bind next).wp accessCheck Q db := by
  rw [Tx.wp_bind]
  refine wp_accessStateOf fun access haccess => ?_
  rw [Tx.wp_bind, GoldenTx.wp_write]
  intro _ hafter
  refine hnext _ hafter (h.updateSubject (fun s => (hf access s).1) fun s _ _ _ => ?_)
  rw [(hf access s).2]
  exact haccess

variable {actor reason : JsString}

theorem wp_mergeTx {fromId intoId : Nat} (h : AccessInOrder db) :
    (GoldenTx.mergeTx fromId intoId actor reason).wp accessCheck (fun _ d =>
      AccessInOrder d) db := by
  rw [GoldenTx.mergeTx]
  simp only [bind_eq_tx]
  rw [Tx.wp_bind, GoldenTx.wp_require]
  intro _
  rw [Tx.wp_bind]
  refine GoldenTx.wp_lockAll _ ?_
  rw [Tx.wp_bind]
  refine wp_live fun source hsource => ?_
  rw [Tx.wp_bind]
  refine wp_live fun target htarget => ?_
  rw [Tx.wp_bind]
  refine wp_ownRows h.constraints fun own hown => ?_
  rw [Tx.wp_bind, GoldenTx.wp_newId]
  intro eventId
  rw [Tx.wp_bind, GoldenTx.wp_write]
  intro _ hafter
  rw [Tx.wp_bind]
  refine Tx.wp_mono (wp_move [] source.id (h.access.of_same rfl rfl) ?_) ?_
  · exact fun r hr hmem => hown r hr (mem_uniq.mp hmem)
  rintro _ d ⟨-, hdoubt⟩
  rw [Tx.wp_bind, GoldenTx.wp_write]
  intro _ hmerged
  refine wp_updateAccess [] (fun _ _ => ⟨rfl, rfl⟩) ?_ fun d' hc hd' => ⟨hc, hd'⟩
  -- the subject that was merged away is out of the question
  refine hdoubt.updateSubject (fun _ => rfl) fun s _ _ hlive => ?_
  exact absurd rfl hlive

theorem wp_recordSplit {subjectId targetId : Nat} {moved : MovedSet} {restores : Option Nat}
    (h : AccessExcept ids db)
    (hown : OwnReferences db subjectId moved.referenceIds) :
    (GoldenTx.recordSplit subjectId targetId moved restores actor reason).wp accessCheck
      (fun _ d => AccessExcept (subjectId :: targetId :: ids) d) db := by
  rw [GoldenTx.recordSplit]
  simp only [bind_eq_tx]
  rw [Tx.wp_bind, GoldenTx.wp_require]
  intro _
  rw [Tx.wp_bind, GoldenTx.wp_newId]
  intro eventId
  rw [Tx.wp_bind, GoldenTx.wp_write]
  intro _ hafter
  rw [Tx.wp_bind]
  refine Tx.wp_mono (wp_move ids subjectId (h.of_same rfl rfl) ?_) fun _ d hd => hd.2
  exact hown

theorem referenceIds_of_pick {own : GoldenTx.OwnRows} {subjectId : Nat} {selection moved : MovedSet}
    (h : own.pickSelection subjectId selection = .ok moved) :
    ∀ id ∈ moved.referenceIds, id ∈ own.references.map (·.id) := by
  simp only [GoldenTx.OwnRows.pickSelection, bind_eq_ok, Except.ok.injEq] at h
  obtain ⟨refs, hrefs, _, -, _, -, _, -, _, -, rfl⟩ := h
  simp only [pickOwn, bind_eq_ok, require_eq_ok, Except.ok.injEq] at hrefs
  obtain ⟨-, hmissing, rfl⟩ := hrefs
  intro id hid
  by_cases hmem : (own.references.map (·.id)).contains id = true
  · exact contains_iff_mem.mp hmem
  · have hin : id ∈ (uniq selection.referenceIds).filter fun id =>
        !(own.references.map (·.id)).contains id := by
      rw [mem_filter]
      exact ⟨hid, by simpa using hmem⟩
    rw [List.isEmpty_iff.mp hmissing] at hin
    cases hin

theorem wp_splitSelection {subjectId : Nat} {selection : MovedSet}
    (h : AccessInOrder db) :
    (GoldenTx.splitSelection subjectId selection actor reason).wp accessCheck
      (fun _ d => AccessInOrder d) db := by
  rw [GoldenTx.splitSelection]
  simp only [bind_eq_tx]
  rw [Tx.wp_bind]
  refine GoldenTx.wp_lockAll _ ?_
  rw [Tx.wp_bind]
  refine wp_live fun subject hsubject => ?_
  rw [Tx.wp_bind]
  refine wp_ownRows h.constraints fun own hown => ?_
  rw [Tx.wp_bind, GoldenTx.wp_newId]
  intro targetId
  rw [Tx.wp_bind, GoldenTx.wp_write]
  intro _ hafter
  split
  · trivial
  next moved hpick =>
    rw [Tx.wp_bind]
    refine Tx.wp_mono (wp_recordSplit (h.access.insertSubject _) fun r hr hmem =>
      ?_) fun event d hd => ?_
    · exact hown r hr (referenceIds_of_pick hpick _ hmem)
    · refine wp_updateAccess [subject.id] (fun _ _ => ⟨rfl, rfl⟩) (hd.mono ?_) ?_
      · intro x hx
        simp only [mem_cons, not_mem_nil, or_false] at hx ⊢
        tauto
      · intro d₁ _ hd₁
        exact wp_updateAccess [] (fun _ _ => ⟨rfl, rfl⟩) hd₁ fun d₂ hc hd₂ => ⟨hc, hd₂⟩

theorem wp_restoreMerge {subjectId eventId : Nat}
    (h : AccessInOrder db) :
    (GoldenTx.restoreMerge subjectId eventId actor reason).wp accessCheck
      (fun _ d => AccessInOrder d) db := by
  rw [GoldenTx.restoreMerge]
  simp only [bind_eq_tx]
  rw [Tx.wp_bind]
  refine GoldenTx.wp_lockAll _ ?_
  rw [Tx.wp_bind]
  refine wp_live fun subject hsubject => ?_
  rw [Tx.wp_bind]
  refine wp_ownRows h.constraints fun own hown => ?_
  rw [Tx.wp_bind, GoldenTx.wp_read]
  intro found _
  rw [Tx.wp_bind]
  have hreads : GoldenTx.Writes [] (GoldenTx.mergeToRestore subject.id found) := by
    unfold GoldenTx.mergeToRestore
    split
    · trivial
    · split
      · trivial
      · exact Tx.only_bind (Tx.only_require _ _) fun _ => trivial
  refine GoldenTx.wp_of_reads hreads fun merge => ?_
  rw [Tx.wp_bind, GoldenTx.wp_read]
  intro row _
  rw [Tx.wp_bind, GoldenTx.wp_orThrow]
  intro original _
  rw [Tx.wp_bind, GoldenTx.wp_require]
  intro _
  rw [Tx.wp_bind]
  refine Tx.wp_mono (wp_recordSplit h.access fun r hr hmem => ?_) fun event d hd => ?_
  · refine hown r hr ?_
    have hkept := (mem_filter.mp (show r.id ∈ (uniq merge.2.toMovedSet.referenceIds).filter
      (own.references.map (·.id)).contains from hmem)).2
    exact contains_iff_mem.mp hkept
  · refine wp_updateAccess [subject.id] (fun _ _ => ⟨rfl, rfl⟩) (hd.mono ?_) ?_
    · intro x hx
      simp only [mem_cons, not_mem_nil, or_false] at hx ⊢
      tauto
    · intro d₁ _ hd₁
      exact wp_updateAccess [] (fun _ _ => ⟨rfl, rfl⟩) hd₁ fun d₂ hc hd₂ => ⟨hc, hd₂⟩

end Parts

/-! ## Runs -/

/-- The units of work that touch the references of a subject. -/
inductive ReferenceOp where
  | ingest (req : TalentIngestRequest) (principal : IngestPrincipal) (now : Nat)
  | erase (req : TalentErasedRequest) (principal : IngestPrincipal) (now : Nat)
  | merge (fromId intoId : Nat) (actor reason : JsString)
  | split (subjectId : Nat) (selection : MovedSet) (actor reason : JsString)
  | restore (subjectId eventId : Nat) (actor reason : JsString)

def ReferenceOp.program (env : GoldenEnv) : ReferenceOp → GoldenTx Unit
  | .ingest req principal now => do
      let _ ← GoldenTx.ingest env.host env.tokenKey req principal now
  | .erase req principal now => do
      let _ ← GoldenTx.erase req principal now
  | .merge fromId intoId actor reason => do
      let _ ← GoldenTx.mergeTx fromId intoId actor reason
  | .split subjectId selection actor reason => do
      let _ ← GoldenTx.splitSelection subjectId selection actor reason
  | .restore subjectId eventId actor reason => do
      let _ ← GoldenTx.restoreMerge subjectId eventId actor reason

theorem wp_referenceOp {env : GoldenEnv} {op : ReferenceOp} {db : GoldenDb} (h : AccessInOrder db) :
    (op.program env).wp accessCheck (fun _ d => AccessInOrder d) db := by
  cases op with
  | ingest => exact (Tx.wp_bind _ _ _).mpr (wp_ingest h)
  | erase => exact (Tx.wp_bind _ _ _).mpr (wp_erase h)
  | merge => exact (Tx.wp_bind _ _ _).mpr (wp_mergeTx h)
  | split => exact (Tx.wp_bind _ _ _).mpr (wp_splitSelection h)
  | restore => exact (Tx.wp_bind _ _ _).mpr (wp_restoreMerge h)

/-- The database and the transactions in progress on it. -/
abbrev GoldenWorld := World goldenStore Unit

/-- Every commit finds what its transaction read of subjects and of references
still so. -/
abbrev StandingStep (env : GoldenEnv) : GoldenWorld → Move ReferenceOp → GoldenWorld → Prop :=
  Guarded (World.Step (ReferenceOp.program env)) (CommitsOn accessCheck)

theorem accessInOrder_empty : AccessInOrder .empty := ⟨constraints_empty, fun s hs => by cases hs⟩

/-- **The access state follows the references** in every run of transactions that
commit on what they read. -/
theorem access_follows_references {env : GoldenEnv} {moves : List (Move ReferenceOp)}
    {w : GoldenWorld} (hrun : Run (StandingStep env) (World.quiet .empty) moves w) :
    ∀ s ∈ w.db.subjects, s.resolutionStatus ≠ .merged →
      (s.accessState = .active ↔ HasActiveReference w.db s.id) ∧
      (¬ HasActiveReference w.db s.id → s.accessState = .auditRetained) := by
  have hinv := World.invariant_of_run (I := AccessInOrder) (fun _ _ h => wp_referenceOp h) hrun
    (World.onCourse_quiet _) accessInOrder_empty
  intro s hs hlive
  have hright := hinv.2.access s hs not_mem_nil hlive
  refine ⟨hright, fun hnone => ?_⟩
  cases haccess : s.accessState with
  | active => exact absurd (hright.mp haccess) hnone
  | auditRetained => rfl

instance (s : GoldenStmt) (a : s.Ans) (db : GoldenDb) : Decidable (accessStands s a db) := by
  unfold accessStands
  split <;> infer_instance

/-! ### Two erasures at once -/

/-- The erasure of one source's reference. -/
def erasureOf (tuple : SourceTuple) (eventId : String) : ReferenceOp :=
  .erase ⟨tuple, js eventId⟩ anAts 1

def annInT2 : SourceTuple := ⟨js "ATS", js "T2", js "ann"⟩

/-- Two sources that vouch for one address, one after the other. -/
def twoSources : List (Move ReferenceOp) :=
  [.start (.ingest (anchorSnapshot ann "a" ["ann@x.io"]) anAts 0)] ++
    World.advances 0 0 16 ++ [.commit 0] ++
    [.start (.ingest (anchorSnapshot annInT2 "b" ["ann@x.io"]) anAts 0)] ++
    World.advances 0 16 18 ++
    [.commit 0]

/-- Both references are erased, each transaction before the other's commit. -/
def overlappingErasures : List (Move ReferenceOp) :=
  twoSources ++ [.start (erasureOf ann "c"), .start (erasureOf annInT2 "d")] ++
    World.advances 0 0 7 ++ World.advances 1 0 7 ++ [.commit 0, .commit 0]

/-- Both erasures see the other's reference, so the subject stays accessible. -/
theorem access_outlives_references : ∃ w : GoldenWorld,
    Run (World.Step (ReferenceOp.program plainEnv)) (World.quiet .empty) overlappingErasures w ∧
    w.flights = [] ∧ ∃ s ∈ w.db.subjects, s.resolutionStatus ≠ .merged ∧
      s.accessState = .active ∧ ¬ HasActiveReference w.db s.id := by
  obtain ⟨w, hrun, hp⟩ := World.run_of_moves (ReferenceOp.program plainEnv) (World.quiet .empty)
    overlappingErasures (fun w : GoldenWorld => w.flights.isEmpty && w.db.subjects.any fun s =>
      s.resolutionStatus != .merged && s.accessState == .active &&
        w.db.references.all fun r => !(r.subjectId == s.id && r.status == .active))
          (by decide +kernel)
  simp only [Bool.and_eq_true, List.isEmpty_iff, any_eq_true, all_eq_true, bne_iff_ne,
    beq_iff_eq, Bool.not_eq_true', Bool.and_eq_false_iff, beq_eq_false_iff_ne] at hp
  obtain ⟨hquiet, s, hs, ⟨hlive, haccess⟩, hrefs⟩ := hp
  refine ⟨w, hrun, hquiet, s, hs, hlive, haccess, ?_⟩
  rintro ⟨r, hr, hsubject, hactive⟩
  rcases hrefs r hr with hne | hne
  · exact hne hsubject
  · exact hne hactive

/-- One erasure after the other. -/
def erasuresInTurn : List (Move ReferenceOp) :=
  twoSources ++ [.start (erasureOf ann "c")] ++ World.advances 0 0 7 ++ [.commit 0] ++
    [.start (erasureOf annInT2 "d")] ++ World.advances 0 0 8 ++ [.commit 0]

theorem access_follows_references_in_turn : ∃ w : GoldenWorld,
    Run (StandingStep plainEnv) (World.quiet .empty) erasuresInTurn w ∧
    ∃ s ∈ w.db.subjects, s.accessState = .auditRetained := by
  obtain ⟨w, hrun, hp⟩ := World.guardedRun_of_moves (ReferenceOp.program plainEnv) accessCheck
    (World.quiet .empty) erasuresInTurn (fun w : GoldenWorld => w.db.subjects.any fun s =>
      s.resolutionStatus != .merged &&
      w.db.references.all fun r => !(r.subjectId == s.id && r.status == .active))
        (by decide +kernel)
  simp only [Bool.and_eq_true, any_eq_true, all_eq_true, bne_iff_ne,
    Bool.not_eq_true', Bool.and_eq_false_iff, beq_eq_false_iff_ne] at hp
  obtain ⟨s, hs, hlive, hrefs⟩ := hp
  refine ⟨w, hrun, s, hs, (access_follows_references hrun s hs hlive).2 ?_⟩
  rintro ⟨r, hr, hsubject, hactive⟩
  rcases hrefs r hr with hne | hne
  · exact hne hsubject
  · exact hne hactive

end AramoPlatform.Intelligence
