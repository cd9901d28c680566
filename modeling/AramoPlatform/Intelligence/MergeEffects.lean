import AramoPlatform.Intelligence.MergeOrder
import AramoPlatform.Lib.Ownership

/-!
# What a merge and a split do

Each of the two repoints the named rows of five tables, adds one event to the
ledger and rewrites the two subjects. From that follow the order of the
subjects and, later, the tables after any number of them.
-/

namespace AramoPlatform.Intelligence

open Js Lib List

/-! ## The tables that a merge repoints -/

def referenceOwners : Owned ExternalTalentReference :=
  ⟨(·.id), (·.subjectId), fun s r => { r with subjectId := s }, fun _ _ => rfl, fun _ _ => rfl,
    fun _ _ _ => rfl, fun _ => rfl⟩

def identifierOwners : Owned SubjectIdentifier :=
  ⟨(·.id), (·.subjectId), fun s i => { i with subjectId := s }, fun _ _ => rfl, fun _ _ => rfl,
    fun _ _ _ => rfl, fun _ => rfl⟩

def artifactOwners : Owned EvidenceArtifact :=
  ⟨(·.id), (·.subjectId), fun s a => { a with subjectId := s }, fun _ _ => rfl, fun _ _ => rfl,
    fun _ _ _ => rfl, fun _ => rfl⟩

def conflictOwners : Owned IdentityConflict :=
  ⟨(·.id), (·.subjectId), fun s c => { c with subjectId := s }, fun _ _ => rfl, fun _ _ => rfl,
    fun _ _ _ => rfl, fun _ => rfl⟩

def assertionOwners : Owned Assertion :=
  ⟨(·.id), (·.subjectId), fun s a => { a with subjectId := s }, fun _ _ => rfl, fun _ _ => rfl,
    fun _ _ _ => rfl, fun _ => rfl⟩

/-- The named rows are at `intoId`, the others where they were. -/
structure RowsMoved (db : GoldenDb) (moved : MovedSet) (intoId : Nat) (db' : GoldenDb) : Prop where
  references : db'.references = referenceOwners.repoint moved.referenceIds intoId db.references
  identifiers : db'.identifiers = identifierOwners.repoint moved.identifierIds intoId db.identifiers
  artifacts : db'.artifacts = artifactOwners.repoint moved.artifactIds intoId db.artifacts
  conflicts : db'.conflicts = conflictOwners.repoint moved.conflictIds intoId db.conflicts
  assertions : db'.assertions = assertionOwners.repoint moved.assertionIds intoId db.assertions

section Move

variable (db : GoldenDb) (moved : MovedSet)

theorem moveRows_rest (intoId : Nat) (actor : JsString) :
    Statements [.assertionEvents]
      (((((db.repointReferences moved.referenceIds intoId).repointIdentifiers moved.identifierIds
        intoId).repointArtifacts moved.artifactIds intoId).repointConflicts moved.conflictIds
          intoId).repointAssertions moved.assertionIds intoId)
      (moveRows db moved intoId actor) :=
  Statements.foldl (fun d _ => .single (.appendEvent d _ _ _ _ _ (by decide))) _ _

theorem moveRows_spec (intoId : Nat) (actor : JsString) :
    RowsMoved db moved intoId (moveRows db moved intoId actor) := by
  have hrest := moveRows_rest db moved intoId actor
  exact ⟨hrest.frame (t := .references) (by decide), hrest.frame (t := .identifiers) (by decide),
    hrest.frame (t := .artifacts) (by decide), hrest.frame (t := .conflicts) (by decide),
    hrest.frame (t := .assertions) (by decide)⟩

theorem moveRows_subjects (intoId : Nat) (actor : JsString) :
    (moveRows db moved intoId actor).subjects = db.subjects :=
  (moveRows_rest db moved intoId actor).frame (t := .subjects) (by decide)

theorem moveRows_mergeSplits (intoId : Nat) (actor : JsString) :
    (moveRows db moved intoId actor).mergeSplits = db.mergeSplits :=
  (moveRows_rest db moved intoId actor).frame (t := .mergeSplits) (by decide)

end Move

variable {db : GoldenDb}

theorem liveSubject_eq_ok {id : Nat} {s : GoldenTalent} :
    liveSubject db id = .ok s ↔ db.subject? id = some s ∧ s.resolutionStatus ≠ .merged := by
  simp only [liveSubject, bind_eq_ok, orThrow_eq_ok, require_eq_ok, decide_eq_true_eq,
    Except.ok.injEq]
  constructor
  · rintro ⟨t, ht, -, hlive, rfl⟩
    exact ⟨ht, hlive⟩
  · rintro ⟨hs, hlive⟩
    exact ⟨s, hs, (), hlive, rfl⟩

/-- A live subject, found by its id. -/
structure LiveSubject (db : GoldenDb) (s : GoldenTalent) : Prop where
  found : db.subject? s.id = some s
  live : s.resolutionStatus ≠ .merged

theorem LiveSubject.of_eq_ok {id : Nat} {s : GoldenTalent}
    (h : liveSubject db id = .ok s) : LiveSubject db s ∧ s.id = id := by
  obtain ⟨hfound, hlive⟩ := liveSubject_eq_ok.mp h
  have hid := (mem_of_subject? hfound).2
  exact ⟨⟨hid ▸ hfound, hlive⟩, hid⟩

theorem LiveSubject.mem {s : GoldenTalent} (h : LiveSubject db s) :
    s ∈ db.subjects :=
  (mem_of_subject? h.found).1

/-- The subjects after an update of one of them. -/
def rewritten (id : Nat) (f : GoldenTalent → GoldenTalent) (subjects : List GoldenTalent) :
    List GoldenTalent :=
  updateWhere (·.id == id) f subjects

/-! ## Merge -/

/-- What a merge writes over the subject that is merged away. -/
def mergedAway (intoId : Nat) (s : GoldenTalent) : GoldenTalent :=
  { s with resolutionStatus := .merged, mergedIntoId := some intoId }

/-- What an operation writes over a subject that stays. -/
def restated (status : ResolutionStatus) (access : AccessState) (s : GoldenTalent) : GoldenTalent :=
  { s with resolutionStatus := status, accessState := access }

/-- The status of the surviving subject. -/
def mergedStatus (source target : ResolutionStatus) : ResolutionStatus :=
  if target = .active ∨ source = .active then .active else .provisional

/-- A merge of two live subjects. -/
structure MergeOf (db : GoldenDb) (source target : GoldenTalent) (out :
    MergeSplitEvent × GoldenDb) :
    Prop where
  ne : source.id ≠ target.id
  liveSource : LiveSubject db source
  liveTarget : LiveSubject db target
  id : out.1.id = db.nextId
  fromSubject : out.1.fromSubjectId = source.id
  intoSubject : out.1.intoSubjectId = target.id
  moved : out.1.moved = .merge ⟨rowsOf db source.id, source.resolutionStatus, source.accessState,
    target.resolutionStatus, target.accessState⟩
  rows : RowsMoved db (rowsOf db source.id) target.id out.2
  ledger : out.2.mergeSplits = db.mergeSplits ++ [out.1]
  subjects : out.2.subjects = rewritten target.id
    (restated (mergedStatus source.resolutionStatus target.resolutionStatus)
      (accessStateOf out.2 target.id))
    (rewritten source.id (mergedAway target.id) db.subjects)

variable {out : MergeSplitEvent × GoldenDb} {actor reason : JsString}

theorem merge_spec {fromId intoId : Nat}
    (h : mergeSubjects db fromId intoId actor reason = .ok out) :
    ∃ source target, MergeOf db source target out ∧ source.id = fromId ∧ target.id = intoId := by
  simp only [mergeSubjects, bind_eq_ok, require_eq_ok, decide_eq_true_eq, Except.ok.injEq] at h
  obtain ⟨-, hne, source, hsource, target, htarget, rfl⟩ := h
  obtain ⟨hs, rfl⟩ := LiveSubject.of_eq_ok hsource
  obtain ⟨ht, rfl⟩ := LiveSubject.of_eq_ok htarget
  refine ⟨source, target, ⟨hne, hs, ht, rfl, rfl, rfl, rfl, ?_, ?_, ?_⟩, rfl, rfl⟩
  · have hmoved := moveRows_spec (db.createMergeSplit (applyMerge db source target
      (rowsOf db source.id) actor reason).1) (rowsOf db source.id) target.id actor
    exact ⟨hmoved.references, hmoved.identifiers, hmoved.artifacts, hmoved.conflicts,
      hmoved.assertions⟩
  · exact moveRows_mergeSplits _ _ _ _
  · refine congrArg (rewritten target.id _) ?_
    exact congrArg (rewritten source.id (mergedAway target.id))
      (moveRows_subjects _ _ _ _)

/-! ## Split -/

/-- A split of selected rows to a new subject. -/
structure SplitOf (db : GoldenDb) (subject : GoldenTalent) (moved : MovedSet)
    (out : MergeSplitEvent × GoldenDb) : Prop where
  liveSubject : LiveSubject db subject
  kind : out.1.moved = .split moved none
  rows : RowsMoved db moved db.nextId out.2
  ledger : out.2.mergeSplits = db.mergeSplits ++ [out.1]
  subjects : out.2.subjects = rewritten subject.id
    (fun s => { s with accessState := accessStateOf out.2 subject.id })
    (rewritten db.nextId (fun s => { s with accessState := accessStateOf out.2 db.nextId })
      (db.subjects ++ [⟨db.nextId, .provisional, .active, none⟩]))

variable {subjectId : Nat}

theorem split_spec {selection : MovedSet}
    (h : splitSelection db subjectId selection actor reason = .ok out) :
    ∃ subject moved, SplitOf db subject moved out ∧ subject.id = subjectId ∧
      pickSelection db subject.id selection = .ok moved := by
  simp only [splitSelection, bind_eq_ok, Except.ok.injEq] at h
  obtain ⟨subject, hsubject, moved, hmoved, -, -, rfl⟩ := h
  obtain ⟨hs, rfl⟩ := LiveSubject.of_eq_ok hsubject
  refine ⟨subject, moved, ⟨hs, rfl, ?_, ?_, ?_⟩, rfl, hmoved⟩
  · have hrows := moveRows_spec ((db.createSubject .provisional).createMergeSplit
      (recordSplit (db.createSubject .provisional) subject.id db.nextId moved none actor reason).1)
      moved db.nextId actor
    exact ⟨hrows.references, hrows.identifiers, hrows.artifacts, hrows.conflicts, hrows.assertions⟩
  · exact moveRows_mergeSplits _ _ _ _
  · refine congrArg (rewritten subject.id _) ?_
    exact congrArg (rewritten db.nextId _) (moveRows_subjects _ _ _ _)

theorem mergeToRestore_eq_ok {subjectId eventId : Nat} {ev : MergeSplitEvent}
    {merge : MergeMoved} : mergeToRestore db subjectId eventId = .ok (ev, merge) ↔
      db.mergeSplitEvent? eventId = some ev ∧ ev.moved = .merge merge ∧
        ev.intoSubjectId = subjectId := by
  unfold mergeToRestore
  cases db.mergeSplitEvent? eventId with
  | none => simp
  | some found =>
    dsimp only
    cases hmoved : found.moved with
    | split moved restores =>
      simp only [reduceCtorEq, Option.some.injEq, false_iff, not_and]
      rintro rfl hmerge
      rw [hmoved] at hmerge
      cases hmerge
    | merge m =>
      simp only [bind_eq_ok, require_eq_ok, decide_eq_true_eq, Except.ok.injEq, Prod.mk.injEq,
        Option.some.injEq]
      constructor
      · rintro ⟨-, hinto, rfl, rfl⟩
        exact ⟨rfl, hmoved, hinto⟩
      · rintro ⟨rfl, hmerge, hinto⟩
        rw [hmoved] at hmerge
        exact ⟨(), hinto, rfl, MergeSplitRecord.merge.inj hmerge⟩

/-- A restore of a merge that was recorded. -/
structure RestoreOf (db : GoldenDb) (subject original : GoldenTalent) (restored : MergeSplitEvent)
    (merge : MergeMoved) (out : MergeSplitEvent × GoldenDb) : Prop where
  liveSubject : LiveSubject db subject
  found : db.mergeSplitEvent? restored.id = some restored
  recorded : restored.moved = .merge merge
  fromSubject : restored.fromSubjectId = original.id
  intoSubject : restored.intoSubjectId = subject.id
  foundOriginal : db.subject? original.id = some original
  mergedInto : original.resolutionStatus = .merged ∧ original.mergedIntoId = some subject.id
  nonempty : (keptRows db subject.id merge.toMovedSet).isEmpty = false
  id : out.1.id = db.nextId
  kind : out.1.moved = .split (keptRows db subject.id merge.toMovedSet) restored.id
  rows : RowsMoved db (keptRows db subject.id merge.toMovedSet) original.id out.2
  ledger : out.2.mergeSplits = db.mergeSplits ++ [out.1]
  subjects : out.2.subjects = rewritten subject.id
    (restated merge.intoPriorResolutionStatus (accessStateOf out.2 subject.id))
    (rewritten original.id
      (fun s => { restated merge.fromPriorResolutionStatus (accessStateOf out.2 original.id) s with
        mergedIntoId := none }) db.subjects)

theorem restore_spec {subjectId eventId : Nat}
    (h : restoreMerge db subjectId eventId actor reason = .ok out) :
    ∃ subject original restored merge, RestoreOf db subject original restored merge out ∧
      subject.id = subjectId ∧ restored.id = eventId := by
  simp only [restoreMerge, bind_eq_ok, orThrow_eq_ok, require_eq_ok, Bool.and_eq_true, beq_iff_eq,
    Bool.not_eq_true', Except.ok.injEq] at h
  obtain ⟨subject, hsubject, ⟨ev, merge⟩, hmerge, original, horiginal, -, hinto, -, hsome, rfl⟩ := h
  obtain ⟨hs, rfl⟩ := LiveSubject.of_eq_ok hsubject
  obtain ⟨hfind, hrecorded, hev⟩ := mergeToRestore_eq_ok.mp hmerge
  have hid : ev.id = eventId := by simpa using find?_some hfind
  have horiginalId := (mem_of_subject? horiginal).2
  subst hid
  refine ⟨subject, original, ev, merge, ⟨hs, hfind, hrecorded, horiginalId.symm, hev, ?_, hinto,
    hsome, rfl, rfl, ?_, ?_, ?_⟩, rfl, rfl⟩
  · rw [horiginalId]
    exact horiginal
  · have hrows := moveRows_spec (db.createMergeSplit (recordSplit db subject.id original.id
      (keptRows db subject.id merge.toMovedSet) (some ev.id) actor reason).1)
      (keptRows db subject.id merge.toMovedSet) original.id actor
    exact ⟨hrows.references, hrows.identifiers, hrows.artifacts, hrows.conflicts, hrows.assertions⟩
  · exact moveRows_mergeSplits _ _ _ _
  · refine congrArg (rewritten subject.id _) ?_
    exact congrArg (rewritten original.id _) (moveRows_subjects _ _ _ _)

/-! ## Which rows move -/

/-- The ids of a set name exactly the rows of a subject. -/
structure NamesRows (db : GoldenDb) (c : Nat) (moved : MovedSet) : Prop where
  references : referenceOwners.Names moved.referenceIds c db.references
  identifiers : identifierOwners.Names moved.identifierIds c db.identifiers
  artifacts : artifactOwners.Names moved.artifactIds c db.artifacts
  conflicts : conflictOwners.Names moved.conflictIds c db.conflicts
  assertions : assertionOwners.Names moved.assertionIds c db.assertions

theorem names_uniq {α : Type} (T : Owned α) {rows : List α} {next : Nat} (h : Keyed T.key rows next)
    (c : Nat) : T.Names (uniq ((T.rowsAt c rows).map T.key)) c rows := by
  intro r hr
  rw [← T.names_rowsAt h.nodup r hr, contains_iff_mem, contains_iff_mem, mem_uniq]

theorem namesRows_rowsOf {next : Nat} (h : RowsKeyed db next) (c : Nat) :
    NamesRows db c (rowsOf db c) :=
  ⟨names_uniq referenceOwners h.references c, names_uniq identifierOwners h.identifiers c,
    names_uniq artifactOwners h.artifacts c, names_uniq conflictOwners h.conflicts c,
    names_uniq assertionOwners h.assertions c⟩

theorem mem_pickOwn {own ids picked : List Nat} {label : String}
    (h : pickOwn subjectId own ids label = .ok picked) : ∀ id ∈ picked, id ∈ own := by
  simp only [pickOwn, bind_eq_ok, require_eq_ok, Except.ok.injEq] at h
  obtain ⟨-, hmissing, rfl⟩ := h
  intro id hid
  by_contra hnot
  have hmem : id ∈ (uniq ids).filter fun id => !own.contains id :=
    mem_filter.mpr ⟨hid, by simpa using hnot⟩
  rw [List.isEmpty_iff.mp hmissing] at hmem
  cases hmem

theorem mem_keepOwn {own ids : List Nat} {id : Nat} : id ∈ keepOwn own ids ↔
    id ∈ ids ∧ id ∈ own := by
  simp [keepOwn]

theorem pickSelection_references {selection moved : MovedSet}
    (h : pickSelection db subjectId selection = .ok moved) :
    ∀ id ∈ moved.referenceIds, id ∈ (db.referencesOf subjectId).map (·.id) := by
  simp only [pickSelection, bind_eq_ok, Except.ok.injEq] at h
  obtain ⟨refs, hrefs, assertions, -, identifiers, -, artifacts, -, conflicts, -, rfl⟩ := h
  exact mem_pickOwn hrefs

theorem keptRows_references {moved : MovedSet} :
    ∀ id ∈ (keptRows db subjectId moved).referenceIds,
      id ∈ (db.referencesOf subjectId).map (·.id) :=
  fun _ hid => (mem_keepOwn.mp hid).2

/-- Where the references of a third subject are when rows of one move to another. -/
theorem RowsMoved.referencesOf {db db' : GoldenDb} {moved : MovedSet} {c intoId t next : Nat}
    (h : RowsMoved db moved intoId db') (hkeyed : Keyed (·.id) db.references next)
    (hown : ∀ id ∈ moved.referenceIds, id ∈ (db.referencesOf c).map (·.id)) (hc : t ≠ c)
    (hinto : t ≠ intoId) : db'.referencesOf t = db.referencesOf t := by
  unfold GoldenDb.referencesOf
  rw [h.references]
  refine referenceOwners.rowsAt_repoint ?_ hinto.symm
  intro r hr hid hsubject
  obtain ⟨r', hmem, hkey⟩ := mem_map.mp (hown r.id (contains_iff_mem.mp hid))
  obtain ⟨hr', hsubject'⟩ := mem_filter.mp hmem
  obtain rfl := inj_on_of_nodup_map hkeyed.nodup hr' hr hkey
  exact hc (hsubject.symm.trans (eq_of_beq hsubject'))

theorem rowsOf_references {c : Nat} :
    ∀ id ∈ (rowsOf db c).referenceIds, id ∈ (db.referencesOf c).map (·.id) :=
  fun _ hid => mem_uniq.mp hid

/-! ## Subjects stay in order -/

/-- A merge event remembers that both subjects were live. -/
def PriorsLive (db : GoldenDb) : Prop := ∀ e ∈ db.mergeSplits, ∀ m, e.moved = .merge m →
  m.fromPriorResolutionStatus ≠ .merged ∧ m.intoPriorResolutionStatus ≠ .merged

section Subjects

variable {db : GoldenDb} {out : MergeSplitEvent × GoldenDb}

theorem mem_rewritten {id : Nat} {f : GoldenTalent → GoldenTalent} {rows : List GoldenTalent}
    {s : GoldenTalent} (h : s ∈ rewritten id f rows) :
    s ∈ rows ∧ s.id ≠ id ∨ ∃ y ∈ rows, y.id = id ∧ s = f y := by
  rcases of_mem_updateWhere h with ⟨hmem, hne⟩ | ⟨y, hmem, hid, rfl⟩
  · exact .inl ⟨hmem, beq_eq_false_iff_ne.mp hne⟩
  · exact .inr ⟨y, hmem, eq_of_beq hid, rfl⟩

theorem LiveSubject.eq_of_id (hrows : RowsKeyed db db.nextId) {s t : GoldenTalent}
    (h : LiveSubject db s) (ht : t ∈ db.subjects) (hid : t.id = s.id) : t = s :=
  inj_on_of_nodup_map hrows.subjects.nodup ht h.mem hid

theorem SubjectsInOrder.unlinked (h : SubjectsInOrder db) {s : GoldenTalent}
    (hs : LiveSubject db s) : s.mergedIntoId = none := by
  cases hinto : s.mergedIntoId with
  | none => rfl
  | some into =>
    have hmerged := (h s hs.mem).link.mpr (by rw [hinto]; rfl)
    exact absurd hmerged hs.live

theorem mergedStatus_live (a b : ResolutionStatus) : mergedStatus a b ≠ .merged := by
  unfold mergedStatus
  split
  · exact ResolutionStatus.noConfusion
  · exact ResolutionStatus.noConfusion

section

variable (hrows : RowsKeyed db db.nextId)

include hrows

theorem subjectsInOrder_merge (h : SubjectsInOrder db)
    {source target : GoldenTalent} (hmerge : MergeOf db source target out) :
    SubjectsInOrder out.2 := by
  intro s hmem
  rw [hmerge.subjects] at hmem
  rcases mem_rewritten hmem with ⟨hmem, hne⟩ | ⟨y, hy, hid, rfl⟩
  · rcases mem_rewritten hmem with ⟨hold, hne'⟩ | ⟨y, -, -, rfl⟩
    · exact (h s hold).congr fun _ => hmerge.rows.referencesOf hrows.references
        rowsOf_references hne' hne
    · exact ⟨⟨fun _ => rfl, fun _ => rfl⟩, fun hlive => absurd rfl hlive⟩
  · -- the surviving subject
    rcases mem_rewritten hy with ⟨hold, -⟩ | ⟨z, -, hzid, rfl⟩
    · obtain rfl := hmerge.liveTarget.eq_of_id hrows hold hid
      refine ⟨⟨fun hm => absurd hm (mergedStatus_live _ _), ?_⟩, fun _ => rfl⟩
      intro hsome
      have hnone := h.unlinked hmerge.liveTarget
      change y.mergedIntoId.isSome = true at hsome
      rw [hnone] at hsome
      cases hsome
    · exact absurd (hzid.symm.trans hid) hmerge.ne

theorem subjectsInOrder_split (h : SubjectsInOrder db)
    {subject : GoldenTalent} {moved : MovedSet} (hsplit : SplitOf db subject moved out)
    (hown : ∀ id ∈ moved.referenceIds, id ∈ (db.referencesOf subject.id).map (·.id)) :
    SubjectsInOrder out.2 := by
  intro s hmem
  rw [hsplit.subjects] at hmem
  have hnew : subject.id ≠ db.nextId := Nat.ne_of_lt (hrows.subjects.lt _ hsplit.liveSubject.mem)
  rcases mem_rewritten hmem with ⟨hmem, hne⟩ | ⟨y, hy, hid, rfl⟩
  · rcases mem_rewritten hmem with ⟨hold, hne'⟩ | ⟨y, hy, hyid, rfl⟩
    · rcases (mem_append.mp hold).imp_right mem_singleton.mp with hold | rfl
      · exact (h s hold).congr fun _ => hsplit.rows.referencesOf hrows.references hown hne hne'
      · exact absurd rfl hne'
    · -- the new subject
      rcases (mem_append.mp hy).imp_right mem_singleton.mp with hold | rfl
      · exact absurd hyid (Nat.ne_of_lt (hrows.subjects.lt y hold))
      · refine ⟨⟨?_, ?_⟩, fun _ => rfl⟩
        · exact ResolutionStatus.noConfusion
        · exact Bool.noConfusion
  · -- the subject that was split
    rcases mem_rewritten hy with ⟨hold, -⟩ | ⟨z, -, hzid, rfl⟩
    · rcases (mem_append.mp hold).imp_right mem_singleton.mp with hold | rfl
      · refine ⟨(h y hold).link, fun _ => ?_⟩
        exact congrArg (accessStateOf out.2) hid.symm
      · exact absurd hid.symm hnew
    · exact absurd (hid.symm.trans hzid) hnew

theorem subjectsInOrder_restore (h : SubjectsInOrder db)
    (hpriors : PriorsLive db) {subject original : GoldenTalent} {restored : MergeSplitEvent}
    {merge : MergeMoved} (hrestore : RestoreOf db subject original restored merge out) :
    SubjectsInOrder out.2 := by
  intro s hmem
  rw [hrestore.subjects] at hmem
  obtain ⟨hfrom, hinto⟩ := hpriors restored (mem_of_find?_eq_some hrestore.found) merge
    hrestore.recorded
  rcases mem_rewritten hmem with ⟨hmem, hne⟩ | ⟨y, hy, hid, rfl⟩
  · rcases mem_rewritten hmem with ⟨hold, hne'⟩ | ⟨y, -, hyid, rfl⟩
    · exact (h s hold).congr fun _ => hrestore.rows.referencesOf hrows.references
        keptRows_references hne hne'
    · refine ⟨⟨fun hm => absurd hm hfrom, Bool.noConfusion⟩, fun _ => ?_⟩
      exact congrArg (accessStateOf out.2) hyid.symm
  · rcases mem_rewritten hy with ⟨hold, -⟩ | ⟨z, -, hzid, rfl⟩
    · obtain rfl := hrestore.liveSubject.eq_of_id hrows hold hid
      refine ⟨⟨fun hm => absurd hm hinto, ?_⟩, fun _ => rfl⟩
      intro hsome
      have hnone := h.unlinked hrestore.liveSubject
      change y.mergedIntoId.isSome = true at hsome
      rw [hnone] at hsome
      cases hsome
    · -- the merged subject is not the live one
      have hsame : original.id = subject.id := hzid.symm.trans hid
      have hfound := hrestore.foundOriginal
      rw [hsame, hrestore.liveSubject.found] at hfound
      obtain rfl := Option.some.inj hfound
      exact absurd hrestore.mergedInto.1 hrestore.liveSubject.live

end

theorem priorsLive_ledger (h : PriorsLive db) {e : MergeSplitEvent}
    (hledger : out.2.mergeSplits = db.mergeSplits ++ [e])
    (he : ∀ m, e.moved = .merge m →
      m.fromPriorResolutionStatus ≠ .merged ∧ m.intoPriorResolutionStatus ≠ .merged) :
    PriorsLive out.2 := by
  intro e' he'
  rw [hledger] at he'
  rcases (mem_append.mp he').imp_right mem_singleton.mp with hold | rfl
  · exact h e' hold
  · exact he

end Subjects

/-- What merges rest on. -/
structure MergesInOrder (db : GoldenDb) : Prop where
  rows : RowsKeyed db db.nextId
  subjects : SubjectsInOrder db
  priors : PriorsLive db

theorem MergesInOrder.frame {db db' : GoldenDb} {tables : List GoldenTable} (h : MergesInOrder db)
    (hrows : RowsKeyed db' db'.nextId) (hstatements : Statements tables db db')
    (hs : .subjects ∉ tables) (hr : .references ∉ tables) (hm : .mergeSplits ∉ tables) :
    MergesInOrder db' := by
  refine ⟨hrows, h.subjects.congr (hstatements.frame hs) (hstatements.frame hr), ?_⟩
  have hledger : db'.mergeSplits = db.mergeSplits := hstatements.frame hm
  unfold PriorsLive
  rw [hledger]
  exact h.priors

theorem mergesInOrder_of_step {env : GoldenEnv} (db : GoldenDb) (op : GoldenOp) (db' : GoldenDb)
    (h : MergesInOrder db) (hstep : GoldenStep env db op db') : MergesInOrder db' := by
  have hrows := rowsKeyed_of_step db op db' h.rows hstep
  have hstatements := statements_of_step hstep
  have hpriors (hm : .mergeSplits ∉ op.tables) : PriorsLive db' := by
    have hledger : db'.mergeSplits = db.mergeSplits := hstatements.frame hm
    unfold PriorsLive
    rw [hledger]
    exact h.priors
  cases op with
  | ingest =>
    obtain ⟨out, hout, rfl⟩ := map_eq_ok.mp hstep
    exact ⟨hrows, subjectsInOrder_ingest h.rows h.subjects hout,
      hpriors (by simp [GoldenOp.tables, ingestTables])⟩
  | erase =>
    obtain ⟨out, hout, rfl⟩ := map_eq_ok.mp hstep
    exact ⟨hrows, subjectsInOrder_erase h.rows h.subjects hout, hpriors (by simp [GoldenOp.tables])⟩
  | merge =>
    obtain ⟨out, hout, rfl⟩ := map_eq_ok.mp hstep
    obtain ⟨source, target, hmerge, -, -⟩ := merge_spec hout
    refine ⟨hrows, subjectsInOrder_merge h.rows h.subjects hmerge,
      priorsLive_ledger h.priors hmerge.ledger ?_⟩
    intro m hm
    rw [hmerge.moved] at hm
    obtain rfl := MergeSplitRecord.merge.inj hm
    exact ⟨hmerge.liveSource.live, hmerge.liveTarget.live⟩
  | split =>
    obtain ⟨out, hout, rfl⟩ := map_eq_ok.mp hstep
    obtain ⟨subject, moved, hsplit, -, hpicked⟩ := split_spec hout
    refine ⟨hrows, subjectsInOrder_split h.rows h.subjects hsplit
      (pickSelection_references hpicked),
      priorsLive_ledger h.priors hsplit.ledger ?_⟩
    intro m hm
    rw [hsplit.kind] at hm
    cases hm
  | restore =>
    obtain ⟨out, hout, rfl⟩ := map_eq_ok.mp hstep
    obtain ⟨subject, original, restored, merge, hrestore, -, -⟩ := restore_spec hout
    refine ⟨hrows, subjectsInOrder_restore h.rows h.subjects h.priors hrestore,
      priorsLive_ledger h.priors hrestore.ledger ?_⟩
    intro m hm
    rw [hrestore.kind] at hm
    cases hm
  | confirm =>
    exact h.frame hrows hstatements (by simp [GoldenOp.tables, confirmTables])
      (by simp [GoldenOp.tables, confirmTables]) (by simp [GoldenOp.tables, confirmTables])
  | createVerification | relink | rebuild | openDispute | respond | withdraw | disputeAction
  | resolveContradiction | entitle =>
    exact h.frame hrows hstatements (by simp [GoldenOp.tables]) (by simp [GoldenOp.tables])
      (by simp [GoldenOp.tables])

/-- The rows that no operation creates: artifacts, what they support, and the policies. -/
structure Seeded (db : GoldenDb) : Prop where
  rest : db = { GoldenDb.empty with
    nextId := db.nextId, artifacts := db.artifacts, supports := db.supports
    policies := db.policies }
  artifacts : Keyed (·.id) db.artifacts db.nextId

theorem Seeded.mergesInOrder (h : Seeded db) : MergesInOrder db := by
  have hkeyed := h.artifacts
  rw [h.rest] at hkeyed ⊢
  refine ⟨⟨?_, ?_, ?_, hkeyed, ?_, ?_, ?_⟩, ?_, ?_⟩
  all_goals simp [GoldenDb.empty, SubjectsInOrder, PriorsLive]
  all_goals exact ⟨nodup_nil, fun _ hx => by cases hx⟩

theorem mergesInOrder_of_run {env : GoldenEnv} {start db : GoldenDb} {ops : List GoldenOp}
    (hstart : Seeded start) (hrun : Run (GoldenStep env) start ops db) : MergesInOrder db :=
  hrun.invariant mergesInOrder_of_step hstart.mergesInOrder

end AramoPlatform.Intelligence
