import AramoPlatform.Intelligence.MergeInverse

/-!
# Identifiers belong to live subjects

A merge takes every identifier of the subject that it merges away along, a
resolution and a confirmation write under a survivor, and a restore brings back
the subject that it gives rows to. So the subject of an identifier row is never
merged, and following its merge chain ends where it starts.
-/

namespace AramoPlatform.Intelligence

open Js Lib List

def SubjectLive (db : GoldenDb) (x : Nat) : Prop := ∃ s, LiveSubject db s ∧ s.id = x

def RowsLive (db : GoldenDb) : Prop := ∀ i ∈ db.identifiers, SubjectLive db i.subjectId

section Live

variable {db db' : GoldenDb}

theorem LiveSubject.survives {s : GoldenTalent} (h : LiveSubject db s) :
    survivingSubject db s.id = .ok s :=
  followMerges_succ.mpr ⟨s, h.found, .inr ⟨fun hm => h.live hm.1, rfl⟩⟩

theorem liveSubject_of_survivor (hsubjects : SubjectsInOrder db) {x : Nat} {s : GoldenTalent}
    (h : survivingSubject db x = .ok s) : LiveSubject db s :=
  ⟨(survivor_of_followMerges h).1, (hsubjects.live_of_survivor h).2⟩

theorem LiveSubject.congr (h : db'.subjects = db.subjects) {s : GoldenTalent}
    (hs : LiveSubject db s) : LiveSubject db' s := by
  refine ⟨?_, hs.live⟩
  rw [GoldenDb.subject?, h]
  exact hs.found

theorem SubjectLive.congr (h : db'.subjects = db.subjects) {x : Nat} (hx : SubjectLive db x) :
    SubjectLive db' x := by
  obtain ⟨s, hs, hid⟩ := hx
  exact ⟨s, hs.congr h, hid⟩

/-- An update of a subject leaves the other subjects live, and the one that it
leaves live. -/
theorem subjectLive_rewritten {id : Nat} {f : GoldenTalent → GoldenTalent}
    (hsubjects : db'.subjects = rewritten id f db.subjects) (hf : ∀ s, (f s).id = s.id) {x : Nat}
    (hlive : x = id → ∀ s, db.subject? x = some s → (f s).resolutionStatus ≠ .merged)
    (hx : SubjectLive db x ∨ x = id ∧ (db.subject? x).isSome = true) : SubjectLive db' x := by
  have hfind : db'.subject? x =
      if x = id then (db.subject? x).map f else db.subject? x := by
    rw [GoldenDb.subject?, hsubjects]
    exact find?_rewritten id f hf db.subjects x
  by_cases hid : x = id
  · obtain ⟨s, hs⟩ : ∃ s, db.subject? x = some s := by
      rcases hx with ⟨s, hs, rfl⟩ | ⟨-, hsome⟩
      · exact ⟨s, hs.found⟩
      · exact Option.isSome_iff_exists.mp hsome
    rw [if_pos hid, hs] at hfind
    have hfid : (f s).id = x := (hf s).trans (mem_of_subject? hs).2
    exact ⟨f s, ⟨by rw [hfid]; exact hfind, hlive hid s hs⟩, hfid⟩
  · rcases hx with ⟨s, hs, rfl⟩ | ⟨heq, -⟩
    · rw [if_neg hid] at hfind
      exact ⟨s, ⟨hfind.trans hs.found, hs.live⟩, rfl⟩
    · exact absurd heq hid

theorem subjectLive_keepsMerge {id : Nat} {f : GoldenTalent → GoldenTalent} (hf : KeepsMerge f)
    (hsubjects : db'.subjects = rewritten id f db.subjects) {x : Nat} (hx : SubjectLive db x) :
    SubjectLive db' x := by
  obtain ⟨s, hs, rfl⟩ := hx
  refine subjectLive_rewritten hsubjects hf.id ?_ (.inl ⟨s, hs, rfl⟩)
  intro _ t ht hmerged
  rw [hs.found] at ht
  obtain rfl := Option.some.inj ht
  exact hs.live ((hf.merged s).mp hmerged)

/-- Rows that come from rows of the table before, or are under a live subject. -/
theorem RowsLive.of_sources (h : RowsLive db) (hlive : ∀ x, SubjectLive db x → SubjectLive db' x)
    (hrows : ∀ i ∈ db'.identifiers, (∃ j ∈ db.identifiers, j.subjectId = i.subjectId) ∨
      SubjectLive db' i.subjectId) : RowsLive db' := by
  intro i hi
  rcases hrows i hi with ⟨j, hj, heq⟩ | hnew
  · rw [← heq]
    exact hlive _ (h j hj)
  · exact hnew

theorem RowsLive.congr (h : RowsLive db) (hs : db'.subjects = db.subjects)
    (hi : db'.identifiers = db.identifiers) : RowsLive db' := by
  refine h.of_sources (fun _ => .congr hs) fun i hmem => .inl ⟨i, ?_, rfl⟩
  rwa [← hi]

end Live

/-! ## Ingest and erasure -/

section Ingest

variable {host : Host} {db : GoldenDb}

theorem subjectLive_placed (host : Host) (hrows : RowsKeyed db db.nextId)
    (hsubjects : SubjectsInOrder db)
    {input : ResolutionInput} {facts : ResolutionFacts} (hfacts :
      gatherFacts db input = .ok facts) :
    (∀ x, SubjectLive db x →
        SubjectLive (placeSubject db (decideResolution host facts)).2 x) ∧
      SubjectLive (placeSubject db (decideResolution host facts)).2
        (placeSubject db (decideResolution host facts)).1 := by
  have hdecision : ∀ id, (decideResolution host facts).subjectId = some id →
      ∃ x s, survivingSubject db x = .ok s ∧ s.id = id := fun _ => survivor_of_decision hfacts
  unfold placeSubject
  cases hid : (decideResolution host facts).subjectId with
  | none =>
    have hnew := survivor_createSubject hrows.subjects .provisional ResolutionStatus.noConfusion
    refine ⟨fun x hx => ?_, _, ⟨(survivor_of_followMerges hnew).1, ResolutionStatus.noConfusion⟩,
      rfl⟩
    obtain ⟨s, hs, rfl⟩ := hx
    have hstays : survivingSubject (db.createSubject .provisional) s.id = .ok s :=
      followMerges_createSubject hs.survives
    exact ⟨s, ⟨(survivor_of_followMerges hstays).1, hs.live⟩, rfl⟩
  | some id =>
    have hkeep : ∀ x, SubjectLive db x → SubjectLive (db.updateSubject id fun s =>
        { s with
          resolutionStatus :=
            if (decideResolution host facts).linkedByVerifiedAnchor &&
              s.resolutionStatus == .provisional then .active else s.resolutionStatus
          accessState := .active }) x :=
      fun x hx => subjectLive_keepsMerge (placeSubject_keepsMerge _) rfl hx
    obtain ⟨x, s, hs, hsid⟩ := hdecision id hid
    exact ⟨hkeep, hkeep id ⟨s, liveSubject_of_survivor hsubjects hs, hsid⟩⟩

/-- Every row is under the subject of a row before, or under one subject. -/
def UnderOr (subjectId : Nat) (db db' : GoldenDb) : Prop :=
  ∀ i ∈ db'.identifiers, (∃ j ∈ db.identifiers, j.subjectId = i.subjectId) ∨ i.subjectId = subjectId

theorem UnderOr.refl (subjectId : Nat) (db : GoldenDb) : UnderOr subjectId db db :=
  fun i hi => .inl ⟨i, hi, rfl⟩

theorem UnderOr.trans {subjectId : Nat} {a b c : GoldenDb} (h : UnderOr subjectId a b)
    (h' : UnderOr subjectId b c) : UnderOr subjectId a c := by
  intro i hi
  rcases h' i hi with ⟨j, hj, hji⟩ | hsubject
  · rw [← hji]
    exact h j hj
  · exact .inr hsubject

theorem UnderOr.foldl {α : Type} {subjectId : Nat} {f : Bool × GoldenDb → α → Bool × GoldenDb}
    (hf : ∀ acc a, UnderOr subjectId acc.2 (f acc a).2) (l : List α) (acc : Bool × GoldenDb) :
    UnderOr subjectId acc.2 (l.foldl f acc).2 := by
  induction l generalizing acc with
  | nil => exact .refl subjectId acc.2
  | cons a rest ih => exact (hf acc a).trans (ih (f acc a))

theorem underOr_updateIdentifier {subjectId id : Nat} {f : SubjectIdentifier → SubjectIdentifier}
    (hf : ∀ i, (f i).subjectId = i.subjectId ∨ (f i).subjectId = subjectId) (db : GoldenDb) :
    UnderOr subjectId db (db.updateIdentifier id f) := by
  intro i hi
  rcases of_mem_updateWhere hi with ⟨hmem, -⟩ | ⟨j, hmem, -, rfl⟩
  · exact .inl ⟨i, hmem, rfl⟩
  · exact (hf j).imp_left fun heq => ⟨j, hmem, heq.symm⟩

theorem underOr_createIdentifier {subjectId : Nat} {row : SubjectIdentifier}
    (hrow : row.subjectId = subjectId) (db : GoldenDb) :
    UnderOr subjectId db (db.createIdentifier row) := by
  intro i hi
  rcases (mem_append.mp hi).imp_right mem_singleton.mp with hold | rfl
  · exact .inl ⟨i, hold, rfl⟩
  · exact .inr hrow

theorem underOr_recordIdentifiers (db : GoldenDb) (subjectId referenceId now : Nat)
    (ids : List ResolutionIdentifier) :
    UnderOr subjectId db (recordIdentifiers db subjectId referenceId now ids).2 := by
  refine UnderOr.trans (UnderOr.foldl ?_ ids (false, db)) (UnderOr.foldl ?_ _ _)
  · intro acc id
    unfold recordIdentifier
    split
    · refine underOr_createIdentifier ?_ _
      unfold newIdentifier
      dsimp only
      split <;> rfl
    · refine underOr_updateIdentifier (fun i => .inr ?_) _
      unfold refreshIdentifier
      dsimp only
      split
      · rfl
      · split <;> rfl
  · intro acc row
    refine underOr_updateIdentifier ?_ _
    exact fun _ => .inl rfl

theorem rowsLive_ingest (hrows : RowsKeyed db db.nextId) (hsubjects : SubjectsInOrder db)
    (h : RowsLive db) {tokenKey : Option JsString} {req : TalentIngestRequest}
    {principal : IngestPrincipal} {now : Nat} {out : TalentIngestResponse × GoldenDb}
    (hout : ingest host tokenKey db req principal now = .ok out) : RowsLive out.2 := by
  obtain ⟨-, input, -, ⟨_, _, -, -, -, rfl⟩ | ⟨-, hout⟩⟩ := ingest_eq_ok.mp hout
  · exact h
  · simp only [applySnapshot, resolve, bind_eq_ok, Except.ok.injEq] at hout
    obtain ⟨_, ⟨facts, hfacts, rfl⟩, rfl⟩ := hout
    have hfinish : Statements [.assertions, .assertionEvents, .assertionLinks, .inbox]
        (applyDecision host db input now facts).2 (finishSnapshot host
          (applyDecision host db input now facts).2 req principal
          (applyDecision host db input now facts).1).2 := statements_finishSnapshot req principal _
    suffices happlied : RowsLive (applyDecision host db input now facts).2 from
      happlied.congr (hfinish.frame (t := .subjects) (by decide))
        (hfinish.frame (t := .identifiers) (by decide))
    obtain ⟨hkept, hplaced⟩ := subjectLive_placed host hrows hsubjects hfacts
    unfold applyDecision
    dsimp only
    have hidentifiers := (frame_placeSubject (decideResolution host facts) db).2.1
    generalize placeSubject db (decideResolution host facts) =
      subject at hkept hplaced hidentifiers ⊢
    obtain ⟨hs₂, hi₂, -, -⟩ :=
      frame_placeReference subject.1 subject.2 facts.existingReference input
    generalize placeReference subject.2 facts.existingReference input subject.1 = reference
      at hs₂ hi₂ ⊢
    obtain ⟨hs₃, -, hi₃, -⟩ := openConflicts_frame reference.2 subject.1
      (decideResolution host facts).conflicts
    generalize openConflicts reference.2 subject.1 _ = conflicts at hs₃ hi₃ ⊢
    have hrest : (recordIdentifiers conflicts.2 subject.1 reference.1 now
        (dedupeIdentifiers input.identifiers)).2.subjects = conflicts.2.subjects :=
      (statements_recordIdentifiers conflicts.2 subject.1 reference.1 now _).frame
        (t := .subjects) (by decide)
    have hlive : ∀ x, SubjectLive subject.2 x → SubjectLive (recordIdentifiers conflicts.2 subject.1
        reference.1 now (dedupeIdentifiers input.identifiers)).2 x :=
      fun x hx => hx.congr (hrest.trans (hs₃.trans hs₂))
    refine h.of_sources (fun x hx => hlive x (hkept x hx)) fun i hi => ?_
    rcases underOr_recordIdentifiers conflicts.2 subject.1 reference.1 now _ i hi with hold | hnew
    · rw [hi₃, hi₂, hidentifiers] at hold
      exact .inl hold
    · exact .inr (hnew ▸ hlive _ hplaced)

theorem rowsLive_erase (h : RowsLive db) {req : TalentErasedRequest} {principal : IngestPrincipal}
    {now : Nat} {out : TalentErasedResponse × GoldenDb} (hout :
      erase db req principal now = .ok out) :
    RowsLive out.2 := by
  have hidentifiers := (statements_erase hout).frame (t := .identifiers) (by decide)
  refine h.of_sources (fun x hx => ?_) fun i hi => .inl ⟨i, by rwa [← hidentifiers], rfl⟩
  rcases erase_cases hout with hdb | ⟨row, hdb | ⟨ref, db₁, subject, -, hdb₁, -, hdb⟩⟩
  · rwa [hdb]
  · refine hx.congr ?_
    rw [hdb]
    rfl
  · have hsubjects : db₁.subjects = db.subjects := by
      rcases hdb₁ with rfl | rfl <;> rfl
    have hkeeps : KeepsMerge fun s : GoldenTalent =>
        { s with accessState := accessStateOf db₁ subject.id } :=
      ⟨fun _ => rfl, fun _ => Iff.rfl, fun _ => rfl⟩
    have hwritten : out.2.subjects = rewritten subject.id
        (fun s => { s with accessState := accessStateOf db₁ subject.id }) db₁.subjects := by
      rw [hdb]
      rfl
    exact subjectLive_keepsMerge hkeeps hwritten (hx.congr hsubjects)

end Ingest

/-! ## Confirmation -/

section Confirm

variable {host : Host} {db db' : GoldenDb} {id : Nat} {code : JsString} {now : Nat}

section

variable (hsubjects : SubjectsInOrder db)

include hsubjects

theorem survivors_live {rows : List SubjectIdentifier}
    {found : List Nat} (h : survivors db rows = .ok found) : ∀ x ∈ found, SubjectLive db x := by
  induction rows generalizing found with
  | nil =>
    obtain rfl := Except.ok.inj h
    intro x hx
    cases hx
  | cons row rest ih =>
    simp only [survivors, bind_eq_ok, Except.ok.injEq] at h
    obtain ⟨s, hs, others, hothers, rfl⟩ := h
    have hlive := liveSubject_of_survivor hsubjects hs
    rw [if_neg hlive.live]
    intro x hx
    rcases mem_cons.mp hx with rfl | hx
    · exact ⟨s, hlive, rfl⟩
    · exact ih hothers x hx

theorem confirmSubject_live {req : VerificationRequest}
    {subjectId : Nat} (h : confirmSubject db req = .ok (some subjectId)) :
    SubjectLive db subjectId := by
  unfold confirmSubject at h
  split at h
  · simp only [bind_eq_ok, Except.ok.injEq, Option.some.injEq] at h
    obtain ⟨s, hs, rfl⟩ := h
    exact ⟨s, liveSubject_of_survivor hsubjects hs, rfl⟩
  · simp only [uniqueSubjectHolding, bind_eq_ok, Except.ok.injEq] at h
    obtain ⟨found, hfound, hone⟩ := h
    split at hone
    · rename_i x hdedup
      obtain rfl := Option.some.inj hone
      refine survivors_live hsubjects hfound _ (mem_dedup.mp ?_)
      rw [hdedup]
      exact mem_cons_self
    · cases hone

theorem rowsLive_confirm (h : RowsLive db) {tx : ConfirmTx}
    (hout : confirmVerification host db id code now = .ok (tx, db')) : RowsLive db' := by
  have hsame : db'.subjects = db.subjects :=
    (statements_confirm hout).frame (t := .subjects) (by simp [confirmTables])
  rcases confirm_cases hout with ⟨-, hrefused⟩ | ⟨req, subject, -, hsubject, hbind⟩
  · exact h.congr hsame (hrefused.frame (t := .identifiers) (by decide))
  · rcases (bindSubject_spec hbind).2 with hi | ⟨subjectId, rfl, hi⟩
    · exact h.congr hsame hi
    · refine h.of_sources (fun x hx => hx.congr hsame) fun i hmem => ?_
      rw [hi] at hmem
      rcases (mem_append.mp hmem).imp_right mem_singleton.mp with hold | rfl
      · exact .inl ⟨i, hold, rfl⟩
      · exact .inr ((confirmSubject_live hsubjects hsubject).congr hsame)

end

end Confirm

/-! ## Merge, split and restore -/

section Move

variable {db : GoldenDb} {out : MergeSplitEvent × GoldenDb}

theorem RowsMoved.identifier_cases {db' : GoldenDb} {moved : MovedSet} {intoId : Nat}
    (h : RowsMoved db moved intoId db') {i : SubjectIdentifier} (hi : i ∈ db'.identifiers) :
    i ∈ db.identifiers ∧ moved.identifierIds.contains i.id = false ∨ i.subjectId = intoId := by
  rw [h.identifiers] at hi
  rcases of_mem_updateWhere hi with ⟨hmem, hnot⟩ | ⟨j, -, -, rfl⟩
  · exact .inl ⟨hmem, hnot⟩
  · exact .inr rfl

theorem subjectLive_merge {source target : GoldenTalent} (hmerge : MergeOf db source target out)
    {x : Nat} (hx : SubjectLive db x) (hne : x ≠ source.id) : SubjectLive out.2 x := by
  have hmid : SubjectLive (db.updateSubject source.id (mergedAway target.id)) x := by
    refine subjectLive_rewritten (f := mergedAway target.id) rfl ?_ (fun heq =>
      absurd heq hne) (.inl hx)
    exact fun _ => rfl
  refine subjectLive_rewritten hmerge.subjects ?_ ?_ (.inl hmid)
  · exact fun _ => rfl
  · exact fun _ _ _ => mergedStatus_live _ _

theorem rowsLive_merge (hrows : RowsKeyed db db.nextId) (h : RowsLive db)
    {source target : GoldenTalent} (hmerge : MergeOf db source target out) : RowsLive out.2 := by
  have htarget : SubjectLive out.2 target.id :=
    subjectLive_merge hmerge ⟨target, hmerge.liveTarget, rfl⟩ hmerge.ne.symm
  intro i hi
  rcases hmerge.rows.identifier_cases hi with ⟨hold, hnot⟩ | hmoved
  · refine subjectLive_merge hmerge (h i hold) fun hsource => ?_
    have hin := ((namesRows_rowsOf hrows source.id).identifiers i hold).mpr hsource
    change (rowsOf db source.id).identifierIds.contains i.id = true at hin
    rw [hnot] at hin
    cases hin
  · rw [hmoved]
    exact htarget

theorem rowsLive_split (hrows : RowsKeyed db db.nextId) (h : RowsLive db) {subject : GoldenTalent}
    {moved : MovedSet} (hsplit : SplitOf db subject moved out) : RowsLive out.2 := by
  have hkeeps : ∀ access : AccessState,
      KeepsMerge fun s : GoldenTalent => { s with accessState := access } :=
    fun _ => ⟨fun _ => rfl, fun _ => Iff.rfl, fun _ => rfl⟩
  have hlive : ∀ x, SubjectLive (db.createSubject .provisional) x → SubjectLive out.2 x := by
    intro x hx
    have hmid : SubjectLive ((db.createSubject .provisional).updateSubject db.nextId fun s =>
        { s with accessState := accessStateOf out.2 db.nextId }) x :=
      subjectLive_keepsMerge (hkeeps _) rfl hx
    exact subjectLive_keepsMerge (hkeeps _) hsplit.subjects hmid
  have hnew := survivor_createSubject hrows.subjects .provisional ResolutionStatus.noConfusion
  intro i hi
  rcases hsplit.rows.identifier_cases hi with ⟨hold, -⟩ | hmoved
  · obtain ⟨s, hs, hid⟩ := h i hold
    have hstays : survivingSubject (db.createSubject .provisional) s.id = .ok s :=
      followMerges_createSubject hs.survives
    exact hlive _ ⟨s, ⟨(survivor_of_followMerges hstays).1, hs.live⟩, hid⟩
  · rw [hmoved]
    exact hlive _ ⟨_, ⟨(survivor_of_followMerges hnew).1, ResolutionStatus.noConfusion⟩, rfl⟩

theorem rowsLive_restore (hpriors : PriorsLive db) (h : RowsLive db)
    {subject original : GoldenTalent} {restored : MergeSplitEvent} {merge : MergeMoved}
    (hrestore : RestoreOf db subject original restored merge out) : RowsLive out.2 := by
  obtain ⟨hfrom, hinto⟩ := hpriors restored (mem_of_find?_eq_some hrestore.found) merge
    hrestore.recorded
  have hlive : ∀ x, SubjectLive db x ∨ x = original.id ∧ (db.subject? x).isSome = true →
      SubjectLive out.2 x := by
    intro x hx
    have hmid : SubjectLive (db.updateSubject original.id fun s =>
        { restated merge.fromPriorResolutionStatus (accessStateOf out.2 original.id) s with
          mergedIntoId := none }) x := by
      refine subjectLive_rewritten (f := fun s =>
        { restated merge.fromPriorResolutionStatus (accessStateOf out.2 original.id) s with
          mergedIntoId := none }) rfl ?_ (fun _ _ _ => hfrom) hx
      exact fun _ => rfl
    refine subjectLive_rewritten hrestore.subjects ?_ ?_ (.inl hmid)
    · exact fun _ => rfl
    · exact fun _ _ _ => hinto
  intro i hi
  rcases hrestore.rows.identifier_cases hi with ⟨hold, -⟩ | hmoved
  · exact hlive _ (.inl (h i hold))
  · rw [hmoved]
    refine hlive _ (.inr ⟨rfl, ?_⟩)
    rw [hrestore.foundOriginal]
    rfl

end Move

/-! ## Over runs -/

theorem rowsLive_of_step {env : GoldenEnv} (db : GoldenDb) (op : GoldenOp) (db' : GoldenDb)
    (hmerges : MergesInOrder db) (h : RowsLive db) (hstep : GoldenStep env db op db') :
    RowsLive db' := by
  have hstatements := statements_of_step hstep
  cases op with
  | ingest =>
    obtain ⟨out, hout, rfl⟩ := map_eq_ok.mp hstep
    exact rowsLive_ingest hmerges.rows hmerges.subjects h hout
  | erase =>
    obtain ⟨out, hout, rfl⟩ := map_eq_ok.mp hstep
    exact rowsLive_erase h hout
  | confirm =>
    obtain ⟨out, hout, rfl⟩ := map_eq_ok.mp hstep
    exact rowsLive_confirm hmerges.subjects h hout
  | merge =>
    obtain ⟨out, hout, rfl⟩ := map_eq_ok.mp hstep
    obtain ⟨source, target, hmerge, -, -⟩ := merge_spec hout
    exact rowsLive_merge hmerges.rows h hmerge
  | split =>
    obtain ⟨out, hout, rfl⟩ := map_eq_ok.mp hstep
    obtain ⟨subject, moved, hsplit, -, -⟩ := split_spec hout
    exact rowsLive_split hmerges.rows h hsplit
  | restore =>
    obtain ⟨out, hout, rfl⟩ := map_eq_ok.mp hstep
    obtain ⟨subject, original, restored, merge, hrestore, -, -⟩ := restore_spec hout
    exact rowsLive_restore hmerges.priors h hrestore
  | createVerification | relink | rebuild | openDispute | respond | withdraw | disputeAction
  | resolveContradiction | entitle =>
    exact h.congr (hstatements.frame (t := .subjects) (by simp [GoldenOp.tables]))
      (hstatements.frame (t := .identifiers) (by simp [GoldenOp.tables]))

theorem rowsLive_of_run {env : GoldenEnv} {start db : GoldenDb} {ops : List GoldenOp}
    (hstart : Seeded start) (hrun : Run (GoldenStep env) start ops db) :
    MergesInOrder db ∧ RowsLive db := by
  refine hrun.invariant (I := fun db => MergesInOrder db ∧ RowsLive db) ?_
    ⟨hstart.mergesInOrder, ?_⟩
  · intro a op b h hstep
    exact ⟨mergesInOrder_of_step a op b h.1 hstep, rowsLive_of_step a op b h.1 h.2 hstep⟩
  · intro i hi
    rw [hstart.rest] at hi
    cases hi

/-- **Identifiers lead to live subjects**, whatever was merged, split, restored
or erased; and whoever a chain of merges leads to is not merged and stands as
its references say. -/
theorem identifiers_stay_live {env : GoldenEnv} {start db : GoldenDb} {ops : List GoldenOp}
    (hstart : Seeded start) (hrun : Run (GoldenStep env) start ops db) :
    (∀ i ∈ db.identifiers, ∃ s, survivingSubject db i.subjectId = .ok s ∧ s.id = i.subjectId) ∧
      ∀ x s, survivingSubject db x = .ok s → s ∈ db.subjects ∧ s.resolutionStatus ≠ .merged ∧
        s.accessState = accessStateOf db s.id := by
  obtain ⟨hmerges, hlive⟩ := rowsLive_of_run hstart hrun
  constructor
  · intro i hi
    obtain ⟨s, hs, hid⟩ := hlive i hi
    exact ⟨s, hid ▸ hs.survives, hid⟩
  · intro x s hs
    obtain ⟨hmem, hne⟩ := hmerges.subjects.live_of_survivor hs
    exact ⟨hmem, hne, (hmerges.subjects s hmem).access hne⟩

/-- Three talents with an address each. Ann is merged into Bob and restored, and Cat is
merged into Bob. -/
def mergedMails : List GoldenOp :=
  [.ingest (anchorSnapshot ann "a" ["ann@x.io"]) anAts 0,
    .ingest (anchorSnapshot ⟨js "ATS", js "T2", js "bob"⟩ "b" ["bob@x.io"]) anAts 0,
    .ingest (anchorSnapshot ⟨js "ATS", js "T3", js "cat"⟩ "c" ["cat@x.io"]) anAts 0,
    .merge 0 3 (js "m") (js "r"), .restore 3 9 (js "m") (js "r"), .merge 6 3 (js "m") (js "r")]

theorem identifiers_stay_live_mergedMails : ∃ db, Run (GoldenStep plainEnv) .empty mergedMails db ∧
    db.identifiers.map (·.subjectId) = [0, 3, 3] ∧
    (∀ i ∈ db.identifiers, ∃ s, survivingSubject db i.subjectId = .ok s ∧ s.id = i.subjectId) ∧
    ∃ s, survivingSubject db 6 = .ok s ∧ s.id = 3 ∧ s.accessState = accessStateOf db 3 := by
  obtain ⟨db, hrun, hdb⟩ := goldenRun_of_exec plainEnv .empty mergedMails (fun db =>
    db.identifiers.map (·.subjectId) == [0, 3, 3] &&
      (survivingSubject db 6).toOption.any fun s => s.id == 3) (by decide +kernel)
  obtain ⟨hrows, hcat⟩ := Bool.and_eq_true_iff.mp hdb
  have hseed : Seeded .empty := ⟨rfl, nodup_nil, fun _ hx => by cases hx⟩
  obtain ⟨hlive, hchains⟩ := identifiers_stay_live hseed hrun
  refine ⟨db, hrun, beq_iff_eq.mp hrows, hlive, ?_⟩
  cases hs : survivingSubject db 6 with
  | error e =>
    rw [hs] at hcat
    cases hcat
  | ok s =>
    rw [hs] at hcat
    have hid : s.id = 3 := eq_of_beq hcat
    exact ⟨s, rfl, hid, hid ▸ (hchains 6 s hs).2.2⟩

/-- **No claim is lost**: every assertion stays with what it says, a retired one
with its status, and ids stay unique. -/
theorem claims_never_lost {env : GoldenEnv} {mid db : GoldenDb} {ops later : List GoldenOp}
    (hrun : Run (GoldenStep env) .empty ops mid) (hlater : Run (GoldenStep env) mid later db) :
    ClaimsKept mid db ∧ (db.assertions.map (·.id)).Nodup :=
  ⟨claimsKept_of_run (goldenInOrder_of_run hrun) hlater,
    (goldenInOrder_of_run (hrun.append hlater)).claims.keyed.nodup⟩

theorem claims_never_lost_twoNames : ∃ mid db,
    Run (GoldenStep plainEnv) .empty twoNames mid ∧
      Run (GoldenStep plainEnv) mid [.merge 0 4 (js "m") (js "r")] db ∧ ClaimsKept mid db := by
  obtain ⟨mid, hrun, hmid⟩ := goldenRun_of_exec plainEnv .empty twoNames (fun mid =>
    (exec (goldenNext plainEnv) mid [.merge 0 4 (js "m") (js "r")]).any fun _ => true)
    (by decide +kernel)
  obtain ⟨db, hlater, -⟩ := goldenRun_of_exec plainEnv mid _ _ hmid
  exact ⟨mid, db, hrun, hlater, (claims_never_lost hrun hlater).1⟩

end AramoPlatform.Intelligence
