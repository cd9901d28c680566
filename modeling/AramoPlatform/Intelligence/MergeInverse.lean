import AramoPlatform.Intelligence.Resend
import AramoPlatform.Intelligence.RestoredMerge

/-!
# Restoring a merge undoes it

What a merge and its restore leave behind, compared with a history in which the
subject was never merged, and what every merge and split does to the rows.
-/

namespace AramoPlatform.Intelligence

open Js Lib List

/-! ## Rows are carried, not copied -/

def noRows : MovedSet := ⟨[], [], [], [], []⟩

/-- The rows in `moved` go to `intoId`. No row is lost or doubled, a reference takes
along what came from it, and what came from a reference that stays goes only when
it is one of the rows `asked` for by themselves. -/
structure RowsCarried (db : GoldenDb) (asked moved : MovedSet) (intoId : Nat) (db' : GoldenDb) :
    Prop where
  rows : RowsMoved db moved intoId db'
  references : List.Forall₂ (fun y x => x = { y with subjectId := x.subjectId }) db.references
    db'.references
  identifiers : List.Forall₂ (fun y x => x = { y with subjectId := x.subjectId }) db.identifiers
    db'.identifiers
  artifacts : List.Forall₂ (fun y x => x = { y with subjectId := x.subjectId }) db.artifacts
    db'.artifacts
  conflicts : List.Forall₂ (fun y x => x = { y with subjectId := x.subjectId }) db.conflicts
    db'.conflicts
  assertions : List.Forall₂ (fun y x => x = { y with subjectId := x.subjectId }) db.assertions
    db'.assertions
  along : ∀ r ∈ db.references, r.id ∈ moved.referenceIds →
    (∀ a ∈ db.assertions, a.subjectId = r.subjectId → a.sourceReferenceId = some r.id →
      a.id ∈ moved.assertionIds) ∧
    ∀ i ∈ db.identifiers, i.subjectId = r.subjectId → i.sourceReferenceId = some r.id →
      i.id ∈ moved.identifierIds
  alone : ∀ r ∈ db.references, r.id ∉ moved.referenceIds →
    (∀ a ∈ db.assertions, a.subjectId = r.subjectId → a.sourceReferenceId = some r.id →
      a.id ∈ moved.assertionIds → a.id ∈ asked.assertionIds ∧ r.id ∉ asked.referenceIds) ∧
    ∀ i ∈ db.identifiers, i.subjectId = r.subjectId → i.sourceReferenceId = some r.id →
      i.id ∈ moved.identifierIds → i.id ∈ asked.identifierIds ∧ r.id ∉ asked.referenceIds

section Carried

variable {db db' : GoldenDb} {asked picked moved : MovedSet} {subjectId intoId : Nat}

/-- A picked set is of the subject's own rows, and of those asked for. -/
structure Picked (db : GoldenDb) (subjectId : Nat) (asked picked : MovedSet) : Prop where
  references : ∀ id, id ∈ picked.referenceIds ↔
    id ∈ asked.referenceIds ∧ id ∈ (db.referencesOf subjectId).map (·.id)
  assertions : ∀ id, id ∈ picked.assertionIds ↔
    id ∈ asked.assertionIds ∧ id ∈ (db.assertionsOf subjectId).map (·.id)
  identifiers : ∀ id, id ∈ picked.identifierIds ↔
    id ∈ asked.identifierIds ∧ id ∈ (db.identifiersOf subjectId).map (·.id)

theorem mem_ownKeys {α : Type} (T : Owned α) {rows : List α} {next : Nat}
    (hkeyed : Keyed T.key rows next) {c : Nat} {r : α} (hr : r ∈ rows) :
    T.key r ∈ (T.rowsAt c rows).map T.key ↔ T.owner r = c := by
  have hnames := T.names_rowsAt (c := c) hkeyed.nodup r hr
  rwa [contains_iff_mem] at hnames

theorem mem_sourced {α : Type} (T : Owned α) {source : α → Option Nat} {rows : List α}
    {named refs : List Nat} {c rid : Nat} {a : α} (ha : a ∈ rows) (howner : T.owner a = c)
    (hsource : source a = some rid) (hrid : rid ∈ refs) :
    T.key a ∈ uniq (named ++ ((T.rowsAt c rows).filter fun a =>
      (source a).any fun id => refs.contains id).map T.key) := by
  rw [mem_uniq, mem_append]
  refine .inr (mem_map.mpr ⟨a, mem_filter.mpr ⟨T.mem_rowsAt.mpr ⟨ha, howner⟩, ?_⟩, rfl⟩)
  rw [hsource]
  exact contains_iff_mem.mpr hrid

theorem of_mem_sourced {α : Type} (T : Owned α) {source : α →
    Option Nat} {rows : List α} {next : Nat}
    (hkeyed : Keyed T.key rows next) {named refs : List Nat} {c rid : Nat} {a : α} (ha : a ∈ rows)
    (hsource : source a = some rid)
    (h : T.key a ∈ uniq (named ++ ((T.rowsAt c rows).filter fun a =>
      (source a).any fun id => refs.contains id).map T.key)) : T.key a ∈ named ∨ rid ∈ refs := by
  rw [mem_uniq, mem_append] at h
  refine h.imp_right fun hmap => ?_
  obtain ⟨x, hx, hkey⟩ := mem_map.mp hmap
  obtain ⟨hat, hany⟩ := mem_filter.mp hx
  obtain rfl := inj_on_of_nodup_map hkeyed.nodup (T.mem_rowsAt.mp hat).1 ha hkey
  rw [hsource] at hany
  exact contains_iff_mem.mp hany

theorem carried_withSourced (hrows : RowsKeyed db db.nextId) (hpicked :
    Picked db subjectId asked picked)
    (hmoved : RowsMoved db (withSourced db subjectId picked) intoId db') :
    RowsCarried db asked (withSourced db subjectId picked) intoId db' := by
  have hat : ∀ r ∈ db.references, r.id ∈ picked.referenceIds → r.subjectId = subjectId :=
    fun r hr hid => (mem_ownKeys referenceOwners hrows.references hr).mp
      ((hpicked.references _).mp hid).2
  refine ⟨hmoved, ?_, ?_, ?_, ?_, ?_, ?_, ?_⟩
  · exact hmoved.references ▸ referenceOwners.forall₂_repoint _ _
  · exact hmoved.identifiers ▸ identifierOwners.forall₂_repoint _ _
  · exact hmoved.artifacts ▸ artifactOwners.forall₂_repoint _ _
  · exact hmoved.conflicts ▸ conflictOwners.forall₂_repoint _ _
  · exact hmoved.assertions ▸ assertionOwners.forall₂_repoint _ _
  · intro r hr hid
    have hsubject := hat r hr hid
    refine ⟨fun a ha howner hsource => ?_, fun i hi howner hsource => ?_⟩
    · exact mem_sourced assertionOwners ha (howner.trans hsubject) hsource hid
    · exact mem_sourced identifierOwners hi (howner.trans hsubject) hsource hid
  · intro r hr hid
    -- a reference that stays was not asked for, if it is at the subject
    have hnot (hsubject : r.subjectId = subjectId) : r.id ∉ asked.referenceIds := by
      intro hasked
      exact hid ((hpicked.references _).mpr
        ⟨hasked, (mem_ownKeys referenceOwners hrows.references hr).mpr hsubject⟩)
    refine ⟨fun a ha howner hsource hmem => ?_, fun i hi howner hsource hmem => ?_⟩
    · have hnamed :=
        (of_mem_sourced assertionOwners hrows.assertions ha hsource hmem).resolve_right hid
      obtain ⟨hasked, hown⟩ := (hpicked.assertions _).mp hnamed
      have hsubject := (mem_ownKeys assertionOwners hrows.assertions ha).mp hown
      exact ⟨hasked, hnot (howner.symm.trans hsubject)⟩
    · have hnamed :=
        (of_mem_sourced identifierOwners hrows.identifiers hi hsource hmem).resolve_right hid
      obtain ⟨hasked, hown⟩ := (hpicked.identifiers _).mp hnamed
      have hsubject := (mem_ownKeys identifierOwners hrows.identifiers hi).mp hown
      exact ⟨hasked, hnot (howner.symm.trans hsubject)⟩

theorem mem_of_pickOwn {own ids out : List Nat} {label : String}
    (h : pickOwn subjectId own ids label = .ok out) (id : Nat) : id ∈ out ↔
      id ∈ ids ∧ id ∈ own := by
  have hown := mem_pickOwn h
  simp only [pickOwn, bind_eq_ok, Except.ok.injEq] at h
  obtain ⟨-, -, rfl⟩ := h
  rw [mem_uniq]
  exact ⟨fun hid => ⟨hid, hown id (mem_uniq.mpr hid)⟩, And.left⟩

theorem picked_of_selection {selection : MovedSet}
    (h : pickSelection db subjectId selection = .ok moved) :
    ∃ picked, moved = withSourced db subjectId picked ∧ Picked db subjectId selection picked := by
  simp only [pickSelection, bind_eq_ok, Except.ok.injEq] at h
  obtain ⟨refs, hrefs, assertions, hassertions, identifiers, hidentifiers,
    artifacts, -, conflicts, -,
    rfl⟩ := h
  exact ⟨_, rfl, mem_of_pickOwn hrefs, mem_of_pickOwn hassertions, mem_of_pickOwn hidentifiers⟩

theorem picked_of_kept (db : GoldenDb) (subjectId : Nat) (wanted : MovedSet) :
    ∃ picked, keptRows db subjectId wanted = withSourced db subjectId picked ∧
      Picked db subjectId wanted picked := by
  refine ⟨_, rfl, ?_, ?_, ?_⟩
  · exact fun _ => mem_keepOwn
  · exact fun _ => mem_keepOwn
  · exact fun _ => mem_keepOwn

theorem mem_rowsOf {α : Type} (T : Owned α) {rows : List α} {next : Nat}
    (hkeyed : Keyed T.key rows next) {c : Nat} {r : α} (hr : r ∈ rows) :
    T.key r ∈ uniq ((T.rowsAt c rows).map T.key) ↔ T.owner r = c := by
  rw [mem_uniq]
  exact mem_ownKeys T hkeyed hr

variable {out : MergeSplitEvent × GoldenDb}

section

variable (hrows : RowsKeyed db db.nextId)

include hrows

theorem carried_merge {source target : GoldenTalent}
    (h : MergeOf db source target out) :
    RowsCarried db noRows (rowsOf db source.id) target.id out.2 := by
  have href {r : ExternalTalentReference} (hr : r ∈ db.references) :
      r.id ∈ (rowsOf db source.id).referenceIds ↔ r.subjectId = source.id :=
    mem_rowsOf referenceOwners hrows.references hr
  have hassertion {a : Assertion} (ha : a ∈ db.assertions) :
      a.id ∈ (rowsOf db source.id).assertionIds ↔ a.subjectId = source.id :=
    mem_rowsOf assertionOwners hrows.assertions ha
  have hidentifier {i : SubjectIdentifier} (hi : i ∈ db.identifiers) :
      i.id ∈ (rowsOf db source.id).identifierIds ↔ i.subjectId = source.id :=
    mem_rowsOf identifierOwners hrows.identifiers hi
  refine ⟨h.rows, ?_, ?_, ?_, ?_, ?_, ?_, ?_⟩
  · exact h.rows.references ▸ referenceOwners.forall₂_repoint _ _
  · exact h.rows.identifiers ▸ identifierOwners.forall₂_repoint _ _
  · exact h.rows.artifacts ▸ artifactOwners.forall₂_repoint _ _
  · exact h.rows.conflicts ▸ conflictOwners.forall₂_repoint _ _
  · exact h.rows.assertions ▸ assertionOwners.forall₂_repoint _ _
  · intro r hr hid
    have hsubject := (href hr).mp hid
    exact ⟨fun a ha howner _ => (hassertion ha).mpr (howner.trans hsubject),
      fun i hi howner _ => (hidentifier hi).mpr (howner.trans hsubject)⟩
  · intro r hr hid
    refine ⟨fun a ha howner _ hmem => ?_, fun i hi howner _ hmem => ?_⟩
    · exact absurd ((href hr).mpr (howner.symm.trans ((hassertion ha).mp hmem))) hid
    · exact absurd ((href hr).mpr (howner.symm.trans ((hidentifier hi).mp hmem))) hid

theorem carried_split {subject : GoldenTalent} {selection : MovedSet}
    (h : SplitOf db subject moved out)
    (hmoved : pickSelection db subject.id selection = .ok moved) :
    RowsCarried db selection moved db.nextId out.2 := by
  obtain ⟨picked, rfl, hpicked⟩ := picked_of_selection hmoved
  exact carried_withSourced hrows hpicked h.rows

theorem carried_restore {subject original : GoldenTalent}
    {restored : MergeSplitEvent} {merge : MergeMoved}
    (h : RestoreOf db subject original restored merge out) :
    RowsCarried db merge.toMovedSet (keptRows db subject.id merge.toMovedSet)
      original.id out.2 := by
  obtain ⟨picked, hkept, hpicked⟩ := picked_of_kept db subject.id merge.toMovedSet
  have hmoved := h.rows
  rw [hkept] at hmoved ⊢
  exact carried_withSourced hrows hpicked hmoved

end

end Carried

/-! ## The restore against a history without the merge -/

/-- `after` has the subject `A` of `db` back with its rows, and otherwise the rows of `alt`. -/
structure TakenBack (db alt after : GoldenDb) (A B : Nat) : Prop where
  subject : after.subject? A = db.subject? A
  references : after.referencesOf A = db.referencesOf A
  assertions : after.assertionsOf A = db.assertionsOf A
  identifiers : after.identifiersOf A = db.identifiersOf A
  artifacts : after.artifactsOf A = db.artifactsOf A
  conflicts : after.conflictsOf A = db.conflictsOf A
  tables : after.references = alt.references ∧ after.assertions = alt.assertions ∧
    after.identifiers = alt.identifiers ∧ after.artifacts = alt.artifacts ∧
    after.conflicts = alt.conflicts
  access : (after.subject? B).map (·.accessState) = (alt.subject? B).map (·.accessState)
  status : (after.subject? B).map (·.resolutionStatus) = (db.subject? B).map (·.resolutionStatus)

section Inverse

variable {base : GoldenDb} {A B : Nat}

theorem ledger_further {n : Nat} {e : MergeSplitEvent} {x x' : GoldenDb} {ops : List FurtherOp}
    (hrun : Run (FurtherStep B n) x ops x') (he : e ∈ x.mergeSplits) : e ∈ x'.mergeSplits := by
  refine hrun.invariant (I := fun db => e ∈ db.mergeSplits) ?_ he
  intro db op db' hmem hstep
  obtain ⟨out, hout, rfl⟩ := map_eq_ok.mp hstep
  cases op with
  | merge =>
    obtain ⟨_, _, hmerge, -, -⟩ := merge_spec hout
    rw [hmerge.ledger]
    exact mem_append_left _ hmem
  | restore =>
    simp only [further, bind_eq_ok, orThrow_eq_ok] at hout
    obtain ⟨_, -, hout⟩ := hout
    obtain ⟨_, _, _, _, hrestore, -, -⟩ := restore_spec hout
    rw [hrestore.ledger]
    exact mem_append_left _ hmem

/-- A gathering without `A`, reached by a restore, against the one that never had it. -/
theorem takenBack_of_gathered {M N : List Nat} {τ : ResolutionStatus} {after alt : GoldenDb}
    {a b : GoldenTalent} (hb : LiveSubject base b) (hne : a.id ≠ b.id)
    (hafter : Gathered base b.id M b.resolutionStatus after) (halt : Gathered base b.id N τ alt)
    (hMN : ∀ c, c ∈ M ↔ c ∈ N) (hA : a.id ∉ M) : TakenBack base alt after a.id b.id := by
  have hafter' := hafter.congr hMN
  have hrefs : after.references = alt.references := hafter'.references.trans halt.references.symm
  refine ⟨hafter.others _ hA hne, ?_, ?_, ?_, ?_, ?_, ⟨hrefs, ?_, ?_, ?_, ?_⟩, ?_, ?_⟩
  · unfold GoldenDb.referencesOf
    rw [hafter.references]
    exact referenceOwners.rowsAt_gather hA hne
  · unfold GoldenDb.assertionsOf
    rw [hafter.assertions]
    exact assertionOwners.rowsAt_gather hA hne
  · unfold GoldenDb.identifiersOf
    rw [hafter.identifiers]
    exact identifierOwners.rowsAt_gather hA hne
  · unfold GoldenDb.artifactsOf
    rw [hafter.artifacts]
    exact artifactOwners.rowsAt_gather hA hne
  · unfold GoldenDb.conflictsOf
    rw [hafter.conflicts]
    exact conflictOwners.rowsAt_gather hA hne
  · exact hafter'.assertions.trans halt.assertions.symm
  · exact hafter'.identifiers.trans halt.identifiers.symm
  · exact hafter'.artifacts.trans halt.artifacts.symm
  · exact hafter'.conflicts.trans halt.conflicts.symm
  · have haccess : accessStateOf after b.id = accessStateOf alt b.id := by
      refine accessStateOf_congr ?_
      unfold GoldenDb.referencesOf
      rw [hrefs]
    rw [hafter.into, halt.into, hb.found, haccess]
    rfl
  · rw [hafter.into, hb.found]
    rfl

/-- The further merges leave the status of `b` as it is: it is active, or none of the
merged subjects is. -/
def KeepsStatus (db : GoldenDb) (b : GoldenTalent) (ops : List FurtherOp) : Prop :=
  b.resolutionStatus = .active ∨ ∀ s fromId actor reason, .merge fromId actor reason ∈ ops →
    LiveSubject db s → s.id = fromId → s.resolutionStatus ≠ .active

theorem mergedStatus_of_keeps {b s : GoldenTalent} (hlive : b.resolutionStatus ≠ .merged)
    (h : b.resolutionStatus = .active ∨ s.resolutionStatus ≠ .active) :
    mergedStatus s.resolutionStatus b.resolutionStatus = b.resolutionStatus := by
  unfold mergedStatus
  cases hb : b.resolutionStatus with
  | active => rw [if_pos (.inl rfl)]
  | merged => exact absurd hb hlive
  | provisional =>
    rw [if_neg]
    rintro (habsurd | hactive)
    · cases habsurd
    · rw [hb] at h
      exact h.elim ResolutionStatus.noConfusion fun hnot => hnot hactive

/-- The merge of two live subjects always succeeds, and starts the two histories. -/
theorem twin_start (hbase : MergesInOrder base) {a b : GoldenTalent} (ha : LiveSubject base a)
    (hb : LiveSubject base b) (hne : a.id ≠ b.id) (actor reason : JsString)
    {P : ResolutionStatus → Prop} (hP : P b.resolutionStatus) :
    ∃ e merged merge, mergeSubjects base a.id b.id actor reason = .ok (e, merged) ∧
      OfStart base b.id a e merge ∧ merge.intoPriorResolutionStatus = b.resolutionStatus ∧
      e ∈ merged.mergeSplits ∧ Twin base a.id b.id merged.mergeSplits.length
        base.mergeSplits.length P [] merged base := by
  obtain ⟨out, hrun⟩ : ∃ out, mergeSubjects base a.id b.id actor reason = .ok out := by
    unfold mergeSubjects
    rw [require_of_true (decide_eq_true hne), ok_bind,
      liveSubject_eq_ok.mpr ⟨ha.found, ha.live⟩, ok_bind, liveSubject_eq_ok.mpr ⟨hb.found, hb.live⟩]
    exact ⟨_, rfl⟩
  obtain ⟨a', b', hmerge, haid, hbid⟩ := merge_spec hrun
  obtain rfl := ha.eq_of_id hbase.rows hmerge.liveSource.mem haid
  obtain rfl := hb.eq_of_id hbase.rows hmerge.liveTarget.mem hbid
  have hstart := Gathered.start hbase.subjects hb
  obtain ⟨-, -, -, -, hgathered⟩ := hstart.merge hbase.rows hmerge rfl
  obtain ⟨merge, hof, hprior⟩ := ofStart_merge hbase.rows hstart hmerge rfl
  refine ⟨_, _, merge, hrun, hof, hprior, ?_, ⟨_, hgathered⟩, ⟨_, hP, hstart⟩, not_mem_nil, ?_,
    hbase.rows, ?_, Nat.le_refl _, Nat.le_refl _⟩
  · rw [hmerge.ledger]
    exact mem_append_right _ mem_cons_self
  · exact (statements_of_moves (moves_merge hrun)).invariant Statement.rowsKeyed hbase.rows
  · rw [drop_length, drop_length]
    exact .nil

end Inverse

/-- **A restored merge.** In every state that a run reaches: after `a` is merged into
`b` and any further merges into `b` and restores of them, restoring the first merge
gives `a` its states and its rows back and leaves `b` with the rows and the access
state it would have without `a`, and with the status it had before. Only a merge
that moved nothing cannot be restored. This needs that what came from a reference
lies with it, which a split by single rows can break. Every merge and split carries
its rows. -/
theorem restored_merge_is_inverse {env : GoldenEnv} {start db : GoldenDb} {history : List GoldenOp}
    (hstart : Seeded start) (hrun : Run (GoldenStep env) start history db) :
    (∀ a b actor reason, LiveSubject db a → LiveSubject db b → a.id ≠ b.id →
      SourcedTogether db b.id →
      ∃ e merged, mergeSubjects db a.id b.id actor reason = .ok (e, merged) ∧
        ∀ ops before, Run (FurtherStep b.id merged.mergeSplits.length) merged ops before →
          ∃ alt, Run (FurtherStep b.id db.mergeSplits.length) db ops alt ∧
            ∀ actor' reason',
              (HasRows db a.id → ∃ e' after,
                restoreMerge before b.id e.id actor' reason' = .ok (e', after) ∧
                  TakenBack db alt after a.id b.id) ∧
              (¬HasRows db a.id → restoreMerge before b.id e.id actor' reason' =
                .error (mergeRefused "nothing selected to split")) ∧
              (KeepsStatus db b ops →
                (alt.subject? b.id).map (·.resolutionStatus) = some b.resolutionStatus)) ∧
    (∀ fromId intoId actor reason out, mergeSubjects db fromId intoId actor reason = .ok out →
      RowsCarried db noRows (rowsOf db fromId) intoId out.2) ∧
    (∀ subjectId selection actor reason out,
      splitSelection db subjectId selection actor reason = .ok out →
      ∃ moved, out.1.moved = .split moved none ∧ RowsCarried db selection moved db.nextId out.2) ∧
    ∀ subjectId eventId actor reason out, restoreMerge db subjectId eventId actor reason = .ok out →
      ∃ e merge moved, db.mergeSplitEvent? eventId = some e ∧ e.moved = .merge merge ∧
        out.1.moved = .split moved eventId ∧
        RowsCarried db merge.toMovedSet moved e.fromSubjectId out.2 := by
  have hbase := mergesInOrder_of_run hstart hrun
  refine ⟨?_, ?_, ?_, ?_⟩
  · intro a b actor reason ha hb hne htogether
    obtain ⟨e, merged, -, hmerge, -⟩ := twin_start hbase ha hb hne actor reason (P := fun _ => True)
      trivial
    refine ⟨e, merged, hmerge, fun ops before hops => ?_⟩
    obtain ⟨e₀, merged₀, merge, hmerge₀, hof, hprior, he, htwin⟩ := twin_start hbase ha hb hne actor
      reason (P := fun τ => KeepsStatus db b ops → τ = b.resolutionStatus) fun _ => rfl
    rw [hmerge] at hmerge₀
    obtain ⟨rfl, rfl⟩ := Prod.ext_iff.mp (Except.ok.inj hmerge₀)
    obtain ⟨alt, N, halt, htwin'⟩ := htwin.run hbase htogether hb rfl (by
      intro s τ fromId act rsn hmem hs hid hτ hkeeps
      rw [hτ hkeeps]
      exact mergedStatus_of_keeps hb.live (hkeeps.imp_right fun hnone =>
        hnone s fromId act rsn hmem hs hid)) hops
    obtain ⟨σ, hmain⟩ := htwin'.main
    obtain ⟨τ, hτ, hgathered⟩ := htwin'.alt
    have hfound := find_event htwin'.keyedMain.mergeSplits (ledger_further hops he)
    refine ⟨alt, halt, fun actor' reason' => ?_⟩
    obtain ⟨hruns, hrefused⟩ := hmain.restoreMerge_eq htogether hb rfl hof hfound mem_cons_self
      actor' reason'
    refine ⟨fun hrows => ?_, hrefused, fun hkeeps => ?_⟩
    · obtain ⟨⟨e', after⟩, hrestored⟩ := hruns hrows
      obtain ⟨-, hafter, -⟩ := hmain.restored hbase htogether hof hfound hrestored
      rw [hprior] at hafter
      refine ⟨e', after, hrestored, takenBack_of_gathered hb hne hafter hgathered ?_ ?_⟩
      · intro c
        simp only [mem_filter, mem_cons, decide_eq_true_eq]
        constructor
        · rintro ⟨rfl | hc, hca⟩
          · exact absurd rfl hca
          · exact hc
        · intro hc
          exact ⟨.inr hc, fun heq => htwin'.notIn (heq ▸ hc)⟩
      · simp
    · rw [hgathered.into, hb.found, ← hτ hkeeps]
      rfl
  · intro fromId intoId actor reason out hout
    obtain ⟨source, target, hmerge, rfl, rfl⟩ := merge_spec hout
    exact carried_merge hbase.rows hmerge
  · intro subjectId selection actor reason out hout
    obtain ⟨subject, moved, hsplit, rfl, hmoved⟩ := split_spec hout
    exact ⟨moved, hsplit.kind, carried_split hbase.rows hsplit hmoved⟩
  · intro subjectId eventId actor reason out hout
    obtain ⟨subject, original, e, merge, hrestore, rfl, rfl⟩ := restore_spec hout
    refine ⟨e, merge, _, hrestore.found, hrestore.recorded, hrestore.kind, ?_⟩
    rw [hrestore.fromSubject]
    exact carried_restore hbase.rows hrestore

/-! ### On small databases -/

/-- Another talent, of another tenant. -/
def bob : SourceTuple := ⟨js "ATS", js "T2", js "bob"⟩

/-- Two talents with a name each. -/
def twoNames : List GoldenOp :=
  [.ingest (nameSnapshot ann "a") anAts 0, .ingest (nameSnapshot bob "b") anAts 0]

/-- A merge of the two and its restore. -/
theorem restored_merge_of_two_names :
    ∃ db e merged e' after, Run (GoldenStep plainEnv) .empty twoNames db ∧
      mergeSubjects db 0 4 (js "m") (js "r") = .ok (e, merged) ∧
      restoreMerge merged 4 e.id (js "m") (js "r") = .ok (e', after) ∧
      TakenBack db db after 0 4 := by
  obtain ⟨db, hrun, hdb⟩ := goldenRun_of_exec plainEnv .empty twoNames (fun db =>
    decide (db.subject? 0 = some ⟨0, .provisional, .active, none⟩) &&
      decide (db.subject? 4 = some ⟨4, .provisional, .active, none⟩) &&
      (rowsOf db 0).isEmpty == false &&
      db.assertions.all (fun a => db.references.all fun r =>
        a.sourceReferenceId != some r.id || a.subjectId == r.subjectId) &&
      db.identifiers.isEmpty) (by decide +kernel)
  simp only [Bool.and_eq_true, decide_eq_true_eq, beq_iff_eq, all_eq_true,
    List.isEmpty_iff] at hdb
  obtain ⟨⟨⟨⟨ha, hb⟩, hrows⟩, hassertions⟩, hidentifiers⟩ := hdb
  have htogether : SourcedTogether db 4 := by
    refine ⟨?_, ?_⟩
    · intro a ha r hr hsource _
      have hor := hassertions a ha r hr
      rw [hsource] at hor
      simpa using hor
    · intro i hi
      rw [hidentifiers] at hi
      cases hi
  have hseed : Seeded .empty := ⟨rfl, nodup_nil, fun _ hx => by cases hx⟩
  obtain ⟨hinverse, -⟩ := restored_merge_is_inverse hseed hrun
  obtain ⟨e, merged, hmerge, hafter⟩ := hinverse ⟨0, .provisional, .active, none⟩
    ⟨4, .provisional, .active, none⟩ (js "m") (js "r") ⟨ha, by decide⟩ ⟨hb, by decide⟩ (by decide)
    htogether
  obtain ⟨alt, halt, hrestore⟩ := hafter [] merged (.nil merged)
  cases halt
  obtain ⟨hruns, -, -⟩ := hrestore (js "m") (js "r")
  obtain ⟨e', after, hrestored, htaken⟩ := hruns hrows
  exact ⟨db, e, merged, e', after, hrun, hmerge, hrestored, htaken⟩

/-- The first talent's rows are split off, all of them. -/
def emptied : List GoldenOp :=
  twoNames ++ [.split 0 ⟨[1], [2], [], [], []⟩ (js "m") (js "r")]

/-- Three talents, two of them with a second verified source. -/
def twoActive : List GoldenOp :=
  [.ingest (anchorSnapshot ann "a" ["ann@x.io"]) anAts 0,
    .ingest (anchorSnapshot ⟨js "ATS", js "T2", js "ann"⟩ "a2" ["ann@x.io"]) anAts 0,
    .ingest (anchorSnapshot ⟨js "ATS", js "T3", js "cat"⟩ "c" ["cat@x.io"]) anAts 0,
    .ingest (anchorSnapshot ⟨js "ATS", js "T4", js "cat"⟩ "c2" ["cat@x.io"]) anAts 0,
    .ingest (anchorSnapshot ⟨js "ATS", js "T5", js "bob"⟩ "b" ["bob@x.io"]) anAts 0]

/-- A name is split off without its reference. -/
def nameAlone : List GoldenOp :=
  [.ingest (nameSnapshot ann "a") anAts 0,
    .split 0 ⟨[], [2], [], [], []⟩ (js "m") (js "r")]

/-- A merge of a subject without rows is not restored; a merge restored before a later
one leaves the status of before both; a split moves an assertion and leaves its
reference, and a later restore brings back an assertion that was not there. -/
theorem restored_merge_is_not_exact :
    (∃ db e merged, Run (GoldenStep plainEnv) .empty emptied db ∧
      mergeSubjects db 0 4 (js "m") (js "r") = .ok (e, merged) ∧
      (restoreMerge merged 4 e.id (js "m") (js "r")).toOption.isNone = true) ∧
    (∃ db after alt, Run (GoldenStep plainEnv) .empty twoActive db ∧
      Run (GoldenStep plainEnv) db [.merge 0 10 (js "m") (js "r"), .merge 5 10 (js "m") (js "r"),
        .restore 10 13 (js "m") (js "r")] after ∧
      Run (GoldenStep plainEnv) db [.merge 5 10 (js "m") (js "r")] alt ∧
      (after.subject? 10).map (·.resolutionStatus) = some .provisional ∧
      (alt.subject? 10).map (·.resolutionStatus) = some .active) ∧
    ∃ db after, Run (GoldenStep plainEnv) .empty nameAlone db ∧
      Run (GoldenStep plainEnv) db [.merge 0 4 (js "m") (js "r"), .restore 4 7 (js "m") (js "r")]
        after ∧
      db.references.map (fun r => (r.id, r.subjectId)) = [(1, 0)] ∧
      db.assertions.map (fun a => (a.id, a.sourceReferenceId, a.subjectId)) = [(2, some 1, 4)] ∧
      (after.assertionsOf 0).map (·.id) = [2] := by
  refine ⟨?_, ?_, ?_⟩
  · obtain ⟨db, hrun, hdb⟩ := goldenRun_of_exec plainEnv .empty emptied (fun db =>
      (mergeSubjects db 0 4 (js "m") (js "r")).toOption.any fun out =>
        (restoreMerge out.2 4 out.1.id (js "m") (js "r")).toOption.isNone) (by decide +kernel)
    cases hmerge : mergeSubjects db 0 4 (js "m") (js "r") with
    | error e =>
      rw [hmerge] at hdb
      cases hdb
    | ok out =>
      rw [hmerge] at hdb
      exact ⟨db, out.1, out.2, hrun, hmerge, hdb⟩
  · obtain ⟨db, hrun, hdb⟩ := goldenRun_of_exec plainEnv .empty twoActive (fun db =>
      (exec (goldenNext plainEnv) db [.merge 0 10 (js "m") (js "r"),
        .merge 5 10 (js "m") (js "r"), .restore 10 13 (js "m") (js "r")]).any
          (fun (after : GoldenDb) =>
          decide ((after.subject? 10).map (·.resolutionStatus) = some .provisional)) &&
        (exec (goldenNext plainEnv) db [.merge 5 10 (js "m") (js "r")]).any fun (alt : GoldenDb) =>
          decide ((alt.subject? 10).map (·.resolutionStatus) = some .active)) (by decide +kernel)
    obtain ⟨hafter, halt⟩ := Bool.and_eq_true_iff.mp hdb
    obtain ⟨after, hrun', hstatus⟩ := goldenRun_of_exec plainEnv db _ _ hafter
    obtain ⟨alt, hrun'', hstatus'⟩ := goldenRun_of_exec plainEnv db _ _ halt
    exact ⟨db, after, alt, hrun, hrun', hrun'', of_decide_eq_true hstatus,
      of_decide_eq_true hstatus'⟩
  · obtain ⟨db, hrun, hdb⟩ := goldenRun_of_exec plainEnv .empty nameAlone (fun db =>
      decide (db.references.map (fun r => (r.id, r.subjectId)) = [(1, 0)]) &&
        decide (db.assertions.map (fun a => (a.id, a.sourceReferenceId, a.subjectId)) =
          [(2, some 1, 4)]) &&
        (exec (goldenNext plainEnv) db [.merge 0 4 (js "m") (js "r"),
          .restore 4 7 (js "m") (js "r")]).any fun (after : GoldenDb) =>
            decide ((after.assertionsOf 0).map (·.id) = [2])) (by decide +kernel)
    obtain ⟨htables, hafter⟩ := Bool.and_eq_true_iff.mp hdb
    obtain ⟨hrefs, hassertions⟩ := Bool.and_eq_true_iff.mp htables
    obtain ⟨after, hrun', hrows⟩ := goldenRun_of_exec plainEnv db _ _ hafter
    exact ⟨db, after, hrun, hrun', of_decide_eq_true hrefs, of_decide_eq_true hassertions,
      of_decide_eq_true hrows⟩

end AramoPlatform.Intelligence
