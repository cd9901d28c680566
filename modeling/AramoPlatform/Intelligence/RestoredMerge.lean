import AramoPlatform.Intelligence.MergeEffects

/-!
# A merge taken back

After a merge into a subject, other subjects may be merged into it and restored
again. At every point the tables are those of the start with the rows of some
subjects gathered at the one that stays. Restoring the first merge takes its
subject out of that gathering, so the tables are those of a history without it.
-/

namespace AramoPlatform.Intelligence

open Js Lib List

/-! ## The tables after merges into one subject -/

/-- The subjects in `M` are merged into `B`, and their rows are there; `B` has the
status `σ`. -/
structure Gathered (base : GoldenDb) (B : Nat) (M : List Nat) (σ : ResolutionStatus)
    (db : GoldenDb) : Prop where
  references : db.references = referenceOwners.gather B M base.references
  identifiers : db.identifiers = identifierOwners.gather B M base.identifiers
  artifacts : db.artifacts = artifactOwners.gather B M base.artifacts
  conflicts : db.conflicts = conflictOwners.gather B M base.conflicts
  assertions : db.assertions = assertionOwners.gather B M base.assertions
  away : ∀ c ∈ M, db.subject? c = (base.subject? c).map (mergedAway B)
  others : ∀ c, c ∉ M → c ≠ B → db.subject? c = base.subject? c
  live : σ ≠ .merged
  into : db.subject? B = (base.subject? B).map (restated σ (accessStateOf db B))

/-- What came from a reference of a subject other than `B` lies with that reference. -/
structure SourcedTogether (db : GoldenDb) (B : Nat) : Prop where
  assertions : ∀ a ∈ db.assertions, ∀ r ∈ db.references, a.sourceReferenceId = some r.id →
    r.subjectId ≠ B → a.subjectId = r.subjectId
  identifiers : ∀ i ∈ db.identifiers, ∀ r ∈ db.references, i.sourceReferenceId = some r.id →
    r.subjectId ≠ B → i.subjectId = r.subjectId

theorem Gathered.congr {base db : GoldenDb} {B : Nat} {M N : List Nat} {σ : ResolutionStatus}
    (h : Gathered base B M σ db) (hMN : ∀ c, c ∈ M ↔ c ∈ N) : Gathered base B N σ db := by
  refine ⟨?_, ?_, ?_, ?_, ?_, ?_, ?_, h.live, h.into⟩
  · rw [h.references, referenceOwners.gather_congr hMN]
  · rw [h.identifiers, identifierOwners.gather_congr hMN]
  · rw [h.artifacts, artifactOwners.gather_congr hMN]
  · rw [h.conflicts, conflictOwners.gather_congr hMN]
  · rw [h.assertions, assertionOwners.gather_congr hMN]
  · exact fun c hc => h.away c ((hMN c).mpr hc)
  · exact fun c hc => h.others c fun hM => hc ((hMN c).mp hM)

theorem Gathered.start {base : GoldenDb} (hbase : SubjectsInOrder base) {target : GoldenTalent}
    (ht : LiveSubject base target) :
    Gathered base target.id [] target.resolutionStatus base := by
  refine ⟨(referenceOwners.gather_nil).symm, (identifierOwners.gather_nil).symm,
    (artifactOwners.gather_nil).symm, (conflictOwners.gather_nil).symm,
    (assertionOwners.gather_nil).symm, fun c hc => ?_, fun _ _ _ => rfl, ht.live, ?_⟩
  · cases hc
  · rw [ht.found, ← (hbase target ht.mem).access ht.live]
    rfl

section Steps

variable {base db : GoldenDb} {B : Nat} {M : List Nat} {σ : ResolutionStatus}
  {out : MergeSplitEvent × GoldenDb}

variable {c : Nat}

section

variable (h : Gathered base B M σ db)

include h

theorem Gathered.rowsOf_eq (hM : c ∉ M) (hc : c ≠ B) :
    rowsOf db c = rowsOf base c := by
  have href : db.referencesOf c = base.referencesOf c := by
    unfold GoldenDb.referencesOf
    rw [h.references]
    exact referenceOwners.rowsAt_gather hM hc
  have hass : db.assertionsOf c = base.assertionsOf c := by
    unfold GoldenDb.assertionsOf
    rw [h.assertions]
    exact assertionOwners.rowsAt_gather hM hc
  have hide : db.identifiersOf c = base.identifiersOf c := by
    unfold GoldenDb.identifiersOf
    rw [h.identifiers]
    exact identifierOwners.rowsAt_gather hM hc
  have hart : db.artifactsOf c = base.artifactsOf c := by
    unfold GoldenDb.artifactsOf
    rw [h.artifacts]
    exact artifactOwners.rowsAt_gather hM hc
  have hcon : db.conflictsOf c = base.conflictsOf c := by
    unfold GoldenDb.conflictsOf
    rw [h.conflicts]
    exact conflictOwners.rowsAt_gather hM hc
  unfold rowsOf
  rw [href, hass, hide, hart, hcon]

/-- A subject of the start that is live now was live then and is not merged. -/
theorem Gathered.not_merged {s : GoldenTalent} (hs : LiveSubject db s) :
    s.id ∉ M := by
  intro hM
  have haway := h.away s.id hM
  rw [hs.found] at haway
  obtain ⟨t, -, rfl⟩ := Option.map_eq_some_iff.mp haway.symm
  exact hs.live rfl

theorem Gathered.status {t : GoldenTalent} (ht : LiveSubject db t)
    (hB : t.id = B) : t.resolutionStatus = σ := by
  have hinto := h.into
  rw [← hB, ht.found] at hinto
  obtain ⟨u, -, hu⟩ := Option.map_eq_some_iff.mp hinto.symm
  rw [← hu]
  rfl

end

theorem find?_rewritten (id : Nat) (f : GoldenTalent → GoldenTalent) (hf : ∀ s, (f s).id = s.id)
    (rows : List GoldenTalent) (x : Nat) : (rewritten id f rows).find? (·.id == x) =
      if x = id then (rows.find? (·.id == x)).map f else rows.find? (·.id == x) := by
  rw [rewritten, find?_updateWhere fun r => by rw [hf r]]
  cases hfind : rows.find? (·.id == x) with
  | none => simp
  | some s =>
    have hid : s.id = x := by simpa using find?_some hfind
    by_cases hx : x = id
    · simp [hid, hx]
    · simp [hid, hx]

theorem subject?_rewritten {db' : GoldenDb} {id id' : Nat} {f g : GoldenTalent → GoldenTalent}
    (h : db'.subjects = rewritten id f (rewritten id' g db.subjects)) (hf : ∀ s, (f s).id = s.id)
    (hg : ∀ s, (g s).id = s.id) (hne : id' ≠ id) (x : Nat) : db'.subject? x =
      if x = id then (db.subject? x).map f
      else if x = id' then (db.subject? x).map g else db.subject? x := by
  unfold GoldenDb.subject?
  rw [h, find?_rewritten id f hf, find?_rewritten id' g hg]
  by_cases hx : x = id
  · rw [if_pos hx, if_pos hx, if_neg (hx ▸ hne.symm)]
  · rw [if_neg hx, if_neg hx]

theorem repoint_gathered {α : Type} (T : Owned α) {rows : List α} {ids : List Nat}
    (hids : T.Names ids c rows) (hM : c ∉ M) (hc : c ≠ B) :
    T.repoint ids B (T.gather B M rows) = T.gather B (c :: M) rows := by
  rw [T.repoint_eq_gather (hids.gather T hM hc), T.gather_gather]
  rfl

theorem Gathered.merge (hbase : RowsKeyed base base.nextId) (h : Gathered base B M σ db)
    {source target : GoldenTalent} (hmerge : MergeOf db source target out) (hB : target.id = B) :
    LiveSubject base source ∧ source.id ∉ M ∧ source.id ≠ B ∧
      rowsOf db source.id = rowsOf base source.id ∧
      Gathered base B (source.id :: M) (mergedStatus source.resolutionStatus σ) out.2 := by
  have hM := h.not_merged hmerge.liveSource
  have hne : source.id ≠ B := hB ▸ hmerge.ne
  have hfound := h.others source.id hM hne
  rw [hmerge.liveSource.found] at hfound
  have hrows := h.rowsOf_eq hM hne
  have hnames := namesRows_rowsOf hbase source.id
  have hmoved := hmerge.rows
  rw [hrows, hB] at hmoved
  have hσ := h.status hmerge.liveTarget hB
  have hsubjects := subject?_rewritten hmerge.subjects (fun _ => rfl) (fun _ => rfl) hmerge.ne
  rw [hB, hσ] at hsubjects
  refine ⟨⟨hfound.symm, hmerge.liveSource.live⟩, hM, hne, hrows, ?_, ?_, ?_, ?_, ?_, ?_, ?_,
    mergedStatus_live _ _, ?_⟩
  · rw [hmoved.references, h.references, repoint_gathered _ hnames.references hM hne]
  · rw [hmoved.identifiers, h.identifiers, repoint_gathered _ hnames.identifiers hM hne]
  · rw [hmoved.artifacts, h.artifacts, repoint_gathered _ hnames.artifacts hM hne]
  · rw [hmoved.conflicts, h.conflicts, repoint_gathered _ hnames.conflicts hM hne]
  · rw [hmoved.assertions, h.assertions, repoint_gathered _ hnames.assertions hM hne]
  · intro c hc
    have hBM : B ∉ M := hB ▸ h.not_merged hmerge.liveTarget
    rcases mem_cons.mp hc with rfl | hc
    · rw [hsubjects, if_neg hne, if_pos rfl, hmerge.liveSource.found, ← hfound]
    · have hcB : c ≠ B := fun heq => hBM (heq ▸ hc)
      have hcs : c ≠ source.id := fun heq => hM (heq ▸ hc)
      rw [hsubjects, if_neg hcB, if_neg hcs]
      exact h.away c hc
  · intro c hc hcB
    have hcs : c ≠ source.id := fun heq => hc (heq ▸ mem_cons_self)
    rw [hsubjects, if_neg hcB, if_neg hcs]
    exact h.others c (fun hcM => hc (mem_cons_of_mem _ hcM)) hcB
  · rw [hsubjects, if_pos rfl, h.into, Option.map_map]
    rfl

/-! ### A restore -/

/-- Two sets name the same rows. -/
structure SameIds (m m' : MovedSet) : Prop where
  references : ∀ id, id ∈ m.referenceIds ↔ id ∈ m'.referenceIds
  assertions : ∀ id, id ∈ m.assertionIds ↔ id ∈ m'.assertionIds
  identifiers : ∀ id, id ∈ m.identifierIds ↔ id ∈ m'.identifierIds
  artifacts : ∀ id, id ∈ m.artifactIds ↔ id ∈ m'.artifactIds
  conflicts : ∀ id, id ∈ m.conflictIds ↔ id ∈ m'.conflictIds

theorem mem_keepOwn_gathered {α : Type} (T : Owned α) {rows : List α} (hM : c ∈ M)
    {id : Nat} : id ∈ keepOwn ((T.rowsAt B (T.gather B M rows)).map T.key)
        (uniq ((T.rowsAt c rows).map T.key)) ↔ id ∈ uniq ((T.rowsAt c rows).map T.key) := by
  rw [mem_keepOwn, mem_uniq]
  exact ⟨And.left, fun h => ⟨h, T.mem_keys_gathered hM h⟩⟩

/-- What a reference of a gathered subject is the source of is that subject's own. -/
theorem sourced_gathered {α : Type} (T : Owned α) {rows : List α} {source : α → Option Nat}
    (hgive : ∀ s a, source (T.give s a) = source a)
    (htogether : ∀ a ∈ rows, ∀ r ∈ base.references, source a = some r.id → r.subjectId ≠ B →
      T.owner a = r.subjectId) (hc : c ≠ B) {kept : List Nat}
    (hkept : ∀ id, id ∈ kept → id ∈ uniq ((base.referencesOf c).map (·.id))) {id : Nat}
    (h : id ∈ ((T.rowsAt B (T.gather B M rows)).filter fun a =>
      (source a).any fun r => kept.contains r).map T.key) :
    id ∈ uniq ((T.rowsAt c rows).map T.key) := by
  obtain ⟨a, ha, rfl⟩ := mem_map.mp h
  obtain ⟨hat, hsource⟩ := mem_filter.mp ha
  obtain ⟨y, hy, hay⟩ := T.exists_of_mem_gather (T.mem_rowsAt.mp hat).1
  obtain ⟨rid, hrid, hin⟩ := (Option.any_eq_true _ _).mp hsource
  obtain ⟨r, hr, rfl⟩ := mem_map.mp (mem_uniq.mp (hkept rid (contains_iff_mem.mp hin)))
  obtain ⟨hr, hsubject⟩ := mem_filter.mp hr
  have hsubject := eq_of_beq hsubject
  have hysource : source y = some r.id := by rw [← hrid, hay, hgive]
  have howner := htogether y hy r hr hysource (hsubject ▸ hc)
  rw [mem_uniq, hay, T.key_give]
  exact mem_map.mpr ⟨y, T.mem_rowsAt.mpr ⟨hy, howner.trans hsubject⟩, rfl⟩

theorem Gathered.sameIds (h : Gathered base B M σ db) (htogether : SourcedTogether base B)
    (hM : c ∈ M) (hc : c ≠ B) : SameIds (keptRows db B (rowsOf base c)) (rowsOf base c) := by
  have hrefs : ∀ id, id ∈ keepOwn ((db.referencesOf B).map (·.id)) (rowsOf base c).referenceIds ↔
      id ∈ (rowsOf base c).referenceIds := by
    intro id
    unfold GoldenDb.referencesOf
    rw [h.references]
    exact mem_keepOwn_gathered referenceOwners hM
  refine ⟨hrefs, fun id => ?_, fun id => ?_, fun id => ?_, fun id => ?_⟩
  · show id ∈ uniq (_ ++ _) ↔ _
    unfold GoldenDb.assertionsOf
    rw [mem_uniq, mem_append, h.assertions]
    refine (or_congr_left (mem_keepOwn_gathered assertionOwners hM)).trans (or_iff_left_of_imp ?_)
    exact sourced_gathered assertionOwners (fun _ _ => rfl) htogether.assertions hc
      fun id hid => (hrefs id).mp hid
  · show id ∈ uniq (_ ++ _) ↔ _
    unfold GoldenDb.identifiersOf
    rw [mem_uniq, mem_append, h.identifiers]
    refine (or_congr_left (mem_keepOwn_gathered identifierOwners hM)).trans (or_iff_left_of_imp ?_)
    exact sourced_gathered identifierOwners (fun _ _ => rfl) htogether.identifiers hc
      fun id hid => (hrefs id).mp hid
  · show id ∈ keepOwn _ _ ↔ _
    unfold GoldenDb.artifactsOf
    rw [h.artifacts]
    exact mem_keepOwn_gathered artifactOwners hM
  · show id ∈ keepOwn _ _ ↔ _
    unfold GoldenDb.conflictsOf
    rw [h.conflicts]
    exact mem_keepOwn_gathered conflictOwners hM

/-- The subject has a row in one of the five tables. -/
def HasRows (db : GoldenDb) (c : Nat) : Prop := (rowsOf db c).isEmpty = false

theorem SameIds.isEmpty {m m' : MovedSet} (h : SameIds m m') : m.isEmpty = m'.isEmpty := by
  have hlist {xs ys : List Nat} (hsame : ∀ id, id ∈ xs ↔ id ∈ ys) : xs.isEmpty = ys.isEmpty := by
    rw [Bool.eq_iff_iff, List.isEmpty_iff, List.isEmpty_iff, eq_nil_iff_forall_not_mem,
      eq_nil_iff_forall_not_mem]
    exact forall_congr' fun id => not_congr (hsame id)
  unfold MovedSet.isEmpty
  rw [hlist h.references, hlist h.assertions, hlist h.identifiers, hlist h.artifacts,
    hlist h.conflicts]

theorem repoint_back {α : Type} (T : Owned α) {rows : List α} {ids ids' : List Nat}
    (hsame : ∀ id, id ∈ ids ↔ id ∈ ids') (hids : T.Names ids' c rows) (hM : c ∈ M) :
    T.repoint ids c (T.gather B M rows) = T.gather B (M.filter (· ≠ c)) rows := by
  have hperm : ∀ x, x ∈ M ↔ x ∈ c :: M.filter (· ≠ c) := by
    intro x
    by_cases hx : x = c
    · simp [hx, hM]
    · simp [hx]
  rw [T.repoint_congr hsame, T.gather_congr hperm, T.repoint_gather hids]
  simp

variable {merge : MergeMoved}

theorem Gathered.restore (hbase : MergesInOrder base) (htogether : SourcedTogether base B)
    (h : Gathered base B M σ db) {subject original s : GoldenTalent} {restored : MergeSplitEvent}
    (hrestore : RestoreOf db subject original restored merge out)
    (hB : subject.id = B) (hs : LiveSubject base s) (hsid : original.id = s.id) (hc : s.id ≠ B)
    (hmoved : merge.toMovedSet = rowsOf base s.id)
    (hfrom : merge.fromPriorResolutionStatus = s.resolutionStatus)
    (hinto : merge.intoPriorResolutionStatus ≠ .merged) :
    s.id ∈ M ∧ Gathered base B (M.filter (· ≠ s.id)) merge.intoPriorResolutionStatus out.2 := by
  have hM : s.id ∈ M := by
    by_contra hM
    have hfound := hrestore.foundOriginal
    rw [hsid, h.others s.id hM hc, hs.found] at hfound
    obtain rfl := Option.some.inj hfound
    exact hs.live hrestore.mergedInto.1
  have hsame := h.sameIds htogether hM hc
  have hnames := namesRows_rowsOf hbase.rows s.id
  have hrows := hrestore.rows
  rw [hB, hmoved, hsid] at hrows
  have href : out.2.references = referenceOwners.gather B (M.filter (· ≠ s.id))
    base.references := by
    rw [hrows.references, h.references, repoint_back _ hsame.references hnames.references hM]
  have hout : s.id ∉ M.filter (· ≠ s.id) := by simp
  have haccess : accessStateOf out.2 s.id = s.accessState := by
    rw [(hbase.subjects s hs.mem).access hs.live]
    refine accessStateOf_congr ?_
    unfold GoldenDb.referencesOf
    rw [href]
    exact referenceOwners.rowsAt_gather hout hc
  have hsubjects := subject?_rewritten hrestore.subjects (fun _ => rfl) (fun _ => rfl)
    (by rwa [hsid, hB])
  rw [hB, hsid] at hsubjects
  have hBM : B ∉ M := hB ▸ h.not_merged hrestore.liveSubject
  refine ⟨hM, href, ?_, ?_, ?_, ?_, ?_, ?_, hinto, ?_⟩
  · rw [hrows.identifiers, h.identifiers, repoint_back _ hsame.identifiers hnames.identifiers hM]
  · rw [hrows.artifacts, h.artifacts, repoint_back _ hsame.artifacts hnames.artifacts hM]
  · rw [hrows.conflicts, h.conflicts, repoint_back _ hsame.conflicts hnames.conflicts hM]
  · rw [hrows.assertions, h.assertions, repoint_back _ hsame.assertions hnames.assertions hM]
  · intro c hcM
    obtain ⟨hcM, hne⟩ := mem_filter.mp hcM
    have hcB : c ≠ B := fun heq => hBM (heq ▸ hcM)
    rw [hsubjects, if_neg hcB, if_neg (of_decide_eq_true hne)]
    exact h.away c hcM
  · intro c hcM hcB
    rw [hsubjects, if_neg hcB]
    by_cases hcs : c = s.id
    · -- it has its status, its access state and its freedom back
      rw [if_pos hcs, hcs, h.away s.id hM, hs.found, hfrom, haccess]
      have hnone := hbase.subjects.unlinked hs
      simp [restated, mergedAway, ← hnone]
    · rw [if_neg hcs]
      refine h.others c (fun hmem => hcM (mem_filter.mpr ⟨hmem, ?_⟩)) hcB
      exact decide_eq_true hcs
  · rw [hsubjects, if_pos rfl, h.into, Option.map_map]
    rfl

/-- The event of a merge into `B` of a subject that was live at the start. -/
structure OfStart (base : GoldenDb) (B : Nat) (s : GoldenTalent) (e : MergeSplitEvent)
    (merge : MergeMoved) : Prop where
  live : LiveSubject base s
  ne : s.id ≠ B
  recorded : e.moved = .merge merge
  fromSubject : e.fromSubjectId = s.id
  intoSubject : e.intoSubjectId = B
  rows : merge.toMovedSet = rowsOf base s.id
  status : merge.fromPriorResolutionStatus = s.resolutionStatus
  into : merge.intoPriorResolutionStatus ≠ .merged

theorem Gathered.liveInto (h : Gathered base B M σ db) {target : GoldenTalent}
    (ht : LiveSubject base target) (hB : target.id = B) :
    ∃ t, LiveSubject db t ∧ t.id = B := by
  have hinto := h.into
  subst hB
  rw [ht.found] at hinto
  exact ⟨restated σ (accessStateOf db target.id) target, ⟨hinto, h.live⟩, rfl⟩

/-- What a restore of a gathered subject does: it is refused only when there is nothing to move. -/
theorem Gathered.restoreMerge_eq (h : Gathered base B M σ db) (htogether : SourcedTogether base B)
    {target s : GoldenTalent} (ht : LiveSubject base target) (hB : target.id = B)
    {e : MergeSplitEvent} (he : OfStart base B s e merge)
    (hfound : db.mergeSplitEvent? e.id = some e) (hM : s.id ∈ M) (actor reason : JsString) :
    (HasRows base s.id → ∃ out, restoreMerge db B e.id actor reason = .ok out) ∧
      (¬HasRows base s.id → restoreMerge db B e.id actor reason =
        .error (mergeRefused "nothing selected to split")) := by
  obtain ⟨t, hlive, htid⟩ := h.liveInto ht hB
  have hsubject : liveSubject db B = .ok t := liveSubject_eq_ok.mpr ⟨htid ▸ hlive.found, hlive.live⟩
  have hmerge : mergeToRestore db t.id e.id = .ok (e, merge) :=
    mergeToRestore_eq_ok.mpr ⟨hfound, he.recorded, he.intoSubject.trans htid.symm⟩
  have horiginal : db.subject? e.fromSubjectId = some (mergedAway B s) := by
    rw [he.fromSubject, h.away s.id hM, he.live.found]
    rfl
  have hempty : (keptRows db t.id merge.toMovedSet).isEmpty = (rowsOf base s.id).isEmpty := by
    rw [htid, he.rows]
    exact (h.sameIds htogether hM he.ne).isEmpty
  have heq : restoreMerge db B e.id actor reason = (do
      require (!(keptRows db t.id merge.toMovedSet).isEmpty)
        (mergeRefused "nothing selected to split")
      .ok (applyRestore db t.id s.id merge (keptRows db t.id merge.toMovedSet)
        e.id actor reason)) := by
    have hmerged : ((mergedAway B s).resolutionStatus == .merged &&
        (mergedAway B s).mergedIntoId == some t.id) = true := by
      rw [htid]
      simp [mergedAway]
    unfold restoreMerge
    rw [hsubject, ok_bind, hmerge, ok_bind]
    dsimp only
    rw [horiginal, orThrow_some, ok_bind, require_of_true hmerged, ok_bind]
    rfl
  rw [heq, hempty]
  constructor
  · intro hrows
    have hsome : (!(rowsOf base s.id).isEmpty) = true := by
      rw [show (rowsOf base s.id).isEmpty = false from hrows]
      rfl
    rw [require_of_true hsome]
    exact ⟨_, rfl⟩
  · intro hnone
    have hnothing : (!(rowsOf base s.id).isEmpty) = false := by
      rw [Bool.eq_true_of_not_eq_false hnone]
      rfl
    rw [require_of_false hnothing]
    rfl

/-- A restore by the event of the start takes its subject out of the gathering. -/
theorem Gathered.restored (hbase : MergesInOrder base) (htogether : SourcedTogether base B)
    (h : Gathered base B M σ db) {s : GoldenTalent} {e : MergeSplitEvent}
    (he : OfStart base B s e merge) (hfound : db.mergeSplitEvent? e.id = some e)
    {actor reason : JsString} (hout : restoreMerge db B e.id actor reason = .ok out) :
    s.id ∈ M ∧ Gathered base B (M.filter (· ≠ s.id)) merge.intoPriorResolutionStatus out.2 ∧
      ∃ subject original, RestoreOf db subject original e merge out := by
  obtain ⟨subject, original, restored, merge', hrestore, hsubject, hid⟩ := restore_spec hout
  have hsame : restored = e := by
    have hrestored := hrestore.found
    rw [hid, hfound] at hrestored
    exact (Option.some.inj hrestored).symm
  subst hsame
  have hmerge : merge' = merge :=
    MergeSplitRecord.merge.inj (hrestore.recorded.symm.trans he.recorded)
  subst hmerge
  have hsid : original.id = s.id := hrestore.fromSubject.symm.trans he.fromSubject
  obtain ⟨hM, hgathered⟩ := h.restore hbase htogether hrestore hsubject he.live hsid he.ne he.rows
    he.status he.into
  exact ⟨hM, hgathered, subject, original, hrestore⟩

end Steps

/-! ## Further operations -/

/-- Another subject is merged in, or such a merge is restored. -/
inductive FurtherOp where
  | merge (fromId : Nat) (actor reason : JsString)
  | restore (k : Nat) (actor reason : JsString)

/-- An operation on `B`. A restore names its merge by the place of its event among
those that follow the first `n`. -/
def further (B n : Nat) (db : GoldenDb) : FurtherOp →
    Except GoldenError (MergeSplitEvent × GoldenDb)
  | .merge fromId actor reason => mergeSubjects db fromId B actor reason
  | .restore k actor reason => do
      let e ← orThrow (db.mergeSplits.drop n)[k]? (mergeRefused "restore requires a MERGE event")
      restoreMerge db B e.id actor reason

def FurtherStep (B n : Nat) (db : GoldenDb) (op : FurtherOp) (db' : GoldenDb) : Prop :=
  (further B n db op).map Prod.snd = .ok db'

section Twins

variable {base : GoldenDb} {A B n m : Nat} {P : ResolutionStatus → Prop}

/-- Two events of one place: a merge of the same subject, or a split. The status that
the second one remembers of `B` has the property `P`. -/
def EventTwin (base : GoldenDb) (A B : Nat) (P : ResolutionStatus → Prop)
    (e e' : MergeSplitEvent) : Prop :=
  (∃ s merge merge', s.id ≠ A ∧ OfStart base B s e merge ∧ OfStart base B s e' merge' ∧
      P merge'.intoPriorResolutionStatus) ∨
    ∃ moved restores moved' restores', e.moved = .split moved restores ∧
      e'.moved = .split moved' restores'

/-- Two histories that differ in the merge of `A`: in `x` it is merged, in `y` it never
was. In the second one the status of `B` always has the property `P`. -/
structure Twin (base : GoldenDb) (A B n m : Nat) (P : ResolutionStatus → Prop) (M : List Nat)
    (x y : GoldenDb) : Prop where
  main : ∃ σ, Gathered base B (A :: M) σ x
  alt : ∃ τ, P τ ∧ Gathered base B M τ y
  notIn : A ∉ M
  keyedMain : RowsKeyed x x.nextId
  keyedAlt : RowsKeyed y y.nextId
  log : List.Forall₂ (EventTwin base A B P) (x.mergeSplits.drop n) (y.mergeSplits.drop m)
  lengthMain : n ≤ x.mergeSplits.length
  lengthAlt : m ≤ y.mergeSplits.length

theorem find_event {db : GoldenDb} {next : Nat} (h : Keyed (·.id) db.mergeSplits next)
    {e : MergeSplitEvent} (he : e ∈ db.mergeSplits) : db.mergeSplitEvent? e.id = some e :=
  find?_key_eq_some h.nodup he

variable {out : MergeSplitEvent × GoldenDb} {M : List Nat}

theorem ofStart_merge (hbase : RowsKeyed base base.nextId) {db : GoldenDb}
    {σ : ResolutionStatus} (h : Gathered base B M σ db) {source target : GoldenTalent}
    (hmerge : MergeOf db source target out) (hB : target.id = B) :
    ∃ merge, OfStart base B source out.1 merge ∧ merge.intoPriorResolutionStatus = σ := by
  obtain ⟨hlive, -, hne, hrows, -⟩ := h.merge hbase hmerge hB
  refine ⟨_, ⟨hlive, hne, hmerge.moved, hmerge.fromSubject, hmerge.intoSubject.trans hB, hrows, rfl,
    hmerge.liveTarget.live⟩, h.status hmerge.liveTarget hB⟩

theorem Twin.next {x y : GoldenDb} (h : Twin base A B n m P M x y) {N : List Nat}
    {out' : MergeSplitEvent × GoldenDb} {σ τ : ResolutionStatus}
    (hmain : Gathered base B (A :: N) σ out.2) (halt : Gathered base B N τ out'.2) (hτ : P τ)
    (hN : A ∉ N) (hmoves : Moves x out.2) (hmoves' : Moves y out'.2)
    (hledger : out.2.mergeSplits = x.mergeSplits ++ [out.1])
    (hledger' : out'.2.mergeSplits = y.mergeSplits ++ [out'.1])
    (htwin : EventTwin base A B P out.1 out'.1) : Twin base A B n m P N out.2 out'.2 := by
  refine ⟨⟨_, hmain⟩, ⟨_, hτ, halt⟩, hN, ?_, ?_, ?_, ?_, ?_⟩
  · exact (statements_of_moves hmoves).invariant Statement.rowsKeyed h.keyedMain
  · exact (statements_of_moves hmoves').invariant Statement.rowsKeyed h.keyedAlt
  · rw [hledger, hledger', drop_append_of_le_length h.lengthMain,
      drop_append_of_le_length h.lengthAlt]
    exact rel_append h.log (.cons htwin .nil)
  · rw [hledger, length_append]
    exact Nat.le_add_right_of_le h.lengthMain
  · rw [hledger', length_append]
    exact Nat.le_add_right_of_le h.lengthAlt

variable {target : GoldenTalent}

section

variable (hbase : MergesInOrder base)

include hbase

theorem Twin.merge {x y : GoldenDb}
    (ht : LiveSubject base target) (hB : target.id = B)
    (h : Twin base A B n m P M x y) {fromId : Nat} {actor reason : JsString}
    (hP : ∀ s τ, LiveSubject base s → s.id = fromId → P τ → P (mergedStatus s.resolutionStatus τ))
    (hout : mergeSubjects x fromId B actor reason = .ok out) :
    ∃ out' N, mergeSubjects y fromId B actor reason = .ok out' ∧
      Twin base A B n m P N out.2 out'.2 := by
  obtain ⟨source, into, hmerge, rfl, hinto⟩ := merge_spec hout
  obtain ⟨σ, hmain⟩ := h.main
  obtain ⟨τ, hτ, halt⟩ := h.alt
  obtain ⟨hlive, hM, hne, hrows, hgathered⟩ := hmain.merge hbase.rows hmerge hinto
  -- the same subject is live without the merge of `A`
  have hnotM : source.id ∉ M := fun hmem => hM (mem_cons_of_mem _ hmem)
  have hsource : liveSubject y source.id = .ok source :=
    liveSubject_eq_ok.mpr ⟨(halt.others _ hnotM hne).trans hlive.found, hlive.live⟩
  obtain ⟨t, hlivet, htid⟩ := halt.liveInto ht hB
  have htarget : liveSubject y B = .ok t := liveSubject_eq_ok.mpr ⟨htid ▸ hlivet.found, hlivet.live⟩
  have hrun : mergeSubjects y source.id B actor reason =
      .ok (applyMerge y source t (rowsOf y source.id) actor reason) := by
    unfold mergeSubjects
    rw [require_of_true (decide_eq_true hne), ok_bind, hsource, ok_bind, htarget]
    rfl
  obtain ⟨source', into', hmerge', hsid, hinto'⟩ := merge_spec hrun
  have hsame : source' = source := by
    have hfound := hmerge'.liveSource.found
    rw [hsid, (halt.others _ hnotM hne).trans hlive.found] at hfound
    exact (Option.some.inj hfound).symm
  subst hsame
  have hgathered' := (halt.merge hbase.rows hmerge' hinto').2.2.2.2
  have hA : source'.id ≠ A := fun heq => hM (heq ▸ mem_cons_self)
  obtain ⟨merge, hof, -⟩ := ofStart_merge hbase.rows hmain hmerge hinto
  obtain ⟨merge', hof', hprior⟩ := ofStart_merge hbase.rows halt hmerge' hinto'
  refine ⟨_, source'.id :: M, hrun, h.next (hgathered.congr ?_) hgathered'
    (hP source' τ hlive rfl hτ) ?_ (moves_merge hout) (moves_merge hrun) hmerge.ledger
    hmerge'.ledger (.inl ⟨_, _, _, hA, hof, hof', hprior ▸ hτ⟩)⟩
  · intro c
    simp only [mem_cons]
    exact or_left_comm
  · intro hmem
    rcases mem_cons.mp hmem with heq | hmem
    · exact hA heq.symm
    · exact h.notIn hmem

theorem Twin.restore {x y : GoldenDb}
    (htogether : SourcedTogether base B) (ht : LiveSubject base target)
    (hB : target.id = B) (h : Twin base A B n m P M x y) {k : Nat} {actor reason : JsString}
    {e : MergeSplitEvent} (hk : (x.mergeSplits.drop n)[k]? = some e)
    (hout : restoreMerge x B e.id actor reason = .ok out) :
    ∃ e' out' N, (y.mergeSplits.drop m)[k]? = some e' ∧
      restoreMerge y B e'.id actor reason = .ok out' ∧ Twin base A B n m P N out.2 out'.2 := by
  obtain ⟨σ, hmain⟩ := h.main
  obtain ⟨τ, -, halt⟩ := h.alt
  obtain ⟨e', hk', htwin⟩ := exists_getElem?_of_forall₂ h.log hk
  have hmem : e ∈ x.mergeSplits := mem_of_mem_drop (mem_of_getElem? hk)
  have hmem' : e' ∈ y.mergeSplits := mem_of_mem_drop (mem_of_getElem? hk')
  have hfound := find_event h.keyedMain.mergeSplits hmem
  rcases htwin with ⟨s, merge, merge', hA, hof, hof', hprior⟩ | ⟨moved, restores, -, -, hsplit, -⟩
  · -- the same subject, with the same rows, goes back in both
    obtain ⟨hM, hgathered, _, _, hrestore⟩ := hmain.restored hbase htogether hof hfound hout
    have hM' : s.id ∈ M := (mem_cons.mp hM).resolve_left hA
    have hrows : HasRows base s.id := by
      by_contra hnone
      have hrefused := (hmain.restoreMerge_eq htogether ht hB hof hfound hM actor reason).2 hnone
      rw [hout] at hrefused
      cases hrefused
    have hfound' := find_event h.keyedAlt.mergeSplits hmem'
    obtain ⟨out', hout'⟩ :=
      (halt.restoreMerge_eq htogether ht hB hof' hfound' hM' actor reason).1 hrows
    obtain ⟨-, hgathered', _, _, hrestore'⟩ := halt.restored hbase htogether hof' hfound' hout'
    refine ⟨e', out', M.filter (· ≠ s.id), hk', hout', h.next (hgathered.congr ?_) hgathered'
      hprior (fun hc => h.notIn (mem_of_mem_filter hc)) (moves_restore hout)
      (moves_restore hout') hrestore.ledger hrestore'.ledger
      (.inr ⟨_, _, _, _, hrestore.kind, hrestore'.kind⟩)⟩
    intro c
    have hAs : A ≠ s.id := hA.symm
    simp only [mem_filter, mem_cons]
    constructor
    · rintro ⟨rfl | hc, hne⟩
      · exact .inl rfl
      · exact .inr ⟨hc, hne⟩
    · rintro (rfl | ⟨hc, hne⟩)
      · exact ⟨.inl rfl, decide_eq_true hAs⟩
      · exact ⟨.inr hc, hne⟩
  · -- a split is not restored
    obtain ⟨_, _, restored, _, hrestore, -, hid⟩ := restore_spec hout
    have hrestored := hrestore.found
    rw [hid, hfound] at hrestored
    have hrecorded := hrestore.recorded
    rw [← Option.some.inj hrestored, hsplit] at hrecorded
    cases hrecorded

theorem Twin.run {x y x' : GoldenDb} {ops : List FurtherOp} (htogether : SourcedTogether base B)
    (ht : LiveSubject base target) (hB : target.id = B) (h : Twin base A B n m P M x y)
    (hP : ∀ s τ fromId actor reason, .merge fromId actor reason ∈ ops → LiveSubject base s →
      s.id = fromId → P τ → P (mergedStatus s.resolutionStatus τ))
    (hrun : Run (FurtherStep B n) x ops x') :
    ∃ y' N, Run (FurtherStep B m) y ops y' ∧ Twin base A B n m P N x' y' := by
  induction hrun generalizing y M with
  | nil x => exact ⟨y, M, .nil y, h⟩
  | @cons x x₁ x' op ops hstep _ ih =>
    obtain ⟨out, hout, rfl⟩ := map_eq_ok.mp hstep
    have hone : ∃ out' N, further B m y op = .ok out' ∧ Twin base A B n m P N out.2 out'.2 := by
      cases op with
      | merge fromId actor reason =>
        exact h.merge hbase ht hB (fun s τ => hP s τ _ _ _ mem_cons_self) hout
      | restore k actor reason =>
        simp only [further, bind_eq_ok, orThrow_eq_ok] at hout ⊢
        obtain ⟨e, hk, hout⟩ := hout
        obtain ⟨e', out', N, hk', hout', htwin⟩ := h.restore hbase htogether ht hB hk hout
        exact ⟨out', N, ⟨e', hk', hout'⟩, htwin⟩
    obtain ⟨out', N, hout', htwin⟩ := hone
    obtain ⟨y', N', hrest, hlast⟩ := ih htwin fun s τ _ _ _ hmem =>
      hP s τ _ _ _ (mem_cons_of_mem _ hmem)
    exact ⟨y', N', .cons (map_eq_ok.mpr ⟨out', hout', rfl⟩) hrest, hlast⟩

end

end Twins

end AramoPlatform.Intelligence
