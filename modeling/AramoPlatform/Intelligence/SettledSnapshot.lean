import AramoPlatform.Intelligence.ClaimEffects

/-!
# A snapshot that is settled

After a snapshot is resolved, its reference is known, on its subject, with its
identifiers. Resolving the same snapshot again places nothing and records
nothing; only the anchors of other sources are asked about once more, now under
the rule for a known reference.
-/

namespace AramoPlatform.Intelligence

open Js Lib List

theorem filter_filterMap {α β : Type} {rows : List α} {f : α → Bool} {m : α → Option β}
    {q : β → Bool} (h : ∀ x ∈ rows, f x = false → ∀ y, m x = some y → q y = false) :
    (rows.filterMap m).filter q = ((rows.filter f).filterMap m).filter q := by
  induction rows with
  | nil => rfl
  | cons x rest ih =>
    have hrest := ih fun y hy => h y (mem_cons_of_mem _ hy)
    cases hf : f x with
    | true =>
      rw [filter_cons_of_pos hf, filterMap_cons, filterMap_cons]
      cases m x with
      | none => exact hrest
      | some y => simp only [filter_cons, hrest]
    | false =>
      rw [filter_cons_of_neg (by simp [hf]), filterMap_cons]
      cases hm : m x with
      | none => exact hrest
      | some y =>
        rw [filter_cons_of_neg (by simp [h x mem_cons_self hf y hm])]
        exact hrest

/-! ## Conflicts of a known reference -/

theorem uniq_filter (xs : List Nat) (p : Nat → Bool) : (uniq xs).filter p = uniq (xs.filter p) := by
  have hsorted : ∀ ys : List Nat, (uniq ys).Pairwise (· ≤ ·) := fun ys =>
    pairwise_insertionSort _ _
  refine List.Perm.eq_of_pairwise' ((hsorted xs).filter p) (hsorted _) ?_
  refine (perm_ext_iff_of_nodup ((nodup_uniq xs).filter p) (nodup_uniq _)).mpr fun x => ?_
  simp only [mem_filter, mem_uniq]

theorem distinctSubjects_filter (found : List VerifiedAnchorMatch) (s : Nat) :
    (distinctSubjects found).filter (· ≠ s) =
      distinctSubjects (found.filter (·.subjectId ≠ s)) := by
  unfold distinctSubjects
  rw [uniq_filter, filter_map]
  rfl

theorem anchorConflict_congr (host : Host) (ref : ExistingReference)
    {found found' : List VerifiedAnchorMatch}
    (h : found.filter (·.subjectId ≠ ref.subjectId) = found'.filter (·.subjectId ≠ ref.subjectId)) :
    anchorConflict host ref found = anchorConflict host ref found' := by
  unfold anchorConflict
  rw [distinctSubjects_filter, distinctSubjects_filter, h]

theorem mutationConflict_self (host : Host) (ref : ExistingReference) :
    mutationConflict host ref ref.snapshot = [] := by
  have hsame : isMaterialIdentityChange ref.snapshot ref.snapshot = false := by
    unfold isMaterialIdentityChange
    cases hkeys : ref.snapshot.verified with
    | nil => simp
    | cons k rest => simp
  simp [mutationConflict, hsame]

/-! ## Open conflicts -/

/-- The signatures of the open conflicts of a subject. -/
def openSignatures (db : GoldenDb) (subjectId : Nat) : List JsString :=
  (db.openConflictsOf subjectId).map (·.signature)

theorem mem_openSignatures {db : GoldenDb} {subjectId : Nat} {signature : JsString} :
    signature ∈ openSignatures db subjectId ↔ ∃ c ∈ db.conflicts, c.subjectId = subjectId ∧
      c.status = .open ∧ c.signature = signature := by
  simp [openSignatures, GoldenDb.openConflictsOf, and_assoc]

theorem mem_openSignatures_openConflicts {db : GoldenDb} {subjectId : Nat}
    {planned : List PlannedConflict} {signature : JsString} :
    signature ∈ openSignatures (openConflicts db subjectId planned).2 subjectId ↔
      signature ∈ openSignatures db subjectId ∨ signature ∈ planned.map (·.signature) := by
  -- the conflicts that are not open yet are opened one by one
  have hfold : ∀ (fresh : List PlannedConflict) (db : GoldenDb),
      signature ∈ openSignatures (fresh.foldl (fun db c =>
        db.createConflict subjectId c.conflictType
        c.relatedSubjectIds c.signature) db) subjectId ↔
      signature ∈ openSignatures db subjectId ∨ signature ∈ fresh.map (·.signature) := by
    intro fresh
    induction fresh with
    | nil => simp
    | cons c rest ih =>
      intro db
      rw [foldl_cons, ih, map_cons, mem_cons, ← or_assoc]
      refine or_congr_left ?_
      simp only [mem_openSignatures, GoldenDb.createConflict, mem_append, mem_singleton]
      constructor
      · rintro ⟨x, hx | rfl, hsubject, hopen, hsignature⟩
        · exact .inl ⟨x, hx, hsubject, hopen, hsignature⟩
        · exact .inr hsignature.symm
      · rintro (⟨x, hx, hsubject, hopen, hsignature⟩ | rfl)
        · exact ⟨x, .inl hx, hsubject, hopen, hsignature⟩
        · exact ⟨_, .inr rfl, rfl, rfl, rfl⟩
  unfold openConflicts
  dsimp only
  rw [hfold]
  by_cases hseen : signature ∈ openSignatures db subjectId
  · exact iff_of_true (.inl hseen) (.inl hseen)
  · refine or_congr_right ?_
    simp only [mem_map, mem_filter, Bool.not_eq_true', contains_eq_mem,
      decide_eq_false_iff_not]
    constructor
    · rintro ⟨c, ⟨hc, -⟩, rfl⟩
      exact ⟨c, hc, rfl⟩
    · rintro ⟨c, hc, rfl⟩
      exact ⟨c, ⟨hc, by simpa [openSignatures] using hseen⟩, rfl⟩

/-! ## The condition -/

section Condition

variable (host : Host) (db : GoldenDb) (input : ResolutionInput) (facts : ResolutionFacts)

/-- The subject that a snapshot is placed on. -/
def placedOn : Nat := (decideResolution host facts).subjectId.getD db.nextId

/-- The id of its reference: a new one comes after a new subject. -/
def referencedAs : Nat :=
  match facts.existingReference with
  | some ref => ref.id
  | none => if (decideResolution host facts).subjectId.isNone then db.nextId + 1 else db.nextId

/-- The anchors of the snapshot that other sources have bound. -/
def foreignMatches (referenceId : Nat) : List VerifiedAnchorMatch :=
  ((db.activeVerified (verifiedKeys input)).filter (·.foreignTo referenceId)).filterMap (matchOf db)

/-- The contradiction that a known reference would have with these anchors is
already open, or is planned when the snapshot comes in. -/
def SettlesAtOnce : Prop :=
  ∀ c ∈ anchorConflict host ⟨referencedAs host db facts, placedOn host db facts, snapshotOf input⟩
      (foreignMatches db input (referencedAs host db facts)),
    c.signature ∈ openSignatures db (placedOn host db facts) ∨
      c.signature ∈ (decideResolution host facts).conflicts.map (·.signature)

end Condition

/-! ## After the snapshot -/

/-- The tables after a snapshot, as far as identities go. -/
structure SnapshotSettled (db : GoldenDb) (input : ResolutionInput) (subjectId referenceId : Nat)
    (db' : GoldenDb) : Prop where
  placed : Placed db input subjectId referenceId db'
  order : IdentifiersInOrder db'.identifiers db'.nextId
  foreign : db'.identifiers.filter (·.foreignTo referenceId) =
    db.identifiers.filter (·.foreignTo referenceId)
  settled : ∀ id ∈ dedupeIdentifiers input.identifiers, ∃ x ∈ db'.identifiers,
    x.ownedBy referenceId = true ∧ SettledRow db'.identifiers subjectId id x
  covered : ∀ x ∈ db'.identifiers, x.ownedBy referenceId = true →
    x.key ∈ (dedupeIdentifiers input.identifiers).map (·.key)

section After

variable {host : Host} {db db' : GoldenDb} {input : ResolutionInput} {facts : ResolutionFacts}
  {subjectId referenceId : Nat}

theorem ResolvedTables.settledSnapshot {mid : GoldenDb}
    (h : ResolvedTables db input subjectId referenceId mid) (hsame : SameIdentity mid db') :
    SnapshotSettled db input subjectId referenceId db' := by
  obtain ⟨before, hbefore, hrecorded⟩ := h.recorded
  refine ⟨h.placed.frame hsame.subjects hsame.references hsame.next, ?_, ?_, ?_, ?_⟩
  · rw [hsame.identifiers]
    exact hrecorded.order.mono hsame.next
  · rw [hsame.identifiers, hrecorded.foreign, hbefore]
  · rw [hsame.identifiers]
    exact hrecorded.settled
  · rw [hsame.identifiers]
    exact hrecorded.covered

/-- The facts about the same snapshot, once it is settled. -/
def resentFacts (db' : GoldenDb) (input : ResolutionInput) (subjectId referenceId : Nat) :
    ResolutionFacts :=
  ⟨snapshotOf input, some ⟨referenceId, subjectId, snapshotOf input⟩,
    (db'.activeVerified (verifiedKeys input)).filterMap (matchOf db'), knownNames db'⟩

namespace SnapshotSettled

variable (h : SnapshotSettled db input subjectId referenceId db')

include h

theorem own_subject {x : SubjectIdentifier} (hx : x ∈ db'.identifiers)
    (hown : x.ownedBy referenceId = true) : x.subjectId = subjectId := by
  obtain ⟨id, hid, hkey⟩ := mem_map.mp (h.covered x hx hown)
  obtain ⟨y, hy, hyown, hsettled⟩ := h.settled id hid
  rw [h.order.own x hx y hy referenceId hown hyown (hkey.symm.trans hsettled.key.symm)]
  exact hsettled.subject

theorem own_or_foreign {x : SubjectIdentifier} (hx : x ∈ db'.identifiers)
    (hbound : x.activeVerified = true) :
    x.ownedBy referenceId = true ∨ x.foreignTo referenceId = true ∧ x ∈ db.identifiers := by
  have hactive : x.status = .active := by
    simp only [SubjectIdentifier.activeVerified, Bool.and_eq_true, beq_iff_eq] at hbound
    exact hbound.1
  by_cases hsource : x.sourceReferenceId = some referenceId
  · exact .inl (by simp [SubjectIdentifier.ownedBy, hsource, hactive])
  · have hforeign : x.foreignTo referenceId = true := by
      simp [SubjectIdentifier.foreignTo, hsource, hactive]
    have hmem := mem_filter.mpr ⟨hx, hforeign⟩
    rw [h.foreign] at hmem
    exact .inr ⟨hforeign, mem_of_mem_filter hmem⟩

theorem gatherFacts_eq (hfacts : gatherFacts db input = .ok facts) :
    gatherFacts db' input = .ok (resentFacts db' input subjectId referenceId) := by
  obtain ⟨r, hfind, hid, hsubject, hactive, hsnapshot⟩ := h.placed.placed
  obtain ⟨t, ht, htid, -⟩ := h.placed.survives
  have hexisting : existingReference db' input.tuple =
      .ok (some ⟨referenceId, subjectId, snapshotOf input⟩) := by
    simp [existingReference, hfind, hactive, require, hsubject, ht, htid, hid, hsnapshot, Bind.bind,
      Except.bind]
  have hmatches : anchorMatches db' (db'.activeVerified (verifiedKeys input)) =
      .ok ((db'.activeVerified (verifiedKeys input)).filterMap (matchOf db')) := by
    refine anchorMatches_eq_ok.mpr ⟨fun x hx => ?_, rfl⟩
    obtain ⟨hx, hbound, hkey⟩ := mem_activeVerified.mp hx
    rcases h.own_or_foreign hx hbound with hown | ⟨-, hold⟩
    · rw [h.own_subject hx hown]
      exact ⟨t, ht⟩
    · obtain ⟨s, hs⟩ := (matches_of_gatherFacts hfacts).1 x
        (mem_activeVerified.mpr ⟨hold, hbound, hkey⟩)
      obtain ⟨s', hs', -⟩ := h.placed.survivors _ _ hs
      exact ⟨s', hs'⟩
  have hkeys : ((dedupeIdentifiers input.identifiers).filter (·.verified)).map (·.key) =
      verifiedKeys input := rfl
  simp only [gatherFacts, hkeys, hexisting, hmatches, Bind.bind, Except.bind, resentFacts]

/-- Apart from its own subject the reference matches what others have bound. -/
theorem matches_eq (hfacts : gatherFacts db input = .ok facts) :
    ((db'.activeVerified (verifiedKeys input)).filterMap (matchOf db')).filter
        (·.subjectId ≠ subjectId) =
      (foreignMatches db input referenceId).filter (·.subjectId ≠ subjectId) := by
  -- the rows of the reference match its own subject
  have hown : ∀ x ∈ db'.activeVerified (verifiedKeys input), x.foreignTo referenceId = false →
      ∀ m, matchOf db' x = some m → decide (m.subjectId ≠ subjectId) = false := by
    intro x hx hforeign m hm
    obtain ⟨hx, hbound, -⟩ := mem_activeVerified.mp hx
    rcases h.own_or_foreign hx hbound with hown | ⟨hf, -⟩
    · obtain ⟨t, ht, htid, -⟩ := h.placed.survives
      obtain ⟨s, hs, rfl, -⟩ := matchOf_eq_some hm
      rw [h.own_subject hx hown, ht] at hs
      obtain rfl := Except.ok.inj hs
      simp [htid]
    · rw [hf] at hforeign
      cases hforeign
  -- the others match what they matched
  have hsame : ∀ x ∈ (db.activeVerified (verifiedKeys input)).filter (·.foreignTo referenceId),
      matchOf db' x = matchOf db x := by
    intro x hx
    obtain ⟨s, hs⟩ := (matches_of_gatherFacts hfacts).1 x (mem_of_mem_filter hx)
    obtain ⟨s', hs', hid, hmerged⟩ := h.placed.survivors _ _ hs
    rw [matchOf_of_survivor hs, matchOf_of_survivor hs', hid]
    simp only [hmerged]
  have hrows : (db'.activeVerified (verifiedKeys input)).filter (·.foreignTo referenceId) =
      (db.activeVerified (verifiedKeys input)).filter (·.foreignTo referenceId) := by
    unfold GoldenDb.activeVerified
    rw [filter_comm, h.foreign, filter_comm]
  unfold foreignMatches
  rw [filter_filterMap hown, hrows, filterMap_congr hsame]

theorem placeSubject_eq (rule : ResolutionRule) (planned : List PlannedConflict) :
    placeSubject db' ⟨rule, some subjectId, false, planned⟩ = (subjectId, db') := by
  obtain ⟨t, ht, htid, haccess⟩ := h.placed.survives
  have hmem := mem_of_subject? (survivor_of_followMerges ht).1
  have hrows : updateWhere (·.id == subjectId) (fun s : GoldenTalent =>
      { s with
        resolutionStatus :=
          if false && s.resolutionStatus == .provisional then .active else s.resolutionStatus
        accessState := .active }) db'.subjects = db'.subjects := by
    refine updateWhere_eq_self fun s hs hsid => ?_
    rw [inj_on_of_nodup_map h.placed.subjects.nodup hs hmem.1
      ((eq_of_beq hsid).trans htid.symm)]
    rw [Bool.false_and, if_neg Bool.false_ne_true, ← haccess]
  simp only [placeSubject, GoldenDb.updateSubject, hrows]

theorem placeReference_eq :
    placeReference db' (some ⟨referenceId, subjectId, snapshotOf input⟩) input subjectId =
      (referenceId, db') := by
  obtain ⟨r, hfind, hid, hsubject, -, hsnapshot⟩ := h.placed.placed
  have hrows : updateWhere (·.id == referenceId) (fun r : ExternalTalentReference =>
      { r with lastIdentitySnapshot := snapshotOf input, subjectId := subjectId })
        db'.references = db'.references := by
    refine updateWhere_eq_self fun x hx hxid => ?_
    rw [inj_on_of_nodup_map h.placed.references.nodup hx (mem_of_referenceByTuple? hfind).1
      ((eq_of_beq hxid).trans hid.symm), ← hsubject, ← hsnapshot]
  simp only [placeReference, GoldenDb.updateReference, hrows]

theorem decideResolution_eq (hfacts : gatherFacts db input = .ok facts) :
    decideResolution host (resentFacts db' input subjectId referenceId) =
    ⟨.existingReference, some subjectId, false,
      anchorConflict host ⟨referenceId, subjectId, snapshotOf input⟩
        (foreignMatches db input referenceId)⟩ := by
  have hmutation := mutationConflict_self host ⟨referenceId, subjectId, snapshotOf input⟩
  have hanchor := anchorConflict_congr host ⟨referenceId, subjectId, snapshotOf input⟩
    (h.matches_eq hfacts)
  simp only [decideResolution, resentFacts]
  rw [hanchor]
  exact congrArg (ResolutionDecision.mk _ _ _) (congrArg (· ++ _) hmutation)

theorem conflictsOpened_eq (host : Host) (hfacts : gatherFacts db input = .ok facts) (now : Nat) :
    (applyDecision host db' input now (resentFacts db' input subjectId
      referenceId)).1.conflictsOpened
      = ((anchorConflict host ⟨referenceId, subjectId, snapshotOf input⟩
          (foreignMatches db input referenceId)).filter
            fun c => !(openSignatures db' subjectId).contains c.signature).length := by
  unfold applyDecision
  rw [h.decideResolution_eq hfacts]
  dsimp only
  rw [h.placeSubject_eq]
  dsimp only [resentFacts]
  rw [h.placeReference_eq]
  rfl

theorem applyDecision_eq (hfacts : gatherFacts db input = .ok facts) (now : Nat)
    (hseen : ∀ c ∈ anchorConflict host ⟨referenceId, subjectId, snapshotOf input⟩
      (foreignMatches db input referenceId), c.signature ∈ openSignatures db' subjectId) :
    applyDecision host db' input now (resentFacts db' input subjectId referenceId) =
      (⟨subjectId, referenceId, .existingReference, false, false, 0, false⟩, db') := by
  have hopen : openConflicts db' subjectId (anchorConflict host
      ⟨referenceId, subjectId, snapshotOf input⟩ (foreignMatches db input referenceId)) =
        (0, db') := by
    have hnone : (anchorConflict host ⟨referenceId, subjectId, snapshotOf input⟩
        (foreignMatches db input referenceId)).filter
          (fun c => !(openSignatures db' subjectId).contains c.signature) = [] := by
      refine filter_eq_nil_iff.mpr fun c hc => ?_
      rw [contains_iff_mem.mpr (hseen c hc)]
      exact Bool.false_ne_true
    unfold openSignatures at hnone
    simp only [openConflicts, hnone, length_nil, foldl_nil]
  have hrecorded : recordIdentifiers db' subjectId referenceId now
      (dedupeIdentifiers input.identifiers) = (false, db') :=
    recordIdentifiers_of_recorded h.order h.settled h.covered
  unfold applyDecision
  rw [h.decideResolution_eq hfacts]
  dsimp only
  rw [h.placeSubject_eq]
  dsimp only [resentFacts]
  rw [h.placeReference_eq]
  dsimp only
  rw [hopen]
  dsimp only
  rw [hrecorded]
  rfl

end SnapshotSettled

/-! ## The conflicts of the first time -/

variable (host db input facts)

theorem applyDecision_subjectId (now : Nat) :
    (applyDecision host db input now facts).1.subjectId = placedOn host db facts := by
  simp only [applyDecision, placeSubject, placedOn]
  cases (decideResolution host facts).subjectId <;> rfl

theorem applyDecision_referenceId (now : Nat) :
    (applyDecision host db input now facts).1.referenceId = referencedAs host db facts := by
  simp only [applyDecision, placeReference, referencedAs]
  cases facts.existingReference with
  | some ref => rfl
  | none =>
    simp only [placeSubject]
    cases (decideResolution host facts).subjectId <;> rfl

theorem recordIdentifiers_keeps (db : GoldenDb) (subjectId referenceId now : Nat)
    (ids : List ResolutionIdentifier) :
    (recordIdentifiers db subjectId referenceId now ids).2.conflicts = db.conflicts ∧
      (recordIdentifiers db subjectId referenceId now ids).2.inbox = db.inbox := by
  refine Prod.ext_iff.mp ((foldl_frame (g := fun acc : Bool × GoldenDb =>
    (acc.2.conflicts, acc.2.inbox)) ?_ _ _).trans (foldl_frame (g := fun acc : Bool × GoldenDb =>
      (acc.2.conflicts, acc.2.inbox)) ?_ _ _))
  · exact fun _ _ => rfl
  · intro acc id
    unfold recordIdentifier
    split <;> rfl

theorem mem_openSignatures_applyDecision (now : Nat) (signature : JsString) :
    signature ∈ openSignatures (applyDecision host db input now facts).2 (placedOn host db facts) ↔
      signature ∈ openSignatures db (placedOn host db facts) ∨
        signature ∈ (decideResolution host facts).conflicts.map (·.signature) := by
  have hcongr : ∀ {a b : GoldenDb} {s : Nat}, a.conflicts = b.conflicts →
      openSignatures a s = openSignatures b s := by
    intro a b s hab
    simp only [openSignatures, GoldenDb.openConflictsOf, hab]
  have hsubject : (placeSubject db (decideResolution host facts)).1 = placedOn host db facts :=
    applyDecision_subjectId host db input facts now
  unfold applyDecision
  dsimp only
  rw [hcongr (recordIdentifiers_keeps _ _ _ _ _).1, hsubject, mem_openSignatures_openConflicts]
  refine or_congr_left ?_
  obtain ⟨-, -, hplaced, -⟩ := frame_placeSubject (decideResolution host facts) db
  obtain ⟨-, -, hreferenced, -⟩ := frame_placeReference (placedOn host db facts)
    (placeSubject db (decideResolution host facts)).2 facts.existingReference input
  rw [hcongr (hreferenced.trans hplaced)]

theorem applyDecision_inbox (host : Host) (db : GoldenDb) (input : ResolutionInput) (now : Nat)
    (facts : ResolutionFacts) : (applyDecision host db input now facts).2.inbox = db.inbox := by
  have hsubject : (placeSubject db (decideResolution host facts)).2.inbox = db.inbox := by
    unfold placeSubject
    split <;> rfl
  have hreference (mid : GoldenDb) (s : Nat) :
      (placeReference mid facts.existingReference input s).2.inbox = mid.inbox := by
    unfold placeReference
    split <;> rfl
  unfold applyDecision
  dsimp only
  rw [(recordIdentifiers_keeps _ _ _ _ _).2]
  refine (foldl_frame (g := GoldenDb.inbox) ?_ _ _).trans ((hreference _ _).trans hsubject)
  exact fun _ _ => rfl

end After

end AramoPlatform.Intelligence
