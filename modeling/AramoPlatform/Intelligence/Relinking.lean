import AramoPlatform.Intelligence.LiveRows

/-!
# Re-resolution after a verification

Once the talent has confirmed an identifier, the other subjects that vouch for it
are joined. They are found by their identifier rows: an unverified row that
still has a method counts as a refused claim. They are judged by the latest
snapshots of their references. A row and a snapshot that disagree are either a
subject that is passed over or one that is named in a contradiction.
-/

namespace AramoPlatform.Intelligence

open Js Lib List

/-! ## The whole of `relink` -/

/-- The merges that a re-resolution asks for, one transaction each. -/
def mergeInto (subjectId : Nat) (actor : JsString) :
    GoldenDb → List Nat → Except GoldenError GoldenDb
  | db, [] => .ok db
  | db, other :: rest => do
      let merged ← mergeSubjects db other subjectId actor
        (js "R2: verified anchor confirmed by the talent")
      mergeInto subjectId actor merged.2 rest

/-- What a re-resolution leaves: the database after its first transaction, the
subjects that it merged, and the database after the merges. -/
structure Reresolution where
  opened : GoldenDb
  merged : List Nat
  final : GoldenDb

/-- The part of `confirm` after its transaction. -/
def reresolve (host : Host) (db : GoldenDb) (verificationId : Nat) :
    ConfirmTx → Except GoldenError Reresolution
  | .confirmed outcome (some subjectId) key =>
      if outcome = .bound ∨ outcome = .alreadyBound then do
        let (merge, opened) ← relink host db subjectId key
        let final ← mergeInto subjectId (js "verification:" ++ idText verificationId) opened merge
        .ok ⟨opened, merge, final⟩
      else .ok ⟨db, [], db⟩
  | _ => .ok ⟨db, [], db⟩

/-! ## Who vouches -/

/-- An active reference of the subject whose latest snapshot lists the key as verified. -/
def VouchesSome (db : GoldenDb) (key : IdentifierKey) (x : Nat) : Prop :=
  ∃ r ∈ db.references, r.subjectId = x ∧ r.status = .active ∧
    key ∈ r.lastIdentitySnapshot.verified

/-- The subject has an active reference, and all of them list the key as verified. -/
def VouchesAll (db : GoldenDb) (key : IdentifierKey) (x : Nat) : Prop :=
  (∃ r ∈ db.references, r.subjectId = x ∧ r.status = .active) ∧
    ∀ r ∈ db.references, r.subjectId = x → r.status = .active →
      key ∈ r.lastIdentitySnapshot.verified

/-- An active row of the key that is not verified, but has a method and a source. -/
def ClaimOnRecord (db : GoldenDb) (key : IdentifierKey) (x : Nat) : Prop :=
  ∃ i ∈ db.identifiers, i.status = .active ∧ i.key = key ∧ i.verificationStatus ≠ .verified ∧
    i.verificationMethod.isSome = true ∧ i.sourceReferenceId.isSome = true ∧ i.subjectId = x

/-- Another live subject. -/
def OtherLive (db : GoldenDb) (subjectId x : Nat) : Prop := x ≠ subjectId ∧ SubjectLive db x

/-- An open contradiction of the subject that names exactly the subjects with a
property, if there are any; a contradiction is known by its signature. -/
def ContradictionOpen (host : Host) (db : GoldenDb) (subjectId : Nat) (key : IdentifierKey)
    (P : Nat → Prop) : Prop :=
  (∃ x, P x) → ∃ related, (∀ x, x ∈ related ↔ P x) ∧ ∃ c ∈ db.openConflictsOf subjectId,
    c.signature = conflictSignature host .anchorContradiction (uniq related)
      [(js "verified_anchor", .str key.text)]

section Vouching

variable {db : GoldenDb} {key : IdentifierKey} {subjectId x : Nat}

theorem allVouch_iff : allVouch db key x = true ↔ VouchesAll db key x := by
  simp only [allVouch, GoldenDb.referencesOf, filter_filter, Bool.and_eq_true,
    Bool.not_eq_true', isEmpty_eq_false_iff_exists_mem, all_eq_true, mem_filter,
    beq_iff_eq, contains_iff_mem, VouchesAll]
  constructor
  · rintro ⟨⟨r, hr, hactive, hsubject⟩, hall⟩
    exact ⟨⟨r, hr, hsubject, hactive⟩, fun r hr hsubject hactive => hall r ⟨hr, hactive, hsubject⟩⟩
  · rintro ⟨⟨r, hr, hsubject, hactive⟩, hall⟩
    exact ⟨⟨r, hr, hactive, hsubject⟩, fun r hr => hall r hr.1 hr.2.2 hr.2.1⟩

theorem survivors_of_live {rows : List SubjectIdentifier}
    (h : ∀ i ∈ rows, SubjectLive db i.subjectId) :
    survivors db rows = .ok (rows.map (·.subjectId)) := by
  induction rows with
  | nil => rfl
  | cons row rest ih =>
    rw [forall_mem_cons] at h
    obtain ⟨s, hs, hid⟩ := h.1
    have hsurvives := hs.survives
    rw [hid] at hsurvives
    simp only [survivors, hsurvives, ih h.2, bind, Except.bind, if_neg hs.live, hid, map_cons]

/-- The claimants of a key, in a database whose rows are under live subjects. -/
theorem refusedClaimants_spec (hlive : RowsLive db) (subjectId : Nat) (key : IdentifierKey) :
    ∃ others, refusedClaimants db subjectId key = .ok others ∧ others.Nodup ∧
      ∀ x, x ∈ others ↔ x ≠ subjectId ∧ ClaimOnRecord db key x := by
  have hrows : survivors db ((db.activeByKey key).filter fun row =>
      row.verificationStatus != .verified && row.verificationMethod.isSome &&
        row.sourceReferenceId.isSome) = .ok _ :=
    survivors_of_live fun i hi => hlive i (mem_filter.mp (mem_filter.mp hi).1).1
  refine ⟨_, by rw [refusedClaimants, hrows]; rfl, nodup_reverse.mpr (nodup_dedup _), ?_⟩
  intro x
  simp only [mem_reverse, mem_dedup, mem_filter, mem_map, GoldenDb.activeByKey,
    ClaimOnRecord, Bool.and_eq_true, beq_iff_eq, bne_iff_ne, decide_eq_true_eq]
  constructor
  · rintro ⟨⟨i, ⟨⟨hi, hactive, hkey⟩, ⟨hnot, hmethod⟩, hsource⟩, rfl⟩, hne⟩
    exact ⟨hne, i, hi, hactive, hkey, hnot, hmethod, hsource, rfl⟩
  · rintro ⟨hne, i, hi, hactive, hkey, hnot, hmethod, hsource, rfl⟩
    exact ⟨⟨i, ⟨⟨hi, hactive, hkey⟩, ⟨hnot, hmethod⟩, hsource⟩, rfl⟩, hne⟩

end Vouching

/-! ## The first transaction -/

/-- A claimant that does not vouch with all its references. -/
def PartClaimant (db : GoldenDb) (key : IdentifierKey) (subjectId x : Nat) : Prop :=
  x ≠ subjectId ∧ ClaimOnRecord db key x ∧ ¬ VouchesAll db key x

/-- What opening a contradiction about some subjects leaves. -/
structure OpenedFor (host : Host) (db : GoldenDb) (subjectId : Nat) (key : IdentifierKey)
    (P : Nat → Prop) (db' : GoldenDb) : Prop where
  subjects : db'.subjects = db.subjects
  kept : ContradictionOpen host db subjectId key P → db' = db
  named : ¬ ContradictionOpen host db subjectId key P → ∃ c, db'.conflicts = db.conflicts ++ [c] ∧
    c ∉ db.conflicts ∧ c.subjectId = subjectId ∧ c.conflictType = .anchorContradiction ∧
    c.status = .open ∧ (∀ x, x ∈ c.relatedSubjectIds ↔ P x) ∧
    c.signature = conflictSignature host .anchorContradiction (uniq c.relatedSubjectIds)
      [(js "verified_anchor", .str key.text)]

section Open

variable {host : Host} {db : GoldenDb} {subjectId : Nat} {key : IdentifierKey} {P : Nat → Prop}
  {others : List Nat}

theorem uniq_uniq (xs : List Nat) : uniq (uniq xs) = uniq xs :=
  uniq_congr fun _ => mem_uniq

theorem openedFor (hconflicts : Keyed (·.id) db.conflicts db.nextId)
    (hothers : ∀ x, x ∈ others ↔ P x) (hnot : ∀ x, P x → x ≠ subjectId) :
    OpenedFor host db subjectId key P
      (if others = [] then db else openContradiction host db subjectId others key) := by
  by_cases hnil : others = []
  · rw [if_pos hnil]
    refine ⟨rfl, fun _ => rfl, fun hclosed => absurd ?_ hclosed⟩
    rintro ⟨x, hx⟩
    rw [← hothers, hnil] at hx
    cases hx
  · rw [if_neg hnil]
    have hsame : others.filter (· ≠ subjectId) = others := by
      refine filter_eq_self.mpr fun x hx => ?_
      simpa using hnot x ((hothers x).mp hx)
    obtain ⟨y, hy⟩ := exists_mem_of_ne_nil _ hnil
    -- the contradiction is open when its signature is
    have hopen : ContradictionOpen host db subjectId key P ↔
        ((db.openConflictsOf subjectId).any (·.signature == conflictSignature host
          .anchorContradiction (uniq others) [(js "verified_anchor", .str key.text)])) = true := by
      simp only [any_eq_true, beq_iff_eq]
      constructor
      · intro h
        obtain ⟨related, hrelated, c, hc, hsignature⟩ := h ⟨y, (hothers y).mp hy⟩
        refine ⟨c, hc, hsignature.trans ?_⟩
        rw [uniq_congr fun x => (hrelated x).trans (hothers x).symm]
      · rintro ⟨c, hc, hsignature⟩ -
        exact ⟨others, hothers, c, hc, hsignature⟩
    unfold openContradiction
    rw [hsame]
    dsimp only
    split
    next hany => exact ⟨rfl, fun _ => rfl, fun hclosed => absurd (hopen.mpr hany) hclosed⟩
    next hany =>
      refine ⟨rfl, fun h => absurd (hopen.mp h) hany, fun _ => ?_⟩
      refine ⟨_, rfl, fun hmem => ?_, rfl, rfl, rfl, fun x => mem_uniq.trans (hothers x), ?_⟩
      · exact absurd (hconflicts.lt _ hmem) (Nat.lt_irrefl _)
      · rw [uniq_uniq]

/-- The first transaction succeeds, merges the claimants that vouch with all their
references and opens a contradiction about the other claimants. -/
theorem relink_spec (host : Host) (hconflicts : Keyed (·.id) db.conflicts db.nextId)
    (hlive : RowsLive db) (subjectId : Nat) (key : IdentifierKey) :
    ∃ merge opened, relink host db subjectId key = .ok (merge, opened) ∧ merge.Nodup ∧
      (∀ x, x ∈ merge ↔ x ≠ subjectId ∧ ClaimOnRecord db key x ∧ VouchesAll db key x) ∧
      OpenedFor host db subjectId key (PartClaimant db key subjectId) opened := by
  obtain ⟨others, hothers, hnodup, hmem⟩ := refusedClaimants_spec hlive subjectId key
  refine ⟨_, _, by rw [relink, hothers]; rfl, hnodup.filter _, fun x => ?_,
    openedFor hconflicts (fun x => ?_) fun x hx => hx.1⟩
  · rw [mem_filter, hmem, allVouch_iff, and_assoc]
  · rw [mem_filter, hmem, Bool.not_eq_true', ← Bool.not_eq_true, allVouch_iff, and_assoc]
    rfl

end Open

/-! ## The merges -/

/-- The subject is merged into another. -/
def MergedInto (db : GoldenDb) (x subjectId : Nat) : Prop :=
  ∃ s, db.subject? x = some s ∧ s.resolutionStatus = .merged ∧ s.mergedIntoId = some subjectId

section Merges

variable {db : GoldenDb} {subjectId : Nat}

theorem merge_of_live (hsubject : SubjectLive db subjectId) {x : Nat} (hx : SubjectLive db x)
    (hne : x ≠ subjectId) (actor reason : JsString) :
    ∃ out, mergeSubjects db x subjectId actor reason = .ok out ∧ SubjectLive out.2 subjectId ∧
      MergedInto out.2 x subjectId ∧
      ∀ y, y ≠ x → y ≠ subjectId → out.2.subject? y = db.subject? y := by
  obtain ⟨t, ht, rfl⟩ := hsubject
  obtain ⟨s, hs, rfl⟩ := hx
  have hout : mergeSubjects db s.id t.id actor reason =
      .ok (applyMerge db s t (rowsOf db s.id) actor reason) := by
    simp only [mergeSubjects, require, hne, ne_eq, not_false_eq_true, decide_true, if_true,
      liveSubject_eq_ok.mpr ⟨hs.found, hs.live⟩, liveSubject_eq_ok.mpr ⟨ht.found, ht.live⟩, bind,
      Except.bind]
  obtain ⟨source, target, hmerge, hsource, htarget⟩ := merge_spec hout
  have hfind := subject?_rewritten hmerge.subjects (fun _ => rfl) (fun _ => rfl) hmerge.ne
  refine ⟨_, hout, ?_, ?_, fun y hys hyt => ?_⟩
  · rw [← htarget]
    exact subjectLive_merge hmerge ⟨target, hmerge.liveTarget, rfl⟩ hmerge.ne.symm
  · refine ⟨mergedAway target.id s, ?_, rfl, congrArg some htarget⟩
    rw [hfind, if_neg (by rwa [htarget]), if_pos hsource.symm, hs.found]
    rfl
  · rw [hfind, if_neg (by rwa [htarget]), if_neg (by rwa [hsource])]

theorem mergeInto_spec (actor : JsString) {others : List Nat} (hnodup : others.Nodup)
    (hsubject : SubjectLive db subjectId)
    (hothers : ∀ x ∈ others, x ≠ subjectId ∧ SubjectLive db x) :
    ∃ final, mergeInto subjectId actor db others = .ok final ∧
      (∀ x ∈ others, MergedInto final x subjectId) ∧
      ∀ y, y ∉ others → y ≠ subjectId → final.subject? y = db.subject? y := by
  induction others generalizing db with
  | nil =>
    refine ⟨db, rfl, fun x hx => ?_, fun _ _ _ => rfl⟩
    cases hx
  | cons x rest ih =>
    obtain ⟨hx, hrest⟩ := nodup_cons.mp hnodup
    obtain ⟨hhead, htail⟩ := forall_mem_cons.mp hothers
    obtain ⟨out, hout, hlive, hmerged, hkept⟩ := merge_of_live hsubject hhead.2 hhead.1 actor
      (js "R2: verified anchor confirmed by the talent")
    have hstill : ∀ y ∈ rest, y ≠ subjectId ∧ SubjectLive out.2 y := by
      intro y hy
      obtain ⟨hne, s, hs, rfl⟩ := htail y hy
      refine ⟨hne, s, ⟨?_, hs.live⟩, rfl⟩
      rw [hkept s.id (fun heq => hx (heq ▸ hy)) hne]
      exact hs.found
    obtain ⟨final, hfinal, hall, hother⟩ := ih hrest hlive hstill
    refine ⟨final, by rw [mergeInto, hout]; exact hfinal, ?_, fun y hy hne => ?_⟩
    · intro y hy
      rcases mem_cons.mp hy with rfl | hy
      · obtain ⟨s, hs, hstatus, hinto⟩ := hmerged
        exact ⟨s, (hother y hx hhead.1).trans hs, hstatus, hinto⟩
      · exact hall y hy
    · rw [mem_cons, not_or] at hy
      rw [hother y hy.2 hne, hkept y hy.1 hne]

end Merges

/-! ## Exactly the vouching subjects are joined -/

/-- Another live subject that vouches with some of its references, not with all. -/
def VouchesPartly (db : GoldenDb) (key : IdentifierKey) (subjectId x : Nat) : Prop :=
  OtherLive db subjectId x ∧ VouchesSome db key x ∧ ¬ VouchesAll db key x

/-- The other live subjects that vouch are merged into the subject, those that
vouch partly are named in a contradiction, and nobody else is touched. -/
structure RejoinsExactly (host : Host) (db : GoldenDb) (subjectId : Nat) (key : IdentifierKey)
    (out : Reresolution) : Prop where
  joined : ∀ x, OtherLive db subjectId x →
    (MergedInto out.final x subjectId ↔ VouchesAll db key x)
  alone : ∀ x, x ≠ subjectId → ¬ (OtherLive db subjectId x ∧ VouchesAll db key x) →
    out.final.subject? x = db.subject? x
  named : ContradictionOpen host out.opened subjectId key (VouchesPartly db key subjectId)
  only : ∀ c ∈ out.opened.conflicts, c ∉ db.conflicts →
    c.subjectId = subjectId ∧ c.conflictType = .anchorContradiction ∧
      ∀ x, x ∈ c.relatedSubjectIds ↔ VouchesPartly db key subjectId x

/-- The identifier rows say what the latest snapshots say. Where they do not, the
contradictions that either asks for are open already. -/
structure RowsAgree (host : Host) (db : GoldenDb) (subjectId : Nat) (key : IdentifierKey) :
    Prop where
  claimed : ∀ x, OtherLive db subjectId x → VouchesAll db key x → ClaimOnRecord db key x
  partly : (∀ x, OtherLive db subjectId x → ¬ VouchesAll db key x →
      (ClaimOnRecord db key x ↔ VouchesSome db key x)) ∨
    ContradictionOpen host db subjectId key (PartClaimant db key subjectId) ∧
      ContradictionOpen host db subjectId key (VouchesPartly db key subjectId)

section Exactly

variable {host : Host} {db : GoldenDb} {subjectId : Nat} {key : IdentifierKey}

theorem ContradictionOpen.congr {P Q : Nat → Prop} (hsame : ∀ x, P x ↔ Q x)
    (h : ContradictionOpen host db subjectId key P) :
      ContradictionOpen host db subjectId key Q := by
  intro hsome
  obtain ⟨x, hx⟩ := hsome
  obtain ⟨related, hrelated, hopen⟩ := h ⟨x, (hsame x).mpr hx⟩
  exact ⟨related, fun y => (hrelated y).trans (hsame y), hopen⟩

theorem ClaimOnRecord.live (hlive : RowsLive db) {x : Nat} (h : ClaimOnRecord db key x) :
    SubjectLive db x := by
  obtain ⟨i, hi, -, -, -, -, -, rfl⟩ := h
  exact hlive i hi

/-- The claimants that do not vouch with all their references are the subjects that
vouch partly when the rows agree with the snapshots. -/
theorem partClaimant_iff_partly (hlive : RowsLive db) :
    (∀ x, PartClaimant db key subjectId x ↔ VouchesPartly db key subjectId x) ↔
      ∀ x, OtherLive db subjectId x → ¬ VouchesAll db key x →
        (ClaimOnRecord db key x ↔ VouchesSome db key x) := by
  constructor
  · intro h x hx hnot
    constructor
    · intro hclaim
      exact ((h x).mp ⟨hx.1, hclaim, hnot⟩).2.1
    · intro hsome
      exact ((h x).mpr ⟨hx, hsome, hnot⟩).2.1
  · intro h x
    constructor
    · rintro ⟨hne, hclaim, hnot⟩
      have hx : OtherLive db subjectId x := ⟨hne, hclaim.live hlive⟩
      exact ⟨hx, (h x hx hnot).mp hclaim, hnot⟩
    · rintro ⟨hx, hsome, hnot⟩
      exact ⟨hx.1, (h x hx hnot).mpr hsome, hnot⟩

/-- What was opened is what was asked for when the two sets are one, or nothing
was opened and the contradiction that was asked for was there. -/
theorem OpenedFor.named_only_iff {db' : GoldenDb} {P Q : Nat → Prop}
    (h : OpenedFor host db subjectId key P db') :
    (ContradictionOpen host db' subjectId key Q ∧ ∀ c ∈ db'.conflicts, c ∉ db.conflicts →
        c.subjectId = subjectId ∧ c.conflictType = .anchorContradiction ∧
          ∀ x, x ∈ c.relatedSubjectIds ↔ Q x) ↔
      (∀ x, P x ↔ Q x) ∨
        ContradictionOpen host db subjectId key P ∧ ContradictionOpen host db subjectId key Q := by
  by_cases hopen : ContradictionOpen host db subjectId key P
  · have hsame := h.kept hopen
    subst hsame
    constructor
    · intro hboth
      exact .inr ⟨hopen, hboth.1⟩
    · intro hcases
      refine ⟨?_, fun c hc hnew => absurd hc hnew⟩
      rcases hcases with hiff | hboth
      · exact hopen.congr hiff
      · exact hboth.2
  · obtain ⟨c, hconflicts, hfresh, hsubject, htype, hstatus, hrelated, hsignature⟩ := h.named hopen
    have hmem : c ∈ db'.conflicts := by
      rw [hconflicts]
      exact mem_append_right _ (mem_singleton.mpr rfl)
    constructor
    · intro hboth
      have hnames := (hboth.2 c hmem hfresh).2.2
      exact .inl fun x => (hrelated x).symm.trans (hnames x)
    · intro hcases
      rcases hcases with hiff | hboth
      · constructor
        · intro _
          refine ⟨c.relatedSubjectIds, fun x => (hrelated x).trans (hiff x), c, ?_, hsignature⟩
          simp [GoldenDb.openConflictsOf, hmem, hsubject, hstatus]
        · intro d hd hnew
          rw [hconflicts, mem_append, mem_singleton] at hd
          rcases hd with hold | rfl
          · exact absurd hold hnew
          · exact ⟨hsubject, htype, fun x => (hrelated x).trans (hiff x)⟩
      · exact absurd hboth.1 hopen

/-- A re-resolution succeeds, and joins exactly the vouching subjects when the rows
agree with the snapshots. -/
theorem reresolve_exactly (host : Host) (hconflicts : Keyed (·.id) db.conflicts db.nextId)
    (hlive : RowsLive db) (hsubject : SubjectLive db subjectId) (verificationId : Nat)
    {outcome : VerificationConfirmOutcome} (houtcome : outcome = .bound ∨ outcome = .alreadyBound) :
    ∃ out, reresolve host db verificationId (.confirmed outcome (some subjectId) key) = .ok out ∧
      (RejoinsExactly host db subjectId key out ↔ RowsAgree host db subjectId key) := by
  obtain ⟨merge, opened, hrelink, hnodup, hmerge, hopened⟩ :=
    relink_spec host hconflicts hlive subjectId key
  have hall : ∀ x ∈ merge, x ≠ subjectId ∧ SubjectLive opened x := by
    intro x hx
    obtain ⟨hne, hclaim, -⟩ := (hmerge x).mp hx
    exact ⟨hne, (hclaim.live hlive).congr hopened.subjects⟩
  obtain ⟨final, hfinal, hinto, hkept⟩ :=
    mergeInto_spec (js "verification:" ++ idText verificationId)
    hnodup (hsubject.congr hopened.subjects) hall
  have hout : reresolve host db verificationId (.confirmed outcome (some subjectId) key) =
      .ok ⟨opened, merge, final⟩ := by
    simp only [reresolve, if_pos houtcome, hrelink, hfinal, bind, Except.bind]
  -- a subject that is not merged is as it was
  have hstays : ∀ x, x ∉ merge → x ≠ subjectId → final.subject? x = db.subject? x := by
    intro x hx hne
    rw [hkept x hx hne, GoldenDb.subject?, hopened.subjects, GoldenDb.subject?]
  have hmerged : ∀ x, OtherLive db subjectId x → (MergedInto final x subjectId ↔ x ∈ merge) := by
    intro x hx
    refine ⟨fun hmerged => ?_, hinto x⟩
    by_contra hnot
    obtain ⟨hne, s, hs, rfl⟩ := hx
    obtain ⟨t, ht, hstatus, -⟩ := hmerged
    rw [hstays s.id hnot hne, hs.found] at ht
    obtain rfl := Option.some.inj ht
    exact hs.live hstatus
  refine ⟨_, hout, fun h => ⟨?_, ?_⟩, fun h => ⟨?_, ?_, ?_, ?_⟩⟩
  · intro x hx hvouches
    exact ((hmerge x).mp ((hmerged x hx).mp ((h.joined x hx).mpr hvouches))).2.1
  · rw [← partClaimant_iff_partly hlive]
    exact hopened.named_only_iff.mp ⟨h.named, h.only⟩
  · intro x hx
    rw [hmerged x hx, hmerge]
    exact ⟨fun hm => hm.2.2, fun hvouches => ⟨hx.1, h.claimed x hx hvouches, hvouches⟩⟩
  · intro x hne hnot
    refine hstays x (fun hx => hnot ?_) hne
    obtain ⟨-, hclaim, hvouches⟩ := (hmerge x).mp hx
    exact ⟨⟨hne, hclaim.live hlive⟩, hvouches⟩
  · have hpartly := h.partly
    rw [← partClaimant_iff_partly hlive] at hpartly
    exact (hopened.named_only_iff.mpr hpartly).1
  · have hpartly := h.partly
    rw [← partClaimant_iff_partly hlive] at hpartly
    exact (hopened.named_only_iff.mpr hpartly).2

/-- After every confirmation that binds, in every reachable state. -/
theorem rejoins_exactly_iff {env : GoldenEnv} {start before after : GoldenDb} {ops : List GoldenOp}
    (hstart : Seeded start) (hrun : Run (GoldenStep env) start ops before) {id now : Nat}
    {code : JsString} {outcome : VerificationConfirmOutcome}
    (houtcome : outcome = .bound ∨ outcome = .alreadyBound)
    (hconfirm : confirmVerification env.host before id code now =
      .ok (.confirmed outcome (some subjectId) key, after)) :
    ∃ out, reresolve env.host after id (.confirmed outcome (some subjectId) key) = .ok out ∧
      (RejoinsExactly env.host after subjectId key out ↔
        RowsAgree env.host after subjectId key) := by
  obtain ⟨hmerges, hlive⟩ := rowsLive_of_run hstart hrun
  have hstep : GoldenStep env before (.confirm id code now) after := by
    rw [GoldenStep, goldenResult, hconfirm]
    rfl
  have hmerges' := mergesInOrder_of_step before _ after hmerges hstep
  have hlive' := rowsLive_of_step before _ after hmerges hlive hstep
  have hsubject : SubjectLive after subjectId := by
    rcases confirm_cases hconfirm with ⟨⟨_, _, hrefused⟩, -⟩ | ⟨req, subject, -, hsubject, hbind⟩
    · cases hrefused
    · obtain ⟨_, htx⟩ := (bindSubject_spec hbind).1
      obtain ⟨-, rfl, -⟩ := ConfirmTx.confirmed.inj htx
      refine (confirmSubject_live hmerges.subjects hsubject).congr ?_
      exact (statements_confirm hconfirm).frame (t := .subjects) (by simp [confirmTables])
  exact reresolve_exactly env.host hmerges'.rows.conflicts hlive' hsubject id houtcome

end Exactly

/-! ## Rows that disagree -/

/-- A snapshot with one e-mail address. -/
def mailSnapshot (tuple : SourceTuple) (eventId : String) (verification : Option WireVerification) :
    TalentIngestRequest :=
  ⟨tuple, js eventId, 0, ⟨none, [⟨js "ann@x.io", false, verification⟩], [], []⟩, []⟩

def checkedByMail : WireVerification := ⟨true, some (js "EMAIL_OTP"), some (js "ats"), some 0⟩

def bobsTuple : SourceTuple := ⟨js "ATS", js "T2", js "bob"⟩

/-- Ann asks to verify the address. -/
def annVerifies : GoldenOp :=
  .createVerification (js "salt") ⟨⟨.email, js "ann@x.io"⟩, .sourceReference ann⟩ anAts 0

/-- Bob's source vouches for an address that is bound to Ann. -/
def refusedAddress : List GoldenOp :=
  [.ingest (nameSnapshot bobsTuple "b1") anAts 0,
    .ingest (mailSnapshot ann "a" (some checkedByMail)) anAts 0,
    .ingest (mailSnapshot bobsTuple "b2" (some checkedByMail)) anAts 0, annVerifies]

/-- Bob's source vouched for the address of Ann, and takes it back. -/
def releasedAddress : List GoldenOp :=
  [.ingest (mailSnapshot bobsTuple "b1" (some checkedByMail)) anAts 0,
    .ingest (mailSnapshot bobsTuple "b2" none) anAts 0, .ingest (nameSnapshot ann "a") anAts 0,
    annVerifies]

/-- The subjects of references and identifiers, of which the rows can tell anything. -/
def rowSubjects (db : GoldenDb) : List Nat :=
  db.references.map (·.subjectId) ++ db.identifiers.map (·.subjectId)

/-- The rows of the subject say what its snapshots say. -/
def RowsAgreeOf (db : GoldenDb) (key : IdentifierKey) (x : Nat) : Prop :=
  (VouchesAll db key x → ClaimOnRecord db key x) ∧
    (¬ VouchesAll db key x → (ClaimOnRecord db key x ↔ VouchesSome db key x))

theorem rowsAgree_of_subjects {host : Host} {db : GoldenDb} {subjectId : Nat} {key : IdentifierKey}
    (h : ∀ x ∈ rowSubjects db, x = subjectId ∨ RowsAgreeOf db key x) :
    RowsAgree host db subjectId key := by
  have hreference : ∀ r ∈ db.references, r.subjectId ∈ rowSubjects db := fun _ hr =>
    mem_append_left _ (mem_map_of_mem hr)
  have hidentifier : ∀ i ∈ db.identifiers, i.subjectId ∈ rowSubjects db := fun _ hi =>
    mem_append_right _ (mem_map_of_mem hi)
  constructor
  · intro x hx hall
    obtain ⟨⟨r, hr, rfl, -⟩, -⟩ := id hall
    exact ((h _ (hreference r hr)).resolve_left hx.1).1 hall
  · refine .inl fun x hx hnot => ⟨fun hclaim => ?_, fun hsome => ?_⟩
    · obtain ⟨i, hi, -, -, -, -, -, rfl⟩ := id hclaim
      exact (((h _ (hidentifier i hi)).resolve_left hx.1).2 hnot).mp hclaim
    · obtain ⟨r, hr, rfl, -⟩ := id hsome
      exact (((h _ (hreference r hr)).resolve_left hx.1).2 hnot).mpr hsome

instance (db : GoldenDb) (key : IdentifierKey) (x : Nat) : Decidable (VouchesSome db key x) :=
  inferInstanceAs (Decidable (∃ r ∈ db.references, _))

instance (db : GoldenDb) (key : IdentifierKey) (x : Nat) : Decidable (VouchesAll db key x) :=
  inferInstanceAs (Decidable ((∃ r ∈ db.references, _) ∧ ∀ r ∈ db.references, _))

instance (db : GoldenDb) (key : IdentifierKey) (x : Nat) : Decidable (ClaimOnRecord db key x) :=
  inferInstanceAs (Decidable (∃ i ∈ db.identifiers, _))

instance (db : GoldenDb) (key : IdentifierKey) (x : Nat) : Decidable (RowsAgreeOf db key x) :=
  inferInstanceAs (Decidable ((_ → _) ∧ (¬ _ → (_ ↔ _))))

/-- The rows agree on the refused address, and Bob is joined. -/
theorem rejoins_exactly_refused :
    ∃ before after out, Run (GoldenStep plainEnv) .empty refusedAddress before ∧
      confirmVerification plainHost before 10 (js "894829") 1 =
        .ok (.confirmed .alreadyBound (some 4) ⟨.email, js "ann@x.io"⟩, after) ∧
      reresolve plainHost after 10 (.confirmed .alreadyBound (some 4) ⟨.email,
        js "ann@x.io"⟩) = .ok out ∧
      VouchesAll after ⟨.email, js "ann@x.io"⟩ 0 ∧
      RejoinsExactly plainHost after 4 ⟨.email, js "ann@x.io"⟩ out := by
  obtain ⟨before, hrun, hp⟩ := goldenRun_of_exec plainEnv .empty refusedAddress (fun db =>
    (confirmVerification plainHost db 10 (js "894829") 1).toOption.any
      fun (c : ConfirmTx × GoldenDb) =>
        c.1 == .confirmed .alreadyBound (some 4) ⟨.email, js "ann@x.io"⟩ &&
        decide (VouchesAll c.2 ⟨.email, js "ann@x.io"⟩ 0) &&
        decide (∀ x ∈ rowSubjects c.2, x = 4 ∨ RowsAgreeOf c.2 ⟨.email, js "ann@x.io"⟩ x))
    (by decide +kernel)
  cases hconfirm : confirmVerification plainHost before 10 (js "894829") 1 with
  | error e =>
    rw [hconfirm] at hp
    cases hp
  | ok c =>
    obtain ⟨tx, after⟩ := c
    rw [hconfirm] at hp
    simp only [Except.toOption, Option.any_some, Bool.and_eq_true, beq_iff_eq,
      decide_eq_true_eq] at hp
    obtain ⟨⟨rfl, hvouches⟩, hagree⟩ := hp
    have hseed : Seeded .empty := ⟨rfl, nodup_nil, fun _ hx => by cases hx⟩
    obtain ⟨out, hout, hiff⟩ := rejoins_exactly_iff hseed hrun (.inr rfl) hconfirm
    exact ⟨before, after, out, hrun, hconfirm, hout, hvouches,
      hiff.mpr (rowsAgree_of_subjects hagree)⟩

/-- A contradiction names Bob, whose source no longer vouches for the address. -/
theorem released_address_is_named :
    ¬ ∀ (env : GoldenEnv) (ops : List GoldenOp) (before after : GoldenDb) (id now : Nat)
      (code : JsString) (outcome : VerificationConfirmOutcome) (subjectId : Nat)
      (key : IdentifierKey), Run (GoldenStep env) .empty ops before →
      outcome = .bound ∨ outcome = .alreadyBound →
      confirmVerification env.host before id code now =
        .ok (.confirmed outcome (some subjectId) key, after) →
      ∃ out, reresolve env.host after id (.confirmed outcome (some subjectId) key) = .ok out ∧
        RejoinsExactly env.host after subjectId key out := by
  intro h
  obtain ⟨before, hrun, hp⟩ := goldenRun_of_exec plainEnv .empty releasedAddress (fun db =>
    (confirmVerification plainHost db 7 (js "457645") 1).toOption.any fun c =>
      c.1 == .confirmed .bound (some 3) ⟨.email, js "ann@x.io"⟩ &&
        (c.2.references.all fun r =>
          !r.lastIdentitySnapshot.verified.contains ⟨.email, js "ann@x.io"⟩) &&
        (reresolve plainHost c.2 7 c.1).toOption.any fun out => out.opened.conflicts.any fun d =>
          !c.2.conflicts.contains d && d.relatedSubjectIds.contains 0) (by decide +kernel)
  cases hconfirm : confirmVerification plainHost before 7 (js "457645") 1 with
  | error e =>
    rw [hconfirm] at hp
    cases hp
  | ok c =>
    obtain ⟨tx, after⟩ := c
    rw [hconfirm] at hp
    simp only [Except.toOption, Option.any_some, Bool.and_eq_true, beq_iff_eq] at hp
    obtain ⟨⟨rfl, hnobody⟩, hopened⟩ := hp
    obtain ⟨out, hout, hexact⟩ := h plainEnv _ _ _ 7 1 _ _ _ _ hrun (.inl rfl) hconfirm
    rw [show reresolve plainHost after 7 _ = .ok out from hout] at hopened
    simp only [Option.any_some, any_eq_true, Bool.and_eq_true, Bool.not_eq_true',
      ← Bool.not_eq_true, contains_iff_mem] at hopened
    obtain ⟨d, hd, hnew, hnamed⟩ := hopened
    -- a named subject has a reference whose snapshot lists the address
    obtain ⟨-, ⟨r, hr, -, -, hlisted⟩, -⟩ := ((hexact.only d hd hnew).2.2 0).mp hnamed
    have hnot := all_eq_true.mp hnobody r hr
    rw [contains_iff_mem.mpr hlisted] at hnot
    cases hnot

end AramoPlatform.Intelligence
