import AramoPlatform.Intelligence.IdentityEffects

/-!
# Claims of a reference

A source reference makes a claim once: it has one live assertion per content
hash, and none for a hash that was revoked. An assertion that is retired stays
what it is, in every operation.
-/

namespace AramoPlatform.Intelligence

open Js Lib List

/-- What every operation keeps of an assertion. -/
def ClaimKept (y x : Assertion) : Prop :=
  SameClaim y x ∧ (y.currentStatus.retired = true → x.currentStatus = y.currentStatus)

theorem ClaimKept.refl (y : Assertion) : ClaimKept y y := ⟨.refl y, fun _ => rfl⟩

theorem ClaimKept.trans {x y z : Assertion} (h : ClaimKept x y) (h' : ClaimKept y z) :
    ClaimKept x z := by
  refine ⟨h.1.trans h'.1, fun hretired => ?_⟩
  have hy := h.2 hretired
  rw [h'.2 (by rw [hy]; exact hretired), hy]

theorem claimKept_of_outsideKept {y x : Assertion} (h : OutsideKept y x) : ClaimKept y x := by
  refine ⟨h.1, fun hretired => ?_⟩
  rcases h.2 with hsame | ⟨hlive, -⟩
  · exact hsame
  · rw [hretired] at hlive
    cases hlive

/-- The rows of a reference and a hash. -/
structure SameContent (r : Nat) (a b : Assertion) : Prop where
  left : a.sourceReferenceId = some r
  right : b.sourceReferenceId = some r
  hash : a.contentHash = b.contentHash

/-- One live claim per hash, and none of a revoked one. -/
structure ClaimsInOrder (db : GoldenDb) : Prop where
  keyed : Keyed (·.id) db.assertions db.nextId
  sources : ∀ a ∈ db.assertions, ∀ r, a.sourceReferenceId = some r → r < db.nextId
  live : ∀ a ∈ db.assertions, ∀ b ∈ db.assertions, ∀ r, SameContent r a b →
    a.currentStatus.retired = false → b.currentStatus.retired = false → a = b
  revoked : ∀ a ∈ db.assertions, ∀ b ∈ db.assertions, ∀ r, SameContent r a b →
    a.currentStatus.retired = false → b.currentStatus ≠ .revoked

theorem SameClaim.content {y x y' x' : Assertion} (h : SameClaim y x) (h' : SameClaim y' x')
    {r : Nat} (hsame : SameContent r x x') : SameContent r y y' := by
  obtain ⟨hl, hr, hh⟩ := hsame
  rw [h] at hl hh
  rw [h'] at hr hh
  exact ⟨hl, hr, hh⟩

/-- What an operation that is no ingest does to the assertions. -/
abbrev ClaimStep (db db' : GoldenDb) : Prop :=
  Continues (·.id) ClaimKept (fun x => x.sourceReferenceId = none) db.assertions db.nextId
    db'.assertions db'.nextId

variable {db db' : GoldenDb}

theorem claimsInOrder_of_claimStep (h : ClaimsInOrder db)
    (hstep : ClaimStep db db') : ClaimsInOrder db' := by
  -- a row with a source is an old one
  have hold : ∀ x ∈ db'.assertions, ∀ r, x.sourceReferenceId = some r →
      ∃ y ∈ db.assertions, x.id = y.id ∧ ClaimKept y x := by
    intro x hx r hr
    rcases hstep.origin x hx with hold | ⟨-, hnone⟩
    · exact hold
    · rw [hnone] at hr
      cases hr
  have hlive : ∀ {y x : Assertion}, ClaimKept y x → x.currentStatus.retired = false →
      y.currentStatus.retired = false := by
    intro y x hkept hx
    by_contra hretired
    have hretired : y.currentStatus.retired = true := by simpa using hretired
    rw [hkept.2 hretired, hretired] at hx
    cases hx
  refine ⟨hstep.keyed, ?_, ?_, ?_⟩
  · intro x hx r hr
    obtain ⟨y, hy, -, hkept⟩ := hold x hx r hr
    have hsource : x.sourceReferenceId = y.sourceReferenceId := by rw [hkept.1]
    exact Nat.lt_of_lt_of_le (h.sources y hy r (hsource ▸ hr)) hstep.le
  · intro x hx x' hx' r hsame hxlive hxlive'
    obtain ⟨y, hy, hid, hkept⟩ := hold x hx r hsame.left
    obtain ⟨y', hy', hid', hkept'⟩ := hold x' hx' r hsame.right
    have hyy := h.live y hy y' hy' r (hkept.1.content hkept'.1 hsame) (hlive hkept hxlive)
      (hlive hkept' hxlive')
    exact inj_on_of_nodup_map hstep.keyed.nodup hx hx' (hid.trans (hyy ▸ hid'.symm))
  · intro x hx x' hx' r hsame hxlive hrevoked
    obtain ⟨y, hy, hid, hkept⟩ := hold x hx r hsame.left
    obtain ⟨y', hy', hid', hkept'⟩ := hold x' hx' r hsame.right
    have hsame' := hkept.1.content hkept'.1 hsame
    cases hretired : y'.currentStatus.retired with
    | true =>
      -- it was revoked before
      have hbefore := (hkept'.2 hretired).symm.trans hrevoked
      exact h.revoked y hy y' hy' r hsame' (hlive hkept hxlive) hbefore
    | false =>
      -- it was the live claim, so the live row is the revoked one
      have hyy := h.live y hy y' hy' r hsame' (hlive hkept hxlive) hretired
      have hxx := inj_on_of_nodup_map hstep.keyed.nodup hx hx' (hid.trans (hyy ▸ hid'.symm))
      rw [hxx, hrevoked] at hxlive
      cases hxlive

/-! ## Operations without an ingest -/

theorem claimStep_refl {db : GoldenDb} (hkeyed : Keyed (·.id) db.assertions db.nextId) :
    ClaimStep db db :=
  .refl hkeyed ClaimKept.refl

theorem claimStep_of_outside (h : OutsideStep false db db') : ClaimStep db db' := by
  have hkept := h.assertions
  refine ⟨hkept.keyed, hkept.le, ?_, ?_⟩
  · intro x hx
    rcases hkept.origin x hx with ⟨y, hy, hid, hyx⟩ | ⟨hle, hfresh⟩
    · exact .inl ⟨y, hy, hid, claimKept_of_outsideKept hyx⟩
    · exact .inr ⟨hle, hfresh.2 rfl⟩
  · intro y hy
    obtain ⟨x, hx, hid, hyx⟩ := hkept.stays y hy
    exact ⟨x, hx, hid, claimKept_of_outsideKept hyx⟩

theorem ClaimStep.trans {a b c : GoldenDb} (h : ClaimStep a b) (h' : ClaimStep b c) :
    ClaimStep a c := by
  refine Continues.trans (fun _ _ _ h h' => h.trans h') ?_ h h'
  intro x y hnone hkept
  rw [hkept.1]
  exact hnone

theorem claimStep_disputeSteps : DisputeSteps fun db db' =>
    Keyed (·.id) db.assertions db.nextId → ClaimStep db db' := by
  refine ⟨?_, ?_, ?_⟩
  · intro a b c h h' hkeyed
    exact (h hkeyed).trans (h' (h hkeyed).keyed)
  · intro db db' h hkeyed
    rw [h.rest]
    exact (claimStep_refl hkeyed).mono h.next
  · intro db id source target type actor hlive hkeyed
    unfold moveAssertion
    split
    case isFalse => exact claimStep_refl hkeyed
    case isTrue hcan =>
      refine Continues.mono (Continues.update (claimStep_refl hkeyed) ?_ ?_ ?_) (Nat.le_succ _)
      · exact fun _ => rfl
      case refine_3 => exact fun _ _ hnone _ => hnone
      intro y hy x hx hid hkept hmatch
      -- the row of the id has the status that the move starts from
      obtain ⟨a, ha, hstatus⟩ := any_eq_true.mp hcan
      rw [Bool.and_eq_true, beq_iff_eq, beq_iff_eq] at hstatus
      have hya : y = a := eq_of_assertion_id hkeyed ha hy
        (hid.symm.trans ((eq_of_beq hmatch).trans hstatus.1.symm))
      refine ⟨hkept.1.trans rfl, fun hretired => ?_⟩
      rw [hya, hstatus.2, hlive] at hretired
      cases hretired

theorem claimStep_of_step {env : GoldenEnv} {op : GoldenOp}
    (hkeyed : Keyed (·.id) db.assertions db.nextId) (hop : op.ingests = false)
    (h : GoldenStep env db op db') : ClaimStep db db' := by
  cases hdisputes : op.disputes with
  | true => exact claimStep_disputeSteps.of_step hdisputes h hkeyed
  | false =>
    have hstep := outside_of_step hkeyed hdisputes h
    rw [hop] at hstep
    exact claimStep_of_outside hstep

/-! ## Ingest -/

section Ingest

variable {db : GoldenDb}

/-- An assertion that a snapshot no longer makes. -/
def retire (a : Assertion) : Assertion := { a with currentStatus := .superseded }

/-- The new rows of a table that ends with them. -/
structure ClaimsAdded (db : GoldenDb) (referenceId : Nat) (hashes : List JsString)
    (rows : List Assertion) (db' : GoldenDb) : Prop where
  assertions : db'.assertions = db.assertions ++ rows
  keyed : Keyed (·.id) db'.assertions db'.nextId
  next : db.nextId ≤ db'.nextId
  hashes : rows.map (·.contentHash) = hashes
  fresh : ∀ a ∈ rows, a.sourceReferenceId = some referenceId ∧ a.currentStatus = .valid ∧
    db.nextId ≤ a.id

theorem claimsAdded_of_drafts (req : TalentIngestRequest) (actor : JsString)
    (subjectId referenceId : Nat) (hkeyed : Keyed (·.id) db.assertions db.nextId)
    (drafts : List AssertionDraft) (added : List (Nat × AssertionType)) :
    ∃ rows, ClaimsAdded db referenceId (drafts.map (·.contentHash)) rows
      (drafts.foldl (addAssertion req actor subjectId referenceId) (added, db)).2 := by
  induction drafts generalizing added db with
  | nil => exact ⟨[], by simp, hkeyed, Nat.le_refl _, rfl, by simp⟩
  | cons d rest ih =>
    have hcreated : Keyed (·.id)
        (addAssertion req actor subjectId referenceId (added, db) d).2.assertions
        (addAssertion req actor subjectId referenceId (added, db) d).2.nextId :=
      Keyed.mono (hkeyed.insert rfl) (Nat.le_succ _)
    obtain ⟨rows, hrows⟩ := ih hcreated
      (addAssertion req actor subjectId referenceId (added, db) d).1
    refine ⟨{ assertionOfDraft req subjectId referenceId d with id := db.nextId } :: rows, ?_,
      hrows.keyed, Nat.le_trans (Nat.le_add_right _ 2) hrows.next, ?_, ?_⟩
    · rw [append_cons]
      exact hrows.assertions
    · rw [map_cons, map_cons, hrows.hashes]
      rfl
    · intro a ha
      rcases mem_cons.mp ha with rfl | ha
      · exact ⟨rfl, rfl, Nat.le_refl _⟩
      · obtain ⟨hsource, hvalid, hid⟩ := hrows.fresh a ha
        exact ⟨hsource, hvalid, Nat.le_trans (Nat.le_add_right _ 2) hid⟩

theorem supersede_assertions (actor : JsString) (absent : List Assertion) (db : GoldenDb) :
    (absent.foldl (supersede actor) db).assertions =
      updateWhere (fun a => (absent.map (·.id)).contains a.id) retire db.assertions ∧
    db.nextId ≤ (absent.foldl (supersede actor) db).nextId := by
  induction absent generalizing db with
  | nil => exact ⟨(updateWhere_of_forall_not fun _ _ => rfl).symm, Nat.le_refl _⟩
  | cons a rest ih =>
    obtain ⟨hassertions, hnext⟩ := ih (supersede actor db a)
    refine ⟨hassertions.trans ?_, Nat.le_trans (Nat.le_succ _) hnext⟩
    have htwice : updateWhere (fun x => (rest.map (·.id)).contains x.id) retire
        (updateWhere (·.id == a.id) retire db.assertions) = updateWhere
          (fun x => x.id == a.id || (rest.map (·.id)).contains x.id) retire db.assertions := by
      refine updateWhere_updateWhere ?_ ?_
      · exact fun _ => rfl
      · exact fun _ => rfl
    simp only [map_cons, contains_cons]
    exact htwice

/-- The assertions after a snapshot: those of before, without the absent ones,
which are retired, and a valid one per new draft. -/
structure SnapshotWritten (db : GoldenDb) (referenceId : Nat) (drafts : List AssertionDraft)
    (db' : GoldenDb) : Prop where
  keyed : Keyed (·.id) db'.assertions db'.nextId
  next : db.nextId ≤ db'.nextId
  rows : ∃ rows : List Assertion,
    (∀ x, x ∈ db'.assertions ↔
      (x ∈ db.assertions ∧ x ∉ absentFrom (db.liveAssertionsOf referenceId) drafts) ∨
      (∃ y ∈ absentFrom (db.liveAssertionsOf referenceId) drafts, x = retire y) ∨ x ∈ rows) ∧
    rows.map (·.contentHash) = (newDrafts (db.liveAssertionsOf referenceId)
      (db.revokedHashesOf referenceId) drafts).map (·.contentHash) ∧
    ∀ a ∈ rows, a.sourceReferenceId = some referenceId ∧ a.currentStatus = .valid

theorem snapshotWritten (req : TalentIngestRequest) (actor : JsString) (subjectId referenceId : Nat)
    (hkeyed : Keyed (·.id) db.assertions db.nextId) (drafts : List AssertionDraft) :
    SnapshotWritten db referenceId drafts (writeAssertions req actor subjectId referenceId
      (db.liveAssertionsOf referenceId) (db.revokedHashesOf referenceId) drafts db).2.2 := by
  obtain ⟨rows, hadded⟩ := claimsAdded_of_drafts req actor subjectId referenceId hkeyed
    (newDrafts (db.liveAssertionsOf referenceId) (db.revokedHashesOf referenceId) drafts) []
  unfold writeAssertions
  dsimp only
  generalize (newDrafts (db.liveAssertionsOf referenceId) (db.revokedHashesOf referenceId)
    drafts).foldl (addAssertion req actor subjectId referenceId) ([], db) = added at hadded ⊢
  obtain ⟨hassertions, hnext⟩ := supersede_assertions actor
    (absentFrom (db.liveAssertionsOf referenceId) drafts) added.2
  have hlinks : Untouched _ ((absentFrom (db.liveAssertionsOf referenceId) drafts).foldl
      (linkReplacement added.1) ((absentFrom (db.liveAssertionsOf referenceId) drafts).foldl
        (supersede actor) added.2)) :=
    (Statements.foldl (statements_linkReplacement added.1) _ _).untouched (by decide) (by decide)
  have habsent : ∀ y ∈ absentFrom (db.liveAssertionsOf referenceId) drafts, y ∈ db.assertions :=
    fun y hy => (mem_liveAssertionsOf.mp (mem_of_mem_filter hy)).1
  generalize habs : absentFrom (db.liveAssertionsOf referenceId) drafts = absent
    at hassertions hnext hlinks habsent ⊢
  -- a row is absent when its id is
  have hid : ∀ x ∈ db.assertions, (absent.map (·.id)).contains x.id = true ↔ x ∈ absent := by
    intro x hx
    rw [contains_iff_mem, mem_map]
    constructor
    · rintro ⟨y, hy, hyx⟩
      rwa [← eq_of_assertion_id hkeyed hx (habsent y hy) hyx]
    · exact fun h => ⟨x, h, rfl⟩
  have hnew : ∀ x ∈ rows, (absent.map (·.id)).contains x.id = false := by
    intro x hx
    rw [← Bool.not_eq_true, contains_iff_mem, mem_map]
    rintro ⟨y, hy, hyx⟩
    have hlt := hkeyed.lt y (habsent y hy)
    have hle := (hadded.fresh x hx).2.2
    omega
  refine ⟨?_, Nat.le_trans hadded.next (Nat.le_trans hnext hlinks.next),
    rows, ?_, hadded.hashes, ?_⟩
  · rw [hlinks.assertions, hassertions]
    refine Keyed.mono (hadded.keyed.update ?_) (Nat.le_trans hnext hlinks.next)
    exact fun _ => rfl
  · intro x
    rw [habs, hlinks.assertions, hassertions, hadded.assertions]
    constructor
    · intro hx
      rcases of_mem_updateWhere hx with ⟨hmem, hnot⟩ | ⟨y, hy, hyabsent, rfl⟩
      · rcases mem_append.mp hmem with hold | hrow
        · refine .inl ⟨hold, fun h => ?_⟩
          rw [(hid x hold).mpr h] at hnot
          cases hnot
        · exact .inr (.inr hrow)
      · rcases mem_append.mp hy with hold | hrow
        · exact .inr (.inl ⟨y, (hid y hold).mp hyabsent, rfl⟩)
        · rw [hnew y hrow] at hyabsent
          cases hyabsent
    · rintro (⟨hold, hnot⟩ | ⟨y, hy, rfl⟩ | hrow)
      · refine mem_updateWhere_of_not (mem_append_left _ hold) ?_
        rw [← Bool.not_eq_true, hid x hold]
        exact hnot
      · exact mem_updateWhere_of_pos (mem_append_left _ (habsent y hy))
          ((hid y (habsent y hy)).mpr hy)
      · exact mem_updateWhere_of_not (mem_append_right _ hrow) (hnew x hrow)
  · exact fun a ha => ⟨(hadded.fresh a ha).1, (hadded.fresh a ha).2.1⟩

section Written

variable {referenceId : Nat} {drafts : List AssertionDraft} {db' : GoldenDb}

theorem mem_absentFrom {a : Assertion} :
    a ∈ absentFrom (db.liveAssertionsOf referenceId) drafts ↔
      a ∈ db.liveAssertionsOf referenceId ∧ a.contentHash ∉ drafts.map (·.contentHash) := by
  simp [absentFrom]

theorem mem_revokedHashesOf {hash : JsString} : hash ∈ db.revokedHashesOf referenceId ↔
    ∃ a ∈ db.assertions, a.sourceReferenceId = some referenceId ∧ a.currentStatus = .revoked ∧
      a.contentHash = hash := by
  simp [GoldenDb.revokedHashesOf, and_assoc]

theorem mem_newDrafts_hashes {hash : JsString} :
    hash ∈ (newDrafts (db.liveAssertionsOf referenceId) (db.revokedHashesOf referenceId)
        drafts).map (·.contentHash) ↔
      hash ∈ drafts.map (·.contentHash) ∧
        hash ∉ (db.liveAssertionsOf referenceId).map (·.contentHash) ∧
        hash ∉ db.revokedHashesOf referenceId := by
  simp only [newDrafts, mem_map, mem_filter, Bool.and_eq_true, Bool.not_eq_true',
    contains_eq_mem, decide_eq_false_iff_not]
  constructor
  · rintro ⟨d, ⟨hd, hlive, hrevoked⟩, rfl⟩
    exact ⟨⟨d, hd, rfl⟩, hlive, hrevoked⟩
  · rintro ⟨⟨d, hd, rfl⟩, hlive, hrevoked⟩
    exact ⟨d, ⟨hd, hlive, hrevoked⟩, rfl⟩

section

variable (h : SnapshotWritten db referenceId drafts db')

include h

theorem SnapshotWritten.live {x : Assertion}
    (hx : x ∈ db'.assertions) (hlive : x.currentStatus.retired = false) :
    x ∈ db.assertions ∧ x ∉ absentFrom (db.liveAssertionsOf referenceId) drafts ∨
      x.sourceReferenceId = some referenceId ∧
        x.contentHash ∈ drafts.map (·.contentHash) ∧
        x.contentHash ∉ (db.liveAssertionsOf referenceId).map (·.contentHash) ∧
        x.contentHash ∉ db.revokedHashesOf referenceId := by
  obtain ⟨rows, hmem, hhashes, hfresh⟩ := h.rows
  rcases (hmem x).mp hx with hold | ⟨y, -, rfl⟩ | hrow
  · exact .inl hold
  · cases hlive
  · have hhash : x.contentHash ∈ rows.map (·.contentHash) := mem_map_of_mem hrow
    rw [hhashes] at hhash
    exact .inr ⟨(hfresh x hrow).1, mem_newDrafts_hashes.mp hhash⟩

theorem SnapshotWritten.revoked {x : Assertion}
    (hx : x ∈ db'.assertions) (hrevoked : x.currentStatus = .revoked) : x ∈ db.assertions := by
  obtain ⟨rows, hmem, -, hfresh⟩ := h.rows
  rcases (hmem x).mp hx with hold | ⟨y, -, rfl⟩ | hrow
  · exact hold.1
  · cases hrevoked
  · rw [(hfresh x hrow).2] at hrevoked
    cases hrevoked

theorem SnapshotWritten.inOrder
    (horder : ClaimsInOrder db) (hreference : referenceId < db.nextId)
    (hdrafts : (drafts.map (·.contentHash)).Nodup) : ClaimsInOrder db' := by
  obtain ⟨rows, hmem, hhashes, hfresh⟩ := h.rows
  have hrows : (rows.map (·.contentHash)).Nodup := by
    rw [hhashes]
    exact hdrafts.sublist (filter_sublist.map _)
  refine ⟨h.keyed, ?_, ?_, ?_⟩
  · intro x hx r hr
    rcases (hmem x).mp hx with hold | ⟨y, hy, rfl⟩ | hrow
    · exact Nat.lt_of_lt_of_le (horder.sources x hold.1 r hr) h.next
    · exact Nat.lt_of_lt_of_le (horder.sources y
        (mem_liveAssertionsOf.mp (mem_absentFrom.mp hy).1).1 r hr) h.next
    · rw [(hfresh x hrow).1] at hr
      exact Option.some.inj hr ▸ Nat.lt_of_lt_of_le hreference h.next
  · -- two live rows: both old, both new, or a new one whose hash was not live
    have hmixed : ∀ x ∈ db.assertions, ∀ x' ∈ rows, ∀ r, SameContent r x x' →
        x.currentStatus.retired = true := by
      intro x hx x' hx' r hsame
      have hr : referenceId = r := Option.some.inj ((hfresh x' hx').1.symm.trans hsame.right)
      have hhash : x'.contentHash ∈ rows.map (·.contentHash) := mem_map_of_mem hx'
      rw [hhashes] at hhash
      have hnot := (mem_newDrafts_hashes.mp hhash).2.1
      by_contra hlive
      refine hnot (hsame.hash ▸ mem_map_of_mem (mem_liveAssertionsOf.mpr ⟨hx, ?_, ?_⟩))
      · rw [hr]
        exact hsame.left
      · simpa using hlive
    intro x hx x' hx' r hsame hlive hlive'
    rcases (hmem x).mp hx with hold | ⟨y, -, rfl⟩ | hrow
    · rcases (hmem x').mp hx' with hold' | ⟨y', -, rfl⟩ | hrow'
      · exact horder.live x hold.1 x' hold'.1 r hsame hlive hlive'
      · cases hlive'
      · rw [hmixed x hold.1 x' hrow' r hsame] at hlive
        cases hlive
    · cases hlive
    · rcases (hmem x').mp hx' with hold' | ⟨y', -, rfl⟩ | hrow'
      · rw [hmixed x' hold'.1 x hrow r ⟨hsame.right, hsame.left, hsame.hash.symm⟩] at hlive'
        cases hlive'
      · cases hlive'
      · exact inj_on_of_nodup_map hrows hrow hrow' hsame.hash
  · intro x hx x' hx' r hsame hlive hrevoked
    have hold' := h.revoked hx' hrevoked
    rcases h.live hx hlive with hold | ⟨hsource, -, -, hnot⟩
    · exact horder.revoked x hold.1 x' hold' r hsame hlive hrevoked
    · refine hnot (mem_revokedHashesOf.mpr ⟨x', hold', ?_, hrevoked, hsame.hash.symm⟩)
      rw [hsame.right, ← hsame.left, hsource]

/-- After a snapshot the live hashes of the reference are those of its drafts
that are not revoked. -/
theorem SnapshotWritten.liveHashes
    (horder : ClaimsInOrder db) {hash : JsString} :
    hash ∈ (db'.liveAssertionsOf referenceId).map (·.contentHash) ↔
      hash ∈ drafts.map (·.contentHash) ∧ hash ∉ db.revokedHashesOf referenceId := by
  obtain ⟨rows, hmem, hhashes, hfresh⟩ := h.rows
  constructor
  · intro hhash
    obtain ⟨x, hx, rfl⟩ := mem_map.mp hhash
    obtain ⟨hx, hsource, hlive⟩ := mem_liveAssertionsOf.mp hx
    rcases h.live hx hlive with ⟨hold, hnot⟩ | ⟨-, hdraft, -, hrevoked⟩
    · refine ⟨?_, fun hrevoked => ?_⟩
      · by_contra hdraft
        exact hnot (mem_absentFrom.mpr ⟨mem_liveAssertionsOf.mpr ⟨hold, hsource, hlive⟩, hdraft⟩)
      · obtain ⟨y, hy, hysource, hystatus, hyhash⟩ := mem_revokedHashesOf.mp hrevoked
        exact horder.revoked x hold y hy referenceId ⟨hsource, hysource, hyhash.symm⟩ hlive hystatus
    · exact ⟨hdraft, hrevoked⟩
  · rintro ⟨hdraft, hrevoked⟩
    by_cases hlive : hash ∈ (db.liveAssertionsOf referenceId).map (·.contentHash)
    · -- the claim stays
      obtain ⟨x, hx, rfl⟩ := mem_map.mp hlive
      obtain ⟨hold, hsource, hxlive⟩ := mem_liveAssertionsOf.mp hx
      refine mem_map_of_mem (mem_liveAssertionsOf.mpr ⟨?_, hsource, hxlive⟩)
      exact (hmem x).mpr (.inl ⟨hold, fun habsent => (mem_absentFrom.mp habsent).2 hdraft⟩)
    · -- it is added
      have hnew := mem_newDrafts_hashes.mpr ⟨hdraft, hlive, hrevoked⟩
      rw [← hhashes] at hnew
      obtain ⟨x, hx, rfl⟩ := mem_map.mp hnew
      refine mem_map_of_mem (mem_liveAssertionsOf.mpr
        ⟨(hmem x).mpr (.inr (.inr hx)), (hfresh x hx).1, ?_⟩)
      rw [(hfresh x hx).2]
      rfl

end

end Written

/-! ## The drafts of a snapshot -/

theorem firstOfHash_nodup (drafts : List AssertionDraft) :
    ((firstOfHash drafts).map (·.contentHash)).Nodup := by
  have hfold : ∀ (rest out : List AssertionDraft), (out.map (·.contentHash)).Nodup →
      ((rest.foldl (fun out d => if out.any (·.contentHash == d.contentHash) then out
        else out ++ [d]) out).map (·.contentHash)).Nodup := by
    intro rest
    induction rest with
    | nil => exact fun _ h => h
    | cons d rest ih =>
      intro out hout
      refine ih _ ?_
      dsimp only
      split
      · exact hout
      case isFalse hnew =>
        refine nodup_concat hout fun x hx heq => hnew ?_
        exact any_eq_true.mpr ⟨x, hx, beq_iff_eq.mpr heq⟩
  exact hfold drafts [] nodup_nil

theorem hashes_firstOfHash {drafts drafts' : List AssertionDraft}
    (h : drafts.map (·.contentHash) = drafts'.map (·.contentHash)) :
    (firstOfHash drafts).map (·.contentHash) = (firstOfHash drafts').map (·.contentHash) := by
  have hfold : ∀ (rest out : List AssertionDraft),
      (rest.foldl (fun out d => if out.any (·.contentHash == d.contentHash) then out
        else out ++ [d]) out).map (·.contentHash) =
      (rest.map (·.contentHash)).foldl (fun out hash => if out.contains hash then out
        else out ++ [hash]) (out.map (·.contentHash)) := by
    intro rest
    induction rest with
    | nil => exact fun _ => rfl
    | cons d rest ih =>
      intro out
      rw [foldl_cons, ih, map_cons, foldl_cons]
      congr 1
      have hany : (out.map (·.contentHash)).contains d.contentHash =
          out.any (·.contentHash == d.contentHash) := by
        rw [Bool.eq_iff_iff, contains_iff_mem, any_eq_true]
        simp
      rw [hany]
      split
      · rfl
      · simp
  unfold firstOfHash
  rw [hfold, hfold, h]

end Ingest

/-! ## Every operation -/

section Steps

variable {env : GoldenEnv} {db db' : GoldenDb}

theorem snapshotWritten_of_applySnapshot {host : Host} {req : TalentIngestRequest}
    {principal : IngestPrincipal} {input : ResolutionInput} {now : Nat}
    {response : TalentIngestResponse} (hkeyed : Keyed (·.id) db.assertions db.nextId)
    (hidentity : IdentityInOrder db)
    (h : applySnapshot host db req principal input now = .ok (response, db')) :
    ∃ (referenceId : Nat) (mid : GoldenDb), Untouched db mid ∧ referenceId < mid.nextId ∧
      ReferencePlaced db' input referenceId response.intelligenceSubjectId ∧
      SnapshotWritten mid referenceId (toAssertionDrafts host req) db' := by
  simp only [applySnapshot, resolve, bind_eq_ok, Except.ok.injEq] at h
  obtain ⟨_, ⟨facts, hfacts, rfl⟩, hfinish⟩ := h
  have hresolved := untouched_applyDecision host db input now facts
  have htables := applyDecision_spec host hidentity hfacts now
  generalize applyDecision host db input now facts = resolved at hresolved htables hfinish
  obtain ⟨rfl, rfl⟩ := Prod.ext_iff.mp hfinish
  refine ⟨resolved.1.referenceId, resolved.2, hresolved, htables.placed.reference, ?_, ?_⟩
  · have hsame : (finishSnapshot host resolved.2 req principal resolved.1).2.references =
        resolved.2.references :=
      (statements_finishSnapshot req principal resolved.1).frame (t := .references) (by decide)
    have hplaced := htables.placed.placed
    unfold ReferencePlaced GoldenDb.referenceByTuple? at hplaced ⊢
    rw [← hsame] at hplaced
    exact hplaced
  · have hkeyed' : Keyed (·.id) resolved.2.assertions resolved.2.nextId := by
      rw [hresolved.assertions]
      exact hkeyed.mono hresolved.next
    have hwritten := snapshotWritten req (ingestActor principal) resolved.1.subjectId
      resolved.1.referenceId hkeyed' (toAssertionDrafts host req)
    exact ⟨hwritten.keyed, hwritten.next, hwritten.rows⟩

theorem ClaimsInOrder.frame (h : ClaimsInOrder db) (hframe : Untouched db db') :
    ClaimsInOrder db' := by
  refine ⟨?_, ?_, ?_, ?_⟩
  · rw [hframe.assertions]
    exact h.keyed.mono hframe.next
  · rw [hframe.assertions]
    exact fun a ha r hr => Nat.lt_of_lt_of_le (h.sources a ha r hr) hframe.next
  · rw [hframe.assertions]
    exact h.live
  · rw [hframe.assertions]
    exact h.revoked

/-- The claims and the identities are in order. -/
structure GoldenInOrder (db : GoldenDb) : Prop where
  identities : IdentityInOrder db
  claims : ClaimsInOrder db

theorem GoldenInOrder.empty : GoldenInOrder .empty := by
  refine ⟨identityInOrder_empty, ⟨⟨nodup_nil, ?_⟩, ?_, ?_, ?_⟩⟩
  · exact fun a ha => absurd ha not_mem_nil
  · exact fun a ha => absurd ha not_mem_nil
  · exact fun a ha => absurd ha not_mem_nil
  · exact fun a ha => absurd ha not_mem_nil

theorem claimsInOrder_of_ingest {host : Host} {tokenKey : Option JsString}
    {req : TalentIngestRequest} {principal : IngestPrincipal} {now : Nat}
    {response : TalentIngestResponse} (horder : GoldenInOrder db)
    (h : ingest host tokenKey db req principal now = .ok (response, db')) : ClaimsInOrder db' := by
  obtain ⟨-, input, -, ⟨_, _, -, -, -, hreplay⟩ | ⟨-, hout⟩⟩ := ingest_eq_ok.mp h
  · obtain rfl := (Prod.ext_iff.mp hreplay).2
    exact horder.claims
  · obtain ⟨referenceId, mid, hmid, hlt, -, hwritten⟩ :=
      snapshotWritten_of_applySnapshot horder.claims.keyed horder.identities hout
    exact hwritten.inOrder (horder.claims.frame hmid) hlt (firstOfHash_nodup _)

theorem goldenInOrder_of_step (db : GoldenDb) (op : GoldenOp) (db' : GoldenDb)
    (horder : GoldenInOrder db) (h : GoldenStep env db op db') : GoldenInOrder db' := by
  refine ⟨identityInOrder_of_step db op db' horder.identities h, ?_⟩
  cases hop : op.ingests with
  | false =>
    exact claimsInOrder_of_claimStep horder.claims
      (claimStep_of_step horder.claims.keyed hop h)
  | true =>
    cases op with
    | ingest =>
      obtain ⟨out, hout, rfl⟩ := map_eq_ok.mp h
      exact claimsInOrder_of_ingest horder hout
    | erase | createVerification | confirm | relink | rebuild | openDispute | respond | withdraw
    | disputeAction | resolveContradiction | merge | split | restore | entitle => cases hop

variable {ops : List GoldenOp}

theorem goldenInOrder_of_run {db : GoldenDb}
    (hrun : Run (GoldenStep env) .empty ops db) : GoldenInOrder db :=
  hrun.invariant goldenInOrder_of_step .empty

/-- Every assertion that was there is kept. -/
def ClaimsKept (db db' : GoldenDb) : Prop :=
  ∀ y ∈ db.assertions, ∃ x ∈ db'.assertions, x.id = y.id ∧ ClaimKept y x

theorem claimsKept_of_step (db : GoldenDb) (op : GoldenOp) (db' : GoldenDb)
    (horder : GoldenInOrder db) (h : GoldenStep env db op db') : ClaimsKept db db' := by
  cases hdisputes : op.disputes with
  | true => exact (claimStep_disputeSteps.of_step hdisputes h horder.claims.keyed).stays
  | false =>
    intro y hy
    obtain ⟨x, hx, hid, hkept⟩ :=
      (outside_of_step horder.claims.keyed hdisputes h).assertions.stays y hy
    exact ⟨x, hx, hid, claimKept_of_outsideKept hkept⟩

theorem claimsKept_of_run {mid db : GoldenDb} (hmid : GoldenInOrder mid)
    (hrun : Run (GoldenStep env) mid ops db) : ClaimsKept mid db := by
  refine hrun.related ?_ ?_ goldenInOrder_of_step claimsKept_of_step hmid
  · exact fun s y hy => ⟨y, hy, rfl, .refl y⟩
  · intro a b c h h' y hy
    obtain ⟨x, hx, hid, hkept⟩ := h y hy
    obtain ⟨z, hz, hid', hkept'⟩ := h' x hx
    exact ⟨z, hz, hid'.trans hid, hkept.trans hkept'⟩

theorem ClaimsKept.revoked (h : ClaimsKept db db') {referenceId : Nat} {hash : JsString}
    (hrevoked : hash ∈ db.revokedHashesOf referenceId) :
      hash ∈ db'.revokedHashesOf referenceId := by
  obtain ⟨y, hy, hsource, hstatus, rfl⟩ := mem_revokedHashesOf.mp hrevoked
  obtain ⟨x, hx, -, hsame, hkept⟩ := h y hy
  refine mem_revokedHashesOf.mpr ⟨x, hx, ?_, ?_, ?_⟩
  · rw [hsame]
    exact hsource
  · rw [hkept (by rw [hstatus]; rfl), hstatus]
  · rw [hsame]

/-- The hash was revoked for the reference in some state of the run. -/
def EverRevoked (env : GoldenEnv) (ops : List GoldenOp) (db : GoldenDb) (referenceId : Nat)
    (hash : JsString) : Prop :=
  ∃ pre post mid, ops = pre ++ post ∧ Run (GoldenStep env) .empty pre mid ∧
    Run (GoldenStep env) mid post db ∧ hash ∈ mid.revokedHashesOf referenceId

theorem everRevoked_iff {db : GoldenDb}
    (hrun : Run (GoldenStep env) .empty ops db) {referenceId : Nat} {hash : JsString} :
    EverRevoked env ops db referenceId hash ↔ hash ∈ db.revokedHashesOf referenceId := by
  constructor
  · rintro ⟨pre, post, mid, -, hpre, hpost, hrevoked⟩
    exact (claimsKept_of_run (goldenInOrder_of_run hpre) hpost).revoked hrevoked
  · intro hrevoked
    exact ⟨ops, [], db, (append_nil ops).symm, hrun, .nil db, hrevoked⟩

end Steps

end AramoPlatform.Intelligence
