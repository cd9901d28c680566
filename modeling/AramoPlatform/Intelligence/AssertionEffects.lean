import AramoPlatform.Intelligence.Statements

/-!
# What an operation does to assertions

The content of an assertion never changes; its subject and its status may. An
operation outside the dispute service retires a live assertion, moves it among
the statuses without a dispute or leaves its status alone, and leaves the
dispute tables as they are. Each service is taken through its statements once.
-/

namespace AramoPlatform.Intelligence

open Js Lib List

/-! ## Relations -/

/-- The same claim: all but the subject and the status. -/
def SameClaim (y x : Assertion) : Prop :=
  x = { y with subjectId := x.subjectId, currentStatus := x.currentStatus }

theorem SameClaim.refl (y : Assertion) : SameClaim y y := rfl

theorem SameClaim.trans {x y z : Assertion} (h : SameClaim x y) (h' : SameClaim y z) :
    SameClaim x z := by
  unfold SameClaim at *
  rw [h'] at *
  rw [h]

/-- A change of status outside the dispute service. -/
def OutsideStatus (y x : AssertionStatus) : Prop :=
  x = y ∨ y.retired = false ∧ (x.retired = true ∨ y ≠ .disputed ∧ x ≠ .disputed)

/-- What an operation outside the dispute service keeps of an assertion. -/
def OutsideKept (y x : Assertion) : Prop :=
  SameClaim y x ∧ OutsideStatus y.currentStatus x.currentStatus

theorem OutsideKept.refl (y : Assertion) : OutsideKept y y := ⟨.refl y, .inl rfl⟩

/-- What a new assertion is like: no dispute is on it, and only an ingest gives it
a source reference. -/
def OutsideFresh (ingests : Bool) (x : Assertion) : Prop :=
  x.currentStatus ≠ .disputed ∧ (ingests = false → x.sourceReferenceId = none)

/-- The dispute tables are the same. -/
structure SameDisputes (db db' : GoldenDb) : Prop where
  disputes : db'.disputes = db.disputes
  statements : db'.statements = db.statements
  disputeEvents : db'.disputeEvents = db.disputeEvents

theorem SameDisputes.refl (db : GoldenDb) : SameDisputes db db := ⟨rfl, rfl, rfl⟩

theorem SameDisputes.trans {a b c : GoldenDb} (h : SameDisputes a b) (h' : SameDisputes b c) :
    SameDisputes a c :=
  ⟨h'.disputes.trans h.disputes, h'.statements.trans h.statements,
    h'.disputeEvents.trans h.disputeEvents⟩

/-- Neither the assertions nor the disputes are touched. -/
structure Untouched (db db' : GoldenDb) : Prop where
  assertions : db'.assertions = db.assertions
  next : db.nextId ≤ db'.nextId
  disputes : SameDisputes db db'

theorem Statements.untouched {tables : List GoldenTable} {db db' : GoldenDb}
    (h : Statements tables db db') (ha : .assertions ∉ tables) (hd : .disputes ∉ tables) :
    Untouched db db' := by
  obtain ⟨hdisputes, hstatements, hevents⟩ := h.frame hd
  exact ⟨h.frame ha, h.next_le, hdisputes, hstatements, hevents⟩

theorem untouched_appendEvent (db : GoldenDb) (id : Nat) (type : AssertionEventType)
    (source target : Option AssertionStatus) (actor : JsString) :
    Untouched db (db.appendEvent id type source target actor) :=
  ⟨rfl, Nat.le_succ _, rfl, rfl, rfl⟩

theorem untouched_applyDecision (host : Host) (db : GoldenDb) (input : ResolutionInput) (now : Nat)
    (facts : ResolutionFacts) : Untouched db (applyDecision host db input now facts).2 :=
  (statements_applyDecision input now facts).untouched (by decide) (by decide)

/-- The effect of an operation outside the dispute service. -/
structure OutsideStep (ingests : Bool) (db db' : GoldenDb) : Prop where
  assertions : Continues (·.id) OutsideKept (OutsideFresh ingests) db.assertions
    db.nextId db'.assertions
    db'.nextId
  disputes : SameDisputes db db'

namespace OutsideStep

variable {ingests : Bool} {db db₁ db₂ : GoldenDb}

theorem refl (h : Keyed (·.id) db.assertions db.nextId) : OutsideStep ingests db db :=
  ⟨.refl h OutsideKept.refl, .refl db⟩

theorem frame (h : OutsideStep ingests db db₁) (hframe : Untouched db₁ db₂) :
    OutsideStep ingests db db₂ := by
  refine ⟨?_, h.disputes.trans hframe.disputes⟩
  rw [hframe.assertions]
  exact h.assertions.mono hframe.next

theorem after (hframe : Untouched db db₁) (h : OutsideStep ingests db₁ db₂) :
    OutsideStep ingests db db₂ := by
  refine ⟨?_, hframe.disputes.trans h.disputes⟩
  rw [← hframe.assertions]
  exact h.assertions.of_le hframe.next

section

variable (h : OutsideStep ingests db db₁)

include h

theorem createAssertion {row : Assertion}
    (hrow : OutsideFresh ingests row) : OutsideStep ingests db (db₁.createAssertion row) :=
  ⟨h.assertions.insert rfl ⟨hrow.1, hrow.2⟩, h.disputes.disputes, h.disputes.statements,
    h.disputes.disputeEvents⟩

theorem setStatus {id : Nat} {status : AssertionStatus}
    (hnew : status ≠ .disputed)
    (hold : ∀ y ∈ db.assertions, y.id = id → y.currentStatus.retired = false ∧
      (status.retired = true ∨ y.currentStatus ≠ .disputed)) :
    OutsideStep ingests db (db₁.setStatus id status) := by
  refine ⟨h.assertions.update (fun _ => rfl) ?_ ?_, h.disputes.disputes,
    h.disputes.statements, h.disputes.disputeEvents⟩
  · intro y hy x _ hkey hkept hx
    obtain ⟨hlive, hstatus⟩ := hold y hy (hkey.symm.trans (eq_of_beq hx))
    exact ⟨hkept.1.trans rfl, .inr ⟨hlive, hstatus.imp_right fun hd => ⟨hd, hnew⟩⟩⟩
  · intro x _ hfresh _
    exact ⟨hnew, hfresh.2⟩

theorem repointAssertions (ids : List Nat) (subjectId : Nat) :
    OutsideStep ingests db (db₁.repointAssertions ids subjectId) := by
  refine ⟨h.assertions.update (fun _ => rfl) ?_ ?_, h.disputes.disputes,
    h.disputes.statements, h.disputes.disputeEvents⟩
  · intro y _ x _ _ hkept _
    exact ⟨hkept.1.trans rfl, hkept.2⟩
  · intro x _ hfresh _
    exact hfresh

end

end OutsideStep

/-! ## Ingest -/

section Ingest

variable {db : GoldenDb}

theorem eq_of_assertion_id (hkeyed : Keyed (·.id) db.assertions db.nextId) {a y : Assertion}
    (ha : a ∈ db.assertions) (hy : y ∈ db.assertions) (h : y.id = a.id) : y = a :=
  inj_on_of_nodup_map hkeyed.nodup hy ha h

theorem mem_liveAssertionsOf {referenceId : Nat} {a : Assertion} :
    a ∈ db.liveAssertionsOf referenceId ↔ a ∈ db.assertions ∧
      a.sourceReferenceId = some referenceId ∧ a.currentStatus.retired = false := by
  simp [GoldenDb.liveAssertionsOf]

theorem outside_addAssertions (req : TalentIngestRequest) (actor : JsString)
    (subjectId referenceId : Nat) {db₁ : GoldenDb} (h : OutsideStep true db db₁)
    (drafts : List AssertionDraft) (added : List (Nat × AssertionType)) :
    OutsideStep true db (drafts.foldl (addAssertion req actor subjectId referenceId)
      (added, db₁)).2 := by
  induction drafts generalizing added db₁ with
  | nil => exact h
  | cons d rest ih =>
    refine ih (OutsideStep.frame (h.createAssertion ?_) (untouched_appendEvent _ _ _ _ _ _)) _
    exact ⟨AssertionStatus.noConfusion, Bool.noConfusion⟩

theorem outside_supersede (actor : JsString) (hkeyed : Keyed (·.id) db.assertions db.nextId)
    (absent : List Assertion)
    (habsent : ∀ a ∈ absent, a ∈ db.assertions ∧ a.currentStatus.retired = false)
    {db₁ : GoldenDb} (h : OutsideStep true db db₁) :
    OutsideStep true db (absent.foldl (supersede actor) db₁) := by
  induction absent generalizing db₁ with
  | nil => exact h
  | cons a rest ih =>
    obtain ⟨hmem, hlive⟩ := habsent a mem_cons_self
    refine ih (fun b hb => habsent b (mem_cons_of_mem _ hb))
      (OutsideStep.frame (h.setStatus AssertionStatus.noConfusion ?_)
        ⟨rfl, Nat.le_succ _, rfl, rfl, rfl⟩)
    intro y hy hid
    obtain rfl := eq_of_assertion_id hkeyed hmem hy hid
    exact ⟨hlive, .inl rfl⟩

theorem outside_writeAssertions (req : TalentIngestRequest) (actor : JsString)
    (subjectId referenceId : Nat) (hkeyed : Keyed (·.id) db.assertions db.nextId)
    (revoked : List JsString) (drafts : List AssertionDraft) :
    OutsideStep true db (writeAssertions req actor subjectId referenceId
      (db.liveAssertionsOf referenceId) revoked drafts db).2.2 := by
  have hadded := outside_addAssertions req actor subjectId referenceId (.refl hkeyed)
    (newDrafts (db.liveAssertionsOf referenceId) revoked drafts) []
  have hsuperseded := outside_supersede actor hkeyed
    (absentFrom (db.liveAssertionsOf referenceId) drafts) (fun a ha => by
      obtain ⟨hmem, -, hlive⟩ := mem_liveAssertionsOf.mp (mem_of_mem_filter ha)
      exact ⟨hmem, hlive⟩) hadded
  exact hsuperseded.frame
    ((Statements.foldl (statements_linkReplacement _) _ _).untouched (by decide)
    (by decide))

variable {principal : IngestPrincipal} {req : TalentIngestRequest}

theorem outside_applySnapshot {host : Host}
    {input : ResolutionInput} {now : Nat} {db' : GoldenDb}
    {response : TalentIngestResponse} (hkeyed : Keyed (·.id) db.assertions db.nextId)
    (h : applySnapshot host db req principal input now = .ok (response, db')) :
    OutsideStep true db db' := by
  simp only [applySnapshot, resolve, bind_eq_ok, Except.ok.injEq] at h
  obtain ⟨_, ⟨facts, _, rfl⟩, hfinish⟩ := h
  have hresolved := untouched_applyDecision host db input now facts
  generalize applyDecision host db input now facts = resolved at hresolved hfinish
  obtain rfl := (Prod.ext_iff.mp hfinish).2
  have hkeyed' : Keyed (·.id) resolved.2.assertions resolved.2.nextId := by
    rw [hresolved.assertions]
    exact hkeyed.mono hresolved.next
  exact ((outside_writeAssertions req (ingestActor principal) resolved.1.subjectId
    resolved.1.referenceId hkeyed' _ _).after hresolved).frame ⟨rfl, Nat.le_refl _, rfl, rfl, rfl⟩

theorem outside_ingest {host : Host} {tokenKey : Option JsString}
    {now : Nat} {db' : GoldenDb} {response : TalentIngestResponse}
    (hkeyed : Keyed (·.id) db.assertions db.nextId)
    (h : ingest host tokenKey db req principal now = .ok (response, db')) :
    OutsideStep true db db' := by
  obtain ⟨-, input, -, ⟨_, _, -, -, -, hreplay⟩ | ⟨-, hout⟩⟩ := ingest_eq_ok.mp h
  · obtain rfl := (Prod.ext_iff.mp hreplay).2
    exact .refl hkeyed
  · exact outside_applySnapshot hkeyed hout

end Ingest

/-! ## Verification -/

section Verification

variable {ingests : Bool} {db db' : GoldenDb} {host : Host}

theorem outside_appendOutcome (h : OutsideStep ingests db db') (req : VerificationRequest)
    (subjectId now : Nat) : OutsideStep ingests db (appendOutcome host db' req subjectId now) :=
  (h.createAssertion ⟨AssertionStatus.noConfusion, fun _ => rfl⟩).frame
    ⟨rfl, Nat.le_succ _, rfl, rfl, rfl⟩

section

variable (hkeyed : Keyed (·.id) db.assertions db.nextId)

include hkeyed

theorem outside_bindTo (req : VerificationRequest)
    (subjectId now : Nat) (owners : List Nat) :
    OutsideStep ingests db (bindTo host db req subjectId owners now).2 := by
  have hrefl : OutsideStep ingests db db := .refl hkeyed
  unfold bindTo
  split
  · exact outside_appendOutcome hrefl _ _ _
  · split
    · exact hrefl.frame ((statements_openContradiction _ _ _).untouched (by decide) (by decide))
    · have hcreated :
        OutsideStep ingests db (db.createIdentifier (boundIdentifier req subjectId now)) :=
        hrefl.frame ⟨rfl, Nat.le_succ _, rfl, rfl, rfl⟩
      exact outside_appendOutcome hcreated _ _ _

theorem outside_bindSubject
    {req : VerificationRequest} {subject : Option Nat} {now : Nat} {tx : ConfirmTx}
    (h : bindSubject host db req now subject = .ok (tx, db')) : OutsideStep ingests db db' := by
  cases subject with
  | none =>
    obtain rfl := (Prod.ext_iff.mp (Except.ok.inj h)).2
    exact (OutsideStep.refl hkeyed).frame ⟨rfl, Nat.le_refl _, rfl, rfl, rfl⟩
  | some subjectId =>
    simp only [bindSubject, bind_eq_ok, Except.ok.injEq] at h
    obtain ⟨owners, -, hout⟩ := h
    obtain rfl := (Prod.ext_iff.mp hout).2
    exact (outside_bindTo hkeyed req subjectId now owners).frame
      ⟨rfl, Nat.le_refl _, rfl, rfl, rfl⟩

theorem outside_confirm {id : Nat}
    {code : JsString} {now : Nat} {tx : ConfirmTx}
    (h : confirmVerification host db id code now = .ok (tx, db')) : OutsideStep ingests db db' := by
  rcases confirm_cases h with ⟨-, hrefused⟩ | ⟨req, subject, -, -, hbind⟩
  · exact (OutsideStep.refl hkeyed).frame (hrefused.untouched (by decide) (by decide))
  · exact outside_bindSubject hkeyed hbind

end

end Verification

/-! ## The stored projection -/

section Projection

variable {ingests : Bool} {db db' : GoldenDb} {host : Host}

theorem statusOf_computeProjection {assertions : List Assertion}
    {identifiers : List SubjectIdentifier} {opts : ProjectionOptions} {id : Nat}
    {status : AssertionStatus}
    (h : (computeProjection host assertions identifiers opts).statusOf id = some status) :
    ∃ a ∈ assertions, a.id = id ∧ ∃ contradicted, status = statusInView opts contradicted a := by
  obtain ⟨entry, hfind, rfl⟩ := Option.map_eq_some_iff.mp h
  have hid : entry.1 = id := by simpa using find?_some hfind
  obtain ⟨a, ha, rfl⟩ := mem_map.mp (mem_of_find?_eq_some hfind)
  exact ⟨a, mem_of_mem_filter ha, hid, _, rfl⟩

theorem statusInView_of_disputed {opts : ProjectionOptions} {contradicted : List Nat}
    {a : Assertion} (h : a.currentStatus = .disputed) :
    statusInView opts contradicted a = .disputed :=
  if_pos h

theorem outside_applyStatus {result : ProjectionResult} {db₁ : GoldenDb} (h :
    OutsideStep ingests db db₁)
    (hkeyed : Keyed (·.id) db.assertions db.nextId) {a : Assertion} (ha : a ∈ db.assertions)
    (hlive : a.currentStatus.retired = false)
    (hview : ∀ next, result.statusOf a.id = some next → a.currentStatus = .disputed →
      next = .disputed) : OutsideStep ingests db (applyStatus result db₁ a) := by
  unfold applyStatus
  split
  · exact h
  case h_2 next hnext =>
    by_cases hsame : next = a.currentStatus
    · rw [if_pos hsame]
      exact h
    · rw [if_neg hsame]
      split
      · exact h
      case h_2 event hevent =>
        refine OutsideStep.frame (h.setStatus ?_ ?_) ⟨rfl, Nat.le_succ _, rfl, rfl, rfl⟩
        · -- a dispute is never written by the projection
          intro hdisputed
          rw [hdisputed] at hevent
          cases hevent
        · intro y hy hid
          obtain rfl := eq_of_assertion_id hkeyed ha hy hid
          exact ⟨hlive, .inr fun hd => hsame ((hview next hnext hd).trans hd.symm)⟩

theorem outside_applyStatuses {result : ProjectionResult}
    (hkeyed : Keyed (·.id) db.assertions db.nextId) (read : List Assertion)
    (hread : ∀ a ∈ read, a ∈ db.assertions ∧ a.currentStatus.retired = false ∧
      ∀ next, result.statusOf a.id = some next → a.currentStatus = .disputed → next = .disputed)
    {db₁ : GoldenDb} (h : OutsideStep ingests db db₁) :
    OutsideStep ingests db (read.foldl (applyStatus result) db₁) := by
  induction read generalizing db₁ with
  | nil => exact h
  | cons a rest ih =>
    obtain ⟨hmem, hlive, hview⟩ := hread a mem_cons_self
    exact ih (fun b hb => hread b (mem_cons_of_mem _ hb))
      (outside_applyStatus h hkeyed hmem hlive hview)

theorem outside_rebuild {freshnessDays : ℚ} {subjectId now : Nat}
    (hkeyed : Keyed (·.id) db.assertions db.nextId)
    (h : rebuild host db freshnessDays subjectId now = .ok db') : OutsideStep ingests db db' := by
  simp only [rebuild, bind_eq_ok] at h
  obtain ⟨subject, -, h⟩ := h
  by_cases hsubject : subject.id ≠ subjectId
  · rw [if_pos hsubject] at h
    obtain rfl := Except.ok.inj h
    exact .refl hkeyed
  · rw [if_neg hsubject] at h
    obtain rfl := Except.ok.inj h
    refine (outside_applyStatuses hkeyed _ (fun a ha => ?_) (.refl hkeyed)).frame
      ((Statements.foldl (statements_applyContradictionLink _) _ _).untouched
        (by decide) (by decide))
    obtain ⟨hof, hlive⟩ := mem_filter.mp ha
    have hmem := mem_of_mem_filter hof
    refine ⟨hmem, by simpa using hlive, fun next hnext hdisputed => ?_⟩
    obtain ⟨b, hb, hid, _, rfl⟩ := statusOf_computeProjection hnext
    obtain rfl := eq_of_assertion_id hkeyed hmem
      (mem_of_mem_filter (mem_of_mem_filter hb)) hid
    exact statusInView_of_disputed hdisputed

end Projection

/-! ## Contradictions -/

section Contradictions

variable {ingests : Bool} {db db' : GoldenDb} {host : Host}

variable {a : Assertion}

theorem mem_of_assertion? {id : Nat} (h : db.assertion? id = some a) :
    a ∈ db.assertions ∧ a.id = id :=
  ⟨mem_of_find?_eq_some h, by simpa using find?_some h⟩

theorem mem_of_ownedAssertion {assertionId subjectId : Nat}
    (h : ownedAssertion db assertionId subjectId = .ok a) :
    a ∈ db.assertions ∧ a.id = assertionId := by
  simp only [ownedAssertion, bind_eq_ok, orThrow_eq_ok, Except.ok.injEq] at h
  obtain ⟨a', hfind, -, -, -, -, rfl⟩ := h
  exact mem_of_assertion? hfind

section

variable (hkeyed : Keyed (·.id) db.assertions db.nextId)

include hkeyed

theorem outside_applyKeep (crossTenant : Bool)
    (tenant : TenantKey) (subjectId : Nat) (ha : a ∈ db.assertions)
    (view : ProjectionResult) :
    OutsideStep ingests db (applyKeep db crossTenant tenant subjectId a view).2.2 := by
  unfold applyKeep
  dsimp only
  split
  case isTrue hcontradicted =>
    refine OutsideStep.setStatus ((OutsideStep.refl hkeyed).frame
      ((statements_appendReconciled _ _ _).untouched (by decide) (by decide)))
        AssertionStatus.noConfusion fun y hy hid => ?_
    obtain rfl := eq_of_assertion_id hkeyed ha hy hid
    rw [hcontradicted.1]
    exact ⟨rfl, .inr AssertionStatus.noConfusion⟩
  case isFalse =>
    exact (OutsideStep.refl hkeyed).frame
      ((statements_appendReconciled _ _ _).untouched (by decide) (by decide))

theorem outside_applyRetract {tenant : TenantKey}
    (ha : a ∈ db.assertions) (hlive : a.currentStatus.retired = false)
    {out : AssertionStatus × List Nat × GoldenDb} (h : applyRetract db tenant a = .ok out) :
    OutsideStep ingests db out.2.2 := by
  simp only [applyRetract, bind_eq_ok, Except.ok.injEq] at h
  obtain ⟨-, -, -, -, rfl⟩ := h
  refine (OutsideStep.refl hkeyed).setStatus AssertionStatus.noConfusion fun y hy hid => ?_
  obtain rfl := eq_of_assertion_id hkeyed ha hy hid
  exact ⟨hlive, .inl rfl⟩

theorem outside_resolveContradiction {crossTenant : Bool} {freshnessDays : ℚ}
    {assertionId now : Nat}
    {tuple : SourceTuple} {resolution : ContradictionResolution} {actor : JsString}
    {principal : IngestPrincipal} {response : ContradictionResolutionResponse}
    (h : resolveContradiction host db crossTenant freshnessDays tuple assertionId resolution actor
      principal now = .ok (response, db')) : OutsideStep ingests db db' := by
  simp only [resolveContradiction, bind_eq_ok, Except.ok.injEq] at h
  obtain ⟨⟨_, subject⟩, -, ⟨a, view⟩, hread, out, hout, hdb⟩ := h
  obtain rfl := (Prod.ext_iff.mp hdb).2
  simp only [contradictedAssertion, bind_eq_ok, require_eq_ok, Except.ok.injEq, Prod.mk.injEq]
    at hread
  obtain ⟨a', howned, -, -, -, hlive, -, -, rfl, -⟩ := hread
  obtain ⟨hmem, -⟩ := mem_of_ownedAssertion howned
  refine OutsideStep.frame ?_ (untouched_appendEvent _ _ _ _ _ _)
  cases resolution with
  | keep =>
    obtain rfl := Except.ok.inj hout
    exact outside_applyKeep hkeyed _ _ _ hmem _
  | retract => exact outside_applyRetract hkeyed hmem (by simpa using hlive) hout

end

end Contradictions

/-! ## Merge and split -/

theorem outside_moves {ingests : Bool} {db db' : GoldenDb}
    (hkeyed : Keyed (·.id) db.assertions db.nextId) (h : Moves db db') :
      OutsideStep ingests db db' := by
  induction h with
  | refl => exact .refl hkeyed
  | tail _ hone ih =>
    cases hone with
    | repointAssertions => exact ih.repointAssertions _ _
    | createSubject | appendEvent | createMergeSplit =>
      exact ih.frame ⟨rfl, Nat.le_succ _, rfl, rfl, rfl⟩
    | updateSubject | repointReferences | repointIdentifiers | repointArtifacts
    | repointConflicts => exact ih.frame ⟨rfl, Nat.le_refl _, rfl, rfl, rfl⟩

/-! ## Every operation outside the dispute service -/

def GoldenOp.ingests : GoldenOp → Bool
  | .ingest .. => true
  | _ => false

theorem outside_of_step {env : GoldenEnv} {db db' : GoldenDb} {op : GoldenOp}
    (hkeyed : Keyed (·.id) db.assertions db.nextId) (hop : op.disputes = false)
    (h : GoldenStep env db op db') : OutsideStep op.ingests db db' := by
  have hrefl : OutsideStep false db db := .refl hkeyed
  cases op with
  | ingest =>
    obtain ⟨out, hout, rfl⟩ := map_eq_ok.mp h
    exact outside_ingest hkeyed hout
  | erase =>
    obtain ⟨out, hout, rfl⟩ := map_eq_ok.mp h
    exact hrefl.frame ((statements_erase hout).untouched (by decide) (by decide))
  | createVerification =>
    obtain ⟨out, hout, rfl⟩ := map_eq_ok.mp h
    exact hrefl.frame ((statements_createVerificationRequest hout).untouched
      (by decide) (by decide))
  | confirm =>
    obtain ⟨out, hout, rfl⟩ := map_eq_ok.mp h
    exact outside_confirm hkeyed hout
  | relink =>
    obtain ⟨out, hout, rfl⟩ := map_eq_ok.mp h
    exact hrefl.frame ((statements_relink hout).untouched (by decide) (by decide))
  | rebuild => exact outside_rebuild hkeyed h
  | openDispute | respond | withdraw | disputeAction => cases hop
  | resolveContradiction =>
    obtain ⟨out, hout, rfl⟩ := map_eq_ok.mp h
    exact outside_resolveContradiction hkeyed hout
  | merge | split | restore => exact outside_moves hkeyed (moves_of_step rfl h)
  | entitle =>
    obtain rfl := Except.ok.inj h
    exact hrefl.frame ⟨rfl, Nat.le_refl _, rfl, rfl, rfl⟩

end AramoPlatform.Intelligence
