import AramoPlatform.Intelligence.GoldenRuns
import Mathlib.Logic.Relation

/-!
# Operations as statements

Every operation is a sequence of statements, each on one table. A relation that
is reflexive, transitive and respected by every statement is respected by every
operation. Rows are moved between subjects by the merge and split operations only.
-/

namespace AramoPlatform.Intelligence

open Js Lib

/-- Only the dispute tables are written. -/
structure OnDisputes (db db' : GoldenDb) : Prop where
  rest : db' = { db with
    disputes := db'.disputes, statements := db'.statements, disputeEvents := db'.disputeEvents
    nextId := db'.nextId }
  next : db.nextId ≤ db'.nextId

/-- The tables that the statements write. -/
inductive GoldenTable where
  | subjects
  | references
  | identifiers
  | artifacts
  | conflicts
  | assertions
  | assertionEvents
  | assertionLinks
  | mergeSplits
  | inbox
  | verifications
  | disputes
  | entitlements
  deriving DecidableEq

/-- One statement of a transaction that writes some tables. -/
inductive Statement (tables : List GoldenTable) : GoldenDb → GoldenDb → Prop
  | createSubject (db : GoldenDb) (status : ResolutionStatus) (h : .subjects ∈ tables) :
      Statement tables db (db.createSubject status)
  | updateSubject (db : GoldenDb) (id : Nat) (f : GoldenTalent → GoldenTalent)
      (hid : ∀ s, (f s).id = s.id) (h : .subjects ∈ tables) :
      Statement tables db (db.updateSubject id f)
  | createReference (db : GoldenDb) (tuple : SourceTuple) (subjectId : Nat)
      (snapshot : IdentitySnapshot) (h : .references ∈ tables) :
      Statement tables db (db.createReference tuple subjectId snapshot)
  | updateReference (db : GoldenDb) (id : Nat)
      (f : ExternalTalentReference → ExternalTalentReference) (hid : ∀ r, (f r).id = r.id)
      (h : .references ∈ tables) : Statement tables db (db.updateReference id f)
  | repointReferences (db : GoldenDb) (ids : List Nat) (subjectId : Nat) (h :
      .references ∈ tables) :
      Statement tables db (db.repointReferences ids subjectId)
  | createIdentifier (db : GoldenDb) (row : SubjectIdentifier) (h : .identifiers ∈ tables) :
      Statement tables db (db.createIdentifier row)
  | updateIdentifier (db : GoldenDb) (id : Nat) (f : SubjectIdentifier → SubjectIdentifier)
      (hid : ∀ i, (f i).id = i.id) (h : .identifiers ∈ tables) :
      Statement tables db (db.updateIdentifier id f)
  | repointIdentifiers (db : GoldenDb) (ids : List Nat) (subjectId : Nat)
      (h : .identifiers ∈ tables) : Statement tables db (db.repointIdentifiers ids subjectId)
  | repointArtifacts (db : GoldenDb) (ids : List Nat) (subjectId : Nat) (h : .artifacts ∈ tables) :
      Statement tables db (db.repointArtifacts ids subjectId)
  | createConflict (db : GoldenDb) (subjectId : Nat) (type : IdentityConflictType)
      (related : List Nat) (signature : JsString) (h : .conflicts ∈ tables) :
      Statement tables db (db.createConflict subjectId type related signature)
  | repointConflicts (db : GoldenDb) (ids : List Nat) (subjectId : Nat) (h : .conflicts ∈ tables) :
      Statement tables db (db.repointConflicts ids subjectId)
  | createAssertion (db : GoldenDb) (row : Assertion) (h : .assertions ∈ tables) :
      Statement tables db (db.createAssertion row)
  | setStatus (db : GoldenDb) (id : Nat) (status : AssertionStatus) (h : .assertions ∈ tables) :
      Statement tables db (db.setStatus id status)
  | repointAssertions (db : GoldenDb) (ids : List Nat) (subjectId : Nat)
      (h : .assertions ∈ tables) : Statement tables db (db.repointAssertions ids subjectId)
  | appendEvent (db : GoldenDb) (id : Nat) (type : AssertionEventType)
      (source target : Option AssertionStatus) (actor : JsString) (h : .assertionEvents ∈ tables) :
      Statement tables db (db.appendEvent id type source target actor)
  | appendLink (db : GoldenDb) (fromId toId : Nat) (type : AssertionLinkType)
      (h : .assertionLinks ∈ tables) : Statement tables db (db.appendLink fromId toId type)
  | createMergeSplit (db : GoldenDb) (row : MergeSplitEvent) (h : .mergeSplits ∈ tables) :
      Statement tables db (db.createMergeSplit row)
  | createInbox (db : GoldenDb) (row : IntelligenceInbox) (h : .inbox ∈ tables) :
      Statement tables db (db.createInbox row)
  | createVerification (db : GoldenDb) (row : VerificationRequest) (h : .verifications ∈ tables) :
      Statement tables db (db.createVerification row)
  | updateVerification (db : GoldenDb) (id : Nat) (f : VerificationRequest → VerificationRequest)
      (hid : ∀ v, (f v).id = v.id) (h : .verifications ∈ tables) :
      Statement tables db (db.updateVerification id f)
  | onDisputes (db db' : GoldenDb) (hon : OnDisputes db db') (h : .disputes ∈ tables) :
      Statement tables db db'
  | entitle (db : GoldenDb) (tenant : TenantKey) (active : Bool) (h : .entitlements ∈ tables) :
      Statement tables db (entitleTenant db tenant active)

/-- A sequence of statements. -/
abbrev Statements (tables : List GoldenTable) : GoldenDb → GoldenDb → Prop :=
  Relation.ReflTransGen (Statement tables)

namespace Statements

variable {tables : List GoldenTable} {db db' mid : GoldenDb}

theorem induct (R : GoldenDb → GoldenDb → Prop) (hrefl : ∀ db, R db db)
    (htrans : ∀ {a b c}, R a b → R b c → R a c) (hstep : ∀ {a b}, Statement tables a b → R a b)
    (h : Statements tables db db') : R db db' := by
  induction h with
  | refl => exact hrefl db
  | tail _ hone ih => exact htrans ih (hstep hone)

theorem invariant {I : GoldenDb → Prop} (hstep : ∀ {a b}, Statement tables a b → I a → I b)
    (h : Statements tables db db') (hdb : I db) : I db' := by
  induction h with
  | refl => exact hdb
  | tail _ hone ih => exact hstep hone ih

theorem foldl {α : Type} {f : GoldenDb → α → GoldenDb}
    (hf : ∀ db a, Statements tables db (f db a)) (l : List α) (db : GoldenDb) :
    Statements tables db (l.foldl f db) := by
  induction l generalizing db with
  | nil => exact .refl
  | cons a rest ih => exact (hf db a).trans (ih (f db a))

theorem foldl_snd {α β : Type} {f : β × GoldenDb → α → β × GoldenDb}
    (hf : ∀ acc a, Statements tables acc.2 (f acc a).2) (l : List α) (acc : β × GoldenDb) :
    Statements tables acc.2 (l.foldl f acc).2 := by
  induction l generalizing acc with
  | nil => exact .refl
  | cons a rest ih => exact (hf acc a).trans (ih (f acc a))

end Statements

/-! ## Frames -/

/-- The databases have the same rows in a table. -/
def SameRows (db db' : GoldenDb) : GoldenTable → Prop
  | .subjects => db'.subjects = db.subjects
  | .references => db'.references = db.references
  | .identifiers => db'.identifiers = db.identifiers
  | .artifacts => db'.artifacts = db.artifacts
  | .conflicts => db'.conflicts = db.conflicts
  | .assertions => db'.assertions = db.assertions
  | .assertionEvents => db'.assertionEvents = db.assertionEvents
  | .assertionLinks => db'.assertionLinks = db.assertionLinks
  | .mergeSplits => db'.mergeSplits = db.mergeSplits
  | .inbox => db'.inbox = db.inbox
  | .verifications => db'.verifications = db.verifications
  | .disputes => db'.disputes = db.disputes ∧ db'.statements = db.statements ∧
      db'.disputeEvents = db.disputeEvents
  | .entitlements => db'.entitlements = db.entitlements

theorem SameRows.refl (db : GoldenDb) (t : GoldenTable) : SameRows db db t := by
  cases t with
  | disputes => exact ⟨rfl, rfl, rfl⟩
  | _ => rfl

theorem SameRows.trans {a b c : GoldenDb} {t : GoldenTable} (h : SameRows a b t)
    (h' : SameRows b c t) : SameRows a c t := by
  cases t with
  | disputes => exact ⟨h'.1.trans h.1, h'.2.1.trans h.2.1, h'.2.2.trans h.2.2⟩
  | _ => exact Eq.trans h' h

section Frames

variable {tables tables' : List GoldenTable} {db db' : GoldenDb} {t : GoldenTable}

theorem Statement.frame (h : Statement tables db db') (ht : t ∉ tables) : SameRows db db' t := by
  cases h with
  | onDisputes _ hon hmem =>
    rw [hon.rest]
    cases t with
    | disputes => exact absurd hmem ht
    | _ => rfl
  | _ =>
    cases t with
    | disputes => exact ⟨rfl, rfl, rfl⟩
    | _ => first
      | rfl
      | exact absurd (by assumption) ht

theorem Statements.frame (h : Statements tables db db') (ht : t ∉ tables) : SameRows db db' t :=
  h.induct (SameRows · · t) (fun db => .refl db t) SameRows.trans fun hone => hone.frame ht

theorem Statement.next_le (h : Statement tables db db') : db.nextId ≤ db'.nextId := by
  cases h with
  | onDisputes _ hon => exact hon.next
  | _ => first
    | exact Nat.le_refl _
    | exact Nat.le_succ _

theorem Statements.next_le (h : Statements tables db db') : db.nextId ≤ db'.nextId :=
  h.induct (·.nextId ≤ ·.nextId) (fun _ => Nat.le_refl _) Nat.le_trans Statement.next_le

theorem Statement.mono (hsub : tables ⊆ tables') (h : Statement tables db db') :
    Statement tables' db db' := by
  cases h with
  | entitle tenant active h => exact .entitle db tenant active (hsub h)
  | _ =>
    constructor <;> first
      | assumption
      | exact hsub (by assumption)

theorem Statements.mono (hsub : tables ⊆ tables') (h : Statements tables db db') :
    Statements tables' db db' :=
  h.induct (Statements tables') (fun _ => .refl) (fun h h' => h.trans h') fun hone =>
    .single (hone.mono hsub)

end Frames

/-! ## Ingest and erasure -/

/-- The tables of an ingest. -/
def ingestTables : List GoldenTable :=
  [.subjects, .references, .identifiers, .conflicts, .assertions, .assertionEvents,
    .assertionLinks, .inbox]

/-- The tables of a confirmation. -/
def confirmTables : List GoldenTable :=
  [.identifiers, .conflicts, .assertions, .assertionEvents, .verifications]

/-- The tables of a merge or a split. -/
def moveTables : List GoldenTable :=
  [.subjects, .references, .identifiers, .artifacts, .conflicts, .assertions, .assertionEvents,
    .mergeSplits]

/-- The tables of each operation. -/
def GoldenOp.tables : GoldenOp → List GoldenTable
  | .ingest .. => ingestTables
  | .erase .. => [.subjects, .references, .inbox]
  | .createVerification .. => [.verifications]
  | .confirm .. => confirmTables
  | .relink .. => [.conflicts]
  | .rebuild .. => [.assertions, .assertionEvents, .assertionLinks]
  | .openDispute .. | .respond .. | .withdraw .. | .disputeAction .. =>
      [.disputes, .assertions, .assertionEvents]
  | .resolveContradiction .. => [.assertions, .assertionEvents, .assertionLinks]
  | .merge .. | .split .. | .restore .. => moveTables
  | .entitle .. => [.entitlements]

section Services

variable {tables : List GoldenTable} {host : Host} {db db' : GoldenDb}

theorem statements_placeSubject (db : GoldenDb) (decision : ResolutionDecision) :
    Statements [.subjects] db (placeSubject db decision).2 := by
  unfold placeSubject
  split
  · exact .single (.createSubject db _ (by decide))
  · exact .single (.updateSubject db _ _ (fun _ => rfl) (by decide))

theorem statements_placeReference (db : GoldenDb) (existing : Option ExistingReference)
    (input : ResolutionInput) (subjectId : Nat) :
    Statements [.references] db (placeReference db existing input subjectId).2 := by
  unfold placeReference
  split
  · exact .single (.createReference db _ _ _ (by decide))
  · exact .single (.updateReference db _ _ (fun _ => rfl) (by decide))

theorem statements_openConflicts (db : GoldenDb) (subjectId : Nat) (planned :
    List PlannedConflict) :
    Statements [.conflicts] db (openConflicts db subjectId planned).2 :=
  Statements.foldl (fun d _ => .single (.createConflict d _ _ _ _ (by decide))) _ db

theorem statements_recordIdentifiers (db : GoldenDb) (subjectId referenceId now : Nat)
    (ids : List ResolutionIdentifier) :
    Statements [.identifiers] db (recordIdentifiers db subjectId referenceId now ids).2 := by
  refine Relation.ReflTransGen.trans (Statements.foldl_snd ?_ ids (false, db))
    (Statements.foldl_snd ?_ _ _)
  · intro acc id
    unfold recordIdentifier
    split
    · exact .single (.createIdentifier _ _ (by decide))
    · refine .single (.updateIdentifier _ _ _ ?_ (by decide))
      intro x
      unfold refreshIdentifier
      dsimp only
      split
      · rfl
      · split <;> rfl
  · intro acc row
    exact .single (.updateIdentifier _ _ _ (fun _ => rfl) (by decide))

/-- After the subject and the reference, a decision writes conflicts and identifiers only. -/
theorem statements_afterPlaced (db : GoldenDb) (subjectId referenceId now : Nat)
    (planned : List PlannedConflict) (ids : List ResolutionIdentifier) :
    Statements [.conflicts, .identifiers] db
      (recordIdentifiers (openConflicts db subjectId planned).2 subjectId referenceId now ids).2 :=
  ((statements_openConflicts db subjectId planned).mono (by decide)).trans
    ((statements_recordIdentifiers _ subjectId referenceId now ids).mono (by decide))

theorem statements_applyDecision (input : ResolutionInput) (now : Nat) (facts : ResolutionFacts) :
    Statements [.subjects, .references, .conflicts, .identifiers] db
      (applyDecision host db input now facts).2 :=
  (((statements_placeSubject db _).mono (by decide)).trans
    ((statements_placeReference _ facts.existingReference input _).mono (by decide))).trans
      ((statements_afterPlaced _ _ _ _ _ _).mono (by decide))

theorem statements_linkReplacement (added : List (Nat × AssertionType)) (db : GoldenDb)
    (old : Assertion) : Statements [.assertionLinks] db (linkReplacement added db old) := by
  unfold linkReplacement
  split
  · split
    · exact .single (.appendLink db _ _ _ (by decide))
    · exact .refl
  · exact .refl

theorem statements_writeAssertions (req : TalentIngestRequest) (actor : JsString)
    (subjectId referenceId : Nat) (live : List Assertion) (revoked : List JsString)
    (drafts : List AssertionDraft) :
    Statements [.assertions, .assertionEvents, .assertionLinks] db
      (writeAssertions req actor subjectId referenceId live revoked drafts db).2.2 := by
  refine ((Statements.foldl_snd ?_ _ ([], db)).trans (Statements.foldl ?_ _ _)).trans
    (Statements.foldl ?_ _ _)
  · intro acc d
    exact .tail (.single (.createAssertion _ _ (by decide))) (.appendEvent _ _ _ _ _ _ (by decide))
  · intro d a
    exact .tail (.single (.setStatus d _ _ (by decide))) (.appendEvent _ _ _ _ _ _ (by decide))
  · exact fun d old => (statements_linkReplacement _ d old).mono (by decide)

theorem statements_finishSnapshot (req : TalentIngestRequest) (principal : IngestPrincipal)
    (resolution : ResolutionResult) :
    Statements [.assertions, .assertionEvents, .assertionLinks, .inbox] db
      (finishSnapshot host db req principal resolution).2 :=
  ((statements_writeAssertions req (ingestActor principal) resolution.subjectId
    resolution.referenceId (db.liveAssertionsOf resolution.referenceId)
    (db.revokedHashesOf resolution.referenceId) (toAssertionDrafts host req)).mono (by decide)).tail
      (.createInbox _ _ (by decide))

variable {principal : IngestPrincipal} {now : Nat}

/-- A new snapshot places its subject and its reference first; the rest writes
neither of these tables. -/
theorem statements_applySnapshot {req : TalentIngestRequest}
    {input : ResolutionInput} {out : TalentIngestResponse × GoldenDb}
    (h : applySnapshot host db req principal input now = .ok out) :
    ∃ facts, gatherFacts db input = .ok facts ∧
      Statements [.conflicts, .identifiers, .assertions, .assertionEvents, .assertionLinks, .inbox]
        (placeReference (placeSubject db (decideResolution host facts)).2 facts.existingReference
          input (placeSubject db (decideResolution host facts)).1).2 out.2 := by
  simp only [applySnapshot, resolve, bind_eq_ok, Except.ok.injEq] at h
  obtain ⟨_, ⟨facts, hfacts, rfl⟩, rfl⟩ := h
  exact ⟨facts, hfacts, ((statements_afterPlaced _ _ _ _ _ _).mono (by decide)).trans
    ((statements_finishSnapshot req principal _).mono (by decide))⟩

/-- An ingest answers a known event from the inbox and applies a new snapshot. -/
theorem ingest_eq_ok {tokenKey : Option JsString} {req : TalentIngestRequest}
    {out : TalentIngestResponse × GoldenDb} :
    ingest host tokenKey db req principal now = .ok out ↔
      req.tuple.sourceSystemId = principal.sourceSystemId ∧
      ∃ input, toResolutionInput host tokenKey req = .ok input ∧
        ((∃ row stored, db.inboxEvent? req.sourceEventId = some row ∧ row.tuple = req.tuple ∧
            row.response = .talentSnapshot stored ∧ out = ({ stored with replayed := true }, db)) ∨
          db.inboxEvent? req.sourceEventId = none ∧
            applySnapshot host db req principal input now = .ok out) := by
  simp only [ingest, bind_eq_ok, require_eq_ok, decide_eq_true_eq]
  constructor
  · rintro ⟨-, hsystem, input, hinput, prior, hprior, hout⟩
    refine ⟨hsystem, input, hinput, ?_⟩
    unfold replay at hprior
    cases hrow : db.inboxEvent? req.sourceEventId with
    | none =>
      rw [hrow] at hprior
      obtain rfl := Except.ok.inj hprior
      exact .inr ⟨rfl, hout⟩
    | some row =>
      simp only [hrow, bind_eq_ok, require_eq_ok, decide_eq_true_eq, Except.ok.injEq] at hprior
      obtain ⟨-, htuple, rfl⟩ := hprior
      unfold snapshotOutcome at hout
      split at hout
      case h_1 stored heq =>
        exact .inl ⟨row, stored, rfl, htuple, Option.some.inj heq, (Except.ok.inj hout).symm⟩
      · cases hout
      case h_3 heq => exact absurd heq (Option.some_ne_none _)
  · rintro ⟨hsystem, input, hinput, ⟨row, stored, hrow, htuple, hresponse, rfl⟩ | ⟨hnone, hout⟩⟩
    · refine ⟨(), hsystem, input, hinput, some row.response, ?_, ?_⟩
      · simp [replay, hrow, htuple, require]
      · rw [hresponse]
        rfl
    · refine ⟨(), hsystem, input, hinput, none, ?_, hout⟩
      simp [replay, hnone]

theorem statements_ingest {tokenKey : Option JsString} {req : TalentIngestRequest}
    {out : TalentIngestResponse × GoldenDb}
    (h : ingest host tokenKey db req principal now = .ok out) :
      Statements ingestTables db out.2 := by
  obtain ⟨-, input, -, ⟨_, _, -, -, -, rfl⟩ | ⟨-, hout⟩⟩ := ingest_eq_ok.mp h
  · exact .refl
  · obtain ⟨facts, -, hrest⟩ := statements_applySnapshot hout
    exact (((statements_placeSubject db _).mono (by decide)).trans
      ((statements_placeReference _ facts.existingReference input _).mono (by decide))).trans
        (hrest.mono (by decide))

/-- An erasure leaves the tables alone, or writes the inbox row of an unknown
reference, or brings the reference and its subject up to date before. -/
theorem erase_cases {req : TalentErasedRequest} {out : TalentErasedResponse × GoldenDb}
    (h : erase db req principal now = .ok out) : out.2 = db ∨ ∃ row,
      out.2 = db.createInbox row ∨ ∃ ref db₁ subject,
        db.referenceByTuple? req.tuple = some ref ∧
        (db₁ = db ∨ db₁ = db.updateReference ref.id fun r =>
          { r with status := .erased, erasedAt := some now }) ∧
        survivingSubject db₁ ref.subjectId = .ok subject ∧
        out.2 = (db₁.updateSubject subject.id fun s =>
          { s with accessState := accessStateOf db₁ subject.id }).createInbox row := by
  simp only [erase, bind_eq_ok] at h
  obtain ⟨-, -, prior, -, h⟩ := h
  unfold erasureOutcome at h
  split at h
  · obtain rfl := Except.ok.inj h
    exact .inl rfl
  · cases h
  · simp only [applyErasure, bind_eq_ok, Except.ok.injEq] at h
    obtain ⟨erased, herased, rfl⟩ := h
    unfold eraseByTuple at herased
    split at herased
    · obtain rfl := Except.ok.inj herased
      exact .inr ⟨_, .inl rfl⟩
    next ref hfind =>
      simp only [eraseReference, bind_eq_ok, Except.ok.injEq] at herased
      obtain ⟨subject, hsubject, rfl⟩ := herased
      refine .inr ⟨_, .inr ⟨ref, _, subject, hfind, ?_, hsubject, rfl⟩⟩
      split
      · exact .inl rfl
      · exact .inr rfl

theorem statements_erase {req : TalentErasedRequest}
    {out : TalentErasedResponse × GoldenDb} (h : erase db req principal now = .ok out) :
    Statements [.subjects, .references, .inbox] db out.2 := by
  rcases erase_cases h with hout | ⟨row, hout | ⟨ref, db₁, subject, -, hdb₁, -, hout⟩⟩
  · rw [hout]
  · rw [hout]
    exact .single (.createInbox db row (by decide))
  · rw [hout]
    have hreference : Statements [.subjects, .references, .inbox] db db₁ := by
      rcases hdb₁ with rfl | rfl
      · exact .refl
      · exact .single (.updateReference _ _ _ (fun _ => rfl) (by decide))
    refine .tail (.tail hreference (.updateSubject _ _ _ ?_ (by decide)))
      (.createInbox _ _ (by decide))
    exact fun _ => rfl

/-! ## Verification -/

theorem statements_expireAll (prior : List VerificationRequest) :
    Statements [.verifications] db (expireAll db prior) := by
  refine Statements.foldl (fun d v => .single (.updateVerification d _ _ ?_ (by decide))) prior db
  exact fun _ => rfl

theorem statements_createVerificationRequest {codeKey salt : JsString}
    {req : CreateVerificationRequest} {out : Nat × GoldenDb}
    (h : createVerificationRequest host codeKey salt db req principal now = .ok out) :
    Statements [.verifications] db out.2 := by
  simp only [createVerificationRequest, bind_eq_ok, Except.ok.injEq] at h
  obtain ⟨subject, -, rfl⟩ := h
  exact (statements_expireAll _).tail (.createVerification _ _ (by decide))

theorem statements_openContradiction (subjectId : Nat) (others : List Nat) (key : IdentifierKey) :
    Statements [.conflicts] db (openContradiction host db subjectId others key) := by
  unfold openContradiction
  dsimp only
  split
  · exact .refl
  · exact .single (.createConflict _ _ _ _ _ (by decide))

theorem statements_relink {subjectId : Nat} {key : IdentifierKey} {out : List Nat × GoldenDb}
    (h : relink host db subjectId key = .ok out) : Statements [.conflicts] db out.2 := by
  simp only [relink, bind_eq_ok, Except.ok.injEq] at h
  obtain ⟨others, -, rfl⟩ := h
  dsimp only
  split
  · exact .refl
  · exact statements_openContradiction _ _ _

theorem statements_appendOutcome (req : VerificationRequest) (subjectId now : Nat) :
    Statements confirmTables db (appendOutcome host db req subjectId now) :=
  .tail (.single (.createAssertion _ _ (by decide))) (.appendEvent _ _ _ _ _ _ (by decide))

theorem statements_bindSubject {req : VerificationRequest} {subject : Option Nat}
    {out : ConfirmTx × GoldenDb} (h : bindSubject host db req now subject = .ok out) :
    Statements confirmTables db out.2 := by
  cases subject with
  | none =>
    obtain rfl := Except.ok.inj h
    exact .single (.updateVerification _ _ _ (fun _ => rfl) (by decide))
  | some subjectId =>
    simp only [bindSubject, bind_eq_ok, Except.ok.injEq] at h
    obtain ⟨owners, -, rfl⟩ := h
    refine .tail ?_ (.updateVerification _ _ _ (fun _ => rfl) (by decide))
    unfold bindTo
    split
    · exact statements_appendOutcome _ _ _
    · split
      · exact (statements_openContradiction _ _ _).mono (by decide)
      · exact Relation.ReflTransGen.trans (.single (.createIdentifier _ _ (by decide)))
          (statements_appendOutcome _ _ _)

/-- A confirmation that is refused writes the request at most; the others bind. -/
theorem confirm_cases {id : Nat} {code : JsString} {out : ConfirmTx × GoldenDb}
    (h : confirmVerification host db id code now = .ok out) :
    (∃ answer left, out.1 = .refused answer left) ∧ Statements [.verifications] db out.2 ∨
      ∃ req subject, db.verification? id = some req ∧ confirmSubject db req = .ok subject ∧
        bindSubject host db req now subject = .ok out := by
  unfold confirmVerification at h
  split at h
  · obtain rfl := Except.ok.inj h
    exact .inl ⟨⟨_, _, rfl⟩, .refl⟩
  next req hreq =>
    split at h
    iterate 3
      · obtain rfl := Except.ok.inj h
        exact .inl ⟨⟨_, _, rfl⟩, .refl⟩
    · unfold confirmPending at h
      split at h
      · obtain rfl := Except.ok.inj h
        exact .inl ⟨⟨_, _, rfl⟩, .single (.updateVerification _ _ _ (fun _ => rfl) (by decide))⟩
      · split at h
        · obtain rfl := Except.ok.inj h
          exact .inl ⟨⟨_, _, rfl⟩, .single (.updateVerification _ _ _ (fun _ => rfl) (by decide))⟩
        · split at h
          · obtain rfl := Except.ok.inj h
            refine .inl ?_
            unfold countWrongCode
            dsimp only
            split
            · exact ⟨⟨_, _, rfl⟩, .single (.updateVerification _ _ _ (fun _ => rfl) (by decide))⟩
            · exact ⟨⟨_, _, rfl⟩, .single (.updateVerification _ _ _ (fun _ => rfl) (by decide))⟩
          · simp only [bind_eq_ok] at h
            obtain ⟨subject, hsubject, hbind⟩ := h
            exact .inr ⟨req, subject, hreq, hsubject, hbind⟩

/-- A confirmed request names its subject, and writes identifiers under it only. -/
theorem bindSubject_spec {req : VerificationRequest} {subject : Option Nat} {tx : ConfirmTx}
    (h : bindSubject host db req now subject = .ok (tx, db')) :
    (∃ outcome, tx = .confirmed outcome subject req.key) ∧
      (db'.identifiers = db.identifiers ∨ ∃ subjectId, subject = some subjectId ∧
        db'.identifiers =
          (db.createIdentifier (boundIdentifier req subjectId now)).identifiers) := by
  cases subject with
  | none =>
    obtain ⟨rfl, rfl⟩ := Prod.ext_iff.mp (Except.ok.inj h)
    exact ⟨⟨_, rfl⟩, .inl rfl⟩
  | some subjectId =>
    simp only [bindSubject, bind_eq_ok, Except.ok.injEq] at h
    obtain ⟨owners, -, hout⟩ := h
    obtain ⟨rfl, rfl⟩ := Prod.ext_iff.mp hout
    refine ⟨⟨_, rfl⟩, ?_⟩
    unfold bindTo
    split
    · exact .inl rfl
    · split
      · exact .inl ((statements_openContradiction _ _ _).frame (t := .identifiers) (by decide))
      · exact .inr ⟨subjectId, rfl, rfl⟩

theorem statements_confirm {id : Nat} {code : JsString} {out : ConfirmTx × GoldenDb}
    (h : confirmVerification host db id code now = .ok out) :
      Statements confirmTables db out.2 := by
  rcases confirm_cases h with ⟨-, hrefused⟩ | ⟨req, subject, -, -, hbind⟩
  · exact hrefused.mono (by decide)
  · exact statements_bindSubject hbind

/-! ## The projection and contradictions -/

theorem statements_applyContradictionLink (existing : List AssertionLink) (db : GoldenDb)
    (pair : Nat × Nat) :
      Statements [.assertionLinks] db (applyContradictionLink existing db pair) := by
  unfold applyContradictionLink
  split
  · exact .refl
  · exact .single (.appendLink db _ _ _ (by decide))

theorem statements_appendReconciled (db : GoldenDb) (id : Nat) (partners : List Nat) :
    Statements [.assertionLinks] db (partners.foldl (fun db p =>
      db.appendLink id p .reconciles) db) :=
  Statements.foldl (fun d _ => .single (.appendLink d _ _ _ (by decide))) partners db

theorem statements_rebuild {freshnessDays : ℚ} {subjectId now : Nat}
    (h : rebuild host db freshnessDays subjectId now = .ok db') :
      Statements [.assertions, .assertionEvents, .assertionLinks] db db' := by
  simp only [rebuild, bind_eq_ok] at h
  obtain ⟨subject, -, h⟩ := h
  split at h
  · obtain rfl := Except.ok.inj h
    exact .refl
  · obtain rfl := Except.ok.inj h
    refine Relation.ReflTransGen.trans (Statements.foldl ?_ _ db) (Statements.foldl ?_ _ _)
    · intro d a
      unfold applyStatus
      split
      · exact .refl
      · split
        · exact .refl
        · split
          · exact .refl
          · exact .tail (.single (.setStatus d _ _ (by decide)))
              (.appendEvent _ _ _ _ _ _ (by decide))
    · exact fun d pair => (statements_applyContradictionLink _ d pair).mono (by decide)

theorem statements_resolveContradiction {crossTenant : Bool} {freshnessDays : ℚ}
    {assertionId now : Nat}
    {tuple : SourceTuple} {resolution : ContradictionResolution} {actor : JsString}
    {out : ContradictionResolutionResponse × GoldenDb}
    (h : resolveContradiction host db crossTenant freshnessDays tuple assertionId resolution actor
      principal now = .ok out) : Statements [.assertions, .assertionEvents,
        .assertionLinks] db out.2 := by
  simp only [resolveContradiction, bind_eq_ok, Except.ok.injEq] at h
  obtain ⟨_, -, ⟨a, view⟩, -, written, hwritten, rfl⟩ := h
  refine .tail ?_ (.appendEvent _ _ _ _ _ _ (by decide))
  cases resolution with
  | keep =>
    obtain rfl := Except.ok.inj hwritten
    have hlinks (partners : List Nat) :=
      (statements_appendReconciled db a.id partners).mono
        (by decide : _ ⊆ [.assertions, .assertionEvents, .assertionLinks])
    unfold applyKeep
    dsimp only
    split
    · exact (hlinks _).tail (.setStatus _ _ _ (by decide))
    · exact hlinks _
  | retract =>
    simp only [applyResolution, applyRetract, bind_eq_ok, Except.ok.injEq] at hwritten
    obtain ⟨-, -, -, -, rfl⟩ := hwritten
    exact .single (.setStatus _ _ _ (by decide))

/-! ## Merge and split -/

/-- One statement of a merge or a split: rows are repointed, and only subjects and
events are created. -/
inductive MoveStatement : GoldenDb → GoldenDb → Prop
  | createSubject (db : GoldenDb) (status : ResolutionStatus) :
      MoveStatement db (db.createSubject status)
  | updateSubject (db : GoldenDb) (id : Nat) (f : GoldenTalent → GoldenTalent)
      (hid : ∀ s, (f s).id = s.id) : MoveStatement db (db.updateSubject id f)
  | repointReferences (db : GoldenDb) (ids : List Nat) (subjectId : Nat) :
      MoveStatement db (db.repointReferences ids subjectId)
  | repointIdentifiers (db : GoldenDb) (ids : List Nat) (subjectId : Nat) :
      MoveStatement db (db.repointIdentifiers ids subjectId)
  | repointArtifacts (db : GoldenDb) (ids : List Nat) (subjectId : Nat) :
      MoveStatement db (db.repointArtifacts ids subjectId)
  | repointConflicts (db : GoldenDb) (ids : List Nat) (subjectId : Nat) :
      MoveStatement db (db.repointConflicts ids subjectId)
  | repointAssertions (db : GoldenDb) (ids : List Nat) (subjectId : Nat) :
      MoveStatement db (db.repointAssertions ids subjectId)
  | appendEvent (db : GoldenDb) (id : Nat) (type : AssertionEventType)
      (source target : Option AssertionStatus) (actor : JsString) :
      MoveStatement db (db.appendEvent id type source target actor)
  | createMergeSplit (db : GoldenDb) (row : MergeSplitEvent) :
      MoveStatement db (db.createMergeSplit row)

/-- A sequence of statements of a merge or a split. -/
abbrev Moves : GoldenDb → GoldenDb → Prop := Relation.ReflTransGen MoveStatement

theorem MoveStatement.statement (h : MoveStatement db db') : Statement moveTables db db' := by
  cases h with
  | createSubject => exact .createSubject _ _ (by decide)
  | updateSubject _ _ hid => exact .updateSubject _ _ _ hid (by decide)
  | repointReferences => exact .repointReferences _ _ _ (by decide)
  | repointIdentifiers => exact .repointIdentifiers _ _ _ (by decide)
  | repointArtifacts => exact .repointArtifacts _ _ _ (by decide)
  | repointConflicts => exact .repointConflicts _ _ _ (by decide)
  | repointAssertions => exact .repointAssertions _ _ _ (by decide)
  | appendEvent => exact .appendEvent _ _ _ _ _ _ (by decide)
  | createMergeSplit => exact .createMergeSplit _ _ (by decide)

theorem statements_of_moves (h : Moves db db') : Statements moveTables db db' :=
  Relation.ReflTransGen.mono (fun _ _ => MoveStatement.statement) db db' h

theorem moves_moveRows (moved : MovedSet) (intoId : Nat) (actor : JsString) :
    Moves db (moveRows db moved intoId actor) := by
  have hrows : Moves db (((((db.repointReferences moved.referenceIds
      intoId).repointIdentifiers moved.identifierIds intoId).repointArtifacts moved.artifactIds
        intoId).repointConflicts moved.conflictIds intoId).repointAssertions moved.assertionIds
          intoId) :=
    ((((Relation.ReflTransGen.single (.repointReferences db _ _)).tail
      (.repointIdentifiers _ _ _)).tail (.repointArtifacts _ _ _)).tail
        (.repointConflicts _ _ _)).tail
        (.repointAssertions _ _ _)
  unfold moveRows
  dsimp only
  generalize ((((db.repointReferences moved.referenceIds intoId).repointIdentifiers
    moved.identifierIds intoId).repointArtifacts moved.artifactIds intoId).repointConflicts
    moved.conflictIds intoId).repointAssertions moved.assertionIds intoId = all at hrows
  induction moved.assertionIds generalizing all with
  | nil => exact hrows
  | cons id rest ih => exact ih _ (hrows.tail (.appendEvent _ _ _ _ _ _))

theorem moves_recordSplit (subjectId targetId : Nat) (moved : MovedSet)
    (restores : Option Nat) (actor reason : JsString) :
    Moves db (recordSplit db subjectId targetId moved restores actor reason).2 :=
  .head (.createMergeSplit db _) (moves_moveRows _ _ _)

variable {out : MergeSplitEvent × GoldenDb} {actor reason : JsString}

theorem moves_merge {fromId intoId : Nat} (h :
    mergeSubjects db fromId intoId actor reason = .ok out) :
    Moves db out.2 := by
  simp only [mergeSubjects, bind_eq_ok, Except.ok.injEq] at h
  obtain ⟨-, -, source, -, target, -, rfl⟩ := h
  refine .tail (.tail (.head (.createMergeSplit db _) (moves_moveRows _ _ _))
    (.updateSubject _ _ _ ?_)) (.updateSubject _ _ _ ?_)
  · exact fun _ => rfl
  · exact fun _ => rfl

theorem moves_split {subjectId : Nat} {selection : MovedSet}
    (h : splitSelection db subjectId selection actor reason = .ok out) : Moves db out.2 := by
  simp only [splitSelection, bind_eq_ok, Except.ok.injEq] at h
  obtain ⟨subject, -, moved, -, -, -, rfl⟩ := h
  refine .tail (.tail (.head (.createSubject db _) (moves_recordSplit _ _ _ _ _ _))
    (.updateSubject _ _ _ ?_)) (.updateSubject _ _ _ ?_)
  · exact fun _ => rfl
  · exact fun _ => rfl

theorem moves_restore {subjectId eventId : Nat}
    (h : restoreMerge db subjectId eventId actor reason = .ok out) : Moves db out.2 := by
  simp only [restoreMerge, bind_eq_ok, Except.ok.injEq] at h
  obtain ⟨subject, -, ⟨ev, merge⟩, -, original, -, -, -, -, -, rfl⟩ := h
  refine .tail (.tail (moves_recordSplit _ _ _ _ _ _) (.updateSubject _ _ _ ?_))
    (.updateSubject _ _ _ ?_)
  · exact fun _ => rfl
  · exact fun _ => rfl

theorem moves_of_step {env : GoldenEnv} {op : GoldenOp} (hop : op.tables = moveTables)
    (h : GoldenStep env db op db') : Moves db db' := by
  cases op with
  | merge =>
    obtain ⟨out, hout, rfl⟩ := map_eq_ok.mp h
    exact moves_merge hout
  | split =>
    obtain ⟨out, hout, rfl⟩ := map_eq_ok.mp h
    exact moves_split hout
  | restore =>
    obtain ⟨out, hout, rfl⟩ := map_eq_ok.mp h
    exact moves_restore hout
  | _ => simp [GoldenOp.tables, ingestTables, confirmTables, moveTables] at hop

end Services

/-! ## Disputes -/

/-- The operations of the dispute service. -/
def GoldenOp.disputes : GoldenOp → Bool
  | .openDispute .. | .respond .. | .withdraw .. | .disputeAction .. => true
  | _ => false

/-- A relation that the statements of a dispute transaction respect: those on the
dispute tables, and the guarded move of a live assertion. -/
structure DisputeSteps (R : GoldenDb → GoldenDb → Prop) : Prop where
  trans : ∀ {a b c}, R a b → R b c → R a c
  tables : ∀ {db db'}, OnDisputes db db' → R db db'
  move : ∀ (db : GoldenDb) (id : Nat) {source : AssertionStatus} (target : AssertionStatus)
    (type : AssertionEventType) (actor : JsString), source.retired = false →
    R db (moveAssertion db id source target type actor).2

namespace DisputeSteps

variable {R : GoldenDb → GoldenDb → Prop} (hR : DisputeSteps R) {host : Host} {db db' : GoldenDb}

include hR

theorem refl (db : GoldenDb) : R db db := hR.tables ⟨rfl, Nat.le_refl _⟩

theorem close (db : GoldenDb) (id : Nat) (f : AssertionDispute → AssertionDispute)
    (d : AssertionDispute) (type : DisputeEventType) (target : Option DisputeStatus)
    (actor : JsString) (tenant : Option TenantKey) :
    R db (addDisputeEvent (db.updateDispute id f) d type target actor tenant) :=
  hR.tables ⟨rfl, Nat.le_succ _⟩

theorem openFor (reference : ExternalTalentReference) (a : Assertion) (statement : JsString)
    (now : Nat) : R db (openFor host db reference a statement now).2 := by
  unfold Intelligence.openFor
  split
  · exact hR.refl db
  · exact hR.tables ⟨rfl, Nat.le_succ_of_le (Nat.le_succ_of_le (Nat.le_succ _))⟩

theorem addResponse (reference : ExternalTalentReference) (d : AssertionDispute)
    (statement : JsString) : R db (addResponse host db reference d statement) := by
  unfold Intelligence.addResponse
  split
  · exact hR.refl db
  · exact hR.tables ⟨rfl, Nat.le_succ_of_le (Nat.le_succ _)⟩

theorem applyWithdraw (d : AssertionDispute) (actor : JsString) (now : Nat) :
    R db (applyWithdraw db d actor now) := by
  unfold Intelligence.applyWithdraw
  split
  · exact hR.refl db
  · refine hR.trans ?_ (hR.close _ _ _ _ _ _ _ _)
    split
    · exact hR.move db _ _ _ _ rfl
    · exact hR.refl db

theorem applyTriage (ctx : TenantContext) (now : Nat) : R db (applyTriage db ctx now).2 := by
  unfold Intelligence.applyTriage
  split
  · exact hR.refl db
  · cases hretired : ctx.assertion.currentStatus.retired with
    | true => exact hR.close db _ _ _ _ _ _ _
    | false =>
      -- the move, when the assertion is not disputed yet
      have hmoved : R db (if ctx.assertion.currentStatus = .disputed then (true, db)
          else moveAssertion db ctx.assertion.id ctx.assertion.currentStatus .disputed .disputed
            ctx.actor).2 := by
        split
        · exact hR.refl db
        · exact hR.move db _ _ _ _ hretired
      generalize (if ctx.assertion.currentStatus = .disputed then (true, db)
        else moveAssertion db ctx.assertion.id ctx.assertion.currentStatus .disputed .disputed
          ctx.actor) = moved at hmoved ⊢
      rw [if_neg Bool.false_ne_true]
      dsimp only
      split
      · exact hR.close db _ _ _ _ _ _ _
      · exact hR.trans hmoved (hR.close _ _ _ _ _ _ _ _)

theorem applyDisposition (ctx : TenantContext) (corrected : Bool) (note : JsString) (now : Nat) :
    R db (applyDisposition db ctx corrected note now).2 := by
  have hmoved : R db (if ctx.assertion.currentStatus = .disputed then
      moveAssertion db ctx.assertion.id .disputed (if corrected then .revoked else .valid)
        (if corrected then .corrected else .disputeResolved) ctx.actor
    else (false, db)).2 := by
    split
    · exact hR.move db _ _ _ _ rfl
    · exact hR.refl db
  unfold Intelligence.applyDisposition
  generalize (if ctx.assertion.currentStatus = .disputed then
      moveAssertion db ctx.assertion.id .disputed (if corrected then .revoked else .valid)
        (if corrected then .corrected else .disputeResolved) ctx.actor
    else (false, db)) = moved at hmoved ⊢
  dsimp only
  split
  · exact hR.close db _ _ _ _ _ _ _
  · exact hR.trans hmoved (hR.close _ _ _ _ _ _ _ _)

theorem applyDispose {ctx : TenantContext} {corrected : Bool} {note : JsString} {now : Nat}
    {out : DisputeActionResponse × GoldenDb}
    (h : applyDispose db ctx corrected note now = .ok out) : R db out.2 := by
  unfold Intelligence.applyDispose at h
  split at h
  · cases h
  · obtain rfl := Except.ok.inj h
    exact hR.applyDisposition ctx _ _ _
  · obtain rfl := Except.ok.inj h
    exact hR.refl db

theorem applyAction {ctx : TenantContext} {now : Nat} {action : TenantAction}
    {out : DisputeActionResponse × GoldenDb} (h : applyAction host db ctx now action = .ok out) :
    R db out.2 := by
  cases action with
  | triage =>
    obtain rfl := Except.ok.inj h
    exact hR.applyTriage ctx now
  | requestInfo note =>
    obtain rfl := Except.ok.inj h
    exact hR.tables ⟨rfl, Nat.le_succ_of_le (Nat.le_succ _)⟩
  | correct | uphold => exact hR.applyDispose h
  | extend =>
    simp only [Intelligence.applyAction, applyExtend, bind_eq_ok, Except.ok.injEq] at h
    obtain ⟨-, -, rfl⟩ := h
    exact hR.close db _ _ _ _ _ _ _

theorem of_step {env : GoldenEnv} {op : GoldenOp} (hop : op.disputes = true)
    (h : GoldenStep env db op db') : R db db' := by
  cases op with
  | openDispute =>
    obtain ⟨out, hout, rfl⟩ := map_eq_ok.mp h
    simp only [openDispute, bind_eq_ok, Except.ok.injEq] at hout
    obtain ⟨_, -, a, -, -, -, rfl⟩ := hout
    exact hR.openFor _ _ _ _
  | respond =>
    obtain ⟨out, hout, rfl⟩ := map_eq_ok.mp h
    simp only [respond, bind_eq_ok, Except.ok.injEq] at hout
    obtain ⟨_, -, _, -, -, -, rfl⟩ := hout
    exact hR.addResponse _ _ _
  | withdraw =>
    obtain ⟨out, hout, rfl⟩ := map_eq_ok.mp h
    simp only [withdraw, bind_eq_ok, Except.ok.injEq] at hout
    obtain ⟨_, -, _, -, rfl⟩ := hout
    exact hR.applyWithdraw _ _ _
  | disputeAction =>
    obtain ⟨out, hout, rfl⟩ := map_eq_ok.mp h
    simp only [tenantAction, bind_eq_ok] at hout
    obtain ⟨ctx, -, hout⟩ := hout
    exact hR.applyAction hout
  | ingest | erase | createVerification | confirm | relink | rebuild | resolveContradiction
  | merge | split | restore | entitle => cases hop

end DisputeSteps

/-! ## Every operation -/

theorem statements_disputeSteps :
    DisputeSteps (Statements [.disputes, .assertions, .assertionEvents]) := by
  refine ⟨fun h h' => h.trans h', fun h => .single (.onDisputes _ _ h (by decide)), ?_⟩
  intro db id source target type actor _
  unfold moveAssertion
  split
  · exact .tail (.single (.setStatus db _ _ (by decide))) (.appendEvent _ _ _ _ _ _ (by decide))
  · exact .refl

theorem statements_of_step {env : GoldenEnv} {db db' : GoldenDb} {op : GoldenOp}
    (h : GoldenStep env db op db') : Statements op.tables db db' := by
  cases hdisputes : op.disputes with
  | true =>
    have hstep := statements_disputeSteps.of_step hdisputes h
    cases op with
    | openDispute | respond | withdraw | disputeAction => exact hstep
    | ingest | erase | createVerification | confirm | relink | rebuild | resolveContradiction
    | merge | split | restore | entitle => cases hdisputes
  | false =>
    cases op with
    | ingest =>
      obtain ⟨out, hout, rfl⟩ := map_eq_ok.mp h
      exact statements_ingest hout
    | erase =>
      obtain ⟨out, hout, rfl⟩ := map_eq_ok.mp h
      exact statements_erase hout
    | createVerification =>
      obtain ⟨out, hout, rfl⟩ := map_eq_ok.mp h
      exact statements_createVerificationRequest hout
    | confirm =>
      obtain ⟨out, hout, rfl⟩ := map_eq_ok.mp h
      exact statements_confirm hout
    | relink =>
      obtain ⟨out, hout, rfl⟩ := map_eq_ok.mp h
      exact statements_relink hout
    | rebuild => exact statements_rebuild h
    | resolveContradiction =>
      obtain ⟨out, hout, rfl⟩ := map_eq_ok.mp h
      exact statements_resolveContradiction hout
    | merge | split | restore => exact statements_of_moves (moves_of_step rfl h)
    | entitle =>
      obtain rfl := Except.ok.inj h
      exact .single (.entitle db _ _ (List.mem_singleton.mpr rfl))
    | openDispute | respond | withdraw | disputeAction => cases hdisputes

end AramoPlatform.Intelligence
