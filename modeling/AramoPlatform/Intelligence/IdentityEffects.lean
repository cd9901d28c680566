import AramoPlatform.Intelligence.AssertionEffects
import AramoPlatform.Intelligence.ResolutionEffects

/-!
# What an operation does to identities

The identity tables stay in order over every run: the services that leave them
alone do so statement by statement, the others keep the invariant.
-/

namespace AramoPlatform.Intelligence

open Js Lib

/-! ## Frames -/

/-- The identity tables are the same. -/
structure SameIdentity (db db' : GoldenDb) : Prop where
  subjects : db'.subjects = db.subjects
  references : db'.references = db.references
  identifiers : db'.identifiers = db.identifiers
  conflicts : db'.conflicts = db.conflicts
  next : db.nextId ≤ db'.nextId

namespace SameIdentity

variable {a b c : GoldenDb}

theorem inOrder (h : SameIdentity a b) (ha : IdentityInOrder a) : IdentityInOrder b := by
  refine ⟨?_, ?_, ?_, ?_⟩
  · rw [h.subjects]
    exact ha.subjects.mono h.next
  · rw [h.references]
    exact ha.references.mono h.next
  · rw [h.references]
    exact ha.tuples
  · rw [h.identifiers]
    exact ha.identifiers.mono h.next

end SameIdentity

theorem Statements.sameIdentity {tables : List GoldenTable} {db db' : GoldenDb}
    (h : Statements tables db db')
    (hother : ∀ t ∈ tables, t ∉ [.subjects, .references, .identifiers, .conflicts]) :
    SameIdentity db db' where
  subjects := h.frame (t := .subjects) fun ht => hother _ ht (by decide)
  references := h.frame (t := .references) fun ht => hother _ ht (by decide)
  identifiers := h.frame (t := .identifiers) fun ht => hother _ ht (by decide)
  conflicts := h.frame (t := .conflicts) fun ht => hother _ ht (by decide)
  next := h.next_le

/-! ## Every operation -/

section Steps

variable {host : Host} {db db' : GoldenDb}

variable {principal : IngestPrincipal} {now : Nat}

/-- A snapshot that is new resolves, and what follows leaves identities alone. -/
theorem resolved_of_applySnapshot {req : TalentIngestRequest}
    {input : ResolutionInput} {response : TalentIngestResponse}
    (h : applySnapshot host db req principal input now = .ok (response, db')) :
    ∃ facts, gatherFacts db input = .ok facts ∧
      (response, db') = finishSnapshot host (applyDecision host db input now facts).2 req principal
        (applyDecision host db input now facts).1 ∧
      SameIdentity (applyDecision host db input now facts).2 db' := by
  simp only [applySnapshot, resolve, bind_eq_ok, Except.ok.injEq] at h
  obtain ⟨_, ⟨facts, hfacts, rfl⟩, hfinish⟩ := h
  refine ⟨facts, hfacts, hfinish.symm, ?_⟩
  obtain rfl := (Prod.ext_iff.mp hfinish).2
  exact (statements_finishSnapshot req principal _).sameIdentity (by decide)

section

variable (horder : IdentityInOrder db)

include horder

theorem inOrder_ingest {tokenKey : Option JsString} {req : TalentIngestRequest}
    {response : TalentIngestResponse}
    (h : ingest host tokenKey db req principal now = .ok (response, db')) :
      IdentityInOrder db' := by
  obtain ⟨-, input, -, ⟨_, _, -, -, -, hreplay⟩ | ⟨-, hout⟩⟩ := ingest_eq_ok.mp h
  · obtain rfl := (Prod.ext_iff.mp hreplay).2
    exact horder
  · obtain ⟨facts, hfacts, -, hsame⟩ := resolved_of_applySnapshot hout
    exact hsame.inOrder (applyDecision_spec host horder hfacts now).inOrder

theorem inOrder_updateSubject (id : Nat)
    {f : GoldenTalent → GoldenTalent} (hf : ∀ s, (f s).id = s.id) :
    IdentityInOrder (db.updateSubject id f) :=
  ⟨horder.subjects.update hf, horder.references, horder.tuples, horder.identifiers⟩

theorem inOrder_createSubject (status : ResolutionStatus) :
    IdentityInOrder (db.createSubject status) :=
  ⟨horder.subjects.insert rfl, horder.references.mono (Nat.le_succ _), horder.tuples,
    horder.identifiers.mono (Nat.le_succ _)⟩

theorem inOrder_updateReference (id : Nat)
    {f : ExternalTalentReference → ExternalTalentReference} (hid : ∀ r, (f r).id = r.id)
    (htuple : ∀ r, (f r).tuple = r.tuple) : IdentityInOrder (db.updateReference id f) :=
  ⟨horder.subjects, horder.references.update hid,
    tuples_updateReference db id htuple ▸ horder.tuples,
    horder.identifiers⟩

theorem inOrder_createConflict (subjectId : Nat)
    (type : IdentityConflictType) (related : List Nat) (signature : JsString) :
    IdentityInOrder (db.createConflict subjectId type related signature) :=
  ⟨horder.subjects.mono (Nat.le_succ _), horder.references.mono (Nat.le_succ _), horder.tuples,
    horder.identifiers.mono (Nat.le_succ _)⟩

theorem inOrder_createInbox (row : IntelligenceInbox) :
    IdentityInOrder (db.createInbox row) :=
  ⟨horder.subjects, horder.references, horder.tuples, horder.identifiers⟩

theorem inOrder_updateVerification (id : Nat)
    (f : VerificationRequest → VerificationRequest) :
      IdentityInOrder (db.updateVerification id f) :=
  ⟨horder.subjects, horder.references, horder.tuples, horder.identifiers⟩

theorem inOrder_erase {req : TalentErasedRequest}
    {response : TalentErasedResponse}
    (h : erase db req principal now = .ok (response, db')) : IdentityInOrder db' := by
  rcases erase_cases h with rfl | ⟨row, hout | ⟨ref, db₁, subject, -, hdb₁, -, hout⟩⟩
  · exact horder
  · rw [show db' = _ from hout]
    exact inOrder_createInbox horder row
  · rw [show db' = _ from hout]
    refine inOrder_createInbox (inOrder_updateSubject ?_ _ ?_) row
    · rcases hdb₁ with rfl | rfl
      · exact horder
      · exact inOrder_updateReference horder _ (fun _ => rfl) fun _ => rfl
    · exact fun _ => rfl

theorem inOrder_openContradiction (subjectId : Nat)
    (others : List Nat) (key : IdentifierKey) :
    IdentityInOrder (openContradiction host db subjectId others key) := by
  unfold openContradiction
  dsimp only
  split
  · exact horder
  · exact inOrder_createConflict horder _ _ _ _

theorem inOrder_createBound (req : VerificationRequest)
    (subjectId now : Nat)
    (hfree : ∀ j ∈ db.identifiers, j.activeVerified = true → j.key ≠ req.key) :
    IdentityInOrder (db.createIdentifier (boundIdentifier req subjectId now)) := by
  refine ⟨horder.subjects.mono (Nat.le_succ _), horder.references.mono (Nat.le_succ _),
    horder.tuples, horder.identifiers.insert rfl ?_ ?_ fun _ => hfree⟩
  · intro r hr
    cases hr
  · intro r hr
    simp [SubjectIdentifier.ownedBy, boundIdentifier] at hr

end

theorem bindingOwners_eq_nil {rows : List SubjectIdentifier}
    (h : bindingOwners db rows = .ok []) : rows = [] := by
  cases rows with
  | nil => rfl
  | cons row rest =>
    simp only [bindingOwners, bind_eq_ok, Except.ok.injEq] at h
    obtain ⟨s, -, others, -, hcons⟩ := h
    cases hcons

section

variable (horder : IdentityInOrder db)

include horder

theorem inOrder_appendOutcome (req : VerificationRequest)
    (subjectId now : Nat) : IdentityInOrder (appendOutcome host db req subjectId now) := by
  refine SameIdentity.inOrder ?_ horder
  exact ⟨rfl, rfl, rfl, rfl, Nat.le_succ_of_le (Nat.le_succ _)⟩

theorem inOrder_bindSubject {req : VerificationRequest}
    {subject : Option Nat} {tx : ConfirmTx}
    (h : bindSubject host db req now subject = .ok (tx, db')) : IdentityInOrder db' := by
  cases subject with
  | none =>
    obtain rfl := (Prod.ext_iff.mp (Except.ok.inj h)).2
    exact inOrder_updateVerification horder _ _
  | some subjectId =>
    simp only [bindSubject, bind_eq_ok, Except.ok.injEq] at h
    obtain ⟨owners, howners, hout⟩ := h
    obtain rfl := (Prod.ext_iff.mp hout).2
    refine inOrder_updateVerification ?_ _ _
    unfold bindTo
    split
    · exact inOrder_appendOutcome horder _ _ _
    · split
      · exact inOrder_openContradiction horder _ _ _
      case isFalse hnone =>
        -- no owner, so no row of the key is bound
        rw [not_not.mp hnone] at howners
        have hrows := bindingOwners_eq_nil howners
        refine inOrder_appendOutcome (inOrder_createBound horder _ _ _ ?_) _ _ _
        intro j hj hbound hkey
        have hmem : j ∈ db.activeVerified [req.key] :=
          mem_activeVerified.mpr ⟨hj, hbound, by rw [hkey]; exact List.mem_cons_self⟩
        rw [hrows] at hmem
        cases hmem

theorem inOrder_confirm {id : Nat} {code : JsString}
    {tx : ConfirmTx} (h : confirmVerification host db id code now = .ok (tx, db')) :
    IdentityInOrder db' := by
  rcases confirm_cases h with ⟨-, hrefused⟩ | ⟨req, subject, -, -, hbind⟩
  · exact (hrefused.sameIdentity (by decide)).inOrder horder
  · exact inOrder_bindSubject horder hbind

theorem inOrder_relink {subjectId : Nat} {key : IdentifierKey}
    {merge : List Nat} (h : relink host db subjectId key = .ok (merge, db')) :
    IdentityInOrder db' := by
  simp only [relink, bind_eq_ok, Except.ok.injEq] at h
  obtain ⟨others, -, hout⟩ := h
  obtain rfl := (Prod.ext_iff.mp hout).2
  dsimp only
  split
  · exact horder
  · exact inOrder_openContradiction horder _ _ _

theorem inOrder_repointReferences (ids : List Nat) (subjectId : Nat) :
    IdentityInOrder (db.repointReferences ids subjectId) := by
  refine ⟨horder.subjects, horder.references.update fun _ => rfl, ?_, horder.identifiers⟩
  have hsame : (updateWhere (fun r => ids.contains r.id)
      (fun r : ExternalTalentReference => { r with subjectId := subjectId }) db.references).map
        (·.tuple) = db.references.map (·.tuple) := by
    refine map_updateWhere _ ?_
    exact fun _ => rfl
  exact hsame.symm ▸ horder.tuples

theorem inOrder_moves (h : Moves db db') : IdentityInOrder db' := by
  induction h with
  | refl => exact horder
  | tail _ hone ih =>
    cases hone with
    | createSubject => exact inOrder_createSubject ih _
    | updateSubject _ _ hid => exact inOrder_updateSubject ih _ hid
    | repointReferences => exact inOrder_repointReferences ih _ _
    | repointIdentifiers =>
      exact ⟨ih.subjects, ih.references, ih.tuples,
        ih.identifiers.update_of_kept (fun _ => ⟨rfl, rfl, rfl, fun h => h⟩) fun _ h => h⟩
    | createMergeSplit | appendEvent =>
      exact ⟨ih.subjects.mono (Nat.le_succ _), ih.references.mono (Nat.le_succ _), ih.tuples,
        ih.identifiers.mono (Nat.le_succ _)⟩
    | repointArtifacts | repointConflicts | repointAssertions =>
      exact ⟨ih.subjects, ih.references, ih.tuples, ih.identifiers⟩

end

theorem identityInOrder_of_step {env : GoldenEnv} (db : GoldenDb) (op : GoldenOp) (db' : GoldenDb)
    (horder : IdentityInOrder db) (h : GoldenStep env db op db') : IdentityInOrder db' := by
  have hstatements := statements_of_step h
  cases op with
  | ingest =>
    obtain ⟨out, hout, rfl⟩ := map_eq_ok.mp h
    exact inOrder_ingest horder hout
  | erase =>
    obtain ⟨out, hout, rfl⟩ := map_eq_ok.mp h
    exact inOrder_erase horder hout
  | confirm =>
    obtain ⟨out, hout, rfl⟩ := map_eq_ok.mp h
    exact inOrder_confirm horder hout
  | relink =>
    obtain ⟨out, hout, rfl⟩ := map_eq_ok.mp h
    exact inOrder_relink horder hout
  | merge | split | restore => exact inOrder_moves horder (moves_of_step rfl h)
  | createVerification | rebuild | openDispute | respond | withdraw | disputeAction
  | resolveContradiction | entitle =>
    exact (hstatements.sameIdentity (by simp [GoldenOp.tables])).inOrder horder

theorem identityInOrder_empty : IdentityInOrder .empty :=
  ⟨⟨List.nodup_nil, by simp [GoldenDb.empty]⟩, ⟨List.nodup_nil, by simp [GoldenDb.empty]⟩,
    List.nodup_nil, ⟨List.nodup_nil, by simp [GoldenDb.empty]⟩, by simp [GoldenDb.empty],
    by simp [GoldenDb.empty], by simp [GoldenDb.empty]⟩

end Steps

end AramoPlatform.Intelligence
