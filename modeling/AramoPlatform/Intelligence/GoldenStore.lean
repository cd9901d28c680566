import AramoPlatform.Intelligence.Statements
import AramoPlatform.Lib.Transactions
import Mathlib.Tactic.MkIffOfInductiveProp

/-!
# The golden model as a store

The repositories of the golden model, one query or one write each, as the
statements of concurrent transactions. A row gets its id from the transaction
that inserts it. The constraints are those of the schema: primary keys, foreign
keys, unique indexes and the checks on the columns that are modelled.
-/

namespace AramoPlatform.Intelligence

open Js Lib

/-! ## Constraints -/

/-- The live population of the unique index on claims. -/
def Assertion.liveClaim (a : Assertion) : Option (Nat × JsString) :=
  if a.currentStatus.retired then none else a.sourceReferenceId.map fun r => (r, a.contentHash)

/-- The population of the unique index on verified identifiers. -/
def SubjectIdentifier.boundKey (i : SubjectIdentifier) : Option IdentifierKey :=
  if i.activeVerified then some i.key else none

/-- `GoldenTalent_merged_into_check` and `GoldenTalent_not_self_merged_check`. -/
def GoldenTalent.checked (s : GoldenTalent) : Bool :=
  (s.resolutionStatus == .merged) == s.mergedIntoId.isSome && s.mergedIntoId != some s.id

@[mk_iff]
structure Constraints (db : GoldenDb) : Prop where
  subjectIds : (db.subjects.map (·.id)).Nodup
  subjectChecks : ∀ s ∈ db.subjects, s.checked = true
  mergedInto : ∀ s ∈ db.subjects, ∀ into ∈ s.mergedIntoId, into ∈ db.subjects.map (·.id)
  referenceIds : (db.references.map (·.id)).Nodup
  tuples : (db.references.map (·.tuple)).Nodup
  referenceSubjects : ∀ r ∈ db.references, r.subjectId ∈ db.subjects.map (·.id)
  identifierIds : (db.identifiers.map (·.id)).Nodup
  boundKeys : (db.identifiers.filterMap (·.boundKey)).Nodup
  identifierSubjects : ∀ i ∈ db.identifiers, i.subjectId ∈ db.subjects.map (·.id)
  assertionIds : (db.assertions.map (·.id)).Nodup
  liveClaims : (db.assertions.filterMap (·.liveClaim)).Nodup
  assertionSubjects : ∀ a ∈ db.assertions, a.subjectId ∈ db.subjects.map (·.id)
  eventIds : (db.assertionEvents.map (·.id)).Nodup
  conflictIds : (db.conflicts.map (·.id)).Nodup
  conflictSubjects : ∀ c ∈ db.conflicts, c.subjectId ∈ db.subjects.map (·.id)
  artifactSubjects : ∀ a ∈ db.artifacts, a.subjectId ∈ db.subjects.map (·.id)
  mergeSplitIds : (db.mergeSplits.map (·.id)).Nodup
  mergeSplitSubjects : ∀ e ∈ db.mergeSplits, e.fromSubjectId ≠ e.intoSubjectId
  inboxIds : (db.inbox.map (·.eventId)).Nodup
  verificationIds : (db.verifications.map (·.id)).Nodup
  confirmedAt : ∀ v ∈ db.verifications, (v.status == .confirmed) = v.confirmedAt.isSome

instance (db : GoldenDb) : Decidable (Constraints db) := decidable_of_iff' _ (constraints_iff db)

theorem constraints_empty : Constraints .empty := by decide

/-! ## Queries -/

/-- A query, with what the code uses of its rows. -/
inductive GoldenQuery where
  | inboxEvent (eventId : JsString)
  | reference (tuple : SourceTuple)
  | subject (id : Nat)
  | activeVerified (keys : List IdentifierKey)
  | referencesOf (subjectId : Nat)
  /-- `references.listBySubject`, for the names of the snapshots only. -/
  | knownNames (subjectId : Nat)
  | openConflictsOf (subjectId : Nat)
  | activeIdentifiersOf (referenceId : Nat)
  | activeByKey (key : IdentifierKey)
  | liveAssertionsOf (referenceId : Nat)
  | revokedHashesOf (referenceId : Nat)
  | assertionsOf (subjectId : Nat)
  | identifiersOf (subjectId : Nat)
  | artifactsOf (subjectId : Nat)
  | conflictsOf (subjectId : Nat)
  | mergeSplitEvent (id : Nat)
  /-- The row that `references.update` returns. -/
  | referenceRow (id : Nat)
  | verification (id : Nat)
  | pendingVerifications (key : IdentifierKey) (subjectId : Option Nat)

abbrev GoldenQuery.Rows : GoldenQuery → Type
  | .inboxEvent _ => Option IntelligenceInbox
  | .reference _ => Option ExternalTalentReference
  | .subject _ => Option GoldenTalent
  | .activeVerified _ => List SubjectIdentifier
  | .referencesOf _ => List ExternalTalentReference
  | .knownNames _ => List NameSnapshot
  | .openConflictsOf _ => List IdentityConflict
  | .activeIdentifiersOf _ => List SubjectIdentifier
  | .activeByKey _ => List SubjectIdentifier
  | .liveAssertionsOf _ => List Assertion
  | .revokedHashesOf _ => List JsString
  | .assertionsOf _ => List Assertion
  | .identifiersOf _ => List SubjectIdentifier
  | .artifactsOf _ => List EvidenceArtifact
  | .conflictsOf _ => List IdentityConflict
  | .mergeSplitEvent _ => Option MergeSplitEvent
  | .referenceRow _ => Option ExternalTalentReference
  | .verification _ => Option VerificationRequest
  | .pendingVerifications _ _ => List VerificationRequest

def GoldenDb.answer (db : GoldenDb) : (q : GoldenQuery) → q.Rows
  | .inboxEvent eventId => db.inboxEvent? eventId
  | .reference tuple => db.referenceByTuple? tuple
  | .subject id => db.subject? id
  | .activeVerified keys => db.activeVerified keys
  | .referencesOf subjectId => db.referencesOf subjectId
  | .knownNames subjectId => AramoPlatform.Intelligence.knownNames db subjectId
  | .openConflictsOf subjectId => db.openConflictsOf subjectId
  | .activeIdentifiersOf referenceId => db.activeIdentifiersOf referenceId
  | .activeByKey key => db.activeByKey key
  | .liveAssertionsOf referenceId => db.liveAssertionsOf referenceId
  | .revokedHashesOf referenceId => db.revokedHashesOf referenceId
  | .assertionsOf subjectId => db.assertionsOf subjectId
  | .identifiersOf subjectId => db.identifiersOf subjectId
  | .artifactsOf subjectId => db.artifactsOf subjectId
  | .conflictsOf subjectId => db.conflictsOf subjectId
  | .mergeSplitEvent id => db.mergeSplitEvent? id
  | .referenceRow id => db.references.find? (·.id == id)
  | .verification id => db.verification? id
  | .pendingVerifications key subjectId => db.pendingVerifications key subjectId

/-! ## Writes -/

inductive GoldenWrite where
  | insertSubject (row : GoldenTalent)
  | updateSubject (id : Nat) (f : GoldenTalent → GoldenTalent)
  | insertReference (row : ExternalTalentReference)
  | updateReference (id : Nat) (f : ExternalTalentReference → ExternalTalentReference)
  | repointReferences (ids : List Nat) (subjectId : Nat)
  | insertIdentifier (row : SubjectIdentifier)
  | updateIdentifier (id : Nat) (f : SubjectIdentifier → SubjectIdentifier)
  | repointIdentifiers (ids : List Nat) (subjectId : Nat)
  | repointArtifacts (ids : List Nat) (subjectId : Nat)
  | insertConflict (row : IdentityConflict)
  | repointConflicts (ids : List Nat) (subjectId : Nat)
  | insertAssertion (row : Assertion)
  | setStatus (id : Nat) (status : AssertionStatus)
  | repointAssertions (ids : List Nat) (subjectId : Nat)
  | insertEvent (row : AssertionEvent)
  | insertLink (row : AssertionLink)
  | insertMergeSplit (row : MergeSplitEvent)
  | insertInbox (row : IntelligenceInbox)
  | insertVerification (row : VerificationRequest)
  | updateVerification (id : Nat) (f : VerificationRequest → VerificationRequest)

def GoldenDb.write (db : GoldenDb) : GoldenWrite → GoldenDb
  | .insertSubject row => { db with subjects := db.subjects ++ [row] }
  | .updateSubject id f => db.updateSubject id f
  | .insertReference row => { db with references := db.references ++ [row] }
  | .updateReference id f => db.updateReference id f
  | .repointReferences ids subjectId => db.repointReferences ids subjectId
  | .insertIdentifier row => { db with identifiers := db.identifiers ++ [row] }
  | .updateIdentifier id f => db.updateIdentifier id f
  | .repointIdentifiers ids subjectId => db.repointIdentifiers ids subjectId
  | .repointArtifacts ids subjectId => db.repointArtifacts ids subjectId
  | .insertConflict row => { db with conflicts := db.conflicts ++ [row] }
  | .repointConflicts ids subjectId => db.repointConflicts ids subjectId
  | .insertAssertion row => { db with assertions := db.assertions ++ [row] }
  | .setStatus id status => db.setStatus id status
  | .repointAssertions ids subjectId => db.repointAssertions ids subjectId
  | .insertEvent row => { db with assertionEvents := db.assertionEvents ++ [row] }
  | .insertLink row => { db with assertionLinks := db.assertionLinks ++ [row] }
  | .insertMergeSplit row => { db with mergeSplits := db.mergeSplits ++ [row] }
  | .insertInbox row => { db with inbox := db.inbox ++ [row] }
  | .insertVerification row => { db with verifications := db.verifications ++ [row] }
  | .updateVerification id f => db.updateVerification id f

/-- The table that a write goes to. -/
def GoldenWrite.table : GoldenWrite → GoldenTable
  | .insertSubject _ | .updateSubject _ _ => .subjects
  | .insertReference _ | .updateReference _ _ | .repointReferences _ _ => .references
  | .insertIdentifier _ | .updateIdentifier _ _ | .repointIdentifiers _ _ => .identifiers
  | .repointArtifacts _ _ => .artifacts
  | .insertConflict _ | .repointConflicts _ _ => .conflicts
  | .insertAssertion _ | .setStatus _ _ | .repointAssertions _ _ => .assertions
  | .insertEvent _ => .assertionEvents
  | .insertLink _ => .assertionLinks
  | .insertMergeSplit _ => .mergeSplits
  | .insertInbox _ => .inbox
  | .insertVerification _ | .updateVerification _ _ => .verifications

theorem write_frame {db : GoldenDb} {c : GoldenWrite} {t : GoldenTable} (h : c.table ≠ t) :
    SameRows db (db.write c) t := by
  cases t with
  | disputes =>
    cases c with
    | _ => exact ⟨rfl, rfl, rfl⟩
  | _ =>
    cases c with
    | _ => first
      | rfl
      | exact absurd rfl h

/-- The rows that a write locks. An inserted row is nobody else's. -/
def GoldenWrite.rowIds : GoldenWrite → List Nat
  | .updateSubject id _ | .updateReference id _ | .updateIdentifier id _ | .setStatus id _
  | .updateVerification id _ => [id]
  | .repointReferences ids _ | .repointIdentifiers ids _ | .repointArtifacts ids _
  | .repointConflicts ids _ | .repointAssertions ids _ => ids
  | _ => []

/-! ## The store -/

inductive GoldenStmt where
  /-- `pg_advisory_xact_lock`. -/
  | lock (key : JsString)
  | read (q : GoldenQuery)
  | write (c : GoldenWrite)

abbrev GoldenStmt.Ans : GoldenStmt → Type
  | .read q => q.Rows
  | _ => Unit

inductive GoldenKey where
  | advisory (key : JsString)
  | row (table : GoldenTable) (id : Nat)
  deriving DecidableEq

/-- The golden model under concurrent transactions. -/
abbrev goldenStore : Store where
  Db := GoldenDb
  Stmt := GoldenStmt
  Ans := GoldenStmt.Ans
  Key := GoldenKey
  Err := GoldenError
  decKey := inferInstance
  answer
    | .read q, db => db.answer q
    | .lock _, _ => ()
    | .write _, _ => ()
  effect
    | .write c, db => db.write c
    | _, db => db
  allowed
    | .write c, db => decide (Constraints (db.write c))
    | _, _ => true
  locks
    | .lock key => [.advisory key]
    | .read _ => []
    | .write c => c.rowIds.map (.row c.table)

abbrev GoldenTx (α : Type) := Tx goldenStore α

/-! ### Statements as transactions -/

namespace GoldenTx

def read (q : GoldenQuery) : GoldenTx q.Rows := Tx.perform (σ := goldenStore) (.read q)

def write (c : GoldenWrite) : GoldenTx Unit := Tx.perform (σ := goldenStore) (.write c)

def lock (key : JsString) : GoldenTx Unit := Tx.perform (σ := goldenStore) (.lock key)

/-- The locks of a unit of work: each key once, in order. -/
def lockAll (keys : List JsString) : GoldenTx Unit := Tx.forEach (uniqStrings keys) lock

def refuse {α : Type} (e : GoldenError) : GoldenTx α := Tx.throw (σ := goldenStore) e

def require (cond : Bool) (e : GoldenError) : GoldenTx Unit := Tx.require (σ := goldenStore) cond e

/-- `if (x === null) throw err`. -/
def orThrow {α : Type} (x : Option α) (e : GoldenError) : GoldenTx α :=
  match x with
  | some a => .pure a
  | none => refuse e

def newId : GoldenTx Nat := Tx.newId

end GoldenTx

end AramoPlatform.Intelligence
