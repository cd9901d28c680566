import AramoPlatform.Intelligence.Normalize
import AramoPlatform.Lib.Outcome

/-!
# Identity resolution

Which subject a snapshot belongs to. The decision is a function of the facts
that the service gathers: the reference, if the source already has one, and
the subjects on which a verified identifier of the snapshot is already bound.
The service then writes the subject, the reference, the conflicts and the
identifiers of the snapshot.
-/

namespace AramoPlatform.Intelligence

open Js Lib

/-! ## The decision -/

structure VerifiedAnchorMatch where
  key : IdentifierKey
  /-- The surviving subject. -/
  subjectId : Nat
  deriving DecidableEq

structure ExistingReference where
  id : Nat
  subjectId : Nat
  snapshot : IdentitySnapshot
  deriving DecidableEq

structure ResolutionFacts where
  request : IdentitySnapshot
  existingReference : Option ExistingReference
  verifiedMatches : List VerifiedAnchorMatch
  /-- Known names of each matched subject. -/
  subjectNames : Nat → List NameSnapshot

structure PlannedConflict where
  conflictType : IdentityConflictType
  relatedSubjectIds : List Nat
  signature : JsString
  deriving DecidableEq

structure ResolutionDecision where
  rule : ResolutionRule
  /-- `none` asks for a new provisional subject. -/
  subjectId : Option Nat
  linkedByVerifiedAnchor : Bool
  conflicts : List PlannedConflict
  deriving DecidableEq

/-- The signature of a conflict: the digest of its type, the related subjects
and the details. -/
def conflictSignature (host : Host) (conflictType : IdentityConflictType) (related : List Nat)
    (details : List (JsString × JsVal)) : JsString :=
  host.sha256Hex (canonicalJson (.obj ((js "conflict_type", .str conflictType.text) ::
    (js "related_subject_ids", .arr (related.map fun s => .str (idText s))) :: details)))

def signed (host : Host) (conflictType : IdentityConflictType) (related : List Nat)
    (details : List (JsString × JsVal)) : PlannedConflict :=
  ⟨conflictType, uniq related, conflictSignature host conflictType (uniq related) details⟩

def distinctSubjects (found : List VerifiedAnchorMatch) : List Nat :=
  uniq (found.map (·.subjectId))

/-- The distinct keys of some matches, in order. -/
def distinctKeys (found : List VerifiedAnchorMatch) : List IdentifierKey :=
  sortKeys (found.map (·.key)).dedup

def keysBySubject (found : List VerifiedAnchorMatch) (subjectId : Nat) : List IdentifierKey :=
  distinctKeys (found.filter (·.subjectId == subjectId))

/-- A list of keys in the details of a conflict. -/
def keysJs (keys : List IdentifierKey) : JsVal := .arr (keys.map fun k => .str k.text)

/-- Every verified anchor differs, both sides carry some, and the names differ. -/
def isMaterialIdentityChange (prev next : IdentitySnapshot) : Bool :=
  if prev.verified = [] ∨ next.verified = [] then false
  else (next.verified.all fun k => !prev.verified.contains k) && prev.names.conflict next.names

/-- R1: the anchors of a known reference changed as a whole. -/
def mutationConflict (host : Host) (ref : ExistingReference) (request : IdentitySnapshot) :
    List PlannedConflict :=
  if isMaterialIdentityChange ref.snapshot request then
    [signed host .referenceIdentityMutation []
      [(js "reference_id", .str (idText ref.id)),
        (js "previous_verified", keysJs ref.snapshot.verified),
        (js "next_verified", keysJs request.verified),
        (js "previous_names", ref.snapshot.names.toJs),
        (js "next_names", request.names.toJs)]]
  else []

/-- R1: a verified anchor of a known reference is bound to another subject. -/
def anchorConflict (host : Host) (ref : ExistingReference) (found : List VerifiedAnchorMatch) :
    List PlannedConflict :=
  let others := (distinctSubjects found).filter (· ≠ ref.subjectId)
  if others = [] then []
  else [signed host .anchorContradiction others
    [(js "reference_id", .str (idText ref.id)),
      (js "anchors", keysJs (distinctKeys (found.filter (·.subjectId ≠ ref.subjectId))))]]

/-- R4: the name matches none of the subject's known names. -/
def attributeConflict (host : Host) (facts : ResolutionFacts) (subjectId : Nat) :
    List PlannedConflict :=
  let known := facts.subjectNames subjectId
  if known ≠ [] ∧ (known.all fun n => n.conflict facts.request.names) = true then
    [signed host .identityAttributeConflict []
      [(js "attribute", .str (js "name")),
        (js "anchors", keysJs (keysBySubject facts.verifiedMatches subjectId)),
        (js "incoming_names", facts.request.names.toJs)]]
  else []

/-- R2: the verified anchors of a new reference point at several subjects. -/
def severalConflict (host : Host) (found : List VerifiedAnchorMatch) : PlannedConflict :=
  let subjects := distinctSubjects found
  signed host .anchorContradiction subjects
    [(js "anchors_by_subject",
      .obj (subjects.map fun s => (idText s, keysJs (keysBySubject found s))))]

def decideResolution (host : Host) (facts : ResolutionFacts) : ResolutionDecision :=
  match facts.existingReference with
  | some ref =>
      ⟨.existingReference, some ref.subjectId, false,
        mutationConflict host ref facts.request ++ anchorConflict host ref facts.verifiedMatches⟩
  | none =>
      match distinctSubjects facts.verifiedMatches with
      | [] => ⟨.newProvisional, none, false, []⟩
      | [s] => ⟨.verifiedAnchor, some s, true, attributeConflict host facts s⟩
      | _ :: _ :: _ =>
          ⟨.anchorContradiction, none, false, [severalConflict host facts.verifiedMatches]⟩

/-! ## The request -/

structure ResolutionIdentifier where
  key : IdentifierKey
  verified : Bool
  isPrimary : Bool
  verificationMethod : Option JsString
  verificationSource : Option JsString
  verifiedAt : Option Nat
  jurisdiction : Option JsString
  identifierClass : Option JsString
  deriving DecidableEq

structure ResolutionInput where
  tuple : SourceTuple
  names : NameSnapshot
  identifiers : List ResolutionIdentifier
  deriving DecidableEq

/-- One turn of `dedupeIdentifiers`: a verified mention wins, and so does a
primary one. -/
def dedupeStep (byKey : List ResolutionIdentifier) (id : ResolutionIdentifier) :
    List ResolutionIdentifier :=
  match byKey.find? (·.key == id.key) with
  | none => byKey ++ [id]
  | some prior =>
      if !prior.verified && id.verified then updateWhere (·.key == id.key) (fun _ => id) byKey
      else if id.isPrimary && !prior.isPrimary then
        updateWhere (·.key == id.key) (fun p => { p with isPrimary := true }) byKey
      else byKey

def dedupeIdentifiers (list : List ResolutionIdentifier) : List ResolutionIdentifier :=
  list.foldl dedupeStep []

/-- The keys of the snapshot's identifiers, verified or not. -/
def keysOf (verified : Bool) (ids : List ResolutionIdentifier) : List IdentifierKey :=
  sortKeys ((ids.filter (·.verified == verified)).map (·.key))

def snapshotOf (input : ResolutionInput) : IdentitySnapshot :=
  let ids := dedupeIdentifiers input.identifiers
  ⟨input.names, keysOf true ids, keysOf false ids⟩

/-! ## Queries -/

namespace GoldenDb

variable (db : GoldenDb)

def subject? (id : Nat) : Option GoldenTalent := db.subjects.find? (·.id == id)

def referenceByTuple? (tuple : SourceTuple) : Option ExternalTalentReference :=
  db.references.find? (·.tuple == tuple)

def referencesOf (subjectId : Nat) : List ExternalTalentReference :=
  db.references.filter (·.subjectId == subjectId)

def identifiersOf (subjectId : Nat) : List SubjectIdentifier :=
  db.identifiers.filter (·.subjectId == subjectId)

def artifactsOf (subjectId : Nat) : List EvidenceArtifact :=
  db.artifacts.filter (·.subjectId == subjectId)

def conflictsOf (subjectId : Nat) : List IdentityConflict :=
  db.conflicts.filter (·.subjectId == subjectId)

/-- `findActiveVerified`. -/
def activeVerified (keys : List IdentifierKey) : List SubjectIdentifier :=
  db.identifiers.filter fun i => i.activeVerified && keys.contains i.key

/-- `listActiveByReference`. -/
def activeIdentifiersOf (referenceId : Nat) : List SubjectIdentifier :=
  db.identifiers.filter fun i => i.sourceReferenceId == some referenceId && i.status == .active

/-- `conflicts.listBySubject(subjectId, 'OPEN')`. -/
def openConflictsOf (subjectId : Nat) : List IdentityConflict :=
  db.conflicts.filter fun c => c.subjectId == subjectId && c.status == .open

end GoldenDb

def maxMergeChain : Nat := 32

/-- Follow at most `fuel` links of a merge chain. -/
def followMerges (db : GoldenDb) : Nat → Nat → Except GoldenError GoldenTalent
  | 0, id => .error (.mergeChain id)
  | fuel + 1, id => do
      let s ← orThrow (db.subject? id) (.subjectNotFound id)
      match s.mergedIntoId with
      | some into => if s.resolutionStatus = .merged then followMerges db fuel into else .ok s
      | none => .ok s

def survivingSubject (db : GoldenDb) (subjectId : Nat) : Except GoldenError GoldenTalent :=
  followMerges db maxMergeChain subjectId

/-- The matches of some bound rows, each under its surviving subject. -/
def anchorMatches (db : GoldenDb) :
    List SubjectIdentifier → Except GoldenError (List VerifiedAnchorMatch)
  | [] => .ok []
  | row :: rest => do
      let survivor ← survivingSubject db row.subjectId
      let others ← anchorMatches db rest
      .ok (if survivor.resolutionStatus = .merged then others else ⟨row.key, survivor.id⟩ :: others)

/-- The names that the references of a subject carry. -/
def knownNames (db : GoldenDb) (subjectId : Nat) : List NameSnapshot :=
  ((db.referencesOf subjectId).map (·.lastIdentitySnapshot.names)).filter (·.hasMember)

/-! ## The statements -/

namespace GoldenDb

variable (db : GoldenDb)

def createSubject (status : ResolutionStatus) : GoldenDb :=
  { db with
    nextId := db.nextId + 1
    subjects := db.subjects ++ [⟨db.nextId, status, .active, none⟩] }

def updateSubject (id : Nat) (f : GoldenTalent → GoldenTalent) : GoldenDb :=
  { db with subjects := updateWhere (·.id == id) f db.subjects }

def createReference (tuple : SourceTuple) (subjectId : Nat) (snapshot : IdentitySnapshot) :
    GoldenDb :=
  { db with
    nextId := db.nextId + 1
    references := db.references ++ [⟨db.nextId, tuple, subjectId, .active, none, snapshot⟩] }

def updateReference (id : Nat) (f : ExternalTalentReference → ExternalTalentReference) :
    GoldenDb :=
  { db with references := updateWhere (·.id == id) f db.references }

/-- The row gets its id here. -/
def createIdentifier (row : SubjectIdentifier) : GoldenDb :=
  { db with
    nextId := db.nextId + 1
    identifiers := db.identifiers ++ [{ row with id := db.nextId }] }

def updateIdentifier (id : Nat) (f : SubjectIdentifier → SubjectIdentifier) : GoldenDb :=
  { db with identifiers := updateWhere (·.id == id) f db.identifiers }

def createConflict (subjectId : Nat) (conflictType : IdentityConflictType)
    (relatedSubjectIds : List Nat) (signature : JsString) : GoldenDb :=
  { db with
    nextId := db.nextId + 1
    conflicts := db.conflicts ++
      [⟨db.nextId, subjectId, conflictType, relatedSubjectIds, signature, .open⟩] }

end GoldenDb

/-! ## The service -/

structure ResolutionResult where
  subjectId : Nat
  referenceId : Nat
  rule : ResolutionRule
  createdSubject : Bool
  createdReference : Bool
  conflictsOpened : Nat
  identifiersChanged : Bool
  deriving DecidableEq

/-- The reference the source already has, under its surviving subject. One that
is not active takes no data. -/
def existingReference (db : GoldenDb) (tuple : SourceTuple) :
    Except GoldenError (Option ExistingReference) :=
  match db.referenceByTuple? tuple with
  | none => .ok none
  | some ref => do
      require (ref.status = .active) (.referenceErased ref.id)
      let subject ← survivingSubject db ref.subjectId
      .ok (some ⟨ref.id, subject.id, ref.lastIdentitySnapshot⟩)

/-- The facts about a snapshot. -/
def gatherFacts (db : GoldenDb) (input : ResolutionInput) : Except GoldenError ResolutionFacts := do
  let existing ← existingReference db input.tuple
  let found ← anchorMatches db
    (db.activeVerified (((dedupeIdentifiers input.identifiers).filter (·.verified)).map (·.key)))
  .ok ⟨snapshotOf input, existing, found, knownNames db⟩

/-- The subject of the decision: a new one, or the found one, which a second
verified source makes active and a new reference makes reachable again. -/
def placeSubject (db : GoldenDb) (decision : ResolutionDecision) : Nat × GoldenDb :=
  match decision.subjectId with
  | none => (db.nextId, db.createSubject .provisional)
  | some id =>
      (id, db.updateSubject id fun s =>
        { s with
          resolutionStatus :=
            if decision.linkedByVerifiedAnchor && s.resolutionStatus == .provisional then .active
            else s.resolutionStatus
          accessState := .active })

/-- The reference of the snapshot: created, or brought up to date and moved to
the surviving subject. -/
def placeReference (db : GoldenDb) (existing : Option ExistingReference) (input : ResolutionInput)
    (subjectId : Nat) : Nat × GoldenDb :=
  match existing with
  | none => (db.nextId, db.createReference input.tuple subjectId (snapshotOf input))
  | some ref =>
      (ref.id, db.updateReference ref.id fun r =>
        { r with lastIdentitySnapshot := snapshotOf input, subjectId := subjectId })

/-- Open the planned conflicts that are not already open. -/
def openConflicts (db : GoldenDb) (subjectId : Nat) (planned : List PlannedConflict) :
    Nat × GoldenDb :=
  let seen := (db.openConflictsOf subjectId).map (·.signature)
  let fresh := planned.filter fun c => !seen.contains c.signature
  (fresh.length, fresh.foldl
    (fun db c => db.createConflict subjectId c.conflictType c.relatedSubjectIds c.signature) db)

/-- A verified binding of the key on another row. -/
def boundElsewhere (db : GoldenDb) (key : IdentifierKey) (selfId : Option Nat) : Bool :=
  (db.activeVerified [key]).any fun b => some b.id != selfId

/-- The columns that a binding sets. -/
def verificationFields (id : ResolutionIdentifier) (row : SubjectIdentifier) : SubjectIdentifier :=
  { row with
    verificationStatus := .verified
    verificationMethod := id.verificationMethod
    verificationSource := id.verificationSource
    verifiedAt := id.verifiedAt }

/-- A new row for an identifier of the snapshot. A refused binding keeps the
sender's claim on record. -/
def newIdentifier (db : GoldenDb) (subjectId referenceId : Nat) (now : Nat)
    (id : ResolutionIdentifier) : SubjectIdentifier :=
  let row : SubjectIdentifier :=
    { id := db.nextId, subjectId := subjectId, key := id.key, jurisdiction := id.jurisdiction
      identifierClass := id.identifierClass, verificationStatus := .unverified
      verificationMethod := if id.verified then id.verificationMethod else none
      verificationSource := if id.verified then id.verificationSource else none
      verifiedAt := none, status := .active, validFrom := now, validTo := none
      isPrimary := id.isPrimary, sourceReferenceId := some referenceId }
  if id.verified && !boundElsewhere db id.key none then verificationFields id row else row

/-- What the snapshot changes of a row that the reference already has. -/
def refreshIdentifier (db : GoldenDb) (subjectId : Nat) (id : ResolutionIdentifier)
    (row : SubjectIdentifier) : SubjectIdentifier :=
  let moved := { row with subjectId := subjectId }
  if id.verified && row.verificationStatus != .verified &&
    !boundElsewhere db id.key (some row.id) then
    { verificationFields id moved with isPrimary := id.isPrimary }
  else if !id.verified && row.verificationStatus == .verified then
    -- the source no longer vouches for it
    { moved with verificationStatus := .unverified, verifiedAt := none, isPrimary := id.isPrimary }
  else { moved with isPrimary := id.isPrimary }

/-- The row of a key in the map that `recordIdentifiers` builds: the last one. -/
def rowOfKey (current : List SubjectIdentifier) (key : IdentifierKey) : Option SubjectIdentifier :=
  current.reverse.find? (·.key == key)

/-- One identifier of the snapshot. -/
def recordIdentifier (current : List SubjectIdentifier) (subjectId referenceId now : Nat)
    (acc : Bool × GoldenDb) (id : ResolutionIdentifier) : Bool × GoldenDb :=
  match rowOfKey current id.key with
  | none => (true, acc.2.createIdentifier (newIdentifier acc.2 subjectId referenceId now id))
  | some row =>
      let row' := refreshIdentifier acc.2 subjectId id row
      (acc.1 || row' != row, acc.2.updateIdentifier row.id (refreshIdentifier acc.2 subjectId id))

/-- A key that the snapshot dropped. -/
def dropIdentifier (now : Nat) (acc : Bool × GoldenDb) (row : SubjectIdentifier) :
    Bool × GoldenDb :=
  (true, acc.2.updateIdentifier row.id fun r =>
    { r with status := .superseded, validTo := some now })

/-- `recordIdentifiers`: the active identifiers of the reference become those of
the snapshot. -/
def recordIdentifiers (db : GoldenDb) (subjectId referenceId now : Nat)
    (identifiers : List ResolutionIdentifier) : Bool × GoldenDb :=
  let current := db.activeIdentifiersOf referenceId
  let recorded := identifiers.foldl (recordIdentifier current subjectId referenceId now) (false, db)
  let dropped := current.filter fun row =>
    rowOfKey current row.key == some row && !(identifiers.map (·.key)).contains row.key
  dropped.foldl (dropIdentifier now) recorded

/-- Apply a decision: place the subject and the reference, open the conflicts
and record the identifiers. -/
def applyDecision (host : Host) (db : GoldenDb) (input : ResolutionInput) (now : Nat)
    (facts : ResolutionFacts) : ResolutionResult × GoldenDb :=
  let decision := decideResolution host facts
  let subject := placeSubject db decision
  let reference := placeReference subject.2 facts.existingReference input subject.1
  let conflicts := openConflicts reference.2 subject.1 decision.conflicts
  let identifiers := recordIdentifiers conflicts.2 subject.1 reference.1 now
    (dedupeIdentifiers input.identifiers)
  ({ subjectId := subject.1
     referenceId := reference.1
     rule := decision.rule
     createdSubject := decision.subjectId.isNone
     createdReference := facts.existingReference.isNone
     conflictsOpened := conflicts.1
     identifiersChanged := identifiers.1 }, identifiers.2)

def resolve (host : Host) (db : GoldenDb) (input : ResolutionInput) (now : Nat) :
    Except GoldenError (ResolutionResult × GoldenDb) := do
  let facts ← gatherFacts db input
  .ok (applyDecision host db input now facts)

end AramoPlatform.Intelligence
