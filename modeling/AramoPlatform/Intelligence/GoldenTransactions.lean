import AramoPlatform.Intelligence.GoldenStore
import AramoPlatform.Intelligence.TransactionLocks

/-!
# The services, statement by statement

The units of work of ingest, merge, split and verification as transactions over
the golden store: the same decisions as the functions on a whole database, with
every query and every write a statement of its own.
-/

namespace AramoPlatform.Intelligence

open Js Lib

namespace GoldenTx

/-! ## Surviving subjects -/

def followMerges : Nat → Nat → GoldenTx GoldenTalent
  | 0, id => refuse (.mergeChain id)
  | fuel + 1, id => do
      let found ← read (.subject id)
      let s ← orThrow found (.subjectNotFound id)
      match s.mergedIntoId with
      | some into => if s.resolutionStatus = .merged then followMerges fuel into else pure s
      | none => pure s

def survivingSubject (subjectId : Nat) : GoldenTx GoldenTalent :=
  followMerges maxMergeChain subjectId

/-- The surviving subjects of some rows, in order. -/
def survivorsOf : List SubjectIdentifier → GoldenTx (List (IdentifierKey × GoldenTalent))
  | [] => pure []
  | row :: rest => do
      let s ← survivingSubject row.subjectId
      let others ← survivorsOf rest
      pure ((row.key, s) :: others)

/-! ## Identity resolution -/

/-- The reference that the source already has, and its surviving subject. -/
def existingReference (tuple : SourceTuple) :
    GoldenTx (Option (ExternalTalentReference × GoldenTalent)) := do
  let found ← read (.reference tuple)
  match found with
  | none => pure none
  | some ref => do
      require (ref.status = .active) (.referenceErased ref.id)
      let subject ← survivingSubject ref.subjectId
      pure (some (ref, subject))

/-- The names of some subjects. -/
def subjectNames : List Nat → GoldenTx (List (Nat × List NameSnapshot))
  | [] => pure []
  | s :: rest => do
      let names ← read (.knownNames s)
      let others ← subjectNames rest
      pure ((s, names) :: others)

/-- The matches of the bound rows whose survivor is not merged away. -/
def matchesOf (found : List (IdentifierKey × GoldenTalent)) : List VerifiedAnchorMatch :=
  (found.filter fun m => m.2.resolutionStatus != .merged).map fun m => ⟨m.1, m.2.id⟩

/-- The distinct elements in the order of their first occurrence. -/
def firstOf (xs : List Nat) : List Nat := xs.reverse.dedup.reverse

def gatherFacts (input : ResolutionInput)
    (existing : Option (ExternalTalentReference × GoldenTalent)) : GoldenTx ResolutionFacts := do
  let verifiedKeys := ((dedupeIdentifiers input.identifiers).filter (·.verified)).map (·.key)
  let rows ← read (.activeVerified verifiedKeys)
  let found ← survivorsOf rows
  let anchors := matchesOf found
  let names ← subjectNames (firstOf (anchors.map (·.subjectId)))
  pure ⟨snapshotOf input, existing.map fun e => ⟨e.1.id, e.2.id, e.1.lastIdentitySnapshot⟩, anchors,
    fun s => ((names.find? (·.1 == s)).map (·.2)).getD []⟩

def placeSubject (decision : ResolutionDecision) : GoldenTx Nat :=
  match decision.subjectId with
  | none => do
      let id ← newId
      write (.insertSubject ⟨id, .provisional, .active, none⟩)
      pure id
  | some id => do
      let found ← read (.subject id)
      let subject ← orThrow found (.subjectNotFound id)
      let corroborated := decision.linkedByVerifiedAnchor &&
        subject.resolutionStatus == .provisional
      Tx.when (corroborated || subject.accessState != .active) <|
        write (.updateSubject id fun s =>
          { s with
            resolutionStatus := if corroborated then .active else s.resolutionStatus
            accessState := if subject.accessState != .active then .active else s.accessState })
      pure id

def placeReference (existing : Option ExternalTalentReference) (input : ResolutionInput)
    (subjectId : Nat) : GoldenTx Nat :=
  match existing with
  | none => do
      let id ← newId
      write (.insertReference ⟨id, input.tuple, subjectId, .active, none, snapshotOf input⟩)
      pure id
  | some ref => do
      write (.updateReference ref.id fun r => { r with lastIdentitySnapshot := snapshotOf input })
      let found ← read (.referenceRow ref.id)
      let reference ← orThrow found (.referenceErased ref.id)
      Tx.when (reference.subjectId ≠ subjectId) <| write
        (.repointReferences [reference.id] subjectId)
      pure reference.id

/-- Insert conflicts, each under a new id. -/
def createConflicts (subjectId : Nat) (conflicts : List PlannedConflict) : GoldenTx Unit :=
  Tx.forEach conflicts fun c => do
    let id ← newId
    write (.insertConflict ⟨id, subjectId, c.conflictType, c.relatedSubjectIds, c.signature, .open⟩)

def openConflicts (subjectId : Nat) (planned : List PlannedConflict) : GoldenTx Nat :=
  if planned = [] then pure 0
  else do
    let open' ← read (.openConflictsOf subjectId)
    let fresh := planned.filter fun c => !(open'.map (·.signature)).contains c.signature
    createConflicts subjectId fresh
    pure fresh.length

def boundElsewhere (key : IdentifierKey) (selfId : Option Nat) : GoldenTx Bool := do
  let bound ← read (.activeVerified [key])
  pure (bound.any fun b => some b.id != selfId)

/-- A test that is only made when another one passed. -/
def bothHold (first : Bool) (second : GoldenTx Bool) : GoldenTx Bool :=
  if first then second else pure false

/-- An identifier that the reference did not have. -/
def addIdentifier (subjectId referenceId now : Nat) (id : ResolutionIdentifier) :
    GoldenTx Bool := do
  let canBind ← bothHold id.verified do
    let bound ← boundElsewhere id.key none
    pure !bound
  let rowId ← newId
  let row : SubjectIdentifier :=
    { id := rowId, subjectId := subjectId, key := id.key, jurisdiction := id.jurisdiction
      identifierClass := id.identifierClass, verificationStatus := .unverified
      verificationMethod := if id.verified then id.verificationMethod else none
      verificationSource := if id.verified then id.verificationSource else none
      verifiedAt := none, status := .active, validFrom := now, validTo := none
      isPrimary := id.isPrimary, sourceReferenceId := some referenceId }
  write (.insertIdentifier (if canBind then verificationFields id row else row))
  pure true

/-- An identifier that the reference has. -/
def refreshIdentifier (subjectId : Nat) (id : ResolutionIdentifier) (row : SubjectIdentifier) :
    GoldenTx Bool := do
  Tx.when (row.subjectId ≠ subjectId) <| write (.repointIdentifiers [row.id] subjectId)
  let binds ← bothHold (id.verified && row.verificationStatus != .verified) do
    let bound ← boundElsewhere id.key (some row.id)
    pure !bound
  if binds then do
    write (.updateIdentifier row.id fun r =>
      { verificationFields id r with isPrimary := id.isPrimary })
    pure true
  else if !id.verified && row.verificationStatus == .verified then do
    write (.updateIdentifier row.id fun r =>
      { r with verificationStatus := .unverified, verifiedAt := none, isPrimary := id.isPrimary })
    pure true
  else if row.isPrimary != id.isPrimary then do
    write (.updateIdentifier row.id fun r => { r with isPrimary := id.isPrimary })
    pure true
  else pure (row.subjectId ≠ subjectId)

/-- One identifier of the snapshot. -/
def recordIdentifier (current : List SubjectIdentifier) (subjectId referenceId now : Nat)
    (id : ResolutionIdentifier) : GoldenTx Bool :=
  match rowOfKey current id.key with
  | none => addIdentifier subjectId referenceId now id
  | some row => refreshIdentifier subjectId id row

def recordIdentifiers (subjectId referenceId now : Nat) (identifiers : List ResolutionIdentifier) :
    GoldenTx Bool := do
  let current ← read (.activeIdentifiersOf referenceId)
  let recorded ← Tx.foldl (fun changed id => do
    let one ← recordIdentifier current subjectId referenceId now id
    pure (changed || one)) false identifiers
  let dropped := current.filter fun row =>
    rowOfKey current row.key == some row && !(identifiers.map (·.key)).contains row.key
  Tx.forEach dropped fun row =>
    write (.updateIdentifier row.id fun r => { r with status := .superseded, validTo := some now })
  pure (recorded || !dropped.isEmpty)

def resolve (host : Host) (input : ResolutionInput) (now : Nat) : GoldenTx ResolutionResult := do
  let existing ← existingReference input.tuple
  let facts ← gatherFacts input existing
  let decision := decideResolution host facts
  let subjectId ← placeSubject decision
  let referenceId ← placeReference (existing.map Prod.fst) input subjectId
  let opened ← openConflicts subjectId decision.conflicts
  let changed ← recordIdentifiers subjectId referenceId now (dedupeIdentifiers input.identifiers)
  pure
    { subjectId := subjectId
      referenceId := referenceId
      rule := decision.rule
      createdSubject := decision.subjectId.isNone
      createdReference := existing.isNone
      conflictsOpened := opened
      identifiersChanged := changed }

/-! ## Ingest and erasure -/

def appendEvent (assertionId : Nat) (eventType : AssertionEventType)
    (fromStatus toStatus : Option AssertionStatus) (actor : JsString) : GoldenTx Unit := do
  let id ← newId
  write (.insertEvent ⟨id, assertionId, eventType, fromStatus, toStatus, actor⟩)

def addAssertion (req : TalentIngestRequest) (actor : JsString) (subjectId referenceId : Nat)
    (added : List (Nat × AssertionType)) (d : AssertionDraft) :
    GoldenTx (List (Nat × AssertionType)) := do
  let id ← newId
  write (.insertAssertion { assertionOfDraft req subjectId referenceId d with id := id })
  appendEvent id .asserted none (some .valid) actor
  pure (added ++ [(id, d.assertionType)])

def supersede (actor : JsString) (a : Assertion) : GoldenTx Unit := do
  write (.setStatus a.id .superseded)
  appendEvent a.id .superseded (some a.currentStatus) (some .superseded) actor

def linkReplacement (added : List (Nat × AssertionType)) (old : Assertion) : GoldenTx Unit :=
  match if old.assertionType.singleValued then added.find? (·.2 == old.assertionType) else none with
  | some replacement => do
      let id ← newId
      write (.insertLink ⟨id, replacement.1, old.id, .supersedes⟩)
  | none => pure ()

/-- The claims of a snapshot: how many were added and how many superseded. -/
def writeAssertions (req : TalentIngestRequest) (actor : JsString) (subjectId referenceId : Nat)
    (drafts : List AssertionDraft) : GoldenTx (Nat × Nat) := do
  let live ← read (.liveAssertionsOf referenceId)
  let revoked ← read (.revokedHashesOf referenceId)
  let fresh := newDrafts live revoked drafts
  let absent := absentFrom live drafts
  let added ← Tx.foldl (addAssertion req actor subjectId referenceId) [] fresh
  Tx.forEach absent (supersede actor)
  Tx.forEach absent (linkReplacement added)
  pure (fresh.length, absent.length)

def replay (eventId : JsString) (tuple : SourceTuple) : GoldenTx (Option InboxResponse) := do
  let found ← read (.inboxEvent eventId)
  match found with
  | none => pure none
  | some prior => do
      require (prior.tuple = tuple) (.eventIdReused eventId)
      pure (some prior.response)

def applySnapshot (host : Host) (req : TalentIngestRequest) (principal : IngestPrincipal)
    (input : ResolutionInput) (now : Nat) : GoldenTx TalentIngestResponse := do
  let resolution ← resolve host input now
  let written ← writeAssertions req (ingestActor principal) resolution.subjectId
    resolution.referenceId (toAssertionDrafts host req)
  let response : TalentIngestResponse :=
    { intelligenceSubjectId := resolution.subjectId
      outcome := if resolution.createdSubject then .created
        else if resolution.createdReference then .linked else .updated
      resolution := resolution.rule
      changed := resolution.createdReference || resolution.createdSubject ||
        resolution.identifiersChanged || 0 < resolution.conflictsOpened || 0 < written.1 ||
        0 < written.2
      assertionsAdded := written.1
      assertionsSuperseded := written.2
      conflictsOpened := resolution.conflictsOpened
      replayed := false }
  write (.insertInbox ⟨req.sourceEventId, req.tuple, .talentSnapshot response⟩)
  pure response

def ingest (host : Host) (tokenKey : Option JsString) (req : TalentIngestRequest)
    (principal : IngestPrincipal) (now : Nat) : GoldenTx TalentIngestResponse := do
  require (req.tuple.sourceSystemId = principal.sourceSystemId) .sourceSystemMismatch
  match toResolutionInput host tokenKey req with
  | .error e => refuse e
  | .ok input => do
      lockAll (ingestLockKeys req input)
      let prior ← replay req.sourceEventId req.tuple
      match prior with
      | some (.talentSnapshot response) => pure { response with replayed := true }
      | some (.talentErased _) => refuse (.eventIdReused req.sourceEventId)
      | none => applySnapshot host req principal input now

def accessStateOf (subjectId : Nat) : GoldenTx AccessState := do
  let refs ← read (.referencesOf subjectId)
  pure (if refs.any (·.status == .active) then .active else .auditRetained)

def eraseReference (ref : ExternalTalentReference) (now : Nat) : GoldenTx TalentErasedResponse := do
  let alreadyErased := ref.status == .erased
  Tx.when (!alreadyErased) <|
    write (.updateReference ref.id fun r => { r with status := .erased, erasedAt := some now })
  let subject ← survivingSubject ref.subjectId
  let access ← accessStateOf subject.id
  Tx.when (subject.accessState != access) <|
    write (.updateSubject subject.id fun s => { s with accessState := access })
  pure ⟨if alreadyErased then .alreadyErased else .erased, some subject.id, some access, false⟩

/-- The reference that an erasure names, if there is one. -/
def eraseFound (now : Nat) : Option ExternalTalentReference → GoldenTx TalentErasedResponse
  | none => pure ⟨.notFound, none, none, false⟩
  | some ref => eraseReference ref now

def applyErasure (req : TalentErasedRequest) (now : Nat) : GoldenTx TalentErasedResponse := do
  let found ← read (.reference req.tuple)
  let response ← eraseFound now found
  write (.insertInbox ⟨req.sourceEventId, req.tuple, .talentErased response⟩)
  pure response

def erase (req : TalentErasedRequest) (principal : IngestPrincipal) (now : Nat) :
    GoldenTx TalentErasedResponse := do
  require (req.tuple.sourceSystemId = principal.sourceSystemId) .sourceSystemMismatch
  lockAll [referenceLockKey req.tuple]
  let prior ← replay req.sourceEventId req.tuple
  match prior with
  | some (.talentErased response) => pure { response with replayed := true }
  | some (.talentSnapshot _) => refuse (.eventIdReused req.sourceEventId)
  | none => applyErasure req now

/-! ## Merge and split -/

def live (id : Nat) : GoldenTx GoldenTalent := do
  let found ← read (.subject id)
  let s ← orThrow found (subjectRefused id " not found")
  require (s.resolutionStatus ≠ .merged) (subjectRefused id " is already merged")
  pure s

def move (moved : MovedSet) (intoId : Nat) (actor : JsString) : GoldenTx Unit := do
  write (.repointReferences moved.referenceIds intoId)
  write (.repointIdentifiers moved.identifierIds intoId)
  write (.repointArtifacts moved.artifactIds intoId)
  write (.repointConflicts moved.conflictIds intoId)
  write (.repointAssertions moved.assertionIds intoId)
  Tx.forEach moved.assertionIds fun id => appendEvent id .repointed none none actor

/-- The rows of a subject, one query a table. -/
structure OwnRows where
  references : List ExternalTalentReference
  assertions : List Assertion
  identifiers : List SubjectIdentifier
  artifacts : List EvidenceArtifact
  conflicts : List IdentityConflict

def ownRows (subjectId : Nat) : GoldenTx OwnRows := do
  let references ← read (.referencesOf subjectId)
  let assertions ← read (.assertionsOf subjectId)
  let identifiers ← read (.identifiersOf subjectId)
  let artifacts ← read (.artifactsOf subjectId)
  let conflicts ← read (.conflictsOf subjectId)
  pure ⟨references, assertions, identifiers, artifacts, conflicts⟩

def OwnRows.moved (own : OwnRows) : MovedSet :=
  { referenceIds := uniq (own.references.map (·.id))
    assertionIds := uniq (own.assertions.map (·.id))
    identifierIds := uniq (own.identifiers.map (·.id))
    artifactIds := uniq (own.artifacts.map (·.id))
    conflictIds := uniq (own.conflicts.map (·.id)) }

def mergeTx (fromId intoId : Nat) (actor reason : JsString) : GoldenTx MergeSplitEvent := do
  require (fromId ≠ intoId) (mergeRefused "cannot merge a subject into itself")
  lockAll [subjectLockKey fromId, subjectLockKey intoId]
  let source ← live fromId
  let target ← live intoId
  let own ← ownRows source.id
  let eventId ← newId
  let event : MergeSplitEvent :=
    { id := eventId, fromSubjectId := source.id, intoSubjectId := target.id, actor := actor
      reason := reason
      moved := .merge
        { own.moved with
          fromPriorResolutionStatus := source.resolutionStatus
          fromPriorAccessState := source.accessState
          intoPriorResolutionStatus := target.resolutionStatus
          intoPriorAccessState := target.accessState } }
  write (.insertMergeSplit event)
  move own.moved target.id actor
  write (.updateSubject source.id fun s =>
    { s with resolutionStatus := .merged, mergedIntoId := some target.id })
  let access ← accessStateOf target.id
  write (.updateSubject target.id fun s =>
    { s with
      resolutionStatus :=
        if target.resolutionStatus = .active ∨ source.resolutionStatus = .active then .active
        else .provisional
      accessState := access })
  pure event

/-- The picked rows, and what a picked reference is the source of. -/
def OwnRows.withSourced (own : OwnRows) (picked : MovedSet) : MovedSet :=
  let sourced (r : Option Nat) : Bool := r.any fun id => picked.referenceIds.contains id
  { picked with
    assertionIds := uniq (picked.assertionIds ++
      (own.assertions.filter fun a => sourced a.sourceReferenceId).map (·.id))
    identifierIds := uniq (picked.identifierIds ++
      (own.identifiers.filter fun i => sourced i.sourceReferenceId).map (·.id)) }

/-- `pick` on every list of a selection. -/
def OwnRows.pickSelection (own : OwnRows) (subjectId : Nat) (selection : MovedSet) :
    Except GoldenError MovedSet := do
  let referenceIds ← pickOwn subjectId (own.references.map (·.id))
    selection.referenceIds "references"
  let assertionIds ← pickOwn subjectId (own.assertions.map (·.id))
    selection.assertionIds "assertions"
  let identifierIds ←
    pickOwn subjectId (own.identifiers.map (·.id)) selection.identifierIds "identifiers"
  let artifactIds ← pickOwn subjectId (own.artifacts.map (·.id)) selection.artifactIds "artifacts"
  let conflictIds ← pickOwn subjectId (own.conflicts.map (·.id)) selection.conflictIds "conflicts"
  .ok (own.withSourced ⟨referenceIds, assertionIds, identifierIds, artifactIds, conflictIds⟩)

/-- `pick` for a restore. -/
def OwnRows.kept (own : OwnRows) (moved : MovedSet) : MovedSet :=
  own.withSourced
    { referenceIds := keepOwn (own.references.map (·.id)) moved.referenceIds
      assertionIds := keepOwn (own.assertions.map (·.id)) moved.assertionIds
      identifierIds := keepOwn (own.identifiers.map (·.id)) moved.identifierIds
      artifactIds := keepOwn (own.artifacts.map (·.id)) moved.artifactIds
      conflictIds := keepOwn (own.conflicts.map (·.id)) moved.conflictIds }

/-- The event of a split and the moved rows. -/
def recordSplit (subjectId targetId : Nat) (moved : MovedSet) (restores : Option Nat)
    (actor reason : JsString) : GoldenTx MergeSplitEvent := do
  require (!moved.isEmpty) (mergeRefused "nothing selected to split")
  let eventId ← newId
  let event : MergeSplitEvent :=
    { id := eventId, fromSubjectId := subjectId, intoSubjectId := targetId, actor := actor
      reason := reason, moved := .split moved restores }
  write (.insertMergeSplit event)
  move moved targetId actor
  pure event

/-- `splitTx` without a merge event. -/
def splitSelection (subjectId : Nat) (selection : MovedSet) (actor reason : JsString) :
    GoldenTx MergeSplitEvent := do
  lockAll [subjectLockKey subjectId]
  let subject ← live subjectId
  let own ← ownRows subject.id
  let targetId ← newId
  write (.insertSubject ⟨targetId, .provisional, .active, none⟩)
  match own.pickSelection subject.id selection with
  | .error e => refuse e
  | .ok moved => do
      let event ← recordSplit subject.id targetId moved none actor reason
      let targetAccess ← accessStateOf targetId
      write (.updateSubject targetId fun s => { s with accessState := targetAccess })
      let access ← accessStateOf subject.id
      write (.updateSubject subject.id fun s => { s with accessState := access })
      pure event

/-- The merge that a restore takes back. -/
def mergeToRestore (subjectId : Nat) :
    Option MergeSplitEvent → GoldenTx (MergeSplitEvent × MergeMoved)
  | none => refuse (mergeRefused "restore requires a MERGE event")
  | some ev =>
      match ev.moved with
      | .split _ _ => refuse (mergeRefused "restore requires a MERGE event")
      | .merge moved => do
          require (ev.intoSubjectId = subjectId)
            (mergeRefused "that merge did not merge into this subject")
          pure (ev, moved)

/-- `splitTx` with `restoreMergeEventId`. -/
def restoreMerge (subjectId eventId : Nat) (actor reason : JsString) :
    GoldenTx MergeSplitEvent := do
  lockAll [subjectLockKey subjectId]
  let subject ← live subjectId
  let own ← ownRows subject.id
  let found ← read (.mergeSplitEvent eventId)
  let merge ← mergeToRestore subject.id found
  let row ← read (.subject merge.1.fromSubjectId)
  let original ← orThrow row
    (mergeRefused "the merged-away subject is no longer merged into this subject")
  require (original.resolutionStatus == .merged && original.mergedIntoId == some subject.id)
    (mergeRefused "the merged-away subject is no longer merged into this subject")
  let event ← recordSplit subject.id original.id (own.kept merge.2.toMovedSet) (some eventId) actor
    reason
  let originalAccess ← accessStateOf original.id
  write (.updateSubject original.id fun s =>
    { s with
      resolutionStatus := merge.2.fromPriorResolutionStatus
      mergedIntoId := none
      accessState := originalAccess })
  let access ← accessStateOf subject.id
  write (.updateSubject subject.id fun s =>
    { s with
      resolutionStatus := merge.2.intoPriorResolutionStatus
      accessState := access })
  pure event

end GoldenTx

end AramoPlatform.Intelligence
