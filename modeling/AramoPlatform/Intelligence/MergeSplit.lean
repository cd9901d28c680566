import AramoPlatform.Intelligence.TalentIngest

/-!
# Merge and split

A merge moves every row of one subject to another and marks the first one
merged; the event names the moved rows and the states of both subjects before.
A split moves selected rows to a new subject, or, given a merge event, moves
that merge's rows back to the subject that was merged away.
-/

namespace AramoPlatform.Intelligence

open Js Lib

/-! ## Statements -/

namespace GoldenDb

variable (db : GoldenDb)

def mergeSplitEvent? (id : Nat) : Option MergeSplitEvent := db.mergeSplits.find? (·.id == id)

def repointReferences (ids : List Nat) (subjectId : Nat) : GoldenDb :=
  { db with
    references := updateWhere (fun r => ids.contains r.id) (fun r =>
      { r with subjectId := subjectId })
      db.references }

def repointIdentifiers (ids : List Nat) (subjectId : Nat) : GoldenDb :=
  { db with
    identifiers := updateWhere (fun r => ids.contains r.id)
      (fun r => { r with subjectId := subjectId }) db.identifiers }

def repointArtifacts (ids : List Nat) (subjectId : Nat) : GoldenDb :=
  { db with
    artifacts := updateWhere (fun r => ids.contains r.id) (fun r =>
      { r with subjectId := subjectId })
      db.artifacts }

def repointConflicts (ids : List Nat) (subjectId : Nat) : GoldenDb :=
  { db with
    conflicts := updateWhere (fun r => ids.contains r.id) (fun r =>
      { r with subjectId := subjectId })
      db.conflicts }

def repointAssertions (ids : List Nat) (subjectId : Nat) : GoldenDb :=
  { db with
    assertions := updateWhere (fun r => ids.contains r.id) (fun r =>
      { r with subjectId := subjectId })
      db.assertions }

def createMergeSplit (row : MergeSplitEvent) : GoldenDb :=
  { db with
    nextId := db.nextId + 1
    mergeSplits := db.mergeSplits ++ [{ row with id := db.nextId }] }

end GoldenDb

def mergeRefused (reason : String) : GoldenError := .mergeSplit (js reason)

/-- A refusal about one subject. -/
def subjectRefused (id : Nat) (reason : String) : GoldenError :=
  .mergeSplit (js "subject " ++ idText id ++ js reason)

/-- `live`: the subject, when it is not merged away. -/
def liveSubject (db : GoldenDb) (id : Nat) : Except GoldenError GoldenTalent := do
  let s ← orThrow (db.subject? id) (subjectRefused id " not found")
  require (s.resolutionStatus ≠ .merged) (subjectRefused id " is already merged")
  .ok s

/-- `move`: repoint the rows and leave an event on every assertion. -/
def moveRows (db : GoldenDb) (moved : MovedSet) (intoId : Nat) (actor : JsString) : GoldenDb :=
  let db₁ := (((db.repointReferences moved.referenceIds intoId).repointIdentifiers
    moved.identifierIds intoId).repointArtifacts moved.artifactIds intoId).repointConflicts
      moved.conflictIds intoId
  let db₂ := db₁.repointAssertions moved.assertionIds intoId
  moved.assertionIds.foldl (fun db id => db.appendEvent id .repointed none none actor) db₂

/-! ## Merge -/

/-- Every row of a subject. -/
def rowsOf (db : GoldenDb) (subjectId : Nat) : MovedSet :=
  { referenceIds := uniq ((db.referencesOf subjectId).map (·.id))
    assertionIds := uniq ((db.assertionsOf subjectId).map (·.id))
    identifierIds := uniq ((db.identifiersOf subjectId).map (·.id))
    artifactIds := uniq ((db.artifactsOf subjectId).map (·.id))
    conflictIds := uniq ((db.conflictsOf subjectId).map (·.id)) }

/-- The writes of a merge, from the two subjects as they were read. -/
def applyMerge (db : GoldenDb) (source target : GoldenTalent) (moved : MovedSet)
    (actor reason : JsString) : MergeSplitEvent × GoldenDb :=
  let event : MergeSplitEvent :=
    { id := db.nextId, fromSubjectId := source.id, intoSubjectId := target.id, actor := actor
      reason := reason
      moved := .merge
        { moved with
          fromPriorResolutionStatus := source.resolutionStatus
          fromPriorAccessState := source.accessState
          intoPriorResolutionStatus := target.resolutionStatus
          intoPriorAccessState := target.accessState } }
  let db₁ := moveRows (db.createMergeSplit event) moved target.id actor
  let db₂ := db₁.updateSubject source.id fun s =>
    { s with resolutionStatus := .merged, mergedIntoId := some target.id }
  (event, db₂.updateSubject target.id fun s =>
    { s with
      resolutionStatus :=
        if target.resolutionStatus = .active ∨ source.resolutionStatus = .active then .active
        else .provisional
      accessState := accessStateOf db₂ target.id })

/-- `mergeTx`. -/
def mergeSubjects (db : GoldenDb) (fromId intoId : Nat) (actor reason : JsString) :
    Except GoldenError (MergeSplitEvent × GoldenDb) := do
  require (fromId ≠ intoId) (mergeRefused "cannot merge a subject into itself")
  let source ← liveSubject db fromId
  let target ← liveSubject db intoId
  .ok (applyMerge db source target (rowsOf db source.id) actor reason)

/-! ## Split -/

/-- `pick` checks a selection against the subject's own rows. -/
def pickOwn (subjectId : Nat) (own ids : List Nat) (label : String) :
    Except GoldenError (List Nat) := do
  let missing := (uniq ids).filter fun id => !own.contains id
  require missing.isEmpty (.mergeSplit (js label ++ js " " ++
    ((missing.map idText).intersperse (js ", ")).flatten ++ js " do not belong to subject " ++
    idText subjectId))
  .ok (uniq ids)

/-- `pick` for a restore keeps what is still the subject's own. -/
def keepOwn (own ids : List Nat) : List Nat := (uniq ids).filter own.contains

/-- The rows that travel: those picked, and every assertion and identifier that
a picked reference is the source of. -/
def withSourced (db : GoldenDb) (subjectId : Nat) (picked : MovedSet) : MovedSet :=
  let sourced (r : Option Nat) : Bool := r.any fun id => picked.referenceIds.contains id
  { picked with
    assertionIds := uniq (picked.assertionIds ++
      ((db.assertionsOf subjectId).filter fun a => sourced a.sourceReferenceId).map (·.id))
    identifierIds := uniq (picked.identifierIds ++
      ((db.identifiersOf subjectId).filter fun i => sourced i.sourceReferenceId).map (·.id)) }

/-- A selection, every row of which must be the subject's own. -/
def pickSelection (db : GoldenDb) (subjectId : Nat) (selection : MovedSet) :
    Except GoldenError MovedSet := do
  let referenceIds ← pickOwn subjectId ((db.referencesOf subjectId).map (·.id))
    selection.referenceIds
    "references"
  let assertionIds ← pickOwn subjectId ((db.assertionsOf subjectId).map (·.id))
    selection.assertionIds
    "assertions"
  let identifierIds ← pickOwn subjectId ((db.identifiersOf subjectId).map (·.id))
    selection.identifierIds
    "identifiers"
  let artifactIds ← pickOwn subjectId ((db.artifactsOf subjectId).map (·.id))
    selection.artifactIds "artifacts"
  let conflictIds ← pickOwn subjectId ((db.conflictsOf subjectId).map (·.id))
    selection.conflictIds "conflicts"
  .ok (withSourced db subjectId ⟨referenceIds, assertionIds, identifierIds,
    artifactIds, conflictIds⟩)

/-- The rows of a merge that the subject still has. -/
def keptRows (db : GoldenDb) (subjectId : Nat) (moved : MovedSet) : MovedSet :=
  withSourced db subjectId
    { referenceIds := keepOwn ((db.referencesOf subjectId).map (·.id)) moved.referenceIds
      assertionIds := keepOwn ((db.assertionsOf subjectId).map (·.id)) moved.assertionIds
      identifierIds := keepOwn ((db.identifiersOf subjectId).map (·.id)) moved.identifierIds
      artifactIds := keepOwn ((db.artifactsOf subjectId).map (·.id)) moved.artifactIds
      conflictIds := keepOwn ((db.conflictsOf subjectId).map (·.id)) moved.conflictIds }

def MovedSet.isEmpty (m : MovedSet) : Bool :=
  m.referenceIds.isEmpty && m.assertionIds.isEmpty && m.identifierIds.isEmpty &&
    m.artifactIds.isEmpty && m.conflictIds.isEmpty

/-- The event of a split and the moved rows. -/
def recordSplit (db : GoldenDb) (subjectId targetId : Nat) (moved : MovedSet)
    (restores : Option Nat) (actor reason : JsString) : MergeSplitEvent × GoldenDb :=
  let event : MergeSplitEvent :=
    { id := db.nextId, fromSubjectId := subjectId, intoSubjectId := targetId, actor := actor
      reason := reason, moved := .split moved restores }
  (event, moveRows (db.createMergeSplit event) moved targetId actor)

/-- `splitTx` without a merge event: the selected rows go to a new subject. -/
def splitSelection (db : GoldenDb) (subjectId : Nat) (selection : MovedSet)
    (actor reason : JsString) : Except GoldenError (MergeSplitEvent × GoldenDb) := do
  let subject ← liveSubject db subjectId
  let moved ← pickSelection db subject.id selection
  require (!moved.isEmpty) (mergeRefused "nothing selected to split")
  let targetId := db.nextId
  let (event, db₁) :=
    recordSplit (db.createSubject .provisional) subject.id targetId moved none actor reason
  let db₂ := db₁.updateSubject targetId fun s =>
    { s with accessState := accessStateOf db₁ targetId }
  .ok (event, db₂.updateSubject subject.id fun s =>
    { s with accessState := accessStateOf db₂ subject.id })

/-- The merge that a restore takes back. -/
def mergeToRestore (db : GoldenDb) (subjectId eventId : Nat) :
    Except GoldenError (MergeSplitEvent × MergeMoved) :=
  match db.mergeSplitEvent? eventId with
  | none => .error (mergeRefused "restore requires a MERGE event")
  | some ev =>
      match ev.moved with
      | .split _ _ => .error (mergeRefused "restore requires a MERGE event")
      | .merge moved => do
          require (ev.intoSubjectId = subjectId)
            (mergeRefused "that merge did not merge into this subject")
          .ok (ev, moved)

/-- The writes of a restore: the rows go back, and both subjects regain the
states that the merge recorded. -/
def applyRestore (db : GoldenDb) (subjectId targetId : Nat) (merge : MergeMoved) (moved : MovedSet)
    (eventId : Nat) (actor reason : JsString) : MergeSplitEvent × GoldenDb :=
  let (event, db₁) := recordSplit db subjectId targetId moved (some eventId) actor reason
  let db₂ := db₁.updateSubject targetId fun s =>
    { s with
      resolutionStatus := merge.fromPriorResolutionStatus
      mergedIntoId := none
      accessState := accessStateOf db₁ targetId }
  (event, db₂.updateSubject subjectId fun s =>
    { s with
      resolutionStatus := merge.intoPriorResolutionStatus
      accessState := accessStateOf db₂ subjectId })

/-- `splitTx` with `restoreMergeEventId`. -/
def restoreMerge (db : GoldenDb) (subjectId eventId : Nat) (actor reason : JsString) :
    Except GoldenError (MergeSplitEvent × GoldenDb) := do
  let subject ← liveSubject db subjectId
  let (ev, merge) ← mergeToRestore db subject.id eventId
  let original ← orThrow (db.subject? ev.fromSubjectId)
    (mergeRefused "the merged-away subject is no longer merged into this subject")
  require (original.resolutionStatus == .merged && original.mergedIntoId == some subject.id)
    (mergeRefused "the merged-away subject is no longer merged into this subject")
  let moved := keptRows db subject.id merge.toMovedSet
  require (!moved.isEmpty) (mergeRefused "nothing selected to split")
  .ok (applyRestore db subject.id original.id merge moved eventId actor reason)

end AramoPlatform.Intelligence
