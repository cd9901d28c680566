import AramoPlatform.Intelligence.Projection
import AramoPlatform.Intelligence.TalentIngest

/-!
# What a tenant may see and do

The rule that every surface applies: with cross-tenant reads off a tenant sees
its own assertions and those that the platform originated. A tenant acts only
for its own source system, only while it is entitled, and only on a subject on
which it holds an active reference.
-/

namespace AramoPlatform.Intelligence

open Js Lib

/-! ## Views -/

def isOwnAssertion (tenant : TenantKey) (a : Assertion) : Bool :=
  a.sourceSystemId == tenant.sourceSystemId && a.sourceTenantId == some tenant.sourceTenantId

def assertionVisibleTo (tenant : TenantKey) (crossTenant : Bool) (a : Assertion) : Bool :=
  crossTenant || isOwnAssertion tenant a || a.sourceKind.tiOriginated

def tenantViewAssertions (tenant : TenantKey) (crossTenant : Bool) (all : List Assertion) :
    List Assertion :=
  all.filter (assertionVisibleTo tenant crossTenant)

/-- The active identifiers of a view. A verification of the platform is visible
only for a value that the tenant itself holds. -/
def tenantViewIdentifiers (tenant : TenantKey) (crossTenant : Bool)
    (references : List ExternalTalentReference) (all : List SubjectIdentifier) :
    List SubjectIdentifier :=
  let active := all.filter (·.status == .active)
  if crossTenant then active
  else
    let ownRefs := (references.filter fun r => r.tuple.tenant = tenant).map (·.id)
    let own := active.filter fun i => i.sourceReferenceId.any fun r => ownRefs.contains r
    let ownKeys := own.map (·.key)
    own ++ active.filter fun i => i.sourceReferenceId.isNone && ownKeys.contains i.key

/-- Both orders of every reconciling link. -/
def reconciledPairs (links : List AssertionLink) : List (Nat × Nat) :=
  (links.filter (·.linkType == .reconciles)).flatMap fun l =>
    [(l.fromAssertionId, l.toAssertionId), (l.toAssertionId, l.fromAssertionId)]

namespace GoldenDb

variable (db : GoldenDb)

/-- `listLinksFor`. -/
def linksFor (assertionIds : List Nat) : List AssertionLink :=
  db.assertionLinks.filter fun l =>
    assertionIds.contains l.fromAssertionId || assertionIds.contains l.toAssertionId

/-- `listSupports`. -/
def supportsOf (artifactIds : List Nat) : List ArtifactSupport :=
  db.supports.filter fun s => artifactIds.contains s.artifactId

def artifactSupportedIds (subjectId : Nat) : List Nat :=
  (db.supportsOf ((db.artifactsOf subjectId).map (·.id))).map (·.assertionId)

/-- The options of a projection over some live assertions of a subject. -/
def projectionOptions (subjectId : Nat) (freshnessDays : ℚ) (now : Nat) (live : List Assertion) :
    ProjectionOptions :=
  { now := now
    availabilityFreshnessDays := freshnessDays
    artifactSupported := db.artifactSupportedIds subjectId
    reconciled := reconciledPairs (db.linksFor (live.map (·.id))) }

/-- The projection of a tenant's view of a subject. -/
def tenantProjection (host : Host) (tenant : TenantKey) (crossTenant : Bool)
    (freshnessDays : ℚ) (now subjectId : Nat) : ProjectionResult :=
  let live := (tenantViewAssertions tenant crossTenant (db.assertionsOf subjectId)).filter
    fun a => !a.currentStatus.retired
  let identifiers := tenantViewIdentifiers tenant crossTenant (db.referencesOf subjectId)
    (db.identifiersOf subjectId)
  computeProjection host live identifiers (db.projectionOptions subjectId freshnessDays now live)

end GoldenDb

/-! ## Gates -/

def requireEntitledTenant (db : GoldenDb) (principal : IngestPrincipal) (tenant : TenantKey) :
    Except GoldenError Unit := do
  require (principal.sourceSystemId = tenant.sourceSystemId)
    (.lifecycleRefused (js "SOURCE_SYSTEM_MISMATCH"))
  require (db.entitlements.any fun e => e.tenant = tenant && e.active)
    (.lifecycleRefused (js "NOT_ENTITLED"))

/-- The gate of the two sides: a tenant must be entitled, a talent need not be. -/
def requireSource (db : GoldenDb) (principal : IngestPrincipal) (tenant : TenantKey)
    (entitled : Bool) : Except GoldenError Unit :=
  if entitled then requireEntitledTenant db principal tenant
  else require (principal.sourceSystemId = tenant.sourceSystemId)
    (.lifecycleRefused (js "SOURCE_SYSTEM_MISMATCH"))

/-- The active reference and its surviving, readable subject. -/
def requireActiveReference (db : GoldenDb) (principal : IngestPrincipal) (tuple : SourceTuple)
    (entitled : Bool) : Except GoldenError (ExternalTalentReference × GoldenTalent) := do
  requireSource db principal tuple.tenant entitled
  let reference ← orThrow (db.referenceByTuple? tuple)
    (.lifecycleRefused (js "REFERENCE_NOT_FOUND"))
  require (reference.status = .active) (.lifecycleRefused (js "REFERENCE_NOT_FOUND"))
  let subject ← survivingSubject db reference.subjectId
  require (subject.accessState == .active && subject.resolutionStatus != .merged)
    (.lifecycleRefused (js "REFERENCE_NOT_FOUND"))
  .ok (reference, subject)

/-- The tenant's active references on a subject. -/
def tenantReferencesOn (db : GoldenDb) (subjectId : Nat) (tenant : TenantKey) :
    List ExternalTalentReference :=
  (db.referencesOf subjectId).filter fun r => r.status == .active && r.tuple.tenant = tenant

/-- The tenant is part of the record of what it did. -/
def tenantActor (tenant : TenantKey) (actor : JsString) : JsString :=
  js "tenant:" ++ tenant.sourceSystemId ++ js ":" ++ tenant.sourceTenantId ++ js ":" ++ actor

/-! ## The stored projection -/

/-- The event of a status that the projection writes. -/
def statusEvent : AssertionStatus → Option AssertionEventType
  | .contradicted => some .contradicted
  | .stale => some .stale
  | .valid => some .revalidated
  | _ => none

def projectionActor : JsString := js "projection"

/-- `applyStatuses`, on one assertion that was read. -/
def applyStatus (result : ProjectionResult) (db : GoldenDb) (a : Assertion) : GoldenDb :=
  match result.statusOf a.id with
  | none => db
  | some next =>
      if next = a.currentStatus then db
      else match statusEvent next with
        | none => db
        | some event => (db.setStatus a.id next).appendEvent a.id event (some a.currentStatus)
            (some next) projectionActor

/-- `applyContradictionLinks`, for one pair. -/
def applyContradictionLink (existing : List AssertionLink) (db : GoldenDb) (pair : Nat × Nat) :
    GoldenDb :=
  if existing.any fun l => l.linkType == .contradicts &&
      ((l.fromAssertionId, l.toAssertionId) == pair ||
        (l.toAssertionId, l.fromAssertionId) == pair) then db
  else db.appendLink pair.1 pair.2 .contradicts

/-- The pairs that are linked, each once whatever its order. -/
def unlinkedPairs (pairs : List (Nat × Nat)) : List (Nat × Nat) :=
  pairs.foldl (fun out p => if out.contains p || out.contains (p.2, p.1)
    then out else out ++ [p]) []

/-- The writes of a rebuild, from the rows it read and what it computed. -/
def writeProjection (assertions : List Assertion) (links : List AssertionLink)
    (result : ProjectionResult) (db : GoldenDb) : GoldenDb :=
  (unlinkedPairs result.contradictions).foldl (applyContradictionLink links)
    (assertions.foldl (applyStatus result) db)

/-- `ProjectionService.rebuild`. A merged-away subject projects nothing. -/
def rebuild (host : Host) (db : GoldenDb) (freshnessDays : ℚ) (subjectId now : Nat) :
    Except GoldenError GoldenDb := do
  let subject ← survivingSubject db subjectId
  if subject.id ≠ subjectId then .ok db
  else
    let assertions := (db.assertionsOf subjectId).filter fun a => !a.currentStatus.retired
    let result := computeProjection host assertions (db.identifiersOf subjectId)
      (db.projectionOptions subjectId freshnessDays now assertions)
    .ok (writeProjection assertions (db.linksFor (assertions.map (·.id))) result db)

end AramoPlatform.Intelligence
