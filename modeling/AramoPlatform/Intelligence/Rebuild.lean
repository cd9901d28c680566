import AramoPlatform.Intelligence.ProjectionStatus
import AramoPlatform.Intelligence.TenantView
import AramoPlatform.Lib.Upsert

/-!
# The stored projection

`ProjectionService.rebuild` with all it stores: the statuses and links of the
golden model, the resolved facts, the trust state, the proposals of every
entitled tenant, and the event that announces a change. The rows of a table
are read by their creation time only, so a rebuild is given them in some order.
-/

namespace AramoPlatform.Intelligence

open Js Lib

/-! ## Rows -/

/-- Where a fact is stored. -/
structure FactKey where
  subjectId : Nat
  factType : FactType
  factKey : JsString
  deriving DecidableEq

/-- The `value` column of a fact. -/
structure StoredFactValue where
  value : List (JsString × JsVal)
  state : FactState
  verificationStatus : AssertionVerification
  corroboratingSources : Nat

structure ResolvedProfileFact where
  key : FactKey
  value : StoredFactValue
  supportingAssertionIds : List Nat

structure SubjectTrustState where
  subjectId : Nat
  trust : TrustState
  assessedAt : Nat
  deriving DecidableEq

inductive ProposalKind where
  | verifyContact
  | renewVerification
  | resolveContradiction
  deriving DecidableEq

inductive ProposalTriggerKind where
  | singleSourceOnly
  | verificationStale
  | openContradiction
  deriving DecidableEq

/-- `basis_ref`: `assertion:<id>` or `identifier:<digest>`. -/
inductive BasisRef where
  | assertion (id : Nat)
  | identifier (digest : JsString)
  deriving DecidableEq

inductive ProposalStatus where
  | opened
  | dismissed
  | acted
  | settled
  deriving DecidableEq

/-- The unique key of a proposal. -/
structure ProposalKey where
  tenant : TenantKey
  subjectId : Nat
  kind : ProposalKind
  basisRef : BasisRef
  deriving DecidableEq

structure VerificationProposal where
  key : ProposalKey
  triggerKind : ProposalTriggerKind
  assertionId : Option Nat
  identifierType : Option IdentifierType
  identifierDigest : Option JsString
  basisSnapshot : JsVal
  status : ProposalStatus
  justification : Option JsString
  createdBy : JsString
  resolvedBy : Option JsString
  actedAt : Option Nat

/-- `golden_talent.profile_updated`. -/
structure ProfileUpdatedEvent where
  subjectId : Nat
  changedFactTypes : List JsString
  occurredAt : Nat
  deriving DecidableEq

/-- The tables that a rebuild writes. -/
structure ProjectionDb where
  golden : GoldenDb
  facts : List ResolvedProfileFact
  trust : List SubjectTrustState
  proposals : List VerificationProposal
  outbox : List ProfileUpdatedEvent

/-! ## Facts -/

/-- The word of a fact type. -/
def FactType.text : FactType → JsString
  | .claim type => type.text
  | .contact type => type.text

def storedFactValue (f : ProjectedFact) : StoredFactValue :=
  ⟨f.value, f.state, f.verificationStatus, f.corroboratingSources⟩

/-- `factSignature`: of the nested value the canonical text, of the ids their order by size. -/
structure FactSignature where
  value : JsString
  state : FactState
  verificationStatus : AssertionVerification
  corroboratingSources : Nat
  supporting : List Nat
  deriving DecidableEq

def factSignature (v : StoredFactValue) (supporting : List Nat) : FactSignature :=
  { value := canonicalJson (.obj v.value)
    state := v.state
    verificationStatus := v.verificationStatus
    corroboratingSources := v.corroboratingSources
    supporting := supporting.insertionSort (· ≤ ·) }

def ResolvedProfileFact.signature (r : ResolvedProfileFact) : FactSignature :=
  factSignature r.value r.supportingAssertionIds

/-- The row of a projected fact. -/
def factRow (subjectId : Nat) (f : ProjectedFact) : ResolvedProfileFact :=
  ⟨⟨subjectId, f.factType, f.factKey⟩, storedFactValue f, f.supportingAssertionIds⟩

/-- The facts whose stored row is missing or says something else. -/
def changedFacts (subjectId : Nat) (rows : List ResolvedProfileFact) (facts : List ProjectedFact) :
    List ProjectedFact :=
  facts.filter fun f =>
    ((findKey (·.key) (factRow subjectId f).key rows).map (·.signature) !=
      some (factRow subjectId f).signature)

/-- The stored rows of the subject that are no facts any more. -/
def vanishedFacts (subjectId : Nat) (rows : List ResolvedProfileFact)
    (facts : List ProjectedFact) : List ResolvedProfileFact :=
  rows.filter fun r => r.key.subjectId == subjectId &&
    !(facts.any fun f => (factRow subjectId f).key == r.key)

/-- `deleteOne`. -/
def deleteFact (rows : List ResolvedProfileFact) (key : FactKey) : List ResolvedProfileFact :=
  rows.filter fun r => r.key != key

/-- `applyFacts`: changed facts are upserted and vanished ones deleted; the
types of both have changed. -/
def applyFacts (subjectId : Nat) (facts : List ProjectedFact) (rows : List ResolvedProfileFact) :
    List ResolvedProfileFact × List JsString :=
  let changed := changedFacts subjectId rows facts
  let vanished := vanishedFacts subjectId rows facts
  ((vanished.map (·.key)).foldl deleteFact
      ((changed.map (factRow subjectId)).foldl (upsert (·.key)) rows),
    changed.map (·.factType.text) ++ vanished.map (·.key.factType.text))

/-! ## Trust -/

/-- `applyTrust`: the row, and whether the trust state is a new one. -/
def applyTrust (subjectId : Nat) (trust : TrustState) (now : Nat) (rows : List SubjectTrustState) :
    List SubjectTrustState × Bool :=
  (upsert (·.subjectId) rows ⟨subjectId, trust, now⟩,
    (findKey (·.subjectId) subjectId rows).map (·.trust) != some trust)

/-! ## Proposals -/

structure DesiredProposal where
  kind : ProposalKind
  triggerKind : ProposalTriggerKind
  basisRef : BasisRef
  assertionId : Option Nat
  identifierType : Option IdentifierType
  identifierDigest : Option JsString
  basisSnapshot : JsVal

/-- A contact of a view, by its type and digest. -/
structure ContactSlot where
  type : IdentifierType
  digest : JsString
  deriving DecidableEq

def contactProposal (kind : ProposalKind) (trigger : ProposalTriggerKind) (s : ContactSlot) :
    DesiredProposal :=
  { kind := kind
    triggerKind := trigger
    basisRef := .identifier s.digest
    assertionId := none
    identifierType := some s.type
    identifierDigest := some s.digest
    basisSnapshot := .obj [(js "identifier_type", .str s.type.text)] }

def contradictionProposal (a : Assertion) : DesiredProposal :=
  { kind := .resolveContradiction
    triggerKind := .openContradiction
    basisRef := .assertion a.id
    assertionId := some a.id
    identifierType := none
    identifierDigest := none
    basisSnapshot := .obj [(js "assertion_type", .str a.assertionType.text)] }

/-- The active contacts of a view, one slot for each digest, by digest. -/
def contactSlots (host : Host) (identifiers : List SubjectIdentifier) : List ContactSlot :=
  let contacts := identifiers.filter fun i =>
    i.status == .active && i.key.identifierType != .govId
  let slots := (contacts.map fun i =>
    (⟨i.key.identifierType, identifierDigest host i.key⟩ : ContactSlot)).foldl
      (upsert (·.digest)) []
  slots.insertionSort fun x y => strLe x.digest y.digest = true

/-- `latestVerification.get(digest)`: when the platform last verified a contact. -/
def latestVerification (projection : ProjectionResult) (assertions : List Assertion)
    (digest : JsString) : Option Nat :=
  let times := (assertions.filter fun a =>
    a.assertionType == .verificationOutcome && a.sourceKind == .verification &&
      (projection.statusOf a.id).isSome &&
      stringMember a.payload (js "identifier_digest") == some digest).map (·.observedAt)
  if times = [] then none else some (times.foldl max 0)

def verificationValidityDays : Nat := 365

def generateProposals (host : Host) (assertions : List Assertion)
    (identifiers : List SubjectIdentifier) (projection : ProjectionResult) (now : Nat) :
    List DesiredProposal :=
  let ordered := contactSlots host identifiers
  let latest := latestVerification projection assertions
  (assertions.filter fun a => projection.statusOf a.id == some .contradicted).map
      contradictionProposal ++
    (if projection.trust.verificationStale then
      (ordered.filter fun s => (latest s.digest).any fun t =>
        verificationValidityDays * msPerDay < now - t).map
          (contactProposal .renewVerification .verificationStale)
    else []) ++
    if projection.trust.singleSourceOnly then
      (ordered.filter fun s => (latest s.digest).isNone).map
        (contactProposal .verifyContact .singleSourceOnly)
    else []

def DesiredProposal.key (d : DesiredProposal) (tenant : TenantKey) (subjectId :
    Nat) : ProposalKey :=
  ⟨tenant, subjectId, d.kind, d.basisRef⟩

/-- The open row of a desired proposal. -/
def newProposal (tenant : TenantKey) (subjectId : Nat) (d : DesiredProposal) :
    VerificationProposal where
  key := d.key tenant subjectId
  triggerKind := d.triggerKind
  assertionId := d.assertionId
  identifierType := d.identifierType
  identifierDigest := d.identifierDigest
  basisSnapshot := d.basisSnapshot
  status := .opened
  justification := none
  createdBy := projectionActor
  resolvedBy := none
  actedAt := none

/-- The row says what is desired. -/
def VerificationProposal.saysWhat (p : VerificationProposal) (d : DesiredProposal) : Bool :=
  p.triggerKind == d.triggerKind && canonicalJson p.basisSnapshot == canonicalJson d.basisSnapshot

/-- `proposals.refresh`. -/
def refreshProposal (d : DesiredProposal) (p : VerificationProposal) : VerificationProposal :=
  { p with triggerKind := d.triggerKind, basisSnapshot := d.basisSnapshot }

/-- One desired proposal: created when there is none, refreshed while it is
open and says something else. -/
def syncProposal (tenant : TenantKey) (subjectId : Nat) (rows : List VerificationProposal)
    (d : DesiredProposal) : List VerificationProposal :=
  match findKey (·.key) (d.key tenant subjectId) rows with
  | none => rows ++ [newProposal tenant subjectId d]
  | some existing =>
      if existing.status = .opened ∧ existing.saysWhat d = false then
        updateWhere (fun p => p.key = d.key tenant subjectId) (refreshProposal d) rows
      else rows

def proposalSettledJustification : JsString := js "trigger cleared"

/-- An open proposal of the tenant whose trigger no longer holds. -/
def triggerCleared (tenant : TenantKey) (subjectId : Nat) (desired : List DesiredProposal)
    (p : VerificationProposal) : Bool :=
  p.key.tenant == tenant && p.key.subjectId == subjectId && p.status == .opened &&
    !(desired.any fun d => d.key tenant subjectId == p.key)

def settleProposal (now : Nat) (p : VerificationProposal) : VerificationProposal :=
  { p with
    status := .settled
    resolvedBy := some projectionActor
    justification := some proposalSettledJustification
    actedAt := some now }

def syncProposals (tenant : TenantKey) (subjectId now : Nat) (desired : List DesiredProposal)
    (rows : List VerificationProposal) : List VerificationProposal :=
  updateWhere (triggerCleared tenant subjectId desired) (settleProposal now)
    (desired.foldl (syncProposal tenant subjectId) rows)

def activeReferenceTenants (references : List ExternalTalentReference) : List TenantKey :=
  ((references.filter (·.status == .active)).map (·.tuple.tenant)).reverse.dedup.reverse

/-! ## The rebuild -/

/-- The rows of a subject in the order in which they were read. -/
structure RebuildReads where
  assertions : List Assertion
  identifiers : List SubjectIdentifier
  references : List ExternalTalentReference

/-- What the reads of a subject can return. -/
structure RebuildReads.Of (reads : RebuildReads) (db : GoldenDb) (subjectId : Nat) : Prop where
  assertions : reads.assertions.Perm (db.assertionsOf subjectId)
  identifiers : reads.identifiers.Perm (db.identifiersOf subjectId)
  references : reads.references.Perm (db.referencesOf subjectId)

/-- The configuration of a rebuild. -/
structure RebuildEnv where
  host : Host
  crossTenant : Bool
  freshnessDays : ℚ

/-- `assertions`: those that are not retired. -/
def RebuildReads.live (reads : RebuildReads) : List Assertion :=
  reads.assertions.filter fun a => !a.currentStatus.retired

def isEntitled (db : GoldenDb) (tenant : TenantKey) : Bool :=
  db.entitlements.any fun e => e.tenant == tenant && e.active

/-- The proposals that a tenant's view asks for. -/
def desiredFor (env : RebuildEnv) (reads : RebuildReads) (options : ProjectionOptions)
    (global : ProjectionResult) (tenant : TenantKey) : List DesiredProposal :=
  let va := tenantViewAssertions tenant env.crossTenant reads.live
  let vi := tenantViewIdentifiers tenant env.crossTenant reads.references reads.identifiers
  let projection := if env.crossTenant then global else computeProjection env.host va vi options
  generateProposals env.host va vi projection options.now

def applyProposals (env : RebuildEnv) (db : GoldenDb) (reads : RebuildReads)
    (options : ProjectionOptions) (global : ProjectionResult) (subjectId : Nat)
    (rows : List VerificationProposal) : List VerificationProposal :=
  ((activeReferenceTenants reads.references).filter (isEntitled db)).foldl
    (fun rows tenant =>
      syncProposals tenant subjectId options.now
        (desiredFor env reads options global tenant) rows) rows

/-- `changed_fact_types`, with the mark of a changed trust state. -/
def changedTypes (facts : List JsString) (trustChanged : Bool) : List JsString :=
  uniqStrings (facts ++ if trustChanged then [js "TRUST"] else [])

/-- `ProjectionService.rebuild`, on the rows that it read. -/
def rebuildStored (env : RebuildEnv) (db : ProjectionDb) (reads : RebuildReads)
    (subjectId now : Nat) : Except GoldenError ProjectionDb := do
  let subject ← survivingSubject db.golden subjectId
  if subject.id ≠ subjectId then
    .ok { db with facts := db.facts.filter fun r => r.key.subjectId != subjectId }
  else
    let options := db.golden.projectionOptions subjectId env.freshnessDays now reads.live
    let result := computeProjection env.host reads.live reads.identifiers options
    let links := db.golden.linksFor (reads.live.map (·.id))
    let facts := applyFacts subjectId result.facts db.facts
    let trust := applyTrust subjectId result.trust now db.trust
    let changed := changedTypes facts.2 trust.2
    .ok
      { golden := writeProjection reads.live links result db.golden
        facts := facts.1
        trust := trust.1
        proposals := applyProposals env db.golden reads options result subjectId db.proposals
        outbox := if changed = [] then db.outbox else db.outbox ++ [⟨subjectId, changed, now⟩] }

end AramoPlatform.Intelligence
