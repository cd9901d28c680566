import AramoPlatform.Js.Value
import AramoPlatform.Lib.Rows

/-!
# The golden model

The tables of the `intelligence` schema: subjects, the references that source
systems hold on them, the identifiers and assertions that came in through a
reference, and the ledgers that only grow. A table is a list in the order of
creation, an id is taken from a counter, a time is a number of milliseconds.

The functions of this module are the repositories: one query or one statement
each.
-/

namespace AramoPlatform.Intelligence

open Js Lib

/-! ## Vocabularies -/

inductive ResolutionStatus where
  | active
  | provisional
  | merged
  deriving DecidableEq

inductive AccessState where
  | active
  | auditRetained
  deriving DecidableEq

inductive IdentifierType where
  | email
  | phone
  | govId
  deriving DecidableEq

/-- The word of an identifier type. -/
def IdentifierType.text : IdentifierType → JsString
  | .email => js "EMAIL"
  | .phone => js "PHONE"
  | .govId => js "GOV_ID"

inductive IdentifierVerification where
  | unverified
  | verified
  | revoked
  deriving DecidableEq

inductive IdentifierStatus where
  | active
  | superseded
  deriving DecidableEq

inductive ReferenceStatus where
  | active
  | erased
  | detached
  deriving DecidableEq

inductive AdmissionClass where
  | a
  | b
  deriving DecidableEq

inductive AssertionVerification where
  | declared
  | documentSupported
  | verified
  deriving DecidableEq

inductive AssertionStatus where
  | valid
  | stale
  | contradicted
  | revoked
  | superseded
  | disputed
  | withdrawn
  deriving DecidableEq

/-- `RETIRED_ASSERTION_STATUSES`: after these an assertion no longer takes part
in its reference's snapshot. -/
def AssertionStatus.retired : AssertionStatus → Bool
  | .superseded | .withdrawn | .revoked => true
  | _ => false

/-- `PROJECTED_ASSERTION_STATUSES`: what the projection reads. -/
def AssertionStatus.projected : AssertionStatus → Bool
  | .valid | .stale | .contradicted | .disputed => true
  | _ => false

@[simp] theorem AssertionStatus.projected_eq (s : AssertionStatus) :
    s.projected = !s.retired := by
  cases s <;> rfl

inductive AssertionEventType where
  | asserted
  | superseded
  | stale
  | contradicted
  | revoked
  | disputed
  | withdrawn
  | revalidated
  | repointed
  | disputeResolved
  | corrected
  | contradictionResolved
  deriving DecidableEq

inductive AssertionLinkType where
  | corroborates
  | contradicts
  | supersedes
  | reconciles
  deriving DecidableEq

inductive SourceKind where
  | recruiter
  | resumeDerived
  | talentSelf
  | tiAcquired
  | verification
  deriving DecidableEq

/-- `TI_ORIGINATED_SOURCE_KINDS`. -/
def SourceKind.tiOriginated : SourceKind → Bool
  | .verification | .tiAcquired => true
  | _ => false

inductive IdentityConflictType where
  | identityAttributeConflict
  | anchorContradiction
  | referenceIdentityMutation
  deriving DecidableEq

def IdentityConflictType.text : IdentityConflictType → JsString
  | .identityAttributeConflict => js "IDENTITY_ATTRIBUTE_CONFLICT"
  | .anchorContradiction => js "ANCHOR_CONTRADICTION"
  | .referenceIdentityMutation => js "REFERENCE_IDENTITY_MUTATION"

inductive IdentityConflictStatus where
  | open
  | resolved
  deriving DecidableEq

inductive AssertionType where
  | name
  | currentEmployer
  | title
  | location
  | availability
  | workAuthorization
  | workHistory
  | skill
  | education
  | certification
  | project
  | publicProfileUrl
  | verificationOutcome
  deriving DecidableEq

/-! ## Rows -/

/-- What a source system calls a talent. -/
structure SourceTuple where
  sourceSystemId : JsString
  sourceTenantId : JsString
  externalTalentId : JsString
  deriving DecidableEq

/-- A tenant of a source system. -/
structure TenantKey where
  sourceSystemId : JsString
  sourceTenantId : JsString
  deriving DecidableEq

def SourceTuple.tenant (t : SourceTuple) : TenantKey := ⟨t.sourceSystemId, t.sourceTenantId⟩

/-- The type and the normalized value of an identifier. -/
structure IdentifierKey where
  identifierType : IdentifierType
  normalizedValue : JsString
  deriving DecidableEq

structure GoldenTalent where
  id : Nat
  resolutionStatus : ResolutionStatus
  accessState : AccessState
  mergedIntoId : Option Nat
  deriving DecidableEq

structure SubjectIdentifier where
  id : Nat
  subjectId : Nat
  key : IdentifierKey
  jurisdiction : Option JsString
  identifierClass : Option JsString
  verificationStatus : IdentifierVerification
  verificationMethod : Option JsString
  verificationSource : Option JsString
  verifiedAt : Option Nat
  status : IdentifierStatus
  validFrom : Nat
  validTo : Option Nat
  isPrimary : Bool
  sourceReferenceId : Option Nat
  deriving DecidableEq

/-- The population of the partial unique index on verified identifiers. -/
def SubjectIdentifier.activeVerified (i : SubjectIdentifier) : Bool :=
  i.status == .active && i.verificationStatus == .verified

structure NameSnapshot where
  first : Option JsString
  last : Option JsString
  aliases : Option (List JsString)
  deriving DecidableEq

/-- `IdentitySnapshot`: identifiers are named by their keys, government
identifiers by their token. -/
structure IdentitySnapshot where
  names : NameSnapshot
  verified : List IdentifierKey
  unverified : List IdentifierKey
  deriving DecidableEq

structure ExternalTalentReference where
  id : Nat
  tuple : SourceTuple
  subjectId : Nat
  status : ReferenceStatus
  erasedAt : Option Nat
  lastIdentitySnapshot : IdentitySnapshot
  deriving DecidableEq

structure Assertion where
  id : Nat
  subjectId : Nat
  assertionType : AssertionType
  admissionClass : AdmissionClass
  payload : List (JsString × JsVal)
  sourceReferenceId : Option Nat
  sourceSystemId : JsString
  sourceTenantId : Option JsString
  sourceKind : SourceKind
  sourceEventId : JsString
  verificationStatus : AssertionVerification
  observedAt : Nat
  validFrom : Option Nat
  validTo : Option Nat
  aiDerived : Bool
  contentHash : JsString
  sourceDocumentHash : Option JsString
  currentStatus : AssertionStatus

/-- An event of an assertion. -/
structure AssertionEvent where
  id : Nat
  assertionId : Nat
  eventType : AssertionEventType
  fromStatus : Option AssertionStatus
  toStatus : Option AssertionStatus
  actor : JsString
  deriving DecidableEq

structure AssertionLink where
  id : Nat
  fromAssertionId : Nat
  toAssertionId : Nat
  linkType : AssertionLinkType
  deriving DecidableEq

structure EvidenceArtifact where
  id : Nat
  subjectId : Nat
  documentType : JsString
  issuer : Option JsString
  sha256 : JsString
  retrievedAt : Nat
  deriving DecidableEq

structure ArtifactSupport where
  assertionId : Nat
  artifactId : Nat
  deriving DecidableEq

structure DocumentTypePolicy where
  documentType : JsString
  globallyShareable : Bool
  deriving DecidableEq

/-- A conflict, with the signature that its details carry. -/
structure IdentityConflict where
  id : Nat
  subjectId : Nat
  conflictType : IdentityConflictType
  relatedSubjectIds : List Nat
  signature : JsString
  status : IdentityConflictStatus
  deriving DecidableEq

/-- The rows that a merge or a split moved. -/
structure MovedSet where
  referenceIds : List Nat
  assertionIds : List Nat
  identifierIds : List Nat
  artifactIds : List Nat
  conflictIds : List Nat
  deriving DecidableEq

/-- What a merge records: the moved rows and the states of both subjects before. -/
structure MergeMoved extends MovedSet where
  fromPriorResolutionStatus : ResolutionStatus
  fromPriorAccessState : AccessState
  intoPriorResolutionStatus : ResolutionStatus
  intoPriorAccessState : AccessState
  deriving DecidableEq

/-- The `moved` column, which depends on the kind of the event. -/
inductive MergeSplitRecord where
  | merge (moved : MergeMoved)
  | split (moved : MovedSet) (restoresMergeEventId : Option Nat)
  deriving DecidableEq

structure MergeSplitEvent where
  id : Nat
  fromSubjectId : Nat
  intoSubjectId : Nat
  actor : JsString
  reason : JsString
  moved : MergeSplitRecord
  deriving DecidableEq

structure EntitledTenant where
  tenant : TenantKey
  active : Bool
  deriving DecidableEq

/-! ### The inbox -/

inductive ResolutionRule where
  | existingReference
  | verifiedAnchor
  | anchorContradiction
  | newProvisional
  deriving DecidableEq

inductive IngestOutcome where
  | created
  | linked
  | updated
  deriving DecidableEq

structure TalentIngestResponse where
  intelligenceSubjectId : Nat
  outcome : IngestOutcome
  resolution : ResolutionRule
  changed : Bool
  assertionsAdded : Nat
  assertionsSuperseded : Nat
  conflictsOpened : Nat
  replayed : Bool
  deriving DecidableEq

inductive ErasedOutcome where
  | erased
  | alreadyErased
  | notFound
  deriving DecidableEq

structure TalentErasedResponse where
  outcome : ErasedOutcome
  intelligenceSubjectId : Option Nat
  subjectAccessState : Option AccessState
  replayed : Bool
  deriving DecidableEq

/-- The stored response, by the kind of the event. -/
inductive InboxResponse where
  | talentSnapshot (response : TalentIngestResponse)
  | talentErased (response : TalentErasedResponse)
  deriving DecidableEq

structure IntelligenceInbox where
  eventId : JsString
  tuple : SourceTuple
  response : InboxResponse
  deriving DecidableEq

/-! ### Verification requests -/

inductive VerificationStatus where
  | pending
  | confirmed
  | expired
  | locked
  deriving DecidableEq

inductive VerificationChannel where
  | email
  | sms
  deriving DecidableEq

inductive VerificationConfirmOutcome where
  | bound
  | alreadyBound
  | anchorContradiction
  | unbound
  deriving DecidableEq

structure VerificationRequest where
  id : Nat
  subjectId : Option Nat
  key : IdentifierKey
  channel : VerificationChannel
  codeSalt : JsString
  codeHash : JsString
  expiresAt : Nat
  attempts : Nat
  maxAttempts : Nat
  status : VerificationStatus
  confirmedAt : Option Nat
  outcome : Option VerificationConfirmOutcome
  requestedByReferenceId : Option Nat
  requestedByClientId : JsString
  portalSessionId : Option JsString
  deriving DecidableEq

/-! ### Disputes -/

inductive DisputeStatus where
  | opened
  | underReview
  | resolvedCorrected
  | resolvedUpheld
  | withdrawn
  | resolvedNoTransition
  deriving DecidableEq

/-- `DISPUTE_OPEN_STATUSES`. -/
def DisputeStatus.isOpen : DisputeStatus → Bool
  | .opened | .underReview => true
  | _ => false

inductive DisputeStatementAuthor where
  | talent
  | tenant
  deriving DecidableEq

inductive DisputeEventType where
  | opened
  | statementAdded
  | triaged
  | infoRequested
  | corrected
  | upheld
  | withdrawn
  | extended
  | noTransition
  deriving DecidableEq

structure AssertionDispute where
  id : Nat
  assertionId : Nat
  openedViaReferenceId : Nat
  status : DisputeStatus
  resolutionNote : Option JsString
  noTransitionReason : Option JsString
  openedAt : Nat
  triageDueAt : Nat
  summaryDueAt : Nat
  reinvestigationDueAt : Nat
  reinvestigationExtendedAt : Option Nat
  ccpaDueAt : Option Nat
  ccpaExtendedDueAt : Option Nat
  triagedAt : Option Nat
  resolvedAt : Option Nat
  withdrawnAt : Option Nat
  deriving DecidableEq

structure AssertionDisputeStatement where
  id : Nat
  disputeId : Nat
  author : DisputeStatementAuthor
  statement : JsString
  statementHash : JsString
  channel : JsString
  deriving DecidableEq

structure AssertionDisputeEvent where
  id : Nat
  disputeId : Nat
  eventType : DisputeEventType
  fromStatus : Option DisputeStatus
  toStatus : Option DisputeStatus
  actor : JsString
  tenant : Option TenantKey
  deriving DecidableEq

/-! ## The database -/

structure GoldenDb where
  /-- Where the next id comes from. -/
  nextId : Nat
  subjects : List GoldenTalent
  references : List ExternalTalentReference
  identifiers : List SubjectIdentifier
  assertions : List Assertion
  assertionEvents : List AssertionEvent
  assertionLinks : List AssertionLink
  artifacts : List EvidenceArtifact
  supports : List ArtifactSupport
  policies : List DocumentTypePolicy
  conflicts : List IdentityConflict
  mergeSplits : List MergeSplitEvent
  inbox : List IntelligenceInbox
  verifications : List VerificationRequest
  entitlements : List EntitledTenant
  disputes : List AssertionDispute
  statements : List AssertionDisputeStatement
  disputeEvents : List AssertionDisputeEvent

/-- The empty database. -/
def GoldenDb.empty : GoldenDb :=
  ⟨0, [], [], [], [], [], [], [], [], [], [], [], [], [], [], [], [], []⟩

/-- What a service refuses with. -/
inductive GoldenError where
  | referenceErased (referenceId : Nat)
  | eventIdReused (eventId : JsString)
  | sourceSystemMismatch
  | govIdTokenizationUnavailable
  | subjectNotFound (id : Nat)
  | mergeChain (id : Nat)
  | mergeSplit (reason : JsString)
  | verificationRefused (code : JsString) (attemptsRemaining : Option Nat)
  | lifecycleRefused (code : JsString)
  deriving DecidableEq

end AramoPlatform.Intelligence
