import AramoPlatform.Intelligence.IdentityResolution
import AramoPlatform.Js.Date

/-!
# What a snapshot says

A validated ingest request, the identity input that is read from it and the
assertion drafts of the snapshot, each under the hash of its content.
-/

namespace AramoPlatform.Intelligence

open Js Lib

/-! ## The request -/

/-- What the sender says about the verification of an identifier. -/
structure WireVerification where
  verified : Bool
  method : Option JsString
  source : Option JsString
  verifiedAt : Option Nat
  deriving DecidableEq

structure IdentityContact where
  value : JsString
  isPrimary : Bool
  verification : Option WireVerification
  deriving DecidableEq

structure IdentityGovernmentId where
  value : JsString
  jurisdiction : JsString
  identifierClass : JsString
  verification : Option WireVerification
  deriving DecidableEq

structure TalentIngestIdentity where
  names : Option NameSnapshot
  emails : List IdentityContact
  phones : List IdentityContact
  governmentIds : List IdentityGovernmentId
  deriving DecidableEq

structure TalentIngestAssertion where
  assertionType : AssertionType
  payload : List (JsString × JsVal)
  sourceKind : SourceKind
  observedAt : Nat
  validFrom : Option Nat
  validTo : Option Nat
  aiDerived : Option Bool
  sourceDocumentHash : Option JsString

/-- A request that passed `validateTalentIngestRequest`: a full snapshot of one
source reference. -/
structure TalentIngestRequest where
  tuple : SourceTuple
  sourceEventId : JsString
  occurredAt : Nat
  identity : TalentIngestIdentity
  assertions : List TalentIngestAssertion

/-! ## The identity input -/

/-- `verificationOf`, on an identifier that starts out unverified. -/
def withVerification (v : Option WireVerification) (id : ResolutionIdentifier) :
    ResolutionIdentifier :=
  match v with
  | some w =>
      if w.verified then
        { id with
          verified := true
          verificationMethod := w.method
          verificationSource := w.source
          verifiedAt := w.verifiedAt }
      else id
  | none => id

/-- An identifier that no one verified. -/
def plainIdentifier (key : IdentifierKey) (isPrimary : Bool) : ResolutionIdentifier :=
  ⟨key, false, isPrimary, none, none, none, none, none⟩

/-- Government identifiers are tokenised here; without the key they are refused. -/
def govIdentifiers (host : Host) (tokenKey : Option JsString) :
    List IdentityGovernmentId → Except GoldenError (List ResolutionIdentifier)
  | [] => .ok []
  | g :: rest => do
      let key ← orThrow tokenKey .govIdTokenizationUnavailable
      let others ← govIdentifiers host tokenKey rest
      let token := govIdToken host key g.jurisdiction g.identifierClass g.value
      .ok (withVerification g.verification
        { plainIdentifier ⟨.govId, token⟩ false with
          jurisdiction := some (host.toUpperCase g.jurisdiction)
          identifierClass := some (host.toUpperCase g.identifierClass) } :: others)

def toResolutionInput (host : Host) (tokenKey : Option JsString) (req : TalentIngestRequest) :
    Except GoldenError ResolutionInput := do
  let emails := req.identity.emails.map fun e =>
    withVerification e.verification (plainIdentifier ⟨.email,
      normalizeEmail host e.value⟩ e.isPrimary)
  let phones := req.identity.phones.map fun p =>
    withVerification p.verification (plainIdentifier ⟨.phone, normalizePhone p.value⟩ p.isPrimary)
  let governmentIds ← govIdentifiers host tokenKey req.identity.governmentIds
  .ok ⟨req.tuple, normalizeNames host req.identity.names, emails ++ phones ++ governmentIds⟩

/-! ## The drafts -/

mutual
def trimDeep : JsVal → JsVal
  | .str s => .str (trim s)
  | .arr elems => .arr (trimElems elems)
  | .obj members => .obj ((ownKeys (trimMembers members)).foldl assign [])
  | v => v
termination_by structural v => v

def trimElems : List JsVal → List JsVal
  | [] => []
  | v :: rest => trimDeep v :: trimElems rest
termination_by structural l => l

def trimMembers : List (JsString × JsVal) → List (JsString × JsVal)
  | [] => []
  | (k, v) :: rest =>
      if v.isUndefined then trimMembers rest else (k, trimDeep v) :: trimMembers rest
termination_by structural l => l
end

/-- `trimDeep` on an object. -/
def trimObject (members : List (JsString × JsVal)) : List (JsString × JsVal) :=
  (ownKeys (trimMembers members)).foldl assign []

def AssertionType.text : AssertionType → JsString
  | .name => js "NAME"
  | .currentEmployer => js "CURRENT_EMPLOYER"
  | .title => js "TITLE"
  | .location => js "LOCATION"
  | .availability => js "AVAILABILITY"
  | .workAuthorization => js "WORK_AUTHORIZATION"
  | .workHistory => js "WORK_HISTORY"
  | .skill => js "SKILL"
  | .education => js "EDUCATION"
  | .certification => js "CERTIFICATION"
  | .project => js "PROJECT"
  | .publicProfileUrl => js "PUBLIC_PROFILE_URL"
  | .verificationOutcome => js "VERIFICATION_OUTCOME"

/-- `ASSERTION_ADMISSION_CLASS`. -/
def AssertionType.admissionClass : AssertionType → AdmissionClass
  | .name | .workAuthorization | .verificationOutcome => .b
  | _ => .a

/-- `SINGLE_VALUED_ASSERTION_TYPES`. -/
def AssertionType.singleValued : AssertionType → Bool
  | .name | .currentEmployer | .title | .location | .availability | .workAuthorization => true
  | _ => false

def SourceKind.text : SourceKind → JsString
  | .recruiter => js "RECRUITER"
  | .resumeDerived => js "RESUME_DERIVED"
  | .talentSelf => js "TALENT_SELF"
  | .tiAcquired => js "TI_ACQUIRED"
  | .verification => js "VERIFICATION"

def isAuthoritativeWorkAuthorization (sourceKind : SourceKind) (aiDerived : Bool) : Bool :=
  sourceKind != .resumeDerived && !aiDerived

/-- A draft without its hash. -/
structure DraftBase where
  assertionType : AssertionType
  payload : List (JsString × JsVal)
  sourceKind : SourceKind
  observedAt : Nat
  validFrom : Option Nat
  validTo : Option Nat
  aiDerived : Bool
  sourceDocumentHash : Option JsString

structure AssertionDraft extends DraftBase where
  admissionClass : AdmissionClass
  contentHash : JsString

/-- A date or `null`, as JSON. -/
def dateJs (d : Option Nat) : JsVal := (d.map fun t => JsVal.str (toISOString t)).getD .null

/-- `assertionContentHash`: what makes two assertions the same claim. The time
of observation is no part of it. -/
def assertionContentHash (host : Host) (d : DraftBase) : JsString :=
  host.sha256Hex (canonicalJson (.obj [
    (js "assertion_type", .str d.assertionType.text),
    (js "payload", .obj d.payload),
    (js "source_kind", .str d.sourceKind.text),
    (js "valid_from", dateJs d.validFrom),
    (js "valid_to", dateJs d.validTo),
    (js "ai_derived", .bool d.aiDerived),
    (js "source_document_hash", (d.sourceDocumentHash.map JsVal.str).getD .null)]))

def draft (host : Host) (base : DraftBase) : AssertionDraft :=
  { base with
    admissionClass := base.assertionType.admissionClass
    contentHash := assertionContentHash host base }

/-- The names of the identity block, as one assertion. -/
def nameDraft (host : Host) (req : TalentIngestRequest) : List AssertionDraft :=
  match req.identity.names with
  | some names =>
      if names.hasName then
        [draft host
          { assertionType := .name
            payload := match names.toJs with
              | .obj members => trimObject members
              | _ => []
            sourceKind := .recruiter, observedAt := req.occurredAt, validFrom := none
            validTo := none, aiDerived := false, sourceDocumentHash := none }]
      else []
  | none => []

/-- One assertion of the request. -/
def assertionDraft (host : Host) (a : TalentIngestAssertion) : AssertionDraft :=
  let ai := a.aiDerived.getD false
  let payload := trimObject a.payload
  draft host
    { assertionType := a.assertionType
      payload :=
        if a.assertionType = .workAuthorization then
          assign payload
            (js "authoritative", .bool (isAuthoritativeWorkAuthorization a.sourceKind ai))
        else payload
      sourceKind := a.sourceKind, observedAt := a.observedAt, validFrom := a.validFrom
      validTo := a.validTo, aiDerived := ai, sourceDocumentHash := a.sourceDocumentHash }

/-- The first draft of each content hash. -/
def firstOfHash (drafts : List AssertionDraft) : List AssertionDraft :=
  drafts.foldl
    (fun out d => if out.any (·.contentHash == d.contentHash) then out else out ++ [d]) []

/-- The assertion drafts of one snapshot. -/
def toAssertionDrafts (host : Host) (req : TalentIngestRequest) : List AssertionDraft :=
  firstOfHash (nameDraft host req ++ req.assertions.map (assertionDraft host))

end AramoPlatform.Intelligence
