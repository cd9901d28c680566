import AramoPlatform.Intelligence.TalentIngest

/-!
# Identifier verification

A talent proves to hold an email or a phone with a one-time code. The code is
derived from a key and the request, the row stores only its digest. A confirmed
code binds the identifier to the talent's subject, unless it is bound already.
-/

namespace AramoPlatform.Intelligence

open Js Lib

/-! ## The code -/

def hexValue (u : UInt16) : Nat :=
  if isDigit u then u.toNat - 48 else u.toNat - 87

/-- `codeFor`: the first four bytes of the digest, modulo a million. -/
def codeFor (host : Host) (key : JsString) (verificationId : Nat) (salt : JsString) : JsString :=
  let mac := host.hmacSha256Hex key (idText verificationId ++ js ":" ++ salt)
  decimals 6 ((mac.take 8).foldl (fun n u => 16 * n + hexValue u) 0 % 1000000)

/-- `VerificationCodeService.hash`. -/
def codeHashOf (host : Host) (salt code : JsString) : JsString :=
  host.sha256Hex (salt ++ js ":" ++ code)

/-- `VerificationCodeService.matches`. -/
def codeMatches (host : Host) (request : VerificationRequest) (code : JsString) : Bool :=
  codeHashOf host request.codeSalt code == request.codeHash

/-- `VERIFICATION_TTL_SECONDS`, in milliseconds. -/
def verificationTtl : Nat := 600 * 1000

def verificationMaxAttempts : Nat := 5

/-! ## Statements -/

namespace GoldenDb

variable (db : GoldenDb)

def verification? (id : Nat) : Option VerificationRequest := db.verifications.find? (·.id == id)

/-- `listPending`: for a known subject only its own requests. -/
def pendingVerifications (key : IdentifierKey) (subjectId : Option Nat) :
    List VerificationRequest :=
  db.verifications.filter fun v =>
    v.status == .pending && v.key == key && subjectId.all fun s => v.subjectId == some s

def updateVerification (id : Nat) (f : VerificationRequest → VerificationRequest) : GoldenDb :=
  { db with verifications := updateWhere (·.id == id) f db.verifications }

def createVerification (row : VerificationRequest) : GoldenDb :=
  { db with
    nextId := db.nextId + 1
    verifications := db.verifications ++ [{ row with id := db.nextId }] }

/-- `listActiveByKey`. -/
def activeByKey (key : IdentifierKey) : List SubjectIdentifier :=
  db.identifiers.filter fun i => i.status == .active && i.key == key

end GoldenDb

def verificationRefused (code : String) : GoldenError := .verificationRefused (js code) none

/-! ## Whose identifier it is -/

/-- The surviving subjects, merged ones left out, of some rows. -/
def survivors (db : GoldenDb) : List SubjectIdentifier → Except GoldenError (List Nat)
  | [] => .ok []
  | row :: rest => do
      let s ← survivingSubject db row.subjectId
      let others ← survivors db rest
      .ok (if s.resolutionStatus = .merged then others else s.id :: others)

/-- `uniqueSubjectHolding`: the one surviving subject with an active row of the
key, whatever its verification. -/
def uniqueSubjectHolding (db : GoldenDb) (key : IdentifierKey) :
    Except GoldenError (Option Nat) := do
  let found ← survivors db (db.activeByKey key)
  .ok (match found.dedup with
    | [s] => some s
    | _ => none)

/-! ## Create -/

/-- How a request names the talent. -/
inductive VerificationSource where
  | sourceReference (tuple : SourceTuple)
  | portalContext (portalSessionId : JsString)
  deriving DecidableEq

structure CreateVerificationRequest where
  /-- An email or a phone, normalised. -/
  key : IdentifierKey
  source : VerificationSource
  deriving DecidableEq

/-- The subject and the reference that a request is for. -/
def verificationSubject (db : GoldenDb) (req : CreateVerificationRequest)
    (principal : IngestPrincipal) : Except GoldenError (Option Nat × Option Nat) :=
  match req.source with
  | .sourceReference tuple => do
      require (tuple.sourceSystemId = principal.sourceSystemId) .sourceSystemMismatch
      let ref ← orThrow (db.referenceByTuple? tuple) (verificationRefused "REFERENCE_NOT_FOUND")
      require (ref.status = .active) (verificationRefused "REFERENCE_NOT_FOUND")
      let subject ← survivingSubject db ref.subjectId
      .ok (some subject.id, some ref.id)
  | .portalContext _ => do
      let subject ← uniqueSubjectHolding db req.key
      .ok (subject, none)

def channelOf (key : IdentifierKey) : VerificationChannel :=
  if key.identifierType = .email then .email else .sms

/-- The row of a new request. -/
def newVerification (host : Host) (codeKey salt : JsString) (id : Nat)
    (req : CreateVerificationRequest) (principal : IngestPrincipal)
      (subjectId referenceId : Option Nat)
    (now : Nat) : VerificationRequest :=
  { id := id, subjectId := subjectId, key := req.key, channel := channelOf req.key
    codeSalt := salt, codeHash := codeHashOf host salt (codeFor host codeKey id salt)
    expiresAt := now + verificationTtl, attempts := 0, maxAttempts := verificationMaxAttempts
    status := .pending, confirmedAt := none, outcome := none
    requestedByReferenceId := referenceId, requestedByClientId := principal.clientId
    portalSessionId := match req.source with
      | .portalContext s => some s
      | .sourceReference _ => none }

/-- Expire the older requests, as they were listed. -/
def expireAll (db : GoldenDb) (prior : List VerificationRequest) : GoldenDb :=
  prior.foldl (fun db v => db.updateVerification v.id fun r => { r with status := .expired }) db

/-- `VerificationService.create`. -/
def createVerificationRequest (host : Host) (codeKey salt : JsString) (db : GoldenDb)
    (req : CreateVerificationRequest) (principal : IngestPrincipal) (now : Nat) :
    Except GoldenError (Nat × GoldenDb) := do
  let (subjectId, referenceId) ← verificationSubject db req principal
  let db₁ := expireAll db (db.pendingVerifications req.key subjectId)
  .ok (db₁.nextId, db₁.createVerification
    (newVerification host codeKey salt db₁.nextId req principal subjectId referenceId now))

/-! ## Confirm -/

/-- What a confirmation transaction answers. A refusal commits, too. -/
inductive ConfirmTx where
  | refused (code : JsString) (attemptsRemaining : Option Nat)
  | confirmed (outcome : VerificationConfirmOutcome) (subjectId : Option Nat) (key : IdentifierKey)
  deriving DecidableEq

def confirmRefused (code : String) (attemptsRemaining : Option Nat) : ConfirmTx :=
  .refused (js code) attemptsRemaining

/-- Open a contradiction unless the same one is open. -/
def openContradiction (host : Host) (db : GoldenDb) (subjectId : Nat) (others : List Nat)
    (key : IdentifierKey) : GoldenDb :=
  let related := uniq (others.filter (· ≠ subjectId))
  let signature := conflictSignature host .anchorContradiction related
    [(js "verified_anchor", .str key.text)]
  if (db.openConflictsOf subjectId).any (·.signature == signature) then db
  else db.createConflict subjectId .anchorContradiction related signature

/-- The surviving owners of the verified binding of a key. -/
def bindingOwners (db : GoldenDb) : List SubjectIdentifier → Except GoldenError (List Nat)
  | [] => .ok []
  | row :: rest => do
      let s ← survivingSubject db row.subjectId
      let others ← bindingOwners db rest
      .ok (s.id :: others)

def otpMethod (channel : VerificationChannel) : JsString :=
  if channel = .sms then js "SMS_OTP" else js "EMAIL_OTP"

/-- The row that a confirmation binds. -/
def boundIdentifier (req : VerificationRequest) (subjectId now : Nat) : SubjectIdentifier :=
  { id := 0, subjectId := subjectId, key := req.key, jurisdiction := none, identifierClass := none
    verificationStatus := .verified, verificationMethod := some (otpMethod req.channel)
    verificationSource := some (js "aramo-portal"), verifiedAt := some now, status := .active
    validFrom := now, validTo := none, isPrimary := false, sourceReferenceId := none }

/-- The assertion that records a confirmation; it names the identifier by its digest. -/
def outcomeAssertion (host : Host) (req : VerificationRequest) (subjectId now : Nat) : Assertion :=
  let base : DraftBase :=
    { assertionType := .verificationOutcome
      payload := [(js "target", .str req.key.identifierType.text),
        (js "result", .str (js "CONFIRMED")),
        (js "method", .str (otpMethod req.channel)), (js "verified_at", .str (toISOString now)),
        (js "identifier_digest", .str (host.sha256Hex req.key.text))]
      sourceKind := .verification, observedAt := now, validFrom := some now, validTo := none
      aiDerived := false, sourceDocumentHash := none }
  { id := 0, subjectId := subjectId, assertionType := base.assertionType, admissionClass := .b
    payload := base.payload, sourceReferenceId := none
    sourceSystemId := js "TALENT_INTELLIGENCE", sourceTenantId := none
    sourceKind := base.sourceKind, sourceEventId := idText req.id, verificationStatus := .verified
    observedAt := now, validFrom := base.validFrom, validTo := none, aiDerived := false
    contentHash := assertionContentHash host base, sourceDocumentHash := none
    currentStatus := .valid }

/-- Append the outcome assertion and its event. -/
def appendOutcome (host : Host) (db : GoldenDb) (req : VerificationRequest) (subjectId now : Nat) :
    GoldenDb :=
  (db.createAssertion (outcomeAssertion host req subjectId now)).appendEvent db.nextId .asserted
    none (some .valid) (js "verification:" ++ idText req.id)

/-- The outcome of a binding and its writes, for a known subject. -/
def bindTo (host : Host) (db : GoldenDb) (req : VerificationRequest) (subjectId : Nat)
    (owners : List Nat) (now : Nat) : VerificationConfirmOutcome × GoldenDb :=
  if owners.contains subjectId then (.alreadyBound, appendOutcome host db req subjectId now)
  else if owners ≠ [] then
    (.anchorContradiction, openContradiction host db subjectId owners req.key)
  else (.bound, appendOutcome host (db.createIdentifier (boundIdentifier req subjectId now)) req
    subjectId now)

/-- Close the request. -/
def closeConfirmed (db : GoldenDb) (req : VerificationRequest)
    (outcome : VerificationConfirmOutcome) (subjectId : Option Nat) (now : Nat) :
    ConfirmTx × GoldenDb :=
  (.confirmed outcome subjectId req.key, db.updateVerification req.id fun r =>
    { r with
      status := .confirmed
      confirmedAt := some now
      outcome := some outcome
      subjectId := subjectId.or r.subjectId })

/-- The subject that a confirmation binds. -/
def confirmSubject (db : GoldenDb) (req : VerificationRequest) : Except GoldenError (Option Nat) :=
  match req.subjectId with
  | some id => do
      let s ← survivingSubject db id
      .ok (some s.id)
  | none => uniqueSubjectHolding db req.key

/-- `bind`, once the subject is known. -/
def bindSubject (host : Host) (db : GoldenDb) (req : VerificationRequest) (now : Nat) :
    Option Nat → Except GoldenError (ConfirmTx × GoldenDb)
  | none => .ok (closeConfirmed db req .unbound none now)
  | some subjectId => do
      let owners ← bindingOwners db (db.activeVerified [req.key])
      let (outcome, db₁) := bindTo host db req subjectId owners now
      .ok (closeConfirmed db₁ req outcome (some subjectId) now)

/-- A wrong code counts; the last allowed one locks the request. -/
def countWrongCode (db : GoldenDb) (req : VerificationRequest) : ConfirmTx × GoldenDb :=
  let attempts := req.attempts + 1
  if req.maxAttempts ≤ attempts then
    (confirmRefused "VERIFICATION_LOCKED" (some 0),
      db.updateVerification req.id fun r => { r with attempts := attempts, status := .locked })
  else
    (confirmRefused "INVALID_CODE" (some (req.maxAttempts - attempts)),
      db.updateVerification req.id fun r => { r with attempts := attempts })

/-- A pending request meets a code. -/
def confirmPending (host : Host) (db : GoldenDb) (req : VerificationRequest) (code : JsString)
    (now : Nat) : Except GoldenError (ConfirmTx × GoldenDb) :=
  if req.expiresAt < now then
    .ok (confirmRefused "VERIFICATION_EXPIRED" none,
      db.updateVerification req.id fun r => { r with status := .expired })
  else if req.maxAttempts ≤ req.attempts then
    .ok (confirmRefused "VERIFICATION_LOCKED" (some 0),
      db.updateVerification req.id fun r => { r with status := .locked })
  else if !codeMatches host req code then .ok (countWrongCode db req)
  else do
    let subject ← confirmSubject db req
    bindSubject host db req now subject

/-- The transaction of `VerificationService.confirm`. -/
def confirmVerification (host : Host) (db : GoldenDb) (id : Nat) (code : JsString) (now : Nat) :
    Except GoldenError (ConfirmTx × GoldenDb) :=
  match db.verification? id with
  | none => .ok (confirmRefused "VERIFICATION_NOT_FOUND" none, db)
  | some req =>
      match req.status with
      | .confirmed => .ok (confirmRefused "ALREADY_CONFIRMED" none, db)
      | .locked => .ok (confirmRefused "VERIFICATION_LOCKED" (some 0), db)
      | .expired => .ok (confirmRefused "VERIFICATION_EXPIRED" none, db)
      | .pending => confirmPending host db req code now

/-! ## After a confirmation -/

/-- The subjects of refused verified claims on the key, each once, without the
confirmed subject. -/
def refusedClaimants (db : GoldenDb) (subjectId : Nat) (key : IdentifierKey) :
    Except GoldenError (List Nat) := do
  let found ← survivors db ((db.activeByKey key).filter fun row =>
    row.verificationStatus != .verified && row.verificationMethod.isSome &&
      row.sourceReferenceId.isSome)
  .ok ((found.filter (· ≠ subjectId)).reverse.dedup.reverse)

/-- Every active reference of the subject vouches for the key as verified. -/
def allVouch (db : GoldenDb) (key : IdentifierKey) (subjectId : Nat) : Bool :=
  let refs := (db.referencesOf subjectId).filter (·.status == .active)
  !refs.isEmpty && refs.all fun r => r.lastIdentitySnapshot.verified.contains key

/-- The first transaction of `relink`: the subjects to merge, and a contradiction
for those that vouch only partly. -/
def relink (host : Host) (db : GoldenDb) (subjectId : Nat) (key : IdentifierKey) :
    Except GoldenError (List Nat × GoldenDb) := do
  let others ← refusedClaimants db subjectId key
  let merge := others.filter (allVouch db key)
  let part := others.filter fun s => !allVouch db key s
  .ok (merge, if part = [] then db else openContradiction host db subjectId part key)

end AramoPlatform.Intelligence
