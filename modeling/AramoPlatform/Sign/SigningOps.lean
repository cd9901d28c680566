import AramoPlatform.Sign.Guards

/-!
# Signing operations

`EsignService`: send, the token exchange, disclosure, access code,
delegation, filling, completion, decline, void and expiry. An operation is
its transaction: the guards in the source's order, then the writes. A
refusal rolls everything back, so it is an `.error` without a state; the two
operations that commit before they refuse return the committed state
together with the refusal. Raw tokens and the rows handed back to the caller
are left out.
-/

namespace AramoPlatform.Sign

open Js Lib

section

variable (deps : Deps)

/-- The committed state, with what the caller is then given. -/
abbrev Committed (α : Type) := State × Except EsignError α

/-- An event of the envelope as a whole. -/
def envelopeEvent (event : LedgerEvent) (actorType : JsString) (actorRef : Option JsString)
    (payload : Option Payload) : AppendEventInput (Option Payload) :=
  { signerId := none, eventType := event.text, actorType := actorType, actorRef := actorRef,
    payload := payload }

/-- The transition to `IN_PROGRESS` at a recipient's first activity. -/
def markInProgress (s : State) (signerId : Uuid) : Except EsignError State :=
  transitionEnvelopeIn deps s
    { target := .inProgress
      event := envelopeEvent .envelopeInProgress (js "SIGNER") (some (deps.uuidText signerId))
        none }

/-- `if (envelopeStatus === 'SENT')`: the first activity is recorded. -/
def startIfSent (s : State) (envelopeStatus : EnvelopeStatus) (signerId : Uuid) :
    Except EsignError State :=
  if envelopeStatus = .sent then markInProgress deps s signerId else pure s

/-! ## Send -/

/-- What `getEnvelopeFull` returns. -/
structure EnvelopeFull where
  envelope : EnvelopeRow
  documents : List (DocumentRow × List FieldRow)
  signers : List SignerRow

/-- `orderBy: { ordinal: 'asc' }`. -/
def ordinalLe (a b : DocumentRow) : Prop := a.ordinal ≤ b.ordinal

instance : DecidableRel ordinalLe := fun a b => inferInstanceAs (Decidable (a.ordinal ≤ b.ordinal))

def getEnvelopeFull (s : State) : EnvelopeFull where
  envelope := s.envelope
  documents := (s.documents.insertionSort ordinalLe).map fun d =>
    (d, s.fields.filter (·.envelopeDocumentId == d.id))
  signers := s.signers.insertionSort orderLe

/-- The `ENVELOPE_SENT` payload: the sender's message, when there is one. -/
def sentPayload (message : Option JsString) : Option Payload :=
  (message.filter (!·.isEmpty)).map fun text =>
    { members :=
        [(js "sender_message", .typed text),
          (js "sender_message_source", .text (js "SENDER_SUPPLIED"))] }

/-- The `COPY_DELIVERY_ISSUED` event of a copy recipient. -/
def copyIssuedEvent (actorRef : JsString) (cc : SignerRow) : AppendEventInput (Option Payload) :=
  serviceEvent .copyDeliveryIssued (some cc.id) (some actorRef) (some
    { members :=
        [(js "copy_delivery", cc.copyDelivery.elim .null fun d => .text d.text),
          (js "access_kind", .text (js "COPY_VIEW"))] })

/-- The sessions of a send: a self-signed envelope invites no one. -/
def sendInvitations (full : EnvelopeFull) (now : Nat) : List State.NewSession :=
  if full.envelope.envelopeMode = .self then []
  else (invitedAtSend full.envelope.routingMode full.signers).map fun r =>
    { signerId := r.id, expiresAt := now + signingSessionTtlMs, origin := .link }

/-- `send`. The recipients and documents in `full`, and `now`, are read before
the transaction, so they need not be those the transaction finds. -/
def send (s : State) (full : EnvelopeFull) (actorRef : JsString) (now : Nat) :
    Except EsignError State := do
  require (!(signingRecipients full.signers).isEmpty)
    (.signingSessionInvalid (js "envelope has no signers"))
  require (!full.documents.isEmpty) (.signingSessionInvalid (js "envelope has no documents"))
  let sent ← transitionEnvelopeIn deps s
    { target := .sent, timestampField := some .sentAt
      event := envelopeEvent .envelopeSent (js "SERVICE") (some actorRef)
        (sentPayload s.envelope.message) }
  let dated := sent.setEnvelope
    { sent.envelope with expiresAt := some (now + deps.envelopeTtlMs) }
  let invited ← dated.mintSessions (sendInvitations full now)
  pure ((copyRecipientsAtSend full.signers).foldl
    (fun s cc => s.appendEvent deps (copyIssuedEvent actorRef cc)) invited)

/-! ## Token exchange -/

/-- The session becomes `ACTIVE` and its recipient `VIEWED`. -/
def activate (s : State) (session : SigningSessionRow) : State :=
  ((s.updateSession session.id fun x =>
      { x with
        status := .active, firstAccessedAt := some (x.firstAccessedAt.getD s.clock)
        lastAccessedAt := some s.clock }).appendEvent deps
    (signerEvent deps .sessionExchanged session.signerId none)).updateSigner session.signerId
      fun r => if r.status.isAwaiting then
        { r with status := .viewed, viewedAt := some s.clock } else r

/-- `exchangeToken`, on the session the token finds. A session that is spent
or past its time is refused after the commit. -/
def exchangeToken (s : State) (sessionId : Uuid) :
    Except EsignError (Committed SessionContext) := do
  let session ← orThrow (s.sessions.find? (·.id == sessionId))
    (.signingSessionInvalid (js "unknown token"))
  let envelopeStatus ← lockSignableEnvelope s
  if !session.status.isLive then
    pure (s, .error (.signingSessionExpired sessionId))
  else if session.expiresAt < s.clock then
    pure (s.updateSession sessionId fun x => { x with status := .expired },
      .error (.signingSessionExpired sessionId))
  else do
    let ctx : SessionContext := ⟨sessionId, session.signerId⟩
    assertEligible s session.signerId
    assertAccessCodeCleared s ctx
    let exchanged ← startIfSent deps (activate deps s session) envelopeStatus session.signerId
    pure (exchanged, .ok ctx)

/-! ## Disclosure and access code -/

/-- Where a request came from. -/
structure RequestMeta where
  ipAddress : Option JsString := none
  userAgent : Option JsString := none

def AppendEventInput.withMeta (input : AppendEventInput (Option Payload)) (info : RequestMeta) :
    AppendEventInput (Option Payload) :=
  { input with ipAddress := info.ipAddress, userAgent := info.userAgent }

structure AcceptDisclosureInput where
  disclosureVersion : JsString
  disclosureTextHash : JsString
  attestedName : Option JsString
  info : RequestMeta

/-- The name a hosted signer confirmed: trimmed, 1 to 200 characters. -/
def normalizeAttestedName (raw : Option JsString) : Option JsString :=
  (raw.map fun r => collapseSpaces (trim r)).filter fun name =>
    0 < name.length && name.length ≤ 200

def acceptedPayload (version : JsString) : Option JsString → Payload
  | none => { members := [(js "disclosure_version", .text version)] }
  | some attested =>
    { members :=
        [(js "disclosure_version", .text version), (js "session_origin", .text (js "HOSTED")),
          (js "attested_name_sha256", .text (deps.sha256Hex attested))] }

def acceptDisclosure (s : State) (ctx : SessionContext) (input : AcceptDisclosureInput) :
    Except EsignError State := do
  require (deps.disclosures.lookup input.disclosureVersion == some input.disclosureTextHash)
    (.disclosureVersionInvalid input.disclosureVersion)
  let _ ← lockSignableEnvelope s
  let live ← assertLiveSession s ctx
  assertEligible s ctx.signerId
  assertAccessCodeCleared s ctx
  let attested :=
    if live.origin = some .hosted then normalizeAttestedName input.attestedName else none
  require (live.origin != some .hosted || attested.isSome) .attestedNameRequired
  let accepted := s.addAcceptance
    { id := s.nextId, signerId := ctx.signerId, sessionId := ctx.sessionId
      disclosureVersion := input.disclosureVersion, disclosureTextHash := input.disclosureTextHash
      attestedName := attested, acceptedAt := s.clock }
  pure (accepted.appendEvent deps
    ((signerEvent deps .disclosureAccepted ctx.signerId
      (some (acceptedPayload deps input.disclosureVersion attested))).withMeta input.info))

/-- The payload of the access-code events; the code itself is never recorded. -/
def accessCodePayload (sessionId : Uuid) : Option Nat → Payload
  | none =>
    { members :=
        [(js "session_id", .text (deps.uuidText sessionId)),
          (js "verification_method", .text (js "ACCESS_CODE"))] }
  | some failed =>
    { members :=
        [(js "session_id", .text (deps.uuidText sessionId)), (js "failed_attempts", .num failed),
          (js "verification_method", .text (js "ACCESS_CODE"))] }

/-- `verifyRecipientAccessCode`, on the session the token finds. A wrong code
commits its count, and the fifth its lock, before the refusal. -/
def verifyRecipientAccessCode (s : State) (sessionId : Uuid) (entered : JsString)
    (info : RequestMeta) : Except EsignError (Committed Unit) := do
  let found ← orThrow (s.sessions.find? (·.id == sessionId))
    (.signingSessionInvalid (js "unknown token"))
  let ctx : SessionContext := ⟨sessionId, found.signerId⟩
  let _ ← lockSignableEnvelope s
  let _ ← assertLiveSession s ctx
  let signer ← orThrow (s.signer? ctx.signerId) .recordNotFound
  match signer.accessCodeHash with
  | none => pure (s, .ok ())
  | some hash =>
    if signer.accessCodeLockedAt.isSome then pure (s, .error (.accessCodeLocked ctx.signerId))
    else if deps.accessCodeMatches entered hash then
      let verified := (s.updateSession sessionId fun x =>
          { x with accessCodeVerifiedAt := some s.clock }).updateSigner ctx.signerId fun r =>
        { r with accessCodeFailedCount := 0 }
      pure (verified.appendEvent deps
        ((signerEvent deps .accessCodeVerified ctx.signerId
          (some (accessCodePayload deps sessionId none))).withMeta info), .ok ())
    else
      let failed := signer.accessCodeFailedCount + 1
      let payload := some (accessCodePayload deps sessionId (some failed))
      if failed ≥ maxAccessCodeAttempts then
        let locked := (s.updateSigner ctx.signerId fun r =>
            { r with
              accessCodeFailedCount := failed, accessCodeLockedAt := some s.clock }).appendEvent
          deps ((signerEvent deps .accessCodeLocked ctx.signerId payload).withMeta info)
        pure (locked.revokeSessions (·.signerId == ctx.signerId) s.clock,
          .error (.accessCodeLocked ctx.signerId))
      else
        let counted := (s.updateSigner ctx.signerId fun r =>
            { r with accessCodeFailedCount := failed }).appendEvent deps
          ((signerEvent deps .accessCodeFailed ctx.signerId payload).withMeta info)
        pure (counted,
          .error (.accessCodeRequired ctx.signerId (some (maxAccessCodeAttempts - failed))))

end

/-! ## Delegation -/

section

variable (deps : Deps)

/-- A `SIGNATURE_REQUEST` intent of the recipient is still open. -/
def hasOpenIntent (s : State) (signerId : Uuid) : Bool :=
  s.deliveries.any fun d =>
    d.signerId == some signerId && (d.status == .pending || d.status == .dispatching)

/-- Record the invitation as a durable intent, unless one is open. -/
def recordIntent (s : State) (signerId : Uuid) : State :=
  if hasOpenIntent s signerId then s else s.addDelivery signerId

structure DelegateInput where
  name : JsString
  email : JsString
  reason : Option JsString

def delegatedPayload (fromEmail toEmail : JsString) (sessionId : Uuid) :
    Option JsString → Payload
  | none =>
    { members :=
        [(js "from_email_sha256", .text (deps.sha256Hex (deps.toLowerCase (trim fromEmail)))),
          (js "to_email_sha256", .text (deps.sha256Hex (deps.toLowerCase toEmail))),
          (js "revoked_session_id", .text (deps.uuidText sessionId))] }
  | some reason =>
    { members :=
        [(js "from_email_sha256", .text (deps.sha256Hex (deps.toLowerCase (trim fromEmail)))),
          (js "to_email_sha256", .text (deps.sha256Hex (deps.toLowerCase toEmail))),
          (js "revoked_session_id", .text (deps.uuidText sessionId)),
          (js "reason", .typed reason)] }

/-- The writes of a delegation: the slot names the delegate, its fields are
cleared, its sessions and inbox bindings end, and an invitation is recorded. -/
def reassign (s : State) (ctx : SessionContext) (signer : SignerRow)
    (fromEmail name email : JsString)
    (reason : Option JsString) : State :=
  let renamed := s.updateSigner ctx.signerId fun r =>
    { r with
      name := name, email := some email, delegatedFromName := some signer.name
      delegatedFromEmail := some fromEmail, delegatedAt := some s.clock, boundUserId := none
      status := .pending, viewedAt := none }
  let cleared := renamed.updateFields (·.signerId == some ctx.signerId) fun f =>
    { f with value := none, signatureMethod := none, filledAt := none }
  let ended := cleared.revokeSessions (·.signerId == ctx.signerId) s.clock
  let unbound := ended.setBindings
    (updateWhere (fun b => b.signerId == ctx.signerId && b.revokedAt.isNone)
      (fun b => { b with revokedAt := some s.clock }) ended.bindings)
  recordIntent (unbound.appendEvent deps (signerEvent deps .signerDelegated ctx.signerId
    (some (delegatedPayload deps fromEmail email ctx.sessionId reason)))) ctx.signerId

def delegateSigner (s : State) (ctx : SessionContext) (input : DelegateInput) :
    Except EsignError State := do
  let name := collapseSpaces (trim input.name)
  let email := trim input.email
  require (0 < name.length && name.length ≤ 200 && isEmailShape email && email.length ≤ 254)
    (.delegationRefused .delegateInvalid)
  let reason := ((input.reason.map trim).filter (!·.isEmpty)).map (·.take 500)
  let _ ← lockSignableEnvelope s
  let _ ← assertLiveSession s ctx
  assertEligible s ctx.signerId
  assertAccessCodeCleared s ctx
  require s.envelope.allowDelegation (.delegationRefused .delegationNotAllowed)
  let signer ← orThrow (s.signer? ctx.signerId) .recordNotFound
  require (signer.recipientKind == .signer) (.delegationRefused .notDelegableRecipient)
  let fromEmail ← orThrow signer.email (.delegationRefused .notDelegableRecipient)
  require signer.delegatedAt.isNone (.delegationRefused .alreadyDelegated)
  require signer.status.isAwaiting (.delegationRefused .signerNotAwaiting)
  require (!s.signers.any fun r => r.email.any fun e =>
    deps.toLowerCase e == deps.toLowerCase email)
    (.delegationRefused .delegateEmailOnEnvelope)
  pure (reassign deps s ctx signer fromEmail name email reason)

end

/-! ## Filling and reading -/

structure FillInput where
  value : JsString
  signatureMethod : Option SignatureMethod

def fillField (s : State) (ctx : SessionContext) (fieldId : Uuid) (input : FillInput) :
    Except EsignError State := do
  let _ ← lockSignableEnvelope s
  let _ ← assertLiveSession s ctx
  assertMaySign s ctx
  let field ← orThrow
    (s.fields.find? fun f => f.id == fieldId && f.signerId == some ctx.signerId)
    (.signerNotFound ctx.signerId)
  require (!isServerFilledName field)
    (.signatureFieldValueRefused fieldId .signerProfileNameServerFilled)
  require (!isPaymentField field) (.signatureFieldValueRefused fieldId .paymentFieldServerFilled)
  require (!field.fieldType.isCheck || input.value == js "true" || input.value == js "false")
    (.signatureFieldValueRefused fieldId .checkboxValueInvalid)
  match profileTextValueRefusal field.fieldType input.value with
  | some refusal => throw (.signatureFieldValueRefused fieldId refusal)
  | none =>
    pure (s.updateFields (·.id == fieldId) fun f =>
      { f with
        value := some input.value, signatureMethod := input.signatureMethod
        filledAt := some s.clock })

/-- The name of a server-filled field: the attested name of the session, when
the port answers with one, else the recipient's name. -/
def profileNameFor (attested : Option JsString) (signerName : JsString) : JsString :=
  ((attested.map trim).filter (!·.isEmpty)).getD signerName

structure SignerFieldView where
  fieldId : Uuid
  documentId : Uuid
  fieldType : FieldType
  pageNumber : Nat
  x : Rat
  y : Rat
  width : Option Rat
  height : Option Rat
  required : Bool
  filled : Bool
  value : Option JsString
  label : Option JsString
  groupKey : Option JsString
  groupRule : Option CheckboxGroupRule
  minSelected : Option Nat
  nameMode : Option SignerNameMode
  serverFilled : Bool
  payment : Option (Nat × JsString)

structure SignerDocumentView where
  documents : List (Uuid × JsString × Nat)
  fields : List SignerFieldView
  message : Option JsString
  canDelegate : Bool
  dateFormat : Option JsString

/-- `a.page_number - b.page_number || a.y - b.y || a.x - b.x`. -/
def placeLe (a b : SignerFieldView) : Prop :=
  a.pageNumber < b.pageNumber ∨ a.pageNumber = b.pageNumber ∧ (a.y < b.y ∨ a.y = b.y ∧ a.x ≤ b.x)

instance : DecidableRel placeLe := fun a b =>
  inferInstanceAs (Decidable (a.pageNumber < b.pageNumber ∨ _))

def signerFieldView (ctx : SessionContext) (profileName : JsString) (d : DocumentRow)
    (f : FieldRow) : SignerFieldView :=
  let own := f.signerId == some ctx.signerId
  let serverFilled := own && (isServerFilledName f || isPaymentField f)
  let named := serverFilled && !isPaymentField f
  { fieldId := f.id, documentId := d.id, fieldType := f.fieldType, pageNumber := f.pageNumber,
    x := f.x, y := f.y, width := f.width, height := f.height, required := f.required,
    filled := named || f.filledAt.isSome,
    value := if named then some profileName else if own then f.value else none,
    label := f.label, groupKey := f.groupKey, groupRule := f.groupRule,
    minSelected := f.minSelected, nameMode := f.nameMode, serverFilled := serverFilled,
    payment :=
      if isPaymentField f then
        f.paymentAmountMinor.bind fun amount => f.paymentCurrency.map fun c => (amount, c)
      else none }

/-- `getSignerDocumentView`. `attested` is the answer of the attested-name
port. The session is not looked at again: the caller has resolved it. -/
def getSignerDocumentView (s : State) (ctx : SessionContext) (attested : Option JsString) :
    Except EsignError SignerDocumentView := do
  assertMaySign s ctx
  let full := getEnvelopeFull s
  let me := full.signers.find? (·.id == ctx.signerId)
  let profileName := profileNameFor attested ((me.map (·.name)).getD [])
  pure
    { documents := full.documents.map fun d => (d.1.id, d.1.title, d.1.ordinal)
      fields := (full.documents.flatMap fun d =>
        (d.2.filter fun f => f.signerId == some ctx.signerId || f.signerId == none).map
          (signerFieldView ctx profileName d.1)).insertionSort placeLe
      message := full.envelope.message
      canDelegate := full.envelope.allowDelegation && me.any fun r =>
        r.recipientKind == .signer && r.email.isSome && r.delegatedAt.isNone && r.status.isAwaiting
      dateFormat := full.envelope.signerDateFormat }

structure SignerSourceDescriptor where
  sourceMode : SourceMode
  documentRef : Option Uuid
  documentRevisionRef : Option Uuid
  sourceObjectKey : Option JsString
  contentType : JsString

def resolveSignerSource (s : State) (ctx : SessionContext) (documentId : Uuid) :
    Except EsignError SignerSourceDescriptor := do
  assertMaySign s ctx
  let doc ← orThrow (s.documents.find? (·.id == documentId))
    (.signingSessionInvalid (js "document not in session"))
  pure
    { sourceMode := doc.sourceMode, documentRef := doc.documentRef
      documentRevisionRef := doc.documentRevisionRef, sourceObjectKey := doc.sourceObjectKey
      contentType := doc.contentType.getD (js "application/pdf") }

/-! ## Completion -/

section

variable (deps : Deps)

def assertQesSatisfied (s : State) (signerId : Uuid) : Except EsignError Unit :=
  require ((s.qes.find? (·.signerId == signerId)).all (·.state == .signed))
    (.signatureFieldIncomplete signerId .qesSignaturePending none)

/-- The origin a hosted or self-signed act names in its payload. -/
def signedPayload (live : SigningSessionRow) : Option Payload :=
  match live.origin with
  | some .hosted => some
      { members :=
          [(js "session_origin", .text (js "HOSTED")),
            (js "host_user_id", live.hostUserId.elim .null fun u => .text (deps.uuidText u))] }
  | some .self => some
      { members :=
          [(js "session_origin", .text (js "SELF")),
            (js "authenticated_user_id",
              live.authenticatedUserId.elim .null fun u => .text (deps.uuidText u))] }
  | _ => none

/-- The rows of a completing signer: the server-filled names, the status, the
session, and `SIGNER_SIGNED` with the attestation of a witness. -/
def signRows (s : State) (ctx : SessionContext) (live : SigningSessionRow) (me : SignerRow)
    (profileName : JsString) : State :=
  let named := s.updateFields
    (fun f => f.signerId == some ctx.signerId && isServerFilledName f) fun f =>
      { f with value := some profileName, signatureMethod := none, filledAt := some s.clock }
  let signed := (named.updateSigner ctx.signerId fun r =>
      { r with status := .signed, signedAt := some s.clock }).updateSession ctx.sessionId fun x =>
    { x with status := .completed, completedAt := some s.clock }
  let recorded := signed.appendEvent deps
    (signerEvent deps .signerSigned ctx.signerId (signedPayload deps live))
  match me.witnessForSignerId with
  | some principal =>
    if isWitness me then
      recorded.appendEvent deps (signerEvent deps .witnessAttested ctx.signerId (some
        { members := [(js "witness_for_signer_id", .text (deps.uuidText principal))] }))
    else recorded
  | none => recorded

/-- The invitations a completion makes possible: the next signer in turn, or
the witnesses of the one who signed. -/
def inviteNext (s : State) (signerId : Uuid) : State :=
  match s.envelope.routingMode with
  | .sequential =>
    match (currentTurnOf s.signers).filter isLinkSigner with
    | some next => recordIntent s next.id
    | none => s
  | .parallel =>
    (pendingWitnessesOf s.signers signerId).foldl (fun s w => recordIntent s w.id) s

/-- The completion of the envelope, through `IN_PROGRESS`. -/
def completeEnvelope (s : State) (envelopeStatus : EnvelopeStatus) (signerId : Uuid) :
    Except EsignError State := do
  let started ← startIfSent deps s envelopeStatus signerId
  transitionEnvelopeIn deps started
    { target := .completed, timestampField := some .completedAt
      event := envelopeEvent .envelopeCompleted (js "SERVICE") none none }

/-- `completeSigner`, up to the executed documents produced after the commit.
`attested` is the answer of the attested-name port. -/
def completeSigner (s : State) (ctx : SessionContext) (attested : Option JsString) :
    Except EsignError State := do
  let envelopeStatus ← lockSignableEnvelope s
  let live ← assertLiveSession s ctx
  assertMaySign s ctx
  match evaluateSignerFieldRules (s.fields.filter (·.signerId == some ctx.signerId)) with
  | some v =>
    throw (.signatureFieldIncomplete ctx.signerId (.rule v.reason) v.groupKey)
  | none =>
    assertQesSatisfied s ctx.signerId
    let me ← orThrow (s.signer? ctx.signerId) .recordNotFound
    let signed := signRows deps s ctx live me (profileNameFor attested me.name)
    if allSigningRecipientsSigned signed.signers then
      completeEnvelope deps signed envelopeStatus ctx.signerId
    else pure (inviteNext signed ctx.signerId)

/-! ## Decline, void, expiry -/

def reasonPayload (reason : JsString) : Payload := { members := [(js "reason", .typed reason)] }

/-- A signer acting through their link declines only in a live session, on
their turn and past their access code. -/
def assertMayDecline (s : State) (signerId : Uuid) : Option Uuid → Except EsignError Unit
  | none => .ok ()
  | some sessionId => do
    let _ ← assertLiveSession s ⟨sessionId, signerId⟩
    assertEligible s signerId
    assertAccessCodeCleared s ⟨sessionId, signerId⟩

/-- `decline`. The signer surface passes its session; other callers do not,
and their signer id is written as it stands. -/
def decline (s : State) (signerId : Uuid) (reason : JsString) (sessionId : Option Uuid) :
    Except EsignError State := do
  require s.envelope.status.isSignable
    (.envelopeIllegalTransition s.envelope.status (js "DECLINED"))
  assertMayDecline s signerId sessionId
  transitionEnvelopeIn deps
    (s.updateSigner signerId fun r =>
      { r with status := .declined, declinedAt := some s.clock, declineReason := some reason })
    { target := .declined, timestampField := some .declinedAt
      event := envelopeEvent .envelopeDeclined (js "SIGNER") (some (deps.uuidText signerId))
        (some (reasonPayload reason)) }

def voidEnvelope (s : State) (actorRef reason : JsString) : Except EsignError State :=
  transitionEnvelopeIn deps s
    { target := .voided, timestampField := some .voidedAt
      event := envelopeEvent .envelopeVoided (js "SERVICE") (some actorRef)
        (some (reasonPayload reason)) }

def expireEnvelope (s : State) : Except EsignError State :=
  transitionEnvelopeIn deps s
    { target := .expired, event := envelopeEvent .envelopeExpired (js "SYSTEM") none none }

end

end AramoPlatform.Sign
