import AramoPlatform.Sign.EngineState

/-!
# Guards of the signing engine

The checks every signer operation runs inside its transaction, under the
envelope row lock, and the transition of the envelope status. Each reads the
state its transaction sees; `clock` is the time `Date.now()` gives there.
-/

namespace AramoPlatform.Sign

open Js Lib

/-! ## Ledger events -/

inductive LedgerEvent where
  | envelopeCreated
  | envelopeSent
  | envelopeInProgress
  | envelopeCompleted
  | envelopeDeclined
  | envelopeVoided
  | envelopeExpired
  | copyDeliveryIssued
  | sessionExchanged
  | disclosureAccepted
  | accessCodeVerified
  | accessCodeFailed
  | accessCodeLocked
  | signerDelegated
  | signerSigned
  | witnessAttested
  | hostedSessionStarted
  | selfSignSessionIssued
  | signatureReminderSent
  | recipientInboxSessionIssued
  | identityVerificationStarted
  | identityVerified
  | identityVerificationFailed
  | identityVerificationCancelled
  | identityVerificationLocked
  | paymentCheckoutStarted
  | paymentSucceeded
  | paymentFailed
  | paymentRefundRequested
  | paymentRefunded
  | paymentRefundFailed
  | documentAttached
  | documentRemoved
  | envelopePurgeQueued
  | envelopePurgeDequeued
  | envelopePurged
  deriving DecidableEq

def LedgerEvent.text : LedgerEvent → JsString
  | envelopeCreated => js "ENVELOPE_CREATED"
  | envelopeSent => js "ENVELOPE_SENT"
  | envelopeInProgress => js "ENVELOPE_IN_PROGRESS"
  | envelopeCompleted => js "ENVELOPE_COMPLETED"
  | envelopeDeclined => js "ENVELOPE_DECLINED"
  | envelopeVoided => js "ENVELOPE_VOIDED"
  | envelopeExpired => js "ENVELOPE_EXPIRED"
  | copyDeliveryIssued => js "COPY_DELIVERY_ISSUED"
  | sessionExchanged => js "SESSION_EXCHANGED"
  | disclosureAccepted => js "DISCLOSURE_ACCEPTED"
  | accessCodeVerified => js "ACCESS_CODE_VERIFIED"
  | accessCodeFailed => js "ACCESS_CODE_FAILED"
  | accessCodeLocked => js "ACCESS_CODE_LOCKED"
  | signerDelegated => js "SIGNER_DELEGATED"
  | signerSigned => js "SIGNER_SIGNED"
  | witnessAttested => js "WITNESS_ATTESTED"
  | hostedSessionStarted => js "HOSTED_SESSION_STARTED"
  | selfSignSessionIssued => js "SELF_SIGN_SESSION_ISSUED"
  | signatureReminderSent => js "SIGNATURE_REMINDER_SENT"
  | recipientInboxSessionIssued => js "RECIPIENT_INBOX_SESSION_ISSUED"
  | identityVerificationStarted => js "IDENTITY_VERIFICATION_STARTED"
  | identityVerified => js "IDENTITY_VERIFIED"
  | identityVerificationFailed => js "IDENTITY_VERIFICATION_FAILED"
  | identityVerificationCancelled => js "IDENTITY_VERIFICATION_CANCELLED"
  | identityVerificationLocked => js "IDENTITY_VERIFICATION_LOCKED"
  | paymentCheckoutStarted => js "PAYMENT_CHECKOUT_STARTED"
  | paymentSucceeded => js "PAYMENT_SUCCEEDED"
  | paymentFailed => js "PAYMENT_FAILED"
  | paymentRefundRequested => js "PAYMENT_REFUND_REQUESTED"
  | paymentRefunded => js "PAYMENT_REFUNDED"
  | paymentRefundFailed => js "PAYMENT_REFUND_FAILED"
  | documentAttached => js "DOCUMENT_ATTACHED"
  | documentRemoved => js "DOCUMENT_REMOVED"
  | envelopePurgeQueued => js "ENVELOPE_PURGE_QUEUED"
  | envelopePurgeDequeued => js "ENVELOPE_PURGE_DEQUEUED"
  | envelopePurged => js "ENVELOPE_PURGED"

theorem LedgerEvent.eq_signerSigned {e : LedgerEvent} (h : e.text = signerSigned.text) :
    e = signerSigned := by
  cases e <;> first | rfl | exact absurd h (by decide)

theorem LedgerEvent.eq_signatureReminderSent {e : LedgerEvent}
    (h : e.text = signatureReminderSent.text) : e = signatureReminderSent := by
  cases e <;> first | rfl | exact absurd h (by decide)

section

variable (deps : Deps)

/-- An event of a recipient's own act. -/
def signerEvent (event : LedgerEvent) (signerId : Uuid) (payload : Option Payload) :
    AppendEventInput (Option Payload) :=
  { signerId := some signerId, eventType := event.text, actorType := js "SIGNER",
    actorRef := some (deps.uuidText signerId), payload := payload }

/-- An event of the platform, for a recipient or for the whole envelope. -/
def serviceEvent (event : LedgerEvent) (signerId : Option Uuid) (actorRef : Option JsString)
    (payload : Option Payload) : AppendEventInput (Option Payload) :=
  { signerId := signerId, eventType := event.text, actorType := js "SERVICE",
    actorRef := actorRef, payload := payload }

/-- An event recorded on a provider's report. -/
def systemEvent (event : LedgerEvent) (signerId : Option Uuid) (payload : Option Payload) :
    AppendEventInput (Option Payload) :=
  { signerId := signerId, eventType := event.text, actorType := js "SYSTEM", actorRef := none,
    payload := payload }

end

/-! ## The envelope -/

def lockSignableEnvelope (s : State) : Except EsignError EnvelopeStatus :=
  if s.envelope.status.isSignable then .ok s.envelope.status
  else if s.envelope.status.isTerminal then .error (.envelopeAlreadyExecuted s.envelope.status)
  else .error (.envelopeIllegalTransition s.envelope.status (js "SIGN"))

inductive TimestampField where
  | sentAt
  | completedAt
  | declinedAt
  | voidedAt
  deriving DecidableEq

def EnvelopeRow.stamp (e : EnvelopeRow) (now : Nat) : Option TimestampField → EnvelopeRow
  | none => e
  | some .sentAt => { e with sentAt := some now }
  | some .completedAt => { e with completedAt := some now }
  | some .declinedAt => { e with declinedAt := some now }
  | some .voidedAt => { e with voidedAt := some now }

structure TransitionEnvelopeInput where
  target : EnvelopeStatus
  event : AppendEventInput (Option Payload)
  timestampField : Option TimestampField := none

/-- `EsignRepository.transitionEnvelopeIn`: the compare-and-set against the
predecessors of the target, the revocation of every live session when the
target is terminal, and the event. -/
def transitionEnvelopeIn (deps : Deps) (s : State) (input : TransitionEnvelopeInput) :
    Except EsignError State := do
  require ((EnvelopeStatus.predecessorsOf input.target).contains s.envelope.status)
    (.envelopeIllegalTransition s.envelope.status input.target.text)
  let moved := s.setEnvelope
    ({ s.envelope with status := input.target }.stamp s.clock input.timestampField)
  let revoked :=
    if input.target.isTerminal then moved.revokeSessions (fun _ => true) s.clock else moved
  pure (revoked.appendEvent deps input.event)

/-! ## The session and its recipient -/

def State.signer? (s : State) (id : Uuid) : Option SignerRow := s.signers.find? (·.id == id)

theorem signer?_of_mem {s : State} {r : SignerRow} (hids : (s.signers.map (·.id)).Nodup)
    (hr : r ∈ s.signers) : s.signer? r.id = some r :=
  find?_key_eq_some hids hr

/-- The session still carries signing authority. -/
def assertLiveSession (s : State) (ctx : SessionContext) : Except EsignError SigningSessionRow := do
  let session ← orThrow
    (s.sessions.find? fun x => x.id == ctx.sessionId && x.signerId == ctx.signerId)
    (.signingSessionInvalid (js "unknown session"))
  require (session.status.isLive && !(session.expiresAt < s.clock))
    (.signingSessionExpired ctx.sessionId)
  pure session

/-- The signer a witness attests for has signed. -/
def witnessedHasSigned (s : State) (r : SignerRow) : Bool :=
  (r.witnessForSignerId.bind s.signer?).any (·.status == .signed)

/-- A witness acts after the signer it witnesses; in a sequential envelope a
signer acts only on their turn. -/
def assertEligible (s : State) (signerId : Uuid) : Except EsignError Unit := do
  require ((s.signer? signerId).all fun r => !isWitness r || witnessedHasSigned s r)
    (.signerNotYetEligible signerId true)
  require (s.envelope.routingMode != .sequential ||
      currentTurnSignerId s.signers == some signerId)
    (.signerNotYetEligible signerId false)

/-- After a delegation only acceptances from then on count. -/
def hasAcceptedDisclosure (s : State) (signerId : Uuid) : Bool :=
  let since := (s.signer? signerId).bind (·.delegatedAt)
  s.acceptances.any fun a => a.signerId == signerId && since.all (· ≤ a.acceptedAt)

def assertAccessCodeCleared (s : State) (ctx : SessionContext) : Except EsignError Unit :=
  match (s.signer? ctx.signerId).filter (·.accessCodeHash.isSome) with
  | none => .ok ()
  | some signer => do
    require signer.accessCodeLockedAt.isNone (.accessCodeLocked ctx.signerId)
    require ((s.sessions.find? (·.id == ctx.sessionId)).any (·.accessCodeVerifiedAt.isSome))
      (.accessCodeRequired ctx.signerId none)

/-- A recipient with a verification method holds a `VERIFIED` attempt for it. -/
def assertIdentityVerificationCleared (s : State) (signerId : Uuid) : Except EsignError Unit :=
  match s.signer? signerId with
  | none => .ok ()
  | some signer =>
    match signer.identityVerificationMethod with
    | none => .ok ()
    | some method => do
      require signer.identityVerificationLockedAt.isNone (.identityVerificationLocked signerId)
      require (s.attempts.any fun a =>
          a.signerId == signerId && a.method == method && a.status == .verified)
        (.identityVerificationRequired signerId method)

/-- The gates of `fillField`, `completeSigner` and the document reads, past
the session: turn, access code, disclosure and identity. -/
def assertMaySign (s : State) (ctx : SessionContext) : Except EsignError Unit := do
  assertEligible s ctx.signerId
  assertAccessCodeCleared s ctx
  require (hasAcceptedDisclosure s ctx.signerId) (.disclosureNotAccepted ctx.signerId)
  assertIdentityVerificationCleared s ctx.signerId

/-! ## What the guards establish -/

section Inversion

variable {deps : Deps} {s t : State} {ctx : SessionContext}

theorem lockSignableEnvelope_ok {status : EnvelopeStatus}
    (h : lockSignableEnvelope s = .ok status) :
    s.envelope.status.isSignable = true ∧ status = s.envelope.status := by
  unfold lockSignableEnvelope at h
  split at h
  · exact ⟨‹_›, by simpa using h.symm⟩
  · split at h <;> simp at h

theorem assertLiveSession_ok {session : SigningSessionRow}
    (h : assertLiveSession s ctx = .ok session) :
    session ∈ s.sessions ∧ session.id = ctx.sessionId ∧ session.signerId = ctx.signerId ∧
      session.status.isLive = true ∧ s.clock ≤ session.expiresAt := by
  simp only [assertLiveSession, bind_eq_ok, orThrow_eq_ok, require_eq_ok, pure_eq_ok] at h
  obtain ⟨x, hfind, -, hlive, rfl⟩ := h
  have hid := List.find?_some hfind
  simp only [Bool.and_eq_true, beq_iff_eq, Bool.not_eq_true', decide_eq_false_iff_not,
    Nat.not_lt] at hid hlive
  exact ⟨List.mem_of_find?_eq_some hfind, hid.1, hid.2, hlive.1, hlive.2⟩

theorem assertEligible_turn {signerId : Uuid} {u : Unit} (h : assertEligible s signerId = .ok u)
    (hseq : s.envelope.routingMode = .sequential) :
    currentTurnSignerId s.signers = some signerId := by
  simp only [assertEligible, bind_eq_ok, require_eq_ok] at h
  obtain ⟨-, -, hturn⟩ := h
  simpa [hseq] using hturn

theorem transitionEnvelopeIn_ok {input : TransitionEnvelopeInput}
    (h : transitionEnvelopeIn deps s input = .ok t) :
    s.envelope.status ∈ EnvelopeStatus.predecessorsOf input.target ∧
      t = ((if input.target.isTerminal then
          (s.setEnvelope ({ s.envelope with status := input.target }.stamp s.clock
            input.timestampField)).revokeSessions (fun _ => true) s.clock
        else s.setEnvelope ({ s.envelope with status := input.target }.stamp s.clock
          input.timestampField)).appendEvent deps input.event) := by
  simp only [transitionEnvelopeIn, bind_eq_ok, require_eq_ok, pure_eq_ok, List.contains_iff_mem]
    at h
  obtain ⟨-, hmem, rfl⟩ := h
  exact ⟨hmem, rfl⟩

@[simp] theorem stamp_status (e : EnvelopeRow) (now : Nat) (field : Option TimestampField) :
    (e.stamp now field).status = e.status := by
  cases field with
  | none => rfl
  | some f => cases f <;> rfl

@[simp] theorem stamp_routingMode (e : EnvelopeRow) (now : Nat) (field : Option TimestampField) :
    (e.stamp now field).routingMode = e.routingMode := by
  cases field with
  | none => rfl
  | some f => cases f <;> rfl

end Inversion

end AramoPlatform.Sign
