import AramoPlatform.Sign.SigningOps

/-!
# Issuing signing sessions

Every way a session comes into being after the send: hosted and self-signing
sessions, the two inbox mints, reminders, and the invitations dispatched
from recorded intents. `now` is the time the caller read before it waited
for the envelope lock, so it may lie before the `clock` of the transaction.
-/

namespace AramoPlatform.Sign

open Js Lib

section

variable (deps : Deps)

/-! ## Hosted and self-signing sessions -/

/-- A time bounded by the envelope's expiry. -/
def boundedBy (time : Nat) (expiresAt : Option Nat) : Nat := expiresAt.elim time (min time)

/-- The checks a hosted or self-sign session shares: the recipient and the
bounded expiry. -/
def lockForSessionIssue (s : State) (signerId : Uuid) (now ttlMs : Nat) :
    Except EsignError (SignerRow × Nat) := do
  let signer ← orThrow (s.signer? signerId) (.sessionIssueRefused .signerNotFound)
  require (s.envelope.status.isSignable && s.envelope.expiresAt.all (now < ·))
    (.sessionIssueRefused .envelopeNotSignable)
  require (signer.recipientKind != .receivesCopy && signer.status.isAwaiting)
    (.sessionIssueRefused .signerIneligible)
  require (s.envelope.routingMode != .sequential ||
      currentTurnSignerId s.signers == some signerId)
    (.sessionIssueRefused .notYourTurn)
  pure (signer, boundedBy (now + ttlMs) s.envelope.expiresAt)

def issuedPayload (sessionId signerId : Uuid) (origin : JsString) : Payload :=
  { members :=
      [(js "session_id", .text (deps.uuidText sessionId)),
        (js "signer_id", .text (deps.uuidText signerId)), (js "session_origin", .text origin)] }

def issueHostedSession (s : State) (signerId hostUserId : Uuid) (now : Nat) :
    Except EsignError State := do
  let (signer, expiresAt) ← lockForSessionIssue s signerId now hostedSessionTtlMs
  require (signer.recipientKind == .inPersonSigner) (.sessionIssueRefused .notInPersonSigner)
  let minted ← (s.revokeSessions (·.signerId == signerId) now).mintSession
    { signerId := signerId, expiresAt := expiresAt, origin := .hosted
      hostUserId := some hostUserId }
  pure (minted.appendEvent deps (serviceEvent .hostedSessionStarted (some signerId)
    (some (deps.uuidText hostUserId)) (some (issuedPayload deps s.nextId signerId (js "HOSTED")))))

/-- The recipient bound to the caller, the lowest signing order first. -/
def boundSigner (s : State) (userId : Uuid) (signerId : Option Uuid) : Option SignerRow :=
  ((s.signers.filter fun r =>
    r.boundUserId == some userId && isSigningRecipient r &&
      signerId.all (· == r.id)).insertionSort orderLe).head?

/-- `issueSelfSignSession`. The recipient's other sessions stay as they are. -/
def issueSelfSignSession (s : State) (userId : Uuid) (verifiedEmail : Option JsString)
    (signerId : Option Uuid) (now : Nat) : Except EsignError State := do
  let target ← orThrow (boundSigner s userId signerId) (.sessionIssueRefused .notBoundToYou)
  let (signer, expiresAt) ← lockForSessionIssue s target.id now selfSignSessionTtlMs
  let mine := (verifiedEmail.map fun e => deps.toLowerCase (trim e)).getD []
  require (!mine.isEmpty && signer.email.any fun e => deps.toLowerCase (trim e) == mine)
    (.sessionIssueRefused .emailNotVerified)
  let minted ← s.mintSession
    { signerId := signer.id, expiresAt := expiresAt, origin := .self
      authenticatedUserId := some userId }
  pure (minted.appendEvent deps (serviceEvent .selfSignSessionIssued (some signer.id)
    (some (deps.uuidText userId)) (some (issuedPayload deps s.nextId signer.id (js "SELF")))))

/-! ## The recipient inbox -/

/-- `RecipientInboxRepository.lockSignableEnvelope`. -/
def lockInboxEnvelope (s : State) (now : Nat) : Except EsignError Unit :=
  require (s.envelope.status.isSignable && s.envelope.deletedAt.isNone &&
      s.envelope.expiresAt.all (now < ·))
    (.inboxSigningRefused .envelopeNotSignable)

def assertTurn (s : State) (signer : SignerRow) : Except EsignError Unit := do
  require (s.envelope.routingMode != .sequential ||
      currentTurnSignerId s.signers == some signer.id)
    (.inboxSigningRefused .notYourTurn)
  require (!isWitness signer || witnessedHasSigned s signer) (.inboxSigningRefused .notYourTurn)

/-- The recipient is a link signer who has not finished, with this address. -/
def inboxEligible (signer : SignerRow) (email : JsString) : Bool :=
  isLinkSigner signer && signer.status.isAwaiting &&
    signer.email.any fun e => deps.toLowerCase (trim e) == email

/-- The emailed link behind the association must still be live. -/
def claimedLinkExpiry (s : State) (signerId : Uuid) (claimSessionId : Option Uuid) (now : Nat) :
    Except EsignError Nat :=
  match claimSessionId with
  | some id => do
    let link ← orThrow (s.sessions.find? fun x => x.id == id && x.signerId == signerId)
      (.inboxSigningRefused .sessionRevoked)
    require (link.status != .revoked) (.inboxSigningRefused .sessionRevoked)
    require (link.status != .expired && now < link.expiresAt) (.inboxSigningRefused .linkExpired)
    require link.status.isLive (.inboxSigningRefused .sessionRevoked)
    pure link.expiresAt
  | none => do
    let emailed := s.sessions.filter fun x =>
      x.signerId == signerId && x.status.isLive && decide (now < x.expiresAt) &&
        (x.origin == none || x.origin == some .link) &&
          decide (x.createdAt + recipientSessionTtlMs < x.expiresAt)
    require (!emailed.isEmpty) (.inboxSigningRefused .sessionRevoked)
    pure ((emailed.map (·.expiresAt)).foldl max 0)

inductive InboxClaim where
  | binding (id : Uuid)
  | discovery
  deriving DecidableEq

def inboxPayload (sessionId : Uuid) : InboxClaim → Payload
  | .binding id =>
    { members :=
        [(js "origin", .text (js "inbox")), (js "session_id", .text (deps.uuidText sessionId)),
          (js "binding_id", .text (deps.uuidText id))] }
  | .discovery =>
    { members :=
        [(js "origin", .text (js "inbox")), (js "session_id", .text (deps.uuidText sessionId)),
          (js "discovery", .text (js "verified_account_email"))] }

/-- `RecipientInboxRepository.mint`: never past the link or the envelope. -/
def mintInbox (s : State) (signerId : Uuid) (linkExpiry now : Nat) (claim : InboxClaim) :
    Except EsignError State := do
  let minted ← s.mintSession
    { signerId := signerId, origin := .inbox
      expiresAt := boundedBy (min (now + recipientSessionTtlMs) linkExpiry) s.envelope.expiresAt }
  pure (minted.appendEvent deps (signerEvent deps .recipientInboxSessionIssued signerId
    (some (inboxPayload deps s.nextId claim))))

/-- `issueRevalidatedRecipientSession`; a foreign or unknown binding mints
nothing. -/
def issueRevalidatedRecipientSession (s : State) (userId bindingId : Uuid) (now : Nat) :
    Except EsignError State := do
  let binding ← orThrow (s.bindings.find? fun b => b.id == bindingId && b.userId == userId)
    .recordNotFound
  require binding.revokedAt.isNone (.inboxSigningRefused .associationInactive)
  lockInboxEnvelope s now
  let signer ← orThrow (s.signer? binding.signerId) (.inboxSigningRefused .signerIneligible)
  require (inboxEligible deps signer (deps.toLowerCase (trim binding.email)))
    (.inboxSigningRefused .signerIneligible)
  assertTurn s signer
  let linkExpiry ← claimedLinkExpiry s binding.signerId binding.claimSessionId now
  mintInbox deps s signer.id linkExpiry now (.binding binding.id)

/-- The account email a user has proven, and since when. -/
structure VerifiedEmailProof where
  email : JsString
  provenAt : Nat

/-- `issueDiscoveredRecipientSession`; `proof` is what the identity tables
say of the user. -/
def issueDiscoveredRecipientSession (s : State) (userId signerId : Uuid)
    (proof : Option VerifiedEmailProof) (now : Nat) : Except EsignError State := do
  let signer ← orThrow (s.signer? signerId) (.inboxSigningRefused .signerIneligible)
  lockInboxEnvelope s now
  let proof ← orThrow proof (.inboxSigningRefused .associationInactive)
  require (s.envelope.sentAt.any (proof.provenAt ≤ ·)) (.inboxSigningRefused .associationInactive)
  require (!s.bindings.any fun b => b.signerId == signerId && b.userId == userId)
    (.inboxSigningRefused .associationInactive)
  require (inboxEligible deps signer proof.email) (.inboxSigningRefused .signerIneligible)
  assertTurn s signer
  let linkExpiry ← claimedLinkExpiry s signerId none now
  mintInbox deps s signer.id linkExpiry now .discovery

/-! ## Reminders -/

structure ReminderLimits where
  perSignerCooldownMs : Nat
  perEnvelopeWindowMs : Nat
  perEnvelopeMax : Nat
  deriving DecidableEq

structure ReminderHistoryEntry where
  occurredAt : Nat
  /-- The reminded signers; `none` counts against every signer. -/
  signerIds : Option (List JsString)

def signerIdsOf (payload : Option Payload) : Option (List JsString) :=
  match payload.bind (·.members.lookup (js "signer_ids")) with
  | some (.texts ids) => some ids
  | _ => none

/-- The reminders the ledger records, back to the longer of the two windows. -/
def reminderHistory (s : State) (now : Nat) (limits : ReminderLimits) :
    List ReminderHistoryEntry :=
  let window := max limits.perEnvelopeWindowMs limits.perSignerCooldownMs
  ((listEvents s.events).filter fun e =>
    e.eventType == LedgerEvent.signatureReminderSent.text &&
      decide (now < e.occurredAt + window)).map fun e => ⟨e.occurredAt, signerIdsOf e.payload⟩

/-- When this signer may next be reminded; `none` is now. -/
def nextReminderAt (history : List ReminderHistoryEntry) (signerId : JsString) (now : Nat)
    (limits : ReminderLimits) : Option Nat :=
  let last := ((history.filter fun h => h.signerIds.all (·.contains signerId)).map
    (·.occurredAt)).max?
  (last.map (· + limits.perSignerCooldownMs)).filter (now < ·)

/-- When the rolling window admits another reminder; `none` is now. A limit of
zero has no pivot. -/
def envelopeReminderAvailableAt (history : List ReminderHistoryEntry) (now : Nat)
    (limits : ReminderLimits) : Except EsignError (Option Nat) :=
  let inWindow := history.filter fun h => decide (now < h.occurredAt + limits.perEnvelopeWindowMs)
  if inWindow.length < limits.perEnvelopeMax then .ok none
  else (orThrow inWindow[inWindow.length - limits.perEnvelopeMax]? .typeError).map
    fun pivot => some (pivot.occurredAt + limits.perEnvelopeWindowMs)

/-- The targets a reminder may go to, unless a limit refuses the call. -/
def applyReminderLimits (history : List ReminderHistoryEntry) (targets : List SignerRow)
    (now : Nat) (limits : ReminderLimits) : Except EsignError (List SignerRow) :=
  let nextAt := fun r : SignerRow => nextReminderAt history (deps.uuidText r.id) now limits
  match envelopeReminderAvailableAt history now limits with
  | .error e => .error e
  | .ok (some retryAt) => .error (.reminderLimit .dailyLimit retryAt)
  | .ok none =>
    let allowed := targets.filter fun r => (nextAt r).isNone
    match if allowed.isEmpty then (targets.filterMap nextAt).min? else none with
    | some soonest => .error (.reminderLimit .cooldown soonest)
    | none => .ok allowed

/-- The recipients who may be reminded now, the lowest signing order first. -/
def remindable (s : State) (signerId : Option Uuid) : List SignerRow :=
  let incomplete := (s.signers.filter fun r =>
    r.status.isAwaiting && isSigningRecipient r).insertionSort orderLe
  let turn := if s.envelope.routingMode = .sequential then incomplete.take 1 else incomplete
  turn.filter fun r =>
    isLinkSigner r && witnessReady s.signers r && signerId.all (· == r.id)

/-- Revoke the recipient's live sessions, then mint one link. -/
def replaceLink (now : Nat) (s : State) (signerId : Uuid) : Except EsignError State :=
  (s.revokeSessions (·.signerId == signerId) now).mintSession
    { signerId := signerId, expiresAt := now + signingSessionTtlMs, origin := .link }

def remindSigner (s : State) (actorRef : JsString) (signerId : Option Uuid)
    (limits : Option ReminderLimits) (now : Nat) : Except EsignError State := do
  require s.envelope.status.isSignable
    (.reminderNotAllowed (js "envelope status " ++ s.envelope.status.text ++
      js " is not remindable"))
  require (s.signers.any fun r => r.status.isAwaiting && isSigningRecipient r)
    (.reminderNotAllowed (js "no incomplete signer to remind"))
  let eligible := remindable s signerId
  require (!eligible.isEmpty)
    (.reminderNotAllowed (if s.envelope.routingMode = .sequential then
        js "only the signer whose turn it is can be reminded"
      else js "that signer has already signed or is not on this envelope"))
  let targets ← match limits with
    | none => pure eligible
    | some limits =>
      applyReminderLimits deps (reminderHistory s now limits) eligible now limits
  let minted ← (targets.map (·.id)).foldlM (replaceLink now) s
  pure (minted.appendEvent deps (serviceEvent .signatureReminderSent none (some actorRef)
    (some { members := [(js "signer_ids", .texts (targets.map fun r => deps.uuidText r.id))] })))

end

/-! ## Invitations from recorded intents -/

/-- The claim of an intent: a compare-and-set on the status and the attempts
that the dispatcher read. A claim that is lost changes nothing. -/
def claimIntent (s : State) (intentId : Uuid) (status : DeliveryStatus) (attempts now : Nat) :
    State :=
  s.updateDelivery intentId fun d =>
    if d.status = status ∧ d.attempts = attempts then
      { d with status := .dispatching, claimedAt := some now, attempts := d.attempts + 1 }
    else d

/-- Why an intent is cancelled, or the recipient it invites. -/
def invitee (s : State) (signerId : Option Uuid) : Except JsString SignerRow := do
  require s.envelope.status.isSignable (js "envelope " ++ s.envelope.status.text)
  let id ← orThrow signerId (js "no signer")
  let signer ← orThrow ((s.signer? id).filter (·.status.isAwaiting))
    (js "signer no longer awaiting")
  require (isLinkSigner signer && signer.email.isSome) (js "recipient is not invited by email")
  require (!isWitness signer || witnessedHasSigned s signer)
    (js "witnessed signer has not signed")
  require (s.envelope.routingMode != .sequential ||
      currentTurnSignerId s.signers == some signer.id)
    (js "not this signer’s turn")
  pure signer

/-- The issuing transaction of `deliverOne`. A cancelled intent commits
nothing here; its row is written afterwards. -/
def issueInvitation (s : State) (signerId : Option Uuid) (now : Nat) : Except EsignError State :=
  match invitee s signerId with
  | .error _ => pure s
  | .ok signer => replaceLink now s signer.id

/-- The end of `deliverOne`: `SENT`, `FAILED` or `CANCELLED`, after the commit. -/
def finishIntent (s : State) (intentId : Uuid) (status : DeliveryStatus)
    (lastError : Option JsString) : State :=
  s.updateDelivery intentId fun d =>
    { d with status := status, lastError := lastError.map (·.take 500) }

end AramoPlatform.Sign
