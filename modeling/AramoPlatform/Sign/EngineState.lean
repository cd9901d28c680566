import AramoPlatform.Sign.FieldRules
import AramoPlatform.Sign.Payments
import AramoPlatform.Sign.Recipients
import Mathlib.Data.Nat.Digits.Lemmas

/-!
# The rows of one envelope

The state the signing engine works on: the envelope with its documents,
recipients, fields, sessions, disclosure acceptances, identity attempts,
inbox bindings, invitation intents and payments, and its event ledger. Rows
of other envelopes are never read or written by the operations modelled.

New ids come from a counter, since `randomUUID` never repeats and nothing
reads an order into row ids. Event ids do have an order, so they come from
an arbitrary sequence.
-/

namespace AramoPlatform.Sign

open Js Lib List

/-! ## Event payloads -/

/-- A value of a payload. `typed` is a text that a sender, a recipient or an
administrator entered; the others are ids, hashes, references, enumerations,
counts and flags. -/
inductive PayloadValue where
  | typed (s : JsString)
  | text (s : JsString)
  | num (n : Nat)
  | flag (b : Bool)
  | null
  | texts (l : List JsString)
  deriving DecidableEq

/-- The object an operation records with an event. -/
structure Payload where
  members : List (JsString × PayloadValue)
  nodup : (members.map Prod.fst).Nodup := by simp only [List.map_cons, List.map_nil]; decide

/-- The digits of a count, as `Number::toString` writes them. -/
def natNum (n : Nat) : JsNum where
  text := if n = 0 then [48] else (Nat.digits 10 n).reverse.map fun d => (48 + d).toUInt16
  nonempty := by
    split
    · simp
    · simp [Nat.digits_ne_nil_iff_ne_zero, *]
  numeric := by
    split
    · decide
    · simp only [all_map, all_reverse, all_eq_true, Function.comp_apply]
      intro d hd
      have hlt : d < 10 := Nat.digits_lt_base (by decide) hd
      interval_cases d <;> decide

def PayloadValue.json : PayloadValue → JsVal
  | typed s | text s => .str s
  | num n => .num (natNum n)
  | flag b => .bool b
  | null => .null
  | texts l => .arr (l.map .str)

theorem PayloadValue.wf_json (v : PayloadValue) : v.json.wf = true := by
  cases v with
  | texts l =>
    refine JsVal.wf_arr.mpr fun v hv => ?_
    obtain ⟨s, -, rfl⟩ := mem_map.mp hv
    rfl
  | _ => rfl

/-- The JSON of a payload; an event without one records `null`. -/
def payloadJson : Option Payload → JsValue
  | none => ⟨.undefined, rfl⟩
  | some p => ⟨.obj (p.members.map fun m => (m.1, m.2.json)), by
      refine JsVal.wf_obj.mpr ⟨by simpa [Function.comp_def] using p.nodup, fun m hm => ?_⟩
      obtain ⟨m', -, rfl⟩ := mem_map.mp hm
      exact m'.2.wf_json⟩

/-! ## Rows -/

inductive EnvelopeMode where
  | standard
  | self
  deriving DecidableEq

structure EnvelopeRow where
  status : EnvelopeStatus
  routingMode : RoutingMode
  envelopeMode : EnvelopeMode
  allowDelegation : Bool
  subject : JsString
  message : Option JsString
  signerDateFormat : Option JsString
  sentAt : Option Nat
  completedAt : Option Nat
  declinedAt : Option Nat
  voidedAt : Option Nat
  expiresAt : Option Nat
  deletedAt : Option Nat

inductive SourceMode where
  | owned
  | coreRef
  deriving DecidableEq

structure DocumentRow where
  id : Uuid
  title : JsString
  ordinal : Nat
  sourceMode : SourceMode
  documentRef : Option Uuid
  documentRevisionRef : Option Uuid
  sourceObjectKey : Option JsString
  contentType : Option JsString

inductive SessionStatus where
  | issued
  | exchanged
  | active
  | completed
  | revoked
  | expired
  deriving DecidableEq

/-- `LIVE_SESSION_STATUSES`. -/
def SessionStatus.isLive : SessionStatus → Bool
  | issued | exchanged | active => true
  | completed | revoked | expired => false

inductive SessionOrigin where
  | link
  | inbox
  | hosted
  | self
  deriving DecidableEq

/-- A row of `SigningSession`. The token is not kept: it is what finds the
session, so a session is named by its id. -/
structure SigningSessionRow where
  id : Uuid
  signerId : Uuid
  status : SessionStatus
  createdAt : Nat
  expiresAt : Nat
  firstAccessedAt : Option Nat := none
  lastAccessedAt : Option Nat := none
  completedAt : Option Nat := none
  revokedAt : Option Nat := none
  origin : Option SessionOrigin
  hostUserId : Option Uuid := none
  authenticatedUserId : Option Uuid := none
  accessCodeVerifiedAt : Option Nat := none

structure AcceptanceRow where
  id : Uuid
  signerId : Uuid
  sessionId : Uuid
  disclosureVersion : JsString
  disclosureTextHash : JsString
  attestedName : Option JsString
  acceptedAt : Nat

inductive AttemptStatus where
  | pending
  | verified
  | failed
  | cancelled
  deriving DecidableEq

/-- A row of `SignRecipientIdentityVerification`. -/
structure IdentityAttemptRow where
  id : Uuid
  signerId : Uuid
  sessionId : Uuid
  method : IdentityVerificationMethod
  vendorReference : Option JsString
  status : AttemptStatus
  failureReason : Option JsString
  createdAt : Nat

structure BindingRow where
  id : Uuid
  signerId : Uuid
  userId : Uuid
  email : JsString
  claimSessionId : Option Uuid
  revokedAt : Option Nat

inductive DeliveryStatus where
  | pending
  | dispatching
  | sent
  | failed
  | cancelled
  deriving DecidableEq

/-- A `SIGNATURE_REQUEST` row of `NotificationDelivery`. -/
structure DeliveryRow where
  id : Uuid
  signerId : Option Uuid
  status : DeliveryStatus
  attempts : Nat
  claimedAt : Option Nat
  lastError : Option JsString

inductive QesState where
  | signed
  | unsigned
  deriving DecidableEq

structure QesRow where
  signerId : Uuid
  state : QesState

structure State where
  envelope : EnvelopeRow
  documents : List DocumentRow
  signers : List SignerRow
  fields : List FieldRow
  sessions : List SigningSessionRow
  acceptances : List AcceptanceRow
  attempts : List IdentityAttemptRow
  bindings : List BindingRow
  deliveries : List DeliveryRow
  qes : List QesRow
  payments : List SignPaymentRow
  refunds : List (Uuid × SignPaymentRefundRow)
  events : List (EventRow (Option Payload))
  clock : Nat
  nextId : Uuid

/-! ## What the engine asks of its surroundings -/

/-- The parts of the platform that the operations call and do not decide. -/
structure Deps where
  envelopeId : Uuid
  /-- The canonical text of a UUID. -/
  uuidText : Uuid → JsString
  /-- The ids `appendEvent` draws. -/
  eventId : Nat → Uuid
  /-- `createHash('sha256').update(s).digest('hex')`. -/
  sha256Hex : JsString → JsString
  toLowerCase : JsString → JsString
  toUpperCase : JsString → JsString
  /-- `verifyAccessCode`: the scrypt comparison with a stored hash. -/
  accessCodeMatches : JsString → JsString → Bool
  /-- The held disclosure versions with the sha256 of their text. -/
  disclosures : List (JsString × JsString)
  /-- `verifiedNameMatches` on the first and last name of a document. -/
  verifiedNameMatches : Option (JsString × JsString) → JsString → Bool
  /-- `IdentityVerificationPort.provider`. -/
  identityProvider : JsString
  /-- `idVerificationMaxAttempts()`. -/
  idVerificationMaxAttempts : Nat
  /-- `SIGN_ENVELOPE_TTL_DAYS`, in milliseconds. -/
  envelopeTtlMs : Nat

def signingSessionTtlMs : Nat := 7 * 24 * 60 * 60 * 1000

def hostedSessionTtlMs : Nat := 30 * 60 * 1000

def selfSignSessionTtlMs : Nat := 30 * 60 * 1000

def recipientSessionTtlMs : Nat := 30 * 60 * 1000

def maxAccessCodeAttempts : Nat := 5

structure SessionContext where
  sessionId : Uuid
  signerId : Uuid
  deriving DecidableEq

/-! ## Refusals -/

inductive DelegationRefusal where
  | delegationNotAllowed
  | notDelegableRecipient
  | alreadyDelegated
  | signerNotAwaiting
  | delegateEmailOnEnvelope
  | delegateInvalid
  deriving DecidableEq

inductive SessionIssueRefusal where
  | signerNotFound
  | envelopeNotSignable
  | notInPersonSigner
  | notBoundToYou
  | emailNotVerified
  | signerIneligible
  | notYourTurn
  deriving DecidableEq

inductive InboxSigningRefusal where
  | associationInactive
  | envelopeNotSignable
  | signerIneligible
  | notYourTurn
  | sessionRevoked
  | linkExpired
  deriving DecidableEq

inductive ReminderLimitReason where
  | cooldown
  | dailyLimit
  deriving DecidableEq

inductive IncompleteReason where
  | rule (reason : FieldRuleReason)
  | qesSignaturePending
  deriving DecidableEq

inductive EsignError where
  | envelopeNotFound
  | envelopeIllegalTransition (current : EnvelopeStatus) (target : JsString)
  | envelopeAlreadyExecuted (status : EnvelopeStatus)
  | signerNotFound (signerId : Uuid)
  | signingSessionInvalid (reason : JsString)
  | signingSessionExpired (sessionId : Uuid)
  | disclosureNotAccepted (signerId : Uuid)
  | disclosureVersionInvalid (version : JsString)
  | signatureFieldIncomplete (signerId : Uuid) (reason : IncompleteReason)
      (groupKey : Option JsString)
  | signatureFieldValueRefused (fieldId : Uuid) (reason : ValueRefusal)
  | reminderNotAllowed (reason : JsString)
  | reminderLimit (reason : ReminderLimitReason) (retryAt : Nat)
  | signerNotYetEligible (signerId : Uuid) (witness : Bool)
  | accessCodeRequired (signerId : Uuid) (attemptsRemaining : Option Nat)
  | accessCodeLocked (signerId : Uuid)
  | delegationRefused (reason : DelegationRefusal)
  | sessionIssueRefused (reason : SessionIssueRefusal)
  | inboxSigningRefused (reason : InboxSigningRefusal)
  | attestedNameRequired
  | identityVerificationRequired (signerId : Uuid) (method : IdentityVerificationMethod)
  | identityVerificationLocked (signerId : Uuid)
  | payment (error : SignPaymentStateError)
  /-- A row the database was asked for by its key is not there. -/
  | recordNotFound
  /-- A member of `undefined` was read. -/
  | typeError

/-! ## Writes -/

namespace State

@[simps] def setEnvelope (s : State) (e : EnvelopeRow) : State := { s with envelope := e }

@[simps] def updateSigner (s : State) (id : Uuid) (f : SignerRow → SignerRow) : State :=
  { s with signers := updateWhere (·.id == id) f s.signers }

@[simps] def updateFields (s : State) (p : FieldRow → Bool) (f : FieldRow → FieldRow) : State :=
  { s with fields := updateWhere p f s.fields }

@[simps] def updateSession (s : State) (id : Uuid) (f : SigningSessionRow → SigningSessionRow) :
    State :=
  { s with sessions := updateWhere (·.id == id) f s.sessions }

/-- Every live session that matches becomes `REVOKED`. -/
@[simps] def revokeSessions (s : State) (p : SigningSessionRow → Bool) (now : Nat) : State :=
  { s with
    sessions := updateWhere (fun x => x.status.isLive && p x)
      (fun x => { x with status := .revoked, revokedAt := some now }) s.sessions }

@[simps] def addAcceptance (s : State) (a : AcceptanceRow) : State :=
  { s with acceptances := s.acceptances ++ [a], nextId := s.nextId + 1 }

@[simps] def updateAttempt (s : State) (id : Uuid) (f : IdentityAttemptRow → IdentityAttemptRow) :
    State :=
  { s with attempts := updateWhere (·.id == id) f s.attempts }

@[simps] def addAttempt (s : State) (a : IdentityAttemptRow) : State :=
  { s with attempts := s.attempts ++ [a], nextId := s.nextId + 1 }

@[simps] def setBindings (s : State) (bindings : List BindingRow) : State :=
  { s with bindings := bindings, nextId := s.nextId + 1 }

@[simps] def updateDelivery (s : State) (id : Uuid) (f : DeliveryRow → DeliveryRow) : State :=
  { s with deliveries := updateWhere (·.id == id) f s.deliveries }

/-- The row of a new intent. -/
def newDelivery (s : State) (signerId : Uuid) : DeliveryRow :=
  { id := s.nextId, signerId := some signerId, status := .pending, attempts := 0,
    claimedAt := none, lastError := none }

@[simps] def addDelivery (s : State) (signerId : Uuid) : State :=
  { s with deliveries := s.deliveries ++ [s.newDelivery signerId], nextId := s.nextId + 1 }

@[simps] def updatePayment (s : State) (id : Uuid) (f : SignPaymentRow → SignPaymentRow) : State :=
  { s with payments := updateWhere (·.id == id) f s.payments }

@[simps] def addPayment (s : State) (p : SignPaymentRow) : State :=
  { s with payments := s.payments ++ [p], nextId := s.nextId + 1 }

@[simps] def setRefunds (s : State) (refunds : List (Uuid × SignPaymentRefundRow)) : State :=
  { s with refunds := refunds, nextId := s.nextId + 1 }

/-- The columns of a new session that its caller chooses. -/
structure NewSession where
  signerId : Uuid
  expiresAt : Nat
  origin : SessionOrigin
  hostUserId : Option Uuid := none
  authenticatedUserId : Option Uuid := none

/-- The row of a new session: `ISSUED`, and no access code entered. -/
def newSession (s : State) (n : NewSession) : SigningSessionRow :=
  { id := s.nextId, signerId := n.signerId, status := .issued, createdAt := s.clock,
    expiresAt := n.expiresAt, origin := some n.origin, hostUserId := n.hostUserId,
    authenticatedUserId := n.authenticatedUserId }

@[simps] def addSession (s : State) (n : NewSession) : State :=
  { s with sessions := s.sessions ++ [s.newSession n], nextId := s.nextId + 1 }

/-- `signingSession.create`: the recipient is there (foreign key). -/
def mintSession (s : State) (n : NewSession) : Except EsignError State := do
  require (s.signers.any (·.id == n.signerId)) .recordNotFound
  pure (s.addSession n)

def mintSessions (s : State) (new : List NewSession) : Except EsignError State :=
  new.foldlM mintSession s

@[simps] def appendEvent (deps : Deps) (s : State) (input : AppendEventInput (Option Payload)) :
    State :=
  { s with
    events := Sign.appendEvent deps.sha256Hex payloadJson (deps.uuidText deps.envelopeId)
      s.events input s.clock (deps.eventId s.events.length) }

end State

end AramoPlatform.Sign
