import AramoPlatform.Sign.SideOps

/-!
# Runs of the signing engine

The engine of one envelope as a transition system: every operation is a
step, in any order, by any caller, at a time that never goes back. A refused
call leaves the state as it was, so the steps are the calls that commit.

`Effect` says once what a step can do to the rows that the invariants are
about; the ledger and the other tables are left open in it. `run_outcome`
shows that every operation does one of these things.
-/

namespace AramoPlatform.Sign

open Js Lib

/-! ## The operations -/

inductive Op where
  | send (full : EnvelopeFull) (actorRef : JsString) (now : Nat)
  | exchangeToken (sessionId : Uuid)
  | acceptDisclosure (ctx : SessionContext) (input : AcceptDisclosureInput)
  | verifyRecipientAccessCode (sessionId : Uuid) (entered : JsString) (info : RequestMeta)
  | delegateSigner (ctx : SessionContext) (input : DelegateInput)
  | fillField (ctx : SessionContext) (fieldId : Uuid) (input : FillInput)
  | completeSigner (ctx : SessionContext) (attested : Option JsString)
  | decline (signerId : Uuid) (reason : JsString) (sessionId : Option Uuid)
  | voidEnvelope (actorRef reason : JsString)
  | expireEnvelope
  | remindSigner (actorRef : JsString) (signerId : Option Uuid) (limits : Option ReminderLimits)
      (now : Nat)
  | issueHostedSession (signerId hostUserId : Uuid) (now : Nat)
  | issueSelfSignSession (userId : Uuid) (verifiedEmail : Option JsString)
      (signerId : Option Uuid) (now : Nat)
  | issueRevalidatedRecipientSession (userId bindingId : Uuid) (now : Nat)
  | issueDiscoveredRecipientSession (userId signerId : Uuid) (proof : Option VerifiedEmailProof)
      (now : Nat)
  | claimIntent (intentId : Uuid) (status : DeliveryStatus) (attempts now : Nat)
  | issueInvitation (signerId : Option Uuid) (now : Nat)
  | finishIntent (intentId : Uuid) (status : DeliveryStatus) (lastError : Option JsString)
  | startAttempt (ctx : SessionContext) (method : IdentityVerificationMethod)
  | recordVendorSession (attemptId : Uuid) (vendorReference : JsString) (attemptNumber : Nat)
      (info : RequestMeta)
  | cancelAttempt (attemptId : Uuid)
  | settleAttempt (attemptId : Uuid) (result : VendorResult)
  | preparePayment (input : PreparePaymentInput)
  | recordCheckoutStarted (paymentId : Uuid) (checkout : PaymentCheckoutState)
  | recordPaid (checkout : PaymentCheckoutState) (accountRef : Option JsString)
  | recordFailed (checkout : PaymentCheckoutState)
  | requestRefund (paymentId : Uuid) (input : RequestRefundInput)
  | applyRefundState (state : PaymentRefundState) (fallbackRefundId : Option Uuid)
  | refundRefused (refundId : Uuid) (reason : JsString)
  | applyChargeRefunds (charge : PaymentChargeState) (accountRef : Option JsString)
  | addDraftDocument (actorRef title : JsString) (source : DocumentSource)
  | removeDraftDocument (actorRef : JsString) (documentId : Uuid)
  | bind (input : BindInput)
  | revokeBinding (userId bindingId : Uuid)
  | setQes (signerId : Uuid) (state : QesState)

/-- The state an operation commits. -/
def Op.run (deps : Deps) (s : State) : Op → Except EsignError State
  | send full actorRef now => Sign.send deps s full actorRef now
  | exchangeToken id => (Sign.exchangeToken deps s id).map Prod.fst
  | acceptDisclosure ctx input => Sign.acceptDisclosure deps s ctx input
  | verifyRecipientAccessCode id entered info =>
    (Sign.verifyRecipientAccessCode deps s id entered info).map Prod.fst
  | delegateSigner ctx input => Sign.delegateSigner deps s ctx input
  | fillField ctx fieldId input => Sign.fillField s ctx fieldId input
  | completeSigner ctx attested => Sign.completeSigner deps s ctx attested
  | decline signerId reason sessionId => Sign.decline deps s signerId reason sessionId
  | voidEnvelope actorRef reason => Sign.voidEnvelope deps s actorRef reason
  | expireEnvelope => Sign.expireEnvelope deps s
  | remindSigner actorRef signerId limits now =>
    Sign.remindSigner deps s actorRef signerId limits now
  | issueHostedSession signerId host now => Sign.issueHostedSession deps s signerId host now
  | issueSelfSignSession userId email signerId now =>
    Sign.issueSelfSignSession deps s userId email signerId now
  | issueRevalidatedRecipientSession userId bindingId now =>
    Sign.issueRevalidatedRecipientSession deps s userId bindingId now
  | issueDiscoveredRecipientSession userId signerId proof now =>
    Sign.issueDiscoveredRecipientSession deps s userId signerId proof now
  | claimIntent id status attempts now => .ok (Sign.claimIntent s id status attempts now)
  | issueInvitation signerId now => Sign.issueInvitation s signerId now
  | finishIntent id status lastError => .ok (Sign.finishIntent s id status lastError)
  | startAttempt ctx method => Sign.startAttempt deps s ctx method
  | recordVendorSession id vendorReference n info =>
    Sign.recordVendorSession deps s id vendorReference n info
  | cancelAttempt id => .ok (Sign.cancelAttempt s id)
  | settleAttempt id result => Sign.settleAttempt deps s id result
  | preparePayment input => Sign.preparePayment s input
  | recordCheckoutStarted id checkout => Sign.recordCheckoutStarted deps s id checkout
  | recordPaid checkout accountRef => Sign.recordPaid deps s checkout accountRef
  | recordFailed checkout => .ok (Sign.recordFailed deps s checkout)
  | requestRefund id input => Sign.requestRefund deps s id input
  | applyRefundState state fallback => .ok (Sign.applyRefundState deps s state fallback)
  | refundRefused id reason => Sign.refundRefused deps s id reason
  | applyChargeRefunds charge accountRef => .ok (Sign.applyChargeRefunds s charge accountRef)
  | addDraftDocument actorRef title source => Sign.addDraftDocument deps s actorRef title source
  | removeDraftDocument actorRef id => Sign.removeDraftDocument deps s actorRef id
  | bind input => .ok (Sign.bind s input)
  | revokeBinding userId id => .ok (Sign.revokeBinding s userId id)
  | setQes signerId state => .ok (Sign.setQes s signerId state)

/-- An operation, at a time. -/
structure Call where
  time : Nat
  op : Op

def State.at (s : State) (time : Nat) : State := { s with clock := time }

def engineStep (deps : Deps) (s : State) (call : Call) (t : State) : Prop :=
  s.clock ≤ call.time ∧ call.op.run deps (s.at call.time) = .ok t

/-- A draft nobody has acted on. -/
structure Initial (s : State) : Prop where
  draft : s.envelope.status = .draft
  signerIds : (s.signers.map (·.id)).Nodup
  fieldIds : (s.fields.map (·.id)).Nodup
  pending : ∀ r ∈ s.signers, r.status = .pending
  undelegated : ∀ r ∈ s.signers, r.delegatedAt = none
  unfilled : ∀ f ∈ s.fields, f.filledAt = none
  noSessions : s.sessions = []
  noAcceptances : s.acceptances = []
  noAttempts : s.attempts = []
  noPayments : s.payments = []
  noRefunds : s.refunds = []

/-- The step a call computes. -/
def engineNext (deps : Deps) (s : State) (call : Call) : Option State :=
  if s.clock ≤ call.time then (call.op.run deps (s.at call.time)).toOption else none

theorem engineStep_of_next {deps : Deps} {s : State} {call : Call} {t : State}
    (h : engineNext deps s call = some t) : engineStep deps s call t := by
  unfold engineNext at h
  split at h
  · refine ⟨‹_›, ?_⟩
    cases hrun : call.op.run deps (s.at call.time) with
    | error e => simp [hrun, Except.toOption] at h
    | ok u => simpa [hrun, Except.toOption] using h
  · cases h

theorem engineRun_of_exec (deps : Deps) (s : State) (calls : List Call) (p : State → Bool)
    (h : (exec (engineNext deps) s calls).any p = true) :
    ∃ t, Run (engineStep deps) s calls t ∧ p t = true :=
  run_of_exec (fun _ _ _ => engineStep_of_next) h

/-! ## A draft to run -/

/-- Surroundings in which the texts of ids and hashes carry no information. -/
def plainDeps : Deps where
  envelopeId := 0
  uuidText := fun _ => []
  eventId := id
  sha256Hex := id
  toLowerCase := id
  toUpperCase := id
  accessCodeMatches := fun entered hash => entered == hash
  disclosures := [(js "2026-01", js "text-hash")]
  verifiedNameMatches := fun _ _ => true
  identityProvider := js "STRIPE"
  idVerificationMaxAttempts := 3
  envelopeTtlMs := signingSessionTtlMs

/-- A signer nobody has invited yet. -/
def newSigner (id : Uuid) (email : JsString) : SignerRow where
  id := id
  name := js "Ada Lovelace"
  email := some email
  signingOrder := id
  status := .pending
  recipientKind := .signer
  copyDelivery := none
  boundUserId := none
  witnessForSignerId := none
  delegatedFromName := none
  delegatedFromEmail := none
  delegatedAt := none
  accessCodeHash := none
  accessCodeFailedCount := 0
  accessCodeLockedAt := none
  identityVerificationMethod := none
  identityVerificationLockedAt := none
  viewedAt := none
  signedAt := none
  declinedAt := none
  declineReason := none

/-- A field on the first page of document 50. -/
def newField (id signerId : Uuid) (fieldType : FieldType) : FieldRow where
  id := id
  envelopeDocumentId := 50
  signerId := some signerId
  fieldType := fieldType
  signatureMethod := none
  pageNumber := 1
  x := 0
  y := 0
  width := none
  height := none
  required := true
  value := none
  filledAt := none
  label := none
  groupKey := none
  groupRule := none
  minSelected := none
  nameMode := none
  paymentAmountMinor := none
  paymentCurrency := none

/-- A draft with one document; rows created later have ids from 100 on. -/
def newDraft (routingMode : RoutingMode) (signers : List SignerRow) (fields : List FieldRow) :
    State where
  envelope :=
    { status := .draft, routingMode := routingMode, envelopeMode := .standard
      allowDelegation := true, subject := js "Offer", message := none, signerDateFormat := none
      sentAt := none, completedAt := none, declinedAt := none, voidedAt := none
      expiresAt := none, deletedAt := none }
  documents :=
    [{ id := 50, title := js "Offer", ordinal := 0, sourceMode := .owned, documentRef := none
       documentRevisionRef := none, sourceObjectKey := some (js "offer.pdf")
       contentType := some (js "application/pdf") }]
  signers := signers
  fields := fields
  sessions := []
  acceptances := []
  attempts := []
  bindings := []
  deliveries := []
  qes := []
  payments := []
  refunds := []
  events := []
  clock := 0
  nextId := 100

theorem newDraft_initial {routingMode : RoutingMode} {signers : List SignerRow}
    {fields : List FieldRow} (hsigners : (signers.map (·.id)).Nodup)
    (hfields : (fields.map (·.id)).Nodup)
    (hpending : ∀ r ∈ signers, r.status = .pending ∧ r.delegatedAt = none)
    (hunfilled : ∀ f ∈ fields, f.filledAt = none) :
    Initial (newDraft routingMode signers fields) where
  draft := rfl
  signerIds := hsigners
  fieldIds := hfields
  pending := fun r hr => (hpending r hr).1
  undelegated := fun r hr => (hpending r hr).2
  unfilled := hunfilled
  noSessions := rfl
  noAcceptances := rfl
  noAttempts := rfl
  noPayments := rfl
  noRefunds := rfl

/-- The send of a draft as it stands. -/
def sendNow (s : State) (time : Nat) : Call :=
  ⟨time, .send (getEnvelopeFull s) (js "sender") time⟩

/-! ## How rows change -/

/-- A session keeps its recipient, its expiry and an access code entered in it,
and never comes back. -/
structure SessionKept (y x : SigningSessionRow) : Prop where
  signerId : x.signerId = y.signerId
  expiresAt : x.expiresAt = y.expiresAt
  live : x.status.isLive = true → y.status.isLive = true
  ended : y.status.isLive = false → x.status = y.status
  verified : y.accessCodeVerifiedAt.isSome = true → x.accessCodeVerifiedAt.isSome = true

theorem SessionKept.refl (y : SigningSessionRow) : SessionKept y y :=
  ⟨rfl, rfl, id, fun _ => rfl, id⟩

theorem SessionKept.trans (x y z : SigningSessionRow) (h : SessionKept x y) (h' : SessionKept y z) :
    SessionKept x z where
  signerId := h'.signerId.trans h.signerId
  expiresAt := h'.expiresAt.trans h.expiresAt
  live hz := h.live (h'.live hz)
  ended hx := by
    have hy : y.status = x.status := h.ended hx
    rw [h'.ended (hy ▸ hx), hy]
  verified hx := h'.verified (h.verified hx)

/-- A session minted by a step: the envelope is signable after it, and the
recipient was still to sign, or the envelope was still a draft. -/
structure Minted (s t : State) (x : SigningSessionRow) : Prop where
  signable : t.envelope.status.isSignable = true
  invited : s.envelope.status = .draft ∨
    ∃ r ∈ s.signers, r.id = x.signerId ∧ r.status.isAwaiting = true

def SessionsContinue (s t : State) : Prop :=
  Continues (·.id) SessionKept (Minted s t) s.sessions s.nextId t.sessions t.nextId

/-- An identity attempt keeps its recipient, method and time, and is settled
once. -/
structure AttemptKept (y x : IdentityAttemptRow) : Prop where
  signerId : x.signerId = y.signerId
  method : x.method = y.method
  createdAt : x.createdAt = y.createdAt
  settled : y.status ≠ .pending → x.status = y.status

theorem AttemptKept.refl (y : IdentityAttemptRow) : AttemptKept y y :=
  ⟨rfl, rfl, rfl, fun _ => rfl⟩

theorem AttemptKept.trans (x y z : IdentityAttemptRow) (h : AttemptKept x y)
    (h' : AttemptKept y z) : AttemptKept x z where
  signerId := h'.signerId.trans h.signerId
  method := h'.method.trans h.method
  createdAt := h'.createdAt.trans h.createdAt
  settled hx := by
    have hy : y.status = x.status := h.settled hx
    rw [h'.settled (hy ▸ hx), hy]

/-- Columns of a recipient that no operation here writes. -/
structure SlotKept (y x : SignerRow) : Prop where
  id : x.id = y.id
  recipientKind : x.recipientKind = y.recipientKind
  signingOrder : x.signingOrder = y.signingOrder
  witnessForSignerId : x.witnessForSignerId = y.witnessForSignerId
  accessCodeHash : x.accessCodeHash = y.accessCodeHash
  identityVerificationMethod : x.identityVerificationMethod = y.identityVerificationMethod

theorem SlotKept.refl (r : SignerRow) : SlotKept r r := ⟨rfl, rfl, rfl, rfl, rfl, rfl⟩

theorem SlotKept.trans (x y z : SignerRow) (h : SlotKept x y) (h' : SlotKept y z) :
    SlotKept x z where
  id := h'.id.trans h.id
  recipientKind := h'.recipientKind.trans h.recipientKind
  signingOrder := h'.signingOrder.trans h.signingOrder
  witnessForSignerId := h'.witnessForSignerId.trans h.witnessForSignerId
  accessCodeHash := h'.accessCodeHash.trans h.accessCodeHash
  identityVerificationMethod := h'.identityVerificationMethod.trans h.identityVerificationMethod

/-- The tables the invariants are about; ids may have been drawn for others. -/
structure CoreSame (u t : State) : Prop where
  status : t.envelope.status = u.envelope.status
  routingMode : t.envelope.routingMode = u.envelope.routingMode
  signers : t.signers = u.signers
  fields : t.fields = u.fields
  sessions : t.sessions = u.sessions
  acceptances : t.acceptances = u.acceptances
  attempts : t.attempts = u.attempts
  payments : t.payments = u.payments
  refunds : t.refunds = u.refunds
  clock : t.clock = u.clock
  nextId : u.nextId ≤ t.nextId

theorem CoreSame.refl (s : State) : CoreSame s s :=
  ⟨rfl, rfl, rfl, rfl, rfl, rfl, rfl, rfl, rfl, rfl, Nat.le_refl _⟩

theorem CoreSame.trans {s t u : State} (h : CoreSame s t) (h' : CoreSame t u) : CoreSame s u where
  status := h'.status.trans h.status
  routingMode := h'.routingMode.trans h.routingMode
  signers := h'.signers.trans h.signers
  fields := h'.fields.trans h.fields
  sessions := h'.sessions.trans h.sessions
  acceptances := h'.acceptances.trans h.acceptances
  attempts := h'.attempts.trans h.attempts
  payments := h'.payments.trans h.payments
  refunds := h'.refunds.trans h.refunds
  clock := h'.clock.trans h.clock
  nextId := Nat.le_trans h.nextId h'.nextId

end AramoPlatform.Sign
