import AramoPlatform.Sign.SessionIssue

/-!
# Operations beside signing

What other services write on the same envelope: identity verification, the
payment of a PAYMENT field and its refunds, inbox bindings, the draft's
documents, and the state of a qualified signature. Each is one atomic step
here, its reads included; `PaymentRuns` and `RefundRuns` take the payment
operations apart into their reads and writes.
-/

namespace AramoPlatform.Sign

open Js Lib List

section

variable (deps : Deps)

/-! ## Identity verification -/

def lockedPayload (reason : JsString) : Option Nat → Payload
  | none => { members := [(js "reason", .text reason)] }
  | some started =>
    { members := [(js "reason", .text reason), (js "attempts", .num started)] }

/-- `lockIn`: locks the recipient out of verification and ends their sessions. -/
def lockIn (s : State) (signerId : Uuid) (reason : JsString) (started : Option Nat) : State :=
  ((s.updateSigner signerId fun r =>
      { r with identityVerificationLockedAt := some s.clock }).revokeSessions
    (·.signerId == signerId) s.clock).appendEvent deps
      (serviceEvent .identityVerificationLocked (some signerId) none
        (some (lockedPayload reason started)))

/-- The attempts of a recipient for a method, and how many of them reached
the vendor. -/
def attemptsOf (s : State) (signerId : Uuid) (method : IdentityVerificationMethod) :
    List IdentityAttemptRow :=
  s.attempts.filter fun a => a.signerId == signerId && a.method == method

def startedCount (attempts : List IdentityAttemptRow) : Nat :=
  (attempts.filter (·.vendorReference.isSome)).length

/-- The transaction of `start` that records a new attempt. The session and
the method were read before it. -/
def startAttempt (s : State) (ctx : SessionContext) (method : IdentityVerificationMethod) :
    Except EsignError State := do
  let _ ← lockSignableEnvelope s
  let signer ← orThrow (s.signer? ctx.signerId) .recordNotFound
  require signer.identityVerificationLockedAt.isNone (.identityVerificationLocked ctx.signerId)
  let existing := attemptsOf s ctx.signerId method
  if existing.any (·.status == .pending) then pure s
  else if startedCount existing ≥ deps.idVerificationMaxAttempts then
    pure (lockIn deps s ctx.signerId (js "attempts_exhausted") (some (startedCount existing)))
  else pure (s.addAttempt
    { id := s.nextId, signerId := ctx.signerId, sessionId := ctx.sessionId, method := method
      vendorReference := none, status := .pending, failureReason := none, createdAt := s.clock })

def startedPayload (attempt : IdentityAttemptRow) (vendorReference : JsString)
    (attemptNumber : Nat) : Payload :=
  { members :=
      [(js "attempt_id", .text (deps.uuidText attempt.id)),
        (js "session_id", .text (deps.uuidText attempt.sessionId)),
        (js "verification_method", .text attempt.method.text),
        (js "provider", .text deps.identityProvider),
          (js "vendor_reference", .text vendorReference),
        (js "attempt_number", .num attemptNumber)] }

/-- The transaction of `start` that records the vendor's session. -/
def recordVendorSession (s : State) (attemptId : Uuid) (vendorReference : JsString)
    (attemptNumber : Nat) (info : RequestMeta) : Except EsignError State := do
  let attempt ← orThrow (s.attempts.find? (·.id == attemptId)) .recordNotFound
  let recorded := s.updateAttempt attemptId fun a =>
    { a with vendorReference := some vendorReference }
  pure (recorded.appendEvent deps ((signerEvent deps .identityVerificationStarted attempt.signerId
    (some (startedPayload deps attempt vendorReference attemptNumber))).withMeta info))

/-- An attempt the vendor never opened does not count. -/
def cancelAttempt (s : State) (attemptId : Uuid) : State :=
  s.updateAttempt attemptId fun a =>
    if a.status = .pending ∧ a.vendorReference = none then
      { a with status := .cancelled, failureReason := some (js "vendor_unavailable") }
    else a

inductive VendorResult where
  | verified (name : Option (JsString × JsString)) (documentCountry : Option JsString)
  | failed (failureCode : Option JsString)
  | cancelled

/-- A failure code as lower-case letters, digits and underscores. -/
def sanitizeFailure (code : Option JsString) : JsString :=
  let c := ((deps.toLowerCase (code.getD (js "unverified"))).map fun u =>
    if (97 ≤ u && u ≤ 122) || (48 ≤ u && u ≤ 57) || u == 95 then u else 95).take 64
  if c.isEmpty then js "unverified" else c

inductive SettledDetail where
  | verified (documentCountry : Option JsString)
  | nameMismatch
  | failed (reason : JsString)
  | cancelled

/-- The payload of a settled attempt: the attempt, then its outcome. -/
def settledPayload (attempt : IdentityAttemptRow) : SettledDetail → Payload
  | .verified country =>
    { members :=
        [(js "attempt_id", .text (deps.uuidText attempt.id)),
          (js "verification_method", .text attempt.method.text),
          (js "provider", .text deps.identityProvider),
          (js "vendor_reference", attempt.vendorReference.elim .null .text),
          (js "name_match", .flag true), (js "document_country", country.elim .null .text)] }
  | .nameMismatch =>
    { members :=
        [(js "attempt_id", .text (deps.uuidText attempt.id)),
          (js "verification_method", .text attempt.method.text),
          (js "provider", .text deps.identityProvider),
          (js "vendor_reference", attempt.vendorReference.elim .null .text),
          (js "reason", .text (js "name_mismatch")), (js "name_match", .flag false)] }
  | .failed reason =>
    { members :=
        [(js "attempt_id", .text (deps.uuidText attempt.id)),
          (js "verification_method", .text attempt.method.text),
          (js "provider", .text deps.identityProvider),
          (js "vendor_reference", attempt.vendorReference.elim .null .text),
          (js "reason", .text reason)] }
  | .cancelled =>
    { members :=
        [(js "attempt_id", .text (deps.uuidText attempt.id)),
          (js "verification_method", .text attempt.method.text),
          (js "provider", .text deps.identityProvider),
          (js "vendor_reference", attempt.vendorReference.elim .null .text)] }

/-- The writes of an outcome: the attempt row and its event. -/
def settleRow (s : State) (attempt : IdentityAttemptRow) (status : AttemptStatus)
    (failureReason : Option JsString) (event : LedgerEvent) (detail : SettledDetail) : State :=
  (s.updateAttempt attempt.id fun a =>
      { a with status := status, failureReason := failureReason }).appendEvent deps
    (serviceEvent event (some attempt.signerId) none (some (settledPayload deps attempt detail)))

/-- The last attempt that failed or was cancelled locks the recipient out. -/
def lockIfExhausted (s : State) (attempt : IdentityAttemptRow) (signer : SignerRow) : State :=
  let started := startedCount (attemptsOf s attempt.signerId attempt.method)
  if started ≥ deps.idVerificationMaxAttempts ∧ signer.identityVerificationLockedAt = none then
    lockIn deps s attempt.signerId (js "attempts_exhausted") (some started)
  else s

/-- The transaction of `settle`: the outcome of a pending attempt, once. -/
def settleAttempt (s : State) (attemptId : Uuid) (result : VendorResult) :
    Except EsignError State := do
  let attempt ← orThrow ((s.attempts.find? (·.id == attemptId)).filter (·.vendorReference.isSome))
    .recordNotFound
  if attempt.status ≠ .pending then pure s
  else do
    let signer ← orThrow (s.signer? attempt.signerId) .recordNotFound
    match result with
    | .verified name country =>
      if deps.verifiedNameMatches name signer.name then
        pure (settleRow deps s attempt .verified none .identityVerified (.verified country))
      else
        let failed := settleRow deps s attempt .failed (some (js "name_mismatch"))
          .identityVerificationFailed .nameMismatch
        pure (if signer.identityVerificationLockedAt.isNone then
            lockIn deps failed attempt.signerId (js "name_mismatch") none
          else failed)
    | .failed code =>
      let reason := sanitizeFailure deps code
      pure (lockIfExhausted deps (settleRow deps s attempt .failed (some reason)
        .identityVerificationFailed (.failed reason)) attempt signer)
    | .cancelled =>
      pure (lockIfExhausted deps (settleRow deps s attempt .cancelled none
        .identityVerificationCancelled .cancelled) attempt signer)

/-! ## Payments -/

/-- The recipient's own PAYMENT field. -/
def paymentFieldOf (s : State) (signerId fieldId : Uuid) : Option FieldRow :=
  s.fields.find? fun f => f.id == fieldId && f.signerId == some signerId && isPaymentField f

structure SignerPaymentField where
  fieldId : Uuid
  amountMinor : Nat
  currency : JsString
  filled : Bool
  subject : JsString

/-- `signerPaymentField`: where a payment may start. -/
def signerPaymentField (s : State) (ctx : SessionContext) (fieldId : Uuid) :
    Except EsignError SignerPaymentField := do
  let _ ← lockSignableEnvelope s
  let _ ← assertLiveSession s ctx
  assertEligible s ctx.signerId
  require (hasAcceptedDisclosure s ctx.signerId) (.disclosureNotAccepted ctx.signerId)
  let field ← orThrow (paymentFieldOf s ctx.signerId fieldId) (.signerNotFound ctx.signerId)
  let amountMinor ← orThrow field.paymentAmountMinor (.signerNotFound ctx.signerId)
  let currency ← orThrow field.paymentCurrency (.signerNotFound ctx.signerId)
  pure ⟨field.id, amountMinor, currency, field.filledAt.isSome, s.envelope.subject⟩

/-- `preparePayment`, on a field that `signerPaymentField` has returned. -/
def preparePayment (s : State) (input : PreparePaymentInput) : Except EsignError State := do
  let _ ← orThrow (paymentFieldOf s input.signerId input.fieldId) (.signerNotFound input.signerId)
  match s.payments.find? (·.fieldId == input.fieldId) with
  | some existing =>
    let _ ← (preparePaymentCheck existing input).mapError .payment
    pure (s.updatePayment existing.id (prepareUpdate · input))
  | none => pure (s.addPayment (prepareCreate s.nextId input))

/-- The amounts every payment event names. -/
def paymentMembers (p : SignPaymentRow) : List (JsString × PayloadValue) :=
  [(js "payment_id", .text (deps.uuidText p.id)), (js "field_id", .text (deps.uuidText p.fieldId)),
    (js "amount_minor", .num p.amountMinor), (js "currency", .text p.currency),
    (js "application_fee_minor", .num p.applicationFeeMinor)]

def checkoutStartedPayload (p : SignPaymentRow) (checkout : PaymentCheckoutState) : Payload where
  members := paymentMembers deps p ++
    [(js "checkout_ref", .text checkout.checkoutRef), (js "provider", .text (js "STRIPE_CONNECT"))]
  nodup := by
    simp only [paymentMembers, cons_append, nil_append, map_cons, map_nil]
    decide

def recordCheckoutStarted (s : State) (paymentId : Uuid) (checkout : PaymentCheckoutState) :
    Except EsignError State := do
  let payment ← orThrow (s.payments.find? (·.id == paymentId)) .recordNotFound
  pure ((s.updatePayment paymentId (checkoutStartedUpdate · checkout)).appendEvent deps
    (signerEvent deps .paymentCheckoutStarted payment.signerId
      (some (checkoutStartedPayload deps payment checkout))))

/-- The payment a checkout is about: by its id, else by its checkout. -/
def paymentOfCheckout (s : State) (checkout : PaymentCheckoutState) : Option SignPaymentRow :=
  (checkout.paymentId.bind fun id => s.payments.find? (·.id == id)) <|>
    s.payments.find? (·.checkoutRef == some checkout.checkoutRef)

/-- Groups of three digits, the last group first. -/
def groupThousands : List UInt16 → List UInt16
  | a :: b :: c :: d :: rest => a :: b :: c :: 44 :: groupThousands (d :: rest)
  | digits => digits

def formatPaymentAmount (amountMinor : Nat) (currency : JsString) : JsString :=
  let whole := (natNum (amountMinor / 100)).text
  let cents := decimals 2 (amountMinor % 100)
  if currency = js "USD" then
    js "$" ++ (groupThousands whole.reverse).reverse ++ js "." ++ cents ++ js " USD"
  else whole ++ js "." ++ cents ++ js " " ++ currency

def paymentReceiptText (amountMinor : Nat) (currency : JsString) : JsString :=
  js "Paid " ++ formatPaymentAmount amountMinor currency

def paidPayload (p : SignPaymentRow) (checkout : PaymentCheckoutState) :
    Option EnvelopeStatus → Payload
  | none =>
    { members := paymentMembers deps p ++
        [(js "payment_ref", checkout.paymentRef.elim .null .text),
          (js "checkout_ref", .text checkout.checkoutRef), (js "account_ref", .text p.accountRef),
          (js "live", .flag checkout.live)]
      nodup := by
        simp only [paymentMembers, cons_append, nil_append, map_cons, map_nil]
        decide }
  | some status =>
    { members := paymentMembers deps p ++
        [(js "payment_ref", checkout.paymentRef.elim .null .text),
          (js "checkout_ref", .text checkout.checkoutRef), (js "account_ref", .text p.accountRef),
          (js "live", .flag checkout.live), (js "envelope_status", .text status.text)]
      nodup := by
        simp only [paymentMembers, cons_append, nil_append, map_cons, map_nil]
        decide }

/-- The writes of a payment reported paid. The field is filled unless the
envelope has ended. -/
def paidRows (s : State) (payment : SignPaymentRow) (checkout : PaymentCheckoutState) : State :=
  let terminal := s.envelope.status.isTerminal
  let paid := s.updatePayment payment.id (paidUpdate · checkout s.clock)
  let filled :=
    if terminal then paid
    else paid.updateFields (fun f => f.id == payment.fieldId && f.filledAt.isNone) fun f =>
      { f with
        value := some (paymentReceiptText payment.amountMinor payment.currency)
        signatureMethod := none, filledAt := some s.clock }
  filled.appendEvent deps (systemEvent .paymentSucceeded (some payment.signerId)
    (some (paidPayload deps payment checkout
      (if terminal then some s.envelope.status else none))))

/-- `recordPaid`; an unknown checkout and a payment already collected change
nothing. -/
def recordPaid (s : State) (checkout : PaymentCheckoutState) (accountRef : Option JsString) :
    Except EsignError State :=
  if !checkout.paid || checkout.paymentRef.isNone then pure s
  else
    match paymentOfCheckout s checkout with
    | none => pure s
    | some payment => do
      let _ ← (recordPaidCheck deps.toUpperCase payment checkout accountRef).mapError .payment
      if payment.status.isCollected then pure s
      else pure (paidRows deps s payment checkout)

/-- `recordFailed`; only a pending payment changes. -/
def recordFailed (s : State) (checkout : PaymentCheckoutState) : State :=
  match (paymentOfCheckout s checkout).filter (·.status == .pending) with
  | none => s
  | some payment =>
    (s.updatePayment payment.id fun p => { p with status := .failed }).appendEvent deps
      (systemEvent .paymentFailed (some payment.signerId) (some
        { members :=
            [(js "payment_id", .text (deps.uuidText payment.id)),
              (js "field_id", .text (deps.uuidText payment.fieldId)),
              (js "checkout_ref", .text checkout.checkoutRef)] }))

/-! ## Refunds -/

def refundsOf (s : State) (paymentId : Uuid) : List SignPaymentRefundRow :=
  (s.refunds.filter (·.1 == paymentId)).map (·.2)

def updateRefundIn (s : State) (refundId : Uuid)
    (f : SignPaymentRefundRow → SignPaymentRefundRow) : State :=
  s.setRefunds (updateWhere (·.2.id == refundId) (fun r => (r.1, f r.2)) s.refunds)

def requestRefund (s : State) (paymentId : Uuid) (input : RequestRefundInput) :
    Except EsignError State := do
  let payment ← orThrow (s.payments.find? (·.id == paymentId))
    (.payment ⟨js "payment_not_found", js "Payment not found"⟩)
  let amount ← (requestRefundAmount payment (refundsOf s paymentId) input).mapError .payment
  let requested := s.setRefunds (s.refunds ++
    [(paymentId,
      { id := s.nextId, amountMinor := amount, status := .requested, refundRef := none
        reason := input.reason, requestedBy := input.requestedBy })])
  pure (requested.appendEvent deps (serviceEvent .paymentRefundRequested (some payment.signerId)
    (some (deps.uuidText input.requestedBy)) (some
      { members :=
          [(js "payment_id", .text (deps.uuidText payment.id)),
            (js "refund_id", .text (deps.uuidText s.nextId)), (js "amount_minor", .num amount),
            (js "currency", .text payment.currency)] })))

def ProviderRefundStatus.text : ProviderRefundStatus → JsString
  | .pending => js "PENDING"
  | .succeeded => js "SUCCEEDED"
  | .failed => js "FAILED"
  | .canceled => js "CANCELED"

/-- The refund a report is about, with its payment. -/
def refundAndPayment (s : State) (state : PaymentRefundState) (fallbackRefundId : Option Uuid) :
    Option (SignPaymentRefundRow × SignPaymentRow) :=
  (refundOf (s.refunds.map (·.2)) state fallbackRefundId).bind fun refund =>
    ((s.refunds.find? (·.2.id == refund.id)).bind fun r =>
      s.payments.find? (·.id == r.1)).map fun payment => (refund, payment)

/-- `applyRefundState`, on the refund and the payment it reads. -/
def applyRefundState (s : State) (state : PaymentRefundState) (fallbackRefundId : Option Uuid) :
    State :=
  match refundAndPayment s state fallbackRefundId with
  | none => s
  | some (refund, payment) =>
    if refund.status.isFinal then
      updateRefundIn s refund.id fun r =>
        { r with refundRef := r.refundRef <|> some state.refundRef }
    else
      let answered := updateRefundIn s refund.id fun r =>
        { r with status := state.status.toRow, refundRef := some state.refundRef }
      let refunded := min payment.amountMinor (payment.amountRefundedMinor + refund.amountMinor)
      let booked :=
        if state.status = .succeeded then
          answered.updatePayment payment.id (refundedUpdate · payment.amountMinor refunded)
        else answered
      if state.status = .pending then answered
      else booked.appendEvent deps
        (systemEvent
          (if state.status = .succeeded then .paymentRefunded else .paymentRefundFailed)
          (some payment.signerId) (some
            { members :=
                [(js "payment_id", .text (deps.uuidText payment.id)),
                  (js "refund_id", .text (deps.uuidText refund.id)),
                  (js "refund_ref", .text state.refundRef),
                  (js "amount_minor", .num refund.amountMinor),
                  (js "currency", .text payment.currency),
                  (js "status", .text state.status.text)] }))

/-- `refundRefused`. The reason is recorded as it was given, shortened. -/
def refundRefused (s : State) (refundId : Uuid) (reason : JsString) : Except EsignError State := do
  let row ← orThrow (s.refunds.find? (·.2.id == refundId)) .recordNotFound
  if row.2.status ≠ .requested then pure s
  else do
    let payment ← orThrow (s.payments.find? (·.id == row.1)) .recordNotFound
    pure ((updateRefundIn s refundId fun r => { r with status := .failed }).appendEvent deps
      (systemEvent .paymentRefundFailed (some payment.signerId) (some
        { members :=
            [(js "payment_id", .text (deps.uuidText payment.id)),
              (js "refund_id", .text (deps.uuidText refundId)),
              (js "amount_minor", .num row.2.amountMinor), (js "currency", .text payment.currency),
              (js "status", .text (js "FAILED")), (js "reason", .typed (reason.take 200))] })))

/-- `applyChargeRefunds`; the total only grows. -/
def applyChargeRefunds (s : State) (charge : PaymentChargeState) (accountRef : Option JsString) :
    State :=
  match (s.payments.find? (·.paymentRef == some charge.paymentRef)).filter fun p =>
      accountRef.all (· == p.accountRef) with
  | none => s
  | some payment =>
    if chargeRefunded payment charge = payment.amountRefundedMinor then s
    else s.updatePayment payment.id
      (refundedUpdate · payment.amountMinor (chargeRefunded payment charge))

/-! ## Draft documents -/

def assertDraft (s : State) : Except EsignError Unit := do
  require s.envelope.deletedAt.isNone .envelopeNotFound
  require (s.envelope.status == .draft)
    (.envelopeIllegalTransition s.envelope.status (js "edit"))

def documentPayload (id : Uuid) (title : JsString) : Payload :=
  { members := [(js "envelope_document_id", .text (deps.uuidText id)), (js "title", .typed title)] }

/-- Where a document's bytes are: in Sign storage, or in Documents. -/
inductive DocumentSource where
  | owned (sourceObjectKey contentType : JsString)
  | coreRef (documentRef documentRevisionRef : Uuid)

def newDocument (s : State) (title : JsString) (source : DocumentSource) : DocumentRow :=
  let ordinal := ((s.documents.map (·.ordinal)).max?).elim 0 (· + 1)
  match source with
  | .owned key contentType =>
    { id := s.nextId, title := title, ordinal := ordinal, sourceMode := .owned
      documentRef := none, documentRevisionRef := none, sourceObjectKey := some key
      contentType := some contentType }
  | .coreRef ref revision =>
    { id := s.nextId, title := title, ordinal := ordinal, sourceMode := .coreRef
      documentRef := some ref, documentRevisionRef := some revision, sourceObjectKey := none
      contentType := none }

/-- `addDraftDocument` and `addDraftCoreRefDocument`. -/
def addDraftDocument (s : State) (actorRef title : JsString) (source : DocumentSource) :
    Except EsignError State := do
  assertDraft s
  let attached : State :=
    { s with documents := s.documents ++ [newDocument s title source], nextId := s.nextId + 1 }
  pure (attached.appendEvent deps (serviceEvent .documentAttached none (some actorRef)
    (some (documentPayload deps s.nextId title))))

/-- `removeDraftDocument`: the document goes with its fields, and the others
are numbered anew. -/
def removeDraftDocument (s : State) (actorRef : JsString) (documentId : Uuid) :
    Except EsignError State := do
  assertDraft s
  let doc ← orThrow (s.documents.find? (·.id == documentId)) .envelopeNotFound
  let rest := (s.documents.filter (·.id != documentId)).insertionSort ordinalLe
  let removed : State :=
    { s with
      documents := rest.mapIdx fun i d => { d with ordinal := i }
      fields := s.fields.filter (·.envelopeDocumentId != documentId) }
  pure (removed.appendEvent deps (serviceEvent .documentRemoved none (some actorRef)
    (some (documentPayload deps documentId doc.title))))

end

/-! ## Bindings and qualified signatures -/

structure BindInput where
  signerId : Uuid
  userId : Uuid
  email : JsString
  claimSessionId : Option Uuid

/-- `RecipientInboxRepository.bind`: an upsert on the recipient and the user. -/
def bind (s : State) (input : BindInput) : State :=
  let mine := fun b : BindingRow => b.signerId == input.signerId && b.userId == input.userId
  if s.bindings.any mine then
    s.setBindings (updateWhere mine (fun b =>
      { b with
        revokedAt := none, email := input.email
        claimSessionId := input.claimSessionId <|> b.claimSessionId }) s.bindings)
  else
    s.setBindings (s.bindings ++
      [{ id := s.nextId, signerId := input.signerId, userId := input.userId, email := input.email
         claimSessionId := input.claimSessionId, revokedAt := none }])

/-- `RecipientInboxRepository.revoke`. -/
def revokeBinding (s : State) (userId bindingId : Uuid) : State :=
  s.setBindings (updateWhere
    (fun b => b.id == bindingId && b.userId == userId && b.revokedAt.isNone)
    (fun b => { b with revokedAt := some s.clock }) s.bindings)

/-- The qualified-signature workflow moves a recipient's row to a state. -/
def setQes (s : State) (signerId : Uuid) (state : QesState) : State :=
  { s with qes := ⟨signerId, state⟩ :: s.qes.filter (·.signerId != signerId) }

end AramoPlatform.Sign
