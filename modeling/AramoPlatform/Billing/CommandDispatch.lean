import AramoPlatform.Billing.Checkout
import AramoPlatform.Billing.CommandEnqueue

/-!
# Dispatching a provider command

A dispatcher claims the oldest due command, reads the provider, sends what is
not in effect yet and records the outcome. A claim counts an attempt, and an
outcome is recorded only while that attempt is the last one.
-/

namespace AramoPlatform.Billing

open Js Lib Subscription List

/-! ## Claims -/

def billingCommandMaxAttempts : Nat := 8

def billingCommandLeaseMs : Nat := 300000

def billingCommandBackoffMs (attempt : Nat) : Nat := min (60000 * 2 ^ (attempt - 1)) 21600000

/-- Due now: waiting with no later time set, or claimed with a lease that has run out. -/
def isDue (time : Nat) (c : BillingProviderCommand) : Bool :=
  ((c.state == .pending || c.state == .retryWait) && c.nextAttemptAt.all (· ≤ time)) ||
    (c.state == .dispatching && c.leaseUntil.any (· ≤ time))

def claimed (time : Nat) (c : BillingProviderCommand) : BillingProviderCommand :=
  { c with
    state := .dispatching, attempts := c.attempts + 1
    leaseUntil := some (time + billingCommandLeaseMs), updatedAt := time }

/-- `ORDER BY created_at, id`: the earlier of two commands. -/
def earlier (a b : BillingProviderCommand) : BillingProviderCommand :=
  if b.createdAt < a.createdAt || (b.createdAt == a.createdAt && b.id < a.id) then b else a

def oldest : List BillingProviderCommand → Option BillingProviderCommand
  | [] => none
  | c :: rest => some (rest.foldl earlier c)

/-- `claim`, one statement: the oldest due command that no other transaction has locked. -/
def claim (commands : List BillingProviderCommand) (locked : List Uuid) (time : Nat) :
    Option (BillingProviderCommand × List BillingProviderCommand) :=
  (oldest (commands.filter fun c => isDue time c && !locked.contains c.id)).map fun c =>
    (claimed time c, updateWhere (·.id == c.id) (claimed time) commands)

theorem foldl_earlier_mem (c : BillingProviderCommand) (rest : List BillingProviderCommand) :
    rest.foldl earlier c ∈ c :: rest := by
  induction rest generalizing c with
  | nil => exact mem_singleton_self c
  | cons b rest ih =>
    rw [foldl_cons]
    have hone : earlier c b = c ∨ earlier c b = b := by
      unfold earlier
      split
      · exact .inr rfl
      · exact .inl rfl
    rcases hone with hone | hone
    · rcases mem_cons.mp (ih (earlier c b)) with heq | hmem
      · rw [heq, hone]
        exact mem_cons_self
      · exact mem_cons_of_mem _ (mem_cons_of_mem _ hmem)
    · rw [hone]
      exact mem_cons_of_mem _ (ih b)

theorem claim_eq_some {commands t : List BillingProviderCommand} {locked : List Uuid} {time : Nat}
    {d : BillingProviderCommand} (h : claim commands locked time = some (d, t)) :
    ∃ c ∈ commands, isDue time c = true ∧ d = claimed time c ∧
      t = updateWhere (·.id == c.id) (claimed time) commands := by
  simp only [claim, Option.map_eq_some_iff, Prod.mk.injEq] at h
  obtain ⟨c, holdest, rfl, rfl⟩ := h
  have hmem : c ∈ commands.filter fun c => isDue time c && !locked.contains c.id := by
    revert holdest
    cases commands.filter fun c => isDue time c && !locked.contains c.id with
    | nil => intro holdest; cases holdest
    | cons b rest =>
      intro holdest
      obtain rfl := Option.some.inj holdest
      exact foldl_earlier_mem b rest
  obtain ⟨hmem, hdue⟩ := mem_filter.mp hmem
  exact ⟨c, hmem, (Bool.and_eq_true _ _ ▸ hdue).1, rfl, rfl⟩

/-! ## What a command sends -/

/-- The two parts of a command: the coupon that a discount needs, and its effect. -/
inductive WritePart where
  | coupon
  | effect
  deriving DecidableEq

/-- A call that changes the provider. -/
inductive ProviderCall where
  | cancel (subscriptionRef : JsString) (atPeriodEnd : Bool)
  | expireSession (sessionRef : JsString)
  | balance (accountRef : JsString) (signedMinor : Int) (currency : JsString)
  | createCoupon (couponRef : JsString) (discountBps : Nat)
  | attachCoupon (subscriptionRef couponRef : JsString)
  | removeDiscount (subscriptionRef : JsString)
  | refund (paymentRef : JsString) (amountMinor : Nat)
  deriving DecidableEq

/-- A call with its idempotency key and the command it is made for. -/
structure ProviderWrite where
  key : JsString
  commandId : Uuid
  part : WritePart
  call : ProviderCall
  deriving DecidableEq

/-- The key of a part; the coupon has the key of the command with a suffix. -/
def writeKey (idempotencyKey : JsString) : WritePart → JsString
  | .effect => idempotencyKey
  | .coupon => idempotencyKey ++ js "-coupon"

def writeOf (c : BillingProviderCommand) (part : WritePart) (call : ProviderCall) :
    ProviderWrite :=
  ⟨writeKey c.idempotencyKey part, c.id, part, call⟩

/-- The writes of `executeAdjustment`, of a payment for a refund. -/
def adjustmentWrites (c : BillingProviderCommand) (paymentRef : JsString) : List ProviderWrite :=
  let amount := c.params.amountMinor.getD 0
  let currency := c.params.currency.getD []
  let coupon := c.params.couponRef.getD []
  match c.commandKind with
  | .creditGrant => [writeOf c .effect (.balance c.targetRef (-amount) currency)]
  | .creditReverse => [writeOf c .effect (.balance c.targetRef amount currency)]
  | .discountApply =>
    [writeOf c .coupon (.createCoupon coupon (c.params.discountBps.getD 0)),
      writeOf c .effect (.attachCoupon c.targetRef coupon)]
  | .discountRemove => [writeOf c .effect (.removeDiscount c.targetRef)]
  | .refundCreate => [writeOf c .effect (.refund paymentRef amount)]
  | .subscriptionCancel | .checkoutSessionExpire => []

/-! ## Decisions before a call -/

/-- How an attempt fails. -/
inductive AttemptError where
  /-- `CommandRefusal`: decided here, never retried by itself. -/
  | refusal (code message : JsString)
  /-- `BillingProviderUnavailableError`. -/
  | unavailable (retryable : Bool) (message : JsString)
  | unexpected (message : JsString)
  deriving DecidableEq

/-- What an accepted attempt reports. -/
structure Accepted where
  detail : JsString
  objectRef : Option JsString
  deriving DecidableEq

/-- A decision: nothing to send, or these writes. -/
inductive Decision where
  | inEffect (done : Accepted)
  | send (writes : List ProviderWrite) (detail : JsString)

def alreadyInEffect : JsString := js "already in effect at the provider"

def modeText : SubscriptionCancelMode → JsString
  | .immediate => js "IMMEDIATE"
  | .atPeriodEnd => js "AT_PERIOD_END"

/-- `perform` of a cancel, with the subscription as it was read. -/
def performCancel (c : BillingProviderCommand) (state : ProviderSubscriptionState) :
    Except AttemptError Decision := do
  let mode ← orThrow c.params.mode (.refusal (js "INVALID_PARAMS") (js "cancel mode missing"))
  require (state.tenantId.all (· == c.tenantId))
    (.refusal (js "TENANT_MISMATCH") (js "provider metadata tenant does not match the command"))
  if subscriptionCancelConfirmed c.params state.cancelAtPeriodEnd
      (mapProviderStatus state.providerStatus).ends then
    pure (.inEffect ⟨alreadyInEffect, none⟩)
  else
    pure (.send [writeOf c .effect (.cancel c.targetRef (mode == .atPeriodEnd))]
      (js "cancel (" ++ modeText mode ++ js ") accepted by the provider"))

/-- `perform` of an expiry, with the session as it was read. -/
def performExpire (c : BillingProviderCommand) (session : CheckoutSessionState) :
    Except AttemptError Decision := do
  require (session.tenantId.all (· == c.tenantId))
    (.refusal (js "TENANT_MISMATCH") (js "provider session tenant does not match the command"))
  if session.status == js "expired" then pure (.inEffect ⟨alreadyInEffect, none⟩)
  else do
    require (session.status != js "complete")
      (.refusal (js "SESSION_COMPLETED")
        (js "the checkout session completed; it can no longer be expired"))
    pure (.send [writeOf c .effect (.expireSession c.targetRef)]
      (js "expire accepted by the provider"))

/-- The first check of `performAdjustment`: the port, and a request that is being applied. -/
def adjustmentRequestCheck (configured : Bool) (requests : List ChangeRequest)
    (c : BillingProviderCommand) : Except AttemptError Unit := do
  require configured (.refusal (js "ADJUSTMENTS_NOT_CONFIGURED")
    (js "the billing-adjustment provider port is not configured"))
  let id ← orThrow c.origin.changeRequestId (.refusal (js "REQUEST_NOT_APPLYING")
    (js "a billing adjustment is sent only for a change request being applied"))
  let request := requests.find? (·.id == id)
  require (request.any fun r =>
      r.state == .applying && (billingCommandKindsByAction r.actionType).contains c.commandKind)
    (.refusal (js "REQUEST_NOT_APPLYING") (js "the change request is " ++
      (request.map (·.state.text)).getD (js "missing") ++
      js "; an adjustment is sent only for an approved request being applied"))

/-- The provider's view of the effect of an adjustment. -/
structure AdjustmentEffect where
  objectRef : Option JsString
  present : Bool
  providerStatus : Option JsString
  tenantId : Option Uuid
  deriving DecidableEq

/-- After the effect is read: in effect, to be sent, or a refund for the gates. -/
inductive EffectDecision where
  | inEffect (done : Accepted)
  | proceed

/-- `performAdjustment` with the effect as it was read. -/
def performEffect (c : BillingProviderCommand) (before : AdjustmentEffect) :
    Except AttemptError EffectDecision := do
  require (before.tenantId.all (· == c.tenantId))
    (.refusal (js "TENANT_MISMATCH") (js "provider metadata tenant does not match the command"))
  if before.present then pure (.inEffect ⟨alreadyInEffect, before.objectRef⟩)
  else if c.commandKind == .refundCreate && before.objectRef.isSome then
    pure (.inEffect ⟨js "refund already initiated at the provider (" ++
      before.providerStatus.getD (js "unknown") ++ js ")", before.objectRef⟩)
  else pure .proceed

def acceptedDetail (c : BillingProviderCommand) : JsString :=
  c.commandKind.text ++ js " accepted by the provider"

/-- The invoice that a refund is made of. -/
structure InvoicePayment where
  accountRef : Option JsString
  paymentRef : Option JsString
  deriving DecidableEq

/-- A refund after its gates: a refusal of theirs, or the invoice as it was read. -/
def performRefund (c : BillingProviderCommand) :
    Except (JsString × JsString) InvoicePayment → Except AttemptError Decision
  | .error (code, message) => .error (.refusal code message)
  | .ok invoice => do
    require (invoice.accountRef == c.params.accountRef)
      (.unavailable false (js "the invoice was not paid from the tenant billing account"))
    let payment ← orThrow invoice.paymentRef
      (.unavailable false (js "the invoice has no payment to refund"))
    pure (.send (adjustmentWrites c payment) (acceptedDetail c))

/-! ## Outcomes -/

inductive DispatchOutcome where
  | accepted
  | retryWait
  | failed
  | lostFence
  deriving DecidableEq

def errorCode : AttemptError → JsString
  | .refusal code _ => code
  | .unavailable true _ => js "PROVIDER_UNAVAILABLE"
  | .unavailable false _ => js "PROVIDER_REFUSED"
  | .unexpected _ => js "UNEXPECTED"

def errorMessage : AttemptError → JsString
  | .refusal _ message | .unavailable _ message | .unexpected message => message.take 500

/-- Tried again later by itself. -/
def isRetryable : AttemptError → Bool
  | .refusal _ _ | .unavailable false _ => false
  | .unavailable true _ | .unexpected _ => true

/-- The update of `dispatchClaimed` for the claimed command `c`. -/
def outcomeOf (c : BillingProviderCommand) (time : Nat) (result : Except AttemptError Accepted) :
    DispatchOutcome × (BillingProviderCommand → BillingProviderCommand) :=
  match result with
  | .ok done =>
    (.accepted, fun x =>
      { x with
        state := .pendingProvider, providerAcceptedAt := some time, leaseUntil := none
        nextAttemptAt := none, lastErrorCode := none, lastErrorDetail := some done.detail
        providerObjectRef :=
          if done.objectRef.isSome && c.providerObjectRef.isNone then done.objectRef
          else x.providerObjectRef
        updatedAt := time })
  | .error e =>
    if isRetryable e && decide (c.attempts < billingCommandMaxAttempts) then
      (.retryWait, fun x =>
        { x with
          state := .retryWait, nextAttemptAt := some (time + billingCommandBackoffMs c.attempts)
          leaseUntil := none, lastErrorCode := some (errorCode e)
          lastErrorDetail := some (errorMessage e), updatedAt := time })
    else
      (.failed, fun x =>
        { x with
          state := .failed, failedAt := some time, leaseUntil := none
          lastErrorCode :=
            some (if isRetryable e then js "RETRIES_EXHAUSTED" else errorCode e)
          lastErrorDetail := some (errorMessage e), updatedAt := time })

/-- The fence: this command, still dispatching, in the attempt of this claim. -/
def isFenced (c x : BillingProviderCommand) : Bool :=
  x.id == c.id && x.state == .dispatching && x.attempts == c.attempts

/-- The last statement of `dispatchClaimed`. -/
def recordOutcome (commands : List BillingProviderCommand) (c : BillingProviderCommand)
    (time : Nat) (result : Except AttemptError Accepted) :
    DispatchOutcome × List BillingProviderCommand :=
  let (outcome, f) := outcomeOf c time result
  (if commands.any (isFenced c) then outcome else .lostFence,
    updateWhere (isFenced c) f commands)

/-! ## Retries -/

def rearmed (time : Nat) (x : BillingProviderCommand) : BillingProviderCommand :=
  { x with state := .pending, nextAttemptAt := none, leaseUntil := none, updatedAt := time }

def isFailedCommand (id : Uuid) (x : BillingProviderCommand) : Bool :=
  x.id == id && x.state == .failed

/-- `retryFailed`; `gate` is the refusal of the refund gates for this command, if any. -/
def retryFailed (commands : List BillingProviderCommand) (id : Uuid)
    (gate : Option BillingCommandErrorCode) (time : Nat) :
    Except BillingCommandError (List BillingProviderCommand) := do
  let cmd := commands.find? (·.id == id)
  if cmd.any fun c =>
      c.state == .failed && c.commandKind == .refundCreate && c.origin.changeRequestId.isSome then
    require gate.isNone ⟨gate.getD .refundPolicyNotApproved,
      js "a refund command is re-armed only while refund execution is released " ++
        js "and the refund policy is approved"⟩
  else pure ()
  require (commands.any (·.id == id)) ⟨.notFound, js "command not found"⟩
  require (commands.any (isFailedCommand id)) ⟨.notFailed, js "the command is not FAILED"⟩
  pure (updateWhere (isFailedCommand id) (rearmed time) commands)

/-- The commands of a change request. -/
def isOfRequest (requestId : Uuid) (x : BillingProviderCommand) : Bool :=
  x.origin == .changeRequest requestId

/-- The next apply of a request in `APPLYING` re-arms its commands when all have failed. -/
def rearmRequest (commands : List BillingProviderCommand) (requestId : Uuid) (time : Nat) :
    List BillingProviderCommand :=
  if commands.all fun x => !isOfRequest requestId x || x.state == .failed then
    updateWhere (isOfRequest requestId) (rearmed time) commands
  else commands

/-! ## Confirmed adjustments -/

/-- A row of `CommercialBillingAdjustment`. -/
structure BillingAdjustment where
  changeRequestId : Uuid
  operation : BillingCommandKind
  tenantId : Uuid
  productKey : ProductKey
  providerTargetRef : JsString
  providerObjectRef : Option JsString
  amountMinor : Option Nat
  currency : Option JsString
  discountBps : Option Nat
  compensates : Option Uuid
  commandId : Uuid
  confirmation : Confirmation
  attempt : Nat
  requestedBy : JsString
  appliedAt : Nat
  deriving DecidableEq

def isBillingAdjustmentAction : Commercial.ActionType → Bool
  | .credit | .discount | .refund => true
  | _ => false

def adjustmentOf (c : BillingProviderCommand) (r : ChangeRequest) (objectRef : Option JsString)
    (confirmation : Confirmation) (time : Nat) : BillingAdjustment where
  changeRequestId := r.id
  operation := c.commandKind
  tenantId := c.tenantId
  productKey := c.productKey
  providerTargetRef := c.targetRef
  providerObjectRef := objectRef
  amountMinor := r.amountMinor
  currency := r.currency
  discountBps := r.discountBps
  compensates := r.compensates
  commandId := c.id
  confirmation := confirmation
  attempt := r.applyAttempts
  requestedBy := r.requestedBy
  appliedAt := time

/-- The unique indexes of `CommercialBillingAdjustment`. -/
def admitsAdjustment (adjustments : List BillingAdjustment) (a : BillingAdjustment) : Bool :=
  adjustments.all fun x =>
    x.changeRequestId != a.changeRequestId && x.commandId != a.commandId &&
      !(a.compensates.isSome && x.compensates == a.compensates)

/-- The change request of an adjustment command. -/
def adjustmentRequestId (c : BillingProviderCommand) : Option Uuid :=
  if isAdjustmentCommandKind c.commandKind then c.origin.changeRequestId else none

/-- The checks of `confirmInTx`: the command and the request, or none. -/
def adjustmentToConfirm (commands : List BillingProviderCommand) (requests : List ChangeRequest)
    (commandId : Uuid) (effect : AdjustmentEffect) :
    Option (BillingProviderCommand × ChangeRequest) := do
  let c ← commands.find? (·.id == commandId)
  let id ← adjustmentRequestId c
  let r ← requests.find? (·.id == id)
  if isUnconfirmed c.state && effect.present && isBillingAdjustmentAction r.actionType &&
      r.state == .applying then
    some (c, r)
  else none

structure ConfirmedTables where
  commands : List BillingProviderCommand
  requests : List ChangeRequest
  adjustments : List BillingAdjustment

/-- `confirmInTx`: the command is confirmed, the adjustment recorded and the request
applied, or nothing is. -/
def confirmAdjustment (commands : List BillingProviderCommand) (requests : List ChangeRequest)
    (adjustments : List BillingAdjustment) (commandId : Uuid) (effect : AdjustmentEffect)
    (confirmation : Confirmation) (time : Nat) : Except TxError ConfirmedTables :=
  match adjustmentToConfirm commands requests commandId effect with
  | none => .ok ⟨commands, requests, adjustments⟩
  | some (c, r) => do
    let objectRef := c.providerObjectRef.or effect.objectRef
    let a := adjustmentOf c r objectRef confirmation time
    require (admitsAdjustment adjustments a) .uniqueViolation
    pure ⟨updateWhere (·.id == c.id) (fun x =>
        { confirmCommand confirmation time x with providerObjectRef := objectRef }) commands,
      updateWhere (·.id == r.id) (fun x => { x with state := .applied, appliedAt := some time })
        requests,
      adjustments ++ [a]⟩

/-- The checks of `syncAdjustmentCommand` after its read of the effect. -/
def adjustmentShown (commands : List BillingProviderCommand) (commandId : Uuid)
    (productKey : ProductKey) (effect : AdjustmentEffect) : Bool :=
  (commands.find? (·.id == commandId)).any fun c =>
    isAdjustmentCommandKind c.commandKind && c.productKey == productKey &&
      isUnconfirmed c.state && effect.tenantId.all (· == c.tenantId) && effect.present

/-! ## Reconciliation -/

/-- What a reconciliation re-fetches. -/
inductive SyncTarget where
  | subscription (ref : JsString)
  | session (ref : JsString)
  | adjustment (commandId : Uuid)
  deriving DecidableEq

def syncTargetOf (c : BillingProviderCommand) : SyncTarget :=
  if isAdjustmentCommandKind c.commandKind then .adjustment c.id
  else if c.commandKind == .subscriptionCancel then .subscription c.targetRef
  else .session c.targetRef

/-- The rows of `reconcilePending`, the least recently updated first, each target once. -/
def reconcileTargets (commands : List BillingProviderCommand) (productKey : ProductKey)
    (limit : Nat) : List SyncTarget :=
  let rows := commands.filter fun c =>
    c.productKey == productKey && (c.state == .pendingProvider || c.state == .failed)
  let before := fun a b : BillingProviderCommand =>
    decide (a.updatedAt < b.updatedAt) || (a.updatedAt == b.updatedAt && decide (a.id ≤ b.id))
  (((rows.mergeSort before).take (min (max limit 1) 200)).map syncTargetOf).eraseDups

end AramoPlatform.Billing
