import AramoPlatform.Billing.ProviderPrice
import AramoPlatform.Lib.Rows

/-!
# Provider commands

The rows of the command outbox, the state machine of a command and the rule
by which a provider state confirms one. A command is confirmed only in the
transaction that applies a state that shows its effect.
-/

namespace AramoPlatform.Billing

open Js Lib Subscription

inductive BillingCommandKind where
  | subscriptionCancel
  | checkoutSessionExpire
  | creditGrant
  | creditReverse
  | discountApply
  | discountRemove
  | refundCreate
  deriving DecidableEq

def isAdjustmentCommandKind : BillingCommandKind → Bool
  | .subscriptionCancel | .checkoutSessionExpire => false
  | .creditGrant | .creditReverse | .discountApply | .discountRemove | .refundCreate => true

inductive BillingCommandState where
  | pending
  | dispatching
  | pendingProvider
  | retryWait
  | failed
  | confirmed
  deriving DecidableEq

def billingCommandTransitions : BillingCommandState → List BillingCommandState
  | .pending => [.dispatching, .confirmed]
  | .dispatching => [.dispatching, .pendingProvider, .retryWait, .failed, .confirmed]
  | .pendingProvider => [.confirmed]
  | .retryWait => [.dispatching, .confirmed]
  | .failed => [.pending, .confirmed]
  | .confirmed => []

def canTransitionBillingCommand (source target : BillingCommandState) : Bool :=
  (billingCommandTransitions source).contains target

/-- `BILLING_COMMAND_UNCONFIRMED_STATES`. -/
def isUnconfirmed (state : BillingCommandState) : Bool := state != .confirmed

theorem canTransition_confirmed {state : BillingCommandState} :
    canTransitionBillingCommand state .confirmed = isUnconfirmed state := by
  cases state <;> rfl

inductive SubscriptionCancelMode where
  | immediate
  | atPeriodEnd
  deriving DecidableEq

/-- The parameters of a command: an object with the closed keys of its kind. -/
structure BillingCommandParams where
  mode : Option SubscriptionCancelMode
  subscriptionId : Option Uuid
  amountMinor : Option Nat
  currency : Option JsString
  discountBps : Option Nat
  couponRef : Option JsString
  accountRef : Option JsString
  deriving DecidableEq

/-- Exactly one origin: a change request or an owner's own request. -/
inductive CommandOrigin where
  | changeRequest (id : Uuid)
  | selfServiceRequest (id : Uuid)
  deriving DecidableEq

def CommandOrigin.changeRequestId : CommandOrigin → Option Uuid
  | changeRequest id => some id
  | selfServiceRequest _ => none

inductive ConfirmationSource where
  | webhook
  | refetch
  deriving DecidableEq

/-- `BillingCommandConfirmation`. -/
structure Confirmation where
  source : ConfirmationSource
  eventId : Option JsString
  deriving DecidableEq

/-- A row of `BillingProviderCommand`. -/
structure BillingProviderCommand where
  id : Uuid
  provider : BillingProviderKey
  commandKind : BillingCommandKind
  origin : CommandOrigin
  step : JsString
  idempotencyKey : JsString
  tenantId : Uuid
  productKey : ProductKey
  targetRef : JsString
  params : BillingCommandParams
  state : BillingCommandState
  attempts : Nat
  leaseUntil : Option Nat
  nextAttemptAt : Option Nat
  lastErrorCode : Option JsString
  lastErrorDetail : Option JsString
  providerAcceptedAt : Option Nat
  confirmedAt : Option Nat
  confirmation : Option Confirmation
  failedAt : Option Nat
  providerObjectRef : Option JsString
  createdBy : JsString
  createdAt : Nat
  updatedAt : Nat
  deriving DecidableEq

/-- `subscriptionCancelConfirmed`: the state of the subscription shows the cancel. -/
def subscriptionCancelConfirmed (params : BillingCommandParams) (cancelAtPeriodEnd ends : Bool) :
    Bool :=
  match params.mode with
  | some .immediate => ends
  | some .atPeriodEnd => ends || cancelAtPeriodEnd
  | none => false

/-- The update of `confirmRows`. -/
def confirmCommand (confirmation : Confirmation) (time : Nat) (c : BillingProviderCommand) :
    BillingProviderCommand :=
  { c with
    state := .confirmed, confirmedAt := some time, confirmation := some confirmation
    leaseUntil := none, nextAttemptAt := none, updatedAt := time }

/-- The commands of `confirmSubscriptionCommandsInTx`: unconfirmed cancels of the
tenant and the product on this subscription whose effect the state shows. -/
def confirmsSubscription (provider : BillingProviderKey) (subscriptionRef : JsString)
    (tenantId : Uuid) (productKey : ProductKey) (cancelAtPeriodEnd ends : Bool)
    (c : BillingProviderCommand) : Bool :=
  c.provider == provider && c.targetRef == subscriptionRef &&
    c.commandKind == .subscriptionCancel && c.tenantId == tenantId &&
      c.productKey == productKey && isUnconfirmed c.state &&
        subscriptionCancelConfirmed c.params cancelAtPeriodEnd ends

/-- The commands of `confirmSessionCommandsInTx`, on an expired session. -/
def confirmsSession (provider : BillingProviderKey) (sessionRef : JsString) (tenantId : Uuid)
    (productKey : ProductKey) (c : BillingProviderCommand) : Bool :=
  c.provider == provider && c.targetRef == sessionRef &&
    c.commandKind == .checkoutSessionExpire && c.tenantId == tenantId &&
      c.productKey == productKey && isUnconfirmed c.state

end AramoPlatform.Billing
