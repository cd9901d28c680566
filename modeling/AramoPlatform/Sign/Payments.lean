import AramoPlatform.Lib.Outcome
import AramoPlatform.Sign.Ledger
import Mathlib.Algebra.GroupWithZero.Nat

/-!
# Payment records

`SignPaymentRepository`: the payment of one PAYMENT field and its refunds.
The first part is what each function decides and writes, on the rows it has
read. The second part is the machine: every function is the sequence of its
reads and its writing transaction, a separate step each, over a state that
any number of calls share. A call keeps the rows it has read, so a write can
rest on a stale one, exactly where the source reads before it locks.

A transaction is one step from its lock on: the envelope lock, or the row
lock of the payment, keeps the other locking writers out, and its own writes
show only when it commits.
-/

namespace AramoPlatform.Sign

open Js Lib

inductive SignPaymentStatus where
  | pending
  | paid
  | failed
  | partiallyRefunded
  | refunded
  deriving DecidableEq

inductive SignRefundStatus where
  | requested
  | pending
  | succeeded
  | failed
  | canceled
  deriving DecidableEq

structure SignPaymentRow where
  id : Uuid
  envelopeId : Uuid
  signerId : Uuid
  fieldId : Uuid
  accountRef : JsString
  amountMinor : Nat
  currency : JsString
  applicationFeeMinor : Nat
  status : SignPaymentStatus
  checkoutRef : Option JsString
  paymentRef : Option JsString
  amountRefundedMinor : Nat
  live : Bool
  paidAt : Option Nat

structure SignPaymentRefundRow where
  id : Uuid
  amountMinor : Nat
  status : SignRefundStatus
  refundRef : Option JsString
  reason : Option JsString
  requestedBy : Uuid

/-- A payment state change was refused. -/
structure SignPaymentStateError where
  reason : JsString
  message : JsString

/-! ## The provider's reports -/

structure PaymentCheckoutState where
  checkoutRef : JsString
  paid : Bool
  paymentRef : Option JsString
  amountMinor : Nat
  currency : Option JsString
  paymentId : Option Uuid
  live : Bool

inductive ProviderRefundStatus where
  | pending
  | succeeded
  | failed
  | canceled
  deriving DecidableEq

def ProviderRefundStatus.toRow : ProviderRefundStatus → SignRefundStatus
  | .pending => .pending
  | .succeeded => .succeeded
  | .failed => .failed
  | .canceled => .canceled

structure PaymentRefundState where
  refundRef : JsString
  status : ProviderRefundStatus
  refundId : Option Uuid

structure PaymentChargeState where
  paymentRef : JsString
  amountRefundedMinor : Nat

/-! ## What the functions decide on the rows they have read -/

/-- Not `PENDING` and not `FAILED`: the money has been collected. -/
def SignPaymentStatus.isCollected : SignPaymentStatus → Bool
  | .pending | .failed => false
  | .paid | .partiallyRefunded | .refunded => true

/-- `OPEN_REFUND_STATUSES`. -/
def SignRefundStatus.isOpen : SignRefundStatus → Bool
  | .requested | .pending | .succeeded => true
  | .failed | .canceled => false

/-- A status that `applyRefundState` no longer changes. -/
def SignRefundStatus.isFinal : SignRefundStatus → Bool
  | .succeeded | .failed | .canceled => true
  | .requested | .pending => false

def refundedStatus (amountMinor refundedMinor : Nat) : SignPaymentStatus :=
  if refundedMinor ≤ 0 then .paid
  else if refundedMinor ≥ amountMinor then .refunded else .partiallyRefunded

structure PreparePaymentInput where
  envelopeId : Uuid
  signerId : Uuid
  fieldId : Uuid
  accountRef : JsString
  amountMinor : Nat
  currency : JsString
  applicationFeeMinor : Nat

/-- The checks of `preparePayment` on the row it has read. -/
def preparePaymentCheck (existing : SignPaymentRow) (input : PreparePaymentInput) :
    Except SignPaymentStateError Unit := do
  require (!existing.status.isCollected)
    ⟨js "payment_already_completed", js "This payment has already been made"⟩
  require (existing.signerId == input.signerId && existing.envelopeId == input.envelopeId)
    ⟨js "payment_field_mismatch", js "This payment belongs to another recipient"⟩

/-- The update of `preparePayment`. -/
def prepareUpdate (row : SignPaymentRow) (input : PreparePaymentInput) : SignPaymentRow :=
  { row with
    accountRef := input.accountRef, amountMinor := input.amountMinor, currency := input.currency,
    applicationFeeMinor := input.applicationFeeMinor, status := .pending }

/-- The insert of `preparePayment`. -/
def prepareCreate (id : Uuid) (input : PreparePaymentInput) : SignPaymentRow :=
  { id := id, envelopeId := input.envelopeId, signerId := input.signerId,
    fieldId := input.fieldId, accountRef := input.accountRef, amountMinor := input.amountMinor,
    currency := input.currency, applicationFeeMinor := input.applicationFeeMinor,
    status := .pending, checkoutRef := none, paymentRef := none, amountRefundedMinor := 0,
    live := false, paidAt := none }

/-- The update of `recordCheckoutStarted`. -/
def checkoutStartedUpdate (row : SignPaymentRow) (checkout : PaymentCheckoutState) :
    SignPaymentRow :=
  { row with checkoutRef := some checkout.checkoutRef, live := checkout.live }

/-- The payment a checkout is about: by its id, else by its checkout. -/
def checkoutPayment (payment : Option SignPaymentRow) (checkout : PaymentCheckoutState) :
    Option SignPaymentRow :=
  (payment.filter fun p => checkout.paymentId == some p.id) <|>
    payment.filter fun p => p.checkoutRef == some checkout.checkoutRef

/-- The checks of `recordPaid` before its transaction. -/
def recordPaidCheck (toUpperCase : JsString → JsString) (payment : SignPaymentRow)
    (checkout : PaymentCheckoutState) (accountRef : Option JsString) :
    Except SignPaymentStateError Unit := do
  require (accountRef.all (· == payment.accountRef))
    ⟨js "payment_account_mismatch", js "The checkout was not made on the payment account"⟩
  require (checkout.amountMinor == payment.amountMinor &&
      toUpperCase (checkout.currency.getD []) == payment.currency)
    ⟨js "payment_amount_mismatch", js "The checkout amount does not match the payment"⟩

/-- The update of `recordPaid`. -/
def paidUpdate (row : SignPaymentRow) (checkout : PaymentCheckoutState) (now : Nat) :
    SignPaymentRow :=
  { row with
    status := .paid, paymentRef := checkout.paymentRef, checkoutRef := some checkout.checkoutRef,
    live := checkout.live, paidAt := some now }

/-- The refunded total as `applyRefundState` and `applyChargeRefunds` store it. -/
def refundedUpdate (row : SignPaymentRow) (amountMinor refunded : Nat) : SignPaymentRow :=
  { row with amountRefundedMinor := refunded, status := refundedStatus amountMinor refunded }

/-- The total of the refunds in `OPEN_REFUND_STATUSES`. -/
def openTotal (refunds : List SignPaymentRefundRow) : Nat :=
  ((refunds.filter (·.status.isOpen)).map (·.amountMinor)).sum

structure RequestRefundInput where
  /-- Whole cents, or the whole remaining amount. A fraction is refused by
  the same check as an amount out of range. -/
  amountMinor : Option Int
  reason : Option JsString
  requestedBy : Uuid

/-- `requestRefund` on the locked payment: the amount it records. -/
def requestRefundAmount (payment : SignPaymentRow) (refunds : List SignPaymentRefundRow)
    (input : RequestRefundInput) : Except SignPaymentStateError Nat := do
  require (payment.status == .paid || payment.status == .partiallyRefunded)
    ⟨js "payment_not_refundable", js "Only a paid payment can be refunded"⟩
  let committed := max payment.amountRefundedMinor (openTotal refunds)
  let refundable : Int := payment.amountMinor - committed
  let amount := input.amountMinor.getD refundable
  require (0 < amount && amount ≤ refundable)
    ⟨js "refund_amount_invalid",
      js "The refund must be between 1 and " ++ js (toString refundable) ++ js " cents"⟩
  pure amount.toNat

/-- The refund a report is about: by its provider reference, by the id it
carries, or by the id the caller gives. -/
def refundOf (refunds : List SignPaymentRefundRow) (state : PaymentRefundState)
    (fallbackRefundId : Option Uuid) : Option SignPaymentRefundRow :=
  (refunds.find? fun r => r.refundRef == some state.refundRef) <|>
    (refunds.find? fun r => state.refundId == some r.id) <|>
      refunds.find? fun r => fallbackRefundId == some r.id

/-- An update of the refund row with this id. -/
def updateRefund (refunds : List SignPaymentRefundRow) (id : Uuid)
    (f : SignPaymentRefundRow → SignPaymentRefundRow) : List SignPaymentRefundRow :=
  refunds.map fun r => if r.id = id then f r else r

/-- The total `applyChargeRefunds` computes from the row it has read. -/
def chargeRefunded (payment : SignPaymentRow) (charge : PaymentChargeState) : Nat :=
  min payment.amountMinor (max payment.amountRefundedMinor charge.amountRefundedMinor)

@[simp] theorem isCollected_refundedStatus (amount refunded : Nat) :
    (refundedStatus amount refunded).isCollected = true := by
  unfold refundedStatus
  repeat' split
  all_goals rfl

end AramoPlatform.Sign
