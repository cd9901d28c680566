import AramoPlatform.Billing.Tables

/-!
# Payment terms and payment records

The payment terms of an enterprise contract and the payload of a payment
record, past their validation: what the validation promises of a block is a
field of the block.
-/

namespace AramoPlatform.Commercial

open Js Lib Subscription Billing

inductive BillingMode where
  | prepaid
  | postpaid
  deriving DecidableEq

inductive PaymentMethod where
  | bankTransfer
  | cheque
  | cardExternal
  | other
  deriving DecidableEq

def initialObligationRef : JsString := js "INITIAL"

structure PaymentObligationTerm where
  obligationRef : JsString
  /-- A calendar date in the time zone of the contract. -/
  dueDate : JsString
  amountMinor : Nat
  description : JsString
  deriving DecidableEq

structure EvidenceDocument where
  name : JsString
  sha256 : JsString
  byteSize : Option Nat
  mediaType : Option JsString
  deriving DecidableEq

structure PostpaidApproval where
  statement : JsString
  evidenceRef : JsString
  documents : Option (List EvidenceDocument)
  deriving DecidableEq

/-- The terms of a contract less its obligations: the columns of `Contract` that
are all there or all absent. -/
structure ContractPaymentTerms where
  billingMode : BillingMode
  postpaidApproval : Option PostpaidApproval
  currency : JsString
  timezone : JsString
  graceDays : Option Nat
  deriving DecidableEq

/-- `PaymentTermsBlock`, past `paymentTermsErrors`. -/
structure PaymentTermsBlock extends ContractPaymentTerms where
  obligations : List PaymentObligationTerm
  refsNodup : (obligations.map (·.obligationRef)).Nodup
  hasInitial : billingMode = .prepaid → ∃ o ∈ obligations, o.obligationRef = initialObligationRef

def initialObligationOf (t : PaymentTermsBlock) : Option PaymentObligationTerm :=
  if t.billingMode == .prepaid then
    t.obligations.find? (·.obligationRef == initialObligationRef)
  else none

/-- `PaymentEvidence`; its origin is `MANUAL`, the only one. -/
structure PaymentEvidence where
  externalInvoiceRef : JsString
  amountMinor : Nat
  currency : JsString
  receivedOn : JsString
  paymentMethod : PaymentMethod
  paymentReference : JsString
  verification : Option JsString
  evidenceDocuments : List EvidenceDocument
  deriving DecidableEq

/-- The invoice and payment references, one payment for a tenant. -/
def PaymentEvidence.pair (e : PaymentEvidence) : JsString × JsString :=
  (e.externalInvoiceRef, e.paymentReference)

inductive PaymentTarget where
  | contractObligation (contractRef obligationRef : JsString)
  /-- `PROVISIONAL_INITIAL`: its obligation is always `INITIAL`. -/
  | provisionalInitial (contractRef : JsString) (expectedAmountMinor : Nat)
      (expectedCurrency : JsString)
  deriving DecidableEq

inductive PaymentRecordPayload where
  | record (target : PaymentTarget) (evidence : PaymentEvidence)
  | replace (correctsReceiptId : Uuid) (correctionReason : JsString) (evidence : PaymentEvidence)
  | void (correctsReceiptId : Uuid) (correctionReason : JsString) (noContractWillFollow : Bool)
  deriving DecidableEq

/-! ## Refusals -/

/-- `PAYMENT_REFUSAL_CODES`. -/
inductive PaymentRefusalCode where
  | paymentAlreadyRecorded
  | paymentReferenceDuplicate
  | paymentNotRecorded
  | paymentObligationMismatch
  | paymentAmountUnsupported
  | paymentRecordNotGoverned
  | contractRefTaken
  | paymentCorrectionTargetInvalid
  | paymentTermsChangeUndefined
  deriving DecidableEq

/-- `PaymentRecordRefusedError`: its code and the reason in its detail. -/
structure PaymentRecordRefused where
  code : PaymentRefusalCode
  reason : Option JsString
  deriving DecidableEq

def refusal (code : PaymentRefusalCode) (reason : Option JsString) : PaymentRecordRefused :=
  ⟨code, reason⟩

/-- How an amount misses what is expected of it. -/
def amountReason (e : PaymentEvidence) (amountMinor : Nat) (currency : JsString) : JsString :=
  if e.currency != currency then js "currency_differs"
  else if e.amountMinor < amountMinor then js "partial_payment"
  else js "overpayment"

/-! ## The initial obligation -/

theorem initialObligationOf_mem {t : PaymentTermsBlock} {o : PaymentObligationTerm}
    (h : initialObligationOf t = some o) :
    o ∈ t.obligations ∧ o.obligationRef = initialObligationRef := by
  unfold initialObligationOf at h
  split at h
  · exact ⟨List.mem_of_find?_eq_some h, by simpa using List.find?_some h⟩
  · cases h

end AramoPlatform.Commercial
