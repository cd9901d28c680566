import AramoPlatform.Commercial.PaymentTerms

/-!
# Payment receipts

The receipts of payments that were made outside, the obligations they settle
and the contracts these belong to. A receipt may come before its contract, under
the reference the contract will have; the opening of the subscription links it.
Every apply runs under the billing lock of its tenant.
-/

namespace AramoPlatform.Commercial

open Js Lib Subscription Billing

/-! ## Rows -/

/-- A row of `Contract`; a contract from before the payment terms has none. -/
structure Contract where
  id : Uuid
  contractRef : JsString
  tenantSubscriptionId : Uuid
  paymentTerms : Option ContractPaymentTerms
  recordedByChangeRequestId : Uuid
  deriving DecidableEq

structure ContractPaymentObligation where
  id : Uuid
  contractId : Uuid
  obligationRef : JsString
  dueDate : JsString
  amountMinor : Nat
  currency : JsString
  description : JsString
  recordedByChangeRequestId : Uuid
  recordedAt : Nat
  deriving DecidableEq

/-- The linkage columns, all there or all absent. -/
structure ReceiptLink where
  contractId : Uuid
  obligationId : Uuid
  linkedAt : Nat
  linkedByChangeRequestId : Uuid
  deriving DecidableEq

/-- The provisional columns, all there or all absent. -/
structure ProvisionalIdentity where
  contractRef : JsString
  obligationRef : JsString
  amountMinor : Nat
  currency : JsString
  deriving DecidableEq

/-- `entry_kind`; a correction names the receipt it replaces. -/
inductive EntryKind where
  | record
  | correction (correctsReceiptId : Uuid)
  deriving DecidableEq

structure CorrectionMark where
  correctedAt : Nat
  correctedByChangeRequestId : Uuid
  deriving DecidableEq

/-- A row of `CommercialPaymentReceipt`. Without a provisional identity it is linked
from the start. -/
structure PaymentReceipt where
  id : Uuid
  changeRequestId : Uuid
  tenantId : Uuid
  productKey : ProductKey
  entry : EntryKind
  link : Option ReceiptLink
  provisional : Option ProvisionalIdentity
  evidence : PaymentEvidence
  corrected : Option CorrectionMark
  recordedBy : JsString
  recordedAt : Nat
  placed : (provisional.isSome || link.isSome) = true
  deriving DecidableEq

namespace PaymentReceipt

/-- A receipt that no correction has superseded. -/
def isEffective (r : PaymentReceipt) : Bool := r.corrected.isNone

def settles (obligationId : Uuid) (r : PaymentReceipt) : Bool :=
  r.link.any (·.obligationId == obligationId)

/-- An effective receipt that waits for the contract `contractRef`. -/
def isWaitingFor (contractRef : JsString) (r : PaymentReceipt) : Bool :=
  r.provisional.any (·.contractRef == contractRef) && r.link.isNone && r.isEffective

/-- A receipt that the opening of its contract consumed. -/
def isConsumedInitial (r : PaymentReceipt) : Bool := r.link.isSome && r.provisional.isSome

def markCorrected (mark : CorrectionMark) (r : PaymentReceipt) : PaymentReceipt :=
  { r with corrected := some mark }

def linkTo (link : ReceiptLink) (r : PaymentReceipt) : PaymentReceipt :=
  { r with link := some link, placed := by simp }

end PaymentReceipt

/-- The request that governs a write: its id and its requester. -/
structure GoverningRequest where
  id : Uuid
  requestedBy : JsString
  deriving DecidableEq

structure PaymentDb where
  subscriptions : List TenantSubscription
  contracts : List Contract
  obligations : List ContractPaymentObligation
  receipts : List PaymentReceipt
  /-- The supply of new ids. -/
  nextId : Uuid
  deriving DecidableEq

namespace PaymentDb

variable (db : PaymentDb)

def subscription? (id : Uuid) : Option TenantSubscription := db.subscriptions.find? (·.id == id)

def obligation? (id : Uuid) : Option ContractPaymentObligation :=
  db.obligations.find? (·.id == id)

def receipt? (id : Uuid) : Option PaymentReceipt := db.receipts.find? (·.id == id)

/-- `contractByRef`: the contract and the subscription it joins. -/
def contractByRef (contractRef : JsString) : Option (Contract × TenantSubscription) :=
  db.contracts.findSome? fun c =>
    if c.contractRef == contractRef then
      (db.subscription? c.tenantSubscriptionId).map fun s => (c, s)
    else none

def obligationOf (contractId : Uuid) (obligationRef : JsString) :
    Option ContractPaymentObligation :=
  db.obligations.find? fun o => o.contractId == contractId && o.obligationRef == obligationRef

def contractOfSubscription (subscriptionId : Uuid) : Option Contract :=
  db.contracts.find? (·.tenantSubscriptionId == subscriptionId)

def insertReceipt (r : PaymentReceipt) : PaymentDb :=
  { db with receipts := db.receipts ++ [r], nextId := db.nextId + 1 }

def updateReceipt (id : Uuid) (f : PaymentReceipt → PaymentReceipt) : PaymentDb :=
  { db with receipts := updateWhere (·.id == id) f db.receipts }

end PaymentDb

/-! ## Resolution of a payment record -/

def assertGoverned (s : TenantSubscription) : Except PaymentRecordRefused Unit :=
  require (s.source == .manual && s.billingSubscriptionRef.isNone)
    (refusal .paymentRecordNotGoverned none)

/-- The receipts of the tenant that carry the pair of the evidence, one receipt
excepted. -/
def hasReference (db : PaymentDb) (tenantId : Uuid) (e : PaymentEvidence)
    (exceptReceiptId : Option Uuid) : Bool :=
  db.receipts.any fun r =>
    r.tenantId == tenantId && r.evidence.pair == e.pair && exceptReceiptId != some r.id

def assertReferenceFree (db : PaymentDb) (tenantId : Uuid) (e : PaymentEvidence)
    (exceptReceiptId : Option Uuid) : Except PaymentRecordRefused Unit :=
  require (!hasReference db tenantId e exceptReceiptId)
    (refusal .paymentReferenceDuplicate none)

/-- Exact settlement. -/
def assertAmount (e : PaymentEvidence) (amountMinor : Nat) (currency : JsString) :
    Except PaymentRecordRefused Unit :=
  require (e.amountMinor == amountMinor && e.currency == currency)
    (refusal .paymentAmountUnsupported (some (amountReason e amountMinor currency)))

/-- What a payload was resolved to, with the evidence it records. -/
inductive PaymentRecordResolution where
  | linked (contract : Contract) (subscription : TenantSubscription)
      (obligation : ContractPaymentObligation) (evidence : PaymentEvidence)
  | provisional (contractRef : JsString) (amountMinor : Nat) (currency : JsString)
      (evidence : PaymentEvidence)
  | replaced (original : PaymentReceipt) (evidence : PaymentEvidence)
  | voided (original : PaymentReceipt)

/-- A record of an obligation of an existing contract. -/
def resolveLinked (db : PaymentDb) (tenantId : Uuid) (productKey : ProductKey)
    (contractRef obligationRef : JsString) (e : PaymentEvidence) :
    Except PaymentRecordRefused PaymentRecordResolution := do
  let (contract, subscription) ← orThrow (db.contractByRef contractRef)
    (refusal .paymentObligationMismatch (some (js "contract_not_found")))
  -- a contract of another tenant is refused like a missing one
  require (subscription.tenantId == tenantId && subscription.productKey == productKey)
    (refusal .paymentObligationMismatch (some (js "contract_not_found")))
  assertGoverned subscription
  require contract.paymentTerms.isSome
    (refusal .paymentObligationMismatch (some (js "contract_has_no_payment_terms")))
  let obligation ← orThrow (db.obligationOf contract.id obligationRef)
    (refusal .paymentObligationMismatch (some (js "obligation_not_found")))
  require (db.receipts.all fun r => !(r.settles obligation.id && r.isEffective))
    (refusal .paymentAlreadyRecorded none)
  assertAmount e obligation.amountMinor obligation.currency
  assertReferenceFree db tenantId e none
  pure (.linked contract subscription obligation e)

/-- A record of the initial payment of a contract to come. -/
def resolveProvisional (db : PaymentDb) (tenantId : Uuid) (productKey : ProductKey)
    (contractRef : JsString) (amountMinor : Nat) (currency : JsString) (e : PaymentEvidence) :
    Except PaymentRecordRefused PaymentRecordResolution := do
  require (db.contractByRef contractRef).isNone (refusal .contractRefTaken none)
  let held := db.receipts.filter (·.isWaitingFor contractRef)
  require (held.all fun r => !(r.tenantId == tenantId && r.productKey == productKey))
    (refusal .paymentAlreadyRecorded none)
  require held.isEmpty (refusal .contractRefTaken (some (js "held_by_an_unlinked_receipt")))
  require ((db.subscriptions.filter (isOpenBase tenantId productKey)).all fun s =>
      s.source != .selfService && s.billingSubscriptionRef.isNone)
    (refusal .paymentRecordNotGoverned none)
  assertAmount e amountMinor currency
  assertReferenceFree db tenantId e none
  pure (.provisional contractRef amountMinor currency e)

/-- What a replacement has to settle: the obligation of the receipt, or what the
provisional identity expects. -/
def expectedOf (db : PaymentDb) (o : PaymentReceipt) : Option (Nat × JsString) :=
  match o.link.bind fun l => db.obligation? l.obligationId with
  | some obligation => some (obligation.amountMinor, obligation.currency)
  | none => o.provisional.map fun p => (p.amountMinor, p.currency)

/-- The uncorrected receipt of the tenant that a correction names. -/
def correctionTarget (db : PaymentDb) (tenantId : Uuid) (productKey : ProductKey)
    (correctsReceiptId : Uuid) : Except PaymentRecordRefused PaymentReceipt := do
  let o ← orThrow (db.receipt? correctsReceiptId)
    (refusal .paymentCorrectionTargetInvalid (some (js "receipt_not_found")))
  require (o.tenantId == tenantId && o.productKey == productKey)
    (refusal .paymentCorrectionTargetInvalid (some (js "receipt_not_found")))
  require o.isEffective
    (refusal .paymentCorrectionTargetInvalid (some (js "already_corrected")))
  pure o

def assertExpected (o : PaymentReceipt) (expected : Option (Nat × JsString))
    (e : PaymentEvidence) : Except PaymentRecordRefused Unit :=
  require (expected == some (e.amountMinor, e.currency))
    (if o.isConsumedInitial then
      refusal .paymentObligationMismatch (some (js "consumed_initial_would_mismatch_its_contract"))
    else
      refusal .paymentAmountUnsupported
        (some ((expected.map fun x => amountReason e x.1 x.2).getD (js "currency_differs"))))

def resolvePaymentRecordInTx (db : PaymentDb) (tenantId : Uuid) (productKey : ProductKey) :
    PaymentRecordPayload → Except PaymentRecordRefused PaymentRecordResolution
  | .record (.contractObligation contractRef obligationRef) e =>
    resolveLinked db tenantId productKey contractRef obligationRef e
  | .record (.provisionalInitial contractRef amountMinor currency) e =>
    resolveProvisional db tenantId productKey contractRef amountMinor currency e
  | .void correctsReceiptId _ noContractWillFollow => do
    let o ← correctionTarget db tenantId productKey correctsReceiptId
    require (!o.isConsumedInitial)
      (refusal .paymentObligationMismatch (some (js "consumed_initial_cannot_be_voided")))
    require (o.link.isSome || noContractWillFollow)
      (refusal .paymentCorrectionTargetInvalid (some (js "no_contract_will_follow_required")))
    pure (.voided o)
  | .replace correctsReceiptId _ e => do
    let o ← correctionTarget db tenantId productKey correctsReceiptId
    assertExpected o (expectedOf db o) e
    assertReferenceFree db tenantId e (some o.id)
    pure (.replaced o e)

/-! ## The apply of a payment record -/

/-- The events of a payment record, with the ids they carry. -/
inductive PaymentEvent where
  | recorded (receiptId : Uuid) (linked : Bool)
  | corrected (receiptId : Uuid) (replacementId : Option Uuid) (consumedInitial : Bool)
  deriving DecidableEq

structure PaymentRecordEffect where
  subscriptionId : Option Uuid
  event : PaymentEvent
  deriving DecidableEq

section Apply

variable (db : PaymentDb) (req : GoverningRequest) (tenantId : Uuid) (productKey : ProductKey)
  (now : Nat)

def linkedReceipt (contract : Contract) (obligation : ContractPaymentObligation)
    (e : PaymentEvidence) : PaymentReceipt where
  id := db.nextId
  changeRequestId := req.id
  tenantId := tenantId
  productKey := productKey
  entry := .record
  link := some ⟨contract.id, obligation.id, now, req.id⟩
  provisional := none
  evidence := e
  corrected := none
  recordedBy := req.requestedBy
  recordedAt := now
  placed := rfl

def provisionalReceipt (contractRef : JsString) (amountMinor : Nat) (currency : JsString)
    (e : PaymentEvidence) : PaymentReceipt where
  id := db.nextId
  changeRequestId := req.id
  tenantId := tenantId
  productKey := productKey
  entry := .record
  link := none
  provisional := some ⟨contractRef, initialObligationRef, amountMinor, currency⟩
  evidence := e
  corrected := none
  recordedBy := req.requestedBy
  recordedAt := now
  placed := rfl

/-- The replacement: the role of the original, new evidence. -/
def replacementReceipt (o : PaymentReceipt) (e : PaymentEvidence) : PaymentReceipt where
  id := db.nextId
  changeRequestId := req.id
  tenantId := tenantId
  productKey := productKey
  entry := .correction o.id
  link := o.link.map fun l => { l with linkedAt := now, linkedByChangeRequestId := req.id }
  provisional := o.provisional
  evidence := e
  corrected := none
  recordedBy := req.requestedBy
  recordedAt := now
  placed := by simpa using o.placed

def subscriptionOfContract (contractId : Uuid) : Option Uuid :=
  (db.contracts.find? (·.id == contractId)).map (·.tenantSubscriptionId)

def subscriptionOfReceipt (o : PaymentReceipt) : Option Uuid :=
  o.link.bind fun l => subscriptionOfContract db l.contractId

/-- What the apply writes for a resolution. -/
def writePaymentRecord : PaymentRecordResolution → PaymentDb × PaymentRecordEffect
  | .linked contract subscription obligation e =>
    (db.insertReceipt (linkedReceipt db req tenantId productKey now contract obligation e),
      ⟨some subscription.id, .recorded db.nextId true⟩)
  | .provisional contractRef amountMinor currency e =>
    (db.insertReceipt
        (provisionalReceipt db req tenantId productKey now contractRef amountMinor currency e),
      ⟨none, .recorded db.nextId false⟩)
  | .voided o =>
    (db.updateReceipt o.id (·.markCorrected ⟨now, req.id⟩),
      ⟨subscriptionOfReceipt db o, .corrected o.id none o.isConsumedInitial⟩)
  | .replaced o e =>
    -- the original is superseded first
    ((db.updateReceipt o.id (·.markCorrected ⟨now, req.id⟩)).insertReceipt
        (replacementReceipt db req tenantId productKey now o e),
      ⟨subscriptionOfReceipt db o, .corrected o.id (some db.nextId) o.isConsumedInitial⟩)

def applyPaymentRecordInTx (p : PaymentRecordPayload) :
    Except PaymentRecordRefused (PaymentDb × PaymentRecordEffect) := do
  let r ← resolvePaymentRecordInTx db tenantId productKey p
  pure (writePaymentRecord db req tenantId productKey now r)

end Apply

/-! ## Contracts -/

/-- `ContractRecordBlock`, less the evidence that nothing reads. -/
structure ContractRecordBlock where
  contractRef : JsString
  paymentTerms : PaymentTermsBlock

/-- `ContractAmendmentBlock`, likewise. -/
structure ContractAmendmentBlock where
  contractId : Uuid
  paymentTerms : Option PaymentTermsBlock

/-- Why the apply of a subscription fails. -/
inductive ApplyFailure where
  | payment (refused : PaymentRecordRefused)
  | targetStale
  | targetNotReplaceable
  | targetNotFound
  | targetNotGoverned
  | stripeOwned
  | noChange
  | oneOpenBaseViolation
  | contractMismatch
  | contractAlreadyRecorded
  | contractRefTaken
  /-- Refused by the plan, its version or the usage of the period. -/
  | plan (code : JsString)
  deriving DecidableEq

def liftPayment {α : Type} (x : Except PaymentRecordRefused α) : Except ApplyFailure α :=
  x.mapError .payment

def initialReceiptFor (db : PaymentDb) (tenantId : Uuid) (productKey : ProductKey)
    (contractRef : JsString) (initial : PaymentObligationTerm) (currency : JsString) :
    Except PaymentRecordRefused PaymentReceipt := do
  let r ← orThrow (db.receipts.find? fun r =>
      r.tenantId == tenantId && r.productKey == productKey && r.isWaitingFor contractRef)
    (refusal .paymentNotRecorded none)
  require (r.provisional.any (fun p => p.obligationRef == initialObligationRef &&
        p.amountMinor == initial.amountMinor && p.currency == currency) &&
      r.evidence.amountMinor == initial.amountMinor && r.evidence.currency == currency)
    (refusal .paymentObligationMismatch (some (js "amount_or_currency_differs")))
  pure r

/-- `prepaidInitialReceipt`: only the opening of a prepaid contract has one. -/
def prepaidInitialReceipt (db : PaymentDb) (tenantId : Uuid) (productKey : ProductKey) :
    Option ContractRecordBlock → Except PaymentRecordRefused (Option PaymentReceipt)
  | none => pure none
  | some block =>
    match initialObligationOf block.paymentTerms with
    | none => pure none
    | some initial => do
      let r ← initialReceiptFor db tenantId productKey block.contractRef initial
        block.paymentTerms.currency
      pure (some r)

def assertContractRefFreeOfReceipts (db : PaymentDb) (contractRef : JsString)
    (linkingReceiptId : Option Uuid) : Except PaymentRecordRefused Unit :=
  require (!db.receipts.any fun r => r.isWaitingFor contractRef && linkingReceiptId != some r.id)
    (refusal .contractRefTaken (some (js "held_by_an_unlinked_receipt")))

def recordContractInTx (db : PaymentDb) (subscriptionId : Uuid) (block : ContractRecordBlock)
    (req : GoverningRequest) : Except ApplyFailure (PaymentDb × Uuid) := do
  require (db.contractOfSubscription subscriptionId).isNone .contractAlreadyRecorded
  -- the unique index on the reference
  require (db.contracts.all (·.contractRef != block.contractRef)) .contractRefTaken
  pure ({ db with
    contracts := db.contracts ++ [{
      id := db.nextId
      contractRef := block.contractRef
      tenantSubscriptionId := subscriptionId
      paymentTerms := some block.paymentTerms.toContractPaymentTerms
      recordedByChangeRequestId := req.id }]
    nextId := db.nextId + 1 }, db.nextId)

/-- One row of `recordObligationsInTx`. -/
def recordObligation (contractId : Uuid) (currency : JsString) (changeRequestId : Uuid) (now : Nat)
    (db : PaymentDb) (o : PaymentObligationTerm) : PaymentDb :=
  { db with
    obligations := db.obligations ++ [{
      id := db.nextId
      contractId := contractId
      obligationRef := o.obligationRef
      dueDate := o.dueDate
      amountMinor := o.amountMinor
      currency := currency
      description := o.description
      recordedByChangeRequestId := changeRequestId
      recordedAt := now }]
    nextId := db.nextId + 1 }

def recordObligationsInTx (db : PaymentDb) (contractId : Uuid)
    (obligations : List PaymentObligationTerm) (currency : JsString) (changeRequestId : Uuid)
    (now : Nat) : PaymentDb :=
  obligations.foldl (recordObligation contractId currency changeRequestId now) db

def linkInitialReceiptInTx (db : PaymentDb) (receiptId contractId obligationId : Uuid)
    (changeRequestId : Uuid) (now : Nat) : PaymentDb :=
  db.updateReceipt receiptId (·.linkTo ⟨contractId, obligationId, now, changeRequestId⟩)

/-- `applyContract` for a `contract` block. -/
def applyContractRecord (db : PaymentDb) (subscriptionId : Uuid) (block : ContractRecordBlock)
    (receipt : Option PaymentReceipt) (req : GoverningRequest) (now : Nat) :
    Except ApplyFailure PaymentDb := do
  liftPayment (assertContractRefFreeOfReceipts db block.contractRef (receipt.map (·.id)))
  let (recorded, contractId) ← recordContractInTx db subscriptionId block req
  let obliged := recordObligationsInTx recorded contractId block.paymentTerms.obligations
    block.paymentTerms.currency req.id now
  match receipt with
  | none => pure obliged
  | some r =>
    match obliged.obligationOf contractId initialObligationRef with
    | none => pure obliged
    | some initial => pure (linkInitialReceiptInTx obliged r.id contractId initial.id req.id now)

/-- A recorded obligation stands unchanged in the amended terms. -/
def keepsObligation (terms : PaymentTermsBlock) (e : ContractPaymentObligation) :
    Except PaymentRecordRefused Unit := do
  let n ← orThrow (terms.obligations.find? (·.obligationRef == e.obligationRef))
    (refusal .paymentTermsChangeUndefined (some (js "obligation_removed")))
  require (n.dueDate == e.dueDate && n.amountMinor == e.amountMinor &&
      n.description == e.description)
    (refusal .paymentTermsChangeUndefined (some (js "obligation_changed")))

/-- `amendmentObligationsToAdd`: an amendment keeps every recorded term. -/
def amendmentObligationsToAdd (db : PaymentDb) (contractId : Uuid) (terms : PaymentTermsBlock) :
    Except PaymentRecordRefused (List PaymentObligationTerm) := do
  let recorded ← orThrow ((db.contracts.find? (·.id == contractId)).bind (·.paymentTerms))
    (refusal .paymentTermsChangeUndefined (some (js "contract_has_no_payment_terms")))
  require (recorded == terms.toContractPaymentTerms)
    (refusal .paymentTermsChangeUndefined (some (js "contract_terms_differ")))
  let existing := db.obligations.filter (·.contractId == contractId)
  existing.forM (keepsObligation terms)
  pure (terms.obligations.filter fun o => !existing.any (·.obligationRef == o.obligationRef))

/-- What an amendment adds; without payment terms, nothing. -/
def amendmentAdditions (db : PaymentDb) (block : ContractAmendmentBlock) :
    Except ApplyFailure (List PaymentObligationTerm) :=
  match block.paymentTerms with
  | none => pure []
  | some terms => liftPayment (amendmentObligationsToAdd db block.contractId terms)

/-- `applyContract` for a `contract_amendment` block. -/
def applyContractAmendment (db : PaymentDb) (subscriptionId : Uuid) (block : ContractAmendmentBlock)
    (req : GoverningRequest) (now : Nat) : Except ApplyFailure PaymentDb := do
  let add ← amendmentAdditions db block
  let contract ← orThrow (db.contracts.find? (·.id == block.contractId)) .contractMismatch
  require (contract.tenantSubscriptionId == subscriptionId) .contractMismatch
  match block.paymentTerms with
  | none => pure db
  | some terms => pure (recordObligationsInTx db contract.id add terms.currency req.id now)

end AramoPlatform.Commercial
