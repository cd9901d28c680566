import AramoPlatform.Commercial.PaymentReceipts

/-!
# Subscriptions that carry a contract

The apply of an opening and of a change, as far as their contract and their
payments go. What the plan, its version and the usage of the period answer
comes with the step.
-/

namespace AramoPlatform.Commercial

open Js Lib Subscription Billing

/-- What the plan and its version fix for the row that an opening writes. -/
structure OpeningTerms where
  planId : Uuid
  planVersionId : Uuid
  periodAnchor : Nat
  commitmentStart : Option Nat
  commitmentEnd : Option Nat
  deriving DecidableEq

def assertNotStripeOwned (s : TenantSubscription) : Except ApplyFailure Unit :=
  require (s.billingSubscriptionRef.isNone && s.source != .selfService) .stripeOwned

/-- A row that is replaced must not be the provider's. -/
def assertReplaceable : Option TenantSubscription → Except ApplyFailure Unit
  | none => pure ()
  | some s => assertNotStripeOwned s

/-- The row that an opening writes. -/
def openedSubscription (id tenantId : Uuid) (productKey : ProductKey) (createdBy : JsString)
    (terms : OpeningTerms) : TenantSubscription where
  id := id
  tenantId := tenantId
  productKey := productKey
  planId := terms.planId
  planVersionId := terms.planVersionId
  periodAnchor := terms.periodAnchor
  source := .manual
  endedAt := none
  createdBy := createdBy
  status := .active
  billingProvider := none
  billingAccountRef := none
  billingSubscriptionRef := none
  currentPeriodEnd := none
  cancelAtPeriodEnd := false
  graceUntil := none
  providerStateAt := none
  activatedBy := none
  commitmentStart := terms.commitmentStart
  commitmentEnd := terms.commitmentEnd
  cancelRequestedWithinCommitment := false
  eligibilityState := none
  eligibilityCheckedAt := none
  storeProductId := none
  storeEnvironment := none
  storeInterval := none

/-- The row that an opening replaces is ended. -/
def endReplacedRow (now : Nat) (s : TenantSubscription) : TenantSubscription :=
  { s with
    endedAt := some now
    status := if s.status == .active then .canceled else s.status }

/-- The tables after the subscription write of an opening: the open row ended, the
new one inserted. -/
def writeOpening (db : PaymentDb) (replaced : Option TenantSubscription)
    (opened : TenantSubscription) (now : Nat) : PaymentDb :=
  { db with
    subscriptions :=
      updateWhere (fun s => replaced.any (·.id == s.id)) (endReplacedRow now) db.subscriptions ++
        [opened]
    nextId := db.nextId + 1 }

structure SubscriptionOpenRequest where
  request : GoverningRequest
  tenantId : Uuid
  productKey : ProductKey
  replacesSubscriptionId : Option Uuid
  contract : Option ContractRecordBlock
  /-- The answer of the plan, its version and the usage. -/
  terms : Except JsString OpeningTerms
  now : Nat

/-- `completeInTx` for `SUBSCRIPTION_OPEN`. -/
def openSubscription (db : PaymentDb) (r : SubscriptionOpenRequest) :
    Except ApplyFailure PaymentDb := do
  let receipt ← liftPayment (prepaidInitialReceipt db r.tenantId r.productKey r.contract)
  let terms ← r.terms.mapError .plan
  let replaced := db.subscriptions.find? (isOpenBase r.tenantId r.productKey)
  assertReplaceable replaced
  require (replaced.map (·.id) == r.replacesSubscriptionId) .targetStale
  require (replaced.all (·.source != .free)) .targetNotReplaceable
  let opened := openedSubscription db.nextId r.tenantId r.productKey r.request.requestedBy terms
  let written := writeOpening db replaced opened r.now
  -- a contract ends by an explicit end only
  require (replaced.all fun s => (written.contractOfSubscription s.id).isNone) .contractMismatch
  match r.contract with
    | none => pure written
    | some block => applyContractRecord written opened.id block receipt r.request r.now

inductive ContractChange where
  | record (block : ContractRecordBlock)
  | amend (block : ContractAmendmentBlock)

structure SubscriptionChangeRequest where
  request : GoverningRequest
  tenantId : Uuid
  productKey : ProductKey
  subscriptionId : Uuid
  contract : Option ContractChange
  /-- The answer of the plan, its version and the usage: the plan and the version to pin. -/
  terms : Except JsString (Uuid × Uuid)
  now : Nat

def governedTarget (db : PaymentDb) (tenantId : Uuid) (productKey : ProductKey)
    (subscriptionId : Uuid) : Except ApplyFailure TenantSubscription := do
  let row ← orThrow (db.subscription? subscriptionId) .targetNotFound
  require (row.tenantId == tenantId && row.productKey == productKey) .targetNotFound
  assertNotStripeOwned row
  require row.endedAt.isNone .targetStale
  require (isGovernedSubscription row) .targetNotGoverned
  pure row

/-- The re-pin of a changed subscription. -/
def pinVersion (planId planVersionId : Uuid) (s : TenantSubscription) : TenantSubscription :=
  { s with planId := planId, planVersionId := planVersionId }

/-- The tables after the subscription write of a change; the same version writes nothing. -/
def writeChange (db : PaymentDb) (row : TenantSubscription) (planId planVersionId : Uuid) :
    PaymentDb :=
  { db with
    subscriptions := updateWhere (fun s => s.id == row.id && planVersionId != row.planVersionId)
      (pinVersion planId planVersionId) db.subscriptions }

/-- `completeInTx` for `SUBSCRIPTION_CHANGE`. -/
def changeSubscription (db : PaymentDb) (r : SubscriptionChangeRequest) :
    Except ApplyFailure PaymentDb := do
  let row ← governedTarget db r.tenantId r.productKey r.subscriptionId
  let (planId, planVersionId) ← r.terms.mapError .plan
  require (planVersionId != row.planVersionId || r.contract.isSome) .noChange
  let written := writeChange db row planId planVersionId
  match r.contract with
    | none => pure written
    | some (.record block) => applyContractRecord written row.id block none r.request r.now
    | some (.amend block) => applyContractAmendment written row.id block r.request r.now

/-! ## Steps -/

/-- Another writer inserts or updates a subscription row; no row is ever deleted. -/
def writeSubscription (db : PaymentDb) (x : TenantSubscription) : PaymentDb :=
  if db.subscriptions.any (·.id == x.id) then
    { db with subscriptions := updateWhere (·.id == x.id) (fun _ => x) db.subscriptions }
  else
    { db with
      subscriptions := db.subscriptions ++ [{ x with id := db.nextId }]
      nextId := db.nextId + 1 }

inductive PaymentOp where
  | paymentRecord (request : GoverningRequest) (tenantId : Uuid) (productKey : ProductKey)
      (payload : PaymentRecordPayload) (now : Nat)
  | subscriptionOpen (request : SubscriptionOpenRequest)
  | subscriptionChange (request : SubscriptionChangeRequest)
  | subscriptionWritten (row : TenantSubscription)

/-- An apply that fails rolls back. -/
def paymentNext (db : PaymentDb) : PaymentOp → Except ApplyFailure PaymentDb
  | .paymentRecord request tenantId productKey payload now => do
    let (next, _) ← liftPayment
      (applyPaymentRecordInTx db request tenantId productKey now payload)
    pure next
  | .subscriptionOpen request => openSubscription db request
  | .subscriptionChange request => changeSubscription db request
  | .subscriptionWritten row => pure (writeSubscription db row)

/-- A step is an apply that succeeds. -/
def paymentStep (db : PaymentDb) (op : PaymentOp) (next : PaymentDb) : Prop :=
  paymentNext db op = .ok next

/-- The receipt that a payment record corrects. -/
def PaymentOp.corrects (id : Uuid) : PaymentOp → Bool
  | .paymentRecord _ _ _ (.replace receiptId ..) _ => receiptId == id
  | .paymentRecord _ _ _ (.void receiptId ..) _ => receiptId == id
  | _ => false

end AramoPlatform.Commercial
