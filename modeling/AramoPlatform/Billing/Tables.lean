import AramoPlatform.Billing.ProviderCommand
import AramoPlatform.Commercial.Transitions
import AramoPlatform.Subscription.Allowance

/-!
# The billing tables

The rows that a checkout, a provider state and a conversion read and write.
A transaction is a function that gives the new tables or fails, and a failure
rolls back. The unique indexes are checked where a row is inserted.
-/

namespace AramoPlatform.Billing

open Js Lib Subscription

/-! ## Rows -/

inductive SubscriptionSource where
  | manual
  | development
  | selfService
  | free
  deriving DecidableEq

inductive EligibilityState where
  | ok
  | lapsed
  deriving DecidableEq

inductive StoreEnvironment where
  | sandbox
  | production
  deriving DecidableEq

/-- A row of `TenantSubscription`. Its composition role is `BASE`, the only one. -/
structure TenantSubscription where
  id : Uuid
  tenantId : Uuid
  productKey : ProductKey
  planId : Uuid
  planVersionId : Uuid
  periodAnchor : Nat
  source : SubscriptionSource
  endedAt : Option Nat
  createdBy : JsString
  status : SubscriptionStatus
  billingProvider : Option BillingProviderKey
  billingAccountRef : Option JsString
  billingSubscriptionRef : Option JsString
  currentPeriodEnd : Option Nat
  cancelAtPeriodEnd : Bool
  graceUntil : Option Nat
  providerStateAt : Option Nat
  activatedBy : Option JsString
  commitmentStart : Option Nat
  commitmentEnd : Option Nat
  cancelRequestedWithinCommitment : Bool
  eligibilityState : Option EligibilityState
  eligibilityCheckedAt : Option Nat
  storeProductId : Option JsString
  storeEnvironment : Option StoreEnvironment
  storeInterval : Option BilledInterval
  deriving DecidableEq

/-- `openBaseSubscription`. -/
def isOpenBase (tenantId : Uuid) (productKey : ProductKey) (x : TenantSubscription) : Bool :=
  x.tenantId == tenantId && x.productKey == productKey && x.endedAt.isNone

def isGovernedSubscription (x : TenantSubscription) : Bool :=
  x.endedAt.isNone && x.source == .manual

/-- The row of a provider subscription. -/
def isOfProvider (provider : BillingProviderKey) (ref : JsString) (x : TenantSubscription) : Bool :=
  x.billingProvider == some provider && x.billingSubscriptionRef == some ref

inductive IntentStatus where
  | created
  | completed
  | expired
  deriving DecidableEq

def IntentStatus.text : IntentStatus → JsString
  | created => js "CREATED"
  | completed => js "COMPLETED"
  | expired => js "EXPIRED"

structure CheckoutIntent where
  id : Uuid
  tenantId : Uuid
  userId : JsString
  planId : Uuid
  provider : BillingProviderKey
  providerSessionRef : Option JsString
  status : IntentStatus
  completedAt : Option Nat
  termsVersion : Option JsString
  termsSha256 : Option JsString
  deriving DecidableEq

inductive GuardReason where
  | billingCountryNotSupported
  | domainNotAuthoritative
  | governedSubscriptionOpen
  deriving DecidableEq

structure BillingReconciliationFlag where
  tenantId : Uuid
  provider : BillingProviderKey
  subscriptionRef : JsString
  intentId : Option Uuid
  reason : GuardReason
  accountCountry : Option JsString
  resolvedAt : Option Nat
  deriving DecidableEq

inductive ReleaseState where
  | released
  | consumed
  | converted
  | expired
  deriving DecidableEq

def ReleaseState.text : ReleaseState → JsString
  | released => js "RELEASED"
  | consumed => js "CONSUMED"
  | converted => js "CONVERTED"
  | expired => js "EXPIRED"

/-- A row of `CommercialConversionRelease`. -/
structure ConversionRelease where
  id : Uuid
  changeRequestId : Uuid
  tenantId : Uuid
  productKey : ProductKey
  governedSubscriptionId : Uuid
  planId : Uuid
  planVersionId : Uuid
  heldSubscriptionRef : Option JsString
  state : ReleaseState
  expiresAt : Nat
  intentId : Option Uuid
  consumedAt : Option Nat
  selfServiceSubscriptionId : Option Uuid
  convertedAt : Option Nat
  expiredAt : Option Nat
  deriving DecidableEq

inductive ConversionPayload where
  | toSelfService
  /-- To governed, by the end of a self-service subscription. -/
  | endSelfService (subscriptionId : Uuid) (planKey : JsString) (planVersionId : Uuid)
  /-- To governed, by the end of a held provider subscription. -/
  | heldResolution (heldSubscriptionRef : JsString) (governedSubscriptionId : Uuid)
  deriving DecidableEq

/-- A `CONVERSION` row of `CommercialChangeRequest`. -/
structure ConversionRequest where
  id : Uuid
  tenantId : Uuid
  productKey : ProductKey
  state : Commercial.RequestState
  payload : ConversionPayload
  requestedBy : JsString
  appliedAt : Option Nat
  deriving DecidableEq

/-- A row of `AllowanceUsage` with its tenant and its allowance. -/
structure TenantUsage where
  tenantId : Uuid
  allowanceKey : JsString
  row : AllowanceUsage
  deriving DecidableEq

structure BillingDb where
  catalog : Catalog
  /-- `identity.Tenant`, its kind. -/
  tenantKinds : List (Uuid × Option JsString)
  usage : List TenantUsage
  subscriptions : List TenantSubscription
  intents : List CheckoutIntent
  flags : List BillingReconciliationFlag
  releases : List ConversionRelease
  commands : List BillingProviderCommand
  requests : List ConversionRequest
  /-- The supply of new ids. -/
  nextId : Uuid

/-! ## Lookups and writes -/

/-- A transaction that throws rolls back. -/
inductive TxError where
  | notFound
  | uniqueViolation
  | releaseNotConsumable
  deriving DecidableEq

namespace BillingDb

variable (db : BillingDb)

def openBase? (tenantId : Uuid) (productKey : ProductKey) : Option TenantSubscription :=
  db.subscriptions.find? (isOpenBase tenantId productKey)

def subscription? (id : Uuid) : Option TenantSubscription := db.subscriptions.find? (·.id == id)

def ofProvider? (provider : BillingProviderKey) (ref : JsString) : Option TenantSubscription :=
  db.subscriptions.find? (isOfProvider provider ref)

def intent? (id : Uuid) : Option CheckoutIntent := db.intents.find? (·.id == id)

/-- The two partial unique indexes of `TenantSubscription`: one open `BASE` row for
a tenant and a product, one row for a provider subscription. -/
def admits (x : TenantSubscription) : Bool :=
  db.subscriptions.all fun y =>
    !(x.endedAt.isNone && isOpenBase x.tenantId x.productKey y) &&
      !(x.billingProvider.isSome && x.billingSubscriptionRef.isSome &&
        x.billingProvider == y.billingProvider &&
          x.billingSubscriptionRef == y.billingSubscriptionRef)

/-- `tenantSubscription.create`; the row takes the next id. -/
def insertSubscription (x : TenantSubscription) : Except TxError BillingDb := do
  require (db.admits x) .uniqueViolation
  pure { db with subscriptions := db.subscriptions ++ [x], nextId := db.nextId + 1 }

/-- `tenantSubscription.update` by id. -/
def updateSubscription (id : Uuid) (f : TenantSubscription → TenantSubscription) : BillingDb :=
  { db with subscriptions := updateWhere (·.id == id) f db.subscriptions }

/-- `checkoutIntent.update` by id, which throws when there is no such row. -/
def updateIntent (id : Uuid) (f : CheckoutIntent → CheckoutIntent) : Except TxError BillingDb := do
  require (db.intents.any (·.id == id)) .notFound
  pure { db with intents := updateWhere (·.id == id) f db.intents }

def tenantKind? (tenantId : Uuid) : Option (Option JsString) :=
  (db.tenantKinds.find? (·.1 == tenantId)).map (·.2)

end BillingDb

/-! ## What an insert and an update leave -/

section Writes

variable {db t : BillingDb}

theorem insertSubscription_ok {x : TenantSubscription} (h : db.insertSubscription x = .ok t) :
    db.admits x = true ∧
      t = { db with subscriptions := db.subscriptions ++ [x], nextId := db.nextId + 1 } := by
  simp only [BillingDb.insertSubscription, bind_eq_ok, require_eq_ok, pure_eq_ok] at h
  obtain ⟨-, hadmits, rfl⟩ := h
  exact ⟨hadmits, rfl⟩

theorem updateIntent_ok {id : Uuid} {f : CheckoutIntent → CheckoutIntent}
    (h : db.updateIntent id f = .ok t) :
    (∃ i ∈ db.intents, i.id = id) ∧
      t = { db with intents := updateWhere (·.id == id) f db.intents } := by
  simp only [BillingDb.updateIntent, bind_eq_ok, require_eq_ok, pure_eq_ok, List.any_eq_true,
    beq_iff_eq] at h
  obtain ⟨-, hsome, rfl⟩ := h
  exact ⟨hsome, rfl⟩

end Writes

end AramoPlatform.Billing
