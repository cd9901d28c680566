import AramoPlatform.Subscription.PlanVersion

/-!
# Provider prices

A price of the provider is pinned to a plan version. A Stripe price that is
pinned nowhere may still be mapped by the `STRIPE_PLAN_PRICES` of the
cutover; a store product is known by its pins only.
-/

namespace AramoPlatform.Billing

open Js Subscription

inductive BillingProviderKey where
  | stripe
  | appStore
  | googlePlay
  deriving DecidableEq

def isStoreBillingProvider : BillingProviderKey → Bool
  | .stripe => false
  | .appStore | .googlePlay => true

def BillingProviderKey.text : BillingProviderKey → JsString
  | .stripe => js "STRIPE"
  | .appStore => js "APP_STORE"
  | .googlePlay => js "GOOGLE_PLAY"

inductive BilledInterval where
  | month
  | year
  deriving DecidableEq

structure PlanVersionPrice where
  planVersionId : Uuid
  provider : BillingProviderKey
  providerPriceRef : JsString
  interval : BilledInterval
  deriving DecidableEq

/-- The tables a price is resolved from; `envPrices` is the parsed
`STRIPE_PLAN_PRICES`, plan key to price. -/
structure Catalog where
  plans : List Plan
  versions : List PlanVersionRow
  prices : List PlanVersionPrice
  envPrices : List (JsString × JsString)

namespace Catalog

variable (c : Catalog)

def plan? (id : Uuid) : Option Plan := c.plans.find? (·.id == id)

def version? (id : Uuid) : Option PlanVersionRow := c.versions.find? (·.id == id)

/-- The Stripe pin of a version. -/
def stripePin? (versionId : Uuid) : Option PlanVersionPrice :=
  c.prices.find? fun p => p.planVersionId == versionId && p.provider == .stripe

end Catalog

inductive EffectivePrice where
  | price (ref : JsString)
  | noPrice
  | parityMismatch
  deriving DecidableEq

/-- `effectiveProviderPrice`: the pin, unless the environment disagrees. -/
def effectiveProviderPrice (c : Catalog) (versionId : Uuid) (planKey : JsString) :
    EffectivePrice :=
  let envRef := (c.envPrices.find? (·.1 == planKey)).map (·.2)
  match c.stripePin? versionId with
  | some pin =>
    if envRef.all (· == pin.providerPriceRef) then .price pin.providerPriceRef else .parityMismatch
  | none =>
    match envRef with
    | some ref => .price ref
    | none => .noPrice

inductive ResolutionSource where
  | pin
  | env
  | store
  deriving DecidableEq

structure PriceResolution where
  planId : Uuid
  planVersionId : Uuid
  versionStatus : PlanVersionStatus
  source : ResolutionSource
  deriving DecidableEq

/-- The order of the pins of a store product: the published version first, then
the newest. -/
def ranksBefore (a b : PlanVersionRow) : Bool :=
  a.status == .published || (b.status != .published && decide (b.versionNumber ≤ a.versionNumber))

def resolveStoreProductToVersion (c : Catalog) (provider : BillingProviderKey)
    (productId : JsString) (productKey : ProductKey) : Option PriceResolution := do
  let pins := c.prices.filter fun p => p.provider == provider && p.providerPriceRef == productId
  let versions := (pins.filterMap fun p => c.version? p.planVersionId).filter (·.status != .draft)
  let v ← (versions.mergeSort ranksBefore).head?
  let plan ← c.plan? v.planId
  if !plan.sellable || plan.productKey != productKey then none
  else some ⟨v.planId, v.id, v.status, .store⟩

def storePinInterval (c : Catalog) (provider : BillingProviderKey) (productId : Option JsString) :
    Option BilledInterval := do
  let product ← productId
  let pin ← c.prices.find? fun p => p.provider == provider && p.providerPriceRef == product
  some pin.interval

/-- An entry of the environment that maps `priceRef` to a plan whose current
version has no pin. -/
def resolveEnvPrice (c : Catalog) (priceRef : JsString) (productKey : ProductKey)
    (entry : JsString × JsString) : Option PriceResolution := do
  if entry.2 != priceRef then none
  let plan ← c.plans.find? (·.key == entry.1)
  if !plan.sellable || plan.productKey != productKey then none
  let current ← currentPublishedVersion c.versions plan.id
  if (c.stripePin? current.id).isSome then none
  some ⟨plan.id, current.id, current.status, .env⟩

/-- `resolvePriceToVersion`. A pinned price never falls through to the
environment. -/
def resolvePriceToVersion (c : Catalog) (priceRef : JsString) (productKey : ProductKey) :
    Option PriceResolution :=
  match c.prices.find? fun p => p.provider == .stripe && p.providerPriceRef == priceRef with
  | some pin => do
    let v ← c.version? pin.planVersionId
    let plan ← c.plan? v.planId
    if v.status == .draft || !plan.sellable || plan.productKey != productKey then none
    else some ⟨v.planId, v.id, v.status, .pin⟩
  | none => c.envPrices.findSome? (resolveEnvPrice c priceRef productKey)

def planForPrice (c : Catalog) (priceRef : Option JsString) (productKey : ProductKey)
    (provider : BillingProviderKey) : Option PriceResolution := do
  let ref ← priceRef
  if isStoreBillingProvider provider then resolveStoreProductToVersion c provider ref productKey
  else resolvePriceToVersion c ref productKey

theorem planForPrice_of_unpinned {c : Catalog} {priceRef : Option JsString}
    {productKey : ProductKey} {provider : BillingProviderKey}
    (hstore : isStoreBillingProvider provider = true)
    (hnone : storePinInterval c provider priceRef = none) :
    planForPrice c priceRef productKey provider = none := by
  cases priceRef with
  | none => rfl
  | some ref =>
    have hpins : (c.prices.filter fun p => p.provider == provider &&
      p.providerPriceRef == ref) = [] := by
      rw [List.filter_eq_nil_iff]
      intro p hp hmatch
      cases hfind : c.prices.find? fun p => p.provider == provider && p.providerPriceRef == ref with
      | none => exact List.find?_eq_none.mp hfind p hp hmatch
      | some pin => simp [storePinInterval, hfind] at hnone
    simp [planForPrice, hstore, resolveStoreProductToVersion, hpins]

end AramoPlatform.Billing
