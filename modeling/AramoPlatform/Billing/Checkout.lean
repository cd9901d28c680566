import AramoPlatform.Billing.Lifecycle

/-!
# The start and the end of a checkout

`startCheckout` checks the plan, the terms and the open row before any effect
at the provider, and takes the decision on the open row again under the
billing lock, in the transaction that creates the intent. The session of the
provider is created after that transaction. An expired session closes its
intent.
-/

namespace AramoPlatform.Billing

open Js Lib Subscription

/-! ## Refusals -/

inductive BillingRefusal where
  | billingUnavailable
  | planNotSellable
  | planNotEligible
  | termsNotAccepted
  | termsNotApproved
  | alreadySubscribed
  | organizationProfileRequired
  | domainVerificationRequired
  | governedSubscriptionOpen
  | planTenantKindMismatch
  | billingManagedElsewhere
  deriving DecidableEq

def BillingRefusal.text : BillingRefusal → JsString
  | billingUnavailable => js "BILLING_UNAVAILABLE"
  | planNotSellable => js "PLAN_NOT_SELLABLE"
  | planNotEligible => js "PLAN_NOT_ELIGIBLE"
  | termsNotAccepted => js "TERMS_NOT_ACCEPTED"
  | termsNotApproved => js "TERMS_NOT_APPROVED"
  | alreadySubscribed => js "ALREADY_SUBSCRIBED"
  | organizationProfileRequired => js "ORGANIZATION_PROFILE_REQUIRED"
  | domainVerificationRequired => js "DOMAIN_VERIFICATION_REQUIRED"
  | governedSubscriptionOpen => js "GOVERNED_SUBSCRIPTION_OPEN"
  | planTenantKindMismatch => js "PLAN_TENANT_KIND_MISMATCH"
  | billingManagedElsewhere => js "BILLING_MANAGED_ELSEWHERE"

/-- `BillingRefusedError`; its message is the detail, or the reason. -/
structure BillingRefused where
  reason : BillingRefusal
  message : JsString
  deriving DecidableEq

def refusedFor (reason : BillingRefusal) : BillingRefused := ⟨reason, reason.text⟩

/-! ## The checks before the lock -/

structure LegalDocument where
  version : JsString
  sha256 : JsString
  deriving DecidableEq

/-- The ports and the registries that a checkout reads. -/
structure CheckoutPorts where
  configured : Bool
  provider : BillingProviderKey
  live : Bool
  eligible : Uuid → JsString → Bool
  /-- The approved terms of a tenant kind. -/
  terms : JsString → Option LegalDocument
  /-- `eligibleProfile`, or its refusal; no port when unbound. -/
  orgProfile : Option (Uuid → Except JsString Unit)
  domainAuthoritative : Uuid → Bool
  conversions : Bool

structure CheckoutInput where
  tenantId : Uuid
  productKey : ProductKey
  userId : JsString
  planKey : JsString
  acceptTerms : Bool
  tenantKind : Option JsString
  time : Nat

/-- What the checks hand to the transaction and to the session. -/
structure CheckoutStart where
  tenantId : Uuid
  productKey : ProductKey
  userId : JsString
  plan : Plan
  version : PlanVersionRow
  priceRef : JsString
  terms : Option LegalDocument
  time : Nat

def planMatchesTenantKind (planKind : Option JsString) (tenantKind : JsString) : Bool :=
  if tenantKind = js "PERSONAL" then planKind == some (js "PERSONAL")
  else planKind != some (js "PERSONAL")

def assertCheckoutAllowed : Option TenantSubscription → Except BillingRefused Unit
  | none => pure ()
  | some x => do
    require (!(x.source == .selfService && x.billingProvider.any isStoreBillingProvider))
      (refusedFor .billingManagedElsewhere)
    require (!(x.source == .selfService && x.status != .incomplete))
      (refusedFor .alreadySubscribed)
    require (!isGovernedSubscription x)
      ⟨.governedSubscriptionOpen, js "governed_subscription_open"⟩

/-- The release that admits a checkout beside the open governed row. -/
def releaseFor (ports : CheckoutPorts) (db : BillingDb) (tenantId : Uuid) (productKey : ProductKey)
    (planId planVersionId : Uuid) (time : Nat) : Option ConversionRelease := do
  let x ← db.openBase? tenantId productKey
  if !isGovernedSubscription x || !ports.conversions then none
  else releaseForCheckout db tenantId productKey x.id planId planVersionId time

/-- The gate of the open row: a release, or a row that a checkout may replace. -/
def checkoutGate (ports : CheckoutPorts) (db : BillingDb) (tenantId : Uuid)
    (productKey : ProductKey) (planId planVersionId : Uuid) (time : Nat) :
    Except BillingRefused (Option ConversionRelease) :=
  match releaseFor ports db tenantId productKey planId planVersionId time with
  | some release => pure (some release)
  | none => do
    assertCheckoutAllowed (db.openBase? tenantId productKey)
    pure none

/-- `lockedBillingProfile`, its checks. -/
def lockedBillingProfile (ports : CheckoutPorts) (tenantId : Uuid) : Except BillingRefused Unit :=
  match ports.orgProfile with
  | none => throw ⟨.organizationProfileRequired, js "organization_profile_incomplete"⟩
  | some eligibleProfile =>
    match eligibleProfile tenantId with
    | .error why => throw ⟨.organizationProfileRequired, why⟩
    | .ok _ => require (ports.domainAuthoritative tenantId) (refusedFor .domainVerificationRequired)

def isSellable (plan : Plan) (productKey : ProductKey) : Bool :=
  plan.productKey == productKey && plan.sellable && plan.status == .active &&
    plan.salesModel == .selfService

/-- `startCheckout` up to its transaction. -/
def startCheckoutChecks (ports : CheckoutPorts) (db : BillingDb) (input : CheckoutInput) :
    Except BillingRefused CheckoutStart := do
  let tenantKind := input.tenantKind.getD (js "BUSINESS")
  require ports.configured (refusedFor .billingUnavailable)
  let plan ← orThrow (db.catalog.plans.find? (·.key == input.planKey)) (refusedFor .planNotSellable)
  let version ← orThrow (currentPublishedVersion db.catalog.versions plan.id)
    (refusedFor .planNotSellable)
  require (isSellable plan input.productKey) (refusedFor .planNotSellable)
  require (planMatchesTenantKind plan.tenantKind tenantKind) (refusedFor .planTenantKindMismatch)
  require (version.terms.eligibility.all (ports.eligible input.tenantId))
    (refusedFor .planNotEligible)
  let priceRef ← match effectiveProviderPrice db.catalog version.id plan.key with
    | .price ref => pure ref
    | .parityMismatch => throw ⟨.billingUnavailable,
        js "provider price parity mismatch for the plan version"⟩
    | .noPrice => throw ⟨.billingUnavailable, js "no provider price configured for the plan"⟩
  let terms := ports.terms tenantKind
  require (terms.isSome || !ports.live) (refusedFor .termsNotApproved)
  require (terms.isNone || input.acceptTerms) (refusedFor .termsNotAccepted)
  -- the early decision, before any effect at the provider
  let _ ← checkoutGate ports db input.tenantId input.productKey plan.id version.id input.time
  if tenantKind = js "PERSONAL" then pure () else lockedBillingProfile ports input.tenantId
  pure ⟨input.tenantId, input.productKey, input.userId, plan, version, priceRef, terms, input.time⟩

/-! ## The transaction -/

inductive CheckoutError where
  | refused (e : BillingRefused)
  | tx (e : TxError)
  deriving DecidableEq

def checkoutIntentOf (ports : CheckoutPorts) (id : Uuid) (start : CheckoutStart) :
    CheckoutIntent where
  id := id
  tenantId := start.tenantId
  userId := start.userId
  planId := start.plan.id
  provider := ports.provider
  providerSessionRef := none
  status := .created
  completedAt := none
  termsVersion := start.terms.map (·.version)
  termsSha256 := start.terms.map (·.sha256)

/-- `checkoutIntent.create`; the row takes the next id. -/
def BillingDb.insertIntent (db : BillingDb) (i : CheckoutIntent) : BillingDb :=
  { db with intents := db.intents ++ [i], nextId := db.nextId + 1 }

/-- The locked transaction of `startCheckout`. -/
def startCheckoutTx (ports : CheckoutPorts) (db : BillingDb) (start : CheckoutStart) :
    Except CheckoutError BillingDb :=
  match checkoutGate ports db start.tenantId start.productKey start.plan.id start.version.id
      start.time with
  | .error e => .error (.refused e)
  | .ok release =>
    let t := db.insertIntent (checkoutIntentOf ports db.nextId start)
    match release with
    | none => .ok t
    | some r =>
      match consumeForCheckoutInTx t r db.nextId start.time with
      | .ok u => .ok u
      | .error e => .error (.tx e)

/-! ## An expired session -/

structure CheckoutSessionState where
  provider : BillingProviderKey
  sessionRef : JsString
  tenantId : Option Uuid
  intentId : Option Uuid
  status : JsString
  deriving DecidableEq

/-- The checks of `syncCheckoutSession` before its transaction. -/
def sessionIntentOf (db : BillingDb) (session : CheckoutSessionState) (productKey : ProductKey) :
    Except ApplyResult CheckoutIntent := do
  let intent ← orThrow (db.intents.find? fun i =>
      i.provider == session.provider && i.providerSessionRef == some session.sessionRef)
    (ignored (js "checkout session is not linked to an Aramo checkout") none)
  require ((db.catalog.plan? intent.planId).all (·.productKey == productKey))
    (ignored (js "checkout session belongs to another product than " ++ productKey)
      (some intent.tenantId))
  require (session.tenantId.all (· == intent.tenantId) && session.intentId.all (· == intent.id))
    (ignored (js "provider session metadata does not match the Aramo record")
      (some intent.tenantId))
  require (session.status == js "expired")
    (ignored (js "checkout session " ++ session.status) (some intent.tenantId))
  pure intent

/-- The transaction of `syncCheckoutSession`, on an expired session. -/
def expireSessionTx (db : BillingDb) (intent : CheckoutIntent) (session : CheckoutSessionState)
    (productKey : ProductKey) (confirmation : Confirmation) (time : Nat) :
    ApplyResult × BillingDb :=
  let live := fun i : CheckoutIntent => i.id == intent.id && i.status == .created
  let confirms := confirmsSession session.provider session.sessionRef intent.tenantId productKey
  let confirmed := (db.commands.filter confirms).length
  let detail := js "checkout session expired" ++
    (if db.intents.any live then js "; intent EXPIRED" else []) ++
      if 0 < confirmed then js "; " ++ js (toString confirmed) ++ js " command(s) confirmed" else []
  (⟨if db.intents.any live || 0 < confirmed then .applied else .ignored, detail,
      some intent.tenantId, none, none⟩,
    { db with
      intents := updateWhere live (fun i => { i with status := .expired }) db.intents
      commands := updateWhere confirms (confirmCommand confirmation time) db.commands })

end AramoPlatform.Billing
