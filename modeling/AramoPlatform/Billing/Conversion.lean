import Mathlib.Data.List.Dedup
import AramoPlatform.Billing.Tables

/-!
# The conversion ledger

`CommercialConversionLedger`: the part of a conversion between a governed and a
self-service subscription that runs inside the transactions of a checkout and
of a provider state. A release lets one checkout replace one governed row; a
confirmed end opens the governed row that was asked for.
-/

namespace AramoPlatform.Billing

open Js Lib Subscription

/-! ## Releases -/

def releaseConsumable (r : ConversionRelease) (time : Nat) : Bool :=
  r.state == .released && decide (time < r.expiresAt)

def releaseForCheckout (db : BillingDb) (tenantId : Uuid) (productKey : ProductKey)
    (governedSubscriptionId planId planVersionId : Uuid) (time : Nat) :
    Option ConversionRelease :=
  (db.releases.find? fun r =>
    r.tenantId == tenantId && r.productKey == productKey && r.state == .released &&
      r.heldSubscriptionRef.isNone && r.governedSubscriptionId == governedSubscriptionId).filter
    fun r => releaseConsumable r time && r.planId == planId && r.planVersionId == planVersionId

/-- A compare-and-set on one release: it throws unless exactly one row matches. -/
def updateRelease (db : BillingDb) (id : Uuid) (state : ReleaseState)
    (f : ConversionRelease → ConversionRelease) : Except TxError BillingDb := do
  require (db.releases.countP (fun r => r.id == id && r.state == state) == 1)
    .releaseNotConsumable
  pure { db with releases := updateWhere (fun r => r.id == id && r.state == state) f db.releases }

def consumeForCheckoutInTx (db : BillingDb) (release : ConversionRelease) (intentId : Uuid)
    (time : Nat) : Except TxError BillingDb :=
  updateRelease db release.id .released fun r =>
    { r with state := .consumed, intentId := some intentId, consumedAt := some time }

def expireInTx (db : BillingDb) (r : ConversionRelease) (time : Nat) : BillingDb :=
  if releaseConsumable r time then db
  else
    { db with
      releases := updateWhere (fun x => x.id == r.id && x.state == .released)
        (fun x => { x with state := .expired, expiredAt := some time }) db.releases }

/-- `strandedUsage`: usage of the first period of the new row that was counted in
a period with another start. -/
def strandedUsage (db : BillingDb) (tenantId : Uuid) (productKey : ProductKey)
    (anchor time : Nat) : Nat :=
  let start := (billingPeriodAt anchor time).start
  db.usage.countP fun u =>
    u.tenantId == tenantId && (productKey ++ js ".").isPrefixOf u.allowanceKey &&
      u.row.state.isCounted && decide (start ≤ u.row.reservedAt) && u.row.periodStart != start

structure ActivationTarget where
  planId : Uuid
  planVersionId : Option Uuid

structure ActivationReleaseVerdict where
  release : Option ConversionRelease
  valid : Bool
  /-- Why a release that exists does not apply. -/
  reason : JsString

/-- The first condition of an activation that the release does not meet. -/
def releaseObjection (db : BillingDb) (r : ConversionRelease) (tenantId : Uuid)
    (productKey : ProductKey) (governedId : Uuid) (intent : CheckoutIntent)
    (currentPeriodStart : Nat) (target : ActivationTarget) (time : Nat) : Option JsString :=
  let anchor := if 0 < currentPeriodStart then currentPeriodStart else time
  let stranded := strandedUsage db tenantId productKey anchor time
  if r.tenantId != tenantId || r.productKey != productKey then
    some (js "another tenant or product")
  else if r.state != .consumed && r.state != .released then
    some (js "the release is " ++ r.state.text)
  else if r.governedSubscriptionId != governedId then
    some (js "it names another governed subscription")
  else if intent.status != .created then some (js "the checkout is " ++ intent.status.text)
  else if target.planId != r.planId || target.planVersionId != some r.planVersionId then
    some (js "the activated plan version is not the released one")
  else if 0 < stranded then
    some (js "USAGE_TREATMENT_UNDEFINED (CROSS_PERIOD, " ++ js (toString stranded) ++
      js " usage row(s) in the new first period)")
  else none

def releaseLabel (r : ConversionRelease) : JsString := js "conversion release " ++ uuidText r.id

/-- `releaseForActivation`: the release that the checkout has consumed, or an
unconsumed one for this held provider subscription, which expires here when
its time has passed. -/
def releaseForActivation (db : BillingDb) (tenantId : Uuid) (productKey : ProductKey)
    (governedId : Uuid) (intent : CheckoutIntent) (subscriptionRef : JsString)
    (currentPeriodStart : Nat) (target : ActivationTarget) (time : Nat) :
    ActivationReleaseVerdict × BillingDb :=
  let judge := fun r : ConversionRelease =>
    match releaseObjection db r tenantId productKey governedId intent currentPeriodStart target
        time with
    | none => ActivationReleaseVerdict.mk (some r) true []
    | some why => ⟨some r, false, releaseLabel r ++ js " not applicable: " ++ why⟩
  match db.releases.find? (·.intentId == some intent.id) with
  | some r => (judge r, db)
  | none =>
    match db.releases.find? fun r =>
        r.tenantId == tenantId && r.productKey == productKey && r.state == .released &&
          r.heldSubscriptionRef == some subscriptionRef with
    | none => (⟨none, false, []⟩, db)
    | some held =>
      if releaseConsumable held time then (judge held, db)
      else (⟨some held, false, releaseLabel held ++ js " expired"⟩, expireInTx db held time)

def convertedInTx (db : BillingDb) (release : ConversionRelease) (selfServiceId intentId : Uuid)
    (time : Nat) : Except TxError BillingDb :=
  updateRelease db release.id release.state fun r =>
    if release.state == .released then
      { r with
        state := .converted, intentId := some intentId, consumedAt := some time
        convertedAt := some time, selfServiceSubscriptionId := some selfServiceId }
    else
      { r with
        state := .converted, convertedAt := some time
        selfServiceSubscriptionId := some selfServiceId }

/-! ## The confirmed end of a self-service subscription -/

/-- The codes of `ConversionFailure` that a completion raises. -/
inductive ConversionFailureCode where
  | invalidPayload
  | targetNotFound
  | targetStale
  | targetNotGoverned
  | planNotFound
  | planVersionMismatch
  | planVersionNotPublished
  | planNotAssignable
  | tenantNotFound
  | planTenantKindMismatch
  | usageTreatmentUndefined
  deriving DecidableEq

/-- A `ConversionFailure` is recorded on the request; anything else rolls back. -/
inductive CompletionError where
  | failure (code : ConversionFailureCode)
  | tx (e : TxError)
  deriving DecidableEq

def pinnedGovernedVersion (db : BillingDb) (tenantId : Uuid) (productKey : ProductKey)
    (planKey : JsString) (planVersionId : Uuid) :
    Except CompletionError (Plan × PlanVersionRow) := do
  let plan ← orThrow ((db.catalog.plans.find? (·.key == planKey)).filter
    (·.productKey == productKey)) (.failure .planNotFound)
  let version ← orThrow ((db.catalog.version? planVersionId).filter (·.planId == plan.id))
    (.failure .planVersionMismatch)
  require (version.status == .published) (.failure .planVersionNotPublished)
  require (plan.status == .active && plan.salesModel != .free && plan.salesModel != .selfService)
    (.failure .planNotAssignable)
  let kind ← orThrow (db.tenantKind? tenantId) (.failure .tenantNotFound)
  require (plan.tenantKind.isNone || kind == plan.tenantKind) (.failure .planTenantKindMismatch)
  pure (plan, version)

def assertUsageDefined (db : BillingDb) (tenantId : Uuid) (productKey : ProductKey)
    (fromVersionId : Uuid) (target : PlanVersionRow) : Except CompletionError Unit := do
  let source ← orThrow (db.catalog.version? fromVersionId) (.tx .notFound)
  require (changedTerms source.terms target.terms).isEmpty (.failure .usageTreatmentUndefined)
  require (db.usage.all fun u =>
      !(u.tenantId == tenantId && (productKey ++ js ".").isPrefixOf u.allowanceKey &&
        u.row.state == .reserved))
    (.failure .usageTreatmentUndefined)

/-- `governedRow`: the named open governed row, without a link to the provider. -/
def governedRow (db : BillingDb) (tenantId : Uuid) (productKey : ProductKey)
    (subscriptionId : Uuid) : Except CompletionError TenantSubscription := do
  let row ← orThrow ((db.subscription? subscriptionId).filter fun x =>
    x.tenantId == tenantId && x.productKey == productKey) (.failure .targetNotFound)
  require row.endedAt.isNone (.failure .targetStale)
  require (isGovernedSubscription row && row.billingSubscriptionRef.isNone)
    (.failure .targetNotGoverned)
  pure row

/-- The governed row that a completed conversion opens; it keeps the period. -/
def governedRowOf (db : BillingDb) (req : ConversionRequest) (ended : TenantSubscription)
    (plan : Plan) (version : PlanVersionRow) : TenantSubscription where
  id := db.nextId
  tenantId := req.tenantId
  productKey := req.productKey
  planId := plan.id
  planVersionId := version.id
  periodAnchor := ended.periodAnchor
  source := .manual
  endedAt := none
  createdBy := req.requestedBy
  status := .active
  billingProvider := none
  billingAccountRef := none
  billingSubscriptionRef := none
  currentPeriodEnd := none
  cancelAtPeriodEnd := false
  graceUntil := none
  providerStateAt := none
  activatedBy := none
  commitmentStart := version.terms.commitmentMonths.map fun _ => ended.periodAnchor
  commitmentEnd := version.terms.commitmentMonths.map (addMonthsClamped ended.periodAnchor)
  cancelRequestedWithinCommitment := false
  eligibilityState := none
  eligibilityCheckedAt := none
  storeProductId := none
  storeEnvironment := none
  storeInterval := none

/-- The effect of a completion on the subscriptions. -/
def completionEffect (db : BillingDb) (req : ConversionRequest) :
    Except CompletionError BillingDb :=
  match req.payload with
  | .toSelfService => .error (.failure .invalidPayload)
  | .heldResolution _ governedId => do
    -- the held provider subscription is gone and the governed row is kept
    let _ ← governedRow db req.tenantId req.productKey governedId
    pure db
  | .endSelfService subscriptionId planKey planVersionId => do
    let ended ← orThrow ((db.subscription? subscriptionId).filter fun x =>
      x.tenantId == req.tenantId && x.productKey == req.productKey) (.failure .targetNotFound)
    require ended.endedAt.isSome (.failure .targetStale)
    require (db.openBase? req.tenantId req.productKey).isNone (.failure .targetStale)
    let (plan, version) ←
      pinnedGovernedVersion db req.tenantId req.productKey planKey planVersionId
    assertUsageDefined db req.tenantId req.productKey ended.planVersionId version
    match db.insertSubscription (governedRowOf db req ended plan version) with
    | .ok t => pure t
    | .error e => .error (.tx e)

def BillingDb.updateRequest (db : BillingDb) (id : Uuid)
    (f : ConversionRequest → ConversionRequest) : BillingDb :=
  { db with requests := updateWhere (·.id == id) f db.requests }

def completeToGovernedInTx (db : BillingDb) (req : ConversionRequest) (time : Nat) :
    Except CompletionError BillingDb := do
  let t ← completionEffect db req
  pure (t.updateRequest req.id fun r => { r with state := .applied, appliedAt := some time })

inductive CompletionOutcome where
  | applied
  | applyFailed
  deriving DecidableEq

def CompletionOutcome.text : CompletionOutcome → JsString
  | applied => js "APPLIED"
  | applyFailed => js "APPLY_FAILED"

/-- One turn of `completeConfirmedInTx`: a request in `APPLYING` whose commands are
all confirmed. A request of another action is not in the table. -/
def completeOne (db : BillingDb) (id : Uuid) (time : Nat) :
    Except TxError (Option CompletionOutcome × BillingDb) :=
  match db.requests.find? fun r => r.id == id && r.state == .applying with
  | none => .ok (none, db)
  | some req =>
    if db.commands.any fun c => c.origin.changeRequestId == some id && c.state != .confirmed then
      .ok (none, db)
    else
      match completeToGovernedInTx db req time with
      | .ok t => .ok (some .applied, t)
      | .error (.failure _) =>
        .ok (some .applyFailed, db.updateRequest id fun r => { r with state := .applyFailed })
      | .error (.tx e) => .error e

def completeAll (time : Nat) :
    List Uuid → BillingDb → Except TxError (List (Uuid × CompletionOutcome) × BillingDb)
  | [], db => .ok ([], db)
  | id :: ids, db => do
    let (outcome, t) ← completeOne db id time
    let (outcomes, u) ← completeAll time ids t
    pure ((outcome.map fun o => (id, o)).toList ++ outcomes, u)

/-- The change requests of commands, each once and in order. -/
def requestIds (commands : List BillingProviderCommand) : List Uuid :=
  (commands.filterMap (·.origin.changeRequestId)).dedup.mergeSort (· ≤ ·)

theorem mem_requestIds {commands : List BillingProviderCommand} {id : Uuid} :
    id ∈ requestIds commands ↔ ∃ c ∈ commands, c.origin.changeRequestId = some id := by
  simp [requestIds, List.mem_mergeSort, List.mem_dedup]

/-- `completeConfirmedInTx`, for the confirmed commands. -/
def completeConfirmedInTx (db : BillingDb) (confirmed : List BillingProviderCommand) (time : Nat) :
    Except TxError (List (Uuid × CompletionOutcome) × BillingDb) :=
  completeAll time (requestIds confirmed) db

end AramoPlatform.Billing
