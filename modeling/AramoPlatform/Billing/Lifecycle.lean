import AramoPlatform.Billing.Conversion

/-!
# The subscription lifecycle

`SubscriptionLifecycleService`: a state that was read from the provider is
applied to the tables. The link of the state to a tenant is read before the
billing lock is taken; everything else happens in one transaction under it.
-/

namespace AramoPlatform.Billing

open Js Lib Subscription

/-! ## The provider's view -/

structure StoreView where
  productId : JsString
  environment : Option StoreEnvironment
  graceUntil : Option Nat
  deriving DecidableEq

structure ProviderSubscriptionState where
  provider : BillingProviderKey
  subscriptionRef : JsString
  accountRef : JsString
  providerStatus : JsString
  currentPeriodStart : Nat
  currentPeriodEnd : Nat
  cancelAtPeriodEnd : Bool
  priceRef : Option JsString
  tenantId : Option Uuid
  intentId : Option Uuid
  accountCountry : Option JsString
  store : Option StoreView
  deriving DecidableEq

structure MappedStatus where
  status : SubscriptionStatus
  grace : Bool
  ends : Bool
  deriving DecidableEq

def mapProviderStatus (s : JsString) : MappedStatus :=
  if s = js "trialing" then ⟨.trialing, false, false⟩
  else if s = js "active" then ⟨.active, false, false⟩
  else if s = js "past_due" then ⟨.pastDue, true, false⟩
  else if s = js "unpaid" ∨ s = js "paused" then ⟨.pastDue, false, false⟩
  else if s = js "canceled" ∨ s = js "incomplete_expired" then ⟨.canceled, false, true⟩
  else ⟨.incomplete, false, false⟩

/-- `SENDING`. -/
def isSending : SubscriptionStatus → Bool
  | .trialing | .active | .pastDue => true
  | .incomplete | .canceled => false

def statusText : SubscriptionStatus → JsString
  | .trialing => js "TRIALING"
  | .active => js "ACTIVE"
  | .pastDue => js "PAST_DUE"
  | .incomplete => js "INCOMPLETE"
  | .canceled => js "CANCELED"

def sourceText : SubscriptionSource → JsString
  | .manual => js "MANUAL"
  | .development => js "DEVELOPMENT"
  | .selfService => js "SELF_SERVICE"
  | .free => js "FREE"

/-- What the service is wired with. -/
structure BillingDeps where
  /-- `trim().toUpperCase()`. -/
  normalizeCountry : JsString → JsString
  /-- `graceDays()`. -/
  graceDays : Nat
  /-- The command port is bound, so that commands are confirmed. -/
  providerCommands : Bool
  /-- The conversion ledger is bound. -/
  conversions : Bool

def billingCountrySupported (deps : BillingDeps) (accountCountry : Option JsString) : Bool :=
  accountCountry.map deps.normalizeCountry == some (js "US")

inductive Outcome where
  | applied
  | ignored
  deriving DecidableEq

structure ApplyResult where
  outcome : Outcome
  detail : JsString
  tenantId : Option Uuid
  subscriptionId : Option Uuid
  /-- The user who gets the subscribing-owner role. -/
  activatedOwnerUserId : Option JsString
  deriving DecidableEq

def ignored (detail : JsString) (tenantId : Option Uuid) : ApplyResult :=
  ⟨.ignored, detail, tenantId, none, none⟩

/-! ## The texts of the holds -/

def billingCountryHeld : JsString := js "billing_country_not_supported: held for reconciliation"

def domainVerificationHeld : JsString :=
  js "domain_verification_required: held for reconciliation"

def governedSubscriptionHeld : JsString :=
  js "governed_subscription_open: held for reconciliation " ++
    js "(an open governed subscription is never ended by a checkout)"

/-- `parts.filter(h => h !== '').join('; ')`. -/
def joinDetails (parts : List JsString) : JsString :=
  (js "; ").intercalate (parts.filter (· != []))

/-! ## Under the lock -/

/-- `guardFlag`: raise or keep the open flag of a guard that fails, resolve it when
the guard passes. -/
def guardFlag (db : BillingDb) (tenantId : Uuid) (state : ProviderSubscriptionState)
    (intentId : Option Uuid) (reason : GuardReason) (failing : Bool) (time : Nat) : BillingDb :=
  let isOpen := fun f : BillingReconciliationFlag =>
    f.provider == state.provider && f.subscriptionRef == state.subscriptionRef &&
      f.reason == reason && f.resolvedAt.isNone
  if !failing then
    { db with flags := updateWhere isOpen (fun f => { f with resolvedAt := some time }) db.flags }
  else if db.flags.any isOpen then db
  else
    { db with
      flags := db.flags ++ [⟨tenantId, state.provider, state.subscriptionRef, intentId, reason,
        state.accountCountry, none⟩] }

/-- The plan and the version that an activation opens. -/
structure OpenTarget where
  planId : Uuid
  version : Option PlanVersionRow

/-- `activationTarget`: the plan of the checkout, unless the price maps to another. -/
def activationTarget (c : Catalog) (planId : Uuid) (state : ProviderSubscriptionState)
    (productKey : ProductKey) : OpenTarget :=
  match planForPrice c state.priceRef productKey state.provider with
  | none => ⟨planId, currentPublishedVersion c.versions planId⟩
  | some r =>
    if r.versionStatus = .published then ⟨r.planId, c.version? r.planVersionId⟩
    else ⟨r.planId, currentPublishedVersion c.versions r.planId⟩

def repinTarget (c : Catalog) (row : TenantSubscription) (state : ProviderSubscriptionState) :
    Option PriceResolution :=
  (planForPrice c state.priceRef row.productKey state.provider).filter fun r =>
    r.planVersionId != row.planVersionId &&
      !((r.source == .env || r.source == .store) && r.planId == row.planId) &&
        r.versionStatus == .published

structure StoreTerms where
  interval : BilledInterval
  /-- The commitment columns, when they are written. -/
  commitment : Option (Option (Nat × Nat))

/-- `storeIntervalUpdate`; `clock` is the wall clock at the call. -/
def storeIntervalUpdate (c : Catalog) (row : TenantSubscription)
    (state : ProviderSubscriptionState) (planVersionId : Uuid) (clock : Nat) :
    Except TxError (Option StoreTerms) :=
  match (if isStoreBillingProvider state.provider then
      storePinInterval c state.provider state.priceRef else none) with
  | none => pure none
  | some .month => pure (some ⟨.month, some none⟩)
  | some .year =>
    if row.commitmentEnd.isSome then pure (some ⟨.year, none⟩)
    else do
      let version ← orThrow (c.version? planVersionId) .notFound
      let anchor := if 0 < state.currentPeriodStart then state.currentPeriodStart else clock
      pure (some ⟨.year, version.terms.commitmentMonths.map fun months =>
        some (anchor, addMonthsClamped anchor months)⟩)

/-- A guard holds a row that does not send from moving to a sending status. -/
def isWithheld (row : TenantSubscription) (provider : MappedStatus) (guarded : Bool) (time : Nat) :
    Bool :=
  guarded && !subscriptionSends row.status row.graceUntil time && isSending provider.status

def graceUntilOf (deps : BillingDeps) (row : TenantSubscription) (provider : MappedStatus)
    (state : ProviderSubscriptionState) (withheld : Bool) (time : Nat) : Option Nat :=
  if withheld then row.graceUntil
  else if !provider.grace then none
  else
    match state.store.bind (·.graceUntil) with
    | some stop => some stop
    | none =>
      if row.status = .pastDue ∧ row.graceUntil.isSome then row.graceUntil
      else some (time + deps.graceDays * 86400000)

/-- The columns that `updateRow` writes. -/
def updatedRow (deps : BillingDeps) (state : ProviderSubscriptionState) (provider : MappedStatus)
    (withheld : Bool) (pin : Option PriceResolution) (storeTerms : Option StoreTerms) (time : Nat)
    (row : TenantSubscription) : TenantSubscription :=
  let commitmentEnd := match storeTerms.bind (·.commitment) with
    | some commitment => commitment.map (·.2)
    | none => row.commitmentEnd
  { row with
    status := if withheld then row.status else provider.status
    graceUntil := graceUntilOf deps row provider state withheld time
    currentPeriodEnd := some state.currentPeriodEnd
    cancelAtPeriodEnd := state.cancelAtPeriodEnd
    cancelRequestedWithinCommitment := state.cancelAtPeriodEnd &&
      commitmentEnd.any fun stop => decide (state.currentPeriodEnd < stop)
    billingAccountRef :=
      if isStoreBillingProvider state.provider then none else some state.accountRef
    storeProductId := (state.store.map (·.productId)).or row.storeProductId
    storeEnvironment := match state.store with
      | some view => view.environment
      | none => row.storeEnvironment
    storeInterval := (storeTerms.map (·.interval)).or row.storeInterval
    commitmentStart := match storeTerms.bind (·.commitment) with
      | some commitment => commitment.map (·.1)
      | none => row.commitmentStart
    commitmentEnd := commitmentEnd
    providerStateAt := some time
    endedAt := if !withheld && provider.ends then some time else none
    planId := (pin.map (·.planId)).getD row.planId
    planVersionId := (pin.map (·.planVersionId)).getD row.planVersionId }

/-- `updateRow`; `held` names the guards that fail. -/
def updateRow (deps : BillingDeps) (db : BillingDb) (row : TenantSubscription)
    (state : ProviderSubscriptionState) (provider : MappedStatus) (held : JsString)
    (time clock : Nat) : Except TxError (ApplyResult × BillingDb) := do
  if row.endedAt.isSome then
    return ({ ignored (js "subscription already ended") (some row.tenantId) with
      subscriptionId := some row.id }, db)
  let guarded := held != []
  let withheld := isWithheld row provider guarded time
  let pin := repinTarget db.catalog row state
  let storeTerms ← storeIntervalUpdate db.catalog row state
    ((pin.map (·.planVersionId)).getD row.planVersionId) clock
  let written := updatedRow deps state provider withheld pin storeTerms time
  let after := statusText row.status ++ js " -> " ++ statusText (written row).status
  let t := db.updateSubscription row.id written
  if guarded then
    let note := if withheld then js ", " ++ statusText provider.status ++ js " withheld" else []
    return (⟨.ignored, held ++ js " (" ++ after ++ note ++ js ")", some row.tenantId,
      some row.id, none⟩, t)
  else
    let reactivated := !isSending row.status && isSending provider.status
    return (⟨.applied, after, some row.tenantId, some row.id,
      if reactivated then row.activatedBy else none⟩, t)

/-- The row that an activation opens. -/
def selfServiceRow (deps : BillingDeps) (id tenantId : Uuid) (productKey : ProductKey)
    (intent : CheckoutIntent) (version : PlanVersionRow) (planId : Uuid)
    (state : ProviderSubscriptionState) (mapped : MappedStatus)
    (interval : Option BilledInterval) (time : Nat) : TenantSubscription :=
  let anchor := if 0 < state.currentPeriodStart then state.currentPeriodStart else time
  let months := if interval = some .month then none else version.terms.commitmentMonths
  let storeView := if interval.isSome then state.store else none
  { id := id, tenantId := tenantId, productKey := productKey, planId := planId
    planVersionId := version.id, periodAnchor := anchor, source := .selfService, endedAt := none
    createdBy := intent.userId, status := mapped.status, billingProvider := some state.provider
    billingAccountRef :=
      if isStoreBillingProvider state.provider then none else some state.accountRef
    billingSubscriptionRef := some state.subscriptionRef
    currentPeriodEnd := some state.currentPeriodEnd
    cancelAtPeriodEnd := state.cancelAtPeriodEnd
    graceUntil := if mapped.grace then
        some ((state.store.bind (·.graceUntil)).getD (time + deps.graceDays * 86400000))
      else none
    providerStateAt := some time, activatedBy := some intent.userId
    commitmentStart := months.map fun _ => anchor
    commitmentEnd := months.map (addMonthsClamped anchor)
    cancelRequestedWithinCommitment := false
    eligibilityState := version.terms.eligibility.map fun _ => .ok
    eligibilityCheckedAt := version.terms.eligibility.map fun _ => time
    storeProductId := storeView.map (·.productId)
    storeEnvironment := storeView.bind (·.environment)
    storeInterval := storeView.bind fun _ => interval }

/-- The open row that an activation replaces is ended. -/
def endReplaced (time : Nat) (x : TenantSubscription) : TenantSubscription :=
  { x with endedAt := some time, status := if x.status = .active then .canceled else x.status }

/-- Why `openRow` does not go on: it refuses before it writes, or a lookup throws. -/
inductive OpenRefusal where
  | refused (detail : JsString)
  | tx (e : TxError)

/-- The checks of `openRow` before its first write, and what it opens. -/
def openRowTarget (db : BillingDb) (tenantId : Uuid) (productKey : ProductKey)
    (intent : CheckoutIntent) (state : ProviderSubscriptionState) (mapped : MappedStatus)
    (release : Option ConversionRelease) : Except OpenRefusal (Plan × PlanVersionRow) := do
  require (!mapped.ends) (.refused (js "checkout subscription already ended"))
  let target := activationTarget db.catalog intent.planId state productKey
  let plan ← orThrow (db.catalog.plan? target.planId) (.tx .notFound)
  require (plan.productKey == productKey)
    (.refused (js "checkout plan belongs to another product than " ++ productKey))
  let version ← orThrow target.version
    (.refused (js "plan " ++ plan.key ++ js " has no published version"))
  let openBase := db.openBase? tenantId productKey
  require (openBase.all fun x =>
      !isGovernedSubscription x || release.any (·.governedSubscriptionId == x.id))
    (.refused governedSubscriptionHeld)
  require (openBase.isNone || isSending mapped.status)
    (.refused (js "checkout " ++ statusText mapped.status ++ js "; the open subscription is kept"))
  pure (plan, version)

/-- The interval of a store product; a Stripe subscription has none. -/
def storeIntervalOf (db : BillingDb) (state : ProviderSubscriptionState) : Option BilledInterval :=
  if isStoreBillingProvider state.provider then
    storePinInterval db.catalog state.provider state.priceRef
  else none

/-- The writes that follow the end of the replaced row: the new row, the intent and
the release. -/
def openReplacement (deps : BillingDeps) (db : BillingDb) (tenantId : Uuid)
    (productKey : ProductKey) (intent : CheckoutIntent) (state : ProviderSubscriptionState)
    (mapped : MappedStatus) (time : Nat) (plan : Plan) (version : PlanVersionRow)
    (converted : Option ConversionRelease) : Except TxError BillingDb := do
  let id := db.nextId
  let t ← db.insertSubscription (selfServiceRow deps id tenantId productKey intent version plan.id
    state mapped (storeIntervalOf db state) time)
  let u ← t.updateIntent intent.id fun i =>
    { i with status := .completed, completedAt := some time }
  match converted with
  | none => pure u
  | some release => convertedInTx u release id intent.id time

/-- The tables after the open row is ended. -/
def withoutOpenRow (db : BillingDb) (tenantId : Uuid) (productKey : ProductKey) (time : Nat) :
    BillingDb :=
  match db.openBase? tenantId productKey with
  | some x => db.updateSubscription x.id (endReplaced time)
  | none => db

/-- `openRow`. The open row is ended before the interval of a store product is looked
up, and a product without a pin returns there. -/
def openRow (deps : BillingDeps) (db : BillingDb) (tenantId : Uuid) (productKey : ProductKey)
    (intent : CheckoutIntent) (state : ProviderSubscriptionState) (mapped : MappedStatus)
    (time : Nat) (release : Option ConversionRelease) :
    Except TxError (ApplyResult × BillingDb) :=
  match openRowTarget db tenantId productKey intent state mapped release with
  | .error (.tx e) => .error e
  | .error (.refused detail) => .ok (ignored detail (some tenantId), db)
  | .ok (plan, version) =>
    let openBase := db.openBase? tenantId productKey
    let converted := release.filter fun r =>
      openBase.any fun x => r.governedSubscriptionId == x.id && isGovernedSubscription x
    let ended := withoutOpenRow db tenantId productKey time
    if isStoreBillingProvider state.provider && (storeIntervalOf db state).isNone then
      .ok (ignored (state.provider.text ++ js " product is not pinned to a plan")
        (some tenantId), ended)
    else do
      let t ← openReplacement deps ended tenantId productKey intent state mapped time plan version
        converted
      let replaced := match openBase with
        | some x => js " (ended " ++ sourceText x.source ++ (match converted with
            | some r => js "; conversion " ++ uuidText r.changeRequestId
            | none => []) ++ js ")"
        | none => []
      pure (⟨.applied, js "opened " ++ statusText mapped.status ++ replaced, some tenantId,
        some ended.nextId, if isSending mapped.status then some intent.userId else none⟩, t)

/-- The release that lifts the hold of an open governed row, and why there is none. -/
def activationRelease (deps : BillingDeps) (db : BillingDb) (tenantId : Uuid)
    (productKey : ProductKey) (intent : CheckoutIntent) (state : ProviderSubscriptionState)
    (mapped : MappedStatus) (time : Nat) : Option ConversionRelease × JsString × BillingDb :=
  match (db.openBase? tenantId productKey).filter isGovernedSubscription with
  | none => (none, [], db)
  | some governed =>
    if mapped.ends || !deps.conversions then (none, [], db)
    else
      let target := activationTarget db.catalog intent.planId state productKey
      let (verdict, t) := releaseForActivation db tenantId productKey governed.id intent
        state.subscriptionRef state.currentPeriodStart
        ⟨target.planId, target.version.map (·.id)⟩ time
      if verdict.valid then (verdict.release, [], t) else (none, verdict.reason, t)

/-- An open governed row conflicts with the activation unless a release lifts it. -/
def governedConflict (deps : BillingDeps) (db : BillingDb) (tenantId : Uuid)
    (productKey : ProductKey) (intent : CheckoutIntent) (state : ProviderSubscriptionState)
    (mapped : MappedStatus) (time : Nat) : Bool :=
  (db.openBase? tenantId productKey).any isGovernedSubscription && !mapped.ends &&
    (activationRelease deps db tenantId productKey intent state mapped time).1.isNone

def governedHold (conflict : Bool) (note : JsString) : JsString :=
  if conflict then joinDetails [governedSubscriptionHeld, note] else []

/-- The row of the subscription does not exist yet: the holds of a new activation, then
`openRow`. -/
def activate (deps : BillingDeps) (db : BillingDb) (tenantId : Uuid) (productKey : ProductKey)
    (intent : CheckoutIntent) (state : ProviderSubscriptionState) (mapped : MappedStatus)
    (held : JsString) (time : Nat) : Except TxError (ApplyResult × BillingDb) :=
  let (release, note, t) := activationRelease deps db tenantId productKey intent state mapped time
  let conflict := governedConflict deps db tenantId productKey intent state mapped time
  let u := guardFlag t tenantId state (some intent.id) .governedSubscriptionOpen conflict time
  let allHeld := joinDetails [held, governedHold conflict note]
  if allHeld != [] then .ok (ignored allHeld (some tenantId), u)
  else openRow deps u tenantId productKey intent state mapped time release

def applyLocked (deps : BillingDeps) (db : BillingDb) (tenantId : Uuid) (productKey : ProductKey)
    (state : ProviderSubscriptionState) (mapped : MappedStatus) (intent : Option CheckoutIntent)
    (domainOk : Bool) (time clock : Nat) : Except TxError (ApplyResult × BillingDb) :=
  let countryOk := isStoreBillingProvider state.provider ||
    billingCountrySupported deps state.accountCountry
  let intentId := intent.map (·.id)
  let db₁ := guardFlag db tenantId state intentId .billingCountryNotSupported (!countryOk) time
  let db₂ := guardFlag db₁ tenantId state intentId .domainNotAuthoritative (!domainOk) time
  let held := joinDetails [if countryOk then [] else billingCountryHeld,
    if domainOk then [] else domainVerificationHeld]
  match (db₂.subscriptions.find? fun x =>
      isOfProvider state.provider state.subscriptionRef x && x.productKey == productKey) with
  | some row => updateRow deps db₂ row state mapped held time clock
  | none =>
    match intent with
    | none => .ok (ignored (js "unknown subscription without a checkout intent")
        (some tenantId), db₂)
    | some intent => activate deps db₂ tenantId productKey intent state mapped held time

/-! ## The whole application -/

/-- What is read before the lock is taken. -/
structure Link where
  tenantId : Uuid
  intent : Option CheckoutIntent
  domainOk : Bool

/-- The checks of `applyProviderState` before its transaction: the link of the state to a
tenant, or the result that ignores it. -/
def linkOf (db : BillingDb) (state : ProviderSubscriptionState) (productKey : ProductKey)
    (domainAuthoritative : Bool) : Except ApplyResult Link := do
  let existing := db.ofProvider? state.provider state.subscriptionRef
  let intent := state.intentId.bind db.intent?
  let intentPlan := intent.bind fun i => db.catalog.plan? i.planId
  let tenantId ← orThrow ((existing.map (·.tenantId)).or (intent.map (·.tenantId)))
    (ignored (js "subscription is not linked to an Aramo checkout") none)
  require (existing.all (·.productKey == productKey) &&
      (existing.isSome || intentPlan.all (·.productKey == productKey)))
    (ignored (js "subscription belongs to another product than " ++ productKey) (some tenantId))
  require (state.tenantId.all (· == tenantId))
    (ignored (js "provider metadata tenant does not match the Aramo record") (some tenantId))
  require (intent.all (·.tenantId == tenantId))
    (ignored (js "checkout intent tenant does not match") (some tenantId))
  let plan := match existing with
    | some row => db.catalog.plan? row.planId
    | none => intentPlan
  pure ⟨tenantId, intent,
    (plan.bind (·.tenantKind)) == some (js "PERSONAL") || domainAuthoritative⟩

/-- The transaction of `applyProviderState`: the state is applied, then the commands that
it proves are confirmed, then the conversions that waited for them are completed. -/
def applyTx (deps : BillingDeps) (db : BillingDb) (link : Link)
    (state : ProviderSubscriptionState) (productKey : ProductKey) (confirmation : Confirmation)
    (time clock : Nat) : Except TxError (ApplyResult × BillingDb) := do
  let mapped := mapProviderStatus state.providerStatus
  let (result, t) ← applyLocked deps db link.tenantId productKey state mapped link.intent
    link.domainOk time clock
  if !deps.providerCommands then return (result, t)
  let confirms := confirmsSubscription state.provider state.subscriptionRef link.tenantId
    productKey state.cancelAtPeriodEnd mapped.ends
  let confirmed := t.commands.filter confirms
  let u := { t with commands := updateWhere confirms (confirmCommand confirmation time) t.commands }
  if confirmed.isEmpty || !deps.conversions then return (result, u)
  let (done, v) ← completeConfirmedInTx u confirmed time
  if done.isEmpty then return (result, v)
  let notes := done.map fun d => uuidText d.1 ++ js " " ++ d.2.text
  return ({ result with
    detail := result.detail ++ js "; conversion " ++ (js ", ").intercalate notes }, v)

/-- `applyProviderState`, with nothing between its reads and its transaction. -/
def applyProviderState (deps : BillingDeps) (db : BillingDb) (state : ProviderSubscriptionState)
    (productKey : ProductKey) (domainAuthoritative : Bool) (confirmation : Confirmation)
    (time clock : Nat) : Except TxError (ApplyResult × BillingDb) :=
  match linkOf db state productKey domainAuthoritative with
  | .error result => .ok (result, db)
  | .ok link => applyTx deps db link state productKey confirmation time clock

end AramoPlatform.Billing
