import AramoPlatform.Billing.Tables

/-!
# Recording a provider command

`BillingCommandService.enqueue`: a change request or an owner's own request
records one command for each of its steps. The idempotency key of the command
is derived from the request and the step.
-/

namespace AramoPlatform.Billing

open Js Lib Subscription

/-! ## Keys -/

def isLowerLetter (u : UInt16) : Bool := decide (97 ≤ u ∧ u ≤ 122)

def isStepUnit (u : UInt16) : Bool :=
  isLowerLetter u || decide (48 ≤ u ∧ u ≤ 57) || u == 95

/-- `BILLING_COMMAND_STEP`: a lower-case letter, then at most 62 letters, digits and
underscores. -/
def isStepKey : JsString → Bool
  | [] => false
  | u :: rest => isLowerLetter u && decide (rest.length ≤ 62) && rest.all isStepUnit

def billingCommandIdempotencyKey (changeRequestId : Uuid) (step : JsString) : JsString :=
  js "aramo-ccp-" ++ uuidText changeRequestId ++ js "-" ++ step

def selfServiceCommandIdempotencyKey (selfServiceRequestId : Uuid) (step : JsString) : JsString :=
  js "aramo-ccp-ss-" ++ uuidText selfServiceRequestId ++ js "-" ++ step

def CommandOrigin.idempotencyKey (step : JsString) : CommandOrigin → JsString
  | changeRequest id => billingCommandIdempotencyKey id step
  | selfServiceRequest id => selfServiceCommandIdempotencyKey id step

/-! ## Rows that ask for commands -/

/-- A row of `CommercialChangeRequest` of another action than `CONVERSION`, with the
members of the payload that a billing adjustment reads. -/
structure ChangeRequest where
  id : Uuid
  actionType : Commercial.ActionType
  state : Commercial.RequestState
  tenantId : Option Uuid
  productKey : Option ProductKey
  applyAttempts : Nat
  requestedBy : JsString
  appliedAt : Option Nat
  amountMinor : Option Nat
  currency : Option JsString
  discountBps : Option Nat
  compensates : Option Uuid
  subscriptionId : Option Uuid
  deriving DecidableEq

structure SelfServiceBillingRequest where
  id : Uuid
  tenantId : Uuid
  productKey : ProductKey
  targetRef : JsString
  deriving DecidableEq

/-- What `changeRequestOrigin` selects of a change request. -/
structure OriginRequest where
  actionType : Commercial.ActionType
  state : Commercial.RequestState
  tenantId : Option Uuid
  productKey : Option ProductKey

/-- The change request with this id; conversions have a table of their own. -/
def originRequest? (db : BillingDb) (requests : List ChangeRequest) (id : Uuid) :
    Option OriginRequest :=
  match db.requests.find? (·.id == id) with
  | some r => some ⟨.conversion, r.state, some r.tenantId, some r.productKey⟩
  | none => (requests.find? (·.id == id)).map fun r =>
      ⟨r.actionType, r.state, r.tenantId, r.productKey⟩

/-- `BILLING_COMMAND_REQUEST_STATES`. -/
def isCommandRequestState : Commercial.RequestState → Bool
  | .approved | .applying | .applyFailed => true
  | .draft | .pendingApproval | .applied | .rejected | .expired | .withdrawn | .applyExpired =>
    false

/-- `BILLING_COMMAND_KINDS_BY_ACTION`; none for an action that issues no commands. -/
def billingCommandKindsByAction : Commercial.ActionType → List BillingCommandKind
  | .conversion => [.subscriptionCancel, .checkoutSessionExpire]
  | .credit => [.creditGrant, .creditReverse]
  | .discount => [.discountApply, .discountRemove]
  | .refund => [.refundCreate]
  | _ => []

/-- `BILLING_COMMAND_ACTIONS`. -/
def isCommandAction : Commercial.ActionType → Bool
  | .conversion | .credit | .discount | .refund => true
  | _ => false

/-! ## The input -/

def BillingCommandKind.text : BillingCommandKind → JsString
  | subscriptionCancel => js "SUBSCRIPTION_CANCEL"
  | checkoutSessionExpire => js "CHECKOUT_SESSION_EXPIRE"
  | creditGrant => js "CREDIT_GRANT"
  | creditReverse => js "CREDIT_REVERSE"
  | discountApply => js "DISCOUNT_APPLY"
  | discountRemove => js "DISCOUNT_REMOVE"
  | refundCreate => js "REFUND_CREATE"

structure EnqueueInput where
  commandKind : BillingCommandKind
  origin : CommandOrigin
  step : JsString
  tenantId : Uuid
  productKey : ProductKey
  targetRef : JsString
  mode : Option SubscriptionCancelMode
  /-- The adjustment parameters. -/
  params : Option BillingCommandParams
  createdBy : JsString
  time : Nat

def noParams : BillingCommandParams := ⟨none, none, none, none, none, none, none⟩

/-- The members of a parameter object, with whether each is there. -/
def BillingCommandParams.members (p : BillingCommandParams) : List (JsString × Bool) :=
  [(js "mode", p.mode.isSome), (js "subscription_id", p.subscriptionId.isSome),
    (js "amount_minor", p.amountMinor.isSome), (js "currency", p.currency.isSome),
    (js "discount_bps", p.discountBps.isSome), (js "coupon_ref", p.couponRef.isSome),
    (js "account_ref", p.accountRef.isSome)]

def adjustmentParamKeys : BillingCommandKind → List JsString
  | .creditGrant | .creditReverse =>
    [js "subscription_id", js "amount_minor", js "currency"]
  | .discountApply => [js "subscription_id", js "discount_bps", js "coupon_ref"]
  | .discountRemove => [js "subscription_id", js "coupon_ref"]
  | .refundCreate =>
    [js "subscription_id", js "amount_minor", js "currency", js "account_ref"]
  | .subscriptionCancel | .checkoutSessionExpire => []

def isCurrency (s : JsString) : Bool :=
  decide (s.length = 3) && s.all fun u => decide (65 ≤ u ∧ u ≤ 90)

def isRef (s : JsString) : Bool := decide (1 ≤ s.length ∧ s.length ≤ 255)

def errorUnless (ok : Bool) (text : JsString) : List JsString := if ok then [] else [text]

@[simp] theorem errorUnless_eq_nil {ok : Bool} {text : JsString} :
    errorUnless ok text = [] ↔ ok = true := by
  cases ok <;> simp [errorUnless]

def adjustmentParamErrors (kind : BillingCommandKind) (params : Option BillingCommandParams) :
    List JsString :=
  if !isAdjustmentCommandKind kind then []
  else
    match params with
    | none => [js "a " ++ kind.text ++ js " command needs its params"]
    | some p =>
      let keys := adjustmentParamKeys kind
      let given := (p.members.filter (·.2)).map (·.1)
      (given.filter (!keys.contains ·)).map (· ++ js " is not a " ++ kind.text ++ js " param") ++
        (keys.filter (!given.contains ·)).map (· ++ js " is required for " ++ kind.text) ++
        errorUnless (p.amountMinor.all fun n => decide (1 ≤ n ∧ n ≤ 9007199254740991))
          (js "amount_minor must be a positive integer") ++
        errorUnless (p.currency.all isCurrency) (js "currency must be an ISO 4217 code") ++
        errorUnless (p.discountBps.all fun n => decide (1 ≤ n ∧ n ≤ 10000))
          (js "discount_bps must be 1-10000") ++
        errorUnless (p.couponRef.all isRef) (js "coupon_ref must be 1-255 characters") ++
        errorUnless (p.accountRef.all isRef) (js "account_ref must be 1-255 characters")

/-- The errors of the input, before anything is read. -/
def enqueueErrors (input : EnqueueInput) : List JsString :=
  let kind := input.commandKind
  errorUnless (isStepKey input.step) (js "step must be a snake_case key (1-63 characters)") ++
    errorUnless (isRef input.targetRef) (js "target_ref must be 1-255 characters") ++
    errorUnless (input.origin.changeRequestId.isSome ||
        (kind == .subscriptionCancel && input.mode == some .atPeriodEnd))
      (js "a self-service request issues only SUBSCRIPTION_CANCEL AT_PERIOD_END") ++
    errorUnless (kind != .subscriptionCancel || input.mode.isSome)
      (js "mode must be IMMEDIATE or AT_PERIOD_END") ++
    errorUnless (kind != .checkoutSessionExpire || input.mode.isNone)
      (js "a CHECKOUT_SESSION_EXPIRE command takes no mode") ++
    if isAdjustmentCommandKind kind then
      errorUnless input.mode.isNone (js "a " ++ kind.text ++ js " command takes no mode") ++
        adjustmentParamErrors kind input.params
    else
      errorUnless input.params.isNone (js "a " ++ kind.text ++
        js " command takes no adjustment params")

/-- The parameters that are stored. -/
def storedParams (input : EnqueueInput) : BillingCommandParams :=
  if input.commandKind == .subscriptionCancel then { noParams with mode := input.mode }
  else if isAdjustmentCommandKind input.commandKind then input.params.getD noParams
  else noParams

/-! ## Checks against the tables -/

inductive BillingCommandErrorCode where
  | invalidCommand
  | changeRequestNotFound
  | selfServiceRequestNotFound
  | changeRequestNotApproved
  | actionNotCommandIssuing
  | tenantProductMismatch
  | targetNotFound
  | idempotencyConflict
  | notFound
  | notFailed
  | refundExecutionNotReleased
  | refundPolicyNotApproved
  /-- A unique index refuses the row. -/
  | uniqueViolation
  deriving DecidableEq

structure BillingCommandError where
  code : BillingCommandErrorCode
  message : JsString
  deriving DecidableEq

def changeRequestOrigin (db : BillingDb) (requests : List ChangeRequest) (id tenantId : Uuid)
    (productKey : ProductKey) (kind : BillingCommandKind) :
    Except BillingCommandError JsString := do
  let request ← orThrow (originRequest? db requests id)
    ⟨.changeRequestNotFound, js "change request not found"⟩
  require (isCommandRequestState request.state)
    ⟨.changeRequestNotApproved, js "the change request is " ++ request.state.text ++
      js "; a provider command needs a completed approval chain"⟩
  require (isCommandAction request.actionType)
    ⟨.actionNotCommandIssuing, request.actionType.text ++ js " does not issue provider commands"⟩
  require ((billingCommandKindsByAction request.actionType).contains kind)
    ⟨.actionNotCommandIssuing, request.actionType.text ++ js " does not issue " ++ kind.text ++
      js " commands"⟩
  require (request.tenantId == some tenantId && request.productKey == some productKey)
    ⟨.tenantProductMismatch,
      js "the command names another tenant or product than its change request"⟩
  pure (js "change request")

def selfServiceOrigin (selfService : List SelfServiceBillingRequest) (id tenantId : Uuid)
    (productKey : ProductKey) (targetRef : JsString) : Except BillingCommandError JsString := do
  let request ← orThrow (selfService.find? (·.id == id))
    ⟨.selfServiceRequestNotFound, js "self-service request not found"⟩
  require (request.tenantId == tenantId && request.productKey == productKey &&
      request.targetRef == targetRef)
    ⟨.tenantProductMismatch,
      js "the command names another tenant, product or target than its self-service request"⟩
  pure (js "self-service request")

/-- `assertTargetOwned`: the target is a provider object of this tenant and product. -/
def assertTargetOwned (provider : BillingProviderKey) (db : BillingDb) (kind : BillingCommandKind)
    (tenantId : Uuid) (productKey : ProductKey) (targetRef : JsString)
    (params : BillingCommandParams) (allowHeld : Bool) : Except BillingCommandError Unit :=
  let owned := fun x : TenantSubscription =>
    x.tenantId == tenantId && x.productKey == productKey && x.billingProvider == some provider &&
      x.source == .selfService && x.endedAt.isNone
  match kind with
  | .creditGrant | .creditReverse | .discountApply | .discountRemove | .refundCreate =>
    let row := db.subscriptions.find? fun x => some x.id == params.subscriptionId && owned x
    require (row.any fun x =>
        match kind with
        | .creditGrant | .creditReverse => x.billingAccountRef == some targetRef
        | .refundCreate => x.billingAccountRef.isSome && x.billingAccountRef == params.accountRef
        | _ => x.billingSubscriptionRef == some targetRef)
      ⟨.targetNotFound, js
        "no open self-service subscription of this tenant and product owns this provider reference"⟩
  | .subscriptionCancel =>
    let row := db.subscriptions.any fun x => owned x && x.billingSubscriptionRef == some targetRef
    let held := db.flags.any fun f =>
      f.tenantId == tenantId && f.provider == provider && f.subscriptionRef == targetRef &&
        f.resolvedAt.isNone
    if row then .ok ()
    else if !allowHeld then
      .error ⟨.targetNotFound, js
        "no open self-service subscription of this tenant and product has this provider reference"⟩
    else
      require held ⟨.targetNotFound,
        js "no open self-service subscription or held activation " ++
          js "of this tenant and product has this provider reference"⟩
  | .checkoutSessionExpire =>
    require (db.intents.any fun i =>
        i.tenantId == tenantId && i.provider == provider &&
          i.providerSessionRef == some targetRef && i.status == .created &&
            (db.catalog.plan? i.planId).any (·.productKey == productKey))
      ⟨.targetNotFound, js "no open checkout of this tenant and product has this provider session"⟩

/-! ## The transaction -/

/-- The row that is created. -/
def commandOf (provider : BillingProviderKey) (id : Uuid) (input : EnqueueInput) :
    BillingProviderCommand where
  id := id
  provider := provider
  commandKind := input.commandKind
  origin := input.origin
  step := input.step
  idempotencyKey := input.origin.idempotencyKey input.step
  tenantId := input.tenantId
  productKey := input.productKey
  targetRef := input.targetRef
  params := storedParams input
  state := .pending
  attempts := 0
  leaseUntil := none
  nextAttemptAt := none
  lastErrorCode := none
  lastErrorDetail := none
  providerAcceptedAt := none
  confirmedAt := none
  confirmation := none
  failedAt := none
  providerObjectRef := none
  createdBy := input.createdBy
  createdAt := input.time
  updatedAt := input.time

/-- The primary key and the unique indexes of `BillingProviderCommand`. -/
def admitsCommand (commands : List BillingProviderCommand) (c : BillingProviderCommand) : Bool :=
  commands.all fun x =>
    x.id != c.id && x.idempotencyKey != c.idempotencyKey && (x.origin, x.step) != (c.origin, c.step)

/-- The origin of the command, in words. -/
def enqueueOrigin (db : BillingDb) (requests : List ChangeRequest)
    (selfService : List SelfServiceBillingRequest) (input : EnqueueInput) :
    Except BillingCommandError JsString :=
  match input.origin with
  | .changeRequest id =>
    changeRequestOrigin db requests id input.tenantId input.productKey input.commandKind
  | .selfServiceRequest id =>
    selfServiceOrigin selfService id input.tenantId input.productKey input.targetRef

/-- `enqueue`, under the billing lock of the tenant: the command, whether it was there,
and the tables. -/
def enqueue (provider : BillingProviderKey) (db : BillingDb) (requests : List ChangeRequest)
    (selfService : List SelfServiceBillingRequest) (input : EnqueueInput) :
    Except BillingCommandError (BillingProviderCommand × Bool × BillingDb) := do
  let errors := enqueueErrors input
  require errors.isEmpty ⟨.invalidCommand, (js "; ").intercalate errors⟩
  let origin ← enqueueOrigin db requests selfService input
  match db.commands.find? fun c => c.origin == input.origin && c.step == input.step with
  | some existing =>
    require (existing.commandKind == input.commandKind && existing.targetRef == input.targetRef &&
        existing.params == storedParams input)
      ⟨.idempotencyConflict, js "this " ++ origin ++ js " step already holds a different command"⟩
    pure (existing, true, db)
  | none =>
    -- an owner's own request never names a held activation
    assertTargetOwned provider db input.commandKind input.tenantId input.productKey input.targetRef
      (storedParams input) input.origin.changeRequestId.isSome
    let c := commandOf provider db.nextId input
    require (admitsCommand db.commands c) ⟨.uniqueViolation, []⟩
    pure (c, false, { db with commands := db.commands ++ [c], nextId := db.nextId + 1 })

/-! ## What an enqueue leaves -/

section Enqueue

variable {provider : BillingProviderKey} {db t : BillingDb} {requests : List ChangeRequest}
  {selfService : List SelfServiceBillingRequest} {input : EnqueueInput}
  {c : BillingProviderCommand} {replayed : Bool}

/-- A replay writes nothing; otherwise one command is added, of a step key and under
the unique indexes. -/
theorem enqueue_ok (h : enqueue provider db requests selfService input = .ok (c, replayed, t)) :
    (replayed = true ∧ t = db ∧ c ∈ db.commands ∧ c.origin = input.origin ∧
        c.step = input.step) ∨
      replayed = false ∧ c = commandOf provider db.nextId input ∧ isStepKey input.step = true ∧
        admitsCommand db.commands c = true ∧
        t = { db with commands := db.commands ++ [c], nextId := db.nextId + 1 } := by
  simp only [enqueue, bind_eq_ok, require_eq_ok] at h
  obtain ⟨-, herrors, origin, -, h⟩ := h
  have hstep : isStepKey input.step = true := by
    rw [List.isEmpty_iff] at herrors
    simp only [enqueueErrors, List.append_eq_nil_iff, errorUnless_eq_nil] at herrors
    exact herrors.1.1.1.1.1
  split at h
  next existing hfind =>
    simp only [bind_eq_ok, pure_eq_ok, Prod.mk.injEq] at h
    obtain ⟨-, -, rfl, rfl, rfl⟩ := h
    have hplace := List.find?_some hfind
    rw [Bool.and_eq_true, beq_iff_eq, beq_iff_eq] at hplace
    exact .inl ⟨rfl, rfl, List.mem_of_find?_eq_some hfind, hplace⟩
  · simp only [bind_eq_ok, require_eq_ok, pure_eq_ok, Prod.mk.injEq] at h
    obtain ⟨-, -, -, hadmits, rfl, rfl, rfl⟩ := h
    exact .inr ⟨rfl, rfl, hstep, hadmits, rfl⟩

theorem admitsCommand_iff {commands : List BillingProviderCommand} :
    admitsCommand commands c = true ↔ ∀ x ∈ commands, x.id ≠ c.id ∧
      x.idempotencyKey ≠ c.idempotencyKey ∧ (x.origin, x.step) ≠ (c.origin, c.step) := by
  simp [admitsCommand, and_assoc]

end Enqueue

end AramoPlatform.Billing
