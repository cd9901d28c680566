import AramoPlatform.Billing.CommandDispatch
import AramoPlatform.Billing.LifecycleRuns

/-!
# Runs of the command outbox

Dispatchers, retries, confirmations and reconciliations of any number of
callers over the tables of the lifecycle, step by step. A dispatcher that
stops takes no more steps. Claims and outcomes are statements of their own; a
confirmation holds the billing lock, and its row from its update on, so it is
one step.
-/

namespace AramoPlatform.Billing

open Js Lib Subscription

/-! ## Dispatchers in flight -/

inductive DispatchPhase where
  | claimed
  /-- The change request of an adjustment was seen in `APPLYING`. -/
  | approved
  /-- The effect of a refund was read; its gates follow. -/
  | gated
  /-- The writes still to be sent. -/
  | sending (writes : List ProviderWrite) (detail : JsString)
  | performed (result : Except AttemptError Accepted)
  | recorded

/-- One claim: the row as the claim returned it and the clock reading of its batch. -/
structure Dispatch where
  command : BillingProviderCommand
  time : Nat
  phase : DispatchPhase

/-- A run of `dispatchDue`: its clock reading, the claims it may still make and the one
it is working on. -/
structure Batch where
  time : Nat
  left : Nat
  running : Option Nat

/-- A call of `syncAdjustmentCommand` between its read and its transaction. -/
structure AdjustmentSync where
  commandId : Uuid
  effect : AdjustmentEffect
  confirmation : Confirmation
  time : Nat

/-- A run of `reconcilePending`: the targets still to be re-fetched. -/
structure Reconcile where
  productKey : ProductKey
  time : Nat
  rest : List SyncTarget

structure OutboxState where
  lifecycle : LifecycleState
  requests : List ChangeRequest
  selfService : List SelfServiceBillingRequest
  adjustments : List BillingAdjustment
  batches : List Batch
  /-- The claims so far, in their order. -/
  dispatches : List Dispatch
  /-- The writes that the provider has executed. -/
  executed : List ProviderWrite
  syncs : List AdjustmentSync
  reconciles : List Reconcile

def OutboxState.commands (s : OutboxState) : List BillingProviderCommand := s.lifecycle.db.commands

/-- A provider port: configured, and with a live key. -/
structure ProviderPort where
  configured : Bool
  live : Bool

/-- The ports of the outbox; `none` when unbound. -/
structure OutboxPorts where
  provider : BillingProviderKey
  commands : Option ProviderPort
  adjustments : Option ProviderPort

/-- `dispatchDue` skips its work without a configured port or with a live key. -/
def dispatchAllowed (ports : OutboxPorts) : Bool :=
  ports.commands.any (fun p => p.configured && !p.live) &&
    ports.adjustments.all fun p => !p.live

/-! ## Steps -/

/-- How the provider answers a write. -/
inductive WriteAnswer where
  | ok (objectRef : Option JsString)
  /-- No answer, or a refusal; a coupon may be refused because it exists. -/
  | failed (retryable alreadyExists : Bool) (message : JsString)

/-- What a reconciliation reads for its next target. -/
inductive SyncAnswer where
  | subscription
  | session (session : CheckoutSessionState)
  | effect (effect : AdjustmentEffect)
  | failed

inductive OutboxOp where
  | enqueue (input : EnqueueInput)
  | startBatch (time limit : Nat)
  | claim (batch : Nat) (locked : List Uuid)
  | readSubscription (dispatch : Nat)
  | readSession (dispatch : Nat) (session : CheckoutSessionState)
  | readRequest (dispatch : Nat)
  | readEffect (dispatch : Nat) (before : AdjustmentEffect)
  | passGates (dispatch : Nat) (answer : Except (JsString × JsString) InvoicePayment)
  | readFails (dispatch : Nat) (e : AttemptError)
  | send (dispatch : Nat) (executes : Bool) (answer : WriteAnswer)
  | record (batch : Nat)
  | retryFailed (id : Uuid) (gate : Option BillingCommandErrorCode) (time : Nat)
  | rearm (requestId : Uuid) (time : Nat)
  | readAdjustment (commandId : Uuid) (productKey : ProductKey) (effect : AdjustmentEffect)
      (confirmation : Confirmation) (time : Nat)
  | confirmAdjustment (sync : Nat)
  | reconcile (productKey : ProductKey) (time limit : Nat)
  | reconcileNext (reconcile : Nat) (answer : SyncAnswer)
  /-- Webhooks, syncs, checkouts, and what the provider and the platform do besides. -/
  | lifecycle (op : LifecycleOp)
  /-- Change requests and owners' requests move. -/
  | requestsMove (conversions : List ConversionRequest) (requests : List ChangeRequest)
      (selfService : List SelfServiceBillingRequest)

/-- The commands are written by the outbox alone. -/
def keepsQueue : LifecycleOp → Bool
  | .elsewhere (.queueChanges _ _) => false
  | _ => true

def refetchConfirmation : Confirmation := ⟨.refetch, none⟩

def OutboxState.setCommands (s : OutboxState) (commands : List BillingProviderCommand) :
    OutboxState :=
  { s with lifecycle := { s.lifecycle with db := { s.lifecycle.db with commands := commands } } }

/-- The dispatch moves on. -/
def OutboxState.setPhase (s : OutboxState) (dispatch : Nat) (d : Dispatch)
    (phase : DispatchPhase) : OutboxState :=
  { s with dispatches := s.dispatches.set dispatch { d with phase := phase } }

/-- The phase after a decision. -/
def phaseOf : Except AttemptError Decision → DispatchPhase
  | .error e => .performed (.error e)
  | .ok (.inEffect done) => .performed (.ok done)
  | .ok (.send writes detail) => .sending writes detail

/-- The phase after the effect of an adjustment is read. -/
def phaseOfEffect (c : BillingProviderCommand) : Except AttemptError EffectDecision → DispatchPhase
  | .error e => .performed (.error e)
  | .ok (.inEffect done) => .performed (.ok done)
  | .ok .proceed =>
    if c.commandKind == .refundCreate then .gated
    else .sending (adjustmentWrites c []) (acceptedDetail c)

/-- The provider executes a key once; a call with a key that it knows changes nothing. -/
def executeWrite (executed : List ProviderWrite) (executes : Bool) (w : ProviderWrite) :
    List ProviderWrite :=
  if executes && executed.all (·.key != w.key) then executed ++ [w] else executed

/-- The phase after a write is answered. -/
def phaseAfter (w : ProviderWrite) (rest : List ProviderWrite) (detail : JsString) :
    WriteAnswer → DispatchPhase
  | .ok objectRef =>
    if rest.isEmpty then .performed (.ok ⟨detail, objectRef⟩) else .sending rest detail
  | .failed retryable alreadyExists message =>
    -- a coupon with this id was made by an earlier attempt
    if w.part == .coupon && !retryable && alreadyExists then .sending rest detail
    else .performed (.error (.unavailable retryable message))

def OutboxState.readAdjustment (s : OutboxState) (commandId : Uuid) (productKey : ProductKey)
    (effect : AdjustmentEffect) (confirmation : Confirmation) (time : Nat) : OutboxState :=
  if adjustmentShown s.commands commandId productKey effect then
    { s with syncs := s.syncs ++ [⟨commandId, effect, confirmation, time⟩] }
  else s

section Steps

variable (deps : BillingDeps) (checkoutPorts : CheckoutPorts) (ports : OutboxPorts)

/-- One re-fetch of a reconciliation; an ignored one only ends. -/
def reconcileOne (s : OutboxState) (r : Reconcile) : SyncTarget → SyncAnswer → OutboxState
  | .subscription ref, .subscription =>
    match lifecycleNext deps checkoutPorts s.lifecycle
        (.retrieve ports.provider ref r.productKey refetchConfirmation r.time) with
    | some lifecycle => { s with lifecycle := lifecycle }
    | none => s
  | .session _, .session session =>
    match lifecycleNext deps checkoutPorts s.lifecycle
        (.readSession session r.productKey refetchConfirmation r.time) with
    | some lifecycle => { s with lifecycle := lifecycle }
    | none => s
  | .adjustment commandId, .effect effect =>
    s.readAdjustment commandId r.productKey effect refetchConfirmation r.time
  | _, _ => s

/-- One step; `none` where it cannot be taken. -/
def outboxNext (s : OutboxState) : OutboxOp → Option OutboxState
  | .enqueue input =>
    match enqueue ports.provider s.lifecycle.db s.requests s.selfService input with
    | .ok (_, _, db) => some { s with lifecycle := { s.lifecycle with db := db } }
    | .error _ => none
  | .startBatch time limit =>
    if dispatchAllowed ports then some { s with batches := s.batches ++ [⟨time, limit, none⟩] }
    else none
  | .claim batch locked => do
    let b ← s.batches[batch]?
    if b.running.isNone && decide (0 < b.left) then
      let (c, commands) ← claim s.commands locked b.time
      some { s.setCommands commands with
        dispatches := s.dispatches ++ [⟨c, b.time, .claimed⟩]
        batches := s.batches.set batch ⟨b.time, b.left - 1, some s.dispatches.length⟩ }
    else none
  | .readSubscription dispatch => do
    let d ← s.dispatches[dispatch]?
    match d.phase, d.command.commandKind with
    | .claimed, .subscriptionCancel => do
      let state ← s.lifecycle.provider.find? (isStateOf ports.provider d.command.targetRef)
      some (s.setPhase dispatch d (phaseOf (performCancel d.command state)))
    | _, _ => none
  | .readSession dispatch session => do
    let d ← s.dispatches[dispatch]?
    match d.phase, d.command.commandKind with
    | .claimed, .checkoutSessionExpire =>
      if session.sessionRef == d.command.targetRef then
        some (s.setPhase dispatch d (phaseOf (performExpire d.command session)))
      else none
    | _, _ => none
  | .readRequest dispatch => do
    let d ← s.dispatches[dispatch]?
    match d.phase with
    | .claimed =>
      if isAdjustmentCommandKind d.command.commandKind then
        match adjustmentRequestCheck (ports.adjustments.any (·.configured))
          s.requests d.command with
        | .ok () => some (s.setPhase dispatch d .approved)
        | .error e => some (s.setPhase dispatch d (.performed (.error e)))
      else none
    | _ => none
  | .readEffect dispatch before => do
    let d ← s.dispatches[dispatch]?
    match d.phase with
    | .approved =>
      some (s.setPhase dispatch d (phaseOfEffect d.command (performEffect d.command before)))
    | _ => none
  | .passGates dispatch answer => do
    let d ← s.dispatches[dispatch]?
    match d.phase with
    | .gated => some (s.setPhase dispatch d (phaseOf (performRefund d.command answer)))
    | _ => none
  | .readFails dispatch e => do
    let d ← s.dispatches[dispatch]?
    match d.phase with
    | .claimed | .approved | .gated => some (s.setPhase dispatch d (.performed (.error e)))
    | _ => none
  | .send dispatch executes answer => do
    let d ← s.dispatches[dispatch]?
    match d.phase with
    | .sending (w :: rest) detail =>
      let executed := executeWrite s.executed executes w
      match answer with
      | .ok _ =>
        -- an answer comes from an execution, this one or an earlier one of the key
        if executed.any (·.key == w.key) then
          some { s.setPhase dispatch d (phaseAfter w rest detail answer) with executed := executed }
        else none
      | .failed _ _ _ =>
        some { s.setPhase dispatch d (phaseAfter w rest detail answer) with executed := executed }
    | _ => none
  | .record batch => do
    let b ← s.batches[batch]?
    let dispatch ← b.running
    let d ← s.dispatches[dispatch]?
    match d.phase with
    | .performed result =>
      let (_, commands) := recordOutcome s.commands d.command d.time result
      some { (s.setCommands commands).setPhase dispatch d .recorded with
        batches := s.batches.set batch { b with running := none } }
    | _ => none
  | .retryFailed id gate time =>
    match retryFailed s.commands id gate time with
    | .ok commands => some (s.setCommands commands)
    | .error _ => none
  | .rearm requestId time =>
    if s.requests.any fun r => r.id == requestId && r.state == .applying then
      some (s.setCommands (rearmRequest s.commands requestId time))
    else none
  | .readAdjustment commandId productKey effect confirmation time =>
    some (s.readAdjustment commandId productKey effect confirmation time)
  | .confirmAdjustment sync => do
    let r ← s.syncs[sync]?
    match confirmAdjustment s.commands s.requests s.adjustments r.commandId r.effect r.confirmation
        r.time with
    | .ok t =>
      some { s.setCommands t.commands with
        requests := t.requests, adjustments := t.adjustments, syncs := s.syncs.eraseIdx sync }
    | .error _ => some { s with syncs := s.syncs.eraseIdx sync }
  | .reconcile productKey time limit =>
    some { s with
      reconciles := s.reconciles ++
        [⟨productKey, time, reconcileTargets s.commands productKey limit⟩] }
  | .reconcileNext reconcile answer => do
    let r ← s.reconciles[reconcile]?
    match r.rest with
    | [] => none
    | target :: rest =>
      let t := reconcileOne deps checkoutPorts ports s r target answer
      some { t with reconciles := s.reconciles.set reconcile { r with rest := rest } }
  | .lifecycle op => do
    if keepsQueue op then
      let lifecycle ← lifecycleNext deps checkoutPorts s.lifecycle op
      some { s with lifecycle := lifecycle }
    else none
  | .requestsMove conversions requests selfService =>
    some { s with
      lifecycle := { s.lifecycle with db := { s.lifecycle.db with requests := conversions } }
      requests := requests, selfService := selfService }

def OutboxStep (s : OutboxState) (op : OutboxOp) (t : OutboxState) : Prop :=
  outboxNext deps checkoutPorts ports s op = some t

theorem outboxRun_of_exec (s : OutboxState) (ops : List OutboxOp) (p : OutboxState → Bool)
    (h : (exec (outboxNext deps checkoutPorts ports) s ops).any p = true) :
    ∃ t, Run (OutboxStep deps checkoutPorts ports) s ops t ∧ p t = true :=
  run_of_exec (fun _ _ _ hnext => hnext) h

end Steps

end AramoPlatform.Billing
