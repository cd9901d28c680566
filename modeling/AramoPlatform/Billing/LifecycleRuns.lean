import AramoPlatform.Billing.TableSteps

/-!
# Runs of the lifecycle

Checkouts, provider events, syncs and reconciliations of any number of callers,
step by step. A call reads the provider, then reads its link, then runs its
transaction; each of these is a step of its own, and so is every change that
the provider or another part of the platform makes. A transaction is one step:
it holds the billing lock.
-/

namespace AramoPlatform.Billing

open Js Lib Subscription

/-! ## Calls in flight -/

inductive CallPhase where
  | retrieved
  | linked (link : Link)
  /-- Ignored before the transaction. -/
  | refused
  /-- The transaction has committed. -/
  | applied (link : Link)
  /-- Threw, or stopped. -/
  | failed

/-- A call of `syncSubscription`, by an event, by a reconciliation or by itself. -/
structure SyncCall where
  productKey : ProductKey
  confirmation : Confirmation
  time : Nat
  /-- What `retrieveSubscription` returned. -/
  read : ProviderSubscriptionState
  phase : CallPhase

inductive CheckoutCall where
  | checked (start : CheckoutStart)
  /-- The intent is created, the session of the provider is not. -/
  | opened (intentId : Uuid)
  | done

/-- A call of `syncCheckoutSession` between its checks and its transaction. -/
structure SessionCall where
  intent : CheckoutIntent
  session : CheckoutSessionState
  productKey : ProductKey
  confirmation : Confirmation
  time : Nat

structure LifecycleState where
  db : BillingDb
  /-- The subscriptions at the providers. -/
  provider : List ProviderSubscriptionState
  /-- `BillingEvent`: the events that are recorded. -/
  events : List (BillingProviderKey × JsString)
  /-- Deliveries that did not find their event, before they read the provider. -/
  deliveries : List (BillingProviderKey × JsString)
  /-- The syncs so far, in the order of their reads. -/
  calls : List SyncCall
  checkouts : List CheckoutCall
  sessions : List SessionCall

/-! ## What happens elsewhere -/

/-- A write of another part of the platform to the billing tables. -/
inductive ElsewhereOp where
  /-- A governed, free or development row is opened. -/
  | rowOpens (x : TenantSubscription)
  | governedEnds (id : Uuid) (time : Nat)
  | governedRepinned (id planId planVersionId : Uuid)
  | eligibilityRefreshed (id : Uuid) (eligibility : EligibilityState) (time : Nat)
  | released (r : ConversionRelease)
  | releaseExpires (r : ConversionRelease) (time : Nat)
  | storeIntent (i : CheckoutIntent)
  | catalogChanges (catalog : Catalog) (tenantKinds : List (Uuid × Option JsString))
  | usageChanges (usage : List TenantUsage)
  | queueChanges (commands : List BillingProviderCommand) (requests : List ConversionRequest)

/-- A row that has an id from the counter and no provider. -/
def isUnlinkedRow (db : BillingDb) (x : TenantSubscription) : Bool :=
  x.id == db.nextId && x.source != .selfService && x.billingProvider.isNone &&
    x.billingSubscriptionRef.isNone

def elsewhere (db : BillingDb) : ElsewhereOp → Option BillingDb
  | .rowOpens x => if isUnlinkedRow db x then (db.insertSubscription x).toOption else none
  | .governedEnds id time =>
    if (db.subscription? id).any isGovernedSubscription then
      some (db.updateSubscription id (endReplaced time))
    else none
  | .governedRepinned id planId planVersionId =>
    if (db.subscription? id).any isGovernedSubscription then
      some (db.updateSubscription id fun x =>
        { x with planId := planId, planVersionId := planVersionId })
    else none
  | .eligibilityRefreshed id eligibility time =>
    some (db.updateSubscription id fun x =>
      { x with eligibilityState := some eligibility, eligibilityCheckedAt := some time })
  | .released r =>
    if r.state == .released && r.intentId.isNone && db.releases.all (·.id != r.id) then
      some { db with releases := db.releases ++ [r] }
    else none
  | .releaseExpires r time => some (expireInTx db r time)
  | .storeIntent i =>
    if i.id == db.nextId && i.status == .created then some (db.insertIntent i) else none
  | .catalogChanges catalog tenantKinds =>
    some { db with catalog := catalog, tenantKinds := tenantKinds }
  | .usageChanges usage => some { db with usage := usage }
  | .queueChanges commands requests => some { db with commands := commands, requests := requests }

/-! ## Steps -/

inductive LifecycleOp where
  | providerMoves (state : ProviderSubscriptionState)
  /-- `handleEvent` looks for its event. -/
  | deliver (provider : BillingProviderKey) (eventId : JsString)
  /-- A sync reads the provider. -/
  | retrieve (provider : BillingProviderKey) (ref : JsString) (productKey : ProductKey)
      (confirmation : Confirmation) (time : Nat)
  | link (call : Nat) (domainAuthoritative : Bool)
  | apply (call clock : Nat)
  | fail (call : Nat)
  | recordEvent (call : Nat)
  | checkCheckout (input : CheckoutInput)
  | openCheckout (checkout : Nat)
  | openSession (checkout : Nat) (sessionRef : JsString)
  | readSession (session : CheckoutSessionState) (productKey : ProductKey)
      (confirmation : Confirmation) (time : Nat)
  | expireSession (call : Nat)
  | elsewhere (op : ElsewhereOp)

def isStateOf (provider : BillingProviderKey) (ref : JsString) (p : ProviderSubscriptionState) :
    Bool :=
  p.provider == provider && p.subscriptionRef == ref

/-- The provider's subscription takes a new state. -/
def setProviderState (provider : List ProviderSubscriptionState)
    (state : ProviderSubscriptionState) : List ProviderSubscriptionState :=
  state :: provider.filter fun p => !isStateOf state.provider state.subscriptionRef p

section Steps

variable (deps : BillingDeps) (ports : CheckoutPorts)

/-- One step; `none` where it cannot be taken. -/
def lifecycleNext (s : LifecycleState) : LifecycleOp → Option LifecycleState
  | .providerMoves state => some { s with provider := setProviderState s.provider state }
  | .deliver provider eventId =>
    if s.events.contains (provider, eventId) then none
    else some { s with deliveries := (provider, eventId) :: s.deliveries }
  | .retrieve provider ref productKey confirmation time => do
    let read ← s.provider.find? (isStateOf provider ref)
    let calls := s.calls ++ [⟨productKey, confirmation, time, read, .retrieved⟩]
    match confirmation.eventId with
    | none => some { s with calls := calls }
    | some id =>
      if s.deliveries.contains (provider, id) then
        some { s with calls := calls, deliveries := s.deliveries.erase (provider, id) }
      else none
  | .link call domainAuthoritative => do
    let c ← s.calls[call]?
    match c.phase with
    | .retrieved =>
      match linkOf s.db c.read c.productKey domainAuthoritative with
      | .ok link => some { s with calls := s.calls.set call { c with phase := .linked link } }
      | .error _ => some { s with calls := s.calls.set call { c with phase := .refused } }
    | _ => none
  | .apply call clock => do
    let c ← s.calls[call]?
    match c.phase with
    | .linked link =>
      match applyTx deps s.db link c.read c.productKey c.confirmation c.time clock with
      | .ok (_, db) =>
        some { s with db := db, calls := s.calls.set call { c with phase := .applied link } }
      | .error _ => some { s with calls := s.calls.set call { c with phase := .failed } }
    | _ => none
  | .fail call => do
    let c ← s.calls[call]?
    match c.phase with
    | .retrieved | .linked _ =>
        some { s with calls := s.calls.set call { c with phase := .failed } }
    | _ => none
  | .recordEvent call => do
    let c ← s.calls[call]?
    let id ← c.confirmation.eventId
    match c.phase with
    | .refused | .applied _ => some { s with events := s.events ++ [(c.read.provider, id)] }
    | _ => none
  | .checkCheckout input =>
    match startCheckoutChecks ports s.db input with
    | .ok start => some { s with checkouts := s.checkouts ++ [.checked start] }
    | .error _ => none
  | .openCheckout checkout => do
    match (← s.checkouts[checkout]?) with
    | .checked start =>
      match startCheckoutTx ports s.db start with
      | .ok db =>
        some { s with db := db, checkouts := s.checkouts.set checkout (.opened s.db.nextId) }
      | .error _ => some { s with checkouts := s.checkouts.set checkout .done }
    | _ => none
  | .openSession checkout sessionRef => do
    match (← s.checkouts[checkout]?) with
    | .opened intentId =>
      match s.db.updateIntent intentId fun i =>
        { i with providerSessionRef := some sessionRef } with
      | .ok db => some { s with db := db, checkouts := s.checkouts.set checkout .done }
      | .error _ => some { s with checkouts := s.checkouts.set checkout .done }
    | _ => none
  | .readSession session productKey confirmation time =>
    match sessionIntentOf s.db session productKey with
    | .ok intent =>
      some { s with sessions := s.sessions ++ [⟨intent, session, productKey, confirmation, time⟩] }
    | .error _ => none
  | .expireSession call => do
    let c ← s.sessions[call]?
    some { s with
      db := (expireSessionTx s.db c.intent c.session c.productKey c.confirmation c.time).2
      sessions := s.sessions.eraseIdx call }
  | .elsewhere op => do
    let db ← Billing.elsewhere s.db op
    some { s with db := db }

def LifecycleStep (s : LifecycleState) (op : LifecycleOp) (t : LifecycleState) : Prop :=
  lifecycleNext deps ports s op = some t

theorem lifecycleRun_of_exec (s : LifecycleState) (ops : List LifecycleOp)
    (p : LifecycleState → Bool) (h : (exec (lifecycleNext deps ports) s ops).any p = true) :
    ∃ t, Run (LifecycleStep deps ports) s ops t ∧ p t = true :=
  run_of_exec (fun _ _ _ hnext => hnext) h

end Steps

/-! ## What a step does -/

variable {deps : BillingDeps} {ports : CheckoutPorts} {s t : LifecycleState} {op : LifecycleOp}

/-- The call at a position has committed its transaction under this link. -/
def AppliedAt (calls : List SyncCall) (i : Nat) (c : SyncCall) (link : Link) : Prop :=
  calls[i]? = some c ∧ c.phase = .applied link

/-- The same calls have committed. -/
def SameApplied (old new : List SyncCall) : Prop :=
  ∀ i c link, AppliedAt new i c link ↔ AppliedAt old i c link

theorem SameApplied.append {calls : List SyncCall} {c : SyncCall}
    (hphase : ∀ link, c.phase ≠ .applied link) : SameApplied calls (calls ++ [c]) := by
  intro i d link
  constructor
  · rintro ⟨hfound, hd⟩
    rw [List.getElem?_append] at hfound
    split at hfound
    · exact ⟨hfound, hd⟩
    · obtain rfl : c = d := by
        have hmem := List.mem_of_getElem? hfound
        exact (List.mem_singleton.mp hmem).symm
      exact absurd hd (hphase link)
  · rintro ⟨hfound, hd⟩
    have hlt : i < calls.length := (List.getElem?_eq_some_iff.mp hfound).1
    exact ⟨by rwa [List.getElem?_append_left hlt], hd⟩

theorem appliedAt_set {calls : List SyncCall} {i k : Nat} {c d : SyncCall} {link : Link}
    (h : i < calls.length) : AppliedAt (calls.set i c) k d link ↔
      (k = i ∧ d = c ∧ c.phase = .applied link) ∨ k ≠ i ∧ AppliedAt calls k d link := by
  unfold AppliedAt
  rw [List.getElem?_set]
  by_cases hik : i = k
  · subst hik
    rw [if_pos rfl, if_pos h]
    constructor
    · rintro ⟨hd, hphase⟩
      obtain rfl := Option.some.inj hd
      exact .inl ⟨rfl, rfl, hphase⟩
    · rintro (⟨-, rfl, hphase⟩ | ⟨hne, -⟩)
      · exact ⟨rfl, hphase⟩
      · exact absurd rfl hne
  · rw [if_neg hik]
    constructor
    · intro hd
      exact .inr ⟨fun heq => hik heq.symm, hd⟩
    · rintro (⟨heq, -⟩ | ⟨-, hd⟩)
      · exact absurd heq.symm hik
      · exact hd

/-- A call that has not committed moves to a phase in which it has not either. -/
theorem SameApplied.set {calls : List SyncCall} {i : Nat} {c d : SyncCall}
    (hfound : calls[i]? = some d) (hd : ∀ link, d.phase ≠ .applied link)
    (hc : ∀ link, c.phase ≠ .applied link) : SameApplied calls (calls.set i c) := by
  intro k e link
  rw [appliedAt_set (List.getElem?_eq_some_iff.mp hfound).1]
  constructor
  · rintro (⟨-, rfl, hphase⟩ | ⟨-, he⟩)
    · exact absurd hphase (hc link)
    · exact he
  · intro he
    refine .inr ⟨?_, he⟩
    rintro rfl
    obtain rfl : d = e := Option.some.inj (hfound.symm.trans he.1)
    exact absurd he.2 (hd link)

/-- The steps that write the tables, with what they run, and the others. -/
inductive StepMove (deps : BillingDeps) (ports : CheckoutPorts) (s : LifecycleState) :
    LifecycleOp → LifecycleState → Prop
  | calls {op : LifecycleOp} {t : LifecycleState} (db : t.db = s.db)
      (calls : SameApplied s.calls t.calls) : StepMove deps ports s op t
  | applied {call clock : Nat} {c : SyncCall} {link : Link} {result : ApplyResult}
      {t : LifecycleState} (found : s.calls[call]? = some c) (phase : c.phase = .linked link)
      (calls : t.calls = s.calls.set call { c with phase := .applied link })
      (tx : applyTx deps s.db link c.read c.productKey c.confirmation c.time clock =
        .ok (result, t.db)) : StepMove deps ports s (.apply call clock) t
  | checkout {checkout : Nat} {start : CheckoutStart} {t : LifecycleState}
      (calls : t.calls = s.calls) (tx : startCheckoutTx ports s.db start = .ok t.db) :
      StepMove deps ports s (.openCheckout checkout) t
  | session {checkout : Nat} {sessionRef : JsString} {id : Uuid}
      {f : CheckoutIntent → CheckoutIntent} {t : LifecycleState} (calls : t.calls = s.calls)
      (tx : s.db.updateIntent id f = .ok t.db) :
      StepMove deps ports s (.openSession checkout sessionRef) t
  | expired {call : Nat} {c : SessionCall} {t : LifecycleState} (calls : t.calls = s.calls)
      (tx : t.db =
        (expireSessionTx s.db c.intent c.session c.productKey c.confirmation c.time).2) :
      StepMove deps ports s (.expireSession call) t
  | elsewhere {op : ElsewhereOp} {t : LifecycleState} (calls : t.calls = s.calls)
      (write : elsewhere s.db op = some t.db) : StepMove deps ports s (.elsewhere op) t

theorem SameApplied.refl (calls : List SyncCall) : SameApplied calls calls :=
  fun _ _ _ => Iff.rfl

theorem retrieve_move {provider : BillingProviderKey} {ref : JsString} {productKey : ProductKey}
    {confirmation : Confirmation} {time : Nat}
    (h : LifecycleStep deps ports s (.retrieve provider ref productKey confirmation time) t) :
    StepMove deps ports s (.retrieve provider ref productKey confirmation time) t := by
  obtain ⟨read, -, h⟩ := Option.bind_eq_some_iff.mp h
  have hadded : SameApplied s.calls
      (s.calls ++ [⟨productKey, confirmation, time, read, .retrieved⟩]) := by
    refine .append ?_
    intro link hphase
    cases hphase
  split at h
  · cases h
    exact .calls rfl hadded
  · split at h
    · cases h
      exact .calls rfl hadded
    · cases h

theorem link_move {call : Nat} {domainAuthoritative : Bool}
    (h : LifecycleStep deps ports s (.link call domainAuthoritative) t) :
    StepMove deps ports s (.link call domainAuthoritative) t := by
  obtain ⟨c, hfound, h⟩ := Option.bind_eq_some_iff.mp h
  split at h
  next hphase =>
    have hmoved : ∀ phase, (∀ link, phase ≠ .applied link) →
        SameApplied s.calls (s.calls.set call { c with phase := phase }) := by
      intro phase hnot
      refine .set hfound ?_ hnot
      intro link hlink
      rw [hphase] at hlink
      cases hlink
    split at h <;> cases h <;> exact .calls rfl (hmoved _ fun _ hlink => by cases hlink)
  · cases h

theorem apply_move {call clock : Nat}
    (h : LifecycleStep deps ports s (.apply call clock) t) :
    StepMove deps ports s (.apply call clock) t := by
  obtain ⟨c, hfound, h⟩ := Option.bind_eq_some_iff.mp h
  split at h
  next link hphase =>
    split at h
    next result db htx =>
      cases h
      exact .applied hfound hphase rfl htx
    · cases h
      refine .calls rfl (.set hfound ?_ fun _ hlink => by cases hlink)
      intro link' hlink'
      rw [hphase] at hlink'
      cases hlink'
  · cases h

theorem fail_move {call : Nat}
    (h : LifecycleStep deps ports s (.fail call) t) : StepMove deps ports s (.fail call) t := by
  obtain ⟨c, hfound, h⟩ := Option.bind_eq_some_iff.mp h
  have hmoved : (∀ link, c.phase ≠ .applied link) →
      SameApplied s.calls (s.calls.set call { c with phase := .failed }) := by
    intro hnot
    refine .set hfound hnot ?_
    intro link hlink
    cases hlink
  split at h
  next hphase =>
    cases h
    refine .calls rfl (hmoved ?_)
    intro link hlink
    rw [hphase] at hlink
    cases hlink
  next hphase =>
    cases h
    refine .calls rfl (hmoved ?_)
    intro link hlink
    rw [hphase] at hlink
    cases hlink
  · cases h

theorem recordEvent_move {call : Nat}
    (h : LifecycleStep deps ports s (.recordEvent call) t) :
    StepMove deps ports s (.recordEvent call) t := by
  simp only [LifecycleStep, lifecycleNext, Option.bind_eq_bind, Option.bind_eq_some_iff] at h
  obtain ⟨c, -, id, -, h⟩ := h
  split at h
  · cases h
    exact .calls rfl (.refl _)
  · cases h
    exact .calls rfl (.refl _)
  · cases h

theorem openCheckout_move {checkout : Nat}
    (h : LifecycleStep deps ports s (.openCheckout checkout) t) :
    StepMove deps ports s (.openCheckout checkout) t := by
  obtain ⟨c, -, h⟩ := Option.bind_eq_some_iff.mp h
  split at h
  next start =>
    split at h
    next db htx =>
      cases h
      exact .checkout rfl htx
    · cases h
      exact .calls rfl (.refl _)
  · cases h

theorem openSession_move {checkout : Nat} {sessionRef : JsString}
    (h : LifecycleStep deps ports s (.openSession checkout sessionRef) t) :
    StepMove deps ports s (.openSession checkout sessionRef) t := by
  obtain ⟨c, -, h⟩ := Option.bind_eq_some_iff.mp h
  split at h
  next intentId =>
    split at h
    next db htx =>
      cases h
      exact .session rfl htx
    · cases h
      exact .calls rfl (.refl _)
  · cases h

theorem lifecycleStep_move (h : LifecycleStep deps ports s op t) : StepMove deps ports s op t := by
  cases op with
  | providerMoves state =>
    cases h
    exact .calls rfl (.refl _)
  | deliver provider eventId =>
    simp only [LifecycleStep, lifecycleNext] at h
    split at h
    · cases h
    · cases h
      exact .calls rfl (.refl _)
  | retrieve provider ref productKey confirmation time => exact retrieve_move h
  | link call domainAuthoritative => exact link_move h
  | apply call clock => exact apply_move h
  | fail call => exact fail_move h
  | recordEvent call => exact recordEvent_move h
  | checkCheckout | readSession =>
    simp only [LifecycleStep, lifecycleNext] at h
    split at h
    · cases h
      exact .calls rfl (.refl _)
    · cases h
  | openCheckout checkout => exact openCheckout_move h
  | openSession checkout sessionRef => exact openSession_move h
  | expireSession call =>
    obtain ⟨c, -, h⟩ := Option.bind_eq_some_iff.mp h
    cases h
    exact .expired rfl rfl
  | elsewhere op =>
    obtain ⟨db, hwrite, h⟩ := Option.bind_eq_some_iff.mp h
    cases h
    exact .elsewhere rfl hwrite
end AramoPlatform.Billing
