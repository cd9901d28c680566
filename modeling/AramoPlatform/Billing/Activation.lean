import AramoPlatform.Billing.LifecycleEffects

/-!
# Activation

A provider subscription that has no row yet is opened once, under the billing
lock, and replaces the open row of its tenant and product. The transaction
that ends the replaced row has to be the one that opens the new row, and it is
one, unless the product of a store is pinned to no plan.
-/

namespace AramoPlatform.Billing

open Js Lib Subscription List

variable {deps : BillingDeps} {db t : BillingDb} {tenantId : Uuid} {productKey : ProductKey}
  {intent : CheckoutIntent} {state : ProviderSubscriptionState} {mapped : MappedStatus}
  {time clock : Nat} {release : Option ConversionRelease} {result : ApplyResult}

/-! ## What is promised -/

/-- A cancel that belongs to a conversion from self-service acts on a subscription
that has a row: the conversion took its target from that row. -/
def CommandsTargetRows (db : BillingDb) : Prop :=
  ∀ c ∈ db.commands, c.commandKind = .subscriptionCancel → ∀ r ∈ db.requests,
    c.origin = .changeRequest r.id → (∃ subscriptionId planKey planVersionId,
      r.payload = .endSelfService subscriptionId planKey planVersionId) →
    ∃ x ∈ db.subscriptions, isOfProvider c.provider c.targetRef x = true

/-- The unique keys of the subscriptions: their ids come from the counter, and one
row of a tenant and a product is open. -/
structure SubscriptionsWf (db : BillingDb) : Prop where
  keyed : Keyed TenantSubscription.id db.subscriptions db.nextId
  oneOpen : ∀ x ∈ db.subscriptions, ∀ y ∈ db.subscriptions, x.tenantId = y.tenantId →
    x.productKey = y.productKey → x.endedAt = none → y.endedAt = none → x = y

/-- What an application to a subscription without a row promises: it changes
nothing, or it opens the one new row, completes its checkout and ends the row that
was open before. -/
structure ReplacedTogether (db : BillingDb) (productKey : ProductKey)
    (state : ProviderSubscriptionState) (result : ApplyResult) (t : BillingDb) : Prop where
  ignored : result.outcome = .ignored →
    t.subscriptions = db.subscriptions ∧ t.intents = db.intents
  applied : result.outcome = .applied → ∃ row ∈ t.subscriptions, row.productKey = productKey ∧
    row.endedAt = none ∧ (∀ x ∈ db.subscriptions, x.id ≠ row.id) ∧
    (∀ y ∈ t.subscriptions, y = row ∨ ∃ x ∈ db.subscriptions, x.id = y.id) ∧
    (∃ i ∈ t.intents, state.intentId = some i.id ∧ i.tenantId = row.tenantId ∧
      i.status = .completed) ∧
    ∀ x ∈ db.subscriptions, isOpenBase row.tenantId productKey x = true →
      ∃ y ∈ t.subscriptions, y.id = x.id ∧ y.endedAt.isSome = true
  open_kept : ∀ tenantId productKey, (∃ x ∈ db.subscriptions,
    isOpenBase tenantId productKey x = true) → ∃ y ∈ t.subscriptions,
      isOpenBase tenantId productKey y = true

/-! ## The condition -/

/-- Under the lock a store product without a pin reaches the end of an open row: the
plan of the checkout has a published version, the provider status sends, and a governed
row is released to the checkout. -/
structure ReplacesUnpinned (deps : BillingDeps) (db : BillingDb) (tenantId : Uuid)
    (productKey : ProductKey) (state : ProviderSubscriptionState) (time : Nat)
    (intent : CheckoutIntent) (plan : Plan) (version : PlanVersionRow) (x : TenantSubscription) :
    Prop where
  store : isStoreBillingProvider state.provider = true
  unpinned : storePinInterval db.catalog state.provider state.priceRef = none
  found : db.catalog.plan? intent.planId = some plan
  product : plan.productKey = productKey
  published : currentPublishedVersion db.catalog.versions intent.planId = some version
  sends : isSending (mapProviderStatus state.providerStatus).status = true
  replaces : db.openBase? tenantId productKey = some x
  released : isGovernedSubscription x = true → deps.conversions = true ∧
    (releaseForActivation db tenantId productKey x.id intent state.subscriptionRef
      state.currentPeriodStart ⟨intent.planId, some version.id⟩ time).1.valid = true

/-- The same for a whole application: the state is linked to a checkout of the tenant and
no domain guard holds it. -/
structure EndsUnpinned (deps : BillingDeps) (db : BillingDb) (state : ProviderSubscriptionState)
    (productKey : ProductKey) (domainAuthoritative : Bool) (time : Nat) (intent : CheckoutIntent)
    (plan : Plan) (version : PlanVersionRow) (x : TenantSubscription) : Prop
    extends ReplacesUnpinned deps db intent.tenantId productKey state time
      intent plan version x where
  checkout : state.intentId.bind db.intent? = some intent
  tenant : state.tenantId.all (· == intent.tenantId) = true
  domain : plan.tenantKind = some (js "PERSONAL") ∨ domainAuthoritative = true

/-! ## The link -/

variable {domainAuthoritative : Bool}

theorem linkOf_of_no_row {link : Link}
    (hnone : db.ofProvider? state.provider state.subscriptionRef = none) :
    linkOf db state productKey domainAuthoritative = .ok link ↔
      ∃ intent, state.intentId.bind db.intent? = some intent ∧
        (db.catalog.plan? intent.planId).all (·.productKey == productKey) = true ∧
        state.tenantId.all (· == intent.tenantId) = true ∧
        link = ⟨intent.tenantId, some intent,
          ((db.catalog.plan? intent.planId).bind (·.tenantKind)) == some (js "PERSONAL") ||
            domainAuthoritative⟩ := by
  simp only [linkOf, hnone, Option.map_none, Option.none_or, Option.all_none, Bool.true_and,
    Option.isSome_none, Bool.false_or, bind_eq_ok, orThrow_eq_ok, require_eq_ok, pure_eq_ok,
    exists_const]
  constructor
  · rintro ⟨tenantId, htenant, hproduct, hstate, -, rfl⟩
    obtain ⟨intent, hintent, rfl⟩ := Option.map_eq_some_iff.mp htenant
    rw [hintent] at hproduct ⊢
    exact ⟨intent, rfl, hproduct, hstate, rfl⟩
  · rintro ⟨intent, hintent, hproduct, hstate, rfl⟩
    rw [hintent]
    exact ⟨intent.tenantId, rfl, hproduct, hstate, by simp, rfl⟩

section Condition

variable {domainAuthoritative : Bool} {plan : Plan} {version : PlanVersionRow}
  {x : TenantSubscription}

theorem activationTarget_of_unpinned
    (hstore : isStoreBillingProvider state.provider = true)
    (hnone : storePinInterval db.catalog state.provider state.priceRef = none) :
    activationTarget db.catalog intent.planId state productKey =
      ⟨intent.planId, currentPublishedVersion db.catalog.versions intent.planId⟩ := by
  rw [activationTarget, planForPrice_of_unpinned hstore hnone]

section

variable (h : ReplacesUnpinned deps db tenantId productKey state time intent plan version x)

include h

/-- Under the condition the open row, where it is governed, has a release. -/
theorem ReplacesUnpinned.granted
    (hgov : isGovernedSubscription x = true) :
    ∃ r, (activationRelease deps db tenantId productKey intent state
        (mapProviderStatus state.providerStatus) time).1 = some r ∧
      r.governedSubscriptionId = x.id := by
  obtain ⟨hconversions, hvalid⟩ := h.released hgov
  obtain ⟨r, hr, hgranted⟩ := releaseForActivation_valid hvalid
  refine ⟨r, activationRelease_eq_some.mpr ⟨x, h.replaces, hgov, not_ends_of_sends h.sends,
    hconversions, _, rfl, ?_, ?_⟩, hgranted.binds.governed⟩
  · rw [activationTarget_of_unpinned h.store h.unpinned, h.published]
    exact hvalid
  · rw [activationTarget_of_unpinned h.store h.unpinned, h.published]
    exact hr

theorem ReplacesUnpinned.ready :
    ReadyToOpen db tenantId productKey intent state (mapProviderStatus state.providerStatus)
      (activationRelease deps db tenantId productKey intent state
        (mapProviderStatus state.providerStatus) time).1 plan version := by
  have htarget : activationTarget db.catalog intent.planId state productKey =
      ⟨intent.planId, currentPublishedVersion db.catalog.versions intent.planId⟩ :=
    activationTarget_of_unpinned h.store h.unpinned
  refine ⟨not_ends_of_sends h.sends, ?_, h.product, ?_, fun _ _ => h.sends, ?_⟩
  · rw [htarget]
    exact h.found
  · rw [htarget]
    exact h.published
  · intro y hy hgov
    obtain rfl : x = y := Option.some.inj (h.replaces.symm.trans hy)
    exact h.granted hgov

theorem ReplacesUnpinned.of_same {u : BillingDb}
    (hsame : SameRows db u) (hreleases : u.releases = db.releases) :
    ReplacesUnpinned deps u tenantId productKey state time intent plan version x := by
  refine ⟨h.store, ?_, ?_, h.product, ?_, h.sends, ?_, ?_⟩
  · rw [hsame.catalog]
    exact h.unpinned
  · rw [hsame.catalog]
    exact h.found
  · rw [hsame.catalog]
    exact h.published
  · rw [hsame.openBase?]
    exact h.replaces
  · rw [releaseForActivation_congr hreleases hsame.usage]
    exact h.released

end

theorem replacesUnpinned_of_ready {u : BillingDb} (hsame : SameRows db u)
    (hreleases : u.releases = db.releases)
    (hstore : isStoreBillingProvider state.provider = true)
    (hnone : storePinInterval db.catalog state.provider state.priceRef = none)
    (hready : ReadyToOpen db tenantId productKey intent state
      (mapProviderStatus state.providerStatus)
      (activationRelease deps u tenantId productKey intent state
        (mapProviderStatus state.providerStatus) time).1 plan version)
    (hopen : db.openBase? tenantId productKey = some x) :
    ReplacesUnpinned deps db tenantId productKey state time intent plan version x := by
  have htarget : activationTarget db.catalog intent.planId state productKey =
      ⟨intent.planId, currentPublishedVersion db.catalog.versions intent.planId⟩ :=
    activationTarget_of_unpinned hstore hnone
  have hfound := hready.found
  have hversion := hready.version
  rw [htarget] at hfound hversion
  refine ⟨hstore, hnone, hfound, hready.product, hversion, hready.sends x hopen, hopen, ?_⟩
  intro hgov
  obtain ⟨r, hr, -⟩ := hready.converts x hopen hgov
  obtain ⟨y, hy, -, -, hconversions, _, rfl, hvalid, -⟩ := activationRelease_eq_some.mp hr
  obtain rfl : y = x := by
    rw [hsame.openBase?, hopen] at hy
    exact (Option.some.inj hy).symm
  rw [releaseForActivation_congr hreleases hsame.usage, hsame.catalog, htarget, hversion] at hvalid
  exact ⟨hconversions, hvalid⟩

theorem EndsUnpinned.linked
    (h : EndsUnpinned deps db state productKey domainAuthoritative time intent plan version x)
    (hnone : db.ofProvider? state.provider state.subscriptionRef = none) :
    linkOf db state productKey domainAuthoritative = .ok ⟨intent.tenantId, some intent, true⟩ := by
  rw [linkOf_of_no_row hnone]
  refine ⟨intent, h.checkout, ?_, h.tenant, ?_⟩
  · rw [h.found, Option.all_some, h.product, beq_self_eq_true]
  · rw [h.found, Option.bind_some]
    rcases h.domain with hkind | hdomain
    · rw [hkind, beq_self_eq_true, Bool.true_or]
    · rw [hdomain, Bool.or_true]

end Condition

/-! ## What an application without a row does -/

/-- The three ends of an application to a subscription without a row. Only the second
writes a subscription and is ignored. -/
inductive UnlinkedMove (deps : BillingDeps) (db : BillingDb) (state : ProviderSubscriptionState)
    (productKey : ProductKey) (domainAuthoritative : Bool) (time : Nat) :
    Outcome → BillingDb → Prop
  | kept {t : BillingDb}
      (pinned : ∀ intent plan version x,
        ¬EndsUnpinned deps db state productKey domainAuthoritative time intent plan version x)
      (subscriptions : t.subscriptions = db.subscriptions) (intents : t.intents = db.intents) :
      UnlinkedMove deps db state productKey domainAuthoritative time .ignored t
  | ended {t : BillingDb} {intent : CheckoutIntent} {plan : Plan} {version : PlanVersionRow}
      {x : TenantSubscription}
      (unpinned : EndsUnpinned deps db state productKey domainAuthoritative time intent plan
        version x)
      (subscriptions : t.subscriptions =
        updateWhere (·.id == x.id) (endReplaced time) db.subscriptions) :
      UnlinkedMove deps db state productKey domainAuthoritative time .ignored t
  | opened {t : BillingDb} {intent : CheckoutIntent} {row : TenantSubscription}
      (pinned : ∀ intent plan version x,
        ¬EndsUnpinned deps db state productKey domainAuthoritative time intent plan version x)
      (checkout : state.intentId.bind db.intent? = some intent)
      (id : row.id = db.nextId) (tenant : row.tenantId = intent.tenantId)
      (product : row.productKey = productKey) (isOpen : row.endedAt = none)
      (subscriptions : t.subscriptions =
        (withoutOpenRow db intent.tenantId productKey time).subscriptions ++ [row])
      (intents : t.intents = updateWhere (·.id == intent.id)
        (fun i => { i with status := .completed, completedAt := some time }) db.intents) :
      UnlinkedMove deps db state productKey domainAuthoritative time .applied t

theorem UnlinkedMove.of_tables {outcome : Outcome} {u : BillingDb}
    (h : UnlinkedMove deps db state productKey domainAuthoritative time outcome u)
    (hsubscriptions : t.subscriptions = u.subscriptions) (hintents : t.intents = u.intents) :
    UnlinkedMove deps db state productKey domainAuthoritative time outcome t := by
  cases h with
  | kept pinned subscriptions intents =>
    exact .kept pinned (hsubscriptions.trans subscriptions) (hintents.trans intents)
  | ended unpinned subscriptions => exact .ended unpinned (hsubscriptions.trans subscriptions)
  | opened pinned checkout id tenant product isOpen subscriptions intents =>
    exact .opened pinned checkout id tenant product isOpen (hsubscriptions.trans subscriptions)
      (hintents.trans intents)

theorem applyLocked_of_no_row {domainOk : Bool}
    (hnone : db.ofProvider? state.provider state.subscriptionRef = none)
    (h : applyLocked deps db tenantId productKey state mapped (some intent) domainOk time clock =
      .ok (result, t)) :
    ∃ u, SameRows db u ∧ u.releases = db.releases ∧
      ∃ held, (isStoreBillingProvider state.provider = true → (held = [] ↔ domainOk = true)) ∧
        activate deps u tenantId productKey intent state mapped held time = .ok (result, t) := by
  unfold applyLocked at h
  dsimp only [Option.map_some] at h
  split at h
  next row hfind =>
    -- a row of the subscription in this product is a row of the subscription
    have hmem := mem_of_find?_eq_some hfind
    have hrow := find?_some hfind
    rw [(guardFlag_same _ _ _).subscriptions, (guardFlag_same _ _ _).subscriptions] at hmem
    rw [Bool.and_eq_true] at hrow
    exact absurd hrow.1 (find?_eq_none.mp hnone row hmem)
  next =>
    refine ⟨_, (guardFlag_same _ _ _).trans (guardFlag_same _ _ _), by simp, _, ?_, h⟩
    intro hstore
    rw [joinDetails_pair_eq_nil, hstore]
    cases domainOk <;> simp [domainVerificationHeld_ne_nil]

theorem withoutOpenRow_of_same {u : BillingDb} (hsame : SameRows db u) :
    (withoutOpenRow u tenantId productKey time).subscriptions =
      (withoutOpenRow db tenantId productKey time).subscriptions := by
  rw [withoutOpenRow, withoutOpenRow, hsame.openBase?]
  split
  · rw [BillingDb.updateSubscription, BillingDb.updateSubscription, hsame.subscriptions]
  · exact hsame.subscriptions

theorem applyLocked_unlinked {link : Link}
    (hnone : db.ofProvider? state.provider state.subscriptionRef = none)
    (hlink : linkOf db state productKey domainAuthoritative = .ok link)
    (h : applyLocked deps db link.tenantId productKey state
      (mapProviderStatus state.providerStatus) link.intent link.domainOk time clock =
        .ok (result, t)) :
    UnlinkedMove deps db state productKey domainAuthoritative time result.outcome t := by
  obtain ⟨intent, hintent, hproduct, htenant, rfl⟩ := (linkOf_of_no_row hnone).mp hlink
  obtain ⟨u, hsame, hreleases, held, hheld, hactivate⟩ := applyLocked_of_no_row hnone h
  obtain ⟨w, hsame', -, -, hcase⟩ := activate_ok hactivate
  have hboth := hsame.trans hsame'
  -- under the condition the checkout is this one and no guard holds it
  have hready : ∀ {intent' plan version x}, EndsUnpinned deps db state productKey
      domainAuthoritative time intent' plan version x → intent' = intent ∧ held = [] ∧
        ReplacesUnpinned deps u intent.tenantId productKey state time intent plan version x := by
    intro intent' plan version x hcond
    obtain rfl : intent' = intent := Option.some.inj (hcond.checkout.symm.trans hintent)
    obtain ⟨-, -, hdomain⟩ := Link.mk.inj (Except.ok.inj (hlink.symm.trans (hcond.linked hnone)))
    exact ⟨rfl, (hheld hcond.store).mpr hdomain, hcond.toReplacesUnpinned.of_same hsame hreleases⟩
  rcases hcase with ⟨houtcome, rfl, hguard⟩ | ⟨hfree, -, hmove⟩
  · rw [houtcome]
    refine .kept ?_ hboth.subscriptions hboth.intents
    intro intent' plan version x hcond
    obtain ⟨rfl, hnot, hcond⟩ := hready hcond
    rcases hguard with hguard | hconflict
    · exact hguard hnot
    · simp only [governedConflict, hcond.replaces, Option.any_some, Bool.and_eq_true,
        Option.isNone_iff_eq_none] at hconflict
      obtain ⟨r, hr, -⟩ := hcond.granted hconflict.1.1
      rw [hr] at hconflict
      cases hconflict.2
  · generalize hrelease : (activationRelease deps u intent.tenantId productKey intent state
      (mapProviderStatus state.providerStatus) time).1 = release at hmove
    cases hmove with
    | refused hrefused =>
      refine .kept ?_ hboth.subscriptions hboth.intents
      intro intent' plan version x hcond
      obtain ⟨rfl, -, hcond⟩ := hready hcond
      have hok := hcond.ready.of_same hsame'
      rw [hrelease, ← openRowTarget_eq_ready, hrefused] at hok
      cases hok
    | @unpinned plan version _ ready store interval =>
      have ready := (openRowTarget_eq_ready.mp ready).of_same hboth.symm
      rw [hboth.catalog] at interval
      rw [← hrelease] at ready
      cases hopen : db.openBase? intent.tenantId productKey with
      | none =>
        refine .kept ?_ ?_ ?_
        · intro intent' plan version x hcond
          obtain ⟨rfl, -, -⟩ := hready hcond
          rw [hcond.replaces] at hopen
          cases hopen
        · rw [withoutOpenRow_of_same hboth, withoutOpenRow, hopen]
        · rw [withoutOpenRow_intents, hboth.intents]
      | some x =>
        have hdomain := (hheld store).mp hfree
        have hcond := replacesUnpinned_of_ready hsame hreleases store interval ready hopen
        rw [hcond.found, Option.bind_some, Bool.or_eq_true, beq_iff_eq] at hdomain
        refine .ended ⟨hcond, hintent, htenant, hdomain⟩ ?_
        rw [withoutOpenRow_of_same hboth, withoutOpenRow, hopen]
        rfl
    | opened ready pinned outcome writes =>
      have hwrites := openReplacement_ok writes
      rw [outcome]
      have hrows := hwrites.subscriptions
      rw [withoutOpenRow_of_same hboth] at hrows
      refine .opened ?_ hintent ?_ ?_ ?_ ?_ hrows ?_
      · intro intent' plan version x hcond
        refine pinned ⟨hcond.store, ?_⟩
        rw [hboth.catalog]
        exact hcond.unpinned
      · exact (withoutOpenRow_nextId).trans hboth.nextId
      · rfl
      · rfl
      · rfl
      · rw [hwrites.intents, withoutOpenRow_intents, hboth.intents]

/-- Commands confirmed by the state of a subscription without a row complete no conversion
that would open a governed row. -/
theorem completeAll_of_no_row {u v w : BillingDb} {commands : List BillingProviderCommand}
    {ids : List Uuid} {outcomes : List (Uuid × CompletionOutcome)} {ends : Bool}
    (hcommands : CommandsTargetRows db)
    (hnone : db.ofProvider? state.provider state.subscriptionRef = none)
    (hqueue : SameQueue db u)
    (hids : ∀ id ∈ ids, ∃ c ∈ u.commands, c.origin.changeRequestId = some id ∧
      confirmsSubscription state.provider state.subscriptionRef tenantId productKey
        state.cancelAtPeriodEnd ends c = true)
    (hw : w = { u with commands := commands }) (h : completeAll time ids w = .ok (outcomes, v)) :
    v.subscriptions = u.subscriptions ∧ v.intents = u.intents := by
  have hkeeps : ∀ id ∈ ids, ∀ p ∈ w.requests.map (fun r => (r.id, r.payload)), p.1 = id →
      ∀ subscriptionId planKey planVersionId,
        p.2 ≠ .endSelfService subscriptionId planKey planVersionId := by
    intro id hid p hp hpid subscriptionId planKey planVersionId hpayload
    obtain ⟨c, hc, horigin, hconfirms⟩ := hids id hid
    simp only [confirmsSubscription, Bool.and_eq_true, beq_iff_eq] at hconfirms
    obtain ⟨r, hr, rfl⟩ := mem_map.mp hp
    rw [hw, hqueue.requests] at hr
    rw [hqueue.commands] at hc
    have hfrom : c.origin = .changeRequest r.id := by
      cases horig : c.origin with
      | changeRequest id' =>
        rw [horig] at horigin
        obtain rfl : id' = id := Option.some.inj horigin
        rw [← hpid]
      | selfServiceRequest id' =>
        rw [horig] at horigin
        cases horigin
    obtain ⟨x, hx, hprovider⟩ := hcommands c hc hconfirms.1.1.1.1.2 r hr hfrom
      ⟨subscriptionId, planKey, planVersionId, hpayload⟩
    rw [hconfirms.1.1.1.1.1.1, hconfirms.1.1.1.1.1.2] at hprovider
    exact find?_eq_none.mp hnone x hx hprovider
  obtain ⟨hsubscriptions, hintents⟩ := completeAll_kept hkeeps h
  rw [hw] at hsubscriptions hintents
  exact ⟨hsubscriptions, hintents⟩

theorem applyProviderState_unlinked {confirmation : Confirmation}
    (hcommands : CommandsTargetRows db)
    (hnone : db.ofProvider? state.provider state.subscriptionRef = none)
    (h : applyProviderState deps db state productKey domainAuthoritative confirmation time clock =
      .ok (result, t)) :
    UnlinkedMove deps db state productKey domainAuthoritative time result.outcome t := by
  unfold applyProviderState at h
  split at h
  next hlink =>
    cases h
    rw [linkOf_error hlink]
    refine .kept ?_ rfl rfl
    intro intent plan version x hcond
    rw [hcond.linked hnone] at hlink
    cases hlink
  next link hlink =>
    obtain ⟨first, u, hlocked, houtcome, commands, ids, outcomes, hcomplete, hids⟩ := applyTx_ok h
    have hmove := applyLocked_unlinked hnone hlink hlocked
    obtain ⟨hsubscriptions, hintents⟩ := completeAll_of_no_row hcommands hnone
      (applyLocked_move hlocked).queue hids rfl hcomplete
    rw [houtcome]
    exact hmove.of_tables hsubscriptions hintents

/-! ## Replaced together -/

variable {x : TenantSubscription}

theorem isOpenBase_iff : isOpenBase tenantId productKey x = true ↔
    x.tenantId = tenantId ∧ x.productKey = productKey ∧ x.endedAt = none := by
  simp [isOpenBase, and_assoc]

theorem SubscriptionsWf.openBase?_eq (hwf : SubscriptionsWf db)
    (hx : x ∈ db.subscriptions) (hopen : isOpenBase tenantId productKey x = true) :
    db.openBase? tenantId productKey = some x := by
  obtain ⟨htenant, hproduct, hended⟩ := isOpenBase_iff.mp hopen
  cases hfind : db.openBase? tenantId productKey with
  | none => exact absurd hopen (find?_eq_none.mp hfind x hx)
  | some y =>
    obtain ⟨htenant', hproduct', hended'⟩ := isOpenBase_iff.mp (find?_some hfind)
    rw [hwf.oneOpen y (mem_of_find?_eq_some hfind) x hx (htenant'.trans htenant.symm)
      (hproduct'.trans hproduct.symm) hended' hended]

theorem openBase?_mem (h : db.openBase? tenantId productKey = some x) :
    x ∈ db.subscriptions ∧ isOpenBase tenantId productKey x = true :=
  ⟨mem_of_find?_eq_some h, find?_some h⟩

/-- The end of the open row keeps the key of every row and ends no other. -/
theorem mem_withoutOpenRow (tenantId : Uuid) (productKey : ProductKey) (time : Nat)
    (hwf : SubscriptionsWf db) (hx : x ∈ db.subscriptions) :
    (db.openBase? tenantId productKey = some x ∧ endReplaced time x ∈
        (withoutOpenRow db tenantId productKey time).subscriptions) ∨
      db.openBase? tenantId productKey ≠ some x ∧
        x ∈ (withoutOpenRow db tenantId productKey time).subscriptions := by
  unfold withoutOpenRow
  split
  next y hopen =>
    by_cases hid : x.id = y.id
    · obtain rfl : x = y := inj_on_of_nodup_map hwf.keyed.nodup hx (openBase?_mem hopen).1 hid
      exact .inl ⟨hopen, mem_updateWhere_of_pos hx (beq_self_eq_true x.id)⟩
    · refine .inr ⟨?_, mem_updateWhere_of_not hx (beq_eq_false_iff_ne.mpr hid)⟩
      intro heq
      obtain rfl : y = x := Option.some.inj (hopen.symm.trans heq)
      exact hid rfl
  next hopen => exact .inr ⟨by rw [hopen]; simp, hx⟩

theorem withoutOpenRow_ids :
    (withoutOpenRow db tenantId productKey time).subscriptions.map (·.id) =
      db.subscriptions.map (·.id) := by
  unfold withoutOpenRow
  split
  · refine Eq.trans (map_updateWhere _ ?_) rfl
    intro r
    rfl
  · rfl

theorem replacedTogether_of_opened (hwf : SubscriptionsWf db) {row : TenantSubscription}
    (houtcome : result.outcome = .applied)
    (hcheckout : state.intentId.bind db.intent? = some intent) (hid : row.id = db.nextId)
    (htenant : row.tenantId = intent.tenantId) (hproduct : row.productKey = productKey)
    (hopen : row.endedAt = none)
    (hrows : t.subscriptions =
      (withoutOpenRow db intent.tenantId productKey time).subscriptions ++ [row])
    (hintents : t.intents = updateWhere (·.id == intent.id)
      (fun i => { i with status := .completed, completedAt := some time }) db.intents) :
    ReplacedTogether db productKey state result t := by
  have hmem : row ∈ t.subscriptions := by
    rw [hrows]
    exact mem_append_right _ (mem_singleton.mpr rfl)
  have hleft : ∀ y ∈ (withoutOpenRow db intent.tenantId productKey time).subscriptions,
      y ∈ t.subscriptions := by
    intro y hy
    rw [hrows]
    exact mem_append_left _ hy
  refine ⟨fun hignored => ?_, fun _ => ⟨row, hmem, hproduct, hopen, ?_, ?_, ?_, ?_⟩, ?_⟩
  · rw [houtcome] at hignored
    cases hignored
  · intro x hx heq
    have hlt := hwf.keyed.lt x hx
    rw [heq, hid] at hlt
    exact Nat.lt_irrefl _ hlt
  · intro y hy
    rw [hrows, mem_append, mem_singleton] at hy
    rcases hy with hy | rfl
    · have hkey := mem_map_of_mem (f := (·.id)) hy
      rw [withoutOpenRow_ids] at hkey
      exact .inr (mem_map.mp hkey)
    · exact .inl rfl
  · obtain ⟨id, hstate, hintent⟩ := Option.bind_eq_some_iff.mp hcheckout
    obtain rfl : intent.id = id := by simpa using find?_some hintent
    refine ⟨{ intent with status := .completed, completedAt := some time }, ?_, hstate,
      htenant.symm, rfl⟩
    rw [hintents]
    exact mem_updateWhere_of_pos (mem_of_find?_eq_some hintent) (beq_self_eq_true _)
  · intro x hx hbase
    rw [htenant] at hbase
    have hfound := hwf.openBase?_eq hx hbase
    rcases mem_withoutOpenRow intent.tenantId productKey time hwf hx with
      ⟨-, hended⟩ | ⟨hne, -⟩
    · exact ⟨_, hleft _ hended, rfl, rfl⟩
    · exact absurd hfound hne
  · rintro tenantId' productKey' ⟨x, hx, hbase⟩
    rcases mem_withoutOpenRow intent.tenantId productKey time hwf hx with
      ⟨hfound, -⟩ | ⟨-, hkept⟩
    · -- the ended row was the open row of the same tenant and product as the new one
      obtain ⟨htenant', hproduct', -⟩ := isOpenBase_iff.mp hbase
      obtain ⟨htenant'', hproduct'', -⟩ := isOpenBase_iff.mp (openBase?_mem hfound).2
      refine ⟨row, hmem, isOpenBase_iff.mpr ⟨?_, ?_, hopen⟩⟩
      · rw [htenant, ← htenant'', htenant']
      · rw [hproduct, ← hproduct'', hproduct']
    · exact ⟨x, hleft x hkept, hbase⟩

/-- **A row is replaced together with its replacement exactly where no unpinned store
product ends it.** -/
theorem replacedTogether_iff {domainAuthoritative : Bool} {confirmation : Confirmation}
    (hwf : SubscriptionsWf db) (hcommands : CommandsTargetRows db)
    (hnone : db.ofProvider? state.provider state.subscriptionRef = none)
    (h : applyProviderState deps db state productKey domainAuthoritative confirmation time clock =
      .ok (result, t)) :
    ReplacedTogether db productKey state result t ↔ ∀ intent plan version x,
      ¬EndsUnpinned deps db state productKey domainAuthoritative time intent plan version x := by
  have hmove := applyProviderState_unlinked hcommands hnone h
  generalize houtcome : result.outcome = outcome at hmove
  constructor
  · intro htogether
    cases hmove with
    | kept pinned | opened pinned => exact pinned
    | @ended _ intent plan version x unpinned subscriptions =>
      -- the ended row is not among the rows as they were
      obtain ⟨hx, hopen⟩ := openBase?_mem unpinned.replaces
      obtain ⟨-, -, hended⟩ := isOpenBase_iff.mp hopen
      have hmem : endReplaced time x ∈ t.subscriptions := by
        rw [subscriptions]
        exact mem_updateWhere_of_pos hx (beq_self_eq_true x.id)
      rw [(htogether.ignored houtcome).1] at hmem
      have heq := inj_on_of_nodup_map hwf.keyed.nodup hmem hx rfl
      have htime : (endReplaced time x).endedAt = some time := rfl
      rw [heq, hended] at htime
      cases htime
  · intro hpinned
    cases hmove with
    | kept _ subscriptions intents =>
      refine ⟨fun _ => ⟨subscriptions, intents⟩, fun happlied => ?_, ?_⟩
      · rw [houtcome] at happlied
        cases happlied
      · rintro tenantId productKey ⟨x, hx, hopen⟩
        exact ⟨x, by rwa [subscriptions], hopen⟩
    | ended unpinned _ => exact absurd unpinned (hpinned _ _ _ _)
    | opened _ checkout id tenant product isOpen subscriptions intents =>
      exact replacedTogether_of_opened hwf houtcome checkout id tenant product isOpen subscriptions
        intents

/-! ## A free row and a checkout -/

/-- A professional plan with one published version, pinned to a price of Stripe. -/
def proCatalog : Catalog where
  plans := [⟨1, js "pro", js "sign", some (js "PERSONAL"), .active, .selfService, true⟩]
  versions := [⟨2, 1, 1, .published, ⟨none, none, [], [], []⟩⟩]
  prices := [⟨2, .stripe, js "price_pro", .year⟩]
  envPrices := []

/-- The open free row of tenant 7. -/
def freeRow : TenantSubscription where
  id := 3
  tenantId := 7
  productKey := js "sign"
  planId := 5
  planVersionId := 6
  periodAnchor := 0
  source := .free
  endedAt := none
  createdBy := js "owner"
  status := .active
  billingProvider := none
  billingAccountRef := none
  billingSubscriptionRef := none
  currentPeriodEnd := none
  cancelAtPeriodEnd := false
  graceUntil := none
  providerStateAt := none
  activatedBy := none
  commitmentStart := none
  commitmentEnd := none
  cancelRequestedWithinCommitment := false
  eligibilityState := none
  eligibilityCheckedAt := none
  storeProductId := none
  storeEnvironment := none
  storeInterval := none

/-- A checkout of the professional plan beside the free row. -/
def freeWithCheckout (provider : BillingProviderKey) : BillingDb where
  catalog := proCatalog
  tenantKinds := [(7, some (js "PERSONAL"))]
  usage := []
  subscriptions := [freeRow]
  intents := [⟨4, 7, js "owner", 1, provider, none, .created, none, none, none⟩]
  flags := []
  releases := []
  commands := []
  requests := []
  nextId := 10

theorem freeWithCheckout_wf (provider : BillingProviderKey) :
    SubscriptionsWf (freeWithCheckout provider) := by
  refine ⟨⟨by simp [freeWithCheckout], ?_⟩, ?_⟩
  · intro x hx
    obtain rfl := mem_singleton.mp hx
    show 3 < 10
    decide
  · intro x hx y hy _ _ _ _
    rw [mem_singleton.mp hx, mem_singleton.mp hy]

/-- The active subscription of that checkout, on the product `priceRef`. -/
def activeState (provider : BillingProviderKey) (priceRef : JsString) :
    ProviderSubscriptionState where
  provider := provider
  subscriptionRef := js "sub_1"
  accountRef := js "acc_1"
  providerStatus := js "active"
  currentPeriodStart := 1000
  currentPeriodEnd := 2000
  cancelAtPeriodEnd := false
  priceRef := some priceRef
  tenantId := some 7
  intentId := some 4
  accountCountry := some (js "US")
  store := none

/-- Every port is bound. -/
def boundDeps : BillingDeps := ⟨id, 7, true, true⟩

theorem replacedTogether_iff_stripe : ∃ result t,
    applyProviderState boundDeps (freeWithCheckout .stripe)
        (activeState .stripe (js "price_pro")) (js "sign") false ⟨.refetch, none⟩ 1500 1500 =
      .ok (result, t) ∧ result.outcome = .applied ∧
      ReplacedTogether (freeWithCheckout .stripe) (js "sign")
        (activeState .stripe (js "price_pro")) result t := by
  have happlied : applyProviderState boundDeps (freeWithCheckout .stripe)
      (activeState .stripe (js "price_pro")) (js "sign") false ⟨.refetch, none⟩ 1500 1500 =
        .ok (_, _) := rfl
  refine ⟨_, _, happlied, by decide,
    (replacedTogether_iff (freeWithCheckout_wf .stripe) ?_ rfl happlied).mpr ?_⟩
  · intro c hc
    cases hc
  · intro intent plan version x hcond
    exact absurd hcond.store (by decide)

/-- A store product that is pinned to no plan ends the free row and opens nothing. -/
theorem unpinned_product_ends_row :
    ¬ ∀ (deps : BillingDeps) (db t : BillingDb) (state : ProviderSubscriptionState)
        (productKey : ProductKey) (domainAuthoritative : Bool) (confirmation : Confirmation)
        (time clock : Nat) (result : ApplyResult), SubscriptionsWf db → CommandsTargetRows db →
        db.ofProvider? state.provider state.subscriptionRef = none →
        applyProviderState deps db state productKey domainAuthoritative confirmation time clock =
          .ok (result, t) → ReplacedTogether db productKey state result t := by
  intro hclaim
  have hended : ((applyProviderState boundDeps (freeWithCheckout .appStore)
      (activeState .appStore (js "unpinned")) (js "sign") false ⟨.refetch, none⟩ 1500 1500).map
        (·.2.subscriptions)).toOption = some [endReplaced 1500 freeRow] := by
    decide +kernel
  cases happly : applyProviderState boundDeps (freeWithCheckout .appStore)
      (activeState .appStore (js "unpinned")) (js "sign") false ⟨.refetch, none⟩ 1500 1500 with
  | error e =>
    rw [happly] at hended
    cases hended
  | ok p =>
    rw [happly] at hended
    have htogether := hclaim _ _ _ _ _ _ _ _ _ _ (freeWithCheckout_wf .appStore)
      (by intro c hc; cases hc) rfl happly
    obtain ⟨y, hy, hopen⟩ := htogether.open_kept 7 (js "sign")
      ⟨freeRow, mem_singleton.mpr rfl, by decide⟩
    have hrows : p.2.subscriptions = [endReplaced 1500 freeRow] := Option.some.inj hended
    rw [hrows] at hy
    obtain rfl := mem_singleton.mp hy
    exact absurd hopen (by decide)

end AramoPlatform.Billing
