import AramoPlatform.Billing.Lifecycle

/-!
# What the lifecycle writes

One lemma for each function of the lifecycle and of the conversion ledger says
which tables it writes and how. `OpenMove` says what `openRow` can do: refuse
before it writes, open the new row, or end the replaced row and stop at a store
product without a pin.
-/

namespace AramoPlatform.Billing

open Js Lib Subscription List

variable {deps : BillingDeps} {db t : BillingDb} {tenantId : Uuid} {productKey : ProductKey}
  {intent : CheckoutIntent} {state : ProviderSubscriptionState} {mapped : MappedStatus}
  {time clock : Nat} {release : Option ConversionRelease} {result : ApplyResult}

/-! ## What the guards and the releases leave -/

/-- The tables that the guards, the releases and the commands do not touch. -/
structure SameRows (db t : BillingDb) : Prop where
  subscriptions : t.subscriptions = db.subscriptions
  intents : t.intents = db.intents
  catalog : t.catalog = db.catalog
  usage : t.usage = db.usage
  nextId : t.nextId = db.nextId
  commands : t.commands = db.commands
  requests : t.requests = db.requests

theorem SameRows.refl (db : BillingDb) : SameRows db db := ⟨rfl, rfl, rfl, rfl, rfl, rfl, rfl⟩

variable {u : BillingDb}

theorem SameRows.trans (h : SameRows db t) (h' : SameRows t u) : SameRows db u where
  subscriptions := h'.subscriptions.trans h.subscriptions
  intents := h'.intents.trans h.intents
  catalog := h'.catalog.trans h.catalog
  usage := h'.usage.trans h.usage
  nextId := h'.nextId.trans h.nextId
  commands := h'.commands.trans h.commands
  requests := h'.requests.trans h.requests

theorem SameRows.symm (h : SameRows db t) : SameRows t db where
  subscriptions := h.subscriptions.symm
  intents := h.intents.symm
  catalog := h.catalog.symm
  usage := h.usage.symm
  nextId := h.nextId.symm
  commands := h.commands.symm
  requests := h.requests.symm

theorem SameRows.openBase? (h : SameRows db t) (tenantId : Uuid) (productKey : ProductKey) :
    t.openBase? tenantId productKey = db.openBase? tenantId productKey := by
  simp only [BillingDb.openBase?, h.subscriptions]

theorem guardFlag_same (intentId : Option Uuid) (reason : GuardReason) (failing : Bool) :
    SameRows db (guardFlag db tenantId state intentId reason failing time) := by
  unfold guardFlag
  dsimp only
  split
  · exact ⟨rfl, rfl, rfl, rfl, rfl, rfl, rfl⟩
  · split <;> exact ⟨rfl, rfl, rfl, rfl, rfl, rfl, rfl⟩

@[simp] theorem guardFlag_releases (intentId : Option Uuid) (reason : GuardReason)
    (failing : Bool) :
    (guardFlag db tenantId state intentId reason failing time).releases = db.releases := by
  unfold guardFlag
  dsimp only
  split
  · rfl
  · split <;> rfl

theorem expireInTx_same (r : ConversionRelease) : SameRows db (expireInTx db r time) := by
  unfold expireInTx
  split <;> exact ⟨rfl, rfl, rfl, rfl, rfl, rfl, rfl⟩

theorem activationRelease_same :
    SameRows db (activationRelease deps db tenantId productKey intent state mapped time).2.2 := by
  unfold activationRelease
  split
  · exact .refl db
  next governed _ =>
    split
    · exact .refl db
    · dsimp only
      -- the two outcomes of the verdict carry the same tables
      have hsame : ∀ target, SameRows db (releaseForActivation db tenantId productKey governed.id
          intent state.subscriptionRef state.currentPeriodStart target time).2 := by
        intro target
        unfold releaseForActivation
        dsimp only
        split
        · exact .refl db
        · split
          · exact .refl db
          · split
            · exact .refl db
            · exact expireInTx_same _
      split <;> exact hsame _

/-- The releases are as before, or an overdue one has expired. -/
def ReleasesExpired (time : Nat) (old new : List ConversionRelease) : Prop :=
  new = old ∨ ∃ id : Uuid, new = updateWhere (fun x => x.id == id && x.state == .released)
    (fun x => { x with state := .expired, expiredAt := some time }) old

/-- A search for the release of an activation expires an overdue one; it finds a release
only where it changes none. -/
theorem activationRelease_releases :
    ReleasesExpired time db.releases
        (activationRelease deps db tenantId productKey intent state mapped time).2.2.releases ∧
      ∀ r, (activationRelease deps db tenantId productKey intent state mapped time).1 = some r →
        (activationRelease deps db tenantId productKey intent state mapped time).2.2.releases =
          db.releases := by
  unfold activationRelease
  split
  · exact ⟨.inl rfl, fun _ _ => rfl⟩
  next governed _ =>
    split
    · exact ⟨.inl rfl, fun _ _ => rfl⟩
    · dsimp only
      have hverdict : ∀ target, ReleasesExpired time db.releases
            (releaseForActivation db tenantId productKey governed.id intent state.subscriptionRef
              state.currentPeriodStart target time).2.releases ∧
          ((releaseForActivation db tenantId productKey governed.id intent state.subscriptionRef
              state.currentPeriodStart target time).1.valid = true →
            (releaseForActivation db tenantId productKey governed.id intent state.subscriptionRef
              state.currentPeriodStart target time).2.releases = db.releases) := by
        intro target
        unfold releaseForActivation
        dsimp only
        split
        · exact ⟨.inl rfl, fun _ => rfl⟩
        · split
          · exact ⟨.inl rfl, fun _ => rfl⟩
          next held _ =>
            split
            · exact ⟨.inl rfl, fun _ => rfl⟩
            next hoverdue =>
              refine ⟨.inr ⟨held.id, ?_⟩, fun hvalid => by cases hvalid⟩
              rw [expireInTx, if_neg hoverdue]
      split
      next hvalid => exact ⟨(hverdict _).1, fun _ _ => (hverdict _).2 hvalid⟩
      · exact ⟨(hverdict _).1, fun _ hsome => by cases hsome⟩

/-! ## The release of an activation -/

/-- The release lets this checkout replace this governed row. -/
structure ReleaseBinds (r : ConversionRelease) (tenantId : Uuid) (productKey : ProductKey)
    (governedId : Uuid) (intent : CheckoutIntent) (target : ActivationTarget) : Prop where
  tenant : r.tenantId = tenantId
  product : r.productKey = productKey
  live : r.state = .consumed ∨ r.state = .released
  governed : r.governedSubscriptionId = governedId
  checkout : intent.status = .created
  plan : target.planId = r.planId
  version : target.planVersionId = some r.planVersionId

variable {target : ActivationTarget} {currentPeriodStart : Nat} {governedId : Uuid}

theorem releaseObjection_eq_none {r : ConversionRelease}
    (h : releaseObjection db r tenantId productKey governedId intent currentPeriodStart target
      time = none) : ReleaseBinds r tenantId productKey governedId intent target := by
  unfold releaseObjection at h
  dsimp only at h
  split at h
  · cases h
  next hwhose =>
    split at h
    · cases h
    next hlive =>
      split at h
      · cases h
      next hgoverned =>
        split at h
        · cases h
        next hcheckout =>
          split at h
          · cases h
          next htarget =>
            simp only [Bool.or_eq_true, Bool.and_eq_true, bne_iff_ne, not_or, not_and,
              Decidable.not_not] at hwhose hlive hgoverned hcheckout htarget
            refine ⟨hwhose.1, hwhose.2, ?_, hgoverned, hcheckout, htarget.1, htarget.2⟩
            by_cases hconsumed : r.state = .consumed
            · exact .inl hconsumed
            · exact .inr (hlive hconsumed)

/-- A valid verdict names a release of the table that the checkout has consumed, or
an unexpired one for the held subscription. -/
structure ReleaseGranted (db : BillingDb) (r : ConversionRelease) (tenantId : Uuid)
    (productKey : ProductKey) (governedId : Uuid) (intent : CheckoutIntent)
    (subscriptionRef : JsString) (target : ActivationTarget) (time : Nat) : Prop where
  mem : r ∈ db.releases
  binds : ReleaseBinds r tenantId productKey governedId intent target
  names : r.intentId = some intent.id ∨
    r.heldSubscriptionRef = some subscriptionRef ∧ releaseConsumable r time = true

theorem releaseForActivation_valid
    {subscriptionRef : JsString}
    (h : (releaseForActivation db tenantId productKey governedId intent subscriptionRef
      currentPeriodStart target time).1.valid = true) :
    ∃ r, (releaseForActivation db tenantId productKey governedId intent subscriptionRef
        currentPeriodStart target time).1.release = some r ∧
      ReleaseGranted db r tenantId productKey governedId intent subscriptionRef target time := by
  unfold releaseForActivation at h ⊢
  dsimp only at h ⊢
  split at h
  next r hfind =>
    have hmem := mem_of_find?_eq_some hfind
    have hintent : r.intentId = some intent.id := by simpa using find?_some hfind
    split at h
    next hnone => exact ⟨r, rfl, hmem, releaseObjection_eq_none hnone, .inl hintent⟩
    · cases h
  next hfind =>
    split at h
    · cases h
    next held hheld =>
      have hmem := mem_of_find?_eq_some hheld
      have href : held.heldSubscriptionRef = some subscriptionRef := by
        have hmatch := find?_some hheld
        simp only [Bool.and_eq_true, beq_iff_eq] at hmatch
        exact hmatch.2
      split at h
      next hconsumable =>
        rw [if_pos hconsumable]
        split at h
        next hnone =>
          exact ⟨held, rfl, hmem, releaseObjection_eq_none hnone, .inr ⟨href, hconsumable⟩⟩
        · cases h
      · cases h

theorem releaseForActivation_congr (hreleases : t.releases = db.releases)
    (husage : t.usage = db.usage)
    {subscriptionRef : JsString} :
    (releaseForActivation t tenantId productKey governedId intent subscriptionRef
        currentPeriodStart target time).1 =
      (releaseForActivation db tenantId productKey governedId intent subscriptionRef
        currentPeriodStart target time).1 := by
  have hobjection : ∀ r, releaseObjection t r tenantId productKey governedId intent
      currentPeriodStart target time = releaseObjection db r tenantId productKey governedId intent
        currentPeriodStart target time := by
    intro r
    have hstranded : ∀ anchor, strandedUsage t tenantId productKey anchor time =
        strandedUsage db tenantId productKey anchor time := by
      intro anchor
      rw [strandedUsage, strandedUsage, husage]
    unfold releaseObjection
    dsimp only
    rw [hstranded]
  simp only [releaseForActivation, hreleases, hobjection]
  split
  · rfl
  · split
    · rfl
    · split <;> rfl

theorem activationRelease_eq_some {r : ConversionRelease} :
    (activationRelease deps db tenantId productKey intent state mapped time).1 = some r ↔
      ∃ x, db.openBase? tenantId productKey = some x ∧ isGovernedSubscription x = true ∧
        mapped.ends = false ∧ deps.conversions = true ∧
        ∃ verdict, verdict = (releaseForActivation db tenantId productKey x.id intent
            state.subscriptionRef state.currentPeriodStart
            ⟨(activationTarget db.catalog intent.planId state productKey).planId,
              (activationTarget db.catalog intent.planId state productKey).version.map (·.id)⟩
            time).1 ∧ verdict.valid = true ∧ verdict.release = some r := by
  unfold activationRelease
  cases hopen : db.openBase? tenantId productKey with
  | none => simp
  | some x =>
    cases hgov : isGovernedSubscription x with
    | false =>
      have hnone : (some x).filter isGovernedSubscription = none := by
        simp [Option.filter_some, hgov]
      rw [hnone]
      simp [hgov]
    | true =>
      have hsome : (some x).filter isGovernedSubscription = some x := by
        simp [Option.filter_some, hgov]
      rw [hsome]
      simp only [Option.some.injEq, exists_eq_left', hgov, true_and, exists_eq_left]
      cases mapped.ends <;> cases deps.conversions <;> simp
      split <;> simp_all

/-! ## What `openRow` can do -/

/-- The release that `openRow` converts: it names the open governed row. -/
def convertedRelease (db : BillingDb) (tenantId : Uuid) (productKey : ProductKey)
    (release : Option ConversionRelease) : Option ConversionRelease :=
  release.filter fun r => (db.openBase? tenantId productKey).any fun x =>
    r.governedSubscriptionId == x.id && isGovernedSubscription x

inductive OpenMove (deps : BillingDeps) (db : BillingDb) (tenantId : Uuid)
    (productKey : ProductKey) (intent : CheckoutIntent) (state : ProviderSubscriptionState)
    (mapped : MappedStatus) (time : Nat) (release : Option ConversionRelease) :
    ApplyResult → BillingDb → Prop
  | refused {detail : JsString}
      (refusal : openRowTarget db tenantId productKey intent state mapped release =
        .error (.refused detail)) :
      OpenMove deps db tenantId productKey intent state mapped time release
        (ignored detail (some tenantId)) db
  | unpinned {plan : Plan} {version : PlanVersionRow} {detail : JsString}
      (ready : openRowTarget db tenantId productKey intent state mapped release =
        .ok (plan, version))
      (store : isStoreBillingProvider state.provider = true)
      (interval : storePinInterval db.catalog state.provider state.priceRef = none) :
      OpenMove deps db tenantId productKey intent state mapped time release
        (ignored detail (some tenantId)) (withoutOpenRow db tenantId productKey time)
  | opened {plan : Plan} {version : PlanVersionRow} {result : ApplyResult} {t : BillingDb}
      (ready : openRowTarget db tenantId productKey intent state mapped release =
        .ok (plan, version))
      (pinned : ¬(isStoreBillingProvider state.provider = true ∧
        storePinInterval db.catalog state.provider state.priceRef = none))
      (outcome : result.outcome = .applied)
      (writes : openReplacement deps (withoutOpenRow db tenantId productKey time) tenantId
        productKey intent state mapped time plan version
          (convertedRelease db tenantId productKey release) = .ok t) :
      OpenMove deps db tenantId productKey intent state mapped time release result t

@[simp] theorem withoutOpenRow_catalog :
    (withoutOpenRow db tenantId productKey time).catalog = db.catalog := by
  unfold withoutOpenRow
  split <;> rfl

theorem openRow_move
    (h : openRow deps db tenantId productKey intent state mapped time release = .ok (result, t)) :
    OpenMove deps db tenantId productKey intent state mapped time release result t := by
  unfold openRow at h
  split at h
  · cases h
  next detail hrefused =>
    cases h
    exact .refused hrefused
  next plan version hready =>
    dsimp only at h
    split at h
    next hunpinned =>
      cases h
      simp only [Bool.and_eq_true, Option.isNone_iff_eq_none, storeIntervalOf] at hunpinned
      obtain ⟨hstore, hnone⟩ := hunpinned
      rw [if_pos hstore] at hnone
      exact .unpinned hready hstore hnone
    next hpinned =>
      simp only [bind_eq_ok] at h
      obtain ⟨u, hwrites, h⟩ := h
      obtain ⟨rfl, rfl⟩ := Prod.mk.inj (pure_eq_ok.mp h)
      refine .opened hready ?_ rfl hwrites
      rintro ⟨hstore, hnone⟩
      simp [storeIntervalOf, hstore, hnone] at hpinned

/-- The conditions under which `openRow` goes on to its writes. -/
structure ReadyToOpen (db : BillingDb) (tenantId : Uuid) (productKey : ProductKey)
    (intent : CheckoutIntent) (state : ProviderSubscriptionState) (mapped : MappedStatus)
    (release : Option ConversionRelease) (plan : Plan) (version : PlanVersionRow) : Prop where
  goesOn : mapped.ends = false
  found : db.catalog.plan? (activationTarget db.catalog intent.planId state productKey).planId =
    some plan
  product : plan.productKey = productKey
  version : (activationTarget db.catalog intent.planId state productKey).version = some version
  sends : ∀ x, db.openBase? tenantId productKey = some x → isSending mapped.status = true
  converts : ∀ x, db.openBase? tenantId productKey = some x → isGovernedSubscription x = true →
    ∃ r, release = some r ∧ r.governedSubscriptionId = x.id

variable {version : PlanVersionRow}

theorem ReadyToOpen.of_same {plan : Plan}
    (h : ReadyToOpen db tenantId productKey intent state mapped release plan version)
    (hsame : SameRows db u) :
    ReadyToOpen u tenantId productKey intent state mapped release plan version := by
  have hopen := hsame.openBase? tenantId productKey
  refine ⟨h.goesOn, ?_, h.product, ?_, ?_, ?_⟩
  · rw [hsame.catalog]
    exact h.found
  · rw [hsame.catalog]
    exact h.version
  · rw [hopen]
    exact h.sends
  · rw [hopen]
    exact h.converts

theorem openRowTarget_eq_ready {plan : Plan} :
    openRowTarget db tenantId productKey intent state mapped release = .ok (plan, version) ↔
      ReadyToOpen db tenantId productKey intent state mapped release plan version := by
  simp only [openRowTarget, bind_eq_ok, require_eq_ok, orThrow_eq_ok, pure_eq_ok, Prod.mk.injEq,
    exists_const, Bool.not_eq_true', beq_iff_eq, Option.all_eq_true, Bool.or_eq_true,
    Option.any_eq_true, Option.isNone_iff_eq_none]
  constructor
  · rintro ⟨hgoes, found, hplan, hproduct, target, hversion, hconverts, hsends, rfl, rfl⟩
    refine ⟨hgoes, hplan, hproduct, hversion, fun x hx => ?_, fun x hx hgov => ?_⟩
    · rcases hsends with hnone | hsends
      · rw [hnone] at hx
        cases hx
      · exact hsends
    · rcases hconverts x hx with hno | hnames
      · rw [hgov] at hno
        cases hno
      · exact hnames
  · intro h
    refine ⟨h.goesOn, plan, h.found, h.product, version, h.version, ?_, ?_, rfl, rfl⟩
    · intro x hx
      cases hgov : isGovernedSubscription x with
      | false => exact .inl rfl
      | true => exact .inr (h.converts x hx hgov)
    · cases hopen : db.openBase? tenantId productKey with
      | none => exact .inl rfl
      | some x => exact .inr (h.sends x hopen)

/-! ## The writes of `openRow` -/

@[simp] theorem withoutOpenRow_intents :
    (withoutOpenRow db tenantId productKey time).intents = db.intents := by
  unfold withoutOpenRow
  split <;> rfl

@[simp] theorem withoutOpenRow_nextId :
    (withoutOpenRow db tenantId productKey time).nextId = db.nextId := by
  unfold withoutOpenRow
  split <;> rfl

@[simp] theorem withoutOpenRow_releases :
    (withoutOpenRow db tenantId productKey time).releases = db.releases := by
  unfold withoutOpenRow
  split <;> rfl

@[simp] theorem withoutOpenRow_commands :
    (withoutOpenRow db tenantId productKey time).commands = db.commands := by
  unfold withoutOpenRow
  split <;> rfl

@[simp] theorem withoutOpenRow_requests :
    (withoutOpenRow db tenantId productKey time).requests = db.requests := by
  unfold withoutOpenRow
  split <;> rfl

/-- What the insert of the new row, the intent and the release amount to. -/
structure Replacement (db : BillingDb) (row : TenantSubscription) (intentId : Uuid) (time : Nat)
    (t : BillingDb) : Prop where
  admits : db.admits row = true
  subscriptions : t.subscriptions = db.subscriptions ++ [row]
  present : ∃ i ∈ db.intents, i.id = intentId
  intents : t.intents = updateWhere (·.id == intentId)
    (fun i => { i with status := .completed, completedAt := some time }) db.intents
  catalog : t.catalog = db.catalog
  nextId : t.nextId = db.nextId + 1
  commands : t.commands = db.commands
  requests : t.requests = db.requests

theorem updateRelease_ok {id : Uuid} {source : ReleaseState}
    {f : ConversionRelease → ConversionRelease} (h : updateRelease db id source f = .ok t) :
    db.releases.countP (fun r => r.id == id && r.state == source) = 1 ∧
      t = { db with
        releases := updateWhere (fun r => r.id == id && r.state == source) f db.releases } := by
  simp only [updateRelease, bind_eq_ok, require_eq_ok, beq_iff_eq, pure_eq_ok] at h
  obtain ⟨-, hone, rfl⟩ := h
  exact ⟨hone, rfl⟩

theorem openReplacement_ok {plan : Plan}
    {converted : Option ConversionRelease}
    (h : openReplacement deps db tenantId productKey intent state mapped time plan version
      converted = .ok t) :
    Replacement db (selfServiceRow deps db.nextId tenantId productKey intent version plan.id state
      mapped (storeIntervalOf db state) time) intent.id time t := by
  simp only [openReplacement, bind_eq_ok] at h
  obtain ⟨u, hinsert, v, hintent, h⟩ := h
  obtain ⟨hadmits, rfl⟩ := insertSubscription_ok hinsert
  obtain ⟨hpresent, rfl⟩ := updateIntent_ok hintent
  cases converted with
  | none =>
    obtain rfl := pure_eq_ok.mp h
    exact ⟨hadmits, rfl, hpresent, rfl, rfl, rfl, rfl, rfl⟩
  | some r =>
    obtain ⟨-, rfl⟩ := updateRelease_ok h
    exact ⟨hadmits, rfl, hpresent, rfl, rfl, rfl, rfl, rfl⟩

/-! ## Completed conversions -/

/-- The row of a completed conversion: an open governed row without a provider. -/
structure IsGovernedOpening (db : BillingDb) (x : TenantSubscription) : Prop where
  id : x.id = db.nextId
  admits : db.admits x = true
  governed : isGovernedSubscription x = true
  unlinked : x.billingSubscriptionRef = none

/-- What one completion does: nothing to the subscriptions, or the governed row of a
conversion that asked for the end of a self-service one. -/
structure CompletionMove (db : BillingDb) (id : Uuid) (t : BillingDb) : Prop where
  subscriptions : (t.subscriptions = db.subscriptions ∧ t.nextId = db.nextId) ∨
    (∃ req ∈ db.requests, req.id = id ∧
      ∃ subscriptionId planKey planVersionId,
        req.payload = .endSelfService subscriptionId planKey planVersionId) ∧
    ∃ x, IsGovernedOpening db x ∧ t.subscriptions = db.subscriptions ++ [x] ∧
      t.nextId = db.nextId + 1
  intents : t.intents = db.intents
  releases : t.releases = db.releases
  catalog : t.catalog = db.catalog
  payloads : t.requests.map (fun r => (r.id, r.payload)) =
    db.requests.map fun r => (r.id, r.payload)

theorem completionEffect_move {req : ConversionRequest} (hreq : req ∈ db.requests)
    (h : completionEffect db req = .ok t) :
    CompletionMove db req.id t ∧ t.commands = db.commands := by
  cases hpayload : req.payload with
  | toSelfService => simp [completionEffect, hpayload] at h
  | heldResolution ref governedId =>
    simp only [completionEffect, hpayload, bind_eq_ok, pure_eq_ok] at h
    obtain ⟨-, -, rfl⟩ := h
    exact ⟨⟨.inl ⟨rfl, rfl⟩, rfl, rfl, rfl, rfl⟩, rfl⟩
  | endSelfService subscriptionId planKey planVersionId =>
    simp only [completionEffect, hpayload, bind_eq_ok] at h
    obtain ⟨ended, -, -, -, -, -, ⟨plan, version⟩, -, -, -, h⟩ := h
    split at h
    next u hinsert =>
      obtain rfl := pure_eq_ok.mp h
      obtain ⟨hadmits, rfl⟩ := insertSubscription_ok hinsert
      exact ⟨⟨.inr ⟨⟨req, hreq, rfl, _, _, _, hpayload⟩, _, ⟨rfl, hadmits, rfl, rfl⟩, rfl, rfl⟩,
        rfl, rfl, rfl, rfl⟩, rfl⟩
    · cases h

theorem updateRequest_payloads {id : Uuid} {f : ConversionRequest → ConversionRequest}
    (hf : ∀ r, ((f r).id, (f r).payload) = (r.id, r.payload)) :
    (db.updateRequest id f).requests.map (fun r => (r.id, r.payload)) =
      db.requests.map fun r => (r.id, r.payload) :=
  map_updateWhere _ hf

theorem completeOne_move {id : Uuid} {outcome : Option CompletionOutcome}
    (h : completeOne db id time = .ok (outcome, t)) :
    CompletionMove db id t ∧ t.commands = db.commands := by
  have hkept : CompletionMove db id db ∧ db.commands = db.commands :=
    ⟨⟨.inl ⟨rfl, rfl⟩, rfl, rfl, rfl, rfl⟩, rfl⟩
  unfold completeOne at h
  split at h
  · cases h
    exact hkept
  next req hfind =>
    obtain ⟨hid, -⟩ : req.id = id ∧ req.state = .applying := by
      simpa using find?_some hfind
    split at h
    · cases h
      exact hkept
    · split at h
      next u hcomplete =>
        cases h
        simp only [completeToGovernedInTx, bind_eq_ok, pure_eq_ok] at hcomplete
        obtain ⟨v, heffect, rfl⟩ := hcomplete
        obtain ⟨hmove, hcommands⟩ := completionEffect_move (mem_of_find?_eq_some hfind) heffect
        rw [hid] at hmove
        refine ⟨⟨hmove.subscriptions, hmove.intents, hmove.releases, hmove.catalog, ?_⟩, hcommands⟩
        refine Eq.trans (updateRequest_payloads ?_) hmove.payloads
        intro r
        rfl
      · cases h
        exact ⟨⟨.inl ⟨rfl, rfl⟩, rfl, rfl, rfl, updateRequest_payloads fun _ => rfl⟩, rfl⟩
      · cases h

theorem completeAll_induction {ids : List Uuid} {outcomes : List (Uuid × CompletionOutcome)}
    {I : BillingDb → Prop} (hdb : I db)
    (hone : ∀ u v, ∀ id ∈ ids, I u → CompletionMove u id v → v.commands = u.commands → I v)
    (h : completeAll time ids db = .ok (outcomes, t)) : I t := by
  induction ids generalizing db outcomes with
  | nil =>
    cases h
    exact hdb
  | cons id ids ih =>
    simp only [completeAll, bind_eq_ok] at h
    obtain ⟨⟨outcome, u⟩, hstep, ⟨rest, v⟩, hrest, h⟩ := h
    obtain ⟨-, rfl⟩ := Prod.mk.inj (pure_eq_ok.mp h)
    obtain ⟨hmove, hcommands⟩ := completeOne_move hstep
    refine ih (hone db u id mem_cons_self hdb hmove hcommands) ?_ hrest
    exact fun u v id hid => hone u v id (mem_cons_of_mem _ hid)

/-- The requests named ask for no end of a self-service subscription, so their
completions leave the subscriptions alone. -/
theorem completeAll_kept {ids : List Uuid} {outcomes : List (Uuid × CompletionOutcome)}
    (hids : ∀ id ∈ ids, ∀ p ∈ db.requests.map (fun r => (r.id, r.payload)), p.1 = id →
      ∀ subscriptionId planKey planVersionId,
        p.2 ≠ .endSelfService subscriptionId planKey planVersionId)
    (h : completeAll time ids db = .ok (outcomes, t)) :
    t.subscriptions = db.subscriptions ∧ t.intents = db.intents := by
  refine (completeAll_induction (I := fun u => (u.subscriptions = db.subscriptions ∧
    u.intents = db.intents) ∧ u.requests.map (fun r => (r.id, r.payload)) =
      db.requests.map fun r => (r.id, r.payload)) ⟨⟨rfl, rfl⟩, rfl⟩ ?_ h).1
  rintro u v id hid ⟨⟨hsubscriptions, hintents⟩, hpayloads⟩ hmove -
  refine ⟨⟨?_, hmove.intents.trans hintents⟩, hmove.payloads.trans hpayloads⟩
  rcases hmove.subscriptions with ⟨hsame, -⟩ | ⟨⟨req, hreq, hreqId, hpayload⟩, -⟩
  · exact hsame.trans hsubscriptions
  · obtain ⟨subscriptionId, planKey, planVersionId, hpayload⟩ := hpayload
    have hmem := mem_map_of_mem (f := fun r : ConversionRequest => (r.id, r.payload)) hreq
    exact absurd hpayload (hids id hid _ (hpayloads ▸ hmem) hreqId _ _ _)

theorem linkOf_error {domainAuthoritative : Bool}
    (h : linkOf db state productKey domainAuthoritative = .error result) :
    result.outcome = .ignored := by
  simp only [linkOf, bind_eq_error, orThrow_eq_error, require_eq_error] at h
  rcases h with ⟨-, rfl⟩ | ⟨_, -, ⟨-, rfl⟩ | ⟨_, -, ⟨-, rfl⟩ | ⟨_, -, ⟨-, rfl⟩ | ⟨_, -, h⟩⟩⟩⟩
  · rfl
  · rfl
  · rfl
  · rfl
  · cases h

/-- The transaction applies the state and then completes conversions whose commands the
state confirms. -/
theorem applyTx_ok {link : Link} {confirmation : Confirmation}
    (h : applyTx deps db link state productKey confirmation time clock = .ok (result, t)) :
    ∃ first u, applyLocked deps db link.tenantId productKey state
        (mapProviderStatus state.providerStatus) link.intent link.domainOk time clock =
          .ok (first, u) ∧
      result.outcome = first.outcome ∧ ∃ commands ids outcomes,
        completeAll time ids { u with commands := commands } = .ok (outcomes, t) ∧
        ∀ id ∈ ids, ∃ c ∈ u.commands, c.origin.changeRequestId = some id ∧
          confirmsSubscription state.provider state.subscriptionRef link.tenantId productKey
            state.cancelAtPeriodEnd (mapProviderStatus state.providerStatus).ends c = true := by
  simp only [applyTx, bind_eq_ok] at h
  obtain ⟨⟨first, u⟩, hlocked, h⟩ := h
  refine ⟨first, u, hlocked, ?_⟩
  dsimp only at h
  split at h
  · obtain ⟨rfl, rfl⟩ := Prod.mk.inj (pure_eq_ok.mp h)
    exact ⟨rfl, u.commands, [], [], rfl, by simp⟩
  · split at h
    · obtain ⟨rfl, rfl⟩ := Prod.mk.inj (pure_eq_ok.mp h)
      exact ⟨rfl, _, [], [], rfl, by simp⟩
    · simp only [bind_eq_ok] at h
      obtain ⟨⟨done, v⟩, hdone, h⟩ := h
      have hids : ∀ {confirms : BillingProviderCommand → Bool} {id : Uuid},
          id ∈ requestIds (u.commands.filter confirms) →
            ∃ c ∈ u.commands, c.origin.changeRequestId = some id ∧ confirms c = true := by
        intro confirms id hid
        obtain ⟨c, hc, horigin⟩ := mem_requestIds.mp hid
        obtain ⟨hmem, hconfirms⟩ := mem_filter.mp hc
        exact ⟨c, hmem, horigin, hconfirms⟩
      dsimp only at h
      split at h
      · obtain ⟨rfl, rfl⟩ := Prod.mk.inj (pure_eq_ok.mp h)
        exact ⟨rfl, _, _, _, hdone, fun id hid => hids hid⟩
      · obtain ⟨rfl, rfl⟩ := Prod.mk.inj (pure_eq_ok.mp h)
        exact ⟨rfl, _, _, _, hdone, fun id hid => hids hid⟩

/-! ## The holds of an activation -/

theorem not_ends_of_sends {providerStatus : JsString}
    (h : isSending (mapProviderStatus providerStatus).status = true) :
    (mapProviderStatus providerStatus).ends = false := by
  unfold mapProviderStatus at h ⊢
  split_ifs at h ⊢ <;> first | rfl | cases h

theorem joinDetails_pair_eq_nil {a b : JsString} : joinDetails [a, b] = [] ↔ a = [] ∧ b = [] := by
  by_cases ha : a = [] <;> by_cases hb : b = [] <;>
    simp [joinDetails, ha, hb, intercalate, intersperse]

theorem governedHold_eq_nil {conflict : Bool} {note : JsString} :
    governedHold conflict note = [] ↔ conflict = false := by
  cases conflict with
  | false => simp [governedHold]
  | true =>
    have hheld : governedSubscriptionHeld ≠ [] := by
      rw [governedSubscriptionHeld, Ne, append_eq_nil_iff, js_eq_nil]
      simp
    simp [governedHold, joinDetails_pair_eq_nil, hheld]

/-- An activation is held, or it goes to `openRow` with no guard failing. The tables that
`openRow` sees differ in flags and expired releases. -/
theorem activate_ok {held : JsString}
    (h : activate deps db tenantId productKey intent state mapped held time = .ok (result, t)) :
    ∃ u, SameRows db u ∧
      ReleasesExpired time db.releases u.releases ∧
      (∀ r, (activationRelease deps db tenantId productKey intent state mapped time).1 = some r →
        u.releases = db.releases) ∧
      ((result.outcome = .ignored ∧ t = u ∧ (held ≠ [] ∨
          governedConflict deps db tenantId productKey intent state mapped time = true)) ∨
        held = [] ∧ governedConflict deps db tenantId productKey intent state mapped time = false ∧
          OpenMove deps u tenantId productKey intent state mapped time
            (activationRelease deps db tenantId productKey intent state mapped
              time).1 result t) := by
  have hsame : SameRows db
      (activationRelease deps db tenantId productKey intent state mapped time).2.2 :=
    activationRelease_same
  have hflag : SameRows (activationRelease deps db tenantId productKey intent state mapped time).2.2
      (guardFlag (activationRelease deps db tenantId productKey intent state mapped time).2.2
        tenantId state (some intent.id) .governedSubscriptionOpen
          (governedConflict deps db tenantId productKey intent state mapped time) time) :=
    guardFlag_same _ _ _
  refine ⟨_, hsame.trans hflag, ?_, ?_, ?_⟩
  · rw [guardFlag_releases]
    exact activationRelease_releases.1
  · rw [guardFlag_releases]
    exact activationRelease_releases.2
  unfold activate at h
  dsimp only at h
  split at h
  next hheld =>
    cases h
    rw [bne_iff_ne, ne_eq, joinDetails_pair_eq_nil, governedHold_eq_nil, not_and_or,
      Bool.not_eq_false] at hheld
    exact .inl ⟨rfl, rfl, hheld⟩
  next hheld =>
    rw [bne_iff_ne, Decidable.not_not, joinDetails_pair_eq_nil, governedHold_eq_nil] at hheld
    exact .inr ⟨hheld.1, hheld.2, openRow_move h⟩

/-! ## What the locked part leaves -/

/-- The tables that the locked part of an application does not touch. -/
structure SameQueue (db t : BillingDb) : Prop where
  catalog : t.catalog = db.catalog
  commands : t.commands = db.commands
  requests : t.requests = db.requests

theorem SameRows.queue (h : SameRows db t) : SameQueue db t := ⟨h.catalog, h.commands, h.requests⟩

theorem SameQueue.trans (h : SameQueue db t) (h' : SameQueue t u) :
    SameQueue db u where
  catalog := h'.catalog.trans h.catalog
  commands := h'.commands.trans h.commands
  requests := h'.requests.trans h.requests

theorem OpenMove.queue
    (h : OpenMove deps db tenantId productKey intent state mapped time release result t) :
    SameQueue db t := by
  cases h with
  | refused _ => exact (SameRows.refl db).queue
  | unpinned _ _ _ =>
    exact ⟨withoutOpenRow_catalog, withoutOpenRow_commands, withoutOpenRow_requests⟩
  | opened _ _ _ writes =>
    have hwrites := openReplacement_ok writes
    exact ⟨hwrites.catalog.trans withoutOpenRow_catalog,
      hwrites.commands.trans withoutOpenRow_commands,
      hwrites.requests.trans withoutOpenRow_requests⟩

/-- The update of the row of a subscription: an ended row is left alone, and an open
row takes the columns of the state. -/
theorem updateRow_ok {row : TenantSubscription} {held : JsString}
    (h : updateRow deps db row state mapped held time clock = .ok (result, t)) :
    (row.endedAt.isSome = true ∧ result.outcome = .ignored ∧ t = db) ∨
      row.endedAt = none ∧ ∃ storeTerms,
        t = db.updateSubscription row.id (updatedRow deps state mapped
          (isWithheld row mapped (held != []) time) (repinTarget db.catalog row state) storeTerms
            time) := by
  unfold updateRow at h
  split at h
  next hended =>
    obtain ⟨rfl, rfl⟩ := Prod.mk.inj (pure_eq_ok.mp h)
    exact .inl ⟨hended, rfl, rfl⟩
  next hopen =>
    rw [Bool.not_eq_true, Option.isSome_eq_false_iff, Option.isNone_iff_eq_none] at hopen
    obtain ⟨storeTerms, -, h⟩ := bind_eq_ok.mp h
    dsimp only at h
    refine .inr ⟨hopen, storeTerms, ?_⟩
    split at h
    · obtain ⟨-, rfl⟩ := Prod.mk.inj (pure_eq_ok.mp h)
      rfl
    · obtain ⟨-, rfl⟩ := Prod.mk.inj (pure_eq_ok.mp h)
      rfl

theorem activationRelease_congr (hsame : SameRows db u)
    (hreleases : u.releases = db.releases) :
    (activationRelease deps u tenantId productKey intent state mapped time).1 =
      (activationRelease deps db tenantId productKey intent state mapped time).1 := by
  apply Option.ext
  intro r
  simp only [activationRelease_eq_some, hsame.openBase?, hsame.catalog,
    releaseForActivation_congr hreleases hsame.usage]

/-- The ends of the locked part. The tables `u` that the row functions see differ in
flags and in expired releases. -/
inductive LockedMove (deps : BillingDeps) (db : BillingDb) (tenantId : Uuid)
    (productKey : ProductKey) (state : ProviderSubscriptionState) (mapped : MappedStatus)
    (intent : Option CheckoutIntent) (domainOk : Bool) (time : Nat) : ApplyResult → BillingDb → Prop
  | kept {result : ApplyResult} {t : BillingDb} (same : SameRows db t)
      (releases : ReleasesExpired time db.releases t.releases)
      (outcome : result.outcome = .ignored)
      (ended : ∀ row, db.subscriptions.find? (fun x =>
        isOfProvider state.provider state.subscriptionRef x && x.productKey == productKey) =
          some row → row.endedAt.isSome = true) :
      LockedMove deps db tenantId productKey state mapped intent domainOk time result t
  | updated {result : ApplyResult} {u : BillingDb} {row : TenantSubscription} {guarded : Bool}
      {storeTerms : Option StoreTerms} (same : SameRows db u) (releases : u.releases = db.releases)
      (free : (isStoreBillingProvider state.provider ||
        billingCountrySupported deps state.accountCountry) = true → domainOk = true →
          guarded = false)
      (mem : row ∈ db.subscriptions)
      (provider : isOfProvider state.provider state.subscriptionRef row = true)
      (product : row.productKey = productKey) (isOpen : row.endedAt = none) :
      LockedMove deps db tenantId productKey state mapped intent domainOk time result
        (u.updateSubscription row.id (updatedRow deps state mapped
          (isWithheld row mapped guarded time) (repinTarget db.catalog row state) storeTerms time))
  | activated {result : ApplyResult} {u t : BillingDb} {i : CheckoutIntent} (same : SameRows db u)
      (checkout : intent = some i) (domain : domainOk = true)
      (noRow : ∀ x ∈ db.subscriptions, isOfProvider state.provider state.subscriptionRef x = true →
        x.productKey ≠ productKey)
      (releases : ReleasesExpired time db.releases u.releases)
      (granted : ∀ r, (activationRelease deps db tenantId productKey i state mapped time).1 =
        some r → u.releases = db.releases)
      (move : OpenMove deps u tenantId productKey i state mapped time
        (activationRelease deps db tenantId productKey i state mapped time).1 result t) :
      LockedMove deps db tenantId productKey state mapped intent domainOk time result t

theorem domainVerificationHeld_ne_nil : domainVerificationHeld ≠ [] := by
  rw [domainVerificationHeld, Ne, js_eq_nil]
  simp

theorem applyLocked_move {domainOk : Bool} {checkout : Option CheckoutIntent}
    (h : applyLocked deps db tenantId productKey state mapped checkout domainOk time clock =
      .ok (result, t)) :
    LockedMove deps db tenantId productKey state mapped checkout domainOk time result t := by
  unfold applyLocked at h
  dsimp only at h
  split at h
  next row hfind =>
    have hmem := mem_of_find?_eq_some hfind
    have hrow := find?_some hfind
    rw [(guardFlag_same _ _ _).subscriptions, (guardFlag_same _ _ _).subscriptions] at hmem
    rw [Bool.and_eq_true, beq_iff_eq] at hrow
    rw [(guardFlag_same _ _ _).subscriptions, (guardFlag_same _ _ _).subscriptions] at hfind
    rcases updateRow_ok h with ⟨hended, houtcome, rfl⟩ | ⟨hopen, storeTerms, rfl⟩
    · refine .kept ((guardFlag_same _ _ _).trans (guardFlag_same _ _ _))
        (.inl (by simp)) houtcome ?_
      intro row' hrow'
      obtain rfl : row = row' := Option.some.inj (hfind.symm.trans hrow')
      exact hended
    · rw [(guardFlag_same _ _ _).catalog, (guardFlag_same _ _ _).catalog]
      refine .updated ((guardFlag_same _ _ _).trans (guardFlag_same _ _ _)) (by simp) ?_ hmem
        hrow.1 hrow.2 hopen
      intro hcountry hdomain
      simp [hcountry, hdomain, joinDetails]
  next hfind =>
    rw [(guardFlag_same _ _ _).subscriptions, (guardFlag_same _ _ _).subscriptions] at hfind
    have hnone : ∀ row, db.subscriptions.find? (fun x =>
        isOfProvider state.provider state.subscriptionRef x && x.productKey == productKey) =
          some row → row.endedAt.isSome = true := by
      intro row hrow
      rw [hfind] at hrow
      cases hrow
    split at h
    · cases h
      exact .kept ((guardFlag_same _ _ _).trans (guardFlag_same _ _ _)) (.inl (by simp)) rfl hnone
    next i =>
      -- the tables that the activation reads differ in the flags of the guards
      generalize hu : guardFlag (guardFlag db tenantId state ((some i).map (·.id))
        .billingCountryNotSupported (!(isStoreBillingProvider state.provider ||
          billingCountrySupported deps state.accountCountry)) time) tenantId state
            ((some i).map (·.id)) .domainNotAuthoritative (!domainOk) time = u at h
      have hguards : SameRows db u := by
        rw [← hu]
        exact (guardFlag_same _ _ _).trans (guardFlag_same _ _ _)
      have hreleases : u.releases = db.releases := by
        rw [← hu, guardFlag_releases, guardFlag_releases]
      obtain ⟨w, hsame, hexpired, hgranted, hcase⟩ := activate_ok h
      rw [hreleases] at hexpired hgranted
      rcases hcase with ⟨houtcome, rfl, -⟩ | ⟨hfree, -, hmove⟩
      · exact .kept (hguards.trans hsame) hexpired houtcome hnone
      · rw [activationRelease_congr hguards hreleases] at hmove hgranted
        refine .activated (hguards.trans hsame) rfl ?_ ?_ hexpired hgranted hmove
        · rw [joinDetails_pair_eq_nil] at hfree
          cases domainOk with
          | true => rfl
          | false => exact absurd hfree.2 domainVerificationHeld_ne_nil
        · intro x hx hprovider hproduct
          refine find?_eq_none.mp hfind x hx ?_
          rw [hprovider, hproduct, beq_self_eq_true, Bool.and_self]

theorem LockedMove.queue {checkout : Option CheckoutIntent} {domainOk : Bool}
    (h : LockedMove deps db tenantId productKey state mapped checkout domainOk time result t) :
    SameQueue db t := by
  cases h with
  | kept same _ _ _ => exact same.queue
  | updated same _ _ _ _ _ _ => exact ⟨same.catalog, same.commands, same.requests⟩
  | activated same _ _ _ _ _ move => exact same.queue.trans move.queue

end AramoPlatform.Billing
