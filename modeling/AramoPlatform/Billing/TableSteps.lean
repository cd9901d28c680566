import AramoPlatform.Billing.Activation
import AramoPlatform.Billing.Checkout

/-!
# What a transaction may do to the rows

`BillingWf` is what the indexes of the tables and the writers of the governed
rows keep. `OwnStep` says how the transactions of a checkout and of a provider
state change the subscriptions and the releases: rows are inserted, open rows
change or end, ended rows stay as they are, and a release that is bound to a
checkout stays bound to it. Every write is shown to be such a step once; the
transactions are compositions.
-/

namespace AramoPlatform.Billing

open Js Lib Subscription List

variable {deps : BillingDeps} {db t u : BillingDb} {tenantId : Uuid} {productKey : ProductKey}
  {intent : CheckoutIntent} {state : ProviderSubscriptionState} {mapped : MappedStatus}
  {time clock : Nat} {release : Option ConversionRelease} {result : ApplyResult}

/-! ## The invariant -/

/-- What every transaction on the billing tables keeps: the unique keys, governed rows
without a provider subscription, and live releases without a checkout. -/
structure BillingWf (db : BillingDb) : Prop where
  subscriptions : SubscriptionsWf db
  refs : ∀ x ∈ db.subscriptions, ∀ y ∈ db.subscriptions, x.billingProvider.isSome = true →
    x.billingSubscriptionRef.isSome = true → x.billingProvider = y.billingProvider →
    x.billingSubscriptionRef = y.billingSubscriptionRef → x = y
  manual : ∀ x ∈ db.subscriptions, x.source = .manual → x.billingSubscriptionRef = none
  releaseIds : (db.releases.map (·.id)).Nodup
  unbound : ∀ r ∈ db.releases, r.state = .released → r.intentId = none

/-- How a row may change over its life. -/
structure RowKept (y x : TenantSubscription) : Prop where
  tenant : x.tenantId = y.tenantId
  product : x.productKey = y.productKey
  source : x.source = y.source
  provider : x.billingProvider = y.billingProvider
  ref : x.billingSubscriptionRef = y.billingSubscriptionRef
  ended : y.endedAt.isSome = true → x.endedAt.isSome = true

theorem RowKept.refl (x : TenantSubscription) : RowKept x x := ⟨rfl, rfl, rfl, rfl, rfl, id⟩

theorem RowKept.trans {x y z : TenantSubscription} (h : RowKept x y) (h' : RowKept y z) :
    RowKept x z where
  tenant := h'.tenant.trans h.tenant
  product := h'.product.trans h.product
  source := h'.source.trans h.source
  provider := h'.provider.trans h.provider
  ref := h'.ref.trans h.ref
  ended := fun hended => h'.ended (h.ended hended)

/-- The rows of `t` came from the rows of `db` by updates and inserts. -/
abbrev RowsContinue (db t : BillingDb) : Prop :=
  Continues TenantSubscription.id RowKept (fun _ => True) db.subscriptions db.nextId
    t.subscriptions t.nextId

/-- A release that names its checkout names it for good. -/
def ReleasesKept (db t : BillingDb) : Prop :=
  ∀ r ∈ db.releases, ∃ r' ∈ t.releases, r'.id = r.id ∧
    ∀ checkout, r.intentId = some checkout → r'.intentId = some checkout

/-- Rows that have ended are not changed. -/
def EndedStay (db t : BillingDb) : Prop :=
  ∀ x ∈ db.subscriptions, x.endedAt.isSome = true → x ∈ t.subscriptions

/-- A change of the billing tables. -/
structure TableStep (db t : BillingDb) : Prop where
  wf : BillingWf t
  rows : RowsContinue db t
  releases : ReleasesKept db t

/-- A change by a transaction of a checkout or of a provider state. -/
structure OwnStep (db t : BillingDb) : Prop extends TableStep db t where
  ended : EndedStay db t

theorem ReleasesKept.refl (db : BillingDb) : ReleasesKept db db :=
  fun r hr => ⟨r, hr, rfl, fun _ h => h⟩

theorem ReleasesKept.trans (h : ReleasesKept db t) (h' : ReleasesKept t u) : ReleasesKept db u := by
  intro r hr
  obtain ⟨r', hr', hid, hbound⟩ := h r hr
  obtain ⟨r'', hr'', hid', hbound'⟩ := h' r' hr'
  exact ⟨r'', hr'', hid'.trans hid, fun c hc => hbound' c (hbound c hc)⟩

theorem TableStep.trans (h : TableStep db t) (h' : TableStep t u) : TableStep db u where
  wf := h'.wf
  rows := by
    refine Continues.trans ?_ ?_ h.rows h'.rows
    · intro x y z hxy hyz
      exact hxy.trans hyz
    · intro x y _ _
      trivial
  releases := h.releases.trans h'.releases

theorem OwnStep.trans (h : OwnStep db t) (h' : OwnStep t u) : OwnStep db u where
  toTableStep := h.toTableStep.trans h'.toTableStep
  ended := fun x hx hended => h'.ended x (h.ended x hx hended) hended

/-! ## Writes that leave the subscriptions -/

section

variable (h : BillingWf db)

include h

section

variable (hrows : t.subscriptions = db.subscriptions)

include hrows

theorem BillingWf.of_tables
    (hnext : db.nextId ≤ t.nextId) (hids : t.releases.map (·.id) = db.releases.map (·.id))
    (hunbound : ∀ r ∈ t.releases, r.state = .released → r.intentId = none) : BillingWf t where
  subscriptions :=
    { keyed :=
        { nodup := by rw [hrows]; exact h.subscriptions.keyed.nodup
          lt := fun x hx => Nat.lt_of_lt_of_le
            (h.subscriptions.keyed.lt x (by rwa [hrows] at hx)) hnext }
      oneOpen := by rw [hrows]; exact h.subscriptions.oneOpen }
  refs := by rw [hrows]; exact h.refs
  manual := by rw [hrows]; exact h.manual
  releaseIds := by rw [hids]; exact h.releaseIds
  unbound := hunbound

theorem RowsContinue.of_same
    (hnext : db.nextId ≤ t.nextId) : RowsContinue db t := by
  unfold RowsContinue
  rw [hrows]
  exact (Continues.refl h.subscriptions.keyed RowKept.refl).mono hnext

theorem OwnStep.of_same
    (hnext : db.nextId ≤ t.nextId) (hreleases : t.releases = db.releases) : OwnStep db t where
  wf := h.of_tables hrows hnext (by rw [hreleases]) (by rw [hreleases]; exact h.unbound)
  rows := .of_same h hrows hnext
  releases := fun r hr => ⟨r, by rwa [hreleases], rfl, fun _ hc => hc⟩
  ended := fun x hx _ => by rwa [hrows]

theorem TableStep.of_same
    (hnext : db.nextId ≤ t.nextId) (hreleases : t.releases = db.releases) : TableStep db t :=
  (OwnStep.of_same h hrows hnext hreleases).toTableStep

theorem OwnStep.of_releases {p : ConversionRelease → Bool}
    {f : ConversionRelease → ConversionRelease} (hnext : db.nextId ≤ t.nextId)
    (hreleases : t.releases = updateWhere p f db.releases) (hid : ∀ r, (f r).id = r.id)
    (hstate : ∀ r, (f r).state ≠ .released)
    (hbound : ∀ r ∈ db.releases, p r = true → r.intentId.isSome = true →
      (f r).intentId = r.intentId) : OwnStep db t where
  wf := by
    refine h.of_tables hrows hnext ?_ ?_
    · rw [hreleases]
      exact map_updateWhere _ hid
    · intro r hr hlive
      rw [hreleases] at hr
      rcases of_mem_updateWhere hr with ⟨hmem, -⟩ | ⟨r₀, -, -, rfl⟩
      · exact h.unbound r hmem hlive
      · exact absurd hlive (hstate r₀)
  rows := .of_same h hrows hnext
  releases := by
    intro r hr
    rw [hreleases]
    refine exists_updateWhere hr (fun _ => ⟨rfl, fun _ hc => hc⟩) fun hp => ⟨hid r, fun _ hc => ?_⟩
    rw [hbound r hr hp (by rw [hc]; rfl), hc]
  ended := fun x hx _ => by rwa [hrows]

end

end

/-! ## Writes of a subscription -/

theorem TableStep.update {id : Uuid} {f : TenantSubscription → TenantSubscription}
    (h : BillingWf db) (hid : ∀ x, (f x).id = x.id)
    (hkept : ∀ x ∈ db.subscriptions, x.id = id → RowKept x (f x)) :
    TableStep db (db.updateSubscription id f) := by
  have hrows : RowsContinue db (db.updateSubscription id f) := by
    refine (Continues.refl h.subscriptions.keyed RowKept.refl).update hid ?_
      (fun _ _ _ _ => trivial)
    intro y hy x hx hkey hyx hp
    exact hyx.trans (hkept x hx (by simpa using hp))
  -- two rows of the result come from two rows that differ in their kept columns only
  have hold : ∀ x ∈ (db.updateSubscription id f).subscriptions, ∃ y ∈ db.subscriptions,
      x = (if y.id == id then f y else y) ∧ RowKept y x := by
    intro x hx
    obtain ⟨y, hy, rfl⟩ := mem_updateWhere.mp hx
    refine ⟨y, hy, rfl, ?_⟩
    split
    next heq => exact hkept y hy (by simpa using heq)
    · exact RowKept.refl y
  have hopen : ∀ {x y : TenantSubscription}, RowKept y x → x.endedAt = none → y.endedAt = none := by
    intro x y hyx hx
    cases hy : y.endedAt with
    | none => rfl
    | some at_ =>
      have hended := hyx.ended (by rw [hy]; rfl)
      rw [hx] at hended
      cases hended
  refine ⟨⟨⟨hrows.keyed, ?_⟩, ?_, ?_, h.releaseIds, h.unbound⟩, hrows, ReleasesKept.refl db⟩
  · intro x hx x' hx' htenant hproduct hnone hnone'
    obtain ⟨y, hy, rfl, hyx⟩ := hold x hx
    obtain ⟨y', hy', rfl, hyx'⟩ := hold x' hx'
    obtain rfl := h.subscriptions.oneOpen y hy y' hy'
      (hyx.tenant.symm.trans (htenant.trans hyx'.tenant))
      (hyx.product.symm.trans (hproduct.trans hyx'.product)) (hopen hyx hnone) (hopen hyx' hnone')
    rfl
  · intro x hx x' hx' hsome hsome' hprovider href
    obtain ⟨y, hy, rfl, hyx⟩ := hold x hx
    obtain ⟨y', hy', rfl, hyx'⟩ := hold x' hx'
    rw [hyx.provider, hyx'.provider] at hprovider
    rw [hyx.ref, hyx'.ref] at href
    obtain rfl := h.refs y hy y' hy' (by rwa [← hyx.provider]) (by rwa [← hyx.ref]) hprovider href
    rfl
  · intro x hx hmanual
    obtain ⟨y, hy, rfl, hyx⟩ := hold x hx
    rw [hyx.ref]
    exact h.manual y hy (hyx.source.symm.trans hmanual)

theorem OwnStep.update {id : Uuid} {f : TenantSubscription → TenantSubscription}
    (h : BillingWf db) (hid : ∀ x, (f x).id = x.id)
    (hkept : ∀ x ∈ db.subscriptions, x.id = id → RowKept x (f x))
    (hopen : ∀ x ∈ db.subscriptions, x.id = id → x.endedAt = none) :
    OwnStep db (db.updateSubscription id f) where
  toTableStep := .update h hid hkept
  ended := by
    intro x hx hended
    refine mem_updateWhere_of_not hx (beq_eq_false_iff_ne.mpr fun heq => ?_)
    rw [hopen x hx heq] at hended
    cases hended

theorem admits_iff {x : TenantSubscription} : db.admits x = true ↔ ∀ y ∈ db.subscriptions,
    ¬(x.endedAt = none ∧ isOpenBase x.tenantId x.productKey y = true) ∧
      ¬(x.billingProvider.isSome = true ∧ x.billingSubscriptionRef.isSome = true ∧
        x.billingProvider = y.billingProvider ∧
          x.billingSubscriptionRef = y.billingSubscriptionRef) := by
  simp only [BillingDb.admits, all_eq_true, Bool.and_eq_true, Bool.not_eq_true',
    Bool.and_eq_false_imp, beq_iff_eq, beq_eq_false_iff_ne, Option.isNone_iff_eq_none, not_and,
    and_imp, Bool.not_eq_true]

theorem OwnStep.insert {x : TenantSubscription} (h : BillingWf db) (hid : x.id = db.nextId)
    (hadmits : db.admits x = true) (hmanual : x.source = .manual → x.billingSubscriptionRef = none)
    (hrows : t.subscriptions = db.subscriptions ++ [x]) (hnext : t.nextId = db.nextId + 1)
    (hreleases : t.releases = db.releases) : OwnStep db t := by
  have hcontinue : RowsContinue db t := by
    unfold RowsContinue
    rw [hrows, hnext]
    exact (Continues.refl h.subscriptions.keyed RowKept.refl).insert hid trivial
  have hold := admits_iff.mp hadmits
  refine ⟨⟨⟨⟨hcontinue.keyed, ?_⟩, ?_, ?_, by rw [hreleases]; exact h.releaseIds,
    by rw [hreleases]; exact h.unbound⟩, hcontinue, ?_⟩, ?_⟩
  · intro y hy z hz htenant hproduct hopen hopen'
    rw [hrows, mem_append, mem_singleton] at hy hz
    rcases hy with hy | rfl <;> rcases hz with hz | rfl
    · exact h.subscriptions.oneOpen y hy z hz htenant hproduct hopen hopen'
    · exact absurd ⟨hopen', isOpenBase_iff.mpr ⟨htenant, hproduct, hopen⟩⟩ (hold y hy).1
    · exact absurd ⟨hopen, isOpenBase_iff.mpr ⟨htenant.symm, hproduct.symm, hopen'⟩⟩ (hold z hz).1
    · rfl
  · intro y hy z hz hsome hsome' hprovider href
    rw [hrows, mem_append, mem_singleton] at hy hz
    rcases hy with hy | rfl <;> rcases hz with hz | rfl
    · exact h.refs y hy z hz hsome hsome' hprovider href
    · refine absurd ⟨?_, ?_, hprovider.symm, href.symm⟩ (hold y hy).2
      · rwa [← hprovider]
      · rwa [← href]
    · exact absurd ⟨hsome, hsome', hprovider, href⟩ (hold z hz).2
    · rfl
  · intro y hy hsource
    rw [hrows, mem_append, mem_singleton] at hy
    rcases hy with hy | rfl
    · exact h.manual y hy hsource
    · exact hmanual hsource
  · intro r hr
    exact ⟨r, by rwa [hreleases], rfl, fun _ hc => hc⟩
  · intro y hy _
    rw [hrows]
    exact mem_append_left _ hy

/-! ## The transactions of a provider state -/

theorem SameRows.ownStep (hwf : BillingWf db) (hsame : SameRows db t)
    (hreleases : ReleasesExpired time db.releases t.releases) : OwnStep db t := by
  rcases hreleases with hreleases | ⟨id, hreleases⟩
  · exact .of_same hwf hsame.subscriptions hsame.nextId.ge hreleases
  · refine .of_releases hwf hsame.subscriptions hsame.nextId.ge hreleases ?_ ?_ ?_
    · intro r
      rfl
    · intro r hlive
      cases hlive
    · intro r _ _ _
      rfl

theorem updatedRow_kept {withheld : Bool} {pin : Option PriceResolution}
    {storeTerms : Option StoreTerms} {x : TenantSubscription} (hopen : x.endedAt = none) :
    RowKept x (updatedRow deps state mapped withheld pin storeTerms time x) := by
  refine ⟨rfl, rfl, rfl, rfl, rfl, ?_⟩
  intro hended
  rw [hopen] at hended
  cases hended

section

variable (hwf : BillingWf db)

include hwf

theorem withoutOpenRow_ownStep :
    OwnStep db (withoutOpenRow db tenantId productKey time) := by
  unfold withoutOpenRow
  split
  next x hopen =>
    obtain ⟨hx, hbase⟩ := openBase?_mem hopen
    obtain ⟨-, -, hended⟩ := isOpenBase_iff.mp hbase
    refine .update hwf (fun _ => rfl) ?_ ?_
    · intro y _ _
      exact ⟨rfl, rfl, rfl, rfl, rfl, fun _ => rfl⟩
    · intro y hy hid
      rw [inj_on_of_nodup_map hwf.subscriptions.keyed.nodup hy hx hid, hended]
  · exact .of_same hwf rfl (Nat.le_refl _) rfl

theorem updateRelease_ownStep {id : Uuid} {source : ReleaseState}
    {f : ConversionRelease → ConversionRelease}
    (h : updateRelease db id source f = .ok t) (hid : ∀ r, (f r).id = r.id)
    (hstate : ∀ r, (f r).state ≠ .released)
    (hbound : source ≠ .released → ∀ r, (f r).intentId = r.intentId) : OwnStep db t := by
  obtain ⟨-, rfl⟩ := updateRelease_ok h
  refine .of_releases hwf rfl (Nat.le_refl _) rfl hid hstate ?_
  intro r hr hp hsome
  by_cases hlive : source = .released
  · -- a live release has no checkout yet
    rw [hlive, Bool.and_eq_true, beq_iff_eq, beq_iff_eq] at hp
    rw [hwf.unbound r hr hp.2] at hsome
    cases hsome
  · exact hbound hlive r

theorem convertedInTx_ownStep {r : ConversionRelease} {selfServiceId intentId : Uuid} (h :
    convertedInTx db r selfServiceId intentId time = .ok t) :
    OwnStep db t := by
  refine updateRelease_ownStep hwf h ?_ ?_ ?_
  · intro x
    split <;> rfl
  · intro x
    split <;> simp
  · intro hlive x
    rw [if_neg (by simpa using hlive)]

theorem openReplacement_ownStep {plan : Plan} {version : PlanVersionRow}
    {converted : Option ConversionRelease}
    (h : openReplacement deps db tenantId productKey intent state mapped time plan version
      converted = .ok t) : OwnStep db t := by
  simp only [openReplacement, bind_eq_ok] at h
  obtain ⟨u, hinsert, v, hintent, h⟩ := h
  obtain ⟨hadmits, hu⟩ := insertSubscription_ok hinsert
  obtain ⟨-, hv⟩ := updateIntent_ok hintent
  have hopened : OwnStep db u := by
    refine .insert hwf ?_ hadmits ?_ ?_ ?_ ?_
    · rfl
    · intro hmanual
      cases hmanual
    · rw [hu]
    · rw [hu]
    · rw [hu]
  have hcompleted : OwnStep db v := by
    refine hopened.trans (.of_same hopened.wf ?_ ?_ ?_)
    · rw [hv]
    · rw [hv]
    · rw [hv]
  cases converted with
  | none =>
    obtain rfl := pure_eq_ok.mp h
    exact hcompleted
  | some r => exact hcompleted.trans (convertedInTx_ownStep hcompleted.wf h)

theorem OpenMove.ownStep
    (h : OpenMove deps db tenantId productKey intent state mapped time release result t) :
    OwnStep db t := by
  have hended : OwnStep db (withoutOpenRow db tenantId productKey time) :=
    withoutOpenRow_ownStep hwf
  cases h with
  | refused _ => exact .of_same hwf rfl (Nat.le_refl _) rfl
  | unpinned _ _ _ => exact hended
  | opened _ _ _ writes => exact hended.trans (openReplacement_ownStep hended.wf writes)

theorem LockedMove.ownStep {checkout : Option CheckoutIntent} {domainOk : Bool}
    (h : LockedMove deps db tenantId productKey state mapped checkout domainOk time result t) :
    OwnStep db t := by
  cases h with
  | kept same releases _ _ => exact same.ownStep hwf releases
  | @updated u row guarded storeTerms same releases free mem provider product isOpen =>
    have hguards : OwnStep db u := .of_same hwf same.subscriptions same.nextId.ge releases
    refine hguards.trans (.update hguards.wf (fun _ => rfl) ?_ ?_)
    · intro x hx hid
      rw [same.subscriptions] at hx
      obtain rfl := inj_on_of_nodup_map hwf.subscriptions.keyed.nodup hx mem hid
      exact updatedRow_kept isOpen
    · intro x hx hid
      rw [same.subscriptions] at hx
      rw [inj_on_of_nodup_map hwf.subscriptions.keyed.nodup hx mem hid, isOpen]
  | activated same checkout domain noRow releases granted move =>
    have hguards := same.ownStep hwf releases
    exact hguards.trans (move.ownStep hguards.wf)

theorem CompletionMove.ownStep {id : Uuid} (h : CompletionMove db id t) :
    OwnStep db t := by
  rcases h.subscriptions with ⟨hrows, hnext⟩ | ⟨-, x, hx, hrows, hnext⟩
  · exact .of_same hwf hrows hnext.ge h.releases
  · exact .insert hwf hx.id hx.admits (fun _ => hx.unlinked) hrows hnext h.releases

theorem completeAll_ownStep {ids : List Uuid} {outcomes : List (Uuid × CompletionOutcome)} (h :
    completeAll time ids db = .ok (outcomes, t)) : OwnStep db t := by
  refine completeAll_induction (.of_same hwf rfl (Nat.le_refl _) rfl) ?_ h
  intro u v id _ hstep hmove _
  exact hstep.trans (hmove.ownStep hstep.wf)

theorem applyTx_ownStep {link : Link} {confirmation : Confirmation}
    (h : applyTx deps db link state productKey confirmation time clock = .ok (result, t)) :
    OwnStep db t := by
  obtain ⟨first, u, hlocked, -, commands, ids, outcomes, hcomplete, -⟩ := applyTx_ok h
  have hstep : OwnStep db u := (applyLocked_move hlocked).ownStep hwf
  have hconfirmed : OwnStep u { u with commands := commands } :=
    .of_same hstep.wf rfl (Nat.le_refl _) rfl
  exact (hstep.trans hconfirmed).trans (completeAll_ownStep hconfirmed.wf hcomplete)

end

/-! ## The transactions of a checkout -/

theorem startCheckoutTx_ownStep {ports : CheckoutPorts} {start : CheckoutStart}
    (hwf : BillingWf db) (h : startCheckoutTx ports db start = .ok t) : OwnStep db t := by
  unfold startCheckoutTx at h
  split at h
  · cases h
  next release _ =>
    have hintent : OwnStep db (db.insertIntent (checkoutIntentOf ports db.nextId start)) :=
      .of_same hwf rfl (Nat.le_succ _) rfl
    dsimp only at h
    split at h
    · cases h
      exact hintent
    next r =>
      split at h
      next u hconsume =>
        cases h
        refine hintent.trans (updateRelease_ownStep hintent.wf hconsume ?_ ?_ ?_)
        · intro x
          rfl
        · intro x hlive
          cases hlive
        · intro hne
          exact absurd rfl hne
      · cases h

theorem startCheckoutTx_frame {ports : CheckoutPorts} {start : CheckoutStart}
    (h : startCheckoutTx ports db start = .ok t) :
    t.subscriptions = db.subscriptions ∧ t.commands = db.commands := by
  unfold startCheckoutTx at h
  split at h
  · cases h
  · dsimp only at h
    split at h
    · cases h
      exact ⟨rfl, rfl⟩
    · split at h
      next u hconsume =>
        cases h
        obtain ⟨-, rfl⟩ := updateRelease_ok hconsume
        exact ⟨rfl, rfl⟩
      · cases h

theorem expireSessionTx_ownStep {session : CheckoutSessionState} {confirmation : Confirmation}
    (hwf : BillingWf db) :
    OwnStep db (expireSessionTx db intent session productKey confirmation time).2 :=
  .of_same hwf rfl (Nat.le_refl _) rfl

end AramoPlatform.Billing
