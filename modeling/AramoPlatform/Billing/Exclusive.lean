import AramoPlatform.Billing.LifecycleRuns

/-!
# Governed and self-service subscriptions are exclusive

One row of a tenant and a product is open in every state that any order of
the calls reaches, ended rows stay as they are, and a release is bound to one
checkout. An open governed row is ended by the conversion that its release
names, as long as no product without a pin is activated over it.
-/

namespace AramoPlatform.Billing

open Js Lib Subscription List

variable {deps : BillingDeps} {ports : CheckoutPorts} {db u : BillingDb} {s t : LifecycleState}
  {op : LifecycleOp}

/-! ## Every step -/

theorem governedRow_kept {x : TenantSubscription} {time : Nat} : RowKept x (endReplaced time x) :=
  ⟨rfl, rfl, rfl, rfl, rfl, fun _ => rfl⟩

theorem elsewhere_tableStep {e : ElsewhereOp} (hwf : BillingWf db) (h : elsewhere db e = some u) :
    TableStep db u := by
  cases e with
  | rowOpens x =>
    by_cases hrow : isUnlinkedRow db x = true
    · rw [elsewhere, if_pos hrow] at h
      simp only [isUnlinkedRow, Bool.and_eq_true, beq_iff_eq, bne_iff_ne,
        Option.isNone_iff_eq_none] at hrow
      cases hinsert : db.insertSubscription x with
      | error e =>
        rw [hinsert] at h
        cases h
      | ok v =>
        rw [hinsert] at h
        obtain rfl : v = u := Option.some.inj h
        obtain ⟨hadmits, hv⟩ := insertSubscription_ok hinsert
        refine (OwnStep.insert hwf hrow.1.1.1 hadmits (fun _ => hrow.2) ?_ ?_ ?_).toTableStep
        · rw [hv]
        · rw [hv]
        · rw [hv]
    · rw [elsewhere, if_neg hrow] at h
      cases h
  | governedEnds id time =>
    simp only [elsewhere] at h
    split at h
    · cases h
      exact .update hwf (fun _ => rfl) fun _ _ _ => governedRow_kept
    · cases h
  | governedRepinned id planId planVersionId =>
    simp only [elsewhere] at h
    split at h
    · cases h
      exact .update hwf (fun _ => rfl) fun _ _ _ => ⟨rfl, rfl, rfl, rfl, rfl, fun h => h⟩
    · cases h
  | eligibilityRefreshed id eligibility time =>
    cases h
    exact .update hwf (fun _ => rfl) fun _ _ _ => ⟨rfl, rfl, rfl, rfl, rfl, fun h => h⟩
  | released r =>
    simp only [elsewhere] at h
    split at h
    next hnew =>
      cases h
      simp only [Bool.and_eq_true, beq_iff_eq, Option.isNone_iff_eq_none, all_eq_true,
        bne_iff_ne] at hnew
      refine ⟨⟨⟨hwf.subscriptions.keyed, hwf.subscriptions.oneOpen⟩, hwf.refs, hwf.manual, ?_, ?_⟩,
        .of_same hwf rfl (Nat.le_refl _), ?_⟩
      · exact nodup_concat hwf.releaseIds hnew.2
      · intro r' hr' hlive
        rcases mem_append.mp hr' with hr' | hr'
        · exact hwf.unbound r' hr' hlive
        · obtain rfl := mem_singleton.mp hr'
          exact hnew.1.2
      · intro r' hr'
        exact ⟨r', mem_append_left _ hr', rfl, fun _ hc => hc⟩
    · cases h
  | releaseExpires r time =>
    cases h
    have hexpired : ReleasesExpired time db.releases (expireInTx db r time).releases := by
      unfold expireInTx
      split
      · exact .inl rfl
      · exact .inr ⟨r.id, rfl⟩
    exact ((expireInTx_same r).ownStep hwf hexpired).toTableStep
  | storeIntent i =>
    simp only [elsewhere] at h
    split at h
    · cases h
      exact .of_same hwf rfl (Nat.le_succ _) rfl
    · cases h
  | catalogChanges | usageChanges | queueChanges =>
    cases h
    exact .of_same hwf rfl (Nat.le_refl _) rfl

/-- The operations of the lifecycle, as opposed to the rest of the platform. -/
def LifecycleOp.isOwn : LifecycleOp → Prop
  | .elsewhere _ => False
  | _ => True

theorem StepMove.tableStep (hwf : BillingWf s.db) (h : StepMove deps ports s op t) :
    TableStep s.db t.db ∧ (op.isOwn → OwnStep s.db t.db) := by
  have hown : OwnStep s.db t.db → TableStep s.db t.db ∧ (op.isOwn → OwnStep s.db t.db) :=
    fun hstep => ⟨hstep.toTableStep, fun _ => hstep⟩
  cases h with
  | calls db _ => exact hown (.of_same hwf (by rw [db]) (by rw [db]) (by rw [db]))
  | applied _ _ _ tx => exact hown (applyTx_ownStep hwf tx)
  | checkout _ tx => exact hown (startCheckoutTx_ownStep hwf tx)
  | session _ tx =>
    obtain ⟨-, hu⟩ := updateIntent_ok tx
    refine hown (.of_same hwf ?_ ?_ ?_) <;> rw [hu]
  | expired _ tx =>
    rw [tx] at hown ⊢
    exact hown (expireSessionTx_ownStep hwf)
  | elsewhere _ write => exact ⟨elsewhere_tableStep hwf write, fun hcontra => hcontra.elim⟩

/-! ## The end of a governed row -/

section GovernedEnd

variable {tenantId : Uuid} {productKey : ProductKey} {intent : CheckoutIntent}
  {state : ProviderSubscriptionState} {time clock : Nat} {x : TenantSubscription}
  {result : ApplyResult}

/-- The transaction from `db` to `t` converts the governed row `x`: a release of `db` names
the row and the checkout, the self-service row of the provider subscription is new and
open, and the release is bound to both and the checkout completed. -/
structure ConvertsRow (db t : BillingDb) (productKey : ProductKey)
    (state : ProviderSubscriptionState) (time : Nat) (intent : CheckoutIntent)
    (x : TenantSubscription) : Prop where
  granted : ∃ r ∈ db.releases, (∃ target, ReleaseGranted db r x.tenantId productKey x.id intent
      state.subscriptionRef target time) ∧
    ∃ row ∈ t.subscriptions, (∀ y ∈ db.subscriptions, y.id ≠ row.id) ∧
      row.source = .selfService ∧ isOpenBase x.tenantId x.productKey row = true ∧
      isOfProvider state.provider state.subscriptionRef row = true ∧
      ∃ r' ∈ t.releases, r'.id = r.id ∧ r'.governedSubscriptionId = x.id ∧
        r'.state = .converted ∧ r'.intentId = some intent.id ∧
        r'.selfServiceSubscriptionId = some row.id
  completed : ∃ i ∈ t.intents, i.id = intent.id ∧ i.status = .completed

/-- A store product without a pin ends an open governed row in this step. -/
def EndsGovernedUnpinned (deps : BillingDeps) (s : LifecycleState) : LifecycleOp → Prop
  | .apply call _ => ∃ c link intent plan version x, s.calls[call]? = some c ∧
      c.phase = .linked link ∧ link.intent = some intent ∧ link.domainOk = true ∧
      ReplacesUnpinned deps s.db link.tenantId c.productKey c.read c.time intent plan version x ∧
      isGovernedSubscription x = true
  | _ => False

variable {y : TenantSubscription}

theorem not_ended_of_mem (hwf : BillingWf u) (hx : x ∈ u.subscriptions)
    (hy : y ∈ u.subscriptions) (hid : y.id = x.id) (hopen : x.endedAt = none) :
      y.endedAt = none := by
  rw [inj_on_of_nodup_map hwf.subscriptions.keyed.nodup hy hx hid, hopen]

variable {r : ConversionRelease}

theorem convertedInTx_converts {selfServiceId intentId : Uuid}
    (hr : r ∈ db.releases) (hbound : r.state ≠ .released → r.intentId = some intentId)
    (h : convertedInTx db r selfServiceId intentId time = .ok u) :
    ∃ r' ∈ u.releases, r'.id = r.id ∧ r'.governedSubscriptionId = r.governedSubscriptionId ∧
      r'.state = .converted ∧ r'.intentId = some intentId ∧
      r'.selfServiceSubscriptionId = some selfServiceId := by
  obtain ⟨-, rfl⟩ := updateRelease_ok h
  refine ⟨_, mem_updateWhere_of_pos hr (by rw [beq_self_eq_true,
    beq_self_eq_true, Bool.and_self]), ?_⟩
  by_cases hlive : r.state = .released
  · rw [if_pos (beq_iff_eq.mpr hlive)]
    exact ⟨rfl, rfl, rfl, rfl, rfl⟩
  · rw [if_neg (by rwa [beq_iff_eq])]
    exact ⟨rfl, rfl, rfl, hbound hlive, rfl⟩

theorem openReplacement_converts {plan : Plan} {version : PlanVersionRow} {mapped : MappedStatus}
    (hr : r ∈ db.releases)
    (hbound : r.state ≠ .released → r.intentId = some intent.id)
    (h : openReplacement deps db tenantId productKey intent state mapped time plan version
      (some r) = .ok u) :
    ∃ r' ∈ u.releases, r'.id = r.id ∧ r'.governedSubscriptionId = r.governedSubscriptionId ∧
      r'.state = .converted ∧ r'.intentId = some intent.id ∧
      r'.selfServiceSubscriptionId = some db.nextId := by
  simp only [openReplacement, bind_eq_ok] at h
  obtain ⟨v, hinsert, w, hintent, h⟩ := h
  obtain ⟨-, hv⟩ := insertSubscription_ok hinsert
  obtain ⟨-, hw⟩ := updateIntent_ok hintent
  refine convertedInTx_converts ?_ hbound h
  rw [hw, hv]
  exact hr

/-- The release of an activation over an open row names the row and the checkout. -/
theorem activationRelease_granted {mapped : MappedStatus}
    (hopen : db.openBase? tenantId productKey = some x)
    (h : (activationRelease deps db tenantId productKey intent state mapped time).1 = some r) :
    ∃ target, ReleaseGranted db r tenantId productKey x.id intent state.subscriptionRef target
      time := by
  obtain ⟨y, hy, -, -, -, _, rfl, hvalid, hr⟩ := activationRelease_eq_some.mp h
  obtain rfl : y = x := Option.some.inj (hy.symm.trans hopen)
  obtain ⟨r', hr', hgranted⟩ := releaseForActivation_valid hvalid
  obtain rfl : r' = r := Option.some.inj (hr'.symm.trans hr)
  exact ⟨_, hgranted⟩

theorem ReleaseGranted.bound {governedId : Uuid}
    {subscriptionRef : JsString} {target : ActivationTarget}
    (h : ReleaseGranted db r tenantId productKey governedId intent subscriptionRef target time) :
    r.state ≠ .released → r.intentId = some intent.id := by
  intro hne
  rcases h.names with hintent | ⟨-, hconsumable⟩
  · exact hintent
  · simp only [releaseConsumable, Bool.and_eq_true, beq_iff_eq] at hconsumable
    exact absurd hconsumable.1 hne

/-- An activation that ends an open governed row converts it, or its product is not
pinned. -/
theorem OpenMove.governed_end {w : BillingDb} (hwf : BillingWf w)
    (hx : x ∈ w.subscriptions) (hgov : isGovernedSubscription x = true)
    (h : OpenMove deps w tenantId productKey intent state (mapProviderStatus state.providerStatus)
      time (activationRelease deps db tenantId productKey intent state
        (mapProviderStatus state.providerStatus) time).1 result u)
    (hsame : SameRows db w) (hreleases : ∀ r, (activationRelease deps db tenantId productKey intent
      state (mapProviderStatus state.providerStatus) time).1 = some r → w.releases = db.releases)
    (hy : y ∈ u.subscriptions) (hid : y.id = x.id) (hended : y.endedAt.isSome = true) :
    (∃ plan version, ReplacesUnpinned deps db tenantId productKey state time
      intent plan version x) ∨
      ConvertsRow db u productKey state time intent x := by
  have hwf' : BillingWf u := (h.ownStep hwf).wf
  have hopen : x.endedAt = none := by
    rw [isGovernedSubscription, Bool.and_eq_true, Option.isNone_iff_eq_none] at hgov
    exact hgov.1
  -- a row that is still there as it was has not ended
  have hgone : x ∉ u.subscriptions := by
    intro hmem
    rw [not_ended_of_mem hwf' hmem hy hid hopen] at hended
    cases hended
  cases h with
  | refused _ => exact absurd hx hgone
  | unpinned ready store interval =>
    rcases mem_withoutOpenRow tenantId productKey time hwf.subscriptions hx with
      ⟨hfound, -⟩ | ⟨-, hmem⟩
    · have hready := (openRowTarget_eq_ready.mp ready).of_same hsame.symm
      rw [hsame.catalog] at interval
      rw [hsame.openBase?] at hfound
      exact .inl ⟨_, _, replacesUnpinned_of_ready (.refl db) rfl store interval hready hfound⟩
    · exact absurd hmem hgone
  | @opened plan version _ _ ready pinned outcome writes =>
    have hwrites := openReplacement_ok writes
    rcases mem_withoutOpenRow tenantId productKey time hwf.subscriptions hx with
      ⟨hfound, -⟩ | ⟨-, hmem⟩
    · obtain ⟨r, hr, hnames⟩ := (openRowTarget_eq_ready.mp ready).converts x hfound hgov
      have hbase : db.openBase? tenantId productKey = some x := by rwa [← hsame.openBase?]
      obtain ⟨target, hgranted⟩ := activationRelease_granted hbase hr
      obtain ⟨htenant, hproduct, -⟩ := isOpenBase_iff.mp (openBase?_mem hbase).2
      have hconverted : convertedRelease w tenantId productKey (some r) = some r := by
        simp [convertedRelease, Option.filter_some, hfound, hnames, hgov]
      rw [hr, hconverted] at writes
      have hmem : r ∈ (withoutOpenRow w tenantId productKey time).releases := by
        rw [withoutOpenRow_releases, hreleases r hr]
        exact hgranted.mem
      obtain ⟨r', hr', hid', hgoverned, hstate, hintent, hself⟩ :=
        openReplacement_converts hmem hgranted.bound writes
      refine .inr ⟨⟨r, hgranted.mem, ⟨target, htenant ▸ hgranted⟩, selfServiceRow deps _ tenantId
        productKey intent version plan.id state (mapProviderStatus state.providerStatus)
          (storeIntervalOf (withoutOpenRow w tenantId productKey time) state) time, ?_, ?_, rfl, ?_,
          ?_, r', hr', hid', hgoverned.trans hnames, hstate, hintent, hself⟩, ?_⟩
      · rw [hwrites.subscriptions]
        exact mem_append_right _ (mem_singleton.mpr rfl)
      · intro z hz heq
        have hlt := hwf.subscriptions.keyed.lt z (by rwa [hsame.subscriptions])
        rw [heq, ← withoutOpenRow_nextId] at hlt
        exact Nat.lt_irrefl _ hlt
      · exact isOpenBase_iff.mpr ⟨htenant.symm, hproduct.symm, rfl⟩
      · simp [isOfProvider, selfServiceRow]
      · obtain ⟨i, hi, hiid⟩ := hwrites.present
        refine ⟨{ i with status := .completed, completedAt := some time }, ?_, hiid, rfl⟩
        rw [hwrites.intents]
        exact mem_updateWhere_of_pos hi (beq_iff_eq.mpr hiid)
    · refine absurd ?_ hgone
      rw [hwrites.subscriptions]
      exact mem_append_left _ hmem

theorem LockedMove.governed_end {checkout : Option CheckoutIntent} {domainOk : Bool}
    (hwf : BillingWf db) (hx : x ∈ db.subscriptions)
    (hgov : isGovernedSubscription x = true)
    (h : LockedMove deps db tenantId productKey state (mapProviderStatus state.providerStatus)
      checkout domainOk time result u)
    (hy : y ∈ u.subscriptions) (hid : y.id = x.id) (hended : y.endedAt.isSome = true) :
    ∃ i, checkout = some i ∧ ((domainOk = true ∧ ∃ plan version,
        ReplacesUnpinned deps db tenantId productKey state time i plan version x) ∨
      ConvertsRow db u productKey state time i x) := by
  have hwf' : BillingWf u := (h.ownStep hwf).wf
  rw [isGovernedSubscription, Bool.and_eq_true, Option.isNone_iff_eq_none, beq_iff_eq] at hgov
  have hgone : x ∉ u.subscriptions := by
    intro hmem
    rw [not_ended_of_mem hwf' hmem hy hid hgov.1] at hended
    cases hended
  cases h with
  | kept same _ _ _ =>
    rw [same.subscriptions] at hgone
    exact absurd hx hgone
  | @updated w row guarded storeTerms same releases free mem provider product isOpen =>
    -- a governed row has no provider, so the updated row is another one
    refine absurd (mem_updateWhere_of_not ?_ ?_) hgone
    · rwa [same.subscriptions]
    · refine beq_eq_false_iff_ne.mpr fun heq => ?_
      obtain rfl := inj_on_of_nodup_map hwf.subscriptions.keyed.nodup hx mem heq
      rw [isOfProvider, Bool.and_eq_true, beq_iff_eq, beq_iff_eq,
        hwf.manual x hx hgov.2] at provider
      cases provider.2
  | @activated w _ i same checkout domain noRow releases granted move =>
    have hstep : OwnStep db w := same.ownStep hwf releases
    refine ⟨i, checkout, ?_⟩
    rcases move.governed_end hstep.wf (by rwa [same.subscriptions]) (by
      rw [isGovernedSubscription, hgov.1, hgov.2]
      rfl) same granted hy hid hended with hunpinned | hconverts
    · exact .inl ⟨domain, hunpinned⟩
    · exact .inr hconverts

/-- Completed conversions insert rows without a provider and change no other. -/
theorem completeAll_appends {ids : List Uuid} {outcomes : List (Uuid × CompletionOutcome)}
    (h : completeAll time ids db = .ok (outcomes, u)) :
    ((∀ x ∈ db.subscriptions, x ∈ u.subscriptions) ∧
      ∀ x ∈ u.subscriptions, x ∈ db.subscriptions ∨ x.billingSubscriptionRef = none) ∧
      u.releases = db.releases ∧ u.intents = db.intents := by
  refine completeAll_induction (I := fun v => ((∀ x ∈ db.subscriptions, x ∈ v.subscriptions) ∧
    ∀ x ∈ v.subscriptions, x ∈ db.subscriptions ∨ x.billingSubscriptionRef = none) ∧
      v.releases = db.releases ∧ v.intents = db.intents)
    ⟨⟨fun _ hx => hx, fun _ hx => .inl hx⟩, rfl, rfl⟩ ?_ h
  rintro u v id - ⟨⟨hrows, hold⟩, hreleases, hintents⟩ hmove -
  refine ⟨?_, hmove.releases.trans hreleases, hmove.intents.trans hintents⟩
  rcases hmove.subscriptions with ⟨hsame, -⟩ | ⟨-, row, hrow, hsame, -⟩
  · rw [hsame]
    exact ⟨hrows, hold⟩
  · rw [hsame]
    refine ⟨fun x hx => mem_append_left _ (hrows x hx), fun x hx => ?_⟩
    rcases (mem_append.mp hx).imp_right mem_singleton.mp with hx | rfl
    · exact hold x hx
    · exact .inr hrow.unlinked

theorem ConvertsRow.of_tables {v : BillingDb} (h : ConvertsRow db v productKey state time intent x)
    (hrows : ∀ y ∈ v.subscriptions, y ∈ u.subscriptions) (hreleases : u.releases = v.releases)
    (hintents : u.intents = v.intents) : ConvertsRow db u productKey state time intent x := by
  obtain ⟨r, hr, hgranted, row, hrow, hfresh, hsource, hopen, hprovider, hreleased⟩ := h.granted
  refine ⟨⟨r, hr, hgranted, row, hrows row hrow, hfresh, hsource, hopen, hprovider, ?_⟩, ?_⟩
  · rwa [hreleases]
  · rw [hintents]
    exact h.completed

theorem applyTx_governed_end {link : Link} {confirmation : Confirmation}
    (hwf : BillingWf db) (hx : x ∈ db.subscriptions) (hgov : isGovernedSubscription x = true)
    (h : applyTx deps db link state productKey confirmation time clock = .ok (result, u))
    (hy : y ∈ u.subscriptions) (hid : y.id = x.id) (hended : y.endedAt.isSome = true) :
    ∃ i, link.intent = some i ∧ ((link.domainOk = true ∧ ∃ plan version,
        ReplacesUnpinned deps db link.tenantId productKey state time i plan version x) ∨
      ConvertsRow db u productKey state time i x) := by
  have hwf' : BillingWf u := (applyTx_ownStep hwf h).wf
  obtain ⟨first, v, hlocked, -, commands, ids, outcomes, hcomplete, -⟩ := applyTx_ok h
  have hmove := applyLocked_move hlocked
  obtain ⟨⟨hrows, -⟩, hreleases, hintents⟩ := completeAll_appends hcomplete
  -- the row was there before the conversions were completed
  obtain ⟨x', hx', hid', -⟩ := (hmove.ownStep hwf).rows.stays x hx
  have hsame : y = x' :=
    inj_on_of_nodup_map hwf'.subscriptions.keyed.nodup hy (hrows x' hx') (hid.trans hid'.symm)
  subst hsame
  obtain ⟨i, hi, hcase⟩ := hmove.governed_end hwf hx hgov hx' hid hended
  refine ⟨i, hi, hcase.imp_right fun hconverts => ?_⟩
  exact hconverts.of_tables hrows hreleases hintents

end GovernedEnd

/-! ## Whole runs -/

/-- What the claims of exclusivity ask of a state. -/
def OneOpenRow (db : BillingDb) : Prop :=
  ∀ x ∈ db.subscriptions, ∀ y ∈ db.subscriptions, x.tenantId = y.tenantId →
    x.productKey = y.productKey → x.endedAt = none → y.endedAt = none → x = y

/-- An open governed row that a step of the lifecycle ends is converted by it. -/
def GovernedEndsConverted (s : LifecycleState) (op : LifecycleOp) (t : LifecycleState) : Prop :=
  op.isOwn → ∀ x ∈ s.db.subscriptions, isGovernedSubscription x = true →
    ∀ y ∈ t.db.subscriptions, y.id = x.id → y.endedAt.isSome = true →
      ∃ call clock c link i, op = .apply call clock ∧ s.calls[call]? = some c ∧
        c.phase = .linked link ∧ link.intent = some i ∧
        ConvertsRow s.db t.db c.productKey c.read c.time i x

theorem LifecycleStep.wf (hwf : BillingWf s.db) (h : LifecycleStep deps ports s op t) :
    BillingWf t.db :=
  ((lifecycleStep_move h).tableStep hwf).1.wf

theorem step_governedEndsConverted (hwf : BillingWf s.db)
    (h : Guarded (LifecycleStep deps ports) (fun s op => ¬EndsGovernedUnpinned deps s op) s op t) :
    GovernedEndsConverted s op t := by
  intro hown x hx hgov y hy hid hended
  obtain ⟨hstep, hguard⟩ := h
  have hopen : x.endedAt = none := by
    rw [isGovernedSubscription, Bool.and_eq_true, Option.isNone_iff_eq_none] at hgov
    exact hgov.1
  have hkept : x ∉ t.db.subscriptions := by
    intro hmem
    rw [not_ended_of_mem (hstep.wf hwf) hmem hy hid hopen] at hended
    cases hended
  cases lifecycleStep_move hstep with
  | calls db _ =>
    rw [db] at hkept
    exact absurd hx hkept
  | @applied call clock c link result _ found phase calls tx =>
    obtain ⟨i, hi, hcase⟩ := applyTx_governed_end hwf hx hgov tx hy hid hended
    rcases hcase with ⟨hdomain, plan, version, hunpinned⟩ | hconverts
    · exact absurd ⟨c, link, i, plan, version, x, found, phase, hi, hdomain, hunpinned, hgov⟩ hguard
    · exact ⟨call, clock, c, link, i, rfl, found, phase, hi, hconverts⟩
  | checkout _ tx =>
    rw [(startCheckoutTx_frame tx).1] at hkept
    exact absurd hx hkept
  | session _ tx =>
    obtain ⟨-, hu⟩ := updateIntent_ok tx
    rw [hu] at hkept
    exact absurd hx hkept
  | expired _ tx =>
    rw [tx] at hkept
    exact absurd hx hkept
  | elsewhere _ _ => exact hown.elim

/-- **Governed and self-service subscriptions are exclusive.** In every state that any order
of the calls reaches, one row of a tenant and a product is open, a step of the lifecycle
leaves every ended row as it is, and a release bound to a checkout stays bound to it. A
step that does not activate a store product without a pin over a governed row ends such a
row by the conversion alone that its release names. -/
theorem subscriptions_exclusive {init : LifecycleState} (hinit : BillingWf init.db) :
    (∀ ops s, Run (LifecycleStep deps ports) init ops s → OneOpenRow s.db ∧
      (∀ op t, LifecycleStep deps ports s op t → op.isOwn → EndedStay s.db t.db) ∧
      ∀ ops' t, Run (LifecycleStep deps ports) s ops' t → ReleasesKept s.db t.db) ∧
    ∀ ops s, Run (Guarded (LifecycleStep deps ports)
        (fun s op => ¬EndsGovernedUnpinned deps s op)) init ops s →
      ∀ op t, Guarded (LifecycleStep deps ports) (fun s op => ¬EndsGovernedUnpinned deps s op)
        s op t → GovernedEndsConverted s op t := by
  have hinv : ∀ s op t, BillingWf s.db → LifecycleStep deps ports s op t → BillingWf t.db :=
    fun _ _ _ hwf hstep => hstep.wf hwf
  constructor
  · intro ops s hrun
    have hwf : BillingWf s.db := hrun.invariant (I := fun s => BillingWf s.db) hinv hinit
    refine ⟨hwf.subscriptions.oneOpen, ?_, ?_⟩
    · intro op t hstep hown
      exact (((lifecycleStep_move hstep).tableStep hwf).2 hown).ended
    · intro ops' t hrun'
      exact hrun'.related (I := fun s => BillingWf s.db) (R := fun s t => ReleasesKept s.db t.db)
        (fun s => .refl s.db) (fun _ _ _ => ReleasesKept.trans) hinv
        (fun _ _ _ hwf hstep => ((lifecycleStep_move hstep).tableStep hwf).1.releases) hwf
  · intro ops s hrun op t hstep
    have hwf : BillingWf s.db :=
      (hrun.mono fun _ _ _ h => h.1).invariant (I := fun s => BillingWf s.db) hinv hinit
    exact step_governedEndsConverted hwf hstep

/-! ## A released conversion -/

/-- The open governed row of tenant 7. -/
def manualRow : TenantSubscription := { freeRow with source := .manual }

def proRelease (held : Option JsString) : ConversionRelease where
  id := 8
  changeRequestId := 9
  tenantId := 7
  productKey := js "sign"
  governedSubscriptionId := 3
  planId := 1
  planVersionId := 2
  heldSubscriptionRef := held
  state := .released
  expiresAt := 100000
  intentId := none
  consumedAt := none
  selfServiceSubscriptionId := none
  convertedAt := none
  expiredAt := none

/-- The governed row with a release to the professional plan, and maybe a checkout of a
store. -/
def releasedState (held : Option JsString) (intents : List CheckoutIntent) : LifecycleState where
  db := { freeWithCheckout .stripe with
    subscriptions := [manualRow], intents := intents, releases := [proRelease held] }
  provider := []
  events := []
  deliveries := []
  calls := []
  checkouts := []
  sessions := []

theorem releasedState_wf (held : Option JsString) (intents : List CheckoutIntent) :
    BillingWf (releasedState held intents).db := by
  refine ⟨⟨⟨by simp [releasedState], ?_⟩, ?_⟩, ?_, ?_, by simp [releasedState], ?_⟩
  · intro x hx
    obtain rfl := mem_singleton.mp hx
    show 3 < 10
    decide
  · intro x hx y hy _ _ _ _
    rw [mem_singleton.mp hx, mem_singleton.mp hy]
  · intro x hx y hy _ _ _ _
    rw [mem_singleton.mp hx, mem_singleton.mp hy]
  · intro x hx _
    obtain rfl := mem_singleton.mp hx
    rfl
  · intro r hr _
    obtain rfl := mem_singleton.mp hr
    rfl

/-- Every port is bound and nothing is refused. -/
def openPorts : CheckoutPorts where
  configured := true
  provider := .stripe
  live := false
  eligible := fun _ _ => true
  terms := fun _ => none
  orgProfile := some fun _ => .ok ()
  domainAuthoritative := fun _ => true
  conversions := true

/-- A checkout under the release and the first event of its subscription. -/
def conversionOps : List LifecycleOp :=
  [.checkCheckout ⟨7, js "sign", js "owner", js "pro", true, some (js "PERSONAL"), 1000⟩,
    .openCheckout 0, .openSession 0 (js "cs_1"),
    .providerMoves { activeState .stripe (js "price_pro") with intentId := some 10 },
    .deliver .stripe (js "evt_1"),
    .retrieve .stripe (js "sub_1") (js "sign") ⟨.webhook, some (js "evt_1")⟩ 3000, .link 0 false]

/-- No call has read a store. -/
def readsNoStore (s : LifecycleState) : Bool :=
  s.calls.all fun c => !isStoreBillingProvider c.read.provider

theorem not_endsGovernedUnpinned_of_readsNoStore {s : LifecycleState} {op : LifecycleOp}
    (h : readsNoStore s = true) : ¬EndsGovernedUnpinned deps s op := by
  cases op with
  | apply call clock =>
    rintro ⟨c, link, intent, plan, version, x, hfound, -, -, -, hunpinned, -⟩
    have hstripe := all_eq_true.mp h c (mem_of_getElem? hfound)
    rw [hunpinned.store] at hstripe
    cases hstripe
  | _ => exact fun h => h

/-- The event of the activation is ready to be applied, and its application ends the row. -/
def endsByConversion (s : LifecycleState) : Bool :=
  readsNoStore s && s.db.subscriptions == [manualRow] &&
    (lifecycleNext boundDeps openPorts s (.apply 0 3000)).any fun t =>
      t.db.subscriptions.map (·.endedAt) == [some 3000, none]

theorem subscriptions_exclusive_conversion : ∃ s t,
    Run (Guarded (LifecycleStep boundDeps openPorts)
        (fun s op => ¬EndsGovernedUnpinned boundDeps s op))
          (releasedState none []) conversionOps s ∧
      (s.db.subscriptions = [manualRow] ∧ t.db.subscriptions.map (·.endedAt) = [some 3000, none]) ∧
      OneOpenRow t.db ∧ GovernedEndsConverted s (.apply 0 3000) t := by
  obtain ⟨s, hrun, hready⟩ := guardedRun_of_exec (lifecycleNext boundDeps openPorts)
    (fun _ _ _ h => h) (fun s op => ¬EndsGovernedUnpinned boundDeps s op)
    (fun s _ => readsNoStore s) (fun _ _ => not_endsGovernedUnpinned_of_readsNoStore)
    (releasedState none []) conversionOps endsByConversion (by decide +kernel)
  simp only [endsByConversion, Bool.and_eq_true, beq_iff_eq, Option.any_eq_true] at hready
  obtain ⟨⟨hstore, hrows⟩, t, hnext, hended⟩ := hready
  obtain ⟨hall, hguarded⟩ :=
    @subscriptions_exclusive boundDeps openPorts _ (releasedState_wf none [])
  have hstep : Guarded (LifecycleStep boundDeps openPorts)
      (fun s op => ¬EndsGovernedUnpinned boundDeps s op) s (.apply 0 3000) t :=
    ⟨hnext, not_endsGovernedUnpinned_of_readsNoStore hstore⟩
  refine ⟨s, t, hrun, ⟨hrows, hended⟩, ?_, hguarded _ _ hrun _ _ hstep⟩
  exact (hall _ _ ((hrun.snoc hstep).mono fun _ _ _ h => h.1)).1

/-- A purchase in the App Store that the governed row holds, released to it. -/
def storeIntent : CheckoutIntent :=
  ⟨4, 7, js "owner", 1, .appStore, none, .created, none, none, none⟩

/-- The subscription moves to a product without a pin and is read again. -/
def unpinnedOps : List LifecycleOp :=
  [.providerMoves (activeState .appStore (js "unpinned")),
    .retrieve .appStore (js "sub_1") (js "sign") ⟨.refetch, none⟩ 3000, .link 0 false]

/-- The application ends the governed row and opens nothing. -/
def endsWithoutRow (s : LifecycleState) : Bool :=
  s.db.subscriptions == [manualRow] &&
    (lifecycleNext boundDeps openPorts s (.apply 0 3000)).any fun t =>
      t.db.subscriptions == [endReplaced 3000 manualRow]

/-- The governed row ends although no self-service row is opened. -/
theorem governed_row_ended_without_conversion :
    ¬ ∀ (deps : BillingDeps) (ports : CheckoutPorts) (init s t : LifecycleState)
        (ops : List LifecycleOp) (op : LifecycleOp), BillingWf init.db →
        Run (LifecycleStep deps ports) init ops s → LifecycleStep deps ports s op t →
        GovernedEndsConverted s op t := by
  intro hclaim
  obtain ⟨s, hrun, hready⟩ := lifecycleRun_of_exec boundDeps openPorts
    (releasedState (some (js "sub_1")) [storeIntent]) unpinnedOps endsWithoutRow (by decide +kernel)
  simp only [endsWithoutRow, Bool.and_eq_true, beq_iff_eq, Option.any_eq_true] at hready
  obtain ⟨hrows, t, hnext, hended⟩ := hready
  have hx : manualRow ∈ s.db.subscriptions := by
    rw [hrows]
    exact mem_singleton.mpr rfl
  have hy : endReplaced 3000 manualRow ∈ t.db.subscriptions := by
    rw [hended]
    exact mem_singleton.mpr rfl
  obtain ⟨call, clock, c, link, i, -, -, -, -, hconverts⟩ := hclaim _ _ _ _ _ _ _
    (releasedState_wf _ _) hrun hnext trivial manualRow hx rfl _ hy rfl rfl
  obtain ⟨r, -, -, row, hrow, -, hsource, -⟩ := hconverts.granted
  rw [hended] at hrow
  obtain rfl := mem_singleton.mp hrow
  exact absurd hsource (by decide)

end AramoPlatform.Billing
