import AramoPlatform.Billing.Exclusive

/-!
# The order of the provider reads

The read of a sync happens before its transaction and outside the lock, so
transactions need not commit in the order of their reads. Where they do, the
open row of a subscription shows the latest read that was applied.
-/

namespace AramoPlatform.Billing

open Js Lib Subscription List

variable {deps : BillingDeps} {ports : CheckoutPorts} {db u : BillingDb} {s t : LifecycleState}
  {op : LifecycleOp}

/-! ## What a row shows -/

/-- The row of the provider subscription that a call has read, in the product of the call. -/
def IsRowOf (state : ProviderSubscriptionState) (productKey : ProductKey)
    (x : TenantSubscription) : Prop :=
  isOfProvider state.provider state.subscriptionRef x = true ∧ x.productKey = productKey

/-- Neither activation guard holds the state. -/
def GuardsPass (deps : BillingDeps) (state : ProviderSubscriptionState) (domainOk : Bool) : Prop :=
  (isStoreBillingProvider state.provider || billingCountrySupported deps state.accountCountry) =
    true ∧ domainOk = true

/-- The columns of a row are those of a read. A guard that fails may withhold the status. -/
structure Shows (deps : BillingDeps) (state : ProviderSubscriptionState) (domainOk : Bool)
    (x : TenantSubscription) : Prop where
  periodEnd : x.currentPeriodEnd = some state.currentPeriodEnd
  cancel : x.cancelAtPeriodEnd = state.cancelAtPeriodEnd
  status : GuardsPass deps state domainOk →
    x.status = (mapProviderStatus state.providerStatus).status

/-! ## One transaction -/

section Transaction

variable {state : ProviderSubscriptionState} {tenantId : Uuid} {productKey : ProductKey}
  {time clock : Nat} {result : ApplyResult} {x : TenantSubscription}

theorem eq_of_isOfProvider {y : TenantSubscription} (hwf : BillingWf db) (hx : x ∈ db.subscriptions)
    (hy : y ∈ db.subscriptions)
    (h : isOfProvider state.provider state.subscriptionRef x = true)
    (h' : isOfProvider state.provider state.subscriptionRef y = true) : x = y := by
  simp only [isOfProvider, Bool.and_eq_true, beq_iff_eq] at h h'
  refine hwf.refs x hx y hy ?_ ?_ (h.1.trans h'.1.symm) (h.2.trans h'.2.symm)
  · rw [h.1]
    rfl
  · rw [h.2]
    rfl

/-- What a transaction makes of the open rows: an open row afterwards has no provider, or
is an open row from before of another subscription, or shows the read of the transaction
and its subscription had no ended row. -/
def OpenRowsAfter (deps : BillingDeps) (db u : BillingDb) (state : ProviderSubscriptionState)
    (productKey : ProductKey) (domainOk : Bool) : Prop :=
  ∀ x ∈ u.subscriptions, x.endedAt = none → x.billingSubscriptionRef = none ∨
    (x ∈ db.subscriptions ∧ ¬IsRowOf state productKey x) ∨
      IsRowOf state productKey x ∧ Shows deps state domainOk x ∧
        ∀ y ∈ db.subscriptions, IsRowOf state productKey y → y.endedAt = none

theorem updatedRow_shows {guarded domainOk : Bool} {pin : Option PriceResolution}
    {storeTerms : Option StoreTerms}
    (hfree : GuardsPass deps state domainOk → guarded = false) :
    Shows deps state domainOk (updatedRow deps state (mapProviderStatus state.providerStatus)
      (isWithheld x (mapProviderStatus state.providerStatus) guarded time) pin
        storeTerms time x) := by
  refine ⟨rfl, rfl, ?_⟩
  intro hpass
  rw [hfree hpass, isWithheld, Bool.false_and, Bool.false_and]
  rfl

theorem LockedMove.openRowsAfter {checkout : Option CheckoutIntent} {domainOk : Bool}
    (hwf : BillingWf db)
    (h : LockedMove deps db tenantId productKey state (mapProviderStatus state.providerStatus)
      checkout domainOk time result u) :
    OpenRowsAfter deps db u state productKey domainOk := by
  intro x hx hopen
  cases h with
  | kept same _ _ ended =>
    rw [same.subscriptions] at hx
    refine .inr (.inl ⟨hx, ?_⟩)
    rintro ⟨hprovider, hproduct⟩
    -- the lookup finds a row of the subscription, which is this one
    cases hfind : db.subscriptions.find? (fun x =>
        isOfProvider state.provider state.subscriptionRef x && x.productKey == productKey) with
    | none =>
      refine find?_eq_none.mp hfind x hx ?_
      rw [hprovider, hproduct, beq_self_eq_true, Bool.and_self]
    | some row =>
      have hrow := find?_some hfind
      rw [Bool.and_eq_true] at hrow
      obtain rfl := eq_of_isOfProvider hwf (mem_of_find?_eq_some hfind) hx hrow.1 hprovider
      have hended := ended row hfind
      rw [hopen] at hended
      cases hended
  | @updated w row guarded storeTerms same releases free mem provider product isOpen =>
    rcases of_mem_updateWhere hx with ⟨hx, hid⟩ | ⟨y, hy, hid, rfl⟩
    · rw [same.subscriptions] at hx
      refine .inr (.inl ⟨hx, ?_⟩)
      rintro ⟨hprovider, -⟩
      obtain rfl := eq_of_isOfProvider hwf hx mem hprovider provider
      simp at hid
    · rw [same.subscriptions] at hy
      obtain rfl := inj_on_of_nodup_map hwf.subscriptions.keyed.nodup hy
        mem (by simpa using hid)
      refine .inr (.inr ⟨⟨provider, product⟩, updatedRow_shows fun hpass =>
        free hpass.1 hpass.2, ?_⟩)
      rintro z hz ⟨hprovider, -⟩
      rw [eq_of_isOfProvider hwf hz mem hprovider provider, isOpen]
  | @activated w _ i same checkout domain noRow releases granted move =>
    have hkept : x ∈ db.subscriptions → x.billingSubscriptionRef = none ∨
        (x ∈ db.subscriptions ∧ ¬IsRowOf state productKey x) ∨
          IsRowOf state productKey x ∧ Shows deps state domainOk x ∧
            ∀ y ∈ db.subscriptions, IsRowOf state productKey y → y.endedAt = none :=
      fun hmem => .inr (.inl ⟨hmem, fun hrow => noRow x hmem hrow.1 hrow.2⟩)
    have hended : x ∈ (withoutOpenRow w tenantId productKey time).subscriptions →
        x ∈ db.subscriptions := by
      intro hmem
      rw [withoutOpenRow_of_same same, withoutOpenRow] at hmem
      split at hmem
      · rcases of_mem_updateWhere hmem with ⟨hmem, -⟩ | ⟨y, -, -, rfl⟩
        · exact hmem
        · cases hopen
      · exact hmem
    cases move with
    | refused _ =>
      rw [same.subscriptions] at hx
      exact hkept hx
    | unpinned _ _ _ => exact hkept (hended hx)
    | opened ready pinned outcome writes =>
      rw [(openReplacement_ok writes).subscriptions, mem_append, mem_singleton] at hx
      rcases hx with hx | rfl
      · exact hkept (hended hx)
      · refine .inr (.inr ⟨⟨?_, rfl⟩, ⟨rfl, rfl, fun _ => rfl⟩, ?_⟩)
        · simp [isOfProvider, selfServiceRow]
        · intro y hy hrow
          exact absurd hrow.2 (noRow y hy hrow.1)

theorem applyTx_openRowsAfter {link : Link} {confirmation : Confirmation} (hwf : BillingWf db)
    (h : applyTx deps db link state productKey confirmation time clock = .ok (result, u)) :
    OpenRowsAfter deps db u state productKey link.domainOk := by
  obtain ⟨first, v, hlocked, -, commands, ids, outcomes, hcomplete, -⟩ := applyTx_ok h
  obtain ⟨⟨-, hold⟩, -, -⟩ := completeAll_appends hcomplete
  intro x hx hopen
  rcases hold x hx with hx | hunlinked
  · exact (applyLocked_move hlocked).openRowsAfter hwf x hx hopen
  · exact .inl hunlinked

end Transaction

/-! ## Elsewhere -/

/-- The columns that the rest of the platform leaves in an open row. -/
structure SameBilling (y x : TenantSubscription) : Prop where
  provider : x.billingProvider = y.billingProvider
  ref : x.billingSubscriptionRef = y.billingSubscriptionRef
  product : x.productKey = y.productKey
  status : x.status = y.status
  periodEnd : x.currentPeriodEnd = y.currentPeriodEnd
  cancel : x.cancelAtPeriodEnd = y.cancelAtPeriodEnd

variable {x : TenantSubscription}

theorem elsewhere_open_rows {e : ElsewhereOp} (h : elsewhere db e = some u)
    (hx : x ∈ u.subscriptions) (hopen : x.endedAt = none) :
    x.billingSubscriptionRef = none ∨
      ∃ y ∈ db.subscriptions, y.endedAt = none ∧ SameBilling y x := by
  have hkept : x ∈ db.subscriptions → x.billingSubscriptionRef = none ∨
      ∃ y ∈ db.subscriptions, y.endedAt = none ∧ SameBilling y x :=
    fun hmem => .inr ⟨x, hmem, hopen, rfl, rfl, rfl, rfl, rfl, rfl⟩
  cases e with
  | rowOpens row =>
    by_cases hrow : isUnlinkedRow db row = true
    · rw [elsewhere, if_pos hrow] at h
      simp only [isUnlinkedRow, Bool.and_eq_true, Option.isNone_iff_eq_none] at hrow
      cases hinsert : db.insertSubscription row with
      | error e =>
        rw [hinsert] at h
        cases h
      | ok v =>
        rw [hinsert] at h
        obtain rfl : v = u := Option.some.inj h
        obtain ⟨-, rfl⟩ := insertSubscription_ok hinsert
        rcases (mem_append.mp hx).imp_right mem_singleton.mp with hx | rfl
        · exact hkept hx
        · exact .inl hrow.2
    · rw [elsewhere, if_neg hrow] at h
      cases h
  | governedEnds id time =>
    simp only [elsewhere] at h
    split at h
    · cases h
      rcases of_mem_updateWhere hx with ⟨hx, -⟩ | ⟨y, -, -, rfl⟩
      · exact hkept hx
      · cases hopen
    · cases h
  | governedRepinned id planId planVersionId =>
    simp only [elsewhere] at h
    split at h
    · cases h
      rcases of_mem_updateWhere hx with ⟨hx, -⟩ | ⟨y, hy, -, rfl⟩
      · exact hkept hx
      · exact .inr ⟨y, hy, hopen, rfl, rfl, rfl, rfl, rfl, rfl⟩
    · cases h
  | eligibilityRefreshed id eligibility time =>
    cases h
    rcases of_mem_updateWhere hx with ⟨hx, -⟩ | ⟨y, hy, -, rfl⟩
    · exact hkept hx
    · exact .inr ⟨y, hy, hopen, rfl, rfl, rfl, rfl, rfl, rfl⟩
  | released | storeIntent =>
    simp only [elsewhere] at h
    split at h
    · cases h
      exact hkept hx
    · cases h
  | releaseExpires r time =>
    cases h
    rw [(expireInTx_same r).subscriptions] at hx
    exact hkept hx
  | catalogChanges | usageChanges | queueChanges =>
    cases h
    exact hkept hx

/-! ## Runs -/

/-- Two calls have read one provider subscription, for one product. -/
def SameSubscription (c d : SyncCall) : Prop :=
  c.read.provider = d.read.provider ∧ c.read.subscriptionRef = d.read.subscriptionRef ∧
    c.productKey = d.productKey

/-- The committed call of its subscription with the latest read: calls are listed in the
order of their reads. -/
def LatestApplied (calls : List SyncCall) (i : Nat) (c : SyncCall) (link : Link) : Prop :=
  AppliedAt calls i c link ∧ ∀ j d link', i < j → AppliedAt calls j d link' → ¬SameSubscription c d

/-- Every open row shows the latest read that was applied to its subscription. -/
def ShowsLatest (deps : BillingDeps) (s : LifecycleState) : Prop :=
  ∀ x ∈ s.db.subscriptions, x.endedAt = none → ∀ i c link, LatestApplied s.calls i c link →
    IsRowOf c.read c.productKey x → Shows deps c.read link.domainOk x

/-- A transaction commits before every transaction whose call read the subscription later,
or finds the row of the subscription ended. -/
def InReadOrder (s : LifecycleState) : LifecycleOp → Prop
  | .apply call _ => ∀ c, s.calls[call]? = some c →
      (∃ x ∈ s.db.subscriptions, IsRowOf c.read c.productKey x ∧ x.endedAt.isSome = true) ∨
        ∀ j d link, call < j → AppliedAt s.calls j d link → ¬SameSubscription c d
  | _ => True

variable {state : ProviderSubscriptionState}

theorem IsRowOf.ref_isSome {productKey : ProductKey}
    (h : IsRowOf state productKey x) : x.billingSubscriptionRef ≠ none := by
  have hprovider := h.1
  simp only [isOfProvider, Bool.and_eq_true, beq_iff_eq] at hprovider
  rw [hprovider.2]
  simp

theorem IsRowOf.same {c d : SyncCall} (h : IsRowOf c.read c.productKey x)
    (h' : IsRowOf d.read d.productKey x) : SameSubscription c d := by
  obtain ⟨hc, hproduct⟩ := h
  obtain ⟨hd, hproduct'⟩ := h'
  simp only [isOfProvider, Bool.and_eq_true, beq_iff_eq] at hc hd
  exact ⟨Option.some.inj (hc.1.symm.trans hd.1), Option.some.inj (hc.2.symm.trans hd.2),
    hproduct.symm.trans hproduct'⟩

theorem IsRowOf.of_sameBilling {productKey : ProductKey}
    {x y : TenantSubscription} (h : IsRowOf state productKey x) (hsame : SameBilling y x) :
    IsRowOf state productKey y := by
  refine ⟨?_, hsame.product.symm.trans h.2⟩
  rw [isOfProvider, ← hsame.provider, ← hsame.ref]
  exact h.1

theorem Shows.of_sameBilling {domainOk : Bool}
    {x y : TenantSubscription} (h : Shows deps state domainOk y) (hsame : SameBilling y x) :
    Shows deps state domainOk x :=
  ⟨hsame.periodEnd.trans h.periodEnd, hsame.cancel.trans h.cancel,
    fun hpass => hsame.status.trans (h.status hpass)⟩

theorem ShowsLatest.of_rows (h : ShowsLatest deps s) (hcalls : SameApplied s.calls t.calls)
    (hrows : ∀ x ∈ t.db.subscriptions, x.endedAt = none → x.billingSubscriptionRef = none ∨
      ∃ y ∈ s.db.subscriptions, y.endedAt = none ∧ SameBilling y x) : ShowsLatest deps t := by
  intro x hx hopen i c link hlatest hrow
  rcases hrows x hx hopen with hnone | ⟨y, hy, hopen', hsame⟩
  · exact absurd hnone hrow.ref_isSome
  · refine (h y hy hopen' i c link ?_ (hrow.of_sameBilling hsame)).of_sameBilling hsame
    refine ⟨(hcalls i c link).mp hlatest.1, ?_⟩
    intro j d link' hlt hd
    exact hlatest.2 j d link' hlt ((hcalls j d link').mpr hd)

theorem step_showsLatest (hwf : BillingWf s.db) (hshows : ShowsLatest deps s)
    (h : Guarded (LifecycleStep deps ports) InReadOrder s op t) : ShowsLatest deps t := by
  obtain ⟨hstep, horder⟩ := h
  have hsame : t.db.subscriptions = s.db.subscriptions → SameApplied s.calls t.calls →
      ShowsLatest deps t := by
    intro hrows hcalls
    refine hshows.of_rows hcalls ?_
    intro x hx hopen
    rw [hrows] at hx
    exact .inr ⟨x, hx, hopen, rfl, rfl, rfl, rfl, rfl, rfl⟩
  cases lifecycleStep_move hstep with
  | calls db calls => exact hsame (by rw [db]) calls
  | checkout calls tx =>
    exact hsame (startCheckoutTx_frame tx).1 (by rw [calls]; exact .refl _)
  | session calls tx =>
    obtain ⟨-, hu⟩ := updateIntent_ok tx
    exact hsame (by rw [hu]) (by rw [calls]; exact .refl _)
  | expired calls tx => exact hsame (by rw [tx]; rfl) (by rw [calls]; exact .refl _)
  | elsewhere calls write =>
    refine hshows.of_rows (by rw [calls]; exact .refl _) ?_
    intro x hx hopen
    exact elsewhere_open_rows write hx hopen
  | @applied call clock c link result _ found phase calls tx =>
    have hlt : call < s.calls.length := (List.getElem?_eq_some_iff.mp found).1
    intro x hx hopen i d link' hlatest hrow
    rw [calls] at hlatest
    obtain ⟨happlied, hlast⟩ := hlatest
    rw [appliedAt_set hlt] at happlied
    rcases applyTx_openRowsAfter hwf tx x hx hopen with
      hnone | ⟨hmem, hother⟩ | ⟨hmine, hshown, hnoEnded⟩
    · exact absurd hnone hrow.ref_isSome
    · -- a row of another subscription: the call that committed does not concern it
      rcases happlied with ⟨rfl, rfl, -⟩ | ⟨-, hbefore⟩
      · exact absurd hrow hother
      · refine hshows x hmem hopen i d link' ⟨hbefore, ?_⟩ hrow
        intro j e link'' hj he
        refine hlast j e link'' hj ((appliedAt_set hlt).mpr (.inr ⟨?_, he⟩))
        rintro rfl
        obtain rfl : c = e := Option.some.inj (found.symm.trans he.1)
        rw [he.2] at phase
        cases phase
    · -- the row of the call: no call with a later read has committed
      rcases happlied with ⟨-, rfl, hphase⟩ | ⟨hne, hbefore⟩
      · obtain rfl : link = link' := CallPhase.applied.inj hphase
        exact hshown
      · exfalso
        have hcommitted : AppliedAt (s.calls.set call { c with phase := .applied link }) call
            { c with phase := .applied link } link := (appliedAt_set hlt).mpr (.inl ⟨rfl, rfl, rfl⟩)
        rcases Nat.lt_or_gt_of_ne hne with hearlier | hlater
        · exact hlast call _ link hearlier hcommitted (hrow.same hmine)
        · rcases horder c found with ⟨y, hy, hyrow, hended⟩ | hfirst
          · rw [hnoEnded y hy hyrow] at hended
            cases hended
          · exact hfirst i d link' hlater hbefore (hmine.same hrow)

/-- Every call is over, and none threw. -/
def AllFinished (s : LifecycleState) : Prop :=
  ∀ c ∈ s.calls, c.phase = .refused ∨ ∃ link, c.phase = .applied link

/-- The latest read of its subscription, past the reads that were refused before they
reached the tables. -/
def LatestRead (calls : List SyncCall) (i : Nat) (c : SyncCall) : Prop :=
  calls[i]? = some c ∧ c.phase ≠ .refused ∧
    ∀ j d, i < j → calls[j]? = some d → d.phase ≠ .refused → ¬SameSubscription c d

/-- The open row of a subscription is left as it is, or takes a read that is later than
every read it has taken before. -/
def NoOlderWrite (s : LifecycleState) (op : LifecycleOp) (t : LifecycleState) : Prop :=
  ∀ call clock c, op = .apply call clock → s.calls[call]? = some c → ∀ x ∈ s.db.subscriptions,
    x.endedAt = none → IsRowOf c.read c.productKey x →
      t.db = s.db ∨ ∀ j d link, AppliedAt s.calls j d link → SameSubscription c d → j < call

theorem step_noOlderWrite (hwf : BillingWf s.db)
    (h : Guarded (LifecycleStep deps ports) InReadOrder s op t) : NoOlderWrite s op t := by
  rintro call clock c rfl found x hx hopen hrow
  obtain ⟨hstep, horder⟩ := h
  cases lifecycleStep_move hstep with
  | calls db _ => exact .inl db
  | @applied _ _ c' link _ _ found' phase calls tx =>
    obtain rfl : c' = c := Option.some.inj (found'.symm.trans found)
    refine .inr ?_
    intro j d link' hd hsame
    rcases horder c' found with ⟨y, hy, hyrow, hended⟩ | hfirst
    · -- an ended row of the subscription would be this open one
      rw [eq_of_isOfProvider hwf hy hx hyrow.1 hrow.1, hopen] at hended
      cases hended
    · rcases Nat.lt_trichotomy j call with hlt | rfl | hgt
      · exact hlt
      · obtain rfl : d = c' := Option.some.inj (hd.1.symm.trans found)
        rw [hd.2] at phase
        cases phase
      · exact absurd hsame (hfirst j d link' hgt hd)

/-- **A row never goes back to an older provider state.** In every run in which the
transactions of a subscription commit in the order of their reads, an open row shows the
latest read that was applied; so once every call is over it shows the latest read. -/
theorem latest_read_shown {init : LifecycleState} (hinit : BillingWf init.db)
    (hidle : init.calls = []) :
    ∀ ops s, Run (Guarded (LifecycleStep deps ports) InReadOrder) init ops s →
      (∀ op t, Guarded (LifecycleStep deps ports) InReadOrder s op t → NoOlderWrite s op t) ∧
      ShowsLatest deps s ∧
      (AllFinished s → ∀ x ∈ s.db.subscriptions, x.endedAt = none → ∀ i c, LatestRead s.calls i c →
        IsRowOf c.read c.productKey x → ∃ link, c.phase = .applied link ∧
          Shows deps c.read link.domainOk x) := by
  intro ops s hrun
  have hinv : BillingWf s.db ∧ ShowsLatest deps s := by
    refine hrun.invariant (I := fun s => BillingWf s.db ∧ ShowsLatest deps s) ?_ ⟨hinit, ?_⟩
    · rintro a op b ⟨hwf, hshows⟩ hstep
      exact ⟨hstep.1.wf hwf, step_showsLatest hwf hshows hstep⟩
    · intro x _ _ i c link hlatest
      have hnone := hlatest.1.1
      rw [hidle] at hnone
      cases hnone
  refine ⟨fun op t hstep => step_noOlderWrite hinv.1 hstep, hinv.2, ?_⟩
  intro hfinished x hx hopen i c hlatest hrow
  obtain ⟨hfound, hphase, hlast⟩ := hlatest
  rcases hfinished c (mem_of_getElem? hfound) with hrefused | ⟨link, happlied⟩
  · exact absurd hrefused hphase
  · refine ⟨link, happlied, hinv.2 x hx hopen i c link ⟨⟨hfound, happlied⟩, ?_⟩ hrow⟩
    intro j d link' hlt hd
    refine hlast j d hlt hd.1 ?_
    rw [hd.2]
    intro hcontra
    cases hcontra

/-! ## Two deliveries -/

/-- The checkout is activated, and read again before and after its owner cancels. -/
def deliveries (first second : Nat) : List LifecycleOp :=
  [.providerMoves (activeState .stripe (js "price_pro")),
    .retrieve .stripe (js "sub_1") (js "sign") ⟨.refetch, none⟩ 1500, .link 0 false, .apply 0 1500,
    .retrieve .stripe (js "sub_1") (js "sign") ⟨.refetch, none⟩ 1600, .link 1 false,
    .providerMoves { activeState .stripe (js "price_pro") with cancelAtPeriodEnd := true },
    .retrieve .stripe (js "sub_1") (js "sign") ⟨.refetch, none⟩ 1700, .link 2 false,
    .apply first 1800, .apply second 1900]

def checkoutState : LifecycleState where
  db := freeWithCheckout .stripe
  provider := []
  events := []
  deliveries := []
  calls := []
  checkouts := []
  sessions := []

theorem checkoutState_wf : BillingWf checkoutState.db := by
  refine ⟨freeWithCheckout_wf .stripe, ?_, ?_, by simp [checkoutState, freeWithCheckout], ?_⟩
  · intro x hx y hy _ _ _ _
    rw [mem_singleton.mp hx, mem_singleton.mp hy]
  · intro x hx _
    obtain rfl := mem_singleton.mp hx
    rfl
  · intro r hr
    cases hr

def CallPhase.isApplied : CallPhase → Bool
  | .applied _ => true
  | _ => false

/-- No call after this one has committed. -/
def commitsInOrder (s : LifecycleState) : LifecycleOp → Bool
  | .apply call _ => (s.calls.drop (call + 1)).all fun c => !c.phase.isApplied
  | _ => true

theorem inReadOrder_of_commitsInOrder {s : LifecycleState} {op : LifecycleOp}
    (h : commitsInOrder s op = true) : InReadOrder s op := by
  cases op with
  | apply call clock =>
    refine fun c _ => .inr ?_
    intro j d link hlt hd
    have hmem : d ∈ s.calls.drop (call + 1) := by
      rw [mem_iff_getElem?]
      refine ⟨j - (call + 1), ?_⟩
      rw [getElem?_drop, Nat.add_sub_cancel' hlt]
      exact hd.1
    have hnot := all_eq_true.mp h d hmem
    rw [hd.2] at hnot
    cases hnot
  | _ => trivial

/-- Three calls are over, the last of them on the cancelled subscription, and the open row
of the subscription shows this cancel. -/
def lastReadCancels (cancelled : Bool) (s : LifecycleState) : Bool :=
  s.calls.length == 3 && s.calls.all (·.phase.isApplied) &&
    (s.calls[2]?).any (fun c => c.productKey == js "sign" &&
      c.read == { activeState .stripe (js "price_pro") with cancelAtPeriodEnd := true }) &&
    s.db.subscriptions.any fun x => x.endedAt.isNone && isOfProvider .stripe (js "sub_1") x &&
      x.productKey == js "sign" && x.cancelAtPeriodEnd == cancelled

theorem latest_read_shown_in_order : ∃ s,
    Run (Guarded (LifecycleStep boundDeps openPorts) InReadOrder) checkoutState (deliveries 1 2) s ∧
      lastReadCancels true s = true ∧ ShowsLatest boundDeps s := by
  obtain ⟨s, hrun, hlast⟩ := guardedRun_of_exec (lifecycleNext boundDeps openPorts)
    (fun _ _ _ h => h) InReadOrder commitsInOrder (fun _ _ => inReadOrder_of_commitsInOrder)
    checkoutState (deliveries 1 2) (lastReadCancels true) (by decide +kernel)
  exact ⟨s, hrun, hlast, (latest_read_shown checkoutState_wf rfl _ _ hrun).2.1⟩

/-- The delivery that read first commits last and takes the cancel back. -/
theorem older_read_written :
    ¬ ∀ (deps : BillingDeps) (ports : CheckoutPorts) (init s : LifecycleState)
        (ops : List LifecycleOp), BillingWf init.db → init.calls = [] →
        Run (LifecycleStep deps ports) init ops s → ShowsLatest deps s := by
  intro hclaim
  obtain ⟨s, hrun, hlast⟩ := lifecycleRun_of_exec boundDeps openPorts checkoutState
    (deliveries 2 1) (lastReadCancels false) (by decide +kernel)
  simp only [lastReadCancels, Bool.and_eq_true, beq_iff_eq, Option.any_eq_true, any_eq_true,
    all_eq_true, Option.isNone_iff_eq_none] at hlast
  obtain ⟨⟨⟨hlength, happlied⟩, c, hfound, hproduct, hread⟩, x, hx, ⟨⟨hopen, hprovider⟩, hproduct'⟩,
    hcancel⟩ := hlast
  have hphase := happlied c (mem_of_getElem? hfound)
  cases hc : c.phase with
  | applied link =>
    have hshows := hclaim _ _ _ _ _ checkoutState_wf rfl hrun x hx hopen 2 c link
      ⟨⟨hfound, hc⟩, ?_⟩ ⟨?_, ?_⟩
    · have hlatest := hshows.cancel
      rw [hcancel, hread] at hlatest
      cases hlatest
    · intro j d link' hlt hd
      have hj : j < s.calls.length := (List.getElem?_eq_some_iff.mp hd.1).1
      omega
    · rw [hread]
      exact hprovider
    · rw [hproduct, hproduct']
  | _ =>
    rw [hc] at hphase
    cases hphase

end AramoPlatform.Billing
