import AramoPlatform.Billing.Activation

/-!
# Holds and grace

What the provider states of one subscription do to its row, one after the
other. A hold never lets a row send that did not. A failed payment grants a
grace; a later state keeps it or clears it, and a state that is past due again
after it was cleared grants a new one.
-/

namespace AramoPlatform.Billing

open Js Lib Subscription

/-- The row of a subscription, at the time of the last state applied to it. -/
structure AppliedRow where
  row : TenantSubscription
  time : Nat

/-- One call of `updateRow`: the tables it finds, the state, the guards that
fail and the clocks. -/
structure RowUpdate where
  db : BillingDb
  state : ProviderSubscriptionState
  held : JsString
  time : Nat
  clock : Nat

/-- `subscriptionSends` on the row. -/
def AppliedRow.sends (s : AppliedRow) (time : Nat) : Bool :=
  subscriptionSends s.row.status s.row.graceUntil time

namespace RowUpdate

def mapped (u : RowUpdate) : MappedStatus := mapProviderStatus u.state.providerStatus

def withheld (u : RowUpdate) (row : TenantSubscription) : Bool :=
  isWithheld row u.mapped (u.held != []) u.time

end RowUpdate

/-- The row after a call that commits. Times do not decrease. -/
def updateNext (deps : BillingDeps) (s : AppliedRow) (u : RowUpdate) : Option AppliedRow :=
  if s.time ≤ u.time ∧ u.db.subscription? s.row.id = some s.row then
    match updateRow deps u.db s.row u.state u.mapped u.held u.time u.clock with
    | .ok (_, db) => (db.subscription? s.row.id).map fun row => ⟨row, u.time⟩
    | .error _ => none
  else none

def UpdateStep (deps : BillingDeps) (s : AppliedRow) (u : RowUpdate) (t : AppliedRow) : Prop :=
  updateNext deps s u = some t

/-- An active row meets the state of a failed payment. -/
structure FailedPayment (s : AppliedRow) (u : RowUpdate) : Prop where
  isOpen : s.row.endedAt = none
  active : s.row.status = .active
  stripe : u.state.provider = .stripe
  store : u.state.store = none
  pastDue : u.mapped.status = .pastDue

/-- A state of Stripe that is not active. -/
structure Unrecovered (u : RowUpdate) : Prop where
  stripe : u.state.provider = .stripe
  store : u.state.store = none
  status : u.mapped.status ≠ .active

/-- A past-due state finds the row past due and with its grace, unless a guard
withholds it. -/
def GraceStands (s : AppliedRow) (u : RowUpdate) : Prop :=
  u.mapped.grace = true → u.withheld s.row = false →
    s.row.status = .pastDue ∧ s.row.graceUntil.isSome = true

/-- Whatever grace the row has, it ends by then. -/
def GraceWithin (stop : Nat) (s : AppliedRow) : Prop := ∀ g, s.row.graceUntil = some g → g ≤ stop

variable {deps : BillingDeps} {s t : AppliedRow} {u : RowUpdate}

/-! ## One call -/

/-- A call leaves an ended row as it is and writes the columns of the state to an open one. -/
theorem updateStep_cases (h : UpdateStep deps s u t) :
    s.row.endedAt.isSome = true ∧ t.row = s.row ∨ ∃ pin storeTerms,
      t.row = updatedRow deps u.state u.mapped (u.withheld s.row) pin storeTerms u.time s.row := by
  unfold UpdateStep updateNext at h
  split at h
  next hfound =>
    obtain ⟨-, hfound⟩ := hfound
    split at h
    next result db hupdate =>
      obtain ⟨row, hrow, rfl⟩ := Option.map_eq_some_iff.mp h
      rcases updateRow_ok hupdate with ⟨hended, -, rfl⟩ | ⟨-, storeTerms, rfl⟩
      · left
        exact ⟨hended, Option.some.inj (hrow.symm.trans hfound)⟩
      · right
        have hfind : (updateWhere (·.id == s.row.id) (updatedRow deps u.state u.mapped
            (u.withheld s.row) (repinTarget u.db.catalog s.row u.state) storeTerms u.time)
            u.db.subscriptions).find? (·.id == s.row.id) = _ :=
          find?_updateWhere fun _ => rfl
        have hold : u.db.subscriptions.find? (·.id == s.row.id) = some s.row := hfound
        rw [hold] at hfind
        refine ⟨repinTarget u.db.catalog s.row u.state, storeTerms,
          Option.some.inj (hrow.symm.trans (hfind.trans ?_))⟩
        simp
    next => cases h
  next => cases h

theorem not_sends_of_not_sending {status : SubscriptionStatus} {grace : Option Nat} {time : Nat}
    (h : isSending status = false) : subscriptionSends status grace time = false := by
  cases status <;> first | rfl | cases h

section

variable (h : UpdateStep deps s u t)

include h

theorem updateStep_held (hheld : u.held ≠ [])
    (hsends : s.sends u.time = false) : t.sends u.time = false := by
  rcases updateStep_cases h with ⟨-, hrow⟩ | ⟨pin, storeTerms, hrow⟩
  · unfold AppliedRow.sends at hsends ⊢
    rw [hrow]
    exact hsends
  · cases hwithheld : u.withheld s.row with
    | true =>
      -- the guard keeps the status and the grace
      have hkept : t.row.status = s.row.status ∧ t.row.graceUntil = s.row.graceUntil := by
        rw [hrow, hwithheld]
        exact ⟨rfl, rfl⟩
      unfold AppliedRow.sends at hsends ⊢
      rw [hkept.1, hkept.2]
      exact hsends
    | false =>
      -- nothing is withheld, so the state is not a sending one
      have hstatus : isSending u.mapped.status = false := by
        have hrow' : subscriptionSends s.row.status s.row.graceUntil u.time = false := hsends
        simpa [RowUpdate.withheld, isWithheld, hheld, hrow'] using hwithheld
      have hwritten : t.row.status = u.mapped.status := by
        rw [hrow, hwithheld]
        rfl
      unfold AppliedRow.sends
      rw [hwritten]
      exact not_sends_of_not_sending hstatus

theorem updateStep_granted (hfailed : FailedPayment s u)
    (hgrace : u.mapped.grace = true) :
    t.row.graceUntil = some (u.time + deps.graceDays * 86400000) := by
  rcases updateStep_cases h with ⟨hended, -⟩ | ⟨pin, storeTerms, hwritten⟩
  · simp [hfailed.isOpen] at hended
  · have hwithheld : u.withheld s.row = false := by
      simp [RowUpdate.withheld, isWithheld, hfailed.active, subscriptionSends]
    have hwrites : t.row.graceUntil = graceUntilOf deps s.row u.mapped u.state false u.time := by
      rw [hwritten, hwithheld]
      rfl
    rw [hwrites]
    simp [graceUntilOf, hgrace, hfailed.store, hfailed.active]

theorem updateStep_within {stop : Nat} (hstore : u.state.store = none)
    (hstands : GraceStands s u) (hwithin : GraceWithin stop s) : GraceWithin stop t := by
  intro g hg
  rcases updateStep_cases h with ⟨-, hsame⟩ | ⟨pin, storeTerms, hwritten⟩
  · exact hwithin g (hsame ▸ hg)
  · have hgrace : graceUntilOf deps s.row u.mapped u.state (u.withheld s.row) u.time = some g := by
      rw [← hg, hwritten]
      rfl
    unfold graceUntilOf at hgrace
    cases hwithheld : u.withheld s.row with
    | true =>
      rw [hwithheld] at hgrace
      exact hwithin g hgrace
    | false =>
      cases hpastDue : u.mapped.grace with
      | false =>
        rw [hwithheld, hpastDue] at hgrace
        cases hgrace
      | true =>
        obtain ⟨hstatus, hsome⟩ := hstands hpastDue hwithheld
        simp only [hwithheld, hpastDue, hstore, hstatus, hsome] at hgrace
        exact hwithin g hgrace

end

/-! ## Runs -/

theorem run_within {stop : Nat} {us : List RowUpdate}
    (h : Run (Guarded (UpdateStep deps) fun s u => Unrecovered u ∧ GraceStands s u) s us t)
    (hwithin : GraceWithin stop s) : GraceWithin stop t := by
  refine h.invariant ?_ hwithin
  intro a v b hwithin hstep
  obtain ⟨hstep, hunrecovered, hstands⟩ := hstep
  exact updateStep_within hstep hunrecovered.store hstands hwithin

/-- **Holds and grace are bounded.** Under a hold, a row that does not send does
not send after the state. And when an active subscription of Stripe has failed
to pay, and no state makes it active again, then from the first grace on no
grace ends later, if every past-due state finds the grace standing. -/
theorem holds_and_grace_bounded (deps : BillingDeps) :
    (∀ s u t, UpdateStep deps s u t → s.row.endedAt = none → u.held ≠ [] →
      s.sends u.time = false → t.sends u.time = false) ∧
    ∀ s u t, FailedPayment s u → UpdateStep deps s u t →
      (u.mapped.grace = true → t.row.graceUntil = some (u.time + deps.graceDays * 86400000)) ∧
      ∀ us x granted, Run (Guarded (UpdateStep deps) fun _ u => Unrecovered u) t us x →
        x.row.graceUntil = some granted →
        ∀ vs y, Run (Guarded (UpdateStep deps) fun s u => Unrecovered u ∧ GraceStands s u) x vs y →
          GraceWithin granted y := by
  constructor
  · intro s u t h _ hheld hsends
    exact updateStep_held h hheld hsends
  · intro s u t hfailed h
    refine ⟨updateStep_granted h hfailed, fun us x granted _ hgranted vs y hrun => ?_⟩
    apply run_within hrun
    intro g hg
    rw [hgranted] at hg
    exact Nat.le_of_eq (Option.some.inj hg).symm

/-- A row of a self-service subscription of Stripe. -/
def stripeRow (status : SubscriptionStatus) (graceUntil readAt : Option Nat) : TenantSubscription :=
  { freeRow with
    planId := 1
    planVersionId := 2
    source := .selfService
    status := status
    billingProvider := some .stripe
    billingAccountRef := some (js "acc_1")
    billingSubscriptionRef := some (js "sub_1")
    currentPeriodEnd := some 2000
    graceUntil := graceUntil
    providerStateAt := readAt }

/-- A state of that subscription meets the row. -/
def stripeUpdate (row : TenantSubscription) (providerStatus held : JsString) (time : Nat) :
    RowUpdate where
  db := { freeWithCheckout .stripe with subscriptions := [row] }
  state := { activeState .stripe (js "price_pro") with providerStatus := providerStatus }
  held := held
  time := time
  clock := time

/-- The grace of the first failed payment. -/
def firstGrace : Nat := 1000 + 7 * 86400000

theorem failedPayment_active :
    FailedPayment ⟨stripeRow .active none none, 0⟩
      (stripeUpdate (stripeRow .active none none) (js "past_due") [] 1000) :=
  ⟨rfl, rfl, rfl, rfl, rfl⟩

theorem unrecovered_stripeUpdate {row : TenantSubscription} {providerStatus : JsString} {time : Nat}
    (h : (mapProviderStatus providerStatus).status ≠ .active) :
    Unrecovered (stripeUpdate row providerStatus [] time) :=
  ⟨rfl, rfl, h⟩

/-- A second past-due state keeps the grace of the first, and a held row stays incomplete. -/
theorem holds_and_grace_bounded_twice :
    (∃ x us, Run (Guarded (UpdateStep boundDeps) fun s u => Unrecovered u ∧ GraceStands s u)
        ⟨stripeRow .pastDue (some firstGrace) (some 1000), 1000⟩ us x ∧
      us.length = 1 ∧ x.row.graceUntil = some firstGrace ∧ GraceWithin firstGrace x) ∧
      (AppliedRow.mk (stripeRow .incomplete none (some 1000)) 1000).sends 1000 = false := by
  constructor
  · have hagain : Run (Guarded (UpdateStep boundDeps) fun s u => Unrecovered u ∧ GraceStands s u)
        ⟨stripeRow .pastDue (some firstGrace) (some 1000), 1000⟩
        [stripeUpdate (stripeRow .pastDue (some firstGrace) (some 1000)) (js "past_due") [] 2000]
        ⟨stripeRow .pastDue (some firstGrace) (some 2000), 2000⟩ :=
      .cons ⟨rfl, unrecovered_stripeUpdate (by decide), fun _ _ => ⟨rfl, rfl⟩⟩ (.nil _)
    have hbounded := (holds_and_grace_bounded boundDeps).2 _ _
      ⟨stripeRow .pastDue (some firstGrace) (some 1000), 1000⟩ failedPayment_active rfl
    exact ⟨_, _, hagain, rfl, rfl, hbounded.2 [] _ firstGrace (.nil _) rfl _ _ hagain⟩
  · exact (holds_and_grace_bounded boundDeps).1 ⟨stripeRow .incomplete none none, 0⟩
      (stripeUpdate (stripeRow .incomplete none none) (js "active") billingCountryHeld 1000) _
      rfl rfl (by decide) rfl

/-- Past due, unpaid, past due: the second grace ends later than the first. -/
theorem grace_granted_again :
    ¬ ∀ (deps : BillingDeps) (s t x : AppliedRow) (u : RowUpdate) (us : List RowUpdate)
        (granted : Nat), FailedPayment s u → UpdateStep deps s u t →
        t.row.graceUntil = some granted →
        Run (Guarded (UpdateStep deps) fun _ u => Unrecovered u) t us x →
          GraceWithin granted x := by
  intro hclaim
  have hunpaid : UpdateStep boundDeps
      ⟨stripeRow .pastDue (some firstGrace) (some 1000), 1000⟩
      (stripeUpdate (stripeRow .pastDue (some firstGrace) (some 1000)) (js "unpaid") [] 2000)
      ⟨stripeRow .pastDue none (some 2000), 2000⟩ := rfl
  have hagain : UpdateStep boundDeps ⟨stripeRow .pastDue none (some 2000), 2000⟩
      (stripeUpdate (stripeRow .pastDue none (some 2000)) (js "past_due") [] 3000)
      ⟨stripeRow .pastDue (some (firstGrace + 2000)) (some 3000), 3000⟩ := rfl
  have hle := hclaim boundDeps _ _ _ _ _ firstGrace failedPayment_active rfl rfl
    (.cons ⟨hunpaid, unrecovered_stripeUpdate (by decide)⟩
      (.cons ⟨hagain, unrecovered_stripeUpdate (by decide)⟩ (.nil _)))
    (firstGrace + 2000) rfl
  omega

end AramoPlatform.Billing
