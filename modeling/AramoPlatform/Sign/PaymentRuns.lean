import AramoPlatform.Sign.Payments

/-!
# Calls on one payment, interleaved

The state is the payment row of one PAYMENT field, its refund rows and the
calls that are under way, each with the rows it has read. Two ghost fields
keep what the provider has done: the refunds it has completed, in order, and
how many of them each processed charge report counted.

The result here is about the status: a payment that has been collected stays
collected in every run in which `preparePayment` and `recordFailed` write
only while the payment is still unpaid.
-/

namespace AramoPlatform.Sign

open Js Lib

/-- A refund the provider has completed, asked for by Aramo or made outside
of it. -/
inductive ProviderRefund where
  | internal (refundId : Uuid) (amountMinor : Nat)
  | external (amountMinor : Nat)
  deriving DecidableEq

/-- A call between two of its steps, with what it has read. -/
inductive PaymentCall where
  | preparing (input : PreparePaymentInput) (existing : Option SignPaymentRow)
  | paying (checkout : PaymentCheckoutState)
  | failing
  | refundFound (state : PaymentRefundState) (refundId : Uuid)
  | refunding (state : PaymentRefundState) (refundId : Uuid) (payment : SignPaymentRow)
  | refusing (refundId : Uuid)
  | charging (payment : SignPaymentRow) (charge : PaymentChargeState) (counted : Nat)

abbrev CallId := Nat

structure PaymentState where
  payment : Option SignPaymentRow
  refunds : List SignPaymentRefundRow
  calls : List (CallId × PaymentCall)
  provider : List ProviderRefund
  reports : List Nat

/-- The steps of the calls. `counted` of a charge report is how many of the
provider's refunds its total covers. -/
inductive PaymentAction where
  | prepare (c : CallId) (input : PreparePaymentInput)
  | prepareWrite (c : CallId) (id : Uuid)
  | checkoutStarted (checkout : PaymentCheckoutState)
  | paid (c : CallId) (checkout : PaymentCheckoutState) (accountRef : Option JsString)
  | paidWrite (c : CallId) (now : Nat)
  | failed (c : CallId) (checkout : PaymentCheckoutState)
  | failedWrite (c : CallId)
  | requestRefund (input : RequestRefundInput) (id : Uuid)
  | applyRefund (c : CallId) (state : PaymentRefundState) (fallbackRefundId : Option Uuid)
  | applyRefundRead (c : CallId)
  | applyRefundWrite (c : CallId)
  | refused (c : CallId) (refundId : Uuid)
  | refusedWrite (c : CallId)
  | charge (c : CallId) (charge : PaymentChargeState) (accountRef : Option JsString)
      (counted : Nat)
  | chargeWrite (c : CallId)
  | provider (refund : ProviderRefund)

namespace PaymentState

/-- Before the payer has opened the payment. -/
def initial : PaymentState :=
  { payment := none, refunds := [], calls := [], provider := [], reports := [] }

def call (s : PaymentState) (c : CallId) : Option PaymentCall :=
  (s.calls.find? (·.1 == c)).map Prod.snd

def finish (s : PaymentState) (c : CallId) : PaymentState :=
  { s with calls := s.calls.filter (·.1 != c) }

def start (s : PaymentState) (c : CallId) (k : PaymentCall) : PaymentState :=
  { s with calls := (c, k) :: s.calls.filter (·.1 != c) }

def refund (s : PaymentState) (id : Uuid) : Option SignPaymentRefundRow :=
  s.refunds.find? (·.id == id)

end PaymentState

section Machine

variable (toUpperCase : JsString → JsString)

/-- The writing transaction of `applyRefundState`, on the payment row `read`
before the envelope lock. -/
def applyRefundCommit (s : PaymentState) (p read : SignPaymentRow) (r : SignPaymentRefundRow)
    (state : PaymentRefundState) : PaymentState :=
  if r.status.isFinal then
    if r.refundRef.isNone then
      { s with refunds :=
          updateRefund s.refunds r.id fun r => { r with refundRef := some state.refundRef } }
    else s
  else
    let refunds := updateRefund s.refunds r.id fun r =>
      { r with status := state.status.toRow, refundRef := some state.refundRef }
    if state.status = .succeeded then
      let refunded := min read.amountMinor (read.amountRefundedMinor + r.amountMinor)
      { s with refunds := refunds, payment := some (refundedUpdate p read.amountMinor refunded) }
    else { s with refunds := refunds }

/-- One step. A call that throws, or returns before it writes, takes no step
that changes anything. -/
def paymentStep (s : PaymentState) : PaymentAction → Option PaymentState
  | .prepare c input =>
      match s.payment with
      | none => some (s.start c (.preparing input none))
      | some p =>
          match preparePaymentCheck p input with
          | .ok _ => some (s.start c (.preparing input (some p)))
          | .error _ => none
  | .prepareWrite c id =>
      match s.call c, s.payment with
      | some (.preparing input (some _)), some p =>
          some { s.finish c with payment := some (prepareUpdate p input) }
      | some (.preparing input none), none =>
          some { s.finish c with payment := some (prepareCreate id input) }
      -- the unique index on the field refuses a second row
      | _, _ => none
  | .checkoutStarted checkout =>
      s.payment.map fun p => { s with payment := some (checkoutStartedUpdate p checkout) }
  | .paid c checkout accountRef =>
      if !checkout.paid || checkout.paymentRef.isNone then none
      else
        match checkoutPayment s.payment checkout with
        | none => none
        | some p =>
            match recordPaidCheck toUpperCase p checkout accountRef with
            | .ok _ => some (s.start c (.paying checkout))
            | .error _ => none
  | .paidWrite c now =>
      match s.call c, s.payment with
      | some (.paying checkout), some p =>
          if p.status.isCollected then some (s.finish c)
          else some { s.finish c with payment := some (paidUpdate p checkout now) }
      | _, _ => none
  | .failed c checkout =>
      match checkoutPayment s.payment checkout with
      | none => none
      | some p => if p.status = .pending then some (s.start c .failing) else none
  | .failedWrite c =>
      match s.call c, s.payment with
      | some .failing, some p =>
          some { s.finish c with payment := some { p with status := .failed } }
      | _, _ => none
  | .requestRefund input id =>
      match s.payment with
      | none => none
      | some p =>
          match requestRefundAmount p s.refunds input with
          | .error _ => none
          | .ok amount =>
              if (s.refund id).isSome then none
              else some { s with refunds := s.refunds ++
                [⟨id, amount, .requested, none, input.reason, input.requestedBy⟩] }
  | .applyRefund c state fallbackRefundId =>
      (refundOf s.refunds state fallbackRefundId).map fun r =>
        s.start c (.refundFound state r.id)
  | .applyRefundRead c =>
      match s.call c, s.payment with
      | some (.refundFound state id), some p => some (s.start c (.refunding state id p))
      | _, _ => none
  | .applyRefundWrite c =>
      match s.call c, s.payment with
      | some (.refunding state id read), some p =>
          (s.refund id).map fun r => applyRefundCommit (s.finish c) p read r state
      | _, _ => none
  | .refused c refundId =>
      match s.refund refundId with
      | none => none
      | some r => if r.status = .requested then some (s.start c (.refusing refundId)) else none
  | .refusedWrite c =>
      match s.call c with
      | some (.refusing id) =>
          some { s.finish c with
            refunds := updateRefund s.refunds id fun r => { r with status := .failed } }
      | _ => none
  | .charge c charge accountRef counted =>
      match s.payment with
      | none => none
      | some p =>
          if p.paymentRef = some charge.paymentRef ∧ accountRef.all (· == p.accountRef) then
            if chargeRefunded p charge = p.amountRefundedMinor then
              some { s with reports := counted :: s.reports }
            else some (s.start c (.charging p charge counted))
          else none
  | .chargeWrite c =>
      match s.call c, s.payment with
      | some (.charging read charge counted), some p =>
          some { s.finish c with
            payment := some (refundedUpdate p read.amountMinor (chargeRefunded read charge))
            reports := counted :: s.reports }
      | _, _ => none
  | .provider refund => some { s with provider := s.provider ++ [refund] }

/-! ## A collected payment -/

/-- The money of the field has been collected. -/
def Collected (s : PaymentState) : Prop :=
  ∃ p, s.payment = some p ∧ p.status.isCollected = true

/-- `preparePayment` and `recordFailed` write while the payment is still
unpaid: no `recordPaid` has committed since they read it. -/
def StillUnpaid (s : PaymentState) : PaymentAction → Prop
  | .prepareWrite _ _ | .failedWrite _ => ¬ Collected s
  | _ => True

/-- The step that makes the field's payment ready to be charged. -/
def PreparesCharge : PaymentAction → Prop
  | .prepareWrite _ _ => True
  | _ => False

variable {toUpperCase}

theorem collected_of_payment_eq {s t : PaymentState} (h : Collected s)
    (heq : t.payment = s.payment) : Collected t := by
  obtain ⟨p, hp, hc⟩ := h
  exact ⟨p, heq ▸ hp, hc⟩

theorem collected_applyRefundCommit {s : PaymentState} {p read : SignPaymentRow}
    {r : SignPaymentRefundRow} {state : PaymentRefundState} (h : Collected s) :
    Collected (applyRefundCommit s p read r state) := by
  unfold applyRefundCommit
  dsimp only
  split
  · split
    · exact collected_of_payment_eq h rfl
    · exact h
  · split
    · exact ⟨_, rfl, isCollected_refundedStatus _ _⟩
    · exact collected_of_payment_eq h rfl

/-- **One step keeps the payment collected**, and is not one that prepares a
charge. -/
theorem collected_step {s t : PaymentState} {a : PaymentAction} (hs : Collected s)
    (hstep : paymentStep toUpperCase s a = some t) (hok : StillUnpaid s a) :
    Collected t ∧ ¬ PreparesCharge a := by
  obtain ⟨p, hp, hc⟩ := id hs
  have hkeep : t.payment = s.payment → Collected t := collected_of_payment_eq hs
  cases a with
  | prepareWrite | failedWrite => exact absurd hs hok
  | prepare c input =>
    refine ⟨hkeep ?_, id⟩
    simp only [paymentStep, hp] at hstep
    split at hstep <;> cases hstep
    exact hp ▸ rfl
  | checkoutStarted checkout =>
    simp only [paymentStep, hp, Option.map_some, Option.some.injEq] at hstep
    subst hstep
    exact ⟨⟨_, rfl, hc⟩, id⟩
  | paid | failed | refused | requestRefund | charge | applyRefundRead | refusedWrite =>
    refine ⟨hkeep ?_, id⟩
    simp only [paymentStep] at hstep
    repeat' split at hstep
    all_goals cases hstep
    all_goals rfl
  | paidWrite c now =>
    simp only [paymentStep, hp] at hstep
    split at hstep
    · rename_i heq
      cases heq
      simp only [hc, if_true, Option.some.injEq] at hstep
      subst hstep
      exact ⟨collected_of_payment_eq hs rfl, id⟩
    · cases hstep
  | applyRefund c state fallback =>
    refine ⟨hkeep ?_, id⟩
    simp only [paymentStep, Option.map_eq_some_iff] at hstep
    obtain ⟨r, _, rfl⟩ := hstep
    rfl
  | applyRefundWrite c =>
    simp only [paymentStep] at hstep
    split at hstep
    · simp only [Option.map_eq_some_iff] at hstep
      obtain ⟨r, _, rfl⟩ := hstep
      exact ⟨collected_applyRefundCommit (collected_of_payment_eq hs rfl), id⟩
    · cases hstep
  | chargeWrite c =>
    simp only [paymentStep] at hstep
    split at hstep <;> cases hstep
    exact ⟨⟨_, rfl, isCollected_refundedStatus _ _⟩, id⟩
  | provider refund =>
    simp only [paymentStep, Option.some.injEq] at hstep
    subst hstep
    exact ⟨collected_of_payment_eq hs rfl, id⟩

/-- **A collected payment is never un-paid**, in every run whose unpaid
writes still find it unpaid, and none of its steps prepares a charge. -/
theorem collected_forever (toUpperCase : JsString → JsString) (s t : PaymentState)
    (as : List PaymentAction)
    (hrun : Run (Guarded (fun s a t => paymentStep toUpperCase s a = some t) StillUnpaid) s as t)
    (hs : Collected s) : Collected t ∧ ∀ a ∈ as, ¬ PreparesCharge a := by
  have hkeep := fun s a t (hs : Collected s)
    (hst : Guarded (fun s a t => paymentStep toUpperCase s a = some t) StillUnpaid s a t) =>
      collected_step hs hst.1 hst.2
  exact ⟨hrun.invariant (fun s a t hs hst => (hkeep s a t hs hst).1) hs,
    hrun.forall_label (fun s a t hs hst => (hkeep s a t hs hst).1)
      (fun s a t hs hst => (hkeep s a t hs hst).2) hs⟩

end Machine

/-! ## Concrete runs -/

/-- The PAYMENT field of the examples: 10.00 USD on one account. -/
def tenDollars : PreparePaymentInput :=
  { envelopeId := 1, signerId := 2, fieldId := 3, accountRef := js "acct_1", amountMinor := 1000,
    currency := js "USD", applicationFeeMinor := 0 }

/-- Its paid checkout. -/
def tenDollarCheckout : PaymentCheckoutState :=
  { checkoutRef := js "cs_1", paid := true, paymentRef := some (js "pi_1"), amountMinor := 1000,
    currency := some (js "USD"), paymentId := some 9, live := true }

/-- The payment row once `recordPaid` has committed. -/
def tenDollarsPaid : SignPaymentRow :=
  paidUpdate (prepareCreate 9 tenDollars) tenDollarCheckout 1767603600000

/-- A charge report is applied to the paid payment. -/
theorem collected_forever_charge :
    Collected { PaymentState.initial with
      payment := some (refundedUpdate tenDollarsPaid 1000 300), reports := [1] } := by
  let paid : PaymentState := { PaymentState.initial with payment := some tenDollarsPaid }
  refine (collected_forever id paid _
    [.charge 1 ⟨js "pi_1", 300⟩ none 1, .chargeWrite 1] ?_ ⟨_, rfl, rfl⟩).1
  exact .cons ⟨rfl, trivial⟩ (.cons ⟨rfl, trivial⟩ (.nil _))

/-- `preparePayment` reads the unpaid row, the payer's checkout is recorded,
and the update writes `PENDING` over it. -/
theorem collected_payment_unpaid :
    ¬ ∀ (toUpperCase : JsString → JsString) (s t : PaymentState) (as bs : List PaymentAction),
        Run (fun s a t => paymentStep toUpperCase s a = some t) PaymentState.initial as s →
        Collected s → Run (fun s a t => paymentStep toUpperCase s a = some t) s bs t →
        Collected t ∧ ∀ a ∈ bs, ¬ PreparesCharge a := by
  intro hclaim
  have hpaid : Run (fun s a t => paymentStep id s a = some t) PaymentState.initial
      [.prepare 1 tenDollars, .prepareWrite 1 9, .prepare 2 tenDollars,
        .paid 3 tenDollarCheckout none, .paidWrite 3 1767603600000]
      { PaymentState.initial with
        payment := some tenDollarsPaid
        calls := [(2, .preparing tenDollars (some (prepareCreate 9 tenDollars)))] } :=
    .cons rfl (.cons rfl (.cons rfl (.cons rfl (.cons rfl (.nil _)))))
  obtain ⟨⟨p, hp, hc⟩, _⟩ := hclaim id _
    { PaymentState.initial with payment := some (prepareUpdate tenDollarsPaid tenDollars) } _
    [.prepareWrite 2 9] hpaid ⟨_, rfl, rfl⟩ (.cons rfl (.nil _))
  cases hp
  exact absurd hc (by decide)

end AramoPlatform.Sign
