import AramoPlatform.Sign.OpEffects

/-!
# The outcome of the operations beside signing

Identity attempts, payments, bindings and draft documents; then `run_outcome`
for every operation.
-/

namespace AramoPlatform.Sign

open Js Lib List

section

variable {deps : Deps} {s t u : State} {op : Op}

/-! ## Identity verification -/

/-- What an identity operation does: attempts continue, and a recipient may be
locked out. -/
structure IdentityMoved (op : Op) (s u : State) : Prop where
  status : u.envelope.status = s.envelope.status
  routingMode : u.envelope.routingMode = s.envelope.routingMode
  signers : List.Forall₂ Seen s.signers u.signers
  fields : u.fields = s.fields
  sessions : SessionsFrom (fun _ => False) s u
  acceptances : u.acceptances = s.acceptances
  attempts : AttemptsContinue s u
  payments : u.payments = s.payments
  refunds : u.refunds = s.refunds
  clock : u.clock = s.clock
  events : Appends op s u

theorem IdentityMoved.start (hwf : EngineWf s) : IdentityMoved op s s :=
  ⟨rfl, rfl, seen_refl _, rfl, .start hwf, rfl, .start hwf, rfl, rfl, rfl, .same rfl⟩

theorem IdentityMoved.outcome (h : IdentityMoved op s t) : Outcome op s t :=
  ⟨.ordinary ⟨.inl h.status, h.routingMode, h.signers, h.fields, h.sessions.kept, h.acceptances,
    h.attempts, h.payments, h.refunds, h.clock⟩, h.events⟩

theorem IdentityMoved.appendEvent (h : IdentityMoved op s u)
    {input : AppendEventInput (Option Payload)}
    (hrec : Recorded op s input.signerId input.eventType input.payload) :
    IdentityMoved op s (u.appendEvent deps input) :=
  ⟨h.status, h.routingMode, h.signers, h.fields, h.sessions.congr rfl (Nat.le_refl _),
    h.acceptances, h.attempts.congr rfl (Nat.le_refl _), h.payments, h.refunds, h.clock,
    h.events.record hrec⟩

theorem IdentityMoved.updateAttempt (h : IdentityMoved op s u) {id : Uuid}
    {f : IdentityAttemptRow → IdentityAttemptRow}
    (hf : ∀ x, (f x).id = x.id ∧ (f x).signerId = x.signerId ∧ (f x).method = x.method ∧
      (f x).createdAt = x.createdAt)
    (hsettled : ∀ x ∈ u.attempts, x.id = id → x.status ≠ .pending → (f x).status = x.status) :
    IdentityMoved op s (u.updateAttempt id f) :=
  ⟨h.status, h.routingMode, h.signers, h.fields, h.sessions.congr rfl (Nat.le_refl _),
    h.acceptances, h.attempts.update hf hsettled, h.payments, h.refunds, h.clock,
    h.events.congr rfl⟩

theorem Seen.trans (x y z : SignerRow) (h : Seen x y) (h' : Seen y z) : Seen x z where
  toSlotKept := SlotKept.trans x y z h.toSlotKept h'.toSlotKept
  delegatedAt := h'.delegatedAt.trans h.delegatedAt
  status := by
    rcases h.status with hxy | ⟨hx, hy⟩ <;> rcases h'.status with hyz | ⟨hy', hz⟩
    · exact .inl (hyz.trans hxy)
    · exact .inr ⟨hxy ▸ hy', hz⟩
    · exact .inr ⟨hx, hyz ▸ hy⟩
    · exact .inr ⟨hx, hz⟩

theorem IdentityMoved.lockIn (h : IdentityMoved op s u) (signerId : Uuid) (reason : JsString)
    (started : Option Nat) : IdentityMoved op s (Sign.lockIn deps u signerId reason started) := by
  refine IdentityMoved.appendEvent ?_ (.of_text .identityVerificationLocked rfl ?_)
  case refine_2 => cases started <;> rfl
  refine ⟨h.status, h.routingMode, ?_, h.fields, ?_, h.acceptances,
    h.attempts.congr rfl (Nat.le_refl _), h.payments, h.refunds, h.clock, h.events.congr rfl⟩
  · refine forall₂_trans Seen.trans h.signers (seen_updateSigner ?_)
    exact fun r => ⟨⟨rfl, rfl, rfl, rfl, rfl, rfl⟩, rfl, .inl rfl⟩
  · exact SessionsFrom.congr (h.sessions.revoke (·.signerId == signerId) u.clock) rfl
      (Nat.le_refl _)

section

variable (hwf : EngineWf s)

include hwf

theorem startAttempt_outcome {ctx : SessionContext}
    {method : IdentityVerificationMethod} (h : startAttempt deps s ctx method = .ok t) :
    Outcome op s t := by
  simp only [startAttempt, bind_eq_ok, orThrow_eq_ok, require_eq_ok] at h
  obtain ⟨_, -, signer, -, -, -, h⟩ := h
  split at h
  · obtain rfl := pure_eq_ok.mp h
    exact .same hwf
  · split at h
    · obtain rfl := pure_eq_ok.mp h
      exact ((IdentityMoved.start hwf).lockIn _ _ _).outcome
    · obtain rfl := pure_eq_ok.mp h
      have hinsert : AttemptsContinue s (s.addAttempt
          { id := s.nextId, signerId := ctx.signerId, sessionId := ctx.sessionId
            method := method, vendorReference := none, status := .pending
            failureReason := none, createdAt := s.clock }) :=
        Continues.insert (AttemptsContinue.start hwf) rfl (Nat.le_refl _)
      exact ⟨.ordinary ⟨.inl rfl, rfl, seen_refl _, rfl,
        SessionsFrom.kept ((SessionsFrom.start hwf).congr rfl (Nat.le_succ _)), rfl, hinsert, rfl,
        rfl, rfl⟩, .same rfl⟩

theorem recordVendorSession_outcome {attemptId : Uuid}
    {vendorReference : JsString} {n : Nat} {info : RequestMeta}
    (h : recordVendorSession deps s attemptId vendorReference n info = .ok t) : Outcome op s t := by
  simp only [recordVendorSession, bind_eq_ok, orThrow_eq_ok, pure_eq_ok] at h
  obtain ⟨attempt, -, rfl⟩ := h
  refine (IdentityMoved.appendEvent ?_ (.of_text .identityVerificationStarted rfl rfl)).outcome
  exact (IdentityMoved.start hwf).updateAttempt (fun x => ⟨rfl, rfl, rfl, rfl⟩) fun _ _ _ _ => rfl

theorem cancelAttempt_outcome (attemptId : Uuid) :
    Outcome op s (cancelAttempt s attemptId) := by
  refine ((IdentityMoved.start hwf).updateAttempt (fun x => ?_) ?_).outcome
  · split <;> exact ⟨rfl, rfl, rfl, rfl⟩
  · intro x _ _ hstatus
    rw [if_neg fun h => hstatus h.1]

theorem settleRow_moved {attempt : IdentityAttemptRow}
    (hmem : attempt ∈ s.attempts) (hpending : attempt.status = .pending) {status : AttemptStatus}
    {failureReason : Option JsString} (event : LedgerEvent)
    (hne : (event == .signerSigned || event == .signatureReminderSent) = false)
    {detail : SettledDetail} :
    IdentityMoved op s (settleRow deps s attempt status failureReason event detail) := by
  refine IdentityMoved.appendEvent ?_ (.of_text event hne (settledPayload_text attempt detail))
  refine (IdentityMoved.start hwf).updateAttempt (fun x => ⟨rfl, rfl, rfl, rfl⟩) ?_
  intro x hx hid hstatus
  obtain rfl := inj_on_of_nodup_map hwf.attempts.nodup hx hmem hid
  exact absurd hpending hstatus

end

theorem IdentityMoved.lockIfExhausted (h : IdentityMoved op s u) (attempt : IdentityAttemptRow)
    (signer : SignerRow) : IdentityMoved op s (Sign.lockIfExhausted deps u attempt signer) := by
  unfold Sign.lockIfExhausted
  dsimp only
  split
  · exact h.lockIn _ _ _
  · exact h

theorem settleAttempt_outcome (hwf : EngineWf s) {attemptId : Uuid} {result : VendorResult}
    (h : settleAttempt deps s attemptId result = .ok t) : Outcome op s t := by
  simp only [settleAttempt, bind_eq_ok, orThrow_eq_ok, Option.filter_eq_some_iff] at h
  obtain ⟨attempt, ⟨hfind, -⟩, h⟩ := h
  have hmem : attempt ∈ s.attempts := mem_of_find?_eq_some hfind
  split at h
  · obtain rfl := pure_eq_ok.mp h
    exact .same hwf
  next hpending =>
    have hpending : attempt.status = .pending := by simpa using hpending
    simp only [bind_eq_ok, orThrow_eq_ok] at h
    obtain ⟨signer, -, h⟩ := h
    cases result with
    | verified name country =>
      dsimp only at h
      split at h
      · obtain rfl := pure_eq_ok.mp h
        exact (settleRow_moved hwf hmem hpending .identityVerified rfl).outcome
      · obtain rfl := pure_eq_ok.mp h
        split
        · exact ((settleRow_moved hwf hmem hpending .identityVerificationFailed rfl).lockIn
            _ _ _).outcome
        · exact (settleRow_moved hwf hmem hpending .identityVerificationFailed rfl).outcome
    | failed code =>
      obtain rfl := pure_eq_ok.mp h
      exact ((settleRow_moved hwf hmem hpending .identityVerificationFailed rfl).lockIfExhausted
        _ _).outcome
    | cancelled =>
      obtain rfl := pure_eq_ok.mp h
      exact ((settleRow_moved hwf hmem hpending .identityVerificationCancelled rfl).lockIfExhausted
        _ _).outcome

/-! ## Payments -/

section

variable (hwf : EngineWf s)

include hwf

theorem Effect.of_payment (id : Uuid) {f : SignPaymentRow → SignPaymentRow}
    (hid : ∀ x, (f x).id = x.id) (hfield : ∀ x, (f x).fieldId = x.fieldId)
    (hsame : ∀ x ∈ s.payments, x.id = id →
      (f x).status.isCollected = x.status.isCollected ∧ (f x).paymentRef = x.paymentRef)
    (hpayments : t.payments = updateWhere (·.id == id) f s.payments)
    (hrefunds : ∀ r ∈ t.refunds, ∃ p ∈ s.payments, p.id = r.1 ∧ p.status.isCollected = true)
    (h : CoreSame { s with payments := t.payments, refunds := t.refunds } t) : Effect s op t := by
  have horigin : ∀ x ∈ t.payments, ∃ y ∈ s.payments, x.id = y.id ∧ x.fieldId = y.fieldId ∧
      x.status.isCollected = y.status.isCollected ∧ x.paymentRef = y.paymentRef := by
    intro x hx
    rw [hpayments] at hx
    rcases of_mem_updateWhere hx with ⟨hmem, -⟩ | ⟨y, hmem, hp, rfl⟩
    · exact ⟨x, hmem, rfl, rfl, rfl, rfl⟩
    · exact ⟨y, hmem, hid y, hfield y, hsame y hmem (by simpa using hp)⟩
  refine .paymentMoved ⟨⟨?_, fun x hx => ?_⟩, fun x hx => ?_, fun r hr => ?_⟩ (fun x hx hc => ?_)
    (fun x hx => ?_) h
  · rw [hpayments, map_updateWhere _ hid]
    exact hwf.payments.keyed.nodup
  · obtain ⟨y, hy, hxy, -⟩ := horigin x hx
    exact hxy ▸ Nat.lt_of_lt_of_le (hwf.payments.keyed.lt y hy) h.nextId
  · obtain ⟨y, hy, -, -, hc, href⟩ := horigin x hx
    rw [hc, href, hwf.payments.refs y hy]
  · obtain ⟨p, hp, hpid, hc⟩ := hrefunds r hr
    rw [hpayments]
    exact exists_updateWhere hp (fun _ => ⟨hpid, hc⟩) fun hmatch =>
      ⟨(hid p).trans hpid, (hsame p hp (eq_of_beq hmatch)).1.trans hc⟩
  · obtain ⟨y, hy, -, hf, hcy, -⟩ := horigin x hx
    exact ⟨y, hy, hf.symm, hcy ▸ hc⟩
  · obtain ⟨y, hy, -, hf, -⟩ := horigin x hx
    exact .inl ⟨y, hy, hf.symm⟩

theorem Effect.of_refunds (hpayments : t.payments = s.payments)
    (hrefunds : ∀ r ∈ t.refunds, ∃ p ∈ s.payments, p.id = r.1 ∧ p.status.isCollected = true)
    (h : CoreSame { s with payments := t.payments, refunds := t.refunds } t) : Effect s op t :=
  .of_payment (f := id) hwf s.nextId (fun _ => rfl) (fun _ => rfl) (fun _ _ _ => ⟨rfl, rfl⟩)
    (hpayments.trans (by simp [updateWhere])) hrefunds h

theorem collected_of_refunds (h : t.refunds.map (·.1) = s.refunds.map (·.1)) :
    ∀ r ∈ t.refunds, ∃ p ∈ s.payments, p.id = r.1 ∧ p.status.isCollected = true := by
  intro r hr
  have hkey : r.1 ∈ s.refunds.map (·.1) := h ▸ mem_map_of_mem hr
  obtain ⟨r₀, hr₀, hkey⟩ := mem_map.mp hkey
  obtain ⟨p, hp, hid, hc⟩ := hwf.payments.refunds r₀ hr₀
  exact ⟨p, hp, hid.trans hkey, hc⟩

theorem preparePayment_outcome {input : PreparePaymentInput}
    (h : preparePayment s input = .ok t) : Outcome op s t := by
  simp only [preparePayment, bind_eq_ok, orThrow_eq_ok] at h
  obtain ⟨field, hfield, h⟩ := h
  split at h
  next existing hfind =>
    simp only [bind_eq_ok, pure_eq_ok] at h
    obtain ⟨_, hcheck, rfl⟩ := h
    have hdue : existing.status.isCollected = false := by
      cases hc : preparePaymentCheck existing input with
      | error e => simp [hc, Except.mapError] at hcheck
      | ok u =>
        simp only [preparePaymentCheck, bind_eq_ok, require_eq_ok] at hc
        obtain ⟨-, hnot, -⟩ := hc
        simpa using hnot
    refine ⟨.of_payment hwf existing.id (f := (prepareUpdate · input)) (fun _ => rfl)
      (fun _ => rfl) (fun x hx hid => ?_) rfl hwf.payments.refunds (CoreSame.refl _), .same rfl⟩
    obtain rfl := inj_on_of_nodup_map hwf.payments.keyed.nodup hx
      (mem_of_find?_eq_some hfind) hid
    exact ⟨hdue.symm, rfl⟩
  · obtain rfl := pure_eq_ok.mp h
    have hmatch := find?_some hfield
    simp only [Bool.and_eq_true, beq_iff_eq] at hmatch
    obtain ⟨⟨hid, -⟩, hpay⟩ := hmatch
    refine ⟨.paymentMoved ⟨hwf.payments.keyed.insert rfl, fun x hx => ?_, fun r hr => ?_⟩
      (fun x hx hc => ?_) (fun x hx => ?_)
      ⟨rfl, rfl, rfl, rfl, rfl, rfl, rfl, rfl, rfl, rfl, Nat.le_succ _⟩, .same rfl⟩
    · rcases (mem_append.mp hx).imp_right mem_singleton.mp with hx | rfl
      · exact hwf.payments.refs x hx
      · rfl
    · obtain ⟨p, hp, hpr⟩ := hwf.payments.refunds r hr
      exact ⟨p, mem_append_left _ hp, hpr⟩
    · rcases (mem_append.mp hx).imp_right mem_singleton.mp with hx | rfl
      · exact ⟨x, hx, rfl, hc⟩
      · simp [prepareCreate, SignPaymentStatus.isCollected] at hc
    · rcases (mem_append.mp hx).imp_right mem_singleton.mp with hx | rfl
      · exact .inl ⟨x, hx, rfl⟩
      · exact .inr ⟨field, mem_of_find?_eq_some hfield, hid, hpay⟩

end

variable {checkout : PaymentCheckoutState}

theorem recordCheckoutStarted_outcome (hwf : EngineWf s) {paymentId : Uuid}
    (h : recordCheckoutStarted deps s paymentId checkout = .ok t) : Outcome op s t := by
  simp only [recordCheckoutStarted, bind_eq_ok, orThrow_eq_ok, pure_eq_ok] at h
  obtain ⟨payment, -, rfl⟩ := h
  exact ⟨.of_payment hwf paymentId (f := (checkoutStartedUpdate · checkout)) (fun _ => rfl)
    (fun _ => rfl) (fun _ _ _ => ⟨rfl, rfl⟩) rfl hwf.payments.refunds
    ⟨rfl, rfl, rfl, rfl, rfl, rfl, rfl, rfl, rfl, rfl, Nat.le_refl _⟩,
    .one (.of_text .paymentCheckoutStarted rfl rfl) rfl⟩

theorem mem_of_paymentOfCheckout {payment : SignPaymentRow}
    (h : paymentOfCheckout s checkout = some payment) : payment ∈ s.payments := by
  unfold paymentOfCheckout at h
  cases hbyId : checkout.paymentId.bind fun id => s.payments.find? (·.id == id) with
  | some p =>
    rw [hbyId] at h
    obtain rfl : p = payment := by simpa using h
    obtain ⟨id, -, hfind⟩ := Option.bind_eq_some_iff.mp hbyId
    exact mem_of_find?_eq_some hfind
  | none =>
    rw [hbyId] at h
    exact mem_of_find?_eq_some (by simpa using h)

theorem recordFailed_outcome (hwf : EngineWf s) (checkout : PaymentCheckoutState) :
    Outcome op s (recordFailed deps s checkout) := by
  unfold recordFailed
  split
  · exact .same hwf
  next payment hfound =>
    obtain ⟨hfound, hpending⟩ := Option.filter_eq_some_iff.mp hfound
    refine ⟨.of_payment hwf payment.id (f := fun p => { p with status := .failed })
      (fun _ => rfl) (fun _ => rfl) (fun x hx hid => ⟨?_, rfl⟩) rfl hwf.payments.refunds
      ⟨rfl, rfl, rfl, rfl, rfl, rfl, rfl, rfl, rfl, rfl, Nat.le_refl _⟩,
      .one (.of_text .paymentFailed rfl rfl) rfl⟩
    obtain rfl := inj_on_of_nodup_map hwf.payments.keyed.nodup hx
      (mem_of_paymentOfCheckout hfound) hid
    have hstatus : x.status = .pending := by simpa using hpending
    simp [hstatus, SignPaymentStatus.isCollected]

theorem paidRows_events {payment : SignPaymentRow} :
    Appends op s (paidRows deps s payment checkout) := by
  refine .one (.of_text .paymentSucceeded rfl ?_) ?_
  · cases hreference : checkout.paymentRef <;> cases s.envelope.status.isTerminal <;>
      simp only [systemEvent, paidPayload, hreference, if_true,
        Bool.false_eq_true, if_false] <;> rfl
  · split <;> rfl

theorem recordPaid_outcome (hwf : EngineWf s)
    {accountRef : Option JsString} (h : recordPaid deps s checkout accountRef = .ok t) :
    Outcome op s t := by
  unfold recordPaid at h
  split at h
  · obtain rfl := pure_eq_ok.mp h
    exact .same hwf
  next hpaid =>
    simp only [Bool.or_eq_true, Bool.not_eq_true', Option.isNone_iff_eq_none, not_or] at hpaid
    split at h
    · obtain rfl := pure_eq_ok.mp h
      exact .same hwf
    next payment hfound =>
      simp only [bind_eq_ok] at h
      obtain ⟨_, -, h⟩ := h
      split at h
      · obtain rfl := pure_eq_ok.mp h
        exact .same hwf
      next hdue =>
        obtain rfl := pure_eq_ok.mp h
        refine ⟨.paid (n := fun f => { f with
            value := some (paymentReceiptText payment.amountMinor payment.currency)
            signatureMethod := none, filledAt := some s.clock })
          (mem_of_paymentOfCheckout hfound) (by simpa using hdue)
          (Option.isSome_iff_ne_none.mpr hpaid.2) (fun x => ⟨⟨rfl, rfl, rfl⟩, rfl⟩)
          (coreSame_appendEvent _), paidRows_events⟩

/-! ## Refunds -/

theorem mapError_eq_ok {ε ε' α : Type} {f : ε → ε'} {x : Except ε α} {a : α}
    (h : x.mapError f = .ok a) : x = .ok a := by
  cases x with
  | error e => simp [Except.mapError] at h
  | ok b => simpa [Except.mapError] using h

section

variable (hwf : EngineWf s)

include hwf

theorem requestRefund_outcome {paymentId : Uuid} {input : RequestRefundInput}
    (h : requestRefund deps s paymentId input = .ok t) : Outcome op s t := by
  simp only [requestRefund, bind_eq_ok, orThrow_eq_ok, pure_eq_ok] at h
  obtain ⟨payment, hfind, amount, hamount, rfl⟩ := h
  have hid : payment.id = paymentId := by simpa using find?_some hfind
  have hcollected : payment.status.isCollected = true := by
    have hamount := mapError_eq_ok hamount
    simp only [requestRefundAmount, bind_eq_ok, require_eq_ok] at hamount
    obtain ⟨-, hstatus, -⟩ := hamount
    simp only [Bool.or_eq_true, beq_iff_eq] at hstatus
    rcases hstatus with hstatus | hstatus <;> rw [hstatus] <;> rfl
  refine ⟨.of_refunds hwf rfl (fun r hr => ?_)
    ⟨rfl, rfl, rfl, rfl, rfl, rfl, rfl, rfl, rfl, rfl, Nat.le_succ _⟩,
    .one (.of_text .paymentRefundRequested rfl rfl) rfl⟩
  rcases (mem_append.mp hr).imp_right mem_singleton.mp with hr | rfl
  · exact hwf.payments.refunds r hr
  · exact ⟨payment, mem_of_find?_eq_some hfind, hid, hcollected⟩

theorem collected_of_refundAndPayment {state : PaymentRefundState}
    {fallback : Option Uuid} {refund : SignPaymentRefundRow} {payment : SignPaymentRow}
    (h : refundAndPayment s state fallback = some (refund, payment)) :
    payment ∈ s.payments ∧ payment.status.isCollected = true := by
  simp only [refundAndPayment, Option.bind_eq_some_iff, Option.map_eq_some_iff, Prod.mk.injEq] at h
  obtain ⟨_, -, found, ⟨r, hr, hfind⟩, rfl, rfl⟩ := h
  have hmem := mem_of_find?_eq_some hfind
  obtain ⟨p, hp, hpid, hc⟩ := hwf.payments.refunds r (mem_of_find?_eq_some hr)
  have hid : found.id = r.1 := by simpa using find?_some hfind
  rw [inj_on_of_nodup_map hwf.payments.keyed.nodup hp hmem (hpid.trans hid.symm)] at hc
  exact ⟨hmem, hc⟩

theorem applyRefundState_outcome (state : PaymentRefundState)
    (fallback : Option Uuid) : Outcome op s (applyRefundState deps s state fallback) := by
  unfold applyRefundState
  split
  · exact .same hwf
  next refund payment hfound =>
    obtain ⟨hmem, hcollected⟩ := collected_of_refundAndPayment hwf hfound
    split
    · exact ⟨.of_refunds hwf rfl (collected_of_refunds hwf (map_updateWhere _ fun _ => rfl))
        ⟨rfl, rfl, rfl, rfl, rfl, rfl, rfl, rfl, rfl, rfl, Nat.le_succ _⟩, .same rfl⟩
    · dsimp only
      split
      · exact ⟨.of_refunds hwf rfl (collected_of_refunds hwf (map_updateWhere _ fun _ => rfl))
          ⟨rfl, rfl, rfl, rfl, rfl, rfl, rfl, rfl, rfl, rfl, Nat.le_succ _⟩, .same rfl⟩
      · split
        · refine ⟨.of_payment hwf payment.id
            (f := (refundedUpdate · payment.amountMinor
              (min payment.amountMinor (payment.amountRefundedMinor + refund.amountMinor))))
            (fun _ => rfl) (fun _ => rfl) (fun x hx hid => ⟨?_, rfl⟩) rfl
            (collected_of_refunds hwf (map_updateWhere _ fun _ => rfl))
            ⟨rfl, rfl, rfl, rfl, rfl, rfl, rfl, rfl, rfl, rfl, Nat.le_succ _⟩,
            .one (.of_text .paymentRefunded rfl rfl) rfl⟩
          obtain rfl := inj_on_of_nodup_map hwf.payments.keyed.nodup hx hmem hid
          rw [hcollected]
          exact isCollected_refundedStatus _ _
        · exact ⟨.of_refunds hwf rfl (collected_of_refunds hwf (map_updateWhere _ fun _ => rfl))
            ⟨rfl, rfl, rfl, rfl, rfl, rfl, rfl, rfl, rfl, rfl, Nat.le_succ _⟩,
            .one (.of_text .paymentRefundFailed rfl rfl) rfl⟩

theorem refundRefused_outcome {refundId : Uuid} {reason : JsString}
    (h : refundRefused deps s refundId reason = .ok t) : Outcome op s t := by
  simp only [refundRefused, bind_eq_ok, orThrow_eq_ok] at h
  obtain ⟨row, -, h⟩ := h
  split at h
  · obtain rfl := pure_eq_ok.mp h
    exact .same hwf
  · simp only [bind_eq_ok, orThrow_eq_ok, pure_eq_ok] at h
    obtain ⟨payment, -, rfl⟩ := h
    exact ⟨.of_refunds hwf rfl (collected_of_refunds hwf (map_updateWhere _ fun _ => rfl))
      ⟨rfl, rfl, rfl, rfl, rfl, rfl, rfl, rfl, rfl, rfl, Nat.le_succ _⟩,
      .one (.of_text .paymentRefundFailed rfl rfl) rfl⟩

theorem applyChargeRefunds_outcome (charge : PaymentChargeState)
    (accountRef : Option JsString) : Outcome op s (applyChargeRefunds s charge accountRef) := by
  unfold applyChargeRefunds
  split
  · exact .same hwf
  next payment hfound =>
    split
    · exact .same hwf
    · obtain ⟨hfind, -⟩ := Option.filter_eq_some_iff.mp hfound
      have hmem : payment ∈ s.payments := mem_of_find?_eq_some hfind
      have href : payment.paymentRef = some charge.paymentRef := by
        simpa using find?_some hfind
      refine ⟨.of_payment hwf payment.id
        (f := (refundedUpdate · payment.amountMinor (chargeRefunded payment charge)))
        (fun _ => rfl) (fun _ => rfl) (fun x hx hid => ⟨?_, rfl⟩) rfl hwf.payments.refunds
        (CoreSame.refl _), .same rfl⟩
      obtain rfl := inj_on_of_nodup_map hwf.payments.keyed.nodup hx hmem hid
      rw [← hwf.payments.refs x hmem, href]
      exact isCollected_refundedStatus _ _

end

/-! ## Drafts, intents and bindings -/

theorem addDraftDocument_outcome (hwf : EngineWf s) {actorRef title : JsString}
    {source : DocumentSource} (h : addDraftDocument deps s actorRef title source = .ok t) :
    Outcome op s t := by
  simp only [addDraftDocument, bind_eq_ok, pure_eq_ok] at h
  obtain ⟨_, -, rfl⟩ := h
  exact ⟨.ordinary (CoreSame.ordinary hwf
    ⟨rfl, rfl, rfl, rfl, rfl, rfl, rfl, rfl, rfl, rfl, Nat.le_succ _⟩),
    .one (.of_text .documentAttached rfl rfl) rfl⟩

theorem removeDraftDocument_outcome {actorRef : JsString} {documentId : Uuid}
    (h : removeDraftDocument deps s actorRef documentId = .ok t) : Outcome op s t := by
  simp only [removeDraftDocument, bind_eq_ok, orThrow_eq_ok, pure_eq_ok, assertDraft,
    require_eq_ok, beq_iff_eq] at h
  obtain ⟨_, ⟨-, -, hdraft⟩, doc, -, rfl⟩ := h
  exact ⟨.fieldsRemoved (p := (·.envelopeDocumentId != documentId)) hdraft
    ⟨rfl, rfl, rfl, rfl, rfl, rfl, rfl, rfl, rfl, rfl, Nat.le_refl _⟩,
    .one (.of_text .documentRemoved rfl rfl) rfl⟩

theorem Outcome.of_others (hwf : EngineWf s) {documents : List DocumentRow}
    {bindings : List BindingRow} {deliveries : List DeliveryRow} {qes : List QesRow} {next : Uuid}
    (hnext : s.nextId ≤ next) : Outcome op s
      { s with
        documents := documents, bindings := bindings, deliveries := deliveries, qes := qes
        nextId := next } :=
  ⟨.ordinary (CoreSame.ordinary hwf ⟨rfl, rfl, rfl, rfl, rfl, rfl, rfl, rfl, rfl, rfl, hnext⟩),
    .same rfl⟩

theorem bind_outcome (hwf : EngineWf s) (input : BindInput) : Outcome op s (Sign.bind s input) := by
  unfold Sign.bind
  dsimp only
  split
  · exact .of_others hwf (Nat.le_succ _)
  · exact .of_others hwf (Nat.le_succ _)

/-! ## Every operation -/

theorem run_outcome (hwf : EngineWf s) (h : op.run deps s = .ok t) : Outcome op s t := by
  cases op with
  | send full actorRef now => exact send_outcome hwf h
  | exchangeToken id => exact exchangeToken_outcome hwf h
  | acceptDisclosure ctx input => exact acceptDisclosure_outcome h
  | verifyRecipientAccessCode id entered info => exact verifyRecipientAccessCode_outcome hwf h
  | delegateSigner ctx input => exact delegateSigner_outcome h
  | fillField ctx fieldId input => exact fillField_outcome h
  | completeSigner ctx attested => exact completeSigner_outcome h
  | decline signerId reason sessionId => exact decline_outcome h
  | voidEnvelope actorRef reason => exact voidEnvelope_outcome h
  | expireEnvelope => exact expireEnvelope_outcome h
  | remindSigner actorRef signerId limits now => exact remindSigner_outcome hwf h
  | issueHostedSession signerId host now => exact issueHostedSession_outcome hwf h
  | issueSelfSignSession userId email signerId now => exact issueSelfSignSession_outcome hwf h
  | issueRevalidatedRecipientSession userId bindingId now =>
    exact issueRevalidatedRecipientSession_outcome hwf h
  | issueDiscoveredRecipientSession userId signerId proof now =>
    exact issueDiscoveredRecipientSession_outcome hwf h
  | claimIntent | finishIntent | setQes =>
    cases h
    exact .of_others hwf (Nat.le_refl _)
  | issueInvitation signerId now => exact issueInvitation_outcome hwf h
  | startAttempt ctx method => exact startAttempt_outcome hwf h
  | recordVendorSession id reference n info => exact recordVendorSession_outcome hwf h
  | cancelAttempt id =>
    cases h
    exact cancelAttempt_outcome hwf id
  | settleAttempt id result => exact settleAttempt_outcome hwf h
  | preparePayment input => exact preparePayment_outcome hwf h
  | recordCheckoutStarted id checkout => exact recordCheckoutStarted_outcome hwf h
  | recordPaid checkout accountRef => exact recordPaid_outcome hwf h
  | recordFailed checkout =>
    cases h
    exact recordFailed_outcome hwf checkout
  | requestRefund id input => exact requestRefund_outcome hwf h
  | applyRefundState state fallback =>
    cases h
    exact applyRefundState_outcome hwf state fallback
  | refundRefused id reason => exact refundRefused_outcome hwf h
  | applyChargeRefunds charge accountRef =>
    cases h
    exact applyChargeRefunds_outcome hwf charge accountRef
  | addDraftDocument actorRef title source => exact addDraftDocument_outcome hwf h
  | removeDraftDocument actorRef id => exact removeDraftDocument_outcome h
  | bind input =>
    cases h
    exact bind_outcome hwf input
  | revokeBinding userId id =>
    cases h
    exact .of_others hwf (Nat.le_succ _)

end

end AramoPlatform.Sign
