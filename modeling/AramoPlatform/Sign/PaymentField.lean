import AramoPlatform.Sign.Lifecycle

/-!
# A collected payment and its field

`recordPaid` fills the field of the payment it collects, and no fill of a
signer reaches a PAYMENT field. Delegation clears every field of the slot,
though, and leaves the payments alone: the delegate then holds an unfilled
PAYMENT field whose payment `preparePayment` refuses as already made.

The field of a collected payment stays filled in every run in which no slot
with such a field is delegated.
-/

namespace AramoPlatform.Sign

open Js Lib List

/-- What `preparePayment` answers for a payment that has been collected. -/
def paymentAlreadyCompleted : EsignError :=
  .payment ⟨js "payment_already_completed", js "This payment has already been made"⟩

/-- The field of a paid payment is filled, and `payment_required` is never
reported for a payment that cannot be made again. -/
structure PaidNeverBlocks (s : State) : Prop where
  filled : ∀ p ∈ s.payments, p.status = .paid →
    ∀ f ∈ s.fields, f.id = p.fieldId → f.filledAt.isSome = true
  payable : ∀ signerId v, evaluateSignerFieldRules
      (s.fields.filter (·.signerId == some signerId)) = some v → v.reason = .paymentRequired →
    ∀ input, v.fieldId = some input.fieldId →
      preparePayment s input ≠ .error paymentAlreadyCompleted

/-- A delegation takes no slot with a collected PAYMENT field. -/
def KeepsPaidFields (s : State) (call : Call) : Prop :=
  match call.op with
  | .delegateSigner ctx _ => ∀ p ∈ s.payments, p.status.isCollected = true →
      ∀ f ∈ s.fields, f.id = p.fieldId → f.signerId ≠ some ctx.signerId
  | _ => True

variable {deps : Deps} {s t u : State} {op : Op}

/-! ## The invariant -/

def PaidFilled (s : State) : Prop :=
  s.envelope.status.isTerminal = false → ∀ p ∈ s.payments, p.status.isCollected = true →
    ∀ f ∈ s.fields, f.id = p.fieldId → f.filledAt.isSome = true

theorem filled_of_updateWhere {fields : List FieldRow} {p : FieldRow → Bool}
    {n : FieldRow → FieldRow} (hn : ∀ x, FieldKept x (n x) ∧ (n x).filledAt.isSome = true)
    {id : Uuid} (hall : ∀ f ∈ fields, f.id = id → f.filledAt.isSome = true) :
    ∀ f ∈ updateWhere p n fields, f.id = id → f.filledAt.isSome = true := by
  intro f hf hid
  rcases of_mem_updateWhere hf with ⟨hmem, -⟩ | ⟨y, -, -, rfl⟩
  · exact hall f hmem hid
  · exact (hn y).2

theorem paidFilled_paid {payment : SignPaymentRow} {checkout : PaymentCheckoutState}
    {n : FieldRow → FieldRow} (hn : ∀ x, FieldKept x (n x) ∧ (n x).filledAt.isSome = true)
    (hmem : payment ∈ s.payments) (hwf : EngineWf s) (hinv : PaidFilled s)
    (hopen : s.envelope.status.isTerminal = false) :
    ∀ p ∈ (paidCore s payment checkout n).payments, p.status.isCollected = true →
      ∀ f ∈ (paidCore s payment checkout n).fields, f.id = p.fieldId →
        f.filledAt.isSome = true := by
  intro p hp hcollected f hf hid
  simp only [paidCore, hopen, Bool.false_eq_true, if_false, State.updateFields_payments,
    State.updatePayment_payments, State.updateFields_fields, State.updatePayment_fields] at hp hf
  rcases of_mem_updateWhere hp with ⟨hpmem, -⟩ | ⟨q, hq, hqid, rfl⟩
  · exact filled_of_updateWhere hn (hinv hopen p hpmem hcollected) f hf hid
  · -- the field of the payment itself: filled now, or not touched because it was
    obtain rfl := inj_on_of_nodup_map hwf.payments.keyed.nodup hq hmem (by simpa using hqid)
    rcases of_mem_updateWhere hf with ⟨-, hnot⟩ | ⟨y, -, -, rfl⟩
    · have hfid : f.id = q.fieldId := hid
      simpa [hfid, Option.isSome_iff_ne_none] using hnot
    · exact (hn y).2

theorem Effect.paidFilled (hwf : EngineWf s) (h : Effect s op t) (hinv : PaidFilled s)
    (hok : ∀ ctx input, op = .delegateSigner ctx input → ∀ p ∈ s.payments,
      p.status.isCollected = true → ∀ f ∈ s.fields, f.id = p.fieldId →
        f.signerId ≠ some ctx.signerId) : PaidFilled t := by
  intro hopen
  have hopen' : s.envelope.status.isTerminal = false := by
    by_contra hterminal
    rw [(h.terminal (by simpa using hterminal)).1] at hopen
    exact hterminal hopen
  have hfilled := hinv hopen'
  cases h with
  | ordinary h | accepted _ _ _ h =>
    rw [h.payments, h.fields]
    exact hfilled
  | @delegated ctx input _ _ h =>
    rw [h.core.payments, h.core.fields]
    intro p hp hcollected f hf hid
    rcases of_mem_updateWhere hf with ⟨hmem, -⟩ | ⟨y, hy, hslot, rfl⟩
    · exact hfilled p hp hcollected f hmem hid
    · exact absurd (by simpa using hslot) (hok ctx input rfl p hp hcollected y hy hid)
  | filled _ _ _ _ hn h =>
    rw [h.payments, h.fields]
    exact fun p hp hcollected => filled_of_updateWhere hn (hfilled p hp hcollected)
  | signed _ _ hwrites _ h =>
    rw [h.payments, h.fields]
    exact fun p hp hcollected => filled_of_updateWhere hwrites.field (hfilled p hp hcollected)
  | completed _ _ _ _ h | declined _ _ _ h =>
    rw [h.status] at hopen
    cases hopen
  | closed _ hterminal _ h =>
    rw [h.status] at hopen
    exact absurd hterminal (by simpa [endCore] using hopen)
  | paid hmem _ _ hn h =>
    rw [h.payments, h.fields]
    exact paidFilled_paid hn hmem hwf hinv hopen'
  | paymentMoved _ hcollected _ h =>
    rw [h.fields]
    intro x hx hc f hf hid
    obtain ⟨y, hy, hfield, hyc⟩ := hcollected x hx hc
    exact hfilled y hy hyc f hf (hid.trans hfield.symm)
  | fieldsRemoved _ h =>
    rw [h.payments, h.fields]
    exact fun p hp hc f hf hid => hfilled p hp hc f (mem_of_mem_filter hf) hid

/-! ## What it gives -/

theorem collected_of_check {existing : SignPaymentRow} {input : PreparePaymentInput}
    {e : SignPaymentStateError} (h : preparePaymentCheck existing input = .error e)
    (he : e.reason = js "payment_already_completed") : existing.status.isCollected = true := by
  by_contra hdue
  have hdue : existing.status.isCollected = false := by simpa using hdue
  simp only [preparePaymentCheck, hdue, Bool.not_false, require, if_true, Bind.bind,
    Except.bind] at h
  split at h
  · cases h
  · cases h
    exact absurd he (by decide)

theorem collected_of_refused {input : PreparePaymentInput}
    (h : preparePayment s input = .error paymentAlreadyCompleted) :
    ∃ p ∈ s.payments, p.fieldId = input.fieldId ∧ p.status.isCollected = true := by
  unfold preparePayment at h
  cases hfield : paymentFieldOf s input.signerId input.fieldId with
  | none => simp [hfield, orThrow, Bind.bind, Except.bind, paymentAlreadyCompleted] at h
  | some field =>
    simp only [hfield, orThrow, Bind.bind, Except.bind] at h
    split at h
    next existing hfind =>
      refine ⟨existing, mem_of_find?_eq_some hfind, by simpa using find?_some hfind, ?_⟩
      cases hcheck : preparePaymentCheck existing input with
      | ok u => simp [hcheck, Except.mapError, pure, Except.pure] at h
      | error e =>
        have he : EsignError.payment e = paymentAlreadyCompleted := by
          simpa [hcheck, Except.mapError] using h
        cases he
        exact collected_of_check hcheck rfl
    · cases h

theorem PaidFilled.neverBlocks (h : PaidFilled s) (hsign : s.envelope.status.isSignable = true) :
    PaidNeverBlocks s := by
  have hfilled := h (EnvelopeStatus.not_terminal_of_signable hsign)
  refine ⟨fun p hp hpaid => hfilled p hp (by rw [hpaid]; rfl),
    fun signerId v hrules hreason input hid hrefused => ?_⟩
  obtain ⟨f, hf, -, hnone, hv⟩ := evaluateSignerFieldRules_payment hrules hreason
  obtain ⟨p, hp, hpid, hcollected⟩ := collected_of_refused hrefused
  have hfid : f.id = input.fieldId := Option.some_injective _ (hv.symm.trans hid)
  have hsome := hfilled p hp hcollected f (mem_of_mem_filter hf) (hfid.trans hpid.symm)
  simp [hnone] at hsome

theorem step_paidFilled {call : Call} (h : EngineWf s ∧ PaidFilled s)
    (hstep : Guarded (engineStep deps) KeepsPaidFields s call t) : EngineWf t ∧ PaidFilled t := by
  obtain ⟨hwf, heffect⟩ := step_effect h.1 hstep.1
  have hinv : PaidFilled (s.at call.time) := h.2
  refine ⟨heffect.wf hwf, heffect.paidFilled hwf hinv fun ctx input hop => ?_⟩
  have hok : KeepsPaidFields s call := hstep.2
  simp only [KeepsPaidFields, hop] at hok
  exact hok

/-- **A paid PAYMENT field never blocks completion**, in every run that
delegates no slot with a collected PAYMENT field. -/
theorem paid_field_never_blocks {calls : List Call} (hinit : Initial s)
    (hrun : Run (Guarded (engineStep deps) KeepsPaidFields) s calls t)
    (hsign : t.envelope.status.isSignable = true) : PaidNeverBlocks t := by
  have hstart : PaidFilled s := by simp [PaidFilled, hinit.noPayments]
  have hend : EngineWf t ∧ PaidFilled t :=
    hrun.invariant (fun _ _ _ h hstep => step_paidFilled h hstep) ⟨hinit.wf, hstart⟩
  exact hend.2.neverBlocks hsign

/-- One signer who has to pay ten dollars. -/
def payingSigner : State :=
  newDraft .parallel [newSigner 1 (js "ada@example.com")]
    [{ newField 10 1 .payment with
        paymentAmountMinor := some 1000, paymentCurrency := some (js "USD") }]

theorem payingSigner_initial : Initial payingSigner :=
  newDraft_initial (by decide) (by decide) (by simp [newSigner]) (by simp [newField])

/-- The signer opens the payment, and the provider reports it paid. -/
def payingSignerPays : List Call :=
  [sendNow payingSigner 0,
    ⟨1, .acceptDisclosure ⟨100, 1⟩ ⟨js "2026-01", js "text-hash", none, {}⟩⟩,
    ⟨2, .preparePayment ⟨0, 1, 10, js "acct_1", 1000, js "USD", 0⟩⟩,
    ⟨3, .recordPaid ⟨js "cs_1", true, some (js "pi_1"), 1000, some (js "USD"), some 102, true⟩
      none⟩]

theorem paid_field_never_blocks_payingSigner :
    ∃ t, Run (Guarded (engineStep plainDeps) KeepsPaidFields) payingSigner payingSignerPays t ∧
      t.payments.any (·.status == .paid) = true ∧ PaidNeverBlocks t := by
  obtain ⟨t, hrun, ht⟩ := guardedRun_of_exec (engineNext plainDeps)
    (fun _ _ _ => engineStep_of_next) KeepsPaidFields
    (fun _ call => match call.op with | .delegateSigner _ _ => false | _ => true)
    (fun s call hcall => by
      unfold KeepsPaidFields
      split
      · simp_all
      · trivial)
    payingSigner payingSignerPays
    (fun t => t.payments.any (·.status == .paid) && t.envelope.status.isSignable) rfl
  simp only [Bool.and_eq_true] at ht
  exact ⟨t, hrun, ht.1, paid_field_never_blocks payingSigner_initial hrun ht.2⟩

/-- The signer pays and then delegates: the field is empty again, and the
payment cannot be made a second time. -/
theorem paid_field_blocks_delegate :
    ¬ ∀ (deps : Deps) (s t : State) (calls : List Call), Initial s →
        Run (engineStep deps) s calls t → t.envelope.status.isSignable = true →
        PaidNeverBlocks t := by
  intro hclaim
  obtain ⟨t, hrun, ht⟩ := engineRun_of_exec plainDeps payingSigner
    (payingSignerPays ++
      [⟨4, .delegateSigner ⟨100, 1⟩ ⟨js "Bob", js "bob@example.com", none⟩⟩])
    (fun t => t.envelope.status.isSignable && t.payments.any fun p => p.status == .paid &&
      t.fields.any fun f => f.id == p.fieldId && f.filledAt.isNone) rfl
  simp only [Bool.and_eq_true, any_eq_true, beq_iff_eq, Option.isNone_iff_eq_none] at ht
  obtain ⟨hsign, p, hp, hpaid, f, hf, hid, hnone⟩ := ht
  have hfilled := (hclaim plainDeps payingSigner t _ payingSigner_initial hrun hsign).filled
    p hp hpaid f hf hid
  simp [hnone] at hfilled

end AramoPlatform.Sign
