import AramoPlatform.Sign.Delegation

/-!
# Where a payment can start

`signerPaymentField` repeats the guards of `fillField` by hand: a signable
envelope, a live session, the turn, the accepted disclosure. It leaves out the
access code and the identity of the recipient. A payment can therefore start
in a session that never passed either: the acceptance is the slot's, and a
reminder gives the slot a session in which no code has been entered.
-/

namespace AramoPlatform.Sign

open Js Lib List

/-- The access code of the recipient, when there is one, has been entered in
this session and is not locked. -/
def PastAccessCode (s : State) (ctx : SessionContext) : Prop :=
  ∀ r ∈ s.signers, r.id = ctx.signerId → r.accessCodeHash.isSome = true →
    r.accessCodeLockedAt = none ∧
      ∃ x ∈ s.sessions, x.id = ctx.sessionId ∧ x.accessCodeVerifiedAt.isSome = true

/-- A recipient who is asked to verify has verified, and is not locked out. -/
def PastIdentity (s : State) (signerId : Uuid) : Prop :=
  ∀ r ∈ s.signers, r.id = signerId → ∀ method, r.identityVerificationMethod = some method →
    r.identityVerificationLockedAt = none ∧
      ∃ a ∈ s.attempts, a.signerId = signerId ∧ a.method = method ∧ a.status = .verified

/-- What `fillField` asks of a session before it looks at the field. -/
structure FillGuards (s : State) (ctx : SessionContext) : Prop where
  signable : s.envelope.status.isSignable = true
  session : ∃ x, InSession s ctx x
  turn : assertEligible s ctx.signerId = .ok ()
  code : PastAccessCode s ctx
  accepted : hasAcceptedDisclosure s ctx.signerId = true
  identity : PastIdentity s ctx.signerId

/-- The recipient's PAYMENT field with its amount, in a session that is past
the envelope, the turn and the disclosure. -/
structure PaymentOpen (s : State) (ctx : SessionContext) (fieldId : Uuid) : Prop where
  signable : s.envelope.status.isSignable = true
  session : ∃ x, InSession s ctx x
  turn : assertEligible s ctx.signerId = .ok ()
  accepted : hasAcceptedDisclosure s ctx.signerId = true
  field : ∃ f ∈ s.fields, f.id = fieldId ∧ f.signerId = some ctx.signerId ∧
    isPaymentField f = true ∧ f.paymentAmountMinor.isSome = true ∧ f.paymentCurrency.isSome = true

variable {deps : Deps} {s t : State} {ctx : SessionContext}

/-! ## The guards, one by one -/

theorem lockSignableEnvelope_iff :
    (∃ status, lockSignableEnvelope s = .ok status) ↔ s.envelope.status.isSignable = true := by
  constructor
  · rintro ⟨status, h⟩
    exact (lockSignableEnvelope_ok h).1
  · intro h
    exact ⟨_, if_pos h⟩

section

variable (hwf : EngineWf s)

include hwf

theorem assertLiveSession_iff :
    (∃ x, assertLiveSession s ctx = .ok x) ↔ ∃ x, InSession s ctx x := by
  constructor
  · rintro ⟨x, h⟩
    obtain ⟨hmem, hid, hsigner, hlive, htime⟩ := assertLiveSession_ok h
    exact ⟨x, hmem, hid, hsigner, hlive, htime⟩
  · rintro ⟨x, h⟩
    have hfind : (s.sessions.find? fun y => y.id == ctx.sessionId && y.signerId == ctx.signerId) =
        some x := by
      cases hfound : s.sessions.find? fun y => y.id == ctx.sessionId &&
        y.signerId == ctx.signerId with
      | none =>
        have hnot := find?_eq_none.mp hfound x h.mem
        simp [h.id, h.signerId] at hnot
      | some y =>
        have hy := find?_some hfound
        simp only [Bool.and_eq_true, beq_iff_eq] at hy
        rw [inj_on_of_nodup_map hwf.sessions.nodup (mem_of_find?_eq_some hfound) h.mem
          (hy.1.trans h.id.symm)]
    refine ⟨x, ?_⟩
    simp only [assertLiveSession, bind_eq_ok, require_eq_ok, orThrow_eq_ok, pure_eq_ok]
    exact ⟨x, hfind, (), by simp [h.live, h.unexpired], rfl⟩

theorem assertAccessCodeCleared_iff :
    assertAccessCodeCleared s ctx = .ok () ↔ PastAccessCode s ctx := by
  constructor
  · intro h r hr hid hcode
    refine ⟨?_, accessCode_ok hwf h hr hid hcode⟩
    have hfind : (s.signer? ctx.signerId).filter (·.accessCodeHash.isSome) = some r := by
      rw [← hid, signer?_of_mem hwf.signerIds hr]
      simp [hcode]
    simp only [assertAccessCodeCleared, hfind, bind_eq_ok, require_eq_ok] at h
    obtain ⟨-, hunlocked, -⟩ := h
    simpa using hunlocked
  · intro h
    cases hfind : (s.signer? ctx.signerId).filter (·.accessCodeHash.isSome) with
    | none => simp [assertAccessCodeCleared, hfind]
    | some r =>
      obtain ⟨hsigner, hcode⟩ := Option.filter_eq_some_iff.mp hfind
      obtain ⟨hunlocked, x, hx, hxid, hentered⟩ :=
        h r (mem_of_find?_eq_some hsigner) (by simpa using find?_some hsigner) hcode
      have hsession : s.sessions.find? (·.id == ctx.sessionId) = some x := by
        rw [← hxid]
        exact find?_key_eq_some hwf.sessions.nodup hx
      simp [assertAccessCodeCleared, hfind, hunlocked, hsession, hentered, bind_eq_ok,
        require_eq_ok]

theorem assertIdentityVerificationCleared_iff {signerId : Uuid} :
    assertIdentityVerificationCleared s signerId = .ok () ↔ PastIdentity s signerId := by
  constructor
  · intro h r hr hid method hmethod
    subst hid
    refine ⟨?_, attempt_of_gate hwf hr hmethod h⟩
    simp only [assertIdentityVerificationCleared, signer?_of_mem hwf.signerIds hr, hmethod,
      bind_eq_ok, require_eq_ok] at h
    obtain ⟨-, hunlocked, -⟩ := h
    simpa using hunlocked
  · intro h
    cases hsigner : s.signer? signerId with
    | none => simp [assertIdentityVerificationCleared, hsigner]
    | some r =>
      cases hmethod : r.identityVerificationMethod with
      | none => simp [assertIdentityVerificationCleared, hsigner, hmethod]
      | some method =>
        obtain ⟨hunlocked, a, ha, haid, hamethod, hverified⟩ :=
          h r (mem_of_find?_eq_some hsigner) (by simpa using find?_some hsigner) method
            hmethod
        have hany : (s.attempts.any fun a =>
            a.signerId == signerId && a.method == method && a.status == .verified) = true :=
          any_eq_true.mpr ⟨a, ha, by simp [haid, hamethod, hverified]⟩
        simp [assertIdentityVerificationCleared, hsigner, hmethod, hunlocked, hany, bind_eq_ok,
          require_eq_ok]

theorem assertMaySign_iff : assertMaySign s ctx = .ok () ↔
    assertEligible s ctx.signerId = .ok () ∧ PastAccessCode s ctx ∧
      hasAcceptedDisclosure s ctx.signerId = true ∧ PastIdentity s ctx.signerId := by
  rw [← assertAccessCodeCleared_iff hwf, ← assertIdentityVerificationCleared_iff hwf]
  simp only [assertMaySign, bind_eq_ok, require_eq_ok]
  constructor
  · rintro ⟨_, hturn, _, hcode, _, haccepted, hidentity⟩
    exact ⟨hturn, hcode, haccepted, hidentity⟩
  · rintro ⟨hturn, hcode, haccepted, hidentity⟩
    exact ⟨(), hturn, (), hcode, (), haccepted, hidentity⟩

/-- The guards are the first three lines of `fillField`. -/
theorem fillGuards_iff : FillGuards s ctx ↔
    (∃ status, lockSignableEnvelope s = .ok status) ∧ (∃ x, assertLiveSession s ctx = .ok x) ∧
      assertMaySign s ctx = .ok () := by
  rw [lockSignableEnvelope_iff, assertLiveSession_iff hwf, assertMaySign_iff hwf]
  constructor
  · intro h
    exact ⟨h.signable, h.session, h.turn, h.code, h.accepted, h.identity⟩
  · rintro ⟨hsignable, hsession, hturn, hcode, haccepted, hidentity⟩
    exact ⟨hsignable, hsession, hturn, hcode, haccepted, hidentity⟩

theorem fillField_guards {fieldId : Uuid} {input : FillInput}
    (h : fillField s ctx fieldId input = .ok t) : FillGuards s ctx := by
  simp only [fillField, bind_eq_ok] at h
  obtain ⟨status, hlock, x, hlive, _, hmay, -⟩ := h
  exact (fillGuards_iff hwf).mpr ⟨⟨status, hlock⟩, ⟨x, hlive⟩, hmay⟩

end

/-! ## What a payment asks for -/

theorem signerPaymentField_iff (hwf : EngineWf s) {fieldId : Uuid} :
    (∃ v, signerPaymentField s ctx fieldId = .ok v) ↔ PaymentOpen s ctx fieldId := by
  simp only [signerPaymentField, bind_eq_ok, require_eq_ok, orThrow_eq_ok, pure_eq_ok]
  constructor
  · rintro ⟨_, status, hlock, x, hlive, _, hturn, _, haccepted, f, hfield,
      amount, hamount, currency,
      hcurrency, -⟩
    have hf := find?_some hfield
    simp only [Bool.and_eq_true, beq_iff_eq] at hf
    refine ⟨lockSignableEnvelope_iff.mp ⟨status, hlock⟩, (assertLiveSession_iff hwf).mp ⟨x, hlive⟩,
      hturn, haccepted, f, mem_of_find?_eq_some hfield, hf.1.1, hf.1.2, hf.2, ?_, ?_⟩
    · rw [hamount, Option.isSome_some]
    · rw [hcurrency, Option.isSome_some]
  · intro h
    obtain ⟨status, hlock⟩ := lockSignableEnvelope_iff.mpr h.signable
    obtain ⟨x, hlive⟩ := (assertLiveSession_iff hwf).mpr h.session
    obtain ⟨f, hf, hid, hsigner, hpayment, hamount, hcurrency⟩ := h.field
    obtain ⟨amount, hamount⟩ := Option.isSome_iff_exists.mp hamount
    obtain ⟨currency, hcurrency⟩ := Option.isSome_iff_exists.mp hcurrency
    have hfield : paymentFieldOf s ctx.signerId fieldId = some f := by
      unfold paymentFieldOf
      cases hfound : s.fields.find? fun y =>
          y.id == fieldId && y.signerId == some ctx.signerId && isPaymentField y with
      | none =>
        have hnot := find?_eq_none.mp hfound f hf
        simp [hid, hsigner, hpayment] at hnot
      | some y =>
        have hy := find?_some hfound
        simp only [Bool.and_eq_true, beq_iff_eq] at hy
        rw [inj_on_of_nodup_map hwf.fieldIds (mem_of_find?_eq_some hfound) hf
          (hy.1.1.trans hid.symm)]
    exact ⟨_, status, hlock, x, hlive, (), h.turn, (), h.accepted, f, hfield, amount, hamount,
      currency, hcurrency, rfl⟩

/-- **Where a payment starts only where a signature could.** In a reachable
state, at any later time, the guards of `fillField` hold whenever
`signerPaymentField` succeeds, exactly when no session that is past the other
guards still owes the access code or the recipient's identity. -/
theorem payment_guarded_iff {calls : List Call} (hinit : Initial s)
    (hrun : Run (engineStep deps) s calls t) (time : Nat) (ctx : SessionContext) (fieldId : Uuid) :
    ((∃ v, signerPaymentField (t.at time) ctx fieldId = .ok v) → FillGuards (t.at time) ctx) ↔
      (PaymentOpen (t.at time) ctx fieldId →
        PastAccessCode (t.at time) ctx ∧ PastIdentity (t.at time) ctx.signerId) := by
  have hwf : EngineWf (t.at time) :=
    (hrun.invariant (fun _ _ _ h hstep => step_wf h hstep) hinit.wf).at time
  rw [signerPaymentField_iff hwf, fillGuards_iff hwf, assertMaySign_iff hwf]
  constructor
  · intro h hopen
    obtain ⟨-, -, -, hcode, -, hidentity⟩ := h hopen
    exact ⟨hcode, hidentity⟩
  · intro h hopen
    obtain ⟨hcode, hidentity⟩ := h hopen
    exact ⟨lockSignableEnvelope_iff.mpr hopen.signable,
      (assertLiveSession_iff hwf).mpr hopen.session, hopen.turn, hcode, hopen.accepted,
      hidentity⟩

/-! ## A reminder's session -/

/-- One signer with an access code, who has to pay ten dollars. -/
def codedPayer : State :=
  newDraft .parallel
    [{ newSigner 1 (js "ada@example.com") with accessCodeHash := some (js "7391") }]
    [{ newField 10 1 .payment with
        paymentAmountMinor := some 1000, paymentCurrency := some (js "USD") }]

theorem codedPayer_initial : Initial codedPayer :=
  newDraft_initial (by decide) (by decide) (by simp [newSigner]) (by simp [newField])

/-- The signer enters the code and accepts the disclosure in session 100. -/
def codedPayerAccepted : List Call :=
  [sendNow codedPayer 0, ⟨1, .verifyRecipientAccessCode 100 (js "7391") {}⟩,
    ⟨2, .acceptDisclosure ⟨100, 1⟩ ⟨js "2026-01", js "text-hash", none, {}⟩⟩]

/-- A reminder then ends that session and mints 102. -/
def codedPayerReminded : List Call :=
  codedPayerAccepted ++ [⟨3, .remindSigner (js "sender") none none 3⟩]

theorem payment_guarded_iff_codedPayer :
    ∃ t, Run (engineStep plainDeps) codedPayer codedPayerAccepted t ∧
      (∃ v, signerPaymentField (t.at 3) ⟨100, 1⟩ 10 = .ok v) ∧
        FillGuards (t.at 3) ⟨100, 1⟩ := by
  obtain ⟨t, hrun, ht⟩ := engineRun_of_exec plainDeps codedPayer codedPayerAccepted
    (fun t => (signerPaymentField (t.at 3) ⟨100, 1⟩ 10).toOption.isSome &&
      (assertAccessCodeCleared (t.at 3) ⟨100, 1⟩).toOption.isSome &&
      (assertIdentityVerificationCleared (t.at 3) 1).toOption.isSome) rfl
  simp only [Bool.and_eq_true] at ht
  have hstarts := exists_ok_of_isSome ht.1.1
  obtain ⟨_, hcode⟩ := exists_ok_of_isSome ht.1.2
  obtain ⟨_, hidentity⟩ := exists_ok_of_isSome ht.2
  have hwf : EngineWf (t.at 3) :=
    (hrun.invariant (fun _ _ _ h hstep => step_wf h hstep) codedPayer_initial.wf).at 3
  exact ⟨t, hrun, hstarts, (payment_guarded_iff codedPayer_initial hrun 3 ⟨100, 1⟩ 10).mpr
    (fun _ => ⟨(assertAccessCodeCleared_iff hwf).mp hcode,
      (assertIdentityVerificationCleared_iff hwf).mp hidentity⟩) hstarts⟩

/-- In the reminder's session the payment starts and no code has been entered. -/
theorem payment_starts_without_code :
    ¬ ∀ (deps : Deps) (s t : State) (calls : List Call) (ctx : SessionContext) (fieldId : Uuid),
        Initial s → Run (engineStep deps) s calls t →
        (∃ v, signerPaymentField t ctx fieldId = .ok v) → FillGuards t ctx := by
  intro hclaim
  obtain ⟨t, hrun, ht⟩ := engineRun_of_exec plainDeps codedPayer codedPayerReminded
    (fun t => (signerPaymentField t ⟨102, 1⟩ 10).toOption.isSome &&
      t.signers.any (fun r => r.id == 1 && r.accessCodeHash.isSome) &&
      t.sessions.all fun x => x.id != 102 || x.accessCodeVerifiedAt.isNone) rfl
  simp only [Bool.and_eq_true, any_eq_true, beq_iff_eq, all_eq_true, Bool.or_eq_true,
    bne_iff_ne] at ht
  obtain ⟨⟨hstarts, r, hr, hid, hcode⟩, hnot⟩ := ht
  have hguards := hclaim plainDeps codedPayer t _ ⟨102, 1⟩ 10 codedPayer_initial hrun
    (exists_ok_of_isSome hstarts)
  obtain ⟨-, x, hx, hxid, hentered⟩ := hguards.code r hr hid hcode
  rcases hnot x hx with h | h
  · exact h hxid
  · rw [Option.isNone_iff_eq_none.mp h] at hentered
    cases hentered

end AramoPlatform.Sign
