import AramoPlatform.Sign.Lifecycle

/-!
# After a signature

A signer who has signed can act only through a session that is still live.
In a sequential envelope the turn has passed on, so every such session is
refused. In a parallel one nothing but the session is asked for, and a
completion ends only the session it was made in: with a second live session
the signer fills, declines and completes again.

A signature is final in every run in which a signer of a parallel envelope
completes only in the last session they can still use.
-/

namespace AramoPlatform.Sign

open Js Lib List

def fieldsOf (s : State) (signerId : Uuid) : List FieldRow :=
  s.fields.filter (·.signerId == some signerId)

def signedEventsOf (s : State) (signerId : Uuid) : List (EventRow (Option Payload)) :=
  s.events.filter fun e =>
    e.eventType == LedgerEvent.signerSigned.text && e.signerId == some signerId

/-- From `s` to `t` nothing of the signature of `signerId` has changed: the
fields, the `SIGNER_SIGNED` events, and no session declines any more. -/
structure SignatureFinal (deps : Deps) (s t : State) (signerId : Uuid) : Prop where
  fields : fieldsOf t signerId = fieldsOf s signerId
  events : signedEventsOf t signerId = signedEventsOf s signerId
  decline : ∀ time reason sessionId u, t.clock ≤ time →
    decline deps (t.at time) signerId reason (some sessionId) ≠ .ok u

/-- A signer of a parallel envelope completes in the only session that is
live and not past its time. -/
def SignsInLastSession (s : State) (call : Call) : Prop :=
  match call.op with
  | .completeSigner ctx _ => s.envelope.routingMode = .sequential ∨
      ∀ x ∈ s.sessions, x.signerId = ctx.signerId → x.id ≠ ctx.sessionId →
        x.status.isLive = true → x.expiresAt < call.time
  | _ => True

/-! ## The invariant -/

structure SignedOk (s : State) : Prop where
  draft : s.envelope.status = .draft → ∀ r ∈ s.signers, r.status ≠ .signed
  sessions : s.envelope.status.isSignable = true → ∀ r ∈ s.signers, r.status = .signed →
    s.envelope.routingMode = .sequential ∨
      ∀ x ∈ s.sessions, x.signerId = r.id → x.status.isLive = true → x.expiresAt < s.clock
  paid : s.envelope.status.isSignable = true → ∀ r ∈ s.signers, r.status = .signed →
    ∀ f ∈ fieldsOf s r.id, isPaymentField f = true → f.filledAt.isSome = true
  paymentFields : ∀ p ∈ s.payments, ∀ f ∈ s.fields, f.id = p.fieldId → isPaymentField f = true

variable {deps : Deps} {op : Op} {s t u : State} {ctx : SessionContext} {r : SignerRow}

theorem SignedOk.at (h : SignedOk s) {time : Nat} (hle : s.clock ≤ time) : SignedOk (s.at time) :=
  ⟨h.draft, fun hsign r hr hsigned => (h.sessions hsign r hr hsigned).imp_right
    fun hx x hmem hk hlive => Nat.lt_of_lt_of_le (hx x hmem hk hlive) hle, h.paid,
    h.paymentFields⟩

theorem SignedOk.not_active (hwf : EngineWf s) (h : SignedOk s)
    (hsign : s.envelope.status.isSignable = true) (hr : r ∈ s.signers)
    (hsigned : r.status = .signed) {session : SigningSessionRow}
    (hsession : InSession s ctx session) (helig : assertEligible s ctx.signerId = .ok ()) :
    ctx.signerId ≠ r.id := by
  intro hk
  rcases h.sessions hsign r hr hsigned with hseq | hexpired
  · have hturn := assertEligible_turn helig hseq
    exact not_signed_of_turn hwf.signerIds hr (hk ▸ hturn) hsigned
  · have hlt := hexpired session hsession.mem (hsession.signerId.trans hk) hsession.live
    exact absurd hsession.unexpired (Nat.not_le.mpr hlt)

theorem SignedOk.not_maySign (hwf : EngineWf s) (h : SignedOk s) (hr : r ∈ s.signers)
    (hsigned : r.status = .signed) {session : SigningSessionRow} (hmay : MaySign s ctx session) :
    ctx.signerId ≠ r.id := by
  have hgates := hmay.gates
  simp only [assertMaySign, bind_eq_ok] at hgates
  obtain ⟨_, helig, -⟩ := hgates
  exact h.not_active hwf hmay.signable hr hsigned hmay.inSession helig

/-! ## One step -/

theorem fieldsOf_updateWhere {p : FieldRow → Bool} {n : FieldRow → FieldRow} {k : Uuid}
    (hfields : t.fields = updateWhere p n s.fields) (hn : ∀ f, FieldKept f (n f))
    (hp : ∀ f ∈ s.fields, p f = true → f.signerId ≠ some k) : fieldsOf t k = fieldsOf s k := by
  unfold fieldsOf
  rw [hfields]
  refine filter_updateWhere fun f hf hpf => ?_
  have hne := hp f hf hpf
  exact ⟨by simpa using hne, by simpa [(hn f).signerId] using hne⟩

theorem Effect.fields_signed (hwf : EngineWf s) (hinv : SignedOk s) (h : Effect s op t)
    (hsign : s.envelope.status.isSignable = true) (hr : r ∈ s.signers)
    (hsigned : r.status = .signed) : fieldsOf t r.id = fieldsOf s r.id := by
  have hsame : t.fields = s.fields → fieldsOf t r.id = fieldsOf s r.id := by
    intro hfields
    rw [fieldsOf, hfields, fieldsOf]
  cases h with
  | ordinary h | accepted _ _ _ h | declined _ _ _ h | closed _ _ _ h | paymentMoved _ _ _ h =>
    exact hsame h.fields
  | @delegated ctx _ _ _ h =>
    refine fieldsOf_updateWhere (n := fun f => { f with
      value := none, signatureMethod := none, filledAt := none }) h.core.fields
      (fun _ => ⟨rfl, rfl, rfl⟩) fun f _ hslot hk => ?_
    -- a delegated slot is still to sign
    obtain ⟨r', hr', hid', -, hawait⟩ := h.slot
    have hkid : r.id = ctx.signerId := by
      rw [beq_iff_eq] at hslot
      exact Option.some_injective _ (hk.symm.trans hslot)
    obtain rfl := inj_on_of_nodup_map hwf.signerIds hr hr' (hkid.trans hid'.symm)
    simp [hsigned, SignerStatus.isAwaiting] at hawait
  | @filled _ ctx _ session field n hmay hmem hown _ hn h =>
    refine fieldsOf_updateWhere h.fields (fun f => (hn f).1) fun f hf hid hk => ?_
    obtain rfl := inj_on_of_nodup_map hwf.fieldIds hf hmem (by simpa using hid)
    have hkid : ctx.signerId = r.id := Option.some_injective _ (hown.symm.trans hk)
    exact hinv.not_maySign hwf hr hsigned hmay hkid
  | @signed ctx _ _ _ _ _ _ hmay _ hwrites _ h | @completed ctx _ _ _ _ _ _ hmay _ hwrites _ h =>
    refine fieldsOf_updateWhere h.fields (fun f => (hwrites.field f).1) fun f _ hp hk => ?_
    simp only [Bool.and_eq_true, beq_iff_eq] at hp
    have hkid : ctx.signerId = r.id := Option.some_injective _ (hp.1.symm.trans hk)
    exact hinv.not_maySign hwf hr hsigned hmay hkid
  | @paid _ _ payment checkout n hmem _ _ hn h =>
    have hopen := EnvelopeStatus.not_terminal_of_signable hsign
    have hfields : t.fields = updateWhere
        (fun f => f.id == payment.fieldId && f.filledAt.isNone) n s.fields := by
      rw [h.fields]
      simp [paidCore, hopen]
    refine fieldsOf_updateWhere hfields (fun f => (hn f).1) fun f hf hp hk => ?_
    -- the PAYMENT fields of a signed recipient are filled
    simp only [Bool.and_eq_true, beq_iff_eq, Option.isNone_iff_eq_none] at hp
    have hpay := hinv.paymentFields payment hmem f hf hp.1
    have hfilled := hinv.paid hsign r hr hsigned f
      (mem_filter.mpr ⟨hf, by simpa using hk⟩) hpay
    simp [hp.2] at hfilled
  | fieldsRemoved hdraft => simp [hdraft, EnvelopeStatus.isSignable] at hsign

/-- A completion that leaves the envelope open. -/
structure Signs (s : State) (ctx : SessionContext) (t : State) : Prop where
  may : ∃ session, MaySign s ctx session
  rules : evaluateSignerFieldRules (fieldsOf s ctx.signerId) = none
  core : ∃ n g f, SignWrites n g f ∧ CoreSame (signCore s ctx n g f) t

/-- In an open envelope a signed recipient was signed before, or has just
completed. -/
theorem Effect.signed_origin (h : Effect s op t) (hopen : t.envelope.status.isTerminal = false)
    (hr : r ∈ t.signers) (hsigned : r.status = .signed) :
    (∃ y ∈ s.signers, y.id = r.id ∧ y.status = .signed) ∨
      ∃ ctx attested, op = .completeSigner ctx attested ∧ r.id = ctx.signerId ∧ Signs s ctx t := by
  have hsame : t.signers = s.signers → ∃ y ∈ s.signers, y.id = r.id ∧ y.status = .signed := by
    intro hsigners
    exact ⟨r, hsigners ▸ hr, rfl, hsigned⟩
  cases h with
  | ordinary h =>
    obtain ⟨y, hy, hseen⟩ := exists_old_of_mem h.signers hr
    exact .inl ⟨y, hy, hseen.id.symm, hseen.signed_iff.mp hsigned⟩
  | delegated h =>
    rw [h.core.signers] at hr
    rcases of_mem_updateWhere hr with ⟨hmem, -⟩ | ⟨y, -, -, rfl⟩
    · exact .inl ⟨r, hmem, rfl, hsigned⟩
    · simp [(h.writes y).2.1] at hsigned
  | @signed ctx attested _ _ n g f hmay hrules hwrites _ h =>
    have hmem := hr
    rw [h.signers] at hmem
    rcases of_mem_updateWhere hmem with ⟨hold, -⟩ | ⟨y, -, hid, rfl⟩
    · exact .inl ⟨r, hold, rfl, hsigned⟩
    · refine .inr ⟨ctx, attested, rfl, ?_, ⟨_, hmay⟩, hrules, n, g, f, hwrites, h⟩
      exact (hwrites.slot y).1.id.trans (by simpa using hid)
  | completed _ _ _ _ h | declined _ _ _ h =>
    rw [h.status] at hopen
    cases hopen
  | closed _ hterminal _ h =>
    rw [h.status] at hopen
    exact absurd hterminal (by simpa [endCore] using hopen)
  | paid _ _ _ _ h => exact .inl (hsame (h.signers.trans (paidCore_signers _ _ _)))
  | accepted _ _ _ h | filled _ _ _ _ _ h | paymentMoved _ _ _ h | fieldsRemoved _ h =>
    exact .inl (hsame h.signers)

theorem Effect.open_before (h : Effect s op t) (hopen : t.envelope.status.isTerminal = false) :
    s.envelope.status.isTerminal = false := by
  cases hterminal : s.envelope.status.isTerminal with
  | false => rfl
  | true => rw [← hopen, (h.terminal hterminal).1, hterminal]

theorem Effect.draft_before (h : Effect s op t) (hdraft : t.envelope.status = .draft) :
    s.envelope.status = .draft := by
  rcases h.status_cases with (hsame | hsign) | ⟨hterminal, -⟩
  · exact hsame.symm.trans hdraft
  · simp [hdraft, EnvelopeStatus.isSignable] at hsign
  · simp [hdraft, EnvelopeStatus.isTerminal] at hterminal

theorem Effect.sessions_signed (hwf : EngineWf s) (h : Effect s op t)
    (hsign : s.envelope.status.isSignable = true) (hr : r ∈ s.signers)
    (hsigned : r.status = .signed) {x : SigningSessionRow} (hx : x ∈ t.sessions)
    (hk : x.signerId = r.id) (hlive : x.status.isLive = true) :
    ∃ y ∈ s.sessions, y.signerId = r.id ∧ y.status.isLive = true ∧ y.expiresAt = x.expiresAt := by
  rcases (h.sessions hwf).origin x hx with ⟨y, hy, -, hkept⟩ | ⟨-, hminted⟩
  · exact ⟨y, hy, hkept.signerId.symm.trans hk, hkept.live hlive, hkept.expiresAt.symm⟩
  · rcases hminted.invited with hdraft | ⟨r', hr', hid, hawait⟩
    · simp [hdraft, EnvelopeStatus.isSignable] at hsign
    · obtain rfl := inj_on_of_nodup_map hwf.signerIds hr' hr (hid.trans hk)
      simp [hsigned, SignerStatus.isAwaiting] at hawait

theorem Signs.sessions (h : Signs s ctx t)
    (hlast : ∀ x ∈ s.sessions, x.signerId = ctx.signerId → x.id ≠ ctx.sessionId →
      x.status.isLive = true → x.expiresAt < s.clock) :
    ∀ x ∈ t.sessions, x.signerId = ctx.signerId → x.status.isLive = true →
      x.expiresAt < s.clock := by
  intro x hx hk hlive
  obtain ⟨n, g, f, hwrites, hcore⟩ := h.core
  rw [hcore.sessions] at hx
  rcases of_mem_updateWhere hx with ⟨hmem, hne⟩ | ⟨y, -, -, rfl⟩
  · exact hlast x hmem hk (by simpa using hne) hlive
  · simp [(hwrites.session y).2.2.2.2, SessionStatus.isLive] at hlive

theorem Signs.paid (h : Signs s ctx t) :
    ∀ f ∈ fieldsOf t ctx.signerId, isPaymentField f = true → f.filledAt.isSome = true := by
  intro f hf hpay
  obtain ⟨n, g, m, hwrites, hcore⟩ := h.core
  obtain ⟨hmem, hown⟩ := mem_filter.mp hf
  rw [hcore.fields] at hmem
  rcases of_mem_updateWhere hmem with ⟨hold, -⟩ | ⟨y, -, -, rfl⟩
  · exact filled_of_rules h.rules (mem_filter.mpr ⟨hold, hown⟩) hpay
  · exact (hwrites.field y).2

theorem Effect.paymentFields (hwf : EngineWf s) (h : Effect s op t) (hinv : SignedOk s) :
    ∀ p ∈ t.payments, ∀ f ∈ t.fields, f.id = p.fieldId → isPaymentField f = true := by
  intro p hp f hf hid
  obtain ⟨y, hy, hkept⟩ := h.mem_fields hf
  have hyid : y.id = p.fieldId := hkept.id.symm.trans hid
  have hsame : isPaymentField f = isPaymentField y := by simp [isPaymentField, hkept.fieldType]
  rw [hsame]
  have hold : p ∈ s.payments → isPaymentField y = true := fun hmem =>
    hinv.paymentFields p hmem y hy hyid
  cases h with
  | ordinary h | accepted _ _ _ h | filled _ _ _ _ _ h | signed _ _ _ _ h | completed _ _ _ _ h
  | declined _ _ _ h | closed _ _ _ h | fieldsRemoved _ h => exact hold (h.payments ▸ hp)
  | @paid _ _ payment checkout n _ _ _ _ h =>
    have hpayments : t.payments =
        updateWhere (·.id == payment.id) (paidUpdate · checkout s.clock) s.payments := by
      rw [h.payments]
      unfold paidCore
      split <;> rfl
    rw [hpayments] at hp
    rcases of_mem_updateWhere hp with ⟨hmem, -⟩ | ⟨q, hq, -, rfl⟩
    · exact hold hmem
    · exact hinv.paymentFields q hq y hy hyid
  | paymentMoved _ _ hfield h =>
    rcases hfield p hp with ⟨q, hq, hqid⟩ | ⟨f', hf', hfid, hpay⟩
    · exact hinv.paymentFields q hq y hy (hyid.trans hqid.symm)
    · obtain rfl := inj_on_of_nodup_map hwf.fieldIds hf' hy (hfid.trans hyid.symm)
      exact hpay
  | delegated h => exact hold (h.core.payments ▸ hp)

/-- The invariant over one step. `hlast` is what `SignsInLastSession` says of
a completion. -/
theorem Effect.signedOk (hwf : EngineWf s) (h : Effect s op t) (hinv : SignedOk s)
    (hlast : ∀ ctx attested, op = .completeSigner ctx attested →
      s.envelope.routingMode = .sequential ∨
        ∀ x ∈ s.sessions, x.signerId = ctx.signerId → x.id ≠ ctx.sessionId →
          x.status.isLive = true → x.expiresAt < s.clock) : SignedOk t where
  draft := by
    intro hdraft r hr hsigned
    have hsdraft := h.draft_before hdraft
    rcases h.signed_origin (by rw [hdraft]; rfl) hr hsigned with ⟨y, hy, -,
      hys⟩ | ⟨ctx, _, -, -, hsigns⟩
    · exact hinv.draft hsdraft y hy hys
    · obtain ⟨session, hmay⟩ := hsigns.may
      have hsign := hmay.signable
      simp [hsdraft, EnvelopeStatus.isSignable] at hsign
  sessions := by
    intro hsign r hr hsigned
    have hopen := EnvelopeStatus.not_terminal_of_signable hsign
    rw [h.routingMode, h.clock]
    rcases h.signed_origin hopen hr hsigned with ⟨y, hy, hid, hys⟩ | ⟨ctx,
      attested, hop, hid, hsigns⟩
    · have hsign' := EnvelopeStatus.signable_of_not_terminal (h.open_before hopen)
        fun hdraft => hinv.draft hdraft y hy hys
      refine (hinv.sessions hsign' y hy hys).imp_right fun hexpired x hx hk hlive => ?_
      obtain ⟨z, hz, hzk, hzlive, hexp⟩ :=
        h.sessions_signed hwf hsign' hy hys hx (hk.trans hid.symm) hlive
      exact hexp ▸ hexpired z hz hzk hzlive
    · rw [hid]
      exact (hlast ctx attested hop).imp_right hsigns.sessions
  paid := by
    intro hsign r hr hsigned
    have hopen := EnvelopeStatus.not_terminal_of_signable hsign
    rcases h.signed_origin hopen hr hsigned with ⟨y, hy, hid, hys⟩ | ⟨ctx, attested, -, hid, hsigns⟩
    · have hsign' := EnvelopeStatus.signable_of_not_terminal (h.open_before hopen)
        fun hdraft => hinv.draft hdraft y hy hys
      rw [← hid, h.fields_signed hwf hinv hsign' hy hys]
      exact hinv.paid hsign' y hy hys
    · rw [hid]
      exact hsigns.paid
  paymentFields := h.paymentFields hwf hinv

/-! ## Nothing more of a settled signature -/

/-- The envelope is closed, or the recipient has signed it. -/
def Settled (s : State) (signerId : Uuid) : Prop :=
  s.envelope.status.isTerminal = true ∨
    s.envelope.status.isSignable = true ∧ ∃ r ∈ s.signers, r.id = signerId ∧ r.status = .signed

section

variable (hwf : EngineWf s)

include hwf

theorem Settled.not_maySign (hinv : SignedOk s)
    (h : Settled s ctx.signerId) {session : SigningSessionRow} : ¬ MaySign s ctx session := by
  intro hmay
  rcases h with hterminal | ⟨-, r, hr, hid, hsigned⟩
  · rw [EnvelopeStatus.not_terminal_of_signable hmay.signable] at hterminal
    cases hterminal
  · exact hinv.not_maySign hwf hr hsigned hmay hid.symm

theorem Effect.fields_settled (hinv : SignedOk s) (h : Effect s op t)
    {signerId : Uuid} (hsettled : Settled s signerId) :
    fieldsOf t signerId = fieldsOf s signerId := by
  rcases hsettled with hterminal | ⟨hsign, r, hr, rfl, hsigned⟩
  · rw [fieldsOf, (h.terminal hterminal).2, fieldsOf]
  · exact h.fields_signed hwf hinv hsign hr hsigned

theorem Effect.signed_stays (h : Effect s op t)
    (hopen : t.envelope.status.isTerminal = false) (hr : r ∈ s.signers)
    (hsigned : r.status = .signed) : ∃ x ∈ t.signers, x.id = r.id ∧ x.status = .signed := by
  have hsame : t.signers = s.signers → ∃ x ∈ t.signers, x.id = r.id ∧ x.status = .signed := by
    intro hsigners
    exact ⟨r, hsigners ▸ hr, rfl, hsigned⟩
  cases h with
  | ordinary h =>
    obtain ⟨x, hx, hseen⟩ := exists_new_of_mem h.signers hr
    exact ⟨x, hx, hseen.id, hseen.signed_iff.mpr hsigned⟩
  | @delegated ctx _ _ _ h =>
    have hne : r.id ≠ ctx.signerId := by
      intro hid
      obtain ⟨r', hr', hid', -, hawait⟩ := h.slot
      obtain rfl := inj_on_of_nodup_map hwf.signerIds hr hr' (hid.trans hid'.symm)
      simp [hsigned, SignerStatus.isAwaiting] at hawait
    rw [h.core.signers]
    exact ⟨r, mem_updateWhere_of_not hr (by simpa using hne), rfl, hsigned⟩
  | @signed ctx _ _ _ n g _ _ _ hwrites _ h =>
    rw [h.signers]
    exact exists_updateWhere hr (fun _ => ⟨rfl, hsigned⟩) fun _ =>
      ⟨(hwrites.slot r).1.id, (hwrites.slot r).2.1⟩
  | completed _ _ _ _ h | declined _ _ _ h =>
    rw [h.status] at hopen
    cases hopen
  | closed _ hterminal _ h =>
    rw [h.status] at hopen
    exact absurd hterminal (by simpa [endCore] using hopen)
  | paid _ _ _ _ h => exact hsame (h.signers.trans (paidCore_signers _ _ _))
  | accepted _ _ _ h | filled _ _ _ _ _ h | paymentMoved _ _ _ h | fieldsRemoved _ h =>
    exact hsame h.signers

theorem Effect.settled (h : Effect s op t) {signerId : Uuid}
    (hsettled : Settled s signerId) : Settled t signerId := by
  rcases hsettled with hterminal | ⟨hsign, r, hr, rfl, hsigned⟩
  · exact .inl ((h.terminal hterminal).1 ▸ hterminal)
  · rcases h.status_cases with hstatus | ⟨hterminal, -⟩
    · have hsign' : t.envelope.status.isSignable = true := by
        rcases hstatus with hsame | hsign'
        · rwa [hsame]
        · exact hsign'
      exact .inr ⟨hsign', h.signed_stays hwf (EnvelopeStatus.not_terminal_of_signable hsign') hr
        hsigned⟩
    · exact .inl hterminal

end

theorem completeSigner_maySign {attested : Option JsString}
    (h : completeSigner deps s ctx attested = .ok t) : ∃ session, MaySign s ctx session := by
  simp only [completeSigner, bind_eq_ok] at h
  obtain ⟨status, hlock, live, hlive, _, hgates, -⟩ := h
  exact ⟨live, (lockSignableEnvelope_ok hlock).1, inSession_of_live hlive, hgates⟩

theorem signedEvents_settled (hwf : EngineWf s) (hinv : SignedOk s)
    (hrun : op.run deps s = .ok t) {signerId : Uuid} (hsettled : Settled s signerId) :
    signedEventsOf t signerId = signedEventsOf s signerId := by
  obtain ⟨new, hnew, hrec⟩ := (run_outcome hwf hrun).events
  have hnone : new.filter (fun e => e.eventType == LedgerEvent.signerSigned.text &&
      e.signerId == some signerId) = [] := by
    rw [filter_eq_nil_iff]
    intro e he hmatch
    simp only [Bool.and_eq_true, beq_iff_eq] at hmatch
    obtain ⟨ctx, attested, rfl, hk⟩ := (hrec e he).signing hmatch.1
    obtain rfl : ctx.signerId = signerId := Option.some_injective _ (hk.symm.trans hmatch.2)
    obtain ⟨session, hmay⟩ := completeSigner_maySign hrun
    exact hsettled.not_maySign hwf hinv hmay
  rw [signedEventsOf, hnew, filter_append, hnone, append_nil, signedEventsOf]

theorem decline_settled (hwf : EngineWf s) (hinv : SignedOk s) {signerId sessionId : Uuid}
    (hsettled : Settled s signerId) (reason : JsString) :
    decline deps s signerId reason (some sessionId) ≠ .ok u := by
  intro hok
  simp only [decline, assertMayDecline, bind_eq_ok, require_eq_ok] at hok
  obtain ⟨-, hsign, _, ⟨session, hlive, _, helig, -⟩, -⟩ := hok
  rcases hsettled with hterminal | ⟨-, r, hr, hid, hsigned⟩
  · rw [EnvelopeStatus.not_terminal_of_signable hsign] at hterminal
    cases hterminal
  · exact hinv.not_active hwf hsign hr hsigned (inSession_of_live hlive) helig hid.symm

/-! ## Over runs -/

theorem Initial.signedOk (h : Initial s) : SignedOk s where
  draft := fun _ r hr => by simp [h.pending r hr]
  sessions := fun _ r hr hsigned => by simp [h.pending r hr] at hsigned
  paid := fun _ r hr hsigned => by simp [h.pending r hr] at hsigned
  paymentFields := by simp [h.noPayments]

theorem step_signedOk {call : Call} (h : EngineWf s ∧ SignedOk s)
    (hstep : Guarded (engineStep deps) SignsInLastSession s call t) : EngineWf t ∧ SignedOk t := by
  obtain ⟨hwf, heffect⟩ := step_effect h.1 hstep.1
  refine ⟨heffect.wf hwf, heffect.signedOk hwf (h.2.at hstep.1.1) fun ctx attested hop => ?_⟩
  have hok : SignsInLastSession s call := hstep.2
  simp only [SignsInLastSession, hop] at hok
  exact hok

theorem run_signedOk {calls : List Call} (hinit : Initial s)
    (hrun : Run (Guarded (engineStep deps) SignsInLastSession) s calls t) :
    EngineWf t ∧ SignedOk t :=
  hrun.invariant (fun _ _ _ h hstep => step_signedOk h hstep) ⟨hinit.wf, hinit.signedOk⟩

theorem run_settled {calls : List Call} {signerId : Uuid} (h : EngineWf s ∧ SignedOk s)
    (hrun : Run (Guarded (engineStep deps) SignsInLastSession) s calls t)
    (hsettled : Settled s signerId) :
    Settled t signerId ∧ fieldsOf t signerId = fieldsOf s signerId ∧
      signedEventsOf t signerId = signedEventsOf s signerId := by
  induction hrun with
  | nil _ => exact ⟨hsettled, rfl, rfl⟩
  | @cons s m _ call _ hstep _ ih =>
    obtain ⟨hwf, heffect⟩ := step_effect h.1 hstep.1
    have hinv := h.2.at hstep.1.1
    have hnow : Settled (s.at call.time) signerId := hsettled
    obtain ⟨hlast, hfields, hevents⟩ := ih (step_signedOk h hstep) (heffect.settled hwf hnow)
    refine ⟨hlast, ?_, ?_⟩
    · rw [hfields]
      exact heffect.fields_settled hwf hinv hnow
    · rw [hevents]
      exact signedEvents_settled hwf hinv hstep.1.2 hnow

/-- **A signature is final.** In every run in which a signer of a parallel
envelope completes in the last session they can use, a recipient who has
signed keeps their fields as they are, is recorded as signed once, and
declines no more. -/
theorem signed_is_final {init : State} {calls calls' : List Call} (hinit : Initial init)
    (hrun : Run (Guarded (engineStep deps) SignsInLastSession) init calls s)
    (hsign : s.envelope.status.isSignable = true) (hr : r ∈ s.signers)
    (hsigned : r.status = .signed)
    (hrun' : Run (Guarded (engineStep deps) SignsInLastSession) s calls' t) :
    SignatureFinal deps s t r.id := by
  have hstart := run_signedOk hinit hrun
  obtain ⟨hsettled, hfields, hevents⟩ :=
    run_settled hstart hrun' (.inr ⟨hsign, r, hr, rfl, hsigned⟩)
  obtain ⟨hwf, hinv⟩ := run_signedOk hinit (hrun.append hrun')
  refine ⟨hfields, hevents, fun time reason sessionId u hle => ?_⟩
  exact decline_settled (hwf.at time) (hinv.at hle) hsettled reason

/-- A parallel envelope of two signers; the first is a user of the tenant. -/
def twoSigners : State :=
  newDraft .parallel
    [{ newSigner 1 (js "ada@example.com") with boundUserId := some 7 },
      newSigner 2 (js "bob@example.com")]
    [newField 10 1 .signature, newField 11 2 .signature]

theorem twoSigners_initial : Initial twoSigners :=
  newDraft_initial (by decide) (by decide) (by simp [newSigner]) (by simp [newField])

/-- The first signer signs in the session of their link. -/
def firstSignerSigns : List Call :=
  [⟨2, .acceptDisclosure ⟨100, 1⟩ ⟨js "2026-01", js "text-hash", none, {}⟩⟩,
    ⟨3, .fillField ⟨100, 1⟩ 10 ⟨js "Ada", some .typed⟩⟩, ⟨4, .completeSigner ⟨100, 1⟩ none⟩]

/-- The condition, as a test. -/
def signsInLastSession (s : State) (call : Call) : Bool :=
  match call.op with
  | .completeSigner ctx _ => s.sessions.all fun x => x.signerId != ctx.signerId ||
      x.id == ctx.sessionId || !x.status.isLive || decide (x.expiresAt < call.time)
  | _ => true

theorem signsInLastSession_of_test (s : State) (call : Call)
    (h : signsInLastSession s call = true) : SignsInLastSession s call := by
  unfold SignsInLastSession
  unfold signsInLastSession at h
  split
  next ctx attested hop =>
    right
    intro x hx hk hne hlive
    simp only [hop, all_eq_true, Bool.or_eq_true] at h
    have hx := h x hx
    simpa [hk, hne, hlive] using hx
  · trivial

theorem signed_is_final_firstSigner :
    ∃ s t, Run (Guarded (engineStep plainDeps) SignsInLastSession) twoSigners
        (sendNow twoSigners 0 :: firstSignerSigns) s ∧
      Run (Guarded (engineStep plainDeps) SignsInLastSession) s
        [⟨5, .acceptDisclosure ⟨101, 2⟩ ⟨js "2026-01", js "text-hash", none, {}⟩⟩,
          ⟨6, .fillField ⟨101, 2⟩ 11 ⟨js "Bob", some .typed⟩⟩] t ∧
      SignatureFinal plainDeps s t 1 := by
  obtain ⟨s, hrun, hs⟩ := guardedRun_of_exec (engineNext plainDeps)
    (fun _ _ _ => engineStep_of_next) SignsInLastSession signsInLastSession
    signsInLastSession_of_test twoSigners (sendNow twoSigners 0 :: firstSignerSigns)
    (fun s => s.envelope.status.isSignable && (s.signers.any fun r => r.id == 1 &&
      r.status == .signed) && (exec (fun s call => if signsInLastSession s call then
        engineNext plainDeps s call else none) s
          [⟨5, .acceptDisclosure ⟨101, 2⟩ ⟨js "2026-01", js "text-hash", none, {}⟩⟩,
            ⟨6, .fillField ⟨101, 2⟩ 11 ⟨js "Bob", some .typed⟩⟩]).any fun _ => true) rfl
  simp only [Bool.and_eq_true, any_eq_true, beq_iff_eq] at hs
  obtain ⟨⟨hsign, r, hr, hid, hsigned⟩, hrest⟩ := hs
  obtain ⟨t, hrun', -⟩ := guardedRun_of_exec _ (fun _ _ _ => engineStep_of_next) _ _
    signsInLastSession_of_test _ _ _ hrest
  exact ⟨s, t, hrun, hrun', hid ▸ signed_is_final twoSigners_initial hrun hsign hr hsigned hrun'⟩

/-- With a self-sign session open beside the link, the first signer signs in
one of the two and then rewrites the signature in the other. -/
theorem signature_overwritten :
    ¬ ∀ (deps : Deps) (init s t : State) (calls calls' : List Call) (r : SignerRow),
        Initial init → Run (engineStep deps) init calls s →
        s.envelope.status.isSignable = true → r ∈ s.signers → r.status = .signed →
        Run (engineStep deps) s calls' t → SignatureFinal deps s t r.id := by
  intro hclaim
  obtain ⟨s, hrun, hs⟩ := engineRun_of_exec plainDeps twoSigners
    (sendNow twoSigners 0 ::
      ⟨1, .issueSelfSignSession 7 (some (js "ada@example.com")) none 1⟩ :: firstSignerSigns)
    (fun s => s.envelope.status.isSignable && (s.signers.any fun r => r.id == 1 &&
      r.status == .signed) && (exec (engineNext plainDeps) s
        [⟨5, .fillField ⟨102, 1⟩ 10 ⟨js "Eve", some .typed⟩⟩]).any fun t =>
          (fieldsOf t 1).map (·.value) != (fieldsOf s 1).map (·.value)) rfl
  simp only [Bool.and_eq_true, any_eq_true, beq_iff_eq] at hs
  obtain ⟨⟨hsign, r, hr, hid, hsigned⟩, hrest⟩ := hs
  obtain ⟨t, hrun', hchanged⟩ := engineRun_of_exec _ _ _ _ hrest
  have hfinal := hclaim plainDeps twoSigners s t _ _ r twoSigners_initial
    hrun hsign hr hsigned hrun'
  rw [hid] at hfinal
  simp [hfinal.fields] at hchanged

end AramoPlatform.Sign
