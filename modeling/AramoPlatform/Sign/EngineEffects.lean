import AramoPlatform.Sign.EngineRuns

/-!
# What a step of the engine can do

`Effect s op t` lists the ways the rows can change: an `Ordinary` step signs
and fills nothing, and the others each have a case with the guards their
operation has checked. `run_outcome` is the only place that looks into the
operations for these rows.
-/

namespace AramoPlatform.Sign

open Js Lib

/-! ## Keys and payment books -/

/-- Payments have their own keys; a payment has a provider reference exactly
when it is collected, and refunds are of collected payments. -/
structure PaymentsWf (payments : List SignPaymentRow)
    (refunds : List (Uuid × SignPaymentRefundRow)) (nextId : Uuid) : Prop where
  keyed : Keyed (·.id) payments nextId
  refs : ∀ p ∈ payments, p.paymentRef.isSome = p.status.isCollected
  refunds : ∀ r ∈ refunds, ∃ p ∈ payments, p.id = r.1 ∧ p.status.isCollected = true

structure EngineWf (s : State) : Prop where
  sessions : Keyed (·.id) s.sessions s.nextId
  attempts : Keyed (·.id) s.attempts s.nextId
  signerIds : (s.signers.map (·.id)).Nodup
  fieldIds : (s.fields.map (·.id)).Nodup
  payments : PaymentsWf s.payments s.refunds s.nextId

theorem PaymentsWf.mono {payments : List SignPaymentRow}
    {refunds : List (Uuid × SignPaymentRefundRow)} {nextId nextId' : Uuid}
    (h : PaymentsWf payments refunds nextId) (hle : nextId ≤ nextId') :
    PaymentsWf payments refunds nextId' :=
  ⟨⟨h.keyed.nodup, fun p hp => Nat.lt_of_lt_of_le (h.keyed.lt p hp) hle⟩, h.refs, h.refunds⟩

theorem Initial.wf {s : State} (h : Initial s) : EngineWf s where
  sessions := ⟨by simp [h.noSessions], by simp [h.noSessions]⟩
  attempts := ⟨by simp [h.noAttempts], by simp [h.noAttempts]⟩
  signerIds := h.signerIds
  fieldIds := h.fieldIds
  payments := ⟨⟨by simp [h.noPayments], by simp [h.noPayments]⟩, by simp [h.noPayments],
    by simp [h.noRefunds]⟩

/-! ## Steps that sign and fill nothing -/

def AttemptsContinue (s t : State) : Prop :=
  Continues (·.id) AttemptKept (fun x => s.clock ≤ x.createdAt) s.attempts s.nextId t.attempts
    t.nextId

/-- A recipient before and after: still to sign, or with the same status. -/
structure Seen (y x : SignerRow) : Prop extends SlotKept y x where
  delegatedAt : x.delegatedAt = y.delegatedAt
  status : x.status = y.status ∨ y.status.isAwaiting = true ∧ x.status.isAwaiting = true

theorem Seen.refl (y : SignerRow) : Seen y y := ⟨SlotKept.refl y, rfl, .inl rfl⟩

structure Ordinary (s t : State) : Prop where
  status : t.envelope.status = s.envelope.status ∨
    s.envelope.status.isTerminal = false ∧ t.envelope.status.isSignable = true
  routingMode : t.envelope.routingMode = s.envelope.routingMode
  signers : List.Forall₂ Seen s.signers t.signers
  fields : t.fields = s.fields
  sessions : SessionsContinue s t
  acceptances : t.acceptances = s.acceptances
  attempts : AttemptsContinue s t
  payments : t.payments = s.payments
  refunds : t.refunds = s.refunds
  clock : t.clock = s.clock

/-! ## The effects -/

/-- The session an operation runs in: live, not past its time, the
recipient's own. -/
structure InSession (s : State) (ctx : SessionContext) (session : SigningSessionRow) : Prop where
  mem : session ∈ s.sessions
  id : session.id = ctx.sessionId
  signerId : session.signerId = ctx.signerId
  live : session.status.isLive = true
  unexpired : s.clock ≤ session.expiresAt

/-- An update of a field that keeps what identifies it. -/
structure FieldKept (y x : FieldRow) : Prop where
  id : x.id = y.id
  signerId : x.signerId = y.signerId
  fieldType : x.fieldType = y.fieldType

/-- The writes of a delegation. -/
def delegateCore (s : State) (signerId : Uuid) (g : SignerRow → SignerRow) : State :=
  ((s.updateSigner signerId g).updateFields (·.signerId == some signerId) fun f =>
    { f with value := none, signatureMethod := none, filledAt := none }).revokeSessions
      (·.signerId == signerId) s.clock

/-- The writes of a completing signer. -/
def signCore (s : State) (ctx : SessionContext) (n : FieldRow → FieldRow)
    (g : SignerRow → SignerRow) (f : SigningSessionRow → SigningSessionRow) : State :=
  ((s.updateFields (fun f => f.signerId == some ctx.signerId &&
    isServerFilledName f) n).updateSigner
    ctx.signerId g).updateSession ctx.sessionId f

/-- An ending: the status becomes `target` and every live session is revoked. -/
def endCore (s : State) (target : EnvelopeStatus) : State :=
  (s.setEnvelope { s.envelope with status := target }).revokeSessions (fun _ => true) s.clock

/-- The writes of a payment reported paid. -/
def paidCore (s : State) (payment : SignPaymentRow) (checkout : PaymentCheckoutState)
    (n : FieldRow → FieldRow) : State :=
  if s.envelope.status.isTerminal then
    s.updatePayment payment.id (paidUpdate · checkout s.clock)
  else (s.updatePayment payment.id (paidUpdate · checkout s.clock)).updateFields
    (fun f => f.id == payment.fieldId && f.filledAt.isNone) n

/-- The functions a completion writes with. -/
structure SignWrites (n : FieldRow → FieldRow) (g : SignerRow → SignerRow)
    (f : SigningSessionRow → SigningSessionRow) : Prop where
  field : ∀ x, FieldKept x (n x) ∧ (n x).filledAt.isSome = true
  slot : ∀ r, SlotKept r (g r) ∧ (g r).status = .signed ∧ (g r).delegatedAt = r.delegatedAt
  session : ∀ x, (f x).id = x.id ∧ (f x).signerId = x.signerId ∧
    (f x).expiresAt = x.expiresAt ∧
    (x.accessCodeVerifiedAt.isSome = true → (f x).accessCodeVerifiedAt.isSome = true) ∧
    (f x).status = .completed

/-- What a completing signer has passed. -/
structure MaySign (s : State) (ctx : SessionContext) (session : SigningSessionRow) : Prop where
  signable : s.envelope.status.isSignable = true
  inSession : InSession s ctx session
  gates : assertMaySign s ctx = .ok ()

/-- What a delegation by `ctx` has passed, and its writes: `g` on the slot. -/
structure Delegated (s : State) (ctx : SessionContext) (g : SignerRow → SignerRow) (t : State) :
    Prop where
  signable : s.envelope.status.isSignable = true
  inSession : ∃ session, InSession s ctx session
  slot : ∃ r ∈ s.signers, r.id = ctx.signerId ∧ r.delegatedAt = none ∧ r.status.isAwaiting = true
  writes : ∀ x, SlotKept x (g x) ∧ (g x).status = .pending ∧ (g x).delegatedAt = some s.clock
  core : CoreSame (delegateCore s ctx.signerId g) t

inductive Effect (s : State) : Op → State → Prop
  | ordinary {op : Op} {t : State} (h : Ordinary s t) : Effect s op t
  | accepted {op : Op} {t : State} {session : SigningSessionRow} {a : AcceptanceRow}
      (hsession : InSession s ⟨a.sessionId, a.signerId⟩ session)
      (hcode : assertAccessCodeCleared s ⟨a.sessionId, a.signerId⟩ = .ok ())
      (hat : a.acceptedAt = s.clock)
      (h : CoreSame (s.addAcceptance a) t) : Effect s op t
  | delegated {ctx : SessionContext} {input : DelegateInput} {t : State}
      {g : SignerRow → SignerRow} (h : Delegated s ctx g t) : Effect s (.delegateSigner ctx input) t
  | filled {op : Op} {ctx : SessionContext} {t : State} {session : SigningSessionRow}
      {field : FieldRow} {n : FieldRow → FieldRow} (hmay : MaySign s ctx session)
      (hmem : field ∈ s.fields) (hown : field.signerId = some ctx.signerId)
      (hpay : isPaymentField field = false)
      (hn : ∀ x, FieldKept x (n x) ∧ (n x).filledAt.isSome = true)
      (h : CoreSame (s.updateFields (·.id == field.id) n) t) : Effect s op t
  | signed {ctx : SessionContext} {attested : Option JsString} {t : State}
      {session : SigningSessionRow} {n : FieldRow → FieldRow} {g : SignerRow → SignerRow}
      {f : SigningSessionRow → SigningSessionRow} (hmay : MaySign s ctx session)
      (hrules : evaluateSignerFieldRules
        (s.fields.filter (·.signerId == some ctx.signerId)) = none)
      (hwrites : SignWrites n g f)
      (hrest : allSigningRecipientsSigned (signCore s ctx n g f).signers = false)
      (h : CoreSame (signCore s ctx n g f) t) : Effect s (.completeSigner ctx attested) t
  | completed {ctx : SessionContext} {attested : Option JsString} {t : State}
      {session : SigningSessionRow} {n : FieldRow → FieldRow} {g : SignerRow → SignerRow}
      {f : SigningSessionRow → SigningSessionRow} (hmay : MaySign s ctx session)
      (hrules : evaluateSignerFieldRules
        (s.fields.filter (·.signerId == some ctx.signerId)) = none)
      (hwrites : SignWrites n g f)
      (hall : allSigningRecipientsSigned (signCore s ctx n g f).signers = true)
      (h : CoreSame (endCore (signCore s ctx n g f) .completed) t) :
      Effect s (.completeSigner ctx attested) t
  | declined {signerId : Uuid} {reason : JsString} {sessionId : Option Uuid} {t : State}
      {g : SignerRow → SignerRow} (hsign : s.envelope.status.isSignable = true)
      (hsession : ∀ id, sessionId = some id →
        (∃ session, InSession s ⟨id, signerId⟩ session) ∧ assertEligible s signerId = .ok ())
      (hg : ∀ x, SlotKept x (g x) ∧ (g x).status = .declined ∧
        (g x).delegatedAt = x.delegatedAt)
      (h : CoreSame (endCore (s.updateSigner signerId g) .declined) t) :
      Effect s (.decline signerId reason sessionId) t
  | closed {op : Op} {t : State} {target : EnvelopeStatus}
      (hopen : s.envelope.status.isTerminal = false) (hterminal : target.isTerminal = true)
      (hne : target ≠ .completed) (h : CoreSame (endCore s target) t) : Effect s op t
  | paid {op : Op} {t : State} {payment : SignPaymentRow} {checkout : PaymentCheckoutState}
      {n : FieldRow → FieldRow} (hmem : payment ∈ s.payments)
      (hdue : payment.status.isCollected = false) (href : checkout.paymentRef.isSome = true)
      (hn : ∀ x, FieldKept x (n x) ∧ (n x).filledAt.isSome = true)
      (h : CoreSame (paidCore s payment checkout n) t) : Effect s op t
  | paymentMoved {op : Op} {t : State} (hwf : PaymentsWf t.payments t.refunds t.nextId)
      (hcollected : ∀ x ∈ t.payments, x.status.isCollected = true →
        ∃ y ∈ s.payments, y.fieldId = x.fieldId ∧ y.status.isCollected = true)
      (hfield : ∀ x ∈ t.payments, (∃ y ∈ s.payments, y.fieldId = x.fieldId) ∨
        ∃ f ∈ s.fields, f.id = x.fieldId ∧ isPaymentField f = true)
      (h : CoreSame { s with payments := t.payments, refunds := t.refunds } t) : Effect s op t
  | fieldsRemoved {op : Op} {t : State} {p : FieldRow → Bool}
      (hdraft : s.envelope.status = .draft)
      (h : CoreSame { s with fields := s.fields.filter p } t) : Effect s op t

/-! ## Sessions -/

section Sessions

variable {Q : Uuid → Prop} {s u v : State}

/-- The sessions at a moment inside a transaction that started in `s`, with
new sessions only for recipients in `Q`. -/
def SessionsFrom (Q : Uuid → Prop) (s u : State) : Prop :=
  Continues (·.id) SessionKept (fun x => Q x.signerId) s.sessions s.nextId u.sessions u.nextId

/-- A recipient who may be given a session. -/
def Invitable (s : State) (signerId : Uuid) : Prop :=
  s.envelope.status = .draft ∨ ∃ r ∈ s.signers, r.id = signerId ∧ r.status.isAwaiting = true

theorem SessionsFrom.start (h : EngineWf s) : SessionsFrom Q s s :=
  Continues.refl h.sessions SessionKept.refl

theorem SessionsFrom.congr (h : SessionsFrom Q s u) (hsessions : v.sessions = u.sessions)
    (hnext : u.nextId ≤ v.nextId) : SessionsFrom Q s v := by
  unfold SessionsFrom
  rw [hsessions]
  exact h.mono hnext

theorem SessionsFrom.revoke (h : SessionsFrom Q s u) (p : SigningSessionRow → Bool) (now : Nat) :
    SessionsFrom Q s (u.revokeSessions p now) := by
  refine Continues.update h (fun _ => rfl) (fun y _ x _ _ hkept hp => ?_) fun x _ hx _ => hx
  have hlive : x.status.isLive = true := by simp_all
  refine ⟨hkept.signerId, hkept.expiresAt, by simp [SessionStatus.isLive], fun hy => ?_,
    hkept.verified⟩
  rw [hkept.ended hy, hy] at hlive
  cases hlive

theorem SessionsFrom.mint (h : SessionsFrom Q s u) {n : State.NewSession} (hq : Q n.signerId) :
    SessionsFrom Q s (u.addSession n) :=
  Continues.insert h rfl hq

theorem mintSession_ok {n : State.NewSession} (h : u.mintSession n = .ok v) :
    v = u.addSession n := by
  simp only [State.mintSession, bind_eq_ok, require_eq_ok, pure_eq_ok] at h
  obtain ⟨-, -, rfl⟩ := h
  rfl

theorem SessionsFrom.updateFound (hwf : EngineWf s) (h : SessionsFrom Q s u)
    {session : SigningSessionRow} (hmem : session ∈ s.sessions)
    (hlive : session.status.isLive = true) {f : SigningSessionRow → SigningSessionRow}
    (hf : ∀ x, (f x).id = x.id ∧ (f x).signerId = x.signerId ∧ (f x).expiresAt = x.expiresAt ∧
      (x.accessCodeVerifiedAt.isSome = true → (f x).accessCodeVerifiedAt.isSome = true)) :
    SessionsFrom Q s (u.updateSession session.id f) := by
  refine Continues.update h (fun x => (hf x).1) (fun y hy x _ hkey hkept hp => ?_)
    fun x _ hq _ => by simpa only [(hf x).2.1] using hq
  have hid : x.id = session.id := by simpa using hp
  have hys : y = session := List.inj_on_of_nodup_map hwf.sessions.nodup hy
    hmem (hkey.symm.trans hid)
  subst hys
  exact ⟨(hf x).2.1.trans hkept.signerId, (hf x).2.2.1.trans hkept.expiresAt, fun _ => hlive,
    fun hdead => by simp [hlive] at hdead, fun hv => (hf x).2.2.2 (hkept.verified hv)⟩

theorem SessionsFrom.minted (h : SessionsFrom (Invitable s) s u)
    (hsign : u.envelope.status.isSignable = true) : SessionsContinue s u :=
  Continues.imp h fun _ _ hx => ⟨hsign, hx⟩

theorem SessionsFrom.kept (h : SessionsFrom (fun _ => False) s u) : SessionsContinue s u :=
  Continues.imp h fun _ _ hx => hx.elim

end Sessions

/-! ## Ordinary steps -/

section Ordinary

variable {s t u : State}

theorem AttemptsContinue.start (h : EngineWf s) : AttemptsContinue s s :=
  Continues.refl h.attempts AttemptKept.refl

theorem AttemptsContinue.congr (h : AttemptsContinue s u) (hattempts : t.attempts = u.attempts)
    (hnext : u.nextId ≤ t.nextId) : AttemptsContinue s t := by
  unfold AttemptsContinue
  rw [hattempts]
  exact h.mono hnext

theorem seen_refl (rows : List SignerRow) : List.Forall₂ Seen rows rows :=
  List.forall₂_same.mpr fun r _ => Seen.refl r

theorem CoreSame.ordinary (hwf : EngineWf s) (h : CoreSame s t) : Ordinary s t where
  status := .inl h.status
  routingMode := h.routingMode
  signers := h.signers ▸ seen_refl s.signers
  fields := h.fields
  sessions := ((SessionsFrom.start hwf).congr h.sessions h.nextId).kept
  acceptances := h.acceptances
  attempts := (AttemptsContinue.start hwf).congr h.attempts h.nextId
  payments := h.payments
  refunds := h.refunds
  clock := h.clock

theorem Ordinary.of_sessions (hwf : EngineWf s) (hsessions : SessionsContinue s t)
    (hstatus : t.envelope.status = s.envelope.status ∨
      s.envelope.status.isTerminal = false ∧ t.envelope.status.isSignable = true)
    (hrouting : t.envelope.routingMode = s.envelope.routingMode)
    (h : CoreSame { s with sessions := t.sessions, envelope := t.envelope } t) :
    Ordinary s t where
  status := hstatus
  routingMode := hrouting
  signers := h.signers ▸ seen_refl s.signers
  fields := h.fields
  sessions := hsessions
  acceptances := h.acceptances
  attempts := (AttemptsContinue.start hwf).congr h.attempts h.nextId
  payments := h.payments
  refunds := h.refunds
  clock := h.clock

/-- An update of the attempt with this id that leaves a settled one settled. -/
theorem AttemptsContinue.update (h : AttemptsContinue s u) {id : Uuid}
    {f : IdentityAttemptRow → IdentityAttemptRow}
    (hf : ∀ x, (f x).id = x.id ∧ (f x).signerId = x.signerId ∧ (f x).method = x.method ∧
      (f x).createdAt = x.createdAt)
    (hsettled : ∀ x ∈ u.attempts, x.id = id → x.status ≠ .pending → (f x).status = x.status) :
    AttemptsContinue s (u.updateAttempt id f) := by
  refine Continues.update h (fun x => (hf x).1) (fun y _ x hx _ hkept hp => ?_)
    fun x _ hx _ => (hf x).2.2.2 ▸ hx
  refine ⟨(hf x).2.1.trans hkept.signerId, (hf x).2.2.1.trans hkept.method,
    (hf x).2.2.2.trans hkept.createdAt, fun hy => ?_⟩
  have hstatus : x.status = y.status := hkept.settled hy
  rw [hsettled x hx (by simpa using hp) (hstatus ▸ hy), hstatus]

theorem seen_updateSigner {g : SignerRow → SignerRow} {id : Uuid} (hg : ∀ r, Seen r (g r)) :
    List.Forall₂ Seen s.signers (s.updateSigner id g).signers :=
  forall₂_updateWhere (fun r _ _ => Seen.refl r) fun r _ _ => hg r

end Ordinary

end AramoPlatform.Sign
