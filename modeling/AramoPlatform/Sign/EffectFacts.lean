import AramoPlatform.Sign.SideEffects

/-!
# Table by table

What every effect does to one table: sessions and attempts continue, a
recipient keeps its slot, a field keeps what identifies it, a terminal
status stays. The keys and the payment books of `EngineWf` follow, and hold
along every run.
-/

namespace AramoPlatform.Sign

open Js Lib

section

variable {deps : Deps} {s t u : State} {op : Op}

/-! ## Sessions and attempts -/

variable (payment : SignPaymentRow)

theorem paidCore_sessions (checkout : PaymentCheckoutState)
    (n : FieldRow → FieldRow) : (paidCore s payment checkout n).sessions = s.sessions ∧
      (paidCore s payment checkout n).nextId = s.nextId := by
  unfold paidCore
  split <;> exact ⟨rfl, rfl⟩

theorem sessionsFrom_signCore (hwf : EngineWf s) {ctx : SessionContext}
    {session : SigningSessionRow} {n : FieldRow → FieldRow} {g : SignerRow → SignerRow}
    {f : SigningSessionRow → SigningSessionRow} (hsession : InSession s ctx session)
    (hwrites : SignWrites n g f) : SessionsFrom (fun _ => False) s (signCore s ctx n g f) := by
  have hfrom := (SessionsFrom.start (Q := fun _ => False) hwf).updateFound hwf hsession.mem
    hsession.live fun x =>
      ⟨(hwrites.session x).1, (hwrites.session x).2.1, (hwrites.session x).2.2.1,
        (hwrites.session x).2.2.2.1⟩
  rw [hsession.id] at hfrom
  exact hfrom.congr rfl (Nat.le_refl _)

theorem Effect.sessions (hwf : EngineWf s) (h : Effect s op t) : SessionsContinue s t := by
  have hstart : SessionsFrom (fun _ => False) s s := .start hwf
  cases h with
  | ordinary h => exact h.sessions
  | accepted _ _ _ h =>
      exact SessionsFrom.kept (hstart.congr h.sessions (Nat.le_of_succ_le h.nextId))
  | @delegated ctx _ _ _ h =>
    exact SessionsFrom.kept ((hstart.revoke (·.signerId == ctx.signerId) s.clock).congr
      h.core.sessions h.core.nextId)
  | filled _ _ _ _ _ h | paymentMoved _ _ _ h | fieldsRemoved _ h =>
    exact SessionsFrom.kept (hstart.congr h.sessions h.nextId)
  | signed hmay _ hwrites _ h =>
    exact SessionsFrom.kept ((sessionsFrom_signCore hwf hmay.inSession hwrites).congr
      h.sessions h.nextId)
  | completed hmay _ hwrites _ h =>
    have hfrom := (sessionsFrom_signCore hwf hmay.inSession hwrites).revoke (fun _ => true) s.clock
    exact SessionsFrom.kept (hfrom.congr h.sessions h.nextId)
  | declined _ _ _ h | closed _ _ _ h =>
    exact SessionsFrom.kept ((hstart.revoke (fun _ => true) s.clock).congr h.sessions h.nextId)
  | @paid _ _ payment checkout n _ _ _ _ h =>
    obtain ⟨hsessions, hnext⟩ := paidCore_sessions (s := s) payment checkout n
    exact SessionsFrom.kept (hstart.congr (h.sessions.trans hsessions) (hnext ▸ h.nextId))

theorem Effect.attempts (hwf : EngineWf s) (h : Effect s op t) : AttemptsContinue s t := by
  have hstart : AttemptsContinue s s := .start hwf
  cases h with
  | ordinary h => exact h.attempts
  | accepted _ _ _ h => exact hstart.congr h.attempts (Nat.le_of_succ_le h.nextId)
  | delegated h => exact hstart.congr h.core.attempts h.core.nextId
  | filled _ _ _ _ _ h | signed _ _ _ _ h | completed _ _ _ _ h | declined _ _ _ h | closed _ _ _ h
  | paymentMoved _ _ _ h | fieldsRemoved _ h => exact hstart.congr h.attempts h.nextId
  | @paid _ _ payment checkout n _ _ _ _ h =>
    have hcore : (paidCore s payment checkout n).attempts = s.attempts := by
      unfold paidCore
      split <;> rfl
    exact hstart.congr (h.attempts.trans hcore)
      ((paidCore_sessions payment checkout n).2 ▸ h.nextId)

/-! ## Recipients and fields -/

theorem slots_updateSigner {g : SignerRow → SignerRow} {id : Uuid} (hg : ∀ r, SlotKept r (g r)) :
    List.Forall₂ SlotKept s.signers (s.updateSigner id g).signers :=
  forall₂_updateWhere (fun r _ _ => SlotKept.refl r) fun r _ _ => hg r

theorem paidCore_signers (checkout : PaymentCheckoutState)
    (n : FieldRow → FieldRow) : (paidCore s payment checkout n).signers = s.signers := by
  unfold paidCore
  split <;> rfl

theorem Effect.slots (h : Effect s op t) : List.Forall₂ SlotKept s.signers t.signers := by
  have hrefl : List.Forall₂ SlotKept s.signers s.signers :=
    List.forall₂_same.mpr fun r _ => SlotKept.refl r
  cases h with
  | ordinary h => exact h.signers.imp fun _ _ hseen => hseen.toSlotKept
  | accepted _ _ _ h | filled _ _ _ _ _ h | closed _ _ _ h | paymentMoved _ _ _ h
  | fieldsRemoved _ h => exact h.signers ▸ hrefl
  | delegated h => exact h.core.signers ▸ slots_updateSigner fun r => (h.writes r).1
  | signed _ _ hwrites _ h | completed _ _ hwrites _ h =>
    exact h.signers ▸ slots_updateSigner fun r => (hwrites.slot r).1
  | declined _ _ hg h => exact h.signers ▸ slots_updateSigner fun r => (hg r).1
  | paid _ _ _ _ h => exact (h.signers.trans (paidCore_signers _ _ _)) ▸ hrefl

theorem FieldKept.refl (f : FieldRow) : FieldKept f f := ⟨rfl, rfl, rfl⟩

theorem fields_updateWhere {p : FieldRow → Bool} {n : FieldRow → FieldRow}
    (hn : ∀ f, FieldKept f (n f)) (fields : List FieldRow) :
    List.Forall₂ FieldKept fields (updateWhere p n fields) :=
  forall₂_updateWhere (fun f _ _ => FieldKept.refl f) fun f _ _ => hn f

theorem fields_paidCore {payment : SignPaymentRow} {checkout : PaymentCheckoutState}
    {n : FieldRow → FieldRow} (hn : ∀ f, FieldKept f (n f)) :
    List.Forall₂ FieldKept s.fields (paidCore s payment checkout n).fields := by
  unfold paidCore
  split
  · exact List.forall₂_same.mpr fun f _ => FieldKept.refl f
  · exact fields_updateWhere hn s.fields

theorem Effect.fields (h : Effect s op t) : List.Forall₂ FieldKept s.fields t.fields ∨
    s.envelope.status = .draft ∧ ∃ p, t.fields = s.fields.filter p := by
  have hrefl : List.Forall₂ FieldKept s.fields s.fields :=
    List.forall₂_same.mpr fun f _ => FieldKept.refl f
  cases h with
  | ordinary h | accepted _ _ _ h | declined _ _ _ h | closed _ _ _ h | paymentMoved _ _ _ h =>
    exact .inl (h.fields ▸ hrefl)
  | delegated h =>
    refine .inl (h.core.fields ▸ fields_updateWhere (n := fun f => { f with
      value := none, signatureMethod := none, filledAt := none }) ?_ _)
    exact fun _ => ⟨rfl, rfl, rfl⟩
  | filled _ _ _ _ hn h => exact .inl (h.fields ▸ fields_updateWhere (fun f => (hn f).1) _)
  | signed _ _ hwrites _ h | completed _ _ hwrites _ h =>
    exact .inl (h.fields ▸ fields_updateWhere (fun f => (hwrites.field f).1) _)
  | paid _ _ _ hn h => exact .inl (h.fields ▸ fields_paidCore fun f => (hn f).1)
  | fieldsRemoved hdraft h => exact .inr ⟨hdraft, _, h.fields⟩

theorem Effect.mem_fields (h : Effect s op t) {x : FieldRow} (hx : x ∈ t.fields) :
    ∃ y ∈ s.fields, FieldKept y x := by
  rcases h.fields with hall | ⟨-, p, hfields⟩
  · exact exists_old_of_mem hall hx
  · rw [hfields] at hx
    exact ⟨x, List.mem_of_mem_filter hx, FieldKept.refl x⟩

/-! ## The envelope row -/

theorem paidCore_envelope (checkout : PaymentCheckoutState)
    (n : FieldRow → FieldRow) : (paidCore s payment checkout n).envelope = s.envelope ∧
      (paidCore s payment checkout n).clock = s.clock := by
  unfold paidCore
  split <;> exact ⟨rfl, rfl⟩

theorem Effect.routingMode (h : Effect s op t) :
    t.envelope.routingMode = s.envelope.routingMode := by
  cases h with
  | ordinary h | accepted _ _ _ h | filled _ _ _ _ _ h | signed _ _ _ _ h | completed _ _ _ _ h
  | declined _ _ _ h | closed _ _ _ h | paymentMoved _ _ _ h | fieldsRemoved _ h =>
    exact h.routingMode
  | paid _ _ _ _ h =>
    rw [h.routingMode, (paidCore_envelope _ _ _).1]
  | delegated h => exact h.core.routingMode

theorem Effect.clock (h : Effect s op t) : t.clock = s.clock := by
  cases h with
  | ordinary h | accepted _ _ _ h | filled _ _ _ _ _ h | signed _ _ _ _ h | completed _ _ _ _ h
  | declined _ _ _ h | closed _ _ _ h | paymentMoved _ _ _ h | fieldsRemoved _ h => exact h.clock
  | paid _ _ _ _ h =>
    rw [h.clock, (paidCore_envelope _ _ _).2]
  | delegated h => exact h.core.clock

theorem Effect.terminal (h : Effect s op t) (hterminal : s.envelope.status.isTerminal = true) :
    t.envelope.status = s.envelope.status ∧ t.fields = s.fields := by
  have hnot : s.envelope.status.isSignable = false := by
    cases hstatus : s.envelope.status <;> simp_all [EnvelopeStatus.isTerminal,
      EnvelopeStatus.isSignable]
  cases h with
  | ordinary h => exact ⟨h.status.resolve_right fun hopen => by simp [hterminal] at hopen, h.fields⟩
  | delegated h => exact absurd h.signable (by simp [hnot])
  | filled hmay | signed hmay | completed hmay => exact absurd hmay.signable (by simp [hnot])
  | declined hsign => simp [hnot] at hsign
  | closed hopen => simp [hterminal] at hopen
  | paid _ _ _ _ h =>
    rw [h.status, h.fields]
    simp [paidCore, hterminal]
  | fieldsRemoved hdraft => simp [hdraft, EnvelopeStatus.isTerminal] at hterminal
  | accepted _ _ _ h | paymentMoved _ _ _ h => exact ⟨h.status, h.fields⟩

/-! ## Keys and payment books -/

theorem CoreSame.paymentsWf (h : CoreSame u t) (hwf : PaymentsWf u.payments u.refunds u.nextId) :
    PaymentsWf t.payments t.refunds t.nextId := by
  rw [h.payments, h.refunds]
  exact hwf.mono h.nextId

/-- A payment reported paid has its reference, and refunds are still of
collected payments. -/
theorem PaymentsWf.paid {payments : List SignPaymentRow}
    {refunds : List (Uuid × SignPaymentRefundRow)} {nextId id : Uuid}
    (hwf : PaymentsWf payments refunds nextId) {checkout : PaymentCheckoutState}
    (href : checkout.paymentRef.isSome = true) (now : Nat) :
    PaymentsWf (updateWhere (·.id == id) (paidUpdate · checkout now) payments) refunds nextId := by
  refine ⟨⟨?_, fun x hx => ?_⟩, fun x hx => ?_, fun r hr => ?_⟩
  · have hids : (updateWhere (·.id == id) (paidUpdate · checkout now) payments).map (·.id) =
        payments.map (·.id) := map_updateWhere _ fun _ => rfl
    exact hids ▸ hwf.keyed.nodup
  · rcases of_mem_updateWhere hx with ⟨hmem, -⟩ | ⟨y, hmem, -, rfl⟩
    · exact hwf.keyed.lt x hmem
    · exact hwf.keyed.lt y hmem
  · rcases of_mem_updateWhere hx with ⟨hmem, -⟩ | ⟨y, hmem, -, rfl⟩
    · exact hwf.refs x hmem
    · exact href
  · obtain ⟨p, hp, hid, hc⟩ := hwf.refunds r hr
    exact exists_updateWhere hp (fun _ => ⟨hid, hc⟩) fun _ => ⟨hid, rfl⟩

theorem Effect.paymentsWf (hwf : EngineWf s) (h : Effect s op t) :
    PaymentsWf t.payments t.refunds t.nextId := by
  cases h with
  | ordinary h =>
    rw [h.payments, h.refunds]
    exact hwf.payments.mono h.sessions.le
  | accepted _ _ _ h => exact h.paymentsWf (hwf.payments.mono (Nat.le_succ _))
  | paid _ _ href _ h =>
    refine h.paymentsWf ?_
    unfold paidCore
    split
    · exact hwf.payments.paid href s.clock
    · exact hwf.payments.paid href s.clock
  | paymentMoved hwf' => exact hwf'
  | delegated h => exact h.core.paymentsWf hwf.payments
  | filled _ _ _ _ _ h | signed _ _ _ _ h | completed _ _ _ _ h
  | declined _ _ _ h | closed _ _ _ h | fieldsRemoved _ h => exact h.paymentsWf hwf.payments

theorem Effect.wf (hwf : EngineWf s) (h : Effect s op t) : EngineWf t where
  sessions := (h.sessions hwf).keyed
  attempts := (h.attempts hwf).keyed
  signerIds := by
    rw [map_eq_of_forall₂ h.slots fun _ _ hslot => hslot.id]
    exact hwf.signerIds
  fieldIds := by
    rcases h.fields with hall | ⟨-, p, hfields⟩
    · rw [map_eq_of_forall₂ hall fun _ _ hf => hf.id]
      exact hwf.fieldIds
    · rw [hfields]
      exact hwf.fieldIds.sublist (List.filter_sublist.map _)
  payments := h.paymentsWf hwf

/-! ## Steps and runs -/

theorem EngineWf.at (hwf : EngineWf s) (time : Nat) : EngineWf (s.at time) :=
  ⟨hwf.sessions, hwf.attempts, hwf.signerIds, hwf.fieldIds, hwf.payments⟩

theorem step_effect {call : Call} (hwf : EngineWf s) (h : engineStep deps s call t) :
    EngineWf (s.at call.time) ∧ Effect (s.at call.time) call.op t :=
  ⟨hwf.at call.time, (run_outcome (hwf.at call.time) h.2).effect⟩

theorem step_wf {call : Call} (hwf : EngineWf s) (h : engineStep deps s call t) : EngineWf t :=
  have ⟨hwf', heffect⟩ := step_effect hwf h
  heffect.wf hwf'

end

end AramoPlatform.Sign
