import AramoPlatform.Sign.PaymentRuns
import AramoPlatform.Lib.Rows
import Mathlib.Algebra.Order.BigOperators.Group.List
import Mathlib.Algebra.Order.Group.Nat

/-!
# Refunds of a collected payment

The runs of the refund operations on one paid payment, against a provider
that keeps its own books: it completes refunds one after the other, asked for
by Aramo or not, reports a refund as succeeded only once it is completed, and
each charge report is the total of the refunds completed up to some moment.

`RefundEffect` says what a step can do to the rows, and `RefundBooks` is what
always holds between them: the amount of the payment never changes, and a
refund stored as succeeded is one that the provider has completed.
-/

namespace AramoPlatform.Sign

open Js Lib List

/-! ## The provider's books -/

def ProviderRefund.amount : ProviderRefund → Nat
  | .internal _ a => a
  | .external a => a

/-- The refunds asked for by Aramo, with their ids. -/
def internals (h : List ProviderRefund) : List (Uuid × Nat) :=
  h.filterMap fun
    | .internal id a => some (id, a)
    | .external _ => none

/-- The provider's refunded total. -/
def providerTotal (h : List ProviderRefund) : Nat := (h.map ProviderRefund.amount).sum

/-- The part of it made outside Aramo. -/
def externalTotal (h : List ProviderRefund) : Nat :=
  (h.map fun
    | .internal _ _ => 0
    | .external a => a).sum

def amountTotal (l : List (Uuid × Nat)) : Nat := (l.map Prod.snd).sum

theorem amountTotal_cons (x : Uuid × Nat) (l : List (Uuid × Nat)) :
    amountTotal (x :: l) = x.2 + amountTotal l := by
  simp [amountTotal]

theorem providerTotal_eq (h : List ProviderRefund) :
    providerTotal h = externalTotal h + amountTotal (internals h) := by
  induction h with
  | nil => rfl
  | cons r rest ih =>
    simp only [providerTotal, externalTotal, amountTotal, internals] at ih ⊢
    cases r with
    | internal | external => simp [ProviderRefund.amount, ih]; omega

theorem internals_append (h h' : List ProviderRefund) :
    internals (h ++ h') = internals h ++ internals h' :=
  filterMap_append

theorem internals_take_sublist (h : List ProviderRefund) (n : Nat) :
    (internals (h.take n)).Sublist (internals h) :=
  (take_sublist n h).filterMap _

theorem externalTotal_take_le (h : List ProviderRefund) (n : Nat) :
    externalTotal (h.take n) ≤ externalTotal h := by
  conv_rhs => rw [← take_append_drop n h]
  simp only [externalTotal, map_append, sum_append]
  omega

theorem externalTotal_le_append (h h' : List ProviderRefund) :
    externalTotal h ≤ externalTotal (h ++ h') := by
  simp [externalTotal]

theorem amountTotal_le {l l' : List (Uuid × Nat)} (hnd : l.Nodup) (hsub : ∀ x ∈ l, x ∈ l') :
    amountTotal l ≤ amountTotal l' := by
  obtain ⟨m, hperm, hsubl⟩ := subperm_of_subset hnd hsub
  calc amountTotal l = amountTotal m := (hperm.map Prod.snd).sum_nat.symm
    _ ≤ amountTotal l' := (hsubl.map Prod.snd).sum_le_sum (by simp)

/-! ## The refund rows -/

/-- The refunds stored as succeeded. -/
def succeeded (refunds : List SignPaymentRefundRow) : List (Uuid × Nat) :=
  (refunds.filter (·.status = .succeeded)).map fun r => (r.id, r.amountMinor)

theorem succeeded_cons (r : SignPaymentRefundRow) (rest : List SignPaymentRefundRow) :
    succeeded (r :: rest) =
      if r.status = .succeeded then (r.id, r.amountMinor) :: succeeded rest
      else succeeded rest := by
  by_cases h : r.status = .succeeded <;> simp [succeeded, h]

variable {refunds : List SignPaymentRefundRow}

theorem mem_succeeded {x : Uuid × Nat} :
    x ∈ succeeded refunds ↔
      ∃ r ∈ refunds, r.status = .succeeded ∧ (r.id, r.amountMinor) = x := by
  simp [succeeded, and_assoc]

theorem succeeded_nodup
    (h : (refunds.map (·.id)).Nodup) : (succeeded refunds).Nodup := by
  have hkeys : ((succeeded refunds).map Prod.fst).Nodup := by
    have heq : (succeeded refunds).map Prod.fst =
        (refunds.filter (·.status = .succeeded)).map (·.id) := by
      simp [succeeded, Function.comp_def]
    rw [heq]
    exact h.sublist (filter_sublist.map _)
  exact hkeys.of_map

section Update

variable {refunds : List SignPaymentRefundRow} {id : Uuid}
  {f : SignPaymentRefundRow → SignPaymentRefundRow}

/-- An update that keeps the id and the amount of its row. -/
def KeepsAmount (f : SignPaymentRefundRow → SignPaymentRefundRow) : Prop :=
  ∀ r, (f r).id = r.id ∧ (f r).amountMinor = r.amountMinor

theorem updateRefund_cons (r : SignPaymentRefundRow) :
    updateRefund (r :: refunds) id f =
      (if r.id = id then f r else r) :: updateRefund refunds id f :=
  rfl

theorem updateRefund_eq : updateRefund refunds id f = updateWhere (·.id == id) f refunds := by
  simp only [updateRefund, updateWhere, beq_iff_eq]

theorem updateRefund_of_not_mem (h : id ∉ refunds.map (·.id)) :
    updateRefund refunds id f = refunds := by
  rw [updateRefund_eq]
  refine updateWhere_of_forall_not fun r hr => ?_
  exact beq_eq_false_iff_ne.mpr fun heq => h (heq ▸ mem_map_of_mem hr)

section

variable (hf : KeepsAmount f)

include hf

theorem nodup_updateRefund (h : (refunds.map (·.id)).Nodup) :
    ((updateRefund refunds id f).map (·.id)).Nodup := by
  rw [updateRefund_eq]
  exact nodup_updateWhere (fun r => (hf r).1) h

theorem booked_updateRefund {x : Uuid × Nat}
    (h : ∃ r ∈ refunds, (r.id, r.amountMinor) = x) :
    ∃ r ∈ updateRefund refunds id f, (r.id, r.amountMinor) = x := by
  obtain ⟨r, hr, rfl⟩ := h
  rw [updateRefund_eq]
  exact exists_updateWhere hr (fun _ => rfl) fun _ => by rw [(hf r).1, (hf r).2]

theorem succeeded_updateRefund
    (hst : ∀ r ∈ refunds, r.id = id → ((f r).status = .succeeded ↔ r.status = .succeeded)) :
    succeeded (updateRefund refunds id f) = succeeded refunds := by
  induction refunds with
  | nil => rfl
  | cons r rest ih =>
    rw [updateRefund_cons, succeeded_cons, succeeded_cons, ih fun r hr => hst r (by simp [hr])]
    by_cases hid : r.id = id
    · simp only [hid, if_true, hst r (by simp) hid, (hf r).1, (hf r).2]
    · simp only [hid, if_false]

theorem amountTotal_succeeded_settle (hst : ∀ r, (f r).status = .succeeded)
    (hnd : (refunds.map (·.id)).Nodup) {r : SignPaymentRefundRow} (hr : r ∈ refunds)
    (hopen : r.status ≠ .succeeded) :
    amountTotal (succeeded (updateRefund refunds r.id f)) =
      amountTotal (succeeded refunds) + r.amountMinor := by
  induction refunds with
  | nil => simp at hr
  | cons a rest ih =>
    simp only [map_cons, nodup_cons] at hnd
    rw [updateRefund_cons, succeeded_cons, succeeded_cons]
    rcases mem_cons.mp hr with rfl | hmem
    · rw [updateRefund_of_not_mem hnd.1]
      simp only [if_true, hst, hopen, if_false, amountTotal_cons, hf r]
      omega
    · have hne : a.id ≠ r.id := fun heq => hnd.1 (heq ▸ mem_map_of_mem hmem)
      have hrest := ih hnd.2 hmem
      simp only [hne, if_false]
      split
      · simp only [amountTotal_cons, hrest]
        omega
      · exact hrest

end

end Update

/-! ## Steps of the refund operations -/

/-- The operations on a collected payment, and the provider's own. -/
def IsRefundOp : PaymentAction → Prop
  | .requestRefund _ _ | .applyRefund _ _ _ | .applyRefundRead _ | .applyRefundWrite _
  | .refused _ _ | .refusedWrite _ | .charge _ _ _ _ | .chargeWrite _ | .provider _ => True
  | _ => False

/-- What the provider may do and report: it completes a refund of Aramo at
most once and with the amount asked for, reports success only of a completed
refund, and its charge totals are those of its own books. -/
def ProviderHonest (s : PaymentState) : PaymentAction → Prop
  | .provider (.internal id a) =>
      (∃ r ∈ s.refunds, r.id = id ∧ r.amountMinor = a) ∧ id ∉ (internals s.provider).map Prod.fst
  | .applyRefund _ state fallback =>
      state.status = .succeeded → ∀ r, refundOf s.refunds state fallback = some r →
        r.id ∈ (internals s.provider).map Prod.fst
  | .charge _ charge _ counted =>
      counted ≤ s.provider.length ∧
        charge.amountRefundedMinor = providerTotal (s.provider.take counted)
  | _ => True

def refundStep (toUpperCase : JsString → JsString) (s : PaymentState) (a : PaymentAction)
    (t : PaymentState) : Prop :=
  paymentStep toUpperCase s a = some t ∧ IsRefundOp a ∧ ProviderHonest s a

/-- The state without the calls under way. -/
structure PaymentRows where
  payment : Option SignPaymentRow
  refunds : List SignPaymentRefundRow
  provider : List ProviderRefund
  reports : List Nat

def PaymentState.rows (s : PaymentState) : PaymentRows :=
  ⟨s.payment, s.refunds, s.provider, s.reports⟩

/-- What a step can do to the rows. -/
inductive RefundEffect (s : PaymentState) : PaymentAction → PaymentRows → Prop
  | quiet {a : PaymentAction} : RefundEffect s a s.rows
  | requested {input : RequestRefundInput} {p : SignPaymentRow} (r : SignPaymentRefundRow)
      (hp : s.payment = some p) (hfresh : r.id ∉ s.refunds.map (·.id))
      (hstatus : r.status = .requested) (hpos : 0 < r.amountMinor)
      (hfits : max p.amountRefundedMinor (openTotal s.refunds) + r.amountMinor ≤ p.amountMinor) :
      RefundEffect s (.requestRefund input r.id) { s.rows with refunds := s.refunds ++ [r] }
  | noted {c : CallId} (id : Uuid) (ref : JsString) :
      RefundEffect s (.applyRefundWrite c) { s.rows with
        refunds := updateRefund s.refunds id fun r => { r with refundRef := some ref } }
  | moved {c : CallId} {read : SignPaymentRow} {state : PaymentRefundState}
      (r : SignPaymentRefundRow) (hr : r ∈ s.refunds) (hopen : r.status.isFinal = false)
      (hcall : s.call c = some (.refunding state r.id read)) (hst : state.status ≠ .succeeded) :
      RefundEffect s (.applyRefundWrite c) { s.rows with
        refunds := updateRefund s.refunds r.id fun r =>
          { r with status := state.status.toRow, refundRef := some state.refundRef } }
  | settled {c : CallId} {p read : SignPaymentRow} {state : PaymentRefundState}
      (r : SignPaymentRefundRow) (hr : r ∈ s.refunds) (hopen : r.status.isFinal = false)
      (hcall : s.call c = some (.refunding state r.id read)) (hst : state.status = .succeeded)
      (hp : s.payment = some p) :
      RefundEffect s (.applyRefundWrite c) { s.rows with
        refunds := updateRefund s.refunds r.id fun r =>
          { r with status := .succeeded, refundRef := some state.refundRef }
        payment := some (refundedUpdate p read.amountMinor
          (min read.amountMinor (read.amountRefundedMinor + r.amountMinor))) }
  | refused {c : CallId} {id : Uuid} (hcall : s.call c = some (.refusing id)) :
      RefundEffect s (.refusedWrite c) { s.rows with
        refunds := updateRefund s.refunds id fun r => { r with status := .failed } }
  | ignored {c : CallId} {p : SignPaymentRow} {charge : PaymentChargeState}
      {accountRef : Option JsString} {counted : Nat} (hp : s.payment = some p)
      (hsame : chargeRefunded p charge = p.amountRefundedMinor) :
      RefundEffect s (.charge c charge accountRef counted)
        { s.rows with reports := counted :: s.reports }
  | charged {c : CallId} {p read : SignPaymentRow} {charge : PaymentChargeState} {counted : Nat}
      (hcall : s.call c = some (.charging read charge counted)) (hp : s.payment = some p) :
      RefundEffect s (.chargeWrite c) { s.rows with
        payment := some (refundedUpdate p read.amountMinor (chargeRefunded read charge))
        reports := counted :: s.reports }
  | completed (refund : ProviderRefund) :
      RefundEffect s (.provider refund) { s.rows with provider := s.provider ++ [refund] }

theorem find?_id_mem {id : Uuid} {r : SignPaymentRefundRow}
    (h : refunds.find? (·.id == id) = some r) : r ∈ refunds ∧ r.id = id :=
  ⟨mem_of_find?_eq_some h, by simpa using find?_some h⟩

variable {amount : Nat}

theorem requestRefundAmount_ok {p : SignPaymentRow}
    {input : RequestRefundInput}
    (h : requestRefundAmount p refunds input = .ok amount) :
    0 < amount ∧ max p.amountRefundedMinor (openTotal refunds) + amount ≤ p.amountMinor := by
  simp only [requestRefundAmount, bind_eq_ok, require_eq_ok, pure_eq_ok, Bool.and_eq_true,
    decide_eq_true_eq] at h
  obtain ⟨_, _, _, ⟨hpos, hle⟩, rfl⟩ := h
  omega

variable {toUpperCase : JsString → JsString} {a : PaymentAction}

section Steps

variable {s t : PaymentState} {c : CallId}

theorem requestRefund_effect {input : RequestRefundInput} {id : Uuid}
    (hstep : paymentStep toUpperCase s (.requestRefund input id) = some t) :
    RefundEffect s (.requestRefund input id) t.rows := by
  simp only [paymentStep] at hstep
  split at hstep
  · cases hstep
  next p hp =>
    split at hstep
    · cases hstep
    next amount hamount =>
      split at hstep
      · cases hstep
      next hfresh =>
        cases hstep
        obtain ⟨hpos, hfits⟩ := requestRefundAmount_ok hamount
        refine .requested ⟨id, amount, .requested, none, input.reason, input.requestedBy⟩ hp ?_
          rfl hpos hfits
        simp only [PaymentState.refund, Option.not_isSome_iff_eq_none,
          find?_eq_none, beq_iff_eq] at hfresh
        simpa using hfresh

theorem applyRefundWrite_effect
    (hstep : paymentStep toUpperCase s (.applyRefundWrite c) = some t) :
    RefundEffect s (.applyRefundWrite c) t.rows := by
  simp only [paymentStep] at hstep
  split at hstep
  next state id read p hcall hp =>
    simp only [Option.map_eq_some_iff] at hstep
    obtain ⟨r, hr, rfl⟩ := hstep
    obtain ⟨hmem, rfl⟩ := find?_id_mem hr
    unfold applyRefundCommit
    dsimp only
    split
    · split
      · exact .noted r.id state.refundRef
      · exact .quiet
    next hopen =>
      rw [Bool.not_eq_true] at hopen
      split
      next hst =>
        have heff := RefundEffect.settled (s := s) r hmem hopen hcall hst hp
        rw [hst]
        exact heff
      next hst => exact .moved r hmem hopen hcall hst
  · cases hstep

theorem charge_effect {charge : PaymentChargeState} {accountRef : Option JsString} {counted : Nat}
    (hstep : paymentStep toUpperCase s (.charge c charge accountRef counted) = some t) :
    RefundEffect s (.charge c charge accountRef counted) t.rows := by
  simp only [paymentStep] at hstep
  split at hstep
  · cases hstep
  next p hp =>
    split at hstep
    · split at hstep
      next hsame =>
        cases hstep
        exact .ignored hp hsame
      · cases hstep
        exact .quiet
    · cases hstep

/-- **The steps are exhausted by their effects.** -/
theorem refundStep_effect (h : refundStep toUpperCase s a t) : RefundEffect s a t.rows := by
  obtain ⟨hstep, hop, -⟩ := h
  cases a with
  | prepare _ _ | prepareWrite _ _ | checkoutStarted _ | paid _ _ _ | paidWrite _ _
  | failed _ _ | failedWrite _ => exact hop.elim
  | requestRefund input id => exact requestRefund_effect hstep
  | applyRefund c state fallback =>
    simp only [paymentStep, Option.map_eq_some_iff] at hstep
    obtain ⟨r, _, rfl⟩ := hstep
    exact .quiet
  | applyRefundRead c =>
    simp only [paymentStep] at hstep
    split at hstep <;> cases hstep
    exact .quiet
  | applyRefundWrite c => exact applyRefundWrite_effect hstep
  | refused c refundId =>
    simp only [paymentStep] at hstep
    split at hstep
    · cases hstep
    · split at hstep <;> cases hstep
      exact .quiet
  | refusedWrite c =>
    simp only [paymentStep] at hstep
    split at hstep
    next id hcall =>
      cases hstep
      exact .refused hcall
    · cases hstep
  | charge c charge accountRef counted => exact charge_effect hstep
  | chargeWrite c =>
    simp only [paymentStep] at hstep
    split at hstep
    next read charge counted p hcall hp =>
      cases hstep
      exact .charged hcall hp
    · cases hstep
  | provider refund =>
    simp only [paymentStep, Option.some.injEq] at hstep
    subst hstep
    exact .completed refund

end Steps

/-! ## What always holds between the rows and the provider's books -/

/-- What a call under way has read, against the provider's books. -/
def CallOk (amount : Nat) (provider : List ProviderRefund) : PaymentCall → Prop
  | .refundFound state id =>
      state.status = .succeeded → id ∈ (internals provider).map Prod.fst
  | .refunding state id read =>
      (state.status = .succeeded → id ∈ (internals provider).map Prod.fst) ∧
        read.amountMinor = amount
  | .charging read charge counted =>
      counted ≤ provider.length ∧
        charge.amountRefundedMinor = providerTotal (provider.take counted) ∧
        read.amountMinor = amount
  | _ => True

/-- `amount` is the amount of the payment. -/
structure RefundBooks (amount : Nat) (s : PaymentState) : Prop where
  payment : ∃ p, s.payment = some p ∧ p.amountMinor = amount
  rowIds : (s.refunds.map (·.id)).Nodup
  bookIds : ((internals s.provider).map Prod.fst).Nodup
  booked : ∀ x ∈ internals s.provider, ∃ r ∈ s.refunds, (r.id, r.amountMinor) = x
  completed : ∀ x ∈ succeeded s.refunds, x ∈ internals s.provider
  counted : ∀ n ∈ s.reports, n ≤ s.provider.length
  calls : ∀ k ∈ s.calls, CallOk amount s.provider k.2

theorem CallOk.append {provider : List ProviderRefund} {k : PaymentCall}
    (h : CallOk amount provider k) (r : ProviderRefund) : CallOk amount (provider ++ [r]) k := by
  have hmem : ∀ id : Uuid, id ∈ (internals provider).map Prod.fst →
      id ∈ (internals (provider ++ [r])).map Prod.fst := by
    intro id hid
    rw [internals_append, map_append]
    exact mem_append_left _ hid
  cases k with
  | refundFound state id => exact fun hst => hmem id (h hst)
  | refunding state id read => exact ⟨fun hst => hmem id (h.1 hst), h.2⟩
  | charging read charge counted =>
    refine ⟨by simp only [length_append]; exact Nat.le_add_right_of_le h.1, ?_, h.2.2⟩
    rw [take_append_of_le_length h.1]
    exact h.2.1
  | _ => trivial

variable {s : PaymentState}

theorem mem_calls_of_call {c : CallId} {k : PaymentCall}
    (h : s.call c = some k) : ∃ c', (c', k) ∈ s.calls := by
  simp only [PaymentState.call, Option.map_eq_some_iff] at h
  obtain ⟨⟨c', k'⟩, hfind, rfl⟩ := h
  exact ⟨c', mem_of_find?_eq_some hfind⟩

theorem RefundBooks.call (h : RefundBooks amount s) {c : CallId}
    {k : PaymentCall} (hc : s.call c = some k) : CallOk amount s.provider k := by
  obtain ⟨c', hmem⟩ := mem_calls_of_call hc
  exact h.calls _ hmem

/-- A step leaves calls that were under way, and starts one that read the
current rows. -/
theorem callOk_step {s t : PaymentState}
    (h : RefundBooks amount s) (hstep : refundStep toUpperCase s a t) :
    ∀ k ∈ t.calls, CallOk amount t.provider k.2 := by
  obtain ⟨p, hp, hamount⟩ := h.payment
  have hfinish : ∀ c, ∀ k ∈ (s.finish c).calls, CallOk amount s.provider k.2 :=
    fun c k hk => h.calls k (mem_filter.mp hk).1
  have hstart : ∀ c k', CallOk amount s.provider k' →
      ∀ k ∈ (s.start c k').calls, CallOk amount s.provider k.2 := by
    intro c k' hk' k hk
    rcases mem_cons.mp hk with rfl | hk
    · exact hk'
    · exact hfinish c k hk
  obtain ⟨hstep, hop, hhonest⟩ := hstep
  cases a with
  | prepare _ _ | prepareWrite _ _ | checkoutStarted _ | paid _ _ _ | paidWrite _ _
  | failed _ _ | failedWrite _ => exact hop.elim
  | requestRefund input id =>
    simp only [paymentStep] at hstep
    repeat' split at hstep
    all_goals cases hstep
    exact h.calls
  | applyRefund c state fallback =>
    simp only [paymentStep, Option.map_eq_some_iff] at hstep
    obtain ⟨r, hr, rfl⟩ := hstep
    exact hstart c _ fun hst => hhonest hst r hr
  | applyRefundRead c =>
    simp only [paymentStep, hp] at hstep
    split at hstep
    · rename_i state id q hcall hq
      cases hq
      cases hstep
      exact hstart c _ ⟨h.call hcall, hamount⟩
    · cases hstep
  | applyRefundWrite c =>
    simp only [paymentStep] at hstep
    split at hstep
    · simp only [Option.map_eq_some_iff] at hstep
      obtain ⟨r, _, rfl⟩ := hstep
      unfold applyRefundCommit
      dsimp only
      repeat' split
      all_goals exact hfinish c
    · cases hstep
  | refused c refundId =>
    simp only [paymentStep] at hstep
    repeat' split at hstep
    all_goals cases hstep
    exact hstart c _ trivial
  | refusedWrite c | chargeWrite c =>
    simp only [paymentStep] at hstep
    split at hstep <;> cases hstep
    exact hfinish c
  | charge c charge accountRef counted =>
    simp only [paymentStep, hp] at hstep
    repeat' split at hstep
    all_goals cases hstep
    · exact h.calls
    · exact hstart c _ ⟨hhonest.1, hhonest.2, hamount⟩
  | provider refund =>
    simp only [paymentStep, Option.some.injEq] at hstep
    subst hstep
    exact fun k hk => (h.calls k hk).append refund

theorem keepsAmount_status (st : SignRefundStatus) (ref : Option JsString) :
    KeepsAmount fun r => { r with status := st, refundRef := ref } := fun _ => ⟨rfl, rfl⟩

theorem toRow_eq_succeeded {st : ProviderRefundStatus} :
    st.toRow = .succeeded ↔ st = .succeeded := by
  cases st <;> simp [ProviderRefundStatus.toRow]

theorem ne_succeeded_of_not_final {st : SignRefundStatus} (h : st.isFinal = false) :
    st ≠ .succeeded := by
  rintro rfl
  cases h

/-- A refund that the provider has completed and that has a row: the books
hold it with the amount of the row. -/
theorem RefundBooks.mem_internals (h : RefundBooks amount s)
    {r : SignPaymentRefundRow} (hr : r ∈ s.refunds)
    (hid : r.id ∈ (internals s.provider).map Prod.fst) :
    (r.id, r.amountMinor) ∈ internals s.provider := by
  obtain ⟨x, hx, hxid⟩ := mem_map.mp hid
  obtain ⟨r', hr', rfl⟩ := h.booked x hx
  have heq : r' = r := inj_on_of_nodup_map h.rowIds hr' hr hxid
  exact heq ▸ hx

/-- What the books say of the rows, without the calls under way. -/
structure RowsBooked (amount : Nat) (rows : PaymentRows) : Prop where
  payment : ∃ p, rows.payment = some p ∧ p.amountMinor = amount
  rowIds : (rows.refunds.map (·.id)).Nodup
  bookIds : ((internals rows.provider).map Prod.fst).Nodup
  booked : ∀ x ∈ internals rows.provider, ∃ r ∈ rows.refunds, (r.id, r.amountMinor) = x
  completed : ∀ x ∈ succeeded rows.refunds, x ∈ internals rows.provider
  counted : ∀ n ∈ rows.reports, n ≤ rows.provider.length

theorem RefundBooks.rowsBooked (h : RefundBooks amount s) : RowsBooked amount s.rows :=
  ⟨h.payment, h.rowIds, h.bookIds, h.booked, h.completed, h.counted⟩

theorem RowsBooked.books (h : RowsBooked amount s.rows)
    (calls : ∀ k ∈ s.calls, CallOk amount s.provider k.2) : RefundBooks amount s :=
  ⟨h.payment, h.rowIds, h.bookIds, h.booked, h.completed, h.counted, calls⟩

theorem RefundBooks.updated (h : RefundBooks amount s) (id : Uuid)
    {f : SignPaymentRefundRow → SignPaymentRefundRow} (hf : KeepsAmount f)
    (hst : ∀ r ∈ s.refunds, r.id = id → (f r).status = .succeeded →
      r.status = .succeeded ∨ r.id ∈ (internals s.provider).map Prod.fst) :
    RowsBooked amount { s.rows with refunds := updateRefund s.refunds id f } := by
  refine { h.rowsBooked with
    rowIds := nodup_updateRefund hf h.rowIds
    booked := fun x hx => booked_updateRefund hf (h.booked x hx)
    completed := ?_ }
  intro x hx
  obtain ⟨r, hr, hsucc, rfl⟩ := mem_succeeded.mp hx
  rw [updateRefund_eq] at hr
  rcases of_mem_updateWhere hr with ⟨hr, -⟩ | ⟨r₀, hr₀, hid, rfl⟩
  · exact h.completed _ (mem_succeeded.mpr ⟨r, hr, hsucc, rfl⟩)
  · rw [(hf r₀).1, (hf r₀).2]
    rcases hst r₀ hr₀ (eq_of_beq hid) hsucc with hold | hbook
    · exact h.completed _ (mem_succeeded.mpr ⟨r₀, hr₀, hold, rfl⟩)
    · exact h.mem_internals hr₀ hbook

section

variable {rows : PaymentRows} (h : RowsBooked amount rows)

include h

theorem RowsBooked.requested {r : SignPaymentRefundRow} (hfresh : r.id ∉ rows.refunds.map (·.id))
    (hstatus : r.status = .requested) :
    RowsBooked amount { rows with refunds := rows.refunds ++ [r] } := by
  refine { h with rowIds := ?_, booked := ?_, completed := ?_ }
  · exact nodup_concat h.rowIds fun x hx heq => hfresh (heq ▸ mem_map_of_mem hx)
  · intro x hx
    obtain ⟨r', hr', hx'⟩ := h.booked x hx
    exact ⟨r', mem_append_left _ hr', hx'⟩
  · intro x hx
    obtain ⟨r', hr', hsucc, rfl⟩ := mem_succeeded.mp hx
    rcases mem_append.mp hr' with hr' | hr'
    · exact h.completed _ (mem_succeeded.mpr ⟨r', hr', hsucc, rfl⟩)
    · rw [mem_singleton.mp hr', hstatus] at hsucc
      cases hsucc

theorem RowsBooked.reported {n : Nat} (hn : n ≤ rows.provider.length) :
    RowsBooked amount { rows with reports := n :: rows.reports } := by
  refine { h with counted := fun m hm => ?_ }
  rcases mem_cons.mp hm with rfl | hm
  · exact hn
  · exact h.counted m hm

/-- The provider completes a refund: one from outside, or one of a row that it has not completed
yet. -/
theorem RowsBooked.provided {refund : ProviderRefund} (hinternal : ∀ id a,
    refund = .internal id a → (∃ r ∈ rows.refunds, (r.id, r.amountMinor) = (id, a)) ∧
      id ∉ (internals rows.provider).map Prod.fst) :
    RowsBooked amount { rows with provider := rows.provider ++ [refund] } := by
  have hcounted : ∀ n ∈ rows.reports, n ≤ (rows.provider ++ [refund]).length := by
    intro n hn
    rw [length_append]
    exact Nat.le_add_right_of_le (h.counted n hn)
  have hcompleted : ∀ x ∈ succeeded rows.refunds, x ∈ internals (rows.provider ++ [refund]) := by
    intro x hx
    rw [internals_append]
    exact mem_append_left _ (h.completed x hx)
  refine { h with bookIds := ?_, booked := ?_, completed := hcompleted, counted := hcounted }
  all_goals
    dsimp only
    rw [internals_append]
  · cases refund with
    | external a => exact (append_nil (internals rows.provider)).symm ▸ h.bookIds
    | internal id a =>
      exact nodup_concat h.bookIds fun x hx heq =>
        (hinternal id a rfl).2 (mem_map.mpr ⟨x, hx, heq⟩)
  · intro x hx
    rcases mem_append.mp hx with hx | hx
    · exact h.booked x hx
    · cases refund with
      | external a => cases hx
      | internal id a =>
        obtain rfl := mem_singleton.mp hx
        exact (hinternal id a rfl).1

end

/-- **The books are kept by every step.** -/
theorem refundBooks_step {s t : PaymentState}
    (h : RefundBooks amount s) (hstep : refundStep toUpperCase s a t) :
    RefundBooks amount t := by
  refine RowsBooked.books ?_ (callOk_step h hstep)
  have hhonest := hstep.2.2
  have heff := refundStep_effect hstep
  obtain ⟨p, hp, hamount⟩ := h.payment
  generalize t.rows = rows at heff
  cases heff with
  | quiet => exact h.rowsBooked
  | requested r _ hfresh hstatus _ _ => exact h.rowsBooked.requested hfresh hstatus
  | noted id ref =>
    exact h.updated id (f := fun r => { r with refundRef := some ref }) (fun _ => ⟨rfl, rfl⟩)
      fun _ _ _ hst => .inl hst
  | @moved c read state r hr hopen hcall hst =>
    exact h.updated r.id (keepsAmount_status state.status.toRow (some state.refundRef))
      fun _ _ _ hs => absurd (toRow_eq_succeeded.mp hs) hst
  | @settled c q read state r hr hopen hcall hst hq =>
    rw [hp] at hq
    cases hq
    have hrows := h.updated r.id (keepsAmount_status .succeeded (some state.refundRef))
      fun r' _ hid _ => .inr (hid ▸ (h.call hcall).1 hst)
    exact { hrows with payment := ⟨_, rfl, hamount⟩ }
  | @refused c id hcall =>
    exact h.updated id (f := fun r => { r with status := .failed }) (fun _ => ⟨rfl, rfl⟩)
      fun _ _ _ hs => by cases hs
  | ignored hp hsame => exact h.rowsBooked.reported hhonest.1
  | @charged c q read charge counted hcall hq =>
    rw [hp] at hq
    cases hq
    exact { h.rowsBooked.reported (h.call hcall).1 with payment := ⟨_, rfl, hamount⟩ }
  | completed refund =>
    refine h.rowsBooked.provided ?_
    rintro id a rfl
    obtain ⟨⟨r, hr, hid, hamount⟩, hfresh⟩ := hhonest
    exact ⟨⟨r, hr, Prod.ext hid hamount⟩, hfresh⟩

end AramoPlatform.Sign
