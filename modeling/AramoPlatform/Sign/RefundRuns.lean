import AramoPlatform.Sign.RefundSteps

/-!
# Refund accounting over whole runs

Two results about the refund operations on a paid payment, in any order and
with any number of redeliveries. The stored total is exact when every write
of it finds the total its call has read, and a charge report is only applied
once the refunds of Aramo that it counts are stored as succeeded. The refunds
that `requestRefund` records fit in the payment when, besides, a report never
omits a refund already stored as succeeded, and nothing is requested while
refunds from outside and unsettled refunds of Aramo are both on the books.
-/

namespace AramoPlatform.Sign

open Js Lib List

/-- The stored refunded total. -/
def refundedOf (s : PaymentState) : Nat := (s.payment.map (·.amountRefundedMinor)).getD 0

/-- A payment before any refund. -/
def paidState (p : SignPaymentRow) : PaymentState :=
  { PaymentState.initial with payment := some p }

/-- The row a call has read still has the stored total. -/
def ReadIsCurrent (s : PaymentState) (read : SignPaymentRow) : Prop :=
  read.amountRefundedMinor = refundedOf s

/-- `applyRefundState` stores a success on the total it has read. -/
def SettlesCurrent (s : PaymentState) (c : CallId) : Prop :=
  ∀ state id read, s.call c = some (.refunding state id read) → state.status = .succeeded →
    ∀ r ∈ s.refunds, r.id = id → r.status.isFinal = false → ReadIsCurrent s read

/-- `refundRefused` still finds the refund it has read as requested. -/
def RefusesRequested (s : PaymentState) (c : CallId) : Prop :=
  ∀ id, s.call c = some (.refusing id) → ∀ r ∈ s.refunds, r.id = id → r.status = .requested

theorem refundBooks_paidState (p : SignPaymentRow) : RefundBooks p.amountMinor (paidState p) :=
  ⟨⟨p, rfl, rfl⟩, .nil, .nil, by simp [paidState, PaymentState.initial, internals],
    by simp [paidState, PaymentState.initial, succeeded], by simp [paidState, PaymentState.initial],
    by simp [paidState, PaymentState.initial]⟩

variable {s : PaymentState} {amount : Nat}

section

variable (h : RefundBooks amount s)

include h

theorem internalTotal_le_succeeded
    {n : Nat} (hall : ∀ x ∈ internals (s.provider.take n), x ∈ succeeded s.refunds) :
    amountTotal (internals (s.provider.take n)) ≤ amountTotal (succeeded s.refunds) := by
  have hnd : (internals (s.provider.take n)).Nodup :=
    (h.bookIds.of_map).sublist (internals_take_sublist s.provider n)
  exact amountTotal_le hnd hall

theorem succeededTotal_le_internals
    {n : Nat} (hall : ∀ x ∈ succeeded s.refunds, x ∈ internals (s.provider.take n)) :
    amountTotal (succeeded s.refunds) ≤ amountTotal (internals (s.provider.take n)) :=
  amountTotal_le (succeeded_nodup h.rowIds) hall

theorem succeeded_moved
    {r : SignPaymentRefundRow} (hr : r ∈ s.refunds) (hr' : r.status ≠ .succeeded)
    {f : SignPaymentRefundRow → SignPaymentRefundRow} (hf : KeepsAmount f)
    (hst : (f r).status ≠ .succeeded) :
    succeeded (updateRefund s.refunds r.id f) = succeeded s.refunds := by
  refine succeeded_updateRefund hf fun r₀ hr₀ hid => ?_
  have heq : r₀ = r := inj_on_of_nodup_map h.rowIds hr₀ hr hid
  subst heq
  exact ⟨fun hs => absurd hs hst, fun hs => absurd hs hr'⟩

end

theorem succeeded_refused {id : Uuid}
    (hreq : ∀ r ∈ s.refunds, r.id = id → r.status = .requested) :
    succeeded (updateRefund s.refunds id fun r => { r with status := .failed }) =
      succeeded s.refunds := by
  refine succeeded_updateRefund (fun _ => ⟨rfl, rfl⟩) fun r hr hid => ?_
  simp [hreq r hr hid]

theorem succeeded_requested (refunds : List SignPaymentRefundRow) {r : SignPaymentRefundRow}
    (h : r.status = .requested) : succeeded (refunds ++ [r]) = succeeded refunds := by
  simp [succeeded, h]

theorem succeeded_noted (refunds : List SignPaymentRefundRow) (id : Uuid) (ref : JsString) :
    succeeded (updateRefund refunds id fun r => { r with refundRef := some ref }) =
      succeeded refunds :=
  succeeded_updateRefund (fun _ => ⟨rfl, rfl⟩) fun _ _ _ => Iff.rfl

/-! ## What a step does to the totals -/

/-- Every write of the total finds the one its call has read, and a refused refund
is still requested. -/
def InTurn (s : PaymentState) : PaymentAction → Prop
  | .applyRefundWrite c => SettlesCurrent s c
  | .refusedWrite c => RefusesRequested s c
  | .chargeWrite c =>
      ∀ read charge counted, s.call c = some (.charging read charge counted) → ReadIsCurrent s read
  | _ => True

/-- The stored total, the refunds stored as succeeded, the provider's books and the
reports after a step. -/
inductive TotalMove (amount : Nat) (s : PaymentState) : PaymentAction → Nat →
    List (Uuid × Nat) → List ProviderRefund → List Nat → Prop
  | kept {a succ} (hsucc : succ = succeeded s.refunds) :
      TotalMove amount s a (refundedOf s) succ s.provider s.reports
  | settled {a succ} (n : Nat) (hsucc : amountTotal succ = amountTotal (succeeded s.refunds) + n)
      (hstays : ∀ x ∈ succeeded s.refunds, x ∈ succ) :
      TotalMove amount s a (min amount (refundedOf s + n)) succ s.provider s.reports
  | ignored {c p charge accountRef counted} (hp : s.payment = some p)
      (hsame : chargeRefunded p charge = p.amountRefundedMinor)
      (hmin : min amount (providerTotal (s.provider.take counted)) ≤ refundedOf s) :
      TotalMove amount s (.charge c charge accountRef counted) (refundedOf s) (succeeded s.refunds)
        s.provider (counted :: s.reports)
  | charged {c read charge counted} (hcall : s.call c = some (.charging read charge counted)) :
      TotalMove amount s (.chargeWrite c)
        (min amount (max (refundedOf s) (providerTotal (s.provider.take counted))))
        (succeeded s.refunds) s.provider (counted :: s.reports)
  | completed (refund : ProviderRefund) :
      TotalMove amount s (.provider refund) (refundedOf s) (succeeded s.refunds)
        (s.provider ++ [refund]) s.reports

variable {toUpperCase : JsString → JsString}

theorem totalMove_of_step {s t : PaymentState} {a : PaymentAction} (hb : RefundBooks amount s)
    (hstep : refundStep toUpperCase s a t) (hok : InTurn s a) :
    TotalMove amount s a (refundedOf t) (succeeded t.refunds) t.provider t.reports := by
  have heff := refundStep_effect hstep
  have hhonest := hstep.2.2
  obtain ⟨p, hp, hamount⟩ := hb.payment
  have hrefunded : refundedOf s = p.amountRefundedMinor := by simp [refundedOf, hp]
  show TotalMove amount s a ((t.rows.payment.map (·.amountRefundedMinor)).getD 0)
    (succeeded t.rows.refunds) t.rows.provider t.rows.reports
  clear hstep
  generalize t.rows = rows at heff
  cases heff with
  | quiet => exact .kept rfl
  | requested r _ _ hstatus _ _ => exact .kept (succeeded_requested s.refunds hstatus)
  | noted id ref => exact .kept (succeeded_noted s.refunds id ref)
  | @moved c read state r hr hopen hcall hst =>
    exact .kept (succeeded_moved hb hr (ne_succeeded_of_not_final hopen)
      (keepsAmount_status state.status.toRow (some state.refundRef)) (mt toRow_eq_succeeded.mp hst))
  | @settled c q read state r hr hopen hcall hst hq =>
    have hread : read.amountRefundedMinor = refundedOf s := hok _ _ _ hcall hst r hr rfl hopen
    have hreadAmount : read.amountMinor = amount := (hb.call hcall).2
    simp only [refundedUpdate, Option.map_some, Option.getD_some, hread, hreadAmount]
    refine .settled r.amountMinor (amountTotal_succeeded_settle
      (keepsAmount_status .succeeded (some state.refundRef)) (fun _ => rfl) hb.rowIds hr
      (ne_succeeded_of_not_final hopen)) fun x hx => ?_
    obtain ⟨r₀, hr₀, hs₀, rfl⟩ := mem_succeeded.mp hx
    refine mem_succeeded.mpr ⟨_, mem_map_of_mem hr₀, ?_, ?_⟩
    · split
      · rfl
      · exact hs₀
    · split <;> rfl
  | @refused c id hcall => exact .kept (succeeded_refused (hok id hcall))
  | @ignored c q charge accountRef counted hq hsame =>
    rw [hp] at hq
    cases hq
    refine .ignored hp hsame ?_
    simp only [chargeRefunded, hamount, hhonest.2] at hsame
    omega
  | @charged c q read charge counted hcall hq =>
    have hread : read.amountRefundedMinor = refundedOf s := hok _ _ _ hcall
    obtain ⟨hlen, htotal, hreadAmount⟩ := hb.call hcall
    simp only [refundedUpdate, Option.map_some, Option.getD_some, chargeRefunded, hread,
      hreadAmount, htotal]
    exact .charged hcall
  | completed refund => exact .completed refund

/-! ## The total is exact -/

/-- Every write of the total finds the one its call has read, and a charge
report is applied after the refunds of Aramo it counts. -/
def InStep (s : PaymentState) : PaymentAction → Prop
  | .applyRefundWrite c => SettlesCurrent s c
  | .refusedWrite c => RefusesRequested s c
  | .chargeWrite c =>
      ∀ read charge counted, s.call c = some (.charging read charge counted) →
        ReadIsCurrent s read ∧
          ∀ x ∈ internals (s.provider.take counted), x ∈ succeeded s.refunds
  | _ => True

/-- The stored total against the books: at most what was refunded, and at
least what every processed report said. -/
structure TotalOk (amount : Nat) (s : PaymentState) : Prop where
  le_amount : refundedOf s ≤ amount
  le_books : refundedOf s ≤ externalTotal s.provider + amountTotal (succeeded s.refunds)
  ge_report : ∀ n ∈ s.reports, min amount (providerTotal (s.provider.take n)) ≤ refundedOf s

theorem InStep.inTurn {a : PaymentAction} (h : InStep s a) : InTurn s a := by
  cases a with
  | chargeWrite c => exact fun read charge counted hcall => (h read charge counted hcall).1
  | _ => exact h

theorem totalOk_step {s t : PaymentState}
    {a : PaymentAction} (hb : RefundBooks amount s) (h : TotalOk amount s)
    (hstep : refundStep toUpperCase s a t) (hok : InStep s a) : TotalOk amount t := by
  have hmove := totalMove_of_step hb hstep hok.inTurn
  obtain ⟨hle, hbooks, hreport⟩ := h
  suffices hrows : refundedOf t ≤ amount ∧
      refundedOf t ≤ externalTotal t.provider + amountTotal (succeeded t.refunds) ∧
      ∀ n ∈ t.reports, min amount (providerTotal (t.provider.take n)) ≤ refundedOf t from
    ⟨hrows.1, hrows.2.1, hrows.2.2⟩
  generalize refundedOf t = total, succeeded t.refunds = succ, t.provider = provider,
    t.reports = reports at hmove
  cases hmove with
  | kept hsucc => exact ⟨hle, hsucc ▸ hbooks, hreport⟩
  | settled n hsucc _ =>
    refine ⟨Nat.min_le_left _ _, by omega, fun m hm => ?_⟩
    have := hreport m hm
    omega
  | ignored _ _ hmin => exact ⟨hle, hbooks, forall_mem_cons.mpr ⟨hmin, hreport⟩⟩
  | @charged c read charge counted hcall =>
    have hint := internalTotal_le_succeeded hb (hok _ _ _ hcall).2
    have hext := externalTotal_take_le s.provider counted
    have hsplit := providerTotal_eq (s.provider.take counted)
    refine ⟨Nat.min_le_left _ _, by omega, forall_mem_cons.mpr ⟨by omega, fun m hm => ?_⟩⟩
    have := hreport m hm
    omega
  | completed refund =>
    refine ⟨hle, ?_, fun n hn => ?_⟩
    · have := externalTotal_le_append s.provider [refund]
      exact Nat.le_trans hbooks (Nat.add_le_add_right this _)
    · rw [take_append_of_le_length (hb.counted n hn)]
      exact hreport n hn

theorem succeededTotal_le_books (h : RefundBooks amount s) :
    amountTotal (succeeded s.refunds) ≤ amountTotal (internals s.provider) :=
  amountTotal_le (succeeded_nodup h.rowIds) h.completed

/-- **Refund accounting is exact.** In every run whose writes are in step, the
stored total never exceeds what the provider has refunded, and it is that
amount, capped by the payment, once the report of it has been processed,
whatever the order of the other steps. -/
theorem refunded_total_exact (toUpperCase : JsString → JsString) (p : SignPaymentRow)
    (hzero : p.amountRefundedMinor = 0) (as : List PaymentAction) (s : PaymentState)
    (hrun : Run (Guarded (refundStep toUpperCase) InStep) (paidState p) as s) :
    refundedOf s ≤ providerTotal s.provider ∧
      (s.provider.length ∈ s.reports →
        refundedOf s = min p.amountMinor (providerTotal s.provider)) := by
  have hinit : RefundBooks p.amountMinor (paidState p) ∧ TotalOk p.amountMinor (paidState p) := by
    have hstart : refundedOf (paidState p) = 0 := hzero
    refine ⟨refundBooks_paidState p, by rw [hstart]; exact Nat.zero_le _,
      by rw [hstart]; exact Nat.zero_le _, by simp [paidState, PaymentState.initial]⟩
  obtain ⟨hb, htotal⟩ := hrun.invariant
    (I := fun s => RefundBooks p.amountMinor s ∧ TotalOk p.amountMinor s)
    (fun s a t hs hst => ⟨refundBooks_step hs.1 hst.1, totalOk_step hs.1 hs.2 hst.1 hst.2⟩) hinit
  have hbooks := htotal.le_books
  have hsucc := succeededTotal_le_books hb
  have hsplit := providerTotal_eq s.provider
  refine ⟨by omega, fun hlast => ?_⟩
  have hge := htotal.ge_report _ hlast
  rw [take_length] at hge
  have hle := htotal.le_amount
  omega

/-- A request for an amount. -/
def refundInput (amount : Nat) : RequestRefundInput :=
  { amountMinor := some amount, reason := none, requestedBy := 5 }

/-- The provider's answer that refund 20 has succeeded. -/
def refund20Succeeded : PaymentRefundState :=
  { refundRef := js "re_20", status := .succeeded, refundId := some 20 }

/-- A refund of 3.00 is requested, completed and stored, and then reported in
the total of the charge. -/
theorem refunded_total_exact_in_order :
    refundedOf { PaymentState.initial with
      payment := some (refundedUpdate tenDollarsPaid 1000 300)
      refunds := [⟨20, 300, .succeeded, some (js "re_20"), none, 5⟩]
      provider := [.internal 20 300], reports := [1] } = 300 := by
  refine (refunded_total_exact id tenDollarsPaid rfl
    [.requestRefund (refundInput 300) 20, .provider (.internal 20 300),
      .applyRefund 1 refund20Succeeded none, .applyRefundRead 1, .applyRefundWrite 1,
      .charge 2 ⟨js "pi_1", 300⟩ none 1] _ ?_).2 (by simp)
  refine .cons ⟨⟨rfl, trivial, trivial⟩, trivial⟩ ?_
  refine .cons ⟨⟨rfl, trivial, ⟨_, mem_singleton_self _, rfl, rfl⟩, by
    simp [internals, paidState,
    PaymentState.initial]⟩, trivial⟩ ?_
  refine .cons ⟨⟨rfl, trivial, fun _ r hr => ?_⟩, trivial⟩ ?_
  · cases hr
    exact mem_singleton_self _
  refine .cons ⟨⟨rfl, trivial, trivial⟩, trivial⟩ ?_
  refine .cons ⟨⟨rfl, trivial, trivial⟩, fun _ _ _ hc _ _ _ _ _ => ?_⟩ ?_
  · cases hc
    rfl
  · exact .cons ⟨⟨rfl, trivial, by decide, rfl⟩, trivial⟩ (.nil _)

/-- The charge report that counts the refund is applied first, and the
refund is then added to it. -/
theorem refunded_total_counted_twice :
    ¬ ∀ (toUpperCase : JsString → JsString) (p : SignPaymentRow), p.amountRefundedMinor = 0 →
        ∀ (as : List PaymentAction) (s : PaymentState),
          Run (refundStep toUpperCase) (paidState p) as s →
          refundedOf s ≤ providerTotal s.provider ∧
            (s.provider.length ∈ s.reports →
              refundedOf s = min p.amountMinor (providerTotal s.provider)) := by
  intro hclaim
  have hrun : Run (refundStep id) (paidState tenDollarsPaid)
      [.requestRefund (refundInput 300) 20, .provider (.internal 20 300),
        .charge 2 ⟨js "pi_1", 300⟩ none 1, .chargeWrite 2,
        .applyRefund 1 refund20Succeeded none, .applyRefundRead 1, .applyRefundWrite 1]
      { PaymentState.initial with
        payment := some (refundedUpdate tenDollarsPaid 1000 600)
        refunds := [⟨20, 300, .succeeded, some (js "re_20"), none, 5⟩]
        provider := [.internal 20 300], reports := [1] } := by
    refine .cons ⟨rfl, trivial, trivial⟩ ?_
    refine .cons ⟨rfl, trivial, ⟨_, mem_singleton_self _, rfl, rfl⟩, by simp [internals,
      paidState, PaymentState.initial]⟩ ?_
    refine .cons ⟨rfl, trivial, by decide, rfl⟩ ?_
    refine .cons ⟨rfl, trivial, trivial⟩ ?_
    refine .cons ⟨rfl, trivial, fun _ r hr => ?_⟩ ?_
    · cases hr
      exact mem_singleton_self _
    refine .cons ⟨rfl, trivial, trivial⟩ ?_
    exact .cons ⟨rfl, trivial, trivial⟩ (.nil _)
  exact absurd (hclaim id _ rfl _ _ hrun).1 (by decide)

/-! ## The refunds fit in the payment -/

/-- The refunds made outside Aramo, as far as processed reports told. -/
def recordedExternal (s : PaymentState) : Nat :=
  (s.reports.map fun n => externalTotal (s.provider.take n)).foldr max 0

theorem recordedExternal_add_le {x amount : Nat} :
    recordedExternal s + x ≤ amount ↔
      x ≤ amount ∧ ∀ n ∈ s.reports, externalTotal (s.provider.take n) + x ≤ amount := by
  unfold recordedExternal
  induction s.reports with
  | nil => simp
  | cons n rest ih =>
    have hmax : ∀ d c : Nat, max d c + x ≤ amount ↔ d + x ≤ amount ∧ c + x ≤ amount := by
      omega
    simp only [map_cons, foldr_cons, forall_mem_cons, hmax, ih]
    tauto

/-- A charge report counts every refund of Aramo already stored as succeeded. -/
def CountsAll (s : PaymentState) (counted : Nat) : Prop :=
  ∀ x ∈ succeeded s.refunds, x ∈ internals (s.provider.take counted)

/-- The condition under which requested refunds fit. -/
def FitsInStep (s : PaymentState) : PaymentAction → Prop
  | .requestRefund _ _ =>
      recordedExternal s = 0 ∨ ∀ r ∈ s.refunds, r.status ≠ .requested ∧ r.status ≠ .pending
  | .applyRefundWrite c => SettlesCurrent s c
  | .refusedWrite c => RefusesRequested s c
  | .charge _ charge _ counted =>
      ∀ p, s.payment = some p → chargeRefunded p charge = p.amountRefundedMinor →
        CountsAll s counted
  | .chargeWrite c =>
      ∀ read charge counted, s.call c = some (.charging read charge counted) →
        ReadIsCurrent s read ∧ CountsAll s counted
  | _ => True

/-- The stored total covers what is recorded from outside and the refunds of
Aramo stored as succeeded. -/
structure CoverOk (amount : Nat) (s : PaymentState) : Prop where
  le_amount : refundedOf s ≤ amount
  covers : ∀ n ∈ s.reports,
    min amount (externalTotal (s.provider.take n) + amountTotal (succeeded s.refunds)) ≤
      refundedOf s

/-- The refunds of Aramo stored as succeeded stay so. -/
def StaysSucceeded (s t : PaymentState) : Prop :=
  ∀ x ∈ succeeded s.refunds, x ∈ succeeded t.refunds

theorem FitsInStep.inTurn {a : PaymentAction} (h : FitsInStep s a) : InTurn s a := by
  cases a with
  | chargeWrite c => exact fun read charge counted hcall => (h read charge counted hcall).1
  | applyRefundWrite _ | refusedWrite _ => exact h
  | _ => trivial

theorem coverOk_step {s t : PaymentState}
    {a : PaymentAction} (hb : RefundBooks amount s) (h : CoverOk amount s)
    (hstep : refundStep toUpperCase s a t) (hok : FitsInStep s a) :
    CoverOk amount t ∧ StaysSucceeded s t := by
  have hmove := totalMove_of_step hb hstep hok.inTurn
  obtain ⟨hle, hcovers⟩ := h
  suffices hrows : (refundedOf t ≤ amount ∧ ∀ n ∈ t.reports, min amount
      (externalTotal (t.provider.take n) + amountTotal (succeeded t.refunds)) ≤ refundedOf t) ∧
      ∀ x ∈ succeeded s.refunds, x ∈ succeeded t.refunds from ⟨⟨hrows.1.1, hrows.1.2⟩, hrows.2⟩
  generalize refundedOf t = total, succeeded t.refunds = succ, t.provider = provider,
    t.reports = reports at hmove
  -- a report that counts all refunds stored as succeeded covers them
  have hreport : ∀ n, CountsAll s n → externalTotal (s.provider.take n) +
      amountTotal (succeeded s.refunds) ≤ providerTotal (s.provider.take n) := by
    intro n hall
    rw [providerTotal_eq]
    exact Nat.add_le_add_left (succeededTotal_le_internals hb hall) _
  cases hmove with
  | kept hsucc =>
    subst hsucc
    exact ⟨⟨hle, hcovers⟩, fun _ hx => hx⟩
  | settled n hsucc hstays =>
    refine ⟨⟨Nat.min_le_left _ _, fun m hm => ?_⟩, hstays⟩
    have := hcovers m hm
    omega
  | @ignored c p charge accountRef counted hp hsame hmin =>
    have hall := hreport _ (hok p hp hsame)
    exact ⟨⟨hle, forall_mem_cons.mpr ⟨by omega, hcovers⟩⟩, fun _ hx => hx⟩
  | @charged c read charge counted hcall =>
    have hall := hreport _ (hok _ _ _ hcall).2
    refine ⟨⟨Nat.min_le_left _ _, forall_mem_cons.mpr ⟨by omega, fun m hm => ?_⟩⟩,
      fun _ hx => hx⟩
    have := hcovers m hm
    omega
  | completed refund =>
    refine ⟨⟨hle, fun n hn => ?_⟩, fun _ hx => hx⟩
    rw [take_append_of_le_length (hb.counted n hn)]
    exact hcovers n hn

theorem openTotal_eq_succeeded {refunds : List SignPaymentRefundRow}
    (h : ∀ r ∈ refunds, r.status ≠ .requested ∧ r.status ≠ .pending) :
    openTotal refunds = amountTotal (succeeded refunds) := by
  have hfilter : refunds.filter (·.status.isOpen) = refunds.filter (·.status = .succeeded) := by
    refine filter_congr fun r hr => ?_
    obtain ⟨hreq, hpend⟩ := h r hr
    cases hst : r.status <;> simp_all [SignRefundStatus.isOpen]
  simp [openTotal, amountTotal, succeeded, hfilter, Function.comp_def]

theorem requestRefund_fits {s t : PaymentState}
    {input : RequestRefundInput} {id : Uuid} (hb : RefundBooks amount s) (h : CoverOk amount s)
    (hstep : refundStep toUpperCase s (.requestRefund input id) t)
    (hok : FitsInStep s (.requestRefund input id)) :
    recordedExternal t + openTotal t.refunds ≤ amount := by
  obtain ⟨p, hp, hamount⟩ := hb.payment
  have hrefunded : refundedOf s = p.amountRefundedMinor := by simp [refundedOf, hp]
  obtain ⟨hstep, -, -⟩ := hstep
  have hrows : recordedExternal t = recordedExternal s ∧
      ∃ r : SignPaymentRefundRow, t.refunds = s.refunds ++ [r] ∧ r.status = .requested ∧
        0 < r.amountMinor ∧
        max p.amountRefundedMinor (openTotal s.refunds) + r.amountMinor ≤ amount := by
    simp only [paymentStep, hp] at hstep
    repeat' split at hstep
    all_goals cases hstep
    rename_i n hn _
    obtain ⟨hpos, hfits⟩ := requestRefundAmount_ok hn
    exact ⟨rfl, _, rfl, rfl, hpos, hamount ▸ hfits⟩
  obtain ⟨hext, r, hrefunds, hstatus, hpos, hfits⟩ := hrows
  have hopen : openTotal t.refunds = openTotal s.refunds + r.amountMinor := by
    rw [hrefunds]
    simp [openTotal, hstatus, SignRefundStatus.isOpen]
  rw [hext, hopen]
  rcases hok with hzero | hsettled
  · omega
  · rw [openTotal_eq_succeeded hsettled] at hfits ⊢
    refine recordedExternal_add_le.mpr ⟨by omega, fun n hn => ?_⟩
    have := h.covers n hn
    omega

/-- **Refunds never exceed the payment.** In every run that meets the
condition, each accepted request leaves the recorded refunds from outside and
all open refunds of Aramo within the amount, and a refund stored as succeeded
is never marked failed. -/
theorem refunds_fit_payment (toUpperCase : JsString → JsString) (p : SignPaymentRow)
    (hzero : p.amountRefundedMinor = 0) (as : List PaymentAction) (s : PaymentState)
    (hrun : Run (Guarded (refundStep toUpperCase) FitsInStep) (paidState p) as s) :
    (∀ input id t, Guarded (refundStep toUpperCase) FitsInStep s (.requestRefund input id) t →
        recordedExternal t + openTotal t.refunds ≤ p.amountMinor) ∧
      ∀ bs t, Run (Guarded (refundStep toUpperCase) FitsInStep) s bs t →
        ∀ r ∈ s.refunds, r.status = .succeeded →
          ∀ r' ∈ t.refunds, r'.id = r.id → r'.status = .succeeded := by
  have hinit : RefundBooks p.amountMinor (paidState p) ∧ CoverOk p.amountMinor (paidState p) := by
    have hstart : refundedOf (paidState p) = 0 := hzero
    exact ⟨refundBooks_paidState p, by rw [hstart]; exact Nat.zero_le _,
      by simp [paidState, PaymentState.initial]⟩
  have hkeep : ∀ s a t, RefundBooks p.amountMinor s ∧ CoverOk p.amountMinor s →
      Guarded (refundStep toUpperCase) FitsInStep s a t →
      RefundBooks p.amountMinor t ∧ CoverOk p.amountMinor t := fun s a t hs hst =>
    ⟨refundBooks_step hs.1 hst.1, (coverOk_step hs.1 hs.2 hst.1 hst.2).1⟩
  have hs := hrun.invariant hkeep hinit
  refine ⟨fun input id t hst => requestRefund_fits hs.1 hs.2 hst.1 hst.2, ?_⟩
  intro bs t hrun' r hr hsucc r' hr' hid
  have hstays : StaysSucceeded s t :=
    hrun'.related (fun s x hx => hx) (fun s t u hst htu x hx => htu x (hst x hx)) hkeep
      (fun s a t hs hst => (coverOk_step hs.1 hs.2 hst.1 hst.2).2) hs
  obtain ⟨r₁, hr₁, hsucc₁, hx⟩ :=
    mem_succeeded.mp (hstays _ (mem_succeeded.mpr ⟨r, hr, hsucc, rfl⟩))
  have hbooks := (hrun'.invariant hkeep hs).1
  have heq : r' = r₁ := inj_on_of_nodup_map hbooks.rowIds hr' hr₁
    (hid.trans (congrArg Prod.fst hx).symm)
  exact heq ▸ hsucc₁

/-- 4.00 are refunded from outside and recorded, then 3.00 requested, completed and
stored. -/
def partlyRefunded : PaymentState := { PaymentState.initial with
  payment := some (refundedUpdate tenDollarsPaid 1000 700)
  refunds := [⟨20, 300, .succeeded, some (js "re_20"), none, 5⟩]
  provider := [.external 400, .internal 20 300], reports := [1] }

/-- The rest of the payment is requested, and the refund stored as succeeded stays so. -/
theorem refunds_fit_payment_partly :
    let rest : PaymentState := { partlyRefunded with
      refunds := partlyRefunded.refunds ++ [⟨21, 300, .requested, none, none, 5⟩] }
    recordedExternal rest = 400 ∧
      recordedExternal rest + openTotal rest.refunds ≤ tenDollarsPaid.amountMinor ∧
      ∀ r ∈ rest.refunds, r.id = 20 → r.status = .succeeded := by
  intro rest
  have hrun : Run (Guarded (refundStep id) FitsInStep) (paidState tenDollarsPaid)
      [.provider (.external 400), .charge 1 ⟨js "pi_1", 400⟩ none 1, .chargeWrite 1,
        .requestRefund (refundInput 300) 20, .provider (.internal 20 300),
        .applyRefund 2 refund20Succeeded none, .applyRefundRead 2, .applyRefundWrite 2]
      partlyRefunded := by
    refine .cons ⟨⟨rfl, trivial, trivial⟩, trivial⟩ ?_
    refine .cons ⟨⟨rfl, trivial, by decide, rfl⟩, fun p hp hsame => ?_⟩ ?_
    · cases hp
      exact absurd hsame (by decide)
    refine .cons ⟨⟨rfl, trivial, trivial⟩, fun read charge counted hcall => ?_⟩ ?_
    · cases hcall
      exact ⟨rfl, fun x hx => by cases hx⟩
    refine .cons ⟨⟨rfl, trivial, trivial⟩, .inr fun r hr => by cases hr⟩ ?_
    refine .cons ⟨⟨rfl, trivial, ⟨_, mem_singleton_self _, rfl, rfl⟩, by decide⟩, trivial⟩ ?_
    refine .cons ⟨⟨rfl, trivial, fun _ r hr => ?_⟩, trivial⟩ ?_
    · cases hr
      exact mem_singleton_self _
    refine .cons ⟨⟨rfl, trivial, trivial⟩, trivial⟩ ?_
    refine .cons ⟨⟨rfl, trivial, trivial⟩, fun _ _ _ hcall _ _ _ _ _ => ?_⟩ (.nil _)
    cases hcall
    rfl
  have hrequest : Guarded (refundStep id) FitsInStep partlyRefunded
      (.requestRefund (refundInput 300) 21) rest :=
    ⟨⟨rfl, trivial, trivial⟩, .inr (by decide)⟩
  obtain ⟨hfits, hstays⟩ := refunds_fit_payment id tenDollarsPaid rfl _ _ hrun
  refine ⟨by decide, hfits _ _ _ hrequest, fun r hr hid => ?_⟩
  exact hstays _ rest (.cons hrequest (.nil _)) _ (mem_singleton_self _) rfl r hr hid

/-- Half of the payment is refunded from outside and recorded; then two
requests for half of it each are accepted. -/
theorem refunds_exceed_payment :
    ¬ ∀ (toUpperCase : JsString → JsString) (p : SignPaymentRow), p.amountRefundedMinor = 0 →
        ∀ (as : List PaymentAction) (s : PaymentState),
          Run (refundStep toUpperCase) (paidState p) as s →
          (∀ input id t, refundStep toUpperCase s (.requestRefund input id) t →
            recordedExternal t + openTotal t.refunds ≤ p.amountMinor) ∧
          ∀ bs t, Run (refundStep toUpperCase) s bs t →
            ∀ r ∈ s.refunds, r.status = .succeeded →
              ∀ r' ∈ t.refunds, r'.id = r.id → r'.status = .succeeded := by
  intro hclaim
  let recorded : PaymentState := { paidState tenDollarsPaid with
    payment := some (refundedUpdate tenDollarsPaid 1000 500)
    refunds := [⟨20, 500, .requested, none, none, 5⟩]
    provider := [.external 500], reports := [1] }
  have hrun : Run (refundStep id) (paidState tenDollarsPaid)
      [.provider (.external 500), .charge 1 ⟨js "pi_1", 500⟩ none 1, .chargeWrite 1,
        .requestRefund (refundInput 500) 20] recorded := by
    refine .cons ⟨rfl, trivial, trivial⟩ ?_
    refine .cons ⟨rfl, trivial, by decide, rfl⟩ ?_
    refine .cons ⟨rfl, trivial, trivial⟩ ?_
    exact .cons ⟨rfl, trivial, trivial⟩ (.nil _)
  have hfits := (hclaim id tenDollarsPaid rfl _ _ hrun).1 (refundInput 500) 21
    { recorded with refunds := recorded.refunds ++ [⟨21, 500, .requested, none, none, 5⟩] }
    ⟨rfl, trivial, trivial⟩
  exact absurd hfits (by decide)

end AramoPlatform.Sign
