import AramoPlatform.Commercial.ContractOpening
import AramoPlatform.Lib.UniqueIndex

/-!
# Receipts in order

What holds of the receipts in every state, and why each write keeps it. The
effective receipts have the unique indexes of the table; a receipt settles its
obligation exactly; a consumed initial payment keeps an effective receipt
along its corrections.
-/

namespace AramoPlatform.Commercial

open Js Lib Subscription Billing List

/-! ## Index keys -/

namespace PaymentReceipt

/-- `CommercialPaymentReceipt_one_effective_per_obligation`. -/
def obligationKey (r : PaymentReceipt) : Option Uuid :=
  if r.isEffective then r.link.map (·.obligationId) else none

/-- `CommercialPaymentReceipt_one_unlinked_initial`, here over all tenants. -/
def waitingKey (r : PaymentReceipt) : Option JsString :=
  if r.link.isNone && r.isEffective then r.provisional.map (·.contractRef) else none

/-- `CommercialPaymentReceipt_corrects_receipt_id_key`. -/
def correctsKey (r : PaymentReceipt) : Option Uuid :=
  match r.entry with
  | .record => none
  | .correction receiptId => some receiptId

/-- `PAYMENT_REFERENCE_DUPLICATE` is about this: one payment of a tenant. -/
def samePayment (r s : PaymentReceipt) : Prop :=
  r.tenantId = s.tenantId ∧ r.evidence.pair = s.evidence.pair

variable {r s : PaymentReceipt}

theorem settles_iff {id : Uuid} :
    (r.settles id && r.isEffective) = true ↔ r.obligationKey = some id := by
  unfold settles obligationKey
  cases r.link <;> by_cases he : r.isEffective = true <;> simp [he]

theorem isWaitingFor_iff {contractRef : JsString} :
    r.isWaitingFor contractRef = true ↔ r.waitingKey = some contractRef := by
  unfold isWaitingFor waitingKey
  cases r.provisional <;> cases r.link <;> by_cases he : r.isEffective = true <;> simp [he]

variable (mark : CorrectionMark)

@[simp] theorem markCorrected_id : (r.markCorrected mark).id = r.id := rfl

@[simp] theorem markCorrected_link :
    (r.markCorrected mark).link = r.link := rfl

@[simp] theorem markCorrected_provisional :
    (r.markCorrected mark).provisional = r.provisional := rfl

@[simp] theorem markCorrected_evidence :
    (r.markCorrected mark).evidence = r.evidence := rfl

@[simp] theorem markCorrected_isEffective :
    (r.markCorrected mark).isEffective = false := rfl

@[simp] theorem markCorrected_correctsKey :
    (r.markCorrected mark).correctsKey = r.correctsKey := rfl

variable (link : ReceiptLink)

@[simp] theorem linkTo_id : (r.linkTo link).id = r.id := rfl

@[simp] theorem linkTo_link : (r.linkTo link).link = some link := rfl

@[simp] theorem linkTo_provisional :
    (r.linkTo link).provisional = r.provisional := rfl

@[simp] theorem linkTo_evidence :
    (r.linkTo link).evidence = r.evidence := rfl

@[simp] theorem linkTo_isEffective :
    (r.linkTo link).isEffective = r.isEffective := rfl

@[simp] theorem linkTo_correctsKey :
    (r.linkTo link).correctsKey = r.correctsKey := rfl

theorem obligationKey_of_superseded (h : r.isEffective = false) : r.obligationKey = none := by
  rw [obligationKey, if_neg (by simp [h])]

theorem waitingKey_of_superseded (h : r.isEffective = false) : r.waitingKey = none := by
  rw [waitingKey, if_neg (by simp [h])]

theorem obligationKey_of_effective (h : r.isEffective = true) :
    r.obligationKey = r.link.map (·.obligationId) := by
  rw [obligationKey, if_pos h]

end PaymentReceipt

/-! ## The invariant -/

/-- A receipt settles what it is recorded for: the obligation it is linked to, and
what its provisional identity expects. -/
structure Settled (db : PaymentDb) (r : PaymentReceipt) : Prop where
  linked : ∀ l, r.link = some l → ∃ o ∈ db.obligations, o.id = l.obligationId ∧
    o.contractId = l.contractId ∧ o.amountMinor = r.evidence.amountMinor ∧
      o.currency = r.evidence.currency ∧
        (r.provisional.isSome = true → o.obligationRef = initialObligationRef)
  expected : ∀ p, r.provisional = some p → p.obligationRef = initialObligationRef ∧
    p.amountMinor = r.evidence.amountMinor ∧ p.currency = r.evidence.currency
  opened : ∀ l p, r.link = some l → r.provisional = some p →
    ∃ c ∈ db.contracts, c.id = l.contractId ∧ c.contractRef = p.contractRef

structure ReceiptsInOrder (db : PaymentDb) : Prop where
  subscriptionKeys : Keyed (·.id) db.subscriptions db.nextId
  contractKeys : Keyed (·.id) db.contracts db.nextId
  obligationKeys : Keyed (·.id) db.obligations db.nextId
  receiptKeys : Keyed (·.id) db.receipts db.nextId
  contractRefs : UniqueIndex (fun c : Contract => some c.contractRef) db.contracts
  obligationRefs : UniqueIndex
    (fun o : ContractPaymentObligation => some (o.contractId, o.obligationRef)) db.obligations
  ofContract : ∀ o ∈ db.obligations, o.contractId < db.nextId
  joined : ∀ c ∈ db.contracts, ∃ s ∈ db.subscriptions, s.id = c.tenantSubscriptionId
  oneEffective : UniqueIndex PaymentReceipt.obligationKey db.receipts
  oneWaiting : UniqueIndex PaymentReceipt.waitingKey db.receipts
  correctedOnce : UniqueIndex PaymentReceipt.correctsKey db.receipts
  settled : ∀ r ∈ db.receipts, Settled db r
  /-- A correction names an older receipt, which it superseded. -/
  supersedes : ∀ r ∈ db.receipts, ∀ i, r.correctsKey = some i →
    i < r.id ∧ ∃ s ∈ db.receipts, s.id = i ∧ s.tenantId = r.tenantId ∧ s.isEffective = false
  /-- A pair is on one receipt, or on two of which one corrects the other. -/
  pairs : ∀ r ∈ db.receipts, ∀ s ∈ db.receipts, r.samePayment s →
    r = s ∨ r.correctsKey = some s.id ∨ s.correctsKey = some r.id

variable {db next : PaymentDb} {r o : PaymentReceipt}

theorem Settled.mono (h : Settled db r) (hob : ∀ o ∈ db.obligations, o ∈ next.obligations)
    (hc : ∀ c ∈ db.contracts, c ∈ next.contracts) : Settled next r where
  linked := by
    intro l hl
    obtain ⟨o, ho, hrest⟩ := h.linked l hl
    exact ⟨o, hob o ho, hrest⟩
  expected := h.expected
  opened := by
    intro l p hl hp
    obtain ⟨c, hmem, hrest⟩ := h.opened l p hl hp
    exact ⟨c, hc c hmem, hrest⟩

/-! ## The writes of the other tables -/

theorem ReceiptsInOrder.writeSubscriptions (h : ReceiptsInOrder db)
    {subscriptions : List TenantSubscription} {nextId : Uuid} (hle : db.nextId ≤ nextId)
    (hkeys : Keyed (·.id) subscriptions nextId)
    (hkept : ∀ s ∈ db.subscriptions, ∃ s' ∈ subscriptions, s'.id = s.id) :
    ReceiptsInOrder { db with subscriptions := subscriptions, nextId := nextId } :=
  { h with
    subscriptionKeys := hkeys
    contractKeys := h.contractKeys.mono hle
    obligationKeys := h.obligationKeys.mono hle
    receiptKeys := h.receiptKeys.mono hle
    ofContract := fun o ho => Nat.lt_of_lt_of_le (h.ofContract o ho) hle
    joined := by
      intro c hc
      obtain ⟨s, hs, hid⟩ := h.joined c hc
      obtain ⟨s', hs', hid'⟩ := hkept s hs
      exact ⟨s', hs', hid'.trans hid⟩
    settled := fun r hr => (h.settled r hr).mono (fun _ ho => ho) fun _ hc => hc }

theorem ReceiptsInOrder.insertContract (h : ReceiptsInOrder db) {c : Contract}
    (hid : c.id = db.nextId) (href : ∀ d ∈ db.contracts, d.contractRef ≠ c.contractRef)
    (hjoin : ∃ s ∈ db.subscriptions, s.id = c.tenantSubscriptionId) :
    ReceiptsInOrder { db with contracts := db.contracts ++ [c], nextId := db.nextId + 1 } :=
  { h with
    subscriptionKeys := h.subscriptionKeys.mono (Nat.le_succ _)
    contractKeys := h.contractKeys.insert hid
    obligationKeys := h.obligationKeys.mono (Nat.le_succ _)
    receiptKeys := h.receiptKeys.mono (Nat.le_succ _)
    contractRefs := by
      refine h.contractRefs.insert ?_
      intro d hd k hk hdk
      exact href d hd ((Option.some.inj hdk).trans (Option.some.inj hk).symm)
    ofContract := fun o ho => Nat.lt_succ_of_lt (h.ofContract o ho)
    joined := by
      intro d hd
      rcases (mem_append.mp hd).imp_right mem_singleton.mp with hd | rfl
      · exact h.joined d hd
      · exact hjoin
    settled := fun r hr =>
      (h.settled r hr).mono (fun _ ho => ho) fun _ hc => mem_append_left _ hc }

theorem ReceiptsInOrder.insertObligation (h : ReceiptsInOrder db) {o : ContractPaymentObligation}
    (hid : o.id = db.nextId) (hcontract : o.contractId < db.nextId)
    (href : ∀ x ∈ db.obligations, x.contractId = o.contractId →
      x.obligationRef ≠ o.obligationRef) :
    ReceiptsInOrder { db with obligations := db.obligations ++ [o], nextId := db.nextId + 1 } :=
  { h with
    subscriptionKeys := h.subscriptionKeys.mono (Nat.le_succ _)
    contractKeys := h.contractKeys.mono (Nat.le_succ _)
    obligationKeys := h.obligationKeys.insert hid
    receiptKeys := h.receiptKeys.mono (Nat.le_succ _)
    obligationRefs := by
      refine h.obligationRefs.insert ?_
      intro x hx k hk hxk
      have heq := (Option.some.inj hxk).trans (Option.some.inj hk).symm
      exact href x hx (congrArg Prod.fst heq) (congrArg Prod.snd heq)
    ofContract := by
      intro x hx
      rcases (mem_append.mp hx).imp_right mem_singleton.mp with hx | rfl
      · exact Nat.lt_succ_of_lt (h.ofContract x hx)
      · exact Nat.lt_succ_of_lt hcontract
    settled := fun r hr =>
      (h.settled r hr).mono (fun _ ho => mem_append_left _ ho) fun _ hc => hc }

/-! ## The writes of the receipts -/

theorem mem_insertReceipt {x : PaymentReceipt} :
    x ∈ (db.insertReceipt r).receipts ↔ x ∈ db.receipts ∨ x = r := by
  simp [PaymentDb.insertReceipt]

theorem ReceiptsInOrder.insertReceipt (h : ReceiptsInOrder db) (hid : r.id = db.nextId)
    (hsettled : Settled db r)
    (heffective : ∀ a ∈ db.receipts, ∀ k, r.obligationKey = some k → a.obligationKey ≠ some k)
    (hwaiting : ∀ a ∈ db.receipts, ∀ k, r.waitingKey = some k → a.waitingKey ≠ some k)
    (hcorrects : ∀ a ∈ db.receipts, ∀ k, r.correctsKey = some k → a.correctsKey ≠ some k)
    (hsupersedes : ∀ i, r.correctsKey = some i →
      ∃ s ∈ db.receipts, s.id = i ∧ s.tenantId = r.tenantId ∧ s.isEffective = false)
    (hpairs : ∀ s ∈ db.receipts, s.samePayment r → r.correctsKey = some s.id) :
    ReceiptsInOrder (db.insertReceipt r) :=
  { h with
    subscriptionKeys := h.subscriptionKeys.mono (Nat.le_succ _)
    contractKeys := h.contractKeys.mono (Nat.le_succ _)
    obligationKeys := h.obligationKeys.mono (Nat.le_succ _)
    receiptKeys := h.receiptKeys.insert hid
    ofContract := fun o ho => Nat.lt_succ_of_lt (h.ofContract o ho)
    oneEffective := h.oneEffective.insert heffective
    oneWaiting := h.oneWaiting.insert hwaiting
    correctedOnce := h.correctedOnce.insert hcorrects
    settled := by
      intro x hx
      rcases mem_insertReceipt.mp hx with hx | rfl
      · exact (h.settled x hx).mono (fun _ ho => ho) fun _ hc => hc
      · exact hsettled.mono (fun _ ho => ho) fun _ hc => hc
    supersedes := by
      intro x hx i hi
      rcases mem_insertReceipt.mp hx with hx | rfl
      · obtain ⟨hlt, s, hs, hrest⟩ := h.supersedes x hx i hi
        exact ⟨hlt, s, mem_insertReceipt.mpr (.inl hs), hrest⟩
      · obtain ⟨s, hs, rfl, hrest⟩ := hsupersedes i hi
        exact ⟨hid ▸ h.receiptKeys.lt s hs, s, mem_insertReceipt.mpr (.inl hs), rfl, hrest⟩
    pairs := by
      intro x hx y hy hsame
      rcases mem_insertReceipt.mp hx with hold | rfl <;>
        rcases mem_insertReceipt.mp hy with hold' | rfl
      · exact h.pairs x hold y hold' hsame
      · exact .inr (.inr (hpairs x hold hsame))
      · exact .inr (.inl (hpairs y hold' ⟨hsame.1.symm, hsame.2.symm⟩))
      · exact .inl rfl }

section Update

variable {f : PaymentReceipt → PaymentReceipt}

section

variable (h : ReceiptsInOrder db)

include h

section

variable (ho : o ∈ db.receipts)

include ho

theorem mem_updateReceipt {x : PaymentReceipt} :
    x ∈ (db.updateReceipt o.id f).receipts ↔ x ∈ db.receipts ∧ x.id ≠ o.id ∨ x = f o :=
  mem_updateWhere_key h.receiptKeys.nodup ho

/-- A write that keeps the identity of a receipt and its evidence, and supersedes
no less. -/
theorem ReceiptsInOrder.updateReceipt
    (hid : ∀ r, (f r).id = r.id) (htenant : ∀ r, (f r).tenantId = r.tenantId)
    (hevidence : ∀ r, (f r).evidence = r.evidence)
    (hcorrects : ∀ r, (f r).correctsKey = r.correctsKey)
    (hsuperseded : o.isEffective = false → (f o).isEffective = false)
    (heffective : ∀ b ∈ db.receipts, ∀ k, (f o).obligationKey = some k →
      b.obligationKey = some k → b = o)
    (hwaiting : ∀ b ∈ db.receipts, ∀ k, (f o).waitingKey = some k → b.waitingKey = some k → b = o)
    (hsettled : Settled db (f o)) : ReceiptsInOrder (db.updateReceipt o.id f) := by
  -- every row of the result continues a row with the same identity
  have hback : ∀ x ∈ (db.updateReceipt o.id f).receipts, ∃ y ∈ db.receipts,
      (x = y ∨ y = o ∧ x = f o) ∧ x.id = y.id ∧ x.tenantId = y.tenantId ∧
        x.evidence = y.evidence ∧ x.correctsKey = y.correctsKey := by
    intro x hx
    rcases (mem_updateReceipt h ho).mp hx with ⟨hx, -⟩ | rfl
    · exact ⟨x, hx, .inl rfl, rfl, rfl, rfl, rfl⟩
    · exact ⟨o, ho, .inr ⟨rfl, rfl⟩, hid o, htenant o, hevidence o, hcorrects o⟩
  have hkeys : Keyed (·.id) (db.updateReceipt o.id f).receipts db.nextId :=
    h.receiptKeys.update hid
  exact
    { h with
      receiptKeys := hkeys
      oneEffective := h.oneEffective.update_row h.receiptKeys.nodup ho heffective
      oneWaiting := h.oneWaiting.update_row h.receiptKeys.nodup ho hwaiting
      correctedOnce := h.correctedOnce.update fun r _ _ => .inr (hcorrects r)
      settled := by
        intro x hx
        rcases (mem_updateReceipt h ho).mp hx with ⟨hx, -⟩ | rfl
        · exact (h.settled x hx).mono (fun _ ho => ho) fun _ hc => hc
        · exact hsettled.mono (fun _ ho => ho) fun _ hc => hc
      supersedes := by
        intro x hx i hi
        obtain ⟨y, hy, -, hxid, hxtenant, -, hkey⟩ := hback x hx
        obtain ⟨hlt, s, hs, rfl, hstenant, hsuper⟩ := h.supersedes y hy i (hkey ▸ hi)
        refine ⟨hxid ▸ hlt, ?_⟩
        by_cases heq : s.id = o.id
        · obtain rfl := inj_on_of_nodup_map h.receiptKeys.nodup hs ho heq
          exact ⟨f s, (mem_updateReceipt h ho).mpr (.inr rfl), hid s,
            (htenant s).trans (hstenant.trans hxtenant.symm), hsuperseded hsuper⟩
        · exact ⟨s, (mem_updateReceipt h ho).mpr (.inl ⟨hs, heq⟩), rfl,
            hstenant.trans hxtenant.symm, hsuper⟩
      pairs := by
        intro x hx y hy hsame
        obtain ⟨x₀, hx₀, -, hxid, hxtenant, hxevidence, hxkey⟩ := hback x hx
        obtain ⟨y₀, hy₀, -, hyid, hytenant, hyevidence, hykey⟩ := hback y hy
        have hsame₀ : x₀.samePayment y₀ := by
          refine ⟨hxtenant.symm.trans (hsame.1.trans hytenant), ?_⟩
          rw [← hxevidence, ← hyevidence]
          exact hsame.2
        rcases h.pairs x₀ hx₀ y₀ hy₀ hsame₀ with rfl | hpair | hpair
        · exact .inl (inj_on_of_nodup_map hkeys.nodup hx hy (hxid.trans hyid.symm))
        · exact .inr (.inl (by rw [hxkey, hyid, hpair]))
        · exact .inr (.inr (by rw [hykey, hxid, hpair])) }

theorem ReceiptsInOrder.markCorrected
    (mark : CorrectionMark) : ReceiptsInOrder (db.updateReceipt o.id (·.markCorrected mark)) := by
  refine h.updateReceipt ho (fun _ => rfl) (fun _ => rfl) (fun _ => rfl) (fun _ => rfl)
    (fun _ => rfl) ?_ ?_ ?_
  · intro b _ k hk
    rw [PaymentReceipt.obligationKey_of_superseded rfl] at hk
    cases hk
  · intro b _ k hk
    rw [PaymentReceipt.waitingKey_of_superseded rfl] at hk
    cases hk
  · exact ⟨(h.settled o ho).linked, (h.settled o ho).expected, (h.settled o ho).opened⟩

/-- A waiting receipt is linked to an obligation that no receipt settles yet. -/
theorem ReceiptsInOrder.linkTo
    {link : ReceiptLink} {obligation : ContractPaymentObligation} {c : Contract}
    (hobligation : obligation ∈ db.obligations) (hid : obligation.id = link.obligationId)
    (hcontract : obligation.contractId = link.contractId)
    (href : obligation.obligationRef = initialObligationRef)
    (hamount : obligation.amountMinor = o.evidence.amountMinor)
    (hcurrency : obligation.currency = o.evidence.currency)
    (hc : c ∈ db.contracts) (hcid : c.id = link.contractId)
    (hcref : ∀ p, o.provisional = some p → c.contractRef = p.contractRef)
    (hfree : ∀ b ∈ db.receipts, b.obligationKey ≠ some link.obligationId) :
    ReceiptsInOrder (db.updateReceipt o.id (·.linkTo link)) := by
  refine h.updateReceipt ho (fun _ => rfl) (fun _ => rfl) (fun _ => rfl) (fun _ => rfl)
    (fun hsuper => hsuper) ?_ ?_ ?_
  · intro b hb k hk hbk
    unfold PaymentReceipt.obligationKey at hk
    split at hk
    · obtain rfl := Option.some.inj hk
      exact absurd hbk (hfree b hb)
    · cases hk
  · intro b _ k hk
    rw [PaymentReceipt.waitingKey, if_neg (by simp)] at hk
    cases hk
  · refine ⟨fun l hl => ?_, (h.settled o ho).expected, fun l p hl hp => ?_⟩
    · obtain rfl := Option.some.inj hl
      exact ⟨obligation, hobligation, hid, hcontract, hamount, hcurrency, fun _ => href⟩
    · obtain rfl := Option.some.inj hl
      exact ⟨c, hc, hcid, hcref p hp⟩

end

end

end Update

/-! ## Consumed initial payments, and references that wait -/

/-- A consumed initial payment has an effective receipt that is itself a consumed
initial payment of the same obligation. -/
def InitialsKept (db : PaymentDb) : Prop :=
  ∀ r ∈ db.receipts, r.isConsumedInitial = true →
    ∃ e ∈ db.receipts, e.isConsumedInitial = true ∧ e.isEffective = true ∧
      e.link.map (·.obligationId) = r.link.map (·.obligationId)

/-- No contract has a reference that a receipt waits for. -/
def WaitingRefsFree (db : PaymentDb) : Prop :=
  ∀ r ∈ db.receipts, ∀ contractRef, r.waitingKey = some contractRef →
    ∀ c ∈ db.contracts, c.contractRef ≠ contractRef

/-- What the payment tables keep in every run. -/
structure PaymentInvariant (db : PaymentDb) : Prop extends ReceiptsInOrder db where
  initials : InitialsKept db
  waitingRefs : WaitingRefsFree db

end AramoPlatform.Commercial
