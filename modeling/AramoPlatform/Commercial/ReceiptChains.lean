import AramoPlatform.Commercial.ContractEffects
import Mathlib.Logic.Relation

/-!
# Chains of corrections

Over any order of payment records, openings and changes the receipts stay
consistent: an obligation has one effective receipt at most, corrections form
chains, and a consumed initial payment is never lost. The check of the payment
reference excepts the receipt that is replaced and no other, so a pair is kept
along one replacement and not along two.
-/

namespace AramoPlatform.Commercial

open Js Lib Subscription Billing List

variable {db next start : PaymentDb} {tenantId : Uuid} {productKey : ProductKey}
  {req : GoverningRequest} {now : Nat} {e : PaymentEvidence}

/-! ## What is said of the receipts -/

/-- The receipt `id` replaced the receipt `original`. -/
def Replaces (db : PaymentDb) (id original : Uuid) : Prop :=
  ∃ r ∈ db.receipts, r.id = id ∧ r.correctsKey = some original

/-- The opening of the contract consumed a provisional receipt. -/
def OpeningConsumed (db : PaymentDb) (c : Contract) : Prop :=
  ∃ r ∈ db.receipts, r.isConsumedInitial = true ∧ r.link.map (·.contractId) = some c.id

structure ReceiptsConsistent (db : PaymentDb) : Prop where
  oneEffective : ∀ o ∈ db.obligations, ∀ r ∈ db.receipts, ∀ s ∈ db.receipts,
    r.settles o.id = true → r.isEffective = true → s.settles o.id = true → s.isEffective = true →
      r = s
  exact : ∀ o ∈ db.obligations, ∀ r ∈ db.receipts, r.settles o.id = true →
    r.evidence.amountMinor = o.amountMinor ∧ r.evidence.currency = o.currency
  oneWaiting : ∀ contractRef, ∀ r ∈ db.receipts, ∀ s ∈ db.receipts,
    r.isWaitingFor contractRef = true → s.isWaitingFor contractRef = true → r = s
  shared : ∀ r ∈ db.receipts, ∀ s ∈ db.receipts, r.samePayment s →
    r = s ∨ Relation.TransGen (Replaces db) r.id s.id ∨ Relation.TransGen (Replaces db) s.id r.id
  /-- One replacement at most, of one original: a chain and not a tree. -/
  replacedOnce : ∀ i j k, Replaces db i k → Replaces db j k → i = j
  replacesOne : ∀ i j k, Replaces db k i → Replaces db k j → i = j
  older : ∀ i j, Replaces db i j → j < i
  initial : ∀ c ∈ db.contracts, OpeningConsumed db c → ∀ o ∈ db.obligations,
    o.contractId = c.id → o.obligationRef = initialObligationRef →
      ∃! r, r ∈ db.receipts ∧ r.settles o.id = true ∧ r.isEffective = true

variable {id : Uuid}

theorem settles_eq {r : PaymentReceipt} :
    r.settles id = true ↔ r.link.map (·.obligationId) = some id := by
  unfold PaymentReceipt.settles
  cases r.link <;> simp

theorem initial_of_invariant (h : PaymentInvariant db) {c : Contract}
    (hconsumed : OpeningConsumed db c) {o : ContractPaymentObligation} (ho : o ∈ db.obligations)
    (hoc : o.contractId = c.id) (href : o.obligationRef = initialObligationRef) :
    ∃! r, r ∈ db.receipts ∧ r.settles o.id = true ∧ r.isEffective = true := by
  obtain ⟨r, hr, hinitial, hcontract⟩ := hconsumed
  obtain ⟨l, hl, hlc⟩ := Option.map_eq_some_iff.mp hcontract
  -- the receipt settles the initial obligation of its contract, and that is `o`
  obtain ⟨x, hx, hxid, hxc, -, -, hxref⟩ := (h.settled r hr).linked l hl
  have hprovisional : r.provisional.isSome = true := by
    rw [PaymentReceipt.isConsumedInitial, Bool.and_eq_true] at hinitial
    exact hinitial.2
  have hkey : (x.contractId, x.obligationRef) = (o.contractId, o.obligationRef) := by
    rw [hxref hprovisional, href, hxc, hoc, hlc]
  obtain rfl := h.obligationRefs x hx o ho _ rfl (congrArg some hkey.symm)
  obtain ⟨y, hy, -, heffective, hlink⟩ := h.initials r hr hinitial
  have hsettles : y.settles x.id = true := by
    rw [settles_eq, hlink, hl, hxid]
    rfl
  refine ⟨y, ⟨hy, hsettles, heffective⟩, ?_⟩
  rintro z ⟨hz, hzsettles, hzeffective⟩
  refine h.oneEffective z hz y hy x.id ?_ ?_
  · rw [PaymentReceipt.obligationKey_of_effective hzeffective]
    exact settles_eq.mp hzsettles
  · rw [PaymentReceipt.obligationKey_of_effective heffective]
    exact settles_eq.mp hsettles

theorem consistent_of_invariant (h : PaymentInvariant db) : ReceiptsConsistent db where
  oneEffective := by
    intro o _ r hr s hs hrs hre hss hse
    refine h.oneEffective r hr s hs o.id ?_ ?_
    · rw [PaymentReceipt.obligationKey_of_effective hre]
      exact settles_eq.mp hrs
    · rw [PaymentReceipt.obligationKey_of_effective hse]
      exact settles_eq.mp hss
  exact := by
    intro o ho r hr hsettles
    obtain ⟨l, hl, hid⟩ := Option.map_eq_some_iff.mp (settles_eq.mp hsettles)
    obtain ⟨x, hx, hxid, -, hamount, hcurrency, -⟩ := (h.settled r hr).linked l hl
    obtain rfl := inj_on_of_nodup_map h.obligationKeys.nodup hx ho (hxid.trans hid)
    exact ⟨hamount.symm, hcurrency.symm⟩
  oneWaiting := by
    intro contractRef r hr s hs hrw hsw
    exact h.oneWaiting r hr s hs contractRef (PaymentReceipt.isWaitingFor_iff.mp hrw)
      (PaymentReceipt.isWaitingFor_iff.mp hsw)
  shared := by
    intro r hr s hs hsame
    rcases h.pairs r hr s hs hsame with rfl | hkey | hkey
    · exact .inl rfl
    · exact .inr (.inl (.single ⟨r, hr, rfl, hkey⟩))
    · exact .inr (.inr (.single ⟨s, hs, rfl, hkey⟩))
  replacedOnce := by
    rintro i j k ⟨r, hr, rfl, hrk⟩ ⟨s, hs, rfl, hsk⟩
    rw [h.correctedOnce r hr s hs k hrk hsk]
  replacesOne := by
    rintro i j k ⟨r, hr, hrid, hri⟩ ⟨s, hs, hsid, hsj⟩
    obtain rfl := inj_on_of_nodup_map h.receiptKeys.nodup hr hs (hrid.trans hsid.symm)
    exact Option.some.inj (hri.symm.trans hsj)
  older := by
    rintro i j ⟨r, hr, rfl, hrj⟩
    exact (h.supersedes r hr j hrj).1
  initial := fun _ _ hconsumed _ ho hoc href => initial_of_invariant h hconsumed ho hoc href

/-! ## Rows over a step -/

/-- What a receipt keeps: its identity, its correction mark and its link once set. -/
structure ReceiptKept (x y : PaymentReceipt) : Prop where
  id : y.id = x.id
  provisional : y.provisional = x.provisional
  link : x.link.isSome = true → y.link = x.link
  superseded : x.isEffective = false → y.isEffective = false

theorem ReceiptKept.refl (x : PaymentReceipt) : ReceiptKept x x :=
  ⟨rfl, rfl, fun _ => rfl, fun h => h⟩

def ReceiptsKept (db next : PaymentDb) : Prop :=
  ∀ x ∈ db.receipts, ∃ y ∈ next.receipts, ReceiptKept x y

theorem receiptsKept_of_eq (h : next.receipts = db.receipts) : ReceiptsKept db next :=
  fun x hx => ⟨x, h.symm ▸ hx, .refl x⟩

theorem receiptsKept_insert (r : PaymentReceipt) : ReceiptsKept db (db.insertReceipt r) :=
  fun x hx => ⟨x, mem_insertReceipt.mpr (.inl hx), .refl x⟩

theorem receiptsKept_update {f : PaymentReceipt → PaymentReceipt}
    (hf : ∀ x ∈ db.receipts, x.id = id → ReceiptKept x (f x)) :
    ReceiptsKept db (db.updateReceipt id f) := fun x hx =>
  exists_updateWhere hx (fun _ => .refl x) fun hp => hf x hx (eq_of_beq hp)

theorem ReceiptsKept.trans {mid : PaymentDb} (h : ReceiptsKept db mid) (h' :
    ReceiptsKept mid next) :
    ReceiptsKept db next := by
  intro x hx
  obtain ⟨y, hy, hxy⟩ := h x hx
  obtain ⟨z, hz, hyz⟩ := h' y hy
  refine ⟨z, hz, hyz.id.trans hxy.id, hyz.provisional.trans hxy.provisional, ?_, ?_⟩
  · intro hsome
    have hlink := hxy.link hsome
    rw [hyz.link (by rw [hlink]; exact hsome), hlink]
  · exact fun hsuper => hyz.superseded (hxy.superseded hsuper)

theorem receiptsKept_mark (id : Uuid) (mark : CorrectionMark) :
    ReceiptsKept db (db.updateReceipt id (·.markCorrected mark)) :=
  receiptsKept_update fun _ _ _ => ⟨rfl, rfl, fun _ => rfl, fun _ => rfl⟩

theorem receiptsKept_paymentRecord (r : PaymentRecordResolution) :
    ReceiptsKept db (writePaymentRecord db req tenantId productKey now r).1 := by
  cases r with
  | linked | provisional => exact receiptsKept_insert _
  | voided o => exact receiptsKept_mark _ _
  | replaced o e => exact (receiptsKept_mark _ _).trans (receiptsKept_insert _)

variable {block : ContractRecordBlock} {subscriptionId : Uuid}

theorem contractRecord_receipts
    (happly : applyContractRecord db subscriptionId block none req now = .ok next) :
    next.receipts = db.receipts := by
  simp only [applyContractRecord, bind_eq_ok] at happly
  obtain ⟨-, -, ⟨recorded, contractId⟩, hrecord, happly⟩ := happly
  obtain ⟨-, -, c, -, -, -, rfl⟩ := recordContract_spec hrecord
  obtain rfl := Except.ok.inj happly
  exact recordObligations_receipts _

theorem contractAmendment_receipts {block : ContractAmendmentBlock}
    (happly : applyContractAmendment db subscriptionId block req now = .ok next) :
    next.receipts = db.receipts := by
  simp only [applyContractAmendment, bind_eq_ok] at happly
  obtain ⟨add, -, contract, -, -, -, hwrite⟩ := happly
  split at hwrite
  · obtain rfl := Except.ok.inj hwrite
    rfl
  · obtain rfl := Except.ok.inj hwrite
    exact recordObligations_receipts _

theorem receiptsKept_link (h : PaymentInvariant db)
    {r : PaymentReceipt} (hr : InitialReceipt db tenantId productKey block r) {mid : PaymentDb}
    (hreceipts : mid.receipts = db.receipts) (contractId obligationId : Uuid) :
    ReceiptsKept db (linkInitialReceiptInTx mid r.id contractId obligationId req.id now) := by
  refine (receiptsKept_of_eq hreceipts).trans (receiptsKept_update ?_)
  intro x hx hid
  rw [hreceipts] at hx
  obtain rfl := inj_on_of_nodup_map h.receiptKeys.nodup hx hr.mem hid
  -- the receipt had no link yet
  refine ⟨rfl, rfl, fun hsome => ?_, fun hsuper => hsuper⟩
  rw [(waiting_unlinked hr.waiting).1] at hsome
  cases hsome

/-- Recording a contract links the receipt of its opening and writes no other. -/
theorem receiptsKept_contract (h : PaymentInvariant db)
    {receipt : Option PaymentReceipt}
    (hreceipt : ∀ r, receipt = some r → InitialReceipt db tenantId productKey block r)
    (happly : applyContractRecord db subscriptionId block receipt req now = .ok next) :
    ReceiptsKept db next := by
  simp only [applyContractRecord, bind_eq_ok] at happly
  obtain ⟨-, -, ⟨recorded, contractId⟩, hrecord, happly⟩ := happly
  obtain ⟨-, -, c, -, -, -, rfl⟩ := recordContract_spec hrecord
  cases receipt with
  | none =>
    obtain rfl := Except.ok.inj happly
    exact receiptsKept_of_eq (recordObligations_receipts _)
  | some r =>
    dsimp only at happly
    split at happly
    · obtain rfl := Except.ok.inj happly
      exact receiptsKept_of_eq (recordObligations_receipts _)
    · obtain rfl := Except.ok.inj happly
      refine receiptsKept_link h (hreceipt r rfl) ?_ _ _
      exact recordObligations_receipts _

theorem receiptsKept_of_step (h : PaymentInvariant db) {op : PaymentOp}
    (hstep : paymentStep db op next) : ReceiptsKept db next := by
  unfold paymentStep at hstep
  cases op with
  | paymentRecord request tenantId productKey payload now =>
    simp only [paymentNext, applyPaymentRecordInTx, bind_eq_ok, liftPayment_eq_ok,
      pure_eq_ok] at hstep
    obtain ⟨⟨written, effect⟩, ⟨r, -, hwrite⟩, rfl⟩ := hstep
    obtain rfl : (writePaymentRecord db request tenantId productKey now r).1 = written :=
      congrArg Prod.fst hwrite
    exact receiptsKept_paymentRecord r
  | subscriptionOpen request =>
    simp only [paymentNext, openSubscription, bind_eq_ok, liftPayment_eq_ok] at hstep
    obtain ⟨receipt, hreceipt, terms, -, -, -, -, -, -, -, -, -, hwrite⟩ := hstep
    generalize hreplaced : db.subscriptions.find? (isOpenBase request.tenantId request.productKey) =
      replaced at hwrite
    cases hcontract : request.contract with
    | none =>
      rw [hcontract] at hwrite
      obtain rfl := Except.ok.inj hwrite
      exact receiptsKept_of_eq rfl
    | some block =>
      rw [hcontract] at hwrite hreceipt
      have hwritten : PaymentInvariant (writeOpening db replaced (openedSubscription db.nextId
          request.tenantId request.productKey request.request.requestedBy terms) request.now) :=
        writeOpening_invariant h rfl
      have hkept : ∀ r, receipt = some r → InitialReceipt (writeOpening db replaced
          (openedSubscription db.nextId request.tenantId request.productKey
            request.request.requestedBy terms) request.now) request.tenantId request.productKey
              block r := by
        rintro x rfl
        obtain ⟨block', hblock, hx⟩ := prepaidInitialReceipt_spec hreceipt
        obtain rfl := Option.some.inj hblock
        exact ⟨hx.mem, hx.tenant, hx.product, hx.waiting, hx.amount, hx.currency⟩
      have hrows := receiptsKept_contract hwritten hkept hwrite
      exact hrows
  | subscriptionChange request =>
    simp only [paymentNext, changeSubscription, bind_eq_ok] at hstep
    obtain ⟨row, -, ⟨planId, planVersionId⟩, -, -, -, hwrite⟩ := hstep
    cases hcontract : request.contract with
    | none =>
      rw [hcontract] at hwrite
      obtain rfl := Except.ok.inj hwrite
      exact receiptsKept_of_eq rfl
    | some change =>
      rw [hcontract] at hwrite
      cases change with
      | record block =>
        have hrows := contractRecord_receipts hwrite
        exact receiptsKept_of_eq hrows
      | amend block =>
        have hrows := contractAmendment_receipts hwrite
        exact receiptsKept_of_eq hrows
  | subscriptionWritten row =>
    obtain rfl := Except.ok.inj hstep
    unfold writeSubscription
    split <;> exact receiptsKept_of_eq rfl

/-! ## Runs -/

/-- Before the first payment record: no receipts and no obligations. -/
structure PaymentStart (db : PaymentDb) : Prop where
  noReceipts : db.receipts = []
  noObligations : db.obligations = []
  subscriptionKeys : Keyed (·.id) db.subscriptions db.nextId
  contractKeys : Keyed (·.id) db.contracts db.nextId
  contractRefs : UniqueIndex (fun c : Contract => some c.contractRef) db.contracts
  joined : ∀ c ∈ db.contracts, ∃ s ∈ db.subscriptions, s.id = c.tenantSubscriptionId

theorem PaymentStart.invariant (h : PaymentStart db) : PaymentInvariant db := by
  obtain ⟨subscriptions, contracts, obligations, receipts, nextId⟩ := db
  obtain ⟨rfl, rfl, hsubscriptions, hcontracts, hrefs, hjoined⟩ := h
  have hnone : ∀ {α : Type} {p : α → Prop}, ∀ x ∈ ([] : List α), p x := by
    intro α p x hx
    cases hx
  exact ⟨⟨hsubscriptions, hcontracts, ⟨nodup_nil, hnone⟩, ⟨nodup_nil, hnone⟩, hrefs, .nil,
    hnone, hjoined, .nil, .nil, .nil, hnone, hnone, hnone⟩, hnone, hnone⟩

variable {ops : List PaymentOp}

theorem paymentInvariant_of_run (hstart : PaymentStart start)
    (hrun : Run paymentStep start ops db) : PaymentInvariant db :=
  hrun.invariant (I := PaymentInvariant) (fun _ _ _ h hstep => paymentStep_invariant h hstep)
    hstart.invariant

theorem corrects_step {op : PaymentOp} (h : PaymentInvariant db)
    (hop : op.corrects id = true) (hstep : paymentStep db op next) :
    (∃ r ∈ db.receipts, r.id = id ∧ r.isEffective = true) ∧
      ∃ r ∈ next.receipts, r.id = id ∧ r.isEffective = false := by
  cases op with
  | paymentRecord request tenantId productKey payload now =>
    simp only [paymentStep, paymentNext, applyPaymentRecordInTx, bind_eq_ok, liftPayment_eq_ok,
      pure_eq_ok] at hstep
    obtain ⟨⟨written, effect⟩, ⟨r, hresolve, hwrite⟩, rfl⟩ := hstep
    have hmarked : ∀ o ∈ db.receipts, o.markCorrected ⟨now, request.id⟩ ∈
        (db.updateReceipt o.id (·.markCorrected ⟨now, request.id⟩)).receipts :=
      fun o ho => (mem_updateReceipt h.toReceiptsInOrder ho).mpr (.inr rfl)
    cases payload with
    | record target evidence => cases hop
    | replace receiptId reason evidence =>
      obtain ⟨o, hid, rfl, hr⟩ := resolve_replace_spec hresolve
      obtain ⟨rfl, -⟩ := Prod.mk.inj hwrite
      have hoid : o.id = id := hid.trans (eq_of_beq hop)
      exact ⟨⟨o, hr.target.mem, hoid, hr.target.effective⟩, _,
        mem_insertReceipt.mpr (.inl (hmarked o hr.target.mem)), hoid, rfl⟩
    | void receiptId reason follow =>
      obtain ⟨o, hid, rfl, ho, -⟩ := resolve_void_spec hresolve
      obtain ⟨rfl, -⟩ := Prod.mk.inj hwrite
      have hoid : o.id = id := hid.trans (eq_of_beq hop)
      exact ⟨⟨o, ho.mem, hoid, ho.effective⟩, _, hmarked o ho.mem, hoid, rfl⟩
  | subscriptionOpen | subscriptionChange | subscriptionWritten => cases hop

theorem not_corrects_of_superseded
    (hrun : Run paymentStep db ops next) (h : PaymentInvariant db)
    (hsuper : ∃ r ∈ db.receipts, r.id = id ∧ r.isEffective = false) :
    ops.countP (·.corrects id) = 0 := by
  induction hrun with
  | nil _ => rfl
  | @cons s t u op ops hstep _ ih =>
    obtain ⟨r, hr, hid, hr'⟩ := hsuper
    have hnot : op.corrects id = false := by
      rw [← Bool.not_eq_true]
      intro hop
      obtain ⟨⟨x, hx, hxid, heffective⟩, -⟩ := corrects_step h hop hstep
      obtain rfl := inj_on_of_nodup_map h.receiptKeys.nodup hx hr (hxid.trans hid.symm)
      rw [hr'] at heffective
      cases heffective
    obtain ⟨y, hy, hkept⟩ := receiptsKept_of_step h hstep r hr
    have hrest := ih (paymentStep_invariant h hstep)
      ⟨y, hy, hkept.id.trans hid, hkept.superseded hr'⟩
    rw [countP_cons_of_neg (by simp [hnot]), hrest]

theorem corrected_at_most_once (id : Uuid)
    (hrun : Run paymentStep db ops next) (h : PaymentInvariant db) :
    ops.countP (·.corrects id) ≤ 1 := by
  induction hrun with
  | nil _ => exact Nat.zero_le 1
  | @cons s t u op ops hstep hrest ih =>
    have hnext := paymentStep_invariant h hstep
    by_cases hop : op.corrects id = true
    · have hzero := not_corrects_of_superseded hrest hnext (corrects_step h hop hstep).2
      rw [countP_cons_of_pos hop, hzero]
    · rw [countP_cons_of_neg hop]
      exact ih hnext

/-! ## Pairs along a chain -/

/-- The receipt kept the pair of the receipt it replaced. -/
def KeptPair (db : PaymentDb) (o : PaymentReceipt) : Prop :=
  ∃ s ∈ db.receipts, o.correctsKey = some s.id ∧ s.evidence.pair = o.evidence.pair

/-- The pair of an effective receipt is free for its replacement unless the receipt
itself kept it. -/
theorem referenceFree_iff (h : PaymentInvariant db) {o : PaymentReceipt}
    (ho : CorrectionTarget db tenantId productKey o) (hpair : e.pair = o.evidence.pair) :
    ReferenceFree db tenantId e (some o.id) ↔ ¬ KeptPair db o := by
  constructor
  · rintro hfree ⟨s, hs, hkey, hspair⟩
    obtain ⟨hlt, x, hx, hxid, hxtenant, -⟩ := h.supersedes o ho.mem s.id hkey
    obtain rfl := inj_on_of_nodup_map h.receiptKeys.nodup hx hs hxid
    have hid := hfree x hs (hxtenant.trans ho.tenant) (hspair.trans hpair.symm)
    rw [Option.some.inj hid] at hlt
    exact Nat.lt_irrefl _ hlt
  · intro hnot r hr htenant hrpair
    have hsame : r.samePayment o := ⟨htenant.trans ho.tenant.symm, hrpair.trans hpair⟩
    rcases h.pairs r hr o ho.mem hsame with rfl | hkey | hkey
    · rfl
    · exact absurd hkey (not_corrected h.toReceiptsInOrder ho.mem ho.effective hr)
    · exact absurd ⟨r, hr, hkey, hsame.2⟩ hnot

/-- Receipts stay consistent over every run of payment records, openings and changes,
and each is corrected at most once. A replacement that settles its receipt exactly and
keeps its pair is accepted exactly when that receipt did not itself keep the pair of
the one it replaced. -/
theorem payment_receipts_consistent {ops : List PaymentOp} (hstart : PaymentStart start)
    (hrun : Run paymentStep start ops db) :
    ReceiptsConsistent db ∧ (∀ id, ops.countP (·.corrects id) ≤ 1) ∧
      ∀ o tenantId productKey req reason e now, CorrectionTarget db tenantId productKey o →
        e.pair = o.evidence.pair → expectedOf db o = some (e.amountMinor, e.currency) →
          ((∃ next, paymentStep db
              (.paymentRecord req tenantId productKey (.replace o.id reason e) now) next) ↔
            ¬ KeptPair db o) := by
  have h := paymentInvariant_of_run hstart hrun
  refine ⟨consistent_of_invariant h, fun id => corrected_at_most_once id hrun hstart.invariant, ?_⟩
  intro o tenantId productKey req reason e now ho hpair hexpected
  rw [← referenceFree_iff h ho hpair]
  simp only [paymentStep, paymentNext, applyPaymentRecordInTx, bind_eq_ok, liftPayment_eq_ok,
    pure_eq_ok, resolve_replace_iff h.toReceiptsInOrder ho hexpected]
  constructor
  · rintro ⟨next, ⟨written, effect⟩, ⟨r, ⟨hfree, -⟩, -⟩, -⟩
    exact hfree
  · intro hfree
    exact ⟨_, _, ⟨_, ⟨hfree, rfl⟩, rfl⟩, rfl⟩

/-! ## A second replacement under one pair -/

def wireEvidence (invoice : String) : PaymentEvidence where
  externalInvoiceRef := js invoice
  amountMinor := 1000
  currency := js "USD"
  receivedOn := js "2026-01-01"
  paymentMethod := .bankTransfer
  paymentReference := js "WIRE-1"
  verification := none
  evidenceDocuments := []

def noPayments : PaymentDb where
  subscriptions := []
  contracts := []
  obligations := []
  receipts := []
  nextId := 0

def clerk (id : Uuid) : GoverningRequest := ⟨id, js "clerk"⟩

def recordedInitial (invoice : String) : PaymentOp :=
  .paymentRecord (clerk 100) 7 (js "sign")
    (.record (.provisionalInitial (js "CT-1") 1000 (js "USD")) (wireEvidence invoice)) 1

def replacedBy (id : Uuid) (invoice : String) (now : Nat) : PaymentOp :=
  .paymentRecord (clerk (100 + now)) 7 (js "sign")
    (.replace id (js "typing error") (wireEvidence invoice)) now

def paymentExec (ops : List PaymentOp) : Option PaymentDb :=
  exec (fun db op => (paymentNext db op).toOption) noPayments ops

theorem noPayments_start : PaymentStart noPayments where
  noReceipts := rfl
  noObligations := rfl
  subscriptionKeys := ⟨nodup_nil, fun _ h => (not_mem_nil h).elim⟩
  contractKeys := ⟨nodup_nil, fun _ h => (not_mem_nil h).elim⟩
  contractRefs := .nil
  joined := fun _ h => (not_mem_nil h).elim

theorem paymentRun_of_exec (ops : List PaymentOp) {p : PaymentDb → Bool}
    (h : (paymentExec ops).any p = true) :
    ∃ db, Run paymentStep noPayments ops db ∧ p db = true := by
  refine run_of_exec ?_ h
  intro s a t ht
  unfold paymentStep
  cases hnext : paymentNext s a with
  | error e =>
    rw [hnext] at ht
    cases ht
  | ok u =>
    rw [hnext] at ht
    exact congrArg Except.ok (Option.some.inj ht)

/-- The receipt `id` is the effective one of tenant 7 with this evidence, still to settle
1000 USD. -/
def isEffectiveReceipt (id : Uuid) (invoice : String) (db : PaymentDb) (o :
    PaymentReceipt) : Bool :=
  db.receipt? id == some o && o.tenantId == 7 && o.productKey == js "sign" && o.isEffective &&
    expectedOf db o == some (1000, js "USD") && o.evidence == wireEvidence invoice

theorem effectiveReceipt_spec {invoice : String} {o : PaymentReceipt}
    (h : isEffectiveReceipt id invoice db o = true) :
    CorrectionTarget db 7 (js "sign") o ∧ o.id = id ∧ o.evidence = wireEvidence invoice ∧
      expectedOf db o = some (1000, js "USD") := by
  simp only [isEffectiveReceipt, Bool.and_eq_true, beq_iff_eq] at h
  obtain ⟨⟨⟨⟨⟨hfind, htenant⟩, hproduct⟩, heffective⟩, hexpected⟩, hevidence⟩ := h
  refine ⟨⟨mem_of_find?_eq_some hfind, htenant, hproduct, heffective⟩,
    ?_, hevidence, hexpected⟩
  simpa using find?_some hfind

/-- A replacement under a new pair keeps that pair through the next replacement. -/
theorem second_replacement_keeps_new_pair :
    ∃ db, Run paymentStep noPayments [recordedInitial "INV-1", replacedBy 0 "INV-2" 2] db ∧
      ReceiptsConsistent db ∧ ∃ next, paymentStep db (replacedBy 1 "INV-2" 3) next := by
  obtain ⟨db, hrun, hp⟩ := paymentRun_of_exec
    [recordedInitial "INV-1", replacedBy 0 "INV-2" 2]
    (p := fun db => db.receipts.any fun o => isEffectiveReceipt 1 "INV-2" db o &&
      db.receipts.all fun s => !(o.correctsKey == some s.id && s.evidence.pair == o.evidence.pair))
    (by decide +kernel)
  obtain ⟨o, ho, hall⟩ := any_eq_true.mp hp
  rw [Bool.and_eq_true] at hall
  obtain ⟨htarget, hid, hevidence, hexpected⟩ := effectiveReceipt_spec hall.1
  obtain ⟨hconsistent, -, haccepted⟩ := payment_receipts_consistent noPayments_start hrun
  refine ⟨db, hrun, hconsistent, ?_⟩
  have hnot : ¬ KeptPair db o := by
    rintro ⟨s, hs, hkey, hpair⟩
    have hone := all_eq_true.mp hall.2 s hs
    simp [hkey, hpair] at hone
  have hstep := (haccepted o 7 (js "sign") (clerk 103) (js "typing error") (wireEvidence "INV-2") 3
    htarget (by rw [hevidence]) hexpected).mpr hnot
  rw [hid] at hstep
  exact hstep

/-- A receipt is replaced twice under its own pair: the first replacement is accepted,
the second is refused as a duplicate, for the receipt at the head of the chain. -/
theorem second_replacement_refused :
    ∃ db, Run paymentStep noPayments [recordedInitial "INV-1", replacedBy 0 "INV-1" 2] db ∧
      ∃ o, CorrectionTarget db 7 (js "sign") o ∧ o.id = 1 ∧ o.evidence = wireEvidence "INV-1" ∧
        expectedOf db o = some (1000, js "USD") ∧
          paymentNext db (replacedBy 1 "INV-1" 3) =
            .error (.payment (refusal .paymentReferenceDuplicate none)) := by
  obtain ⟨db, hrun, hp⟩ := paymentRun_of_exec
    [recordedInitial "INV-1", replacedBy 0 "INV-1" 2]
    (p := fun db => (db.receipts.any fun o => isEffectiveReceipt 1 "INV-1" db o) &&
      match paymentNext db (replacedBy 1 "INV-1" 3) with
      | .ok _ => false
      | .error x => x == .payment (refusal .paymentReferenceDuplicate none))
    (by decide +kernel)
  rw [Bool.and_eq_true] at hp
  obtain ⟨o, ho, htest⟩ := any_eq_true.mp hp.1
  obtain ⟨htarget, hid, hevidence, hexpected⟩ := effectiveReceipt_spec htest
  refine ⟨db, hrun, o, htarget, hid, hevidence, hexpected, ?_⟩
  have hrefused := hp.2
  cases hnext : paymentNext db (replacedBy 1 "INV-1" 3) with
  | ok t =>
    rw [hnext] at hrefused
    cases hrefused
  | error x =>
    rw [hnext] at hrefused
    rw [eq_of_beq hrefused]

end AramoPlatform.Commercial
