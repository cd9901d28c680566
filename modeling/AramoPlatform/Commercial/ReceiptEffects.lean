import AramoPlatform.Commercial.ReceiptOrder

/-!
# What an apply writes to the payment tables

A payment record that is accepted has passed the checks of its kind; these and
the indexes of the table are what keeps the receipts in order. A contract brings
its obligations and may consume the receipt that waited for it.
-/

namespace AramoPlatform.Commercial

open Js Lib Subscription Billing List

variable {db next : PaymentDb} {tenantId : Uuid} {productKey : ProductKey}
  {req : GoverningRequest} {now : Nat} {e : PaymentEvidence}

/-! ## The checks -/

/-- No receipt of the tenant carries the pair of the evidence, one excepted. -/
def ReferenceFree (db : PaymentDb) (tenantId : Uuid) (e : PaymentEvidence)
    (exceptReceiptId : Option Uuid) : Prop :=
  ∀ r ∈ db.receipts, r.tenantId = tenantId → r.evidence.pair = e.pair →
    exceptReceiptId = some r.id

theorem hasReference_eq_false {exceptReceiptId : Option Uuid} :
    hasReference db tenantId e exceptReceiptId = false ↔
      ReferenceFree db tenantId e exceptReceiptId := by
  unfold hasReference ReferenceFree
  rw [any_eq_false]
  constructor
  · intro h r hr htenant hpair
    simpa [htenant, hpair] using h r hr
  · intro h r hr hall
    simp only [Bool.and_eq_true, beq_iff_eq, bne_iff_ne] at hall
    exact hall.2 (h r hr hall.1.1 hall.1.2)

theorem assertReferenceFree_eq_ok {exceptReceiptId : Option Uuid} {u : Unit} :
    assertReferenceFree db tenantId e exceptReceiptId = .ok u ↔
      ReferenceFree db tenantId e exceptReceiptId := by
  rw [assertReferenceFree, require_eq_ok, Bool.not_eq_true', hasReference_eq_false]

variable {amountMinor : Nat}

theorem assertAmount_eq_ok {currency : JsString} {u : Unit} :
    assertAmount e amountMinor currency = .ok u ↔
      e.amountMinor = amountMinor ∧ e.currency = currency := by
  simp [assertAmount]

/-- What an accepted record of an obligation was checked against. -/
structure LinkedRecord (db : PaymentDb) (tenantId : Uuid) (e : PaymentEvidence)
    (contract : Contract) (obligation : ContractPaymentObligation) : Prop where
  obligation_mem : obligation ∈ db.obligations
  ofContract : obligation.contractId = contract.id
  unsettled : ∀ r ∈ db.receipts, r.obligationKey ≠ some obligation.id
  amount : e.amountMinor = obligation.amountMinor
  currency : e.currency = obligation.currency
  referenceFree : ReferenceFree db tenantId e none

variable {r : PaymentRecordResolution}

theorem resolveLinked_spec {contractRef obligationRef : JsString}
    (h : resolveLinked db tenantId productKey contractRef obligationRef e = .ok r) :
    ∃ contract subscription obligation, r = .linked contract subscription obligation e ∧
      LinkedRecord db tenantId e contract obligation := by
  simp only [resolveLinked, bind_eq_ok, orThrow_eq_ok, require_eq_ok, assertAmount_eq_ok,
    assertReferenceFree_eq_ok, pure_eq_ok] at h
  obtain ⟨⟨contract, subscription⟩, -, -, -, -, -, -, -, obligation, hobligation, -, hunsettled,
    -, ⟨hamount, hcurrency⟩, -, hfree, rfl⟩ := h
  have hfound := find?_some hobligation
  simp only [Bool.and_eq_true, beq_iff_eq] at hfound
  refine ⟨contract, subscription, obligation, rfl, mem_of_find?_eq_some hobligation, hfound.1,
    ?_, hamount, hcurrency, hfree⟩
  intro r hr hkey
  have hnot := all_eq_true.mp hunsettled r hr
  rw [Bool.not_eq_true'] at hnot
  rw [PaymentReceipt.settles_iff.mpr hkey] at hnot
  cases hnot

/-- What an accepted record of an initial payment was checked against. -/
structure ProvisionalRecord (db : PaymentDb) (tenantId : Uuid) (e : PaymentEvidence)
    (contractRef : JsString) (amountMinor : Nat) (currency : JsString) : Prop where
  noContract : db.contractByRef contractRef = none
  unheld : ∀ r ∈ db.receipts, r.waitingKey ≠ some contractRef
  amount : e.amountMinor = amountMinor
  currency : e.currency = currency
  referenceFree : ReferenceFree db tenantId e none

theorem resolveProvisional_spec {contractRef currency : JsString}
    (h : resolveProvisional db tenantId productKey contractRef amountMinor currency e = .ok r) :
    r = .provisional contractRef amountMinor currency e ∧
      ProvisionalRecord db tenantId e contractRef amountMinor currency := by
  simp only [resolveProvisional, bind_eq_ok, require_eq_ok, assertAmount_eq_ok,
    assertReferenceFree_eq_ok, pure_eq_ok] at h
  obtain ⟨-, hnone, -, -, -, hheld, -, -, -, ⟨hamount, hcurrency⟩, -, hfree, rfl⟩ := h
  refine ⟨rfl, Option.isNone_iff_eq_none.mp hnone, ?_, hamount, hcurrency, hfree⟩
  intro r hr hkey
  have hmem : r ∈ db.receipts.filter (·.isWaitingFor contractRef) :=
    mem_filter.mpr ⟨hr, PaymentReceipt.isWaitingFor_iff.mpr hkey⟩
  rw [List.isEmpty_iff.mp hheld] at hmem
  cases hmem

/-- The receipt that a correction may name. -/
structure CorrectionTarget (db : PaymentDb) (tenantId : Uuid) (productKey : ProductKey)
    (o : PaymentReceipt) : Prop where
  mem : o ∈ db.receipts
  tenant : o.tenantId = tenantId
  product : o.productKey = productKey
  effective : o.isEffective = true

variable {o : PaymentReceipt}

theorem correctionTarget_spec {receiptId : Uuid}
    (h : correctionTarget db tenantId productKey receiptId = .ok o) :
    o.id = receiptId ∧ CorrectionTarget db tenantId productKey o := by
  simp only [correctionTarget, bind_eq_ok, orThrow_eq_ok, require_eq_ok, pure_eq_ok,
    Bool.and_eq_true, beq_iff_eq] at h
  obtain ⟨o, hfind, -, ⟨htenant, hproduct⟩, -, heffective, rfl⟩ := h
  exact ⟨by simpa using find?_some hfind, mem_of_find?_eq_some hfind, htenant, hproduct,
    heffective⟩

theorem correctionTarget_eq_ok (hwf : ReceiptsInOrder db)
    (h : CorrectionTarget db tenantId productKey o) :
    correctionTarget db tenantId productKey o.id = .ok o := by
  have hfind : db.receipt? o.id = some o := find?_key_eq_some hwf.receiptKeys.nodup h.mem
  simp [correctionTarget, hfind, h.tenant, h.product, h.effective, orThrow, require, ok_bind]

variable {reason : JsString}

/-- A replacement of an uncorrected receipt that settles what is expected is accepted
exactly when its pair is on no other receipt of the tenant. -/
theorem resolve_replace_iff (hwf : ReceiptsInOrder db)
    (ho : CorrectionTarget db tenantId productKey o)
    (hexpected : expectedOf db o = some (e.amountMinor, e.currency)) :
    resolvePaymentRecordInTx db tenantId productKey (.replace o.id reason e) = .ok r ↔
      ReferenceFree db tenantId e (some o.id) ∧ r = .replaced o e := by
  have hassert : assertExpected o (expectedOf db o) e = .ok () := by
    rw [assertExpected, hexpected]
    exact require_of_true (beq_self_eq_true _) _
  simp only [resolvePaymentRecordInTx, correctionTarget_eq_ok hwf ho, hassert, ok_bind, bind_eq_ok,
    assertReferenceFree_eq_ok, pure_eq_ok]
  constructor
  · rintro ⟨-, hfree, rfl⟩
    exact ⟨hfree, rfl⟩
  · rintro ⟨hfree, rfl⟩
    exact ⟨(), hfree, rfl⟩

/-- What an accepted replacement was checked against. -/
structure Replacement (db : PaymentDb) (tenantId : Uuid) (productKey : ProductKey)
    (o : PaymentReceipt) (e : PaymentEvidence) : Prop where
  target : CorrectionTarget db tenantId productKey o
  expected : expectedOf db o = some (e.amountMinor, e.currency)
  referenceFree : ReferenceFree db tenantId e (some o.id)

theorem resolve_replace_spec {receiptId : Uuid}
    (h : resolvePaymentRecordInTx db tenantId productKey (.replace receiptId reason e) = .ok r) :
    ∃ o, o.id = receiptId ∧ r = .replaced o e ∧ Replacement db tenantId productKey o e := by
  simp only [resolvePaymentRecordInTx, bind_eq_ok, assertReferenceFree_eq_ok, pure_eq_ok] at h
  obtain ⟨o, htarget, _, hexpected, -, hfree, rfl⟩ := h
  obtain ⟨hid, htarget⟩ := correctionTarget_spec htarget
  rw [assertExpected, require_eq_ok, beq_iff_eq] at hexpected
  exact ⟨o, hid, rfl, htarget, hexpected, hfree⟩

theorem resolve_void_spec {receiptId : Uuid} {follow : Bool}
    (h : resolvePaymentRecordInTx db tenantId productKey (.void receiptId reason follow) = .ok r) :
    ∃ o, o.id = receiptId ∧ r = .voided o ∧ CorrectionTarget db tenantId productKey o ∧
      o.isConsumedInitial = false := by
  simp only [resolvePaymentRecordInTx, bind_eq_ok, require_eq_ok, pure_eq_ok,
    Bool.not_eq_true'] at h
  obtain ⟨o, htarget, -, hinitial, -, -, rfl⟩ := h
  obtain ⟨hid, htarget⟩ := correctionTarget_spec htarget
  exact ⟨o, hid, rfl, htarget, hinitial⟩

/-! ## Payment records keep the invariant -/

theorem expectedOf_linked (hwf : ReceiptsInOrder db) (ho : o ∈ db.receipts)
    (h : expectedOf db o = some (e.amountMinor, e.currency)) :
    o.evidence.amountMinor = e.amountMinor ∧ o.evidence.currency = e.currency := by
  unfold expectedOf at h
  cases hl : o.link with
  | some l =>
    obtain ⟨obligation, hmem, hid, -, hamount, hcurrency, -⟩ := (hwf.settled o ho).linked l hl
    have hfind : db.obligation? l.obligationId = some obligation := by
      rw [← hid]
      exact find?_key_eq_some hwf.obligationKeys.nodup hmem
    simp only [hl, Option.bind_some, hfind] at h
    obtain ⟨h₁, h₂⟩ := Prod.mk.inj (Option.some.inj h)
    exact ⟨hamount.symm.trans h₁, hcurrency.symm.trans h₂⟩
  | none =>
    simp only [hl, Option.bind_none] at h
    obtain ⟨p, hp, heq⟩ := Option.map_eq_some_iff.mp h
    obtain ⟨-, hamount, hcurrency⟩ := (hwf.settled o ho).expected p hp
    obtain ⟨h₁, h₂⟩ := Prod.mk.inj heq
    exact ⟨hamount.symm.trans h₁, hcurrency.symm.trans h₂⟩

/-- The rows after a payment record: the old ones, the original superseded, and the
new receipt. -/
theorem initialsKept_insert (h : InitialsKept db) {r : PaymentReceipt}
    (hr : r.isConsumedInitial = false) : InitialsKept (db.insertReceipt r) := by
  intro x hx hinitial
  rcases mem_insertReceipt.mp hx with hold | rfl
  · obtain ⟨y, hy, hrest⟩ := h x hold hinitial
    exact ⟨y, mem_insertReceipt.mpr (.inl hy), hrest⟩
  · rw [hr] at hinitial
    cases hinitial

theorem waitingRefsFree_insert (h : WaitingRefsFree db) {r : PaymentReceipt}
    (hr : ∀ contractRef, r.waitingKey = some contractRef →
      ∀ c ∈ db.contracts, c.contractRef ≠ contractRef) :
    WaitingRefsFree (db.insertReceipt r) := by
  intro x hx contractRef hkey
  rcases mem_insertReceipt.mp hx with hold | rfl
  · exact h x hold contractRef hkey
  · exact hr contractRef hkey

theorem linked_invariant (h : PaymentInvariant db) {contract : Contract}
    {obligation : ContractPaymentObligation} (hr : LinkedRecord db tenantId e contract obligation) :
    PaymentInvariant
      (db.insertReceipt (linkedReceipt db req tenantId productKey now contract obligation e)) where
  toReceiptsInOrder := by
    refine h.insertReceipt rfl ⟨?_, ?_, ?_⟩ ?_ ?_ ?_ ?_ ?_
    · intro l hl
      obtain rfl := Option.some.inj hl
      refine ⟨obligation, hr.obligation_mem, rfl, hr.ofContract,
        hr.amount.symm, hr.currency.symm, ?_⟩
      intro hsome
      cases hsome
    · intro p hp
      cases hp
    · intro l p _ hp
      cases hp
    · intro a ha k hk
      obtain rfl := Option.some.inj hk
      exact hr.unsettled a ha
    · intro a _ k hk
      cases hk
    · intro a _ k hk
      cases hk
    · intro i hi
      cases hi
    · intro s hs hsame
      exact absurd (hr.referenceFree s hs hsame.1 hsame.2) (by simp)
  initials := initialsKept_insert h.initials rfl
  waitingRefs := by
    refine waitingRefsFree_insert h.waitingRefs ?_
    intro contractRef hkey
    cases hkey

theorem contractByRef_none (h : ReceiptsInOrder db) {contractRef : JsString}
    (hnone : db.contractByRef contractRef = none) : ∀ c ∈ db.contracts,
      c.contractRef ≠ contractRef := by
  intro c hc href
  obtain ⟨s, hs, hid⟩ := h.joined c hc
  have hfind : db.subscription? c.tenantSubscriptionId = some s := by
    rw [← hid]
    exact find?_key_eq_some h.subscriptionKeys.nodup hs
  have hall := findSome?_eq_none_iff.mp hnone c hc
  simp [href, hfind] at hall

theorem provisional_invariant (h : PaymentInvariant db) {contractRef currency : JsString}
    (hr : ProvisionalRecord db tenantId e contractRef amountMinor currency) :
    PaymentInvariant (db.insertReceipt
      (provisionalReceipt db req tenantId productKey now contractRef amountMinor currency e)) where
  toReceiptsInOrder := by
    refine h.insertReceipt rfl ⟨?_, ?_, ?_⟩ ?_ ?_ ?_ ?_ ?_
    · intro l hl
      cases hl
    · intro p hp
      obtain rfl := Option.some.inj hp
      exact ⟨rfl, hr.amount.symm, hr.currency.symm⟩
    · intro l p hl
      cases hl
    · intro a _ k hk
      cases hk
    · intro a ha k hk
      obtain rfl := Option.some.inj hk
      exact hr.unheld a ha
    · intro a _ k hk
      cases hk
    · intro i hi
      cases hi
    · intro s hs hsame
      exact absurd (hr.referenceFree s hs hsame.1 hsame.2) (by simp)
  initials := initialsKept_insert h.initials rfl
  waitingRefs := by
    refine waitingRefsFree_insert h.waitingRefs ?_
    intro ref hkey
    obtain rfl := Option.some.inj hkey
    exact contractByRef_none h.toReceiptsInOrder hr.noContract

theorem waitingRefsFree_update (h : PaymentInvariant db) (ho : o ∈ db.receipts)
    {f : PaymentReceipt → PaymentReceipt} (hkey : (f o).waitingKey = none) :
    WaitingRefsFree (db.updateReceipt o.id f) := by
  intro x hx contractRef hwaiting
  rcases (mem_updateReceipt h.toReceiptsInOrder ho).mp hx with ⟨hx, -⟩ | rfl
  · exact h.waitingRefs x hx contractRef hwaiting
  · rw [hkey] at hwaiting
    cases hwaiting

theorem voided_invariant (h : PaymentInvariant db) (ho : o ∈ db.receipts)
    (hinitial : o.isConsumedInitial = false) (mark : CorrectionMark) :
    PaymentInvariant (db.updateReceipt o.id (·.markCorrected mark)) where
  toReceiptsInOrder := h.markCorrected ho mark
  initials := by
    intro x hx hx'
    have hmem := fun {y : PaymentReceipt} =>
      mem_updateReceipt (x := y) (f := (·.markCorrected mark)) h.toReceiptsInOrder ho
    have hold : x ∈ db.receipts := by
      rcases hmem.mp hx with ⟨hx, -⟩ | rfl
      · exact hx
      · exact absurd hx' (by simpa [PaymentReceipt.isConsumedInitial] using hinitial)
    obtain ⟨y, hy, hy', hyrest⟩ := h.initials x hold hx'
    refine ⟨y, hmem.mpr (.inl ⟨hy, ?_⟩), hy', hyrest⟩
    intro heq
    obtain rfl := inj_on_of_nodup_map h.receiptKeys.nodup hy ho heq
    rw [hinitial] at hy'
    cases hy'
  waitingRefs := waitingRefsFree_update h ho (PaymentReceipt.waitingKey_of_superseded rfl)

section Replace

variable {o : PaymentReceipt}

theorem replacement_obligationKey (he : o.isEffective = true) :
    (replacementReceipt db req tenantId productKey now o e).obligationKey = o.obligationKey := by
  rw [PaymentReceipt.obligationKey_of_effective rfl, PaymentReceipt.obligationKey_of_effective he]
  simp only [replacementReceipt, Option.map_map]
  rfl

theorem replacement_waitingKey (he : o.isEffective = true) :
    (replacementReceipt db req tenantId productKey now o e).waitingKey = o.waitingKey := by
  have hnew : (replacementReceipt db req tenantId productKey now o e).isEffective = true := rfl
  unfold PaymentReceipt.waitingKey
  rw [he, hnew]
  simp [replacementReceipt]

theorem replacement_isConsumedInitial :
    (replacementReceipt db req tenantId productKey now o e).isConsumedInitial =
      o.isConsumedInitial := by
  simp [PaymentReceipt.isConsumedInitial, replacementReceipt]

theorem replacement_settled (h : ReceiptsInOrder db)
    (hr : Replacement db tenantId productKey o e) :
    Settled db (replacementReceipt db req tenantId productKey now o e) := by
  obtain ⟨hamount, hcurrency⟩ := expectedOf_linked h hr.target.mem hr.expected
  have hold := h.settled o hr.target.mem
  refine ⟨fun l hl => ?_, fun p hp => ?_, fun l p hl hp => ?_⟩
  · obtain ⟨l₀, hl₀, rfl⟩ := Option.map_eq_some_iff.mp hl
    obtain ⟨obligation, hmem, hid, hcontract, ha, hc, href⟩ := hold.linked l₀ hl₀
    exact ⟨obligation, hmem, hid, hcontract, ha.trans hamount, hc.trans hcurrency, href⟩
  · obtain ⟨href, ha, hc⟩ := hold.expected p hp
    exact ⟨href, ha.trans hamount, hc.trans hcurrency⟩
  · obtain ⟨l₀, hl₀, rfl⟩ := Option.map_eq_some_iff.mp hl
    exact hold.opened l₀ p hl₀ hp

theorem not_corrected (h : ReceiptsInOrder db) (ho : o ∈ db.receipts) (he : o.isEffective = true)
    {a : PaymentReceipt} (ha : a ∈ db.receipts) : a.correctsKey ≠ some o.id := by
  intro hkey
  obtain ⟨-, s, hs, hid, -, hsuper⟩ := h.supersedes a ha o.id hkey
  obtain rfl := inj_on_of_nodup_map h.receiptKeys.nodup hs ho hid
  rw [he] at hsuper
  cases hsuper

theorem replaced_inOrder (h : ReceiptsInOrder db) (hr : Replacement db tenantId productKey o e)
    (mark : CorrectionMark) :
    ReceiptsInOrder ((db.updateReceipt o.id (·.markCorrected mark)).insertReceipt
      (replacementReceipt db req tenantId productKey now o e)) := by
  have ho := hr.target.mem
  have hmem := fun {y : PaymentReceipt} =>
    mem_updateReceipt (x := y) (f := (·.markCorrected mark)) h ho
  refine (h.markCorrected ho mark).insertReceipt rfl ?_ ?_ ?_ ?_ ?_ ?_
  · exact (replacement_settled h hr).mono (fun _ ho => ho) fun _ hc => hc
  · intro a ha k hk hak
    rw [replacement_obligationKey hr.target.effective] at hk
    rcases hmem.mp ha with ⟨ha, hne⟩ | rfl
    · obtain rfl := h.oneEffective a ha o ho k hak hk
      exact hne rfl
    · rw [PaymentReceipt.obligationKey_of_superseded rfl] at hak
      cases hak
  · intro a ha k hk hak
    rw [replacement_waitingKey hr.target.effective] at hk
    rcases hmem.mp ha with ⟨ha, hne⟩ | rfl
    · obtain rfl := h.oneWaiting a ha o ho k hak hk
      exact hne rfl
    · rw [PaymentReceipt.waitingKey_of_superseded rfl] at hak
      cases hak
  · intro a ha k hk hak
    obtain rfl := Option.some.inj hk
    rcases hmem.mp ha with ⟨ha, -⟩ | rfl
    · exact not_corrected h ho hr.target.effective ha hak
    · exact not_corrected h ho hr.target.effective ho hak
  · intro i hi
    obtain rfl := Option.some.inj hi
    exact ⟨o.markCorrected mark, hmem.mpr (.inr rfl), rfl, hr.target.tenant, rfl⟩
  · intro s hs hsame
    -- the original alone may carry the pair
    have hone : ∀ y ∈ db.receipts, y.tenantId = tenantId → y.evidence.pair = e.pair →
        some o.id = some y.id := hr.referenceFree
    rcases hmem.mp hs with ⟨hs, -⟩ | rfl
    · exact hone s hs hsame.1 hsame.2
    · exact hone o ho hsame.1 hsame.2

theorem replaced_initials (h : PaymentInvariant db) (hr : Replacement db tenantId productKey o e)
    (mark : CorrectionMark) :
    InitialsKept ((db.updateReceipt o.id (·.markCorrected mark)).insertReceipt
      (replacementReceipt db req tenantId productKey now o e)) := by
  have ho := hr.target.mem
  have hmem := fun {y : PaymentReceipt} =>
    mem_updateReceipt (x := y) (f := (·.markCorrected mark)) h.toReceiptsInOrder ho
  have hnew : (replacementReceipt db req tenantId productKey now o e).link.map (·.obligationId) =
      o.link.map (·.obligationId) := by
    simp only [replacementReceipt, Option.map_map]
    rfl
  -- the effective receipt of an old row is kept, or it is the one that is replaced
  have hkept : ∀ x ∈ db.receipts, x.isConsumedInitial = true →
      ∃ y ∈ ((db.updateReceipt o.id (·.markCorrected mark)).insertReceipt
          (replacementReceipt db req tenantId productKey now o e)).receipts,
        y.isConsumedInitial = true ∧ y.isEffective = true ∧
          y.link.map (·.obligationId) = x.link.map (·.obligationId) := by
    intro x hx hinitial
    obtain ⟨y, hy, hy', heffective, hlink⟩ := h.initials x hx hinitial
    by_cases heq : y.id = o.id
    · obtain rfl := inj_on_of_nodup_map h.receiptKeys.nodup hy ho heq
      exact ⟨_, mem_insertReceipt.mpr (.inr rfl), replacement_isConsumedInitial.trans hy', rfl,
        hnew.trans hlink⟩
    · exact ⟨y, mem_insertReceipt.mpr (.inl (hmem.mpr (.inl ⟨hy, heq⟩))), hy', heffective, hlink⟩
  intro x hx hinitial
  rcases mem_insertReceipt.mp hx with hx | rfl
  · rcases hmem.mp hx with ⟨hx, -⟩ | rfl
    · exact hkept x hx hinitial
    · exact hkept o ho hinitial
  · exact ⟨_, mem_insertReceipt.mpr (.inr rfl), hinitial, rfl, rfl⟩

theorem replaced_invariant (h : PaymentInvariant db) (hr : Replacement db tenantId productKey o e)
    (mark : CorrectionMark) :
    PaymentInvariant ((db.updateReceipt o.id (·.markCorrected mark)).insertReceipt
      (replacementReceipt db req tenantId productKey now o e)) where
  toReceiptsInOrder := replaced_inOrder h.toReceiptsInOrder hr mark
  initials := replaced_initials h hr mark
  waitingRefs := by
    refine waitingRefsFree_insert
      (waitingRefsFree_update h hr.target.mem (PaymentReceipt.waitingKey_of_superseded rfl)) ?_
    intro contractRef hkey
    rw [replacement_waitingKey hr.target.effective] at hkey
    exact h.waitingRefs o hr.target.mem contractRef hkey

end Replace

theorem applyPaymentRecord_invariant (h : PaymentInvariant db) {p : PaymentRecordPayload}
    {effect : PaymentRecordEffect}
    (happly : applyPaymentRecordInTx db req tenantId productKey now p = .ok (next, effect)) :
    PaymentInvariant next := by
  simp only [applyPaymentRecordInTx, bind_eq_ok, pure_eq_ok] at happly
  obtain ⟨r, hresolve, hwrite⟩ := happly
  cases p with
  | record target evidence =>
    cases target with
    | contractObligation contractRef obligationRef =>
      obtain ⟨contract, subscription, obligation, rfl, hr⟩ := resolveLinked_spec hresolve
      obtain ⟨rfl, -⟩ := Prod.mk.inj hwrite
      exact linked_invariant h hr
    | provisionalInitial contractRef amountMinor currency =>
      obtain ⟨rfl, hr⟩ := resolveProvisional_spec hresolve
      obtain ⟨rfl, -⟩ := Prod.mk.inj hwrite
      exact provisional_invariant h hr
  | replace receiptId reason evidence =>
    obtain ⟨o, -, rfl, hr⟩ := resolve_replace_spec hresolve
    obtain ⟨rfl, -⟩ := Prod.mk.inj hwrite
    exact replaced_invariant h hr _
  | void receiptId reason follow =>
    obtain ⟨o, -, rfl, ho, hinitial⟩ := resolve_void_spec hresolve
    obtain ⟨rfl, -⟩ := Prod.mk.inj hwrite
    exact voided_invariant h ho.mem hinitial _

end AramoPlatform.Commercial
