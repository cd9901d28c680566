import AramoPlatform.Commercial.ReceiptEffects

/-!
# What contracts do to the payment tables

A contract is recorded with its obligations under references of its own; when
its opening consumes a receipt, the receipt waited for exactly this contract
and settles its initial obligation.
-/

namespace AramoPlatform.Commercial

open Js Lib Subscription Billing List

variable {db next : PaymentDb} {tenantId : Uuid} {productKey : ProductKey}
  {req : GoverningRequest} {now : Nat}

/-! ## Subscription rows -/

theorem PaymentInvariant.writeSubscriptions (h : PaymentInvariant db)
    {subscriptions : List TenantSubscription} {nextId : Uuid} (hle : db.nextId ≤ nextId)
    (hkeys : Keyed (·.id) subscriptions nextId)
    (hkept : ∀ s ∈ db.subscriptions, ∃ s' ∈ subscriptions, s'.id = s.id) :
    PaymentInvariant { db with subscriptions := subscriptions, nextId := nextId } where
  toReceiptsInOrder := h.toReceiptsInOrder.writeSubscriptions hle hkeys hkept
  initials := h.initials
  waitingRefs := h.waitingRefs

theorem exists_updated (p : TenantSubscription → Bool)
    (f : TenantSubscription → TenantSubscription) (rows : List TenantSubscription)
    (hid : ∀ s, p s = true → (f s).id = s.id) :
    ∀ s ∈ rows, ∃ s' ∈ updateWhere p f rows, s'.id = s.id :=
  fun s hs => exists_updateWhere hs (fun _ => rfl) (hid s)

theorem writeOpening_invariant (h : PaymentInvariant db) {replaced : Option TenantSubscription}
    {opened : TenantSubscription} (hid : opened.id = db.nextId) :
    PaymentInvariant (writeOpening db replaced opened now) := by
  have hkeys := h.subscriptionKeys.update (p := fun s => replaced.any (·.id == s.id))
    (f := endReplacedRow now) fun _ => rfl
  refine h.writeSubscriptions (Nat.le_succ _) (hkeys.insert hid) ?_
  intro s hs
  obtain ⟨s', hs', hid'⟩ := exists_updated (fun s => replaced.any (·.id == s.id))
    (endReplacedRow now) _ (fun _ _ => rfl) s hs
  exact ⟨s', mem_append_left _ hs', hid'⟩

theorem writeSubscription_invariant (h : PaymentInvariant db) (x : TenantSubscription) :
    PaymentInvariant (writeSubscription db x) := by
  unfold writeSubscription
  split
  · have hid : ∀ s : TenantSubscription, (s.id == x.id) = true → x.id = s.id := by
      intro s hs
      exact (eq_of_beq hs).symm
    refine h.writeSubscriptions (Nat.le_refl _) ⟨?_, ?_⟩ (exists_updated _ _ _ hid)
    · have hmap : (updateWhere (·.id == x.id) (fun _ => x) db.subscriptions).map (·.id) =
          db.subscriptions.map (·.id) := by
        rw [updateWhere, map_map]
        refine map_congr_left fun s _ => ?_
        by_cases hs : s.id = x.id <;> simp [Function.comp_apply, hs]
      rw [hmap]
      exact h.subscriptionKeys.nodup
    · intro s hs
      rcases of_mem_updateWhere hs with ⟨hs, -⟩ | ⟨y, hy, hyx, rfl⟩
      · exact h.subscriptionKeys.lt s hs
      · rw [hid y hyx]
        exact h.subscriptionKeys.lt y hy
  · refine h.writeSubscriptions (Nat.le_succ _) (h.subscriptionKeys.insert rfl) ?_
    intro s hs
    exact ⟨s, mem_append_left _ hs, rfl⟩

/-! ## Obligations -/

section Obligations

variable {contractId changeRequestId : Uuid} {currency : JsString}

theorem recordObligations_receipts (os : List PaymentObligationTerm) :
    (recordObligationsInTx db contractId os currency changeRequestId now).receipts =
      db.receipts := by
  refine foldl_frame (g := PaymentDb.receipts) ?_ os db
  exact fun _ _ => rfl

theorem recordObligations_contracts (os : List PaymentObligationTerm) :
    (recordObligationsInTx db contractId os currency changeRequestId now).contracts =
      db.contracts := by
  refine foldl_frame (g := PaymentDb.contracts) ?_ os db
  exact fun _ _ => rfl

variable {os : List PaymentObligationTerm}

theorem mem_recordObligations {o : ContractPaymentObligation}
    (h : o ∈ (recordObligationsInTx db contractId os currency changeRequestId now).obligations) :
    o ∈ db.obligations ∨ db.nextId ≤ o.id ∧ o.contractId = contractId ∧ o.currency = currency ∧
      ∃ t ∈ os, o.obligationRef = t.obligationRef ∧ o.amountMinor = t.amountMinor := by
  induction os generalizing db with
  | nil => exact .inl h
  | cons t rest ih =>
    rcases ih h with hmem | ⟨hle, hcontract, hcurrency, u, hu, hrest⟩
    · rcases (mem_append.mp hmem).imp_right mem_singleton.mp with hold | rfl
      · exact .inl hold
      · exact .inr ⟨Nat.le_refl _, rfl, rfl, t, mem_cons_self, rfl, rfl⟩
    · exact .inr ⟨Nat.le_of_succ_le hle, hcontract, hcurrency, u, mem_cons_of_mem _ hu, hrest⟩

theorem recordObligations_inOrder (h : ReceiptsInOrder db)
    (hcontract : contractId < db.nextId) (hnodup : (os.map (·.obligationRef)).Nodup)
    (hnew : ∀ x ∈ db.obligations, x.contractId = contractId →
      ∀ t ∈ os, x.obligationRef ≠ t.obligationRef) :
    ReceiptsInOrder (recordObligationsInTx db contractId os currency changeRequestId now) := by
  induction os generalizing db with
  | nil => exact h
  | cons t rest ih =>
    obtain ⟨hhead, htail⟩ := nodup_cons.mp hnodup
    refine ih (h.insertObligation rfl hcontract fun x hx hxc => hnew x hx hxc t mem_cons_self)
      (Nat.lt_succ_of_lt hcontract) htail ?_
    intro x hx hxc u hu
    rcases (mem_append.mp hx).imp_right mem_singleton.mp with hold | rfl
    · exact hnew x hold hxc u (mem_cons_of_mem _ hu)
    · intro heq
      exact hhead (mem_map.mpr ⟨u, hu, heq.symm⟩)

theorem recordObligations_invariant (h : PaymentInvariant db)
    (hcontract : contractId < db.nextId) (hnodup : (os.map (·.obligationRef)).Nodup)
    (hnew : ∀ x ∈ db.obligations, x.contractId = contractId →
      ∀ t ∈ os, x.obligationRef ≠ t.obligationRef) :
    PaymentInvariant (recordObligationsInTx db contractId os currency changeRequestId now) where
  toReceiptsInOrder := recordObligations_inOrder h.toReceiptsInOrder hcontract hnodup hnew
  initials := by
    have hkept := h.initials
    unfold InitialsKept at hkept ⊢
    rwa [recordObligations_receipts]
  waitingRefs := by
    have hfree := h.waitingRefs
    unfold WaitingRefsFree at hfree ⊢
    rwa [recordObligations_receipts, recordObligations_contracts]

end Obligations

/-! ## The receipt of an opening -/

/-- The receipt that an opening consumes: it waits for the contract of the block and
settles its initial obligation. -/
structure InitialReceipt (db : PaymentDb) (tenantId : Uuid) (productKey : ProductKey)
    (block : ContractRecordBlock) (r : PaymentReceipt) : Prop where
  mem : r ∈ db.receipts
  tenant : r.tenantId = tenantId
  product : r.productKey = productKey
  waiting : r.waitingKey = some block.contractRef
  amount : ∃ initial ∈ block.paymentTerms.obligations,
    initial.obligationRef = initialObligationRef ∧ r.evidence.amountMinor = initial.amountMinor
  currency : r.evidence.currency = block.paymentTerms.currency

variable {r : PaymentReceipt}

theorem prepaidInitialReceipt_spec {contract : Option ContractRecordBlock}
    (h : prepaidInitialReceipt db tenantId productKey contract = .ok (some r)) :
    ∃ block, contract = some block ∧ InitialReceipt db tenantId productKey block r := by
  unfold prepaidInitialReceipt at h
  cases contract with
  | none => cases h
  | some block =>
    refine ⟨block, rfl, ?_⟩
    dsimp only at h
    cases hinitial : initialObligationOf block.paymentTerms with
    | none =>
      rw [hinitial] at h
      cases h
    | some initial =>
      simp only [hinitial, initialReceiptFor, bind_eq_ok, orThrow_eq_ok, require_eq_ok,
        pure_eq_ok, Option.some.injEq] at h
      obtain ⟨x, ⟨r', hfind, -, hmatch, rfl⟩, rfl⟩ := h
      have hfound := find?_some hfind
      simp only [Bool.and_eq_true, beq_iff_eq] at hfound hmatch
      obtain ⟨hmem, href⟩ := initialObligationOf_mem hinitial
      exact ⟨mem_of_find?_eq_some hfind, hfound.1.1, hfound.1.2,
        PaymentReceipt.isWaitingFor_iff.mp hfound.2, ⟨initial, hmem, href, hmatch.1.2⟩, hmatch.2⟩

theorem waiting_unlinked {contractRef : JsString}
    (h : r.waitingKey = some contractRef) :
    r.link = none ∧ r.isEffective = true ∧ ∃ p, r.provisional = some p ∧
      p.contractRef = contractRef := by
  unfold PaymentReceipt.waitingKey at h
  split at h
  next hcond =>
    rw [Bool.and_eq_true, Option.isNone_iff_eq_none] at hcond
    obtain ⟨p, hp, href⟩ := Option.map_eq_some_iff.mp h
    exact ⟨hcond.1, hcond.2, p, hp, href⟩
  · cases h

/-! ## Contracts keep the invariant -/

theorem recordContract_spec {subscriptionId contractId : Uuid} {block : ContractRecordBlock}
    (h : recordContractInTx db subscriptionId block req = .ok (next, contractId)) :
    contractId = db.nextId ∧ (∀ d ∈ db.contracts, d.contractRef ≠ block.contractRef) ∧
      ∃ c : Contract, c.id = db.nextId ∧ c.contractRef = block.contractRef ∧
        c.tenantSubscriptionId = subscriptionId ∧
          next = { db with contracts := db.contracts ++ [c], nextId := db.nextId + 1 } := by
  simp only [recordContractInTx, bind_eq_ok, require_eq_ok, pure_eq_ok] at h
  obtain ⟨-, -, -, hrefs, heq⟩ := h
  obtain ⟨rfl, rfl⟩ := Prod.mk.inj heq
  refine ⟨rfl, ?_, _, rfl, rfl, rfl, rfl⟩
  intro d hd
  simpa using all_eq_true.mp hrefs d hd

theorem liftPayment_eq_ok {α : Type} {x : Except PaymentRecordRefused α} {a : α} :
    liftPayment x = .ok a ↔ x = .ok a := by
  cases x with
  | error | ok => simp [liftPayment, Except.mapError]

variable {os : List PaymentObligationTerm}

/-- The tables with a new contract and its obligations, before a receipt is linked. -/
theorem contract_inOrder (h : PaymentInvariant db) {c : Contract}
    {currency : JsString} {changeRequestId : Uuid} (hid : c.id = db.nextId)
    (href : ∀ d ∈ db.contracts, d.contractRef ≠ c.contractRef)
    (hjoin : ∃ s ∈ db.subscriptions, s.id = c.tenantSubscriptionId)
    (hnodup : (os.map (·.obligationRef)).Nodup) :
    ReceiptsInOrder (recordObligationsInTx
      { db with contracts := db.contracts ++ [c], nextId := db.nextId + 1 } db.nextId os currency
        changeRequestId now) := by
  refine recordObligations_inOrder (h.toReceiptsInOrder.insertContract hid href hjoin)
    (Nat.lt_succ_self _) hnodup ?_
  -- the id of the contract is new, so no obligation belongs to it
  intro x hx hxc
  exact absurd (h.ofContract x hx) (by rw [hxc]; exact Nat.lt_irrefl _)

/-- The obligation of the consumed receipt stands for the initial term of the block. -/
theorem initial_of_recorded {contractId changeRequestId : Uuid}
    {currency : JsString} {o : ContractPaymentObligation} {t : PaymentObligationTerm}
    (hold : ∀ x ∈ db.obligations, x.contractId ≠ contractId)
    (ho : (recordObligationsInTx db contractId os currency changeRequestId now).obligationOf
      contractId initialObligationRef = some o)
    (hnodup : (os.map (·.obligationRef)).Nodup) (ht : t ∈ os)
    (htref : t.obligationRef = initialObligationRef) :
    o ∈ (recordObligationsInTx db contractId os currency changeRequestId now).obligations ∧
      db.nextId ≤ o.id ∧ o.contractId = contractId ∧ o.obligationRef = initialObligationRef ∧
        o.amountMinor = t.amountMinor ∧ o.currency = currency := by
  have hmem := mem_of_find?_eq_some ho
  have hfound := find?_some ho
  simp only [Bool.and_eq_true, beq_iff_eq] at hfound
  rcases mem_recordObligations hmem with hx | ⟨hle, -, hcurrency, u, hu, huref, huamount⟩
  · exact absurd hfound.1 (hold o hx)
  · obtain rfl : u = t :=
      inj_on_of_nodup_map hnodup hu ht (huref.symm.trans (hfound.2.trans htref.symm))
    exact ⟨hmem, hle, hfound.1, hfound.2, huamount, hcurrency⟩

theorem linked_initials (h : PaymentInvariant db) {link : ReceiptLink}
    {mid : PaymentDb} (hreceipts : mid.receipts = db.receipts) (hmid : ReceiptsInOrder mid)
    (hr : r ∈ db.receipts) (hlink : r.link = none) (heffective : r.isEffective = true) :
    InitialsKept (mid.updateReceipt r.id (·.linkTo link)) := by
  have hmem := fun {y : PaymentReceipt} =>
    mem_updateReceipt (x := y) (f := (·.linkTo link)) hmid (hreceipts.symm ▸ hr)
  intro x hx hinitial
  rcases hmem.mp hx with ⟨hx, -⟩ | rfl
  · obtain ⟨y, hy, hy', hrest⟩ := h.initials x (hreceipts ▸ hx) hinitial
    refine ⟨y, hmem.mpr (.inl ⟨hreceipts.symm ▸ hy, ?_⟩), hy', hrest⟩
    intro heq
    obtain rfl := inj_on_of_nodup_map h.receiptKeys.nodup hy hr heq
    simp [PaymentReceipt.isConsumedInitial, hlink] at hy'
  · exact ⟨_, hmem.mpr (.inr rfl), hinitial, heffective, rfl⟩

/-- The references that wait after a contract is recorded: none is the contract's. -/
theorem waitingRefs_contract (h : WaitingRefsFree db) {c : Contract} {rows : List PaymentReceipt}
    {contracts : List Contract} (hcontracts : contracts = db.contracts ++ [c])
    (hrows : ∀ x ∈ rows, ∀ contractRef, x.waitingKey = some contractRef →
      x ∈ db.receipts ∧ contractRef ≠ c.contractRef) :
    ∀ x ∈ rows, ∀ contractRef, x.waitingKey = some contractRef →
      ∀ d ∈ contracts, d.contractRef ≠ contractRef := by
  subst hcontracts
  intro x hx contractRef hkey d hd
  obtain ⟨hmem, hne⟩ := hrows x hx contractRef hkey
  rcases (mem_append.mp hd).imp_right mem_singleton.mp with hd | rfl
  · exact h x hmem contractRef hkey d hd
  · exact fun heq => hne heq.symm

theorem exists_recordObligations {t : PaymentObligationTerm}
    (ht : t ∈ os) (db : PaymentDb) (contractId changeRequestId : Uuid) (currency : JsString)
    (now : Nat) : ∃ o ∈ (recordObligationsInTx db contractId os currency
      changeRequestId now).obligations,
      o.contractId = contractId ∧ o.obligationRef = t.obligationRef := by
  induction os generalizing db with
  | nil => cases ht
  | cons u rest ih =>
    rcases mem_cons.mp ht with rfl | ht
    · -- later rows are appended behind the row of `t`
      have hkept : ∀ (rest : List PaymentObligationTerm) (d : PaymentDb) {o},
          o ∈ d.obligations →
            o ∈ (recordObligationsInTx d contractId rest currency changeRequestId
              now).obligations := by
        intro rest
        induction rest with
        | nil => exact fun d o ho => ho
        | cons v rest ih => exact fun d o ho => ih _ (mem_append_left _ ho)
      exact ⟨_, hkept rest _ (mem_append_right _ (mem_singleton_self _)), rfl, rfl⟩
    · exact ih ht _

section Opening

variable {mid : PaymentDb} {c : Contract}

theorem contract_unconsumed (h : PaymentInvariant db) (hmid : ReceiptsInOrder mid)
    (hreceipts : mid.receipts = db.receipts) (hcontracts : mid.contracts = db.contracts ++ [c])
    (hnone : ∀ x ∈ db.receipts, x.waitingKey ≠ some c.contractRef) : PaymentInvariant mid where
  toReceiptsInOrder := hmid
  initials := by
    have hkept := h.initials
    unfold InitialsKept at hkept ⊢
    rwa [hreceipts]
  waitingRefs := by
    refine waitingRefs_contract h.waitingRefs hcontracts ?_
    intro x hx contractRef hkey
    rw [hreceipts] at hx
    refine ⟨hx, ?_⟩
    rintro rfl
    exact hnone x hx hkey

theorem contract_consumed (h : PaymentInvariant db) (hmid : ReceiptsInOrder mid)
    (hreceipts : mid.receipts = db.receipts) (hcontracts : mid.contracts = db.contracts ++ [c])
    {r : PaymentReceipt} {o : ContractPaymentObligation} {link : ReceiptLink}
    (hr : r ∈ db.receipts) (hwaiting : r.waitingKey = some c.contractRef)
    (ho : o ∈ mid.obligations) (hoc : o.contractId = link.contractId) (hcid :
      c.id = link.contractId)
    (horef : o.obligationRef = initialObligationRef)
    (hamount : o.amountMinor = r.evidence.amountMinor)
    (hcurrency : o.currency = r.evidence.currency) (hcmem : c ∈ mid.contracts)
    (hnew : db.nextId ≤ o.id)
    (hown : ∀ x ∈ db.receipts, x.waitingKey = some c.contractRef → r.id = x.id)
    (hlink : o.id = link.obligationId) :
    PaymentInvariant (mid.updateReceipt r.id (·.linkTo link)) := by
  obtain ⟨hunlinked, heffective, p, hp, href⟩ := waiting_unlinked hwaiting
  have hrmid : r ∈ mid.receipts := hreceipts.symm ▸ hr
  refine ⟨hmid.linkTo hrmid ho hlink hoc horef hamount hcurrency hcmem hcid ?_ ?_, ?_, ?_⟩
  · intro p' hp'
    rw [hp] at hp'
    obtain rfl := Option.some.inj hp'
    exact href.symm
  · -- no receipt settles the new obligation yet
    intro b hb hkey
    rw [hreceipts] at hb
    unfold PaymentReceipt.obligationKey at hkey
    split at hkey
    · obtain ⟨l, hl, hlid⟩ := Option.map_eq_some_iff.mp hkey
      obtain ⟨x, hx, hxid, -⟩ := (h.settled b hb).linked l hl
      have hlt := h.obligationKeys.lt x hx
      rw [hxid, hlid, ← hlink] at hlt
      exact absurd hlt (Nat.not_lt.mpr hnew)
    · cases hkey
  · exact linked_initials h hreceipts hmid hr hunlinked heffective
  · refine waitingRefs_contract h.waitingRefs hcontracts ?_
    intro x hx contractRef hkey
    rcases (mem_updateReceipt hmid hrmid).mp hx with ⟨hx, hne⟩ | rfl
    · rw [hreceipts] at hx
      refine ⟨hx, ?_⟩
      rintro rfl
      exact hne (hown x hx hkey).symm
    · rw [PaymentReceipt.waitingKey, if_neg (by simp)] at hkey
      cases hkey

end Opening

/-- A contract is recorded; when its opening consumes a receipt, it is linked. -/
theorem applyContractRecord_invariant (tenantId : Uuid) (productKey : ProductKey)
    (h : PaymentInvariant db) {subscriptionId : Uuid}
    {block : ContractRecordBlock} {receipt : Option PaymentReceipt}
    (hjoin : ∃ s ∈ db.subscriptions, s.id = subscriptionId)
    (hreceipt : ∀ r, receipt = some r → InitialReceipt db tenantId productKey block r)
    (happly : applyContractRecord db subscriptionId block receipt req now = .ok next) :
    PaymentInvariant next := by
  simp only [applyContractRecord, bind_eq_ok, liftPayment_eq_ok, assertContractRefFreeOfReceipts,
    require_eq_ok, Bool.not_eq_true', any_eq_false, Bool.and_eq_true, bne_iff_ne] at happly
  obtain ⟨-, hfree, ⟨recorded, contractId⟩, hrecord, happly⟩ := happly
  obtain ⟨rfl, hrefs, c, hcid, hcref, hcsub, rfl⟩ := recordContract_spec hrecord
  -- whoever waits for the reference is the receipt of the opening
  have hown : ∀ x ∈ db.receipts, x.waitingKey = some block.contractRef →
      receipt.map (·.id) = some x.id := by
    intro x hx hkey
    by_contra hne
    exact hfree x hx ⟨PaymentReceipt.isWaitingFor_iff.mpr hkey, hne⟩
  have horder : ReceiptsInOrder (recordObligationsInTx
      { db with contracts := db.contracts ++ [c], nextId := db.nextId + 1 } db.nextId
        block.paymentTerms.obligations block.paymentTerms.currency req.id now) :=
    contract_inOrder h hcid (hcref ▸ hrefs) (hcsub ▸ hjoin) block.paymentTerms.refsNodup
  have hreceipts : (recordObligationsInTx
      { db with contracts := db.contracts ++ [c], nextId := db.nextId + 1 } db.nextId
        block.paymentTerms.obligations block.paymentTerms.currency req.id now).receipts =
      db.receipts := recordObligations_receipts _
  have hcontracts : (recordObligationsInTx
      { db with contracts := db.contracts ++ [c], nextId := db.nextId + 1 } db.nextId
        block.paymentTerms.obligations block.paymentTerms.currency req.id now).contracts =
      db.contracts ++ [c] := recordObligations_contracts _
  cases receipt with
  | none =>
    obtain rfl := Except.ok.inj happly
    refine contract_unconsumed h horder hreceipts hcontracts ?_
    intro x hx hkey
    have hsome := hown x hx (hcref ▸ hkey)
    cases hsome
  | some r =>
    have hr := hreceipt r rfl
    obtain ⟨t, ht, htref, htamount⟩ := hr.amount
    dsimp only at happly
    cases hinitial : (recordObligationsInTx
        { db with contracts := db.contracts ++ [c], nextId := db.nextId + 1 } db.nextId
          block.paymentTerms.obligations block.paymentTerms.currency req.id now).obligationOf
            db.nextId initialObligationRef with
    | none =>
      -- the initial term of the block has been recorded
      obtain ⟨o, ho, hoc, horef⟩ := exists_recordObligations ht
        { db with contracts := db.contracts ++ [c], nextId := db.nextId + 1 } db.nextId req.id
          block.paymentTerms.currency now
      have hnone := find?_eq_none.mp hinitial o ho
      simp [hoc, horef, htref] at hnone
    | some o =>
      rw [hinitial] at happly
      obtain rfl := Except.ok.inj happly
      have hnew : ∀ x ∈ ({ db with
          contracts := db.contracts ++ [c], nextId := db.nextId + 1 } : PaymentDb).obligations,
          x.contractId ≠ db.nextId :=
        fun x hx => Nat.ne_of_lt (h.ofContract x hx)
      obtain ⟨ho, hoid, hoc, horef, hoamount, hocurrency⟩ :=
        initial_of_recorded hnew hinitial block.paymentTerms.refsNodup ht htref
      have hcmem : c ∈ (recordObligationsInTx
          { db with contracts := db.contracts ++ [c], nextId := db.nextId + 1 } db.nextId
            block.paymentTerms.obligations block.paymentTerms.currency req.id now).contracts := by
        rw [hcontracts]
        exact mem_append_right _ (mem_singleton_self c)
      refine contract_consumed h horder hreceipts hcontracts hr.mem (hcref ▸ hr.waiting) ho hoc
        (hcid.trans rfl) horef (hoamount.trans htamount.symm) (hocurrency.trans hr.currency.symm)
        hcmem (Nat.le_of_succ_le hoid) ?_ rfl
      intro x hx hkey
      exact Option.some.inj (hown x hx (hcref ▸ hkey))

theorem applyContractAmendment_invariant (h : PaymentInvariant db) {subscriptionId : Uuid}
    {block : ContractAmendmentBlock}
    (happly : applyContractAmendment db subscriptionId block req now = .ok next) :
    PaymentInvariant next := by
  simp only [applyContractAmendment, bind_eq_ok, orThrow_eq_ok, require_eq_ok] at happly
  obtain ⟨add, hadd, contract, hfind, -, -, hwrite⟩ := happly
  have hcontract := mem_of_find?_eq_some hfind
  have hid : contract.id = block.contractId := by simpa using find?_some hfind
  cases hterms : block.paymentTerms with
  | none =>
    rw [hterms] at hwrite
    obtain rfl := Except.ok.inj hwrite
    exact h
  | some terms =>
    rw [hterms] at hwrite
    obtain rfl := Except.ok.inj hwrite
    simp only [amendmentAdditions, hterms, liftPayment_eq_ok, amendmentObligationsToAdd,
      bind_eq_ok, pure_eq_ok] at hadd
    obtain ⟨-, -, -, -, -, -, rfl⟩ := hadd
    refine recordObligations_invariant h (h.contractKeys.lt contract hcontract)
      (terms.refsNodup.sublist (filter_sublist.map _)) ?_
    intro x hx hxc t ht href
    obtain ⟨-, hnot⟩ := mem_filter.mp ht
    rw [Bool.not_eq_true', any_eq_false] at hnot
    refine hnot x (mem_filter.mpr ⟨hx, ?_⟩) (beq_iff_eq.mpr href)
    exact beq_iff_eq.mpr (hxc.trans hid)

/-! ## Every step keeps the invariant -/

theorem openSubscription_invariant (h : PaymentInvariant db) {r : SubscriptionOpenRequest}
    (hopen : openSubscription db r = .ok next) : PaymentInvariant next := by
  simp only [openSubscription, bind_eq_ok, liftPayment_eq_ok, require_eq_ok] at hopen
  obtain ⟨receipt, hreceipt, terms, -, -, -, -, -, -, -, -, -, hwrite⟩ := hopen
  generalize hreplaced : db.subscriptions.find? (isOpenBase r.tenantId r.productKey) = replaced
    at hwrite
  have hwritten : PaymentInvariant (writeOpening db replaced
      (openedSubscription db.nextId r.tenantId r.productKey r.request.requestedBy terms) r.now) :=
    writeOpening_invariant h rfl
  cases hcontract : r.contract with
  | none =>
    rw [hcontract] at hwrite
    obtain rfl := Except.ok.inj hwrite
    exact hwritten
  | some block =>
    rw [hcontract] at hwrite hreceipt
    refine applyContractRecord_invariant r.tenantId r.productKey hwritten
      ⟨_, mem_append_right _ (mem_singleton_self _), rfl⟩ ?_ hwrite
    rintro x rfl
    obtain ⟨block', hblock, hx⟩ := prepaidInitialReceipt_spec hreceipt
    obtain rfl := Option.some.inj hblock
    exact ⟨hx.mem, hx.tenant, hx.product, hx.waiting, hx.amount, hx.currency⟩

theorem changeSubscription_invariant (h : PaymentInvariant db) {r : SubscriptionChangeRequest}
    (hchange : changeSubscription db r = .ok next) : PaymentInvariant next := by
  simp only [changeSubscription, bind_eq_ok, require_eq_ok] at hchange
  obtain ⟨row, htarget, ⟨planId, planVersionId⟩, -, -, -, hwrite⟩ := hchange
  have hrow : row ∈ db.subscriptions := by
    simp only [governedTarget, bind_eq_ok, orThrow_eq_ok, pure_eq_ok] at htarget
    obtain ⟨row', hfind, -, -, -, -, -, -, -, -, rfl⟩ := htarget
    exact mem_of_find?_eq_some hfind
  have hkeys := h.subscriptionKeys.update
    (p := fun s => s.id == row.id && planVersionId != row.planVersionId)
    (f := pinVersion planId planVersionId) fun _ => rfl
  have hkept := exists_updated (fun s => s.id == row.id && planVersionId != row.planVersionId)
    (pinVersion planId planVersionId) db.subscriptions fun _ _ => rfl
  have hwritten : PaymentInvariant (writeChange db row planId planVersionId) :=
    h.writeSubscriptions (Nat.le_refl _) hkeys hkept
  obtain ⟨row', hrow', hid⟩ := hkept row hrow
  cases hcontract : r.contract with
  | none =>
    rw [hcontract] at hwrite
    obtain rfl := Except.ok.inj hwrite
    exact hwritten
  | some change =>
    rw [hcontract] at hwrite
    cases change with
    | record block =>
      refine applyContractRecord_invariant r.tenantId r.productKey hwritten
        ⟨row', hrow', hid⟩ ?_ hwrite
      intro x hx
      cases hx
    | amend block => exact applyContractAmendment_invariant hwritten hwrite

theorem paymentStep_invariant {op : PaymentOp} (h : PaymentInvariant db)
    (hstep : paymentStep db op next) : PaymentInvariant next := by
  unfold paymentStep at hstep
  cases op with
  | paymentRecord request tenantId productKey payload now =>
    simp only [paymentNext, bind_eq_ok, liftPayment_eq_ok, pure_eq_ok] at hstep
    obtain ⟨⟨written, effect⟩, happly, rfl⟩ := hstep
    exact applyPaymentRecord_invariant h happly
  | subscriptionOpen request => exact openSubscription_invariant h hstep
  | subscriptionChange request => exact changeSubscription_invariant h hstep
  | subscriptionWritten row =>
    obtain rfl := Except.ok.inj hstep
    exact writeSubscription_invariant h row

end AramoPlatform.Commercial
