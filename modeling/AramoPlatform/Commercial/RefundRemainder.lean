import AramoPlatform.Js.Value
import AramoPlatform.Lib.Outcome
import Mathlib.Algebra.BigOperators.Group.List.Basic
import Mathlib.Algebra.Order.BigOperators.Group.List
import Mathlib.Algebra.Ring.Int.Defs

/-!
# What can still be refunded

The remainder of a payment: what was captured, less what a dispute took, less
the refunds that the provider holds, less the refunds that are reserved here. A
reservation that is visible at the provider is counted once, at the larger of
the two amounts. A picture that cannot be read for certain is refused.
-/

namespace AramoPlatform.Commercial

open Js Lib List

/-! ## The picture -/

/-- A refund of the payment at the provider. -/
structure ProviderRefund where
  objectRef : Option JsString
  amountMinor : Int
  status : Option JsString
  commandId : Option JsString
  deriving DecidableEq

structure ProviderDispute where
  amountMinor : Int
  status : Option JsString
  deriving DecidableEq

/-- `ProviderPaymentPicture`, as far as the remainder reads it. -/
structure ProviderPaymentPicture where
  accountRef : JsString
  paymentRef : Option JsString
  currency : Option JsString
  capturedMinor : Int
  refunds : List ProviderRefund
  disputes : List ProviderDispute
  complete : Bool
  deriving DecidableEq

/-- An outstanding reservation on the same payment. -/
structure LocalRefundReservation where
  amountMinor : Int
  /-- The command ids of the request, none before its apply. -/
  commandIds : List JsString
  /-- The refund objects that its commands recorded. -/
  providerObjectRefs : List JsString
  deriving DecidableEq

/-- What the request binds. -/
structure ExpectedPayment where
  accountRef : JsString
  paymentRef : JsString
  currency : JsString
  deriving DecidableEq

structure RefundRemainderInput where
  picture : ProviderPaymentPicture
  expected : ExpectedPayment
  outstanding : List LocalRefundReservation
  deriving DecidableEq

inductive RefundRemainderRefusal where
  | refundPaymentDisputed
  | refundRemainderUnverifiable
  | refundPaymentMismatch
  | refundCurrencyMismatch
  | refundExceedsRemainder
  deriving DecidableEq

structure RefundRefused where
  refusal : RefundRemainderRefusal
  detail : List (JsString × JsVal)

structure RefundRemainder where
  capturedMinor : Int
  providerHeldMinor : Int
  disputedLostMinor : Int
  localReservedMinor : Int
  remainderMinor : Int
  deriving DecidableEq

/-! ## The statuses -/

/-- `REFUND_HOLDING`: the refund holds funds. -/
def refundHolding : List JsString := [js "succeeded", js "pending", js "requires_action"]

def refundReleased : List JsString := [js "failed", js "canceled"]

/-- `DISPUTE_OPEN`: refunds are blocked. -/
def disputeOpen : List JsString :=
  [js "warning_needs_response", js "warning_under_review", js "needs_response", js "under_review"]

def disputeLost : List JsString := [js "lost"]

/-- `DISPUTE_CLOSED`: closed without loss. -/
def disputeClosed : List JsString := [js "won", js "warning_closed"]

def ProviderDispute.isOpen (d : ProviderDispute) : Bool := disputeOpen.contains (d.status.getD [])

def ProviderDispute.isLost (d : ProviderDispute) : Bool := disputeLost.contains (d.status.getD [])

def ProviderDispute.isClosed (d : ProviderDispute) : Bool :=
  disputeClosed.contains (d.status.getD [])

def ProviderRefund.holds (r : ProviderRefund) : Bool := refundHolding.contains (r.status.getD [])

def ProviderRefund.isReleased (r : ProviderRefund) : Bool :=
  refundReleased.contains (r.status.getD [])

def nullable : Option JsString → JsVal
  | some s => .str s
  | none => .null

def unverifiable (basis : String) : RefundRefused :=
  ⟨.refundRemainderUnverifiable, [(js "basis", .str (js basis))]⟩

/-- The loop over the disputes: what the lost ones took. -/
def disputedLost : Int → List ProviderDispute → Except RefundRefused Int
  | lost, [] => .ok lost
  | lost, d :: rest =>
      if d.isOpen then
        .error ⟨.refundPaymentDisputed, [(js "dispute_status", .str (d.status.getD []))]⟩
      else if d.isLost then disputedLost (lost + d.amountMinor) rest
      else if !d.isClosed then
        .error ⟨.refundRemainderUnverifiable,
          [(js "basis", .str (js "dispute_status")), (js "dispute_status", nullable d.status)]⟩
      else disputedLost lost rest

/-- The loop over the refunds: the ones that hold funds. -/
def heldRefunds : List ProviderRefund → Except RefundRefused (List ProviderRefund)
  | [] => .ok []
  | r :: rest =>
      if r.holds then do
        let holding ← heldRefunds rest
        .ok (r :: holding)
      else if !r.isReleased then
        .error ⟨.refundRemainderUnverifiable,
          [(js "basis", .str (js "refund_status")), (js "refund_status", nullable r.status)]⟩
      else heldRefunds rest

/-! ## The reservations -/

/-- The refund is one that the reservation's commands made. -/
def visibleAs (l : LocalRefundReservation) (h : ProviderRefund) : Bool :=
  h.commandId.any l.commandIds.contains || h.objectRef.any l.providerObjectRefs.contains

/-- The accumulators of the loop over the reservations: the positions of the matched
refunds, and what is reserved. -/
structure Matching where
  matched : List Nat
  localReserved : Int
  deriving DecidableEq

/-- One reservation: counted with the first unmatched refund that it is visible as, or alone. -/
def countReservation (holding : List ProviderRefund) (acc : Matching) (l : LocalRefundReservation) :
    Matching :=
  match holding.zipIdx.find? fun e => !acc.matched.contains e.2 && visibleAs l e.1 with
  | some (h, i) => ⟨i :: acc.matched, acc.localReserved + max l.amountMinor h.amountMinor⟩
  | none => ⟨acc.matched, acc.localReserved + l.amountMinor⟩

/-- What the unmatched refunds hold. -/
def providerHeld (holding : List ProviderRefund) (matched : List Nat) : Int :=
  ((holding.zipIdx.filter fun e => !matched.contains e.2).map (·.1.amountMinor)).sum

def refundableRemainder (toUpperCase : JsString → JsString) (input : RefundRemainderInput) :
    Except RefundRefused RefundRemainder := do
  let p := input.picture
  let e := input.expected
  require p.complete (unverifiable "provider_list_truncated")
  let paymentRef ← orThrow p.paymentRef (unverifiable "no_payment")
  require (paymentRef == e.paymentRef && p.accountRef == e.accountRef)
    ⟨.refundPaymentMismatch,
      [(js "basis", .str
        (js (if paymentRef != e.paymentRef then "payment" else "paying_account")))]⟩
  require (p.currency.any fun c => toUpperCase c == toUpperCase e.currency)
    ⟨.refundCurrencyMismatch, [(js "payment_currency", nullable p.currency)]⟩
  require (decide (0 ≤ p.capturedMinor) && decide (p.capturedMinor < 2 ^ 53))
    (unverifiable "captured_amount")
  let lost ← disputedLost 0 p.disputes
  let holding ← heldRefunds p.refunds
  let counted := input.outstanding.foldl (countReservation holding) ⟨[], 0⟩
  let held := providerHeld holding counted.matched
  -- a sum that is not a safe integer exceeds whatever was captured
  .ok ⟨p.capturedMinor, held, lost, counted.localReserved,
    max (p.capturedMinor - held - lost - counted.localReserved) 0⟩

/-! ## The loops over the picture -/

/-- What the lost disputes took. -/
def lostMinor (disputes : List ProviderDispute) : Int :=
  ((disputes.filter (·.isLost)).map (·.amountMinor)).sum

theorem disputedLost_eq {disputes : List ProviderDispute} {lost out : Int}
    (h : disputedLost lost disputes = .ok out) : out = lost + lostMinor disputes := by
  induction disputes generalizing lost with
  | nil =>
    obtain rfl := Except.ok.inj h
    simp [lostMinor]
  | cons d rest ih =>
    rw [disputedLost] at h
    split at h
    · cases h
    · by_cases hlost : d.isLost = true
      · rw [if_pos hlost] at h
        rw [ih h]
        simp [lostMinor, hlost, Int.add_assoc]
      · rw [if_neg hlost] at h
        split at h
        · cases h
        · rw [ih h]
          simp [lostMinor, hlost]

theorem heldRefunds_eq_ok {refunds holding : List ProviderRefund} :
    heldRefunds refunds = .ok holding ↔
      (∀ r ∈ refunds, r.holds = true ∨ r.isReleased = true) ∧
        holding = refunds.filter (·.holds) := by
  induction refunds generalizing holding with
  | nil =>
    constructor
    · intro h
      exact ⟨by simp, (Except.ok.inj h).symm⟩
    · rintro ⟨-, rfl⟩
      rfl
  | cons r rest ih =>
    rw [heldRefunds]
    by_cases hholds : r.holds = true
    · simp only [hholds, if_true, bind_eq_ok, Except.ok.injEq, ih, forall_mem_cons, true_or,
        true_and, filter_cons_of_pos]
      constructor
      · rintro ⟨_, ⟨hknown, rfl⟩, rfl⟩
        exact ⟨hknown, rfl⟩
      · rintro ⟨hknown, rfl⟩
        exact ⟨_, ⟨hknown, rfl⟩, rfl⟩
    · by_cases hreleased : r.isReleased = true
      · simp [hholds, hreleased, ih]
      · simp [hholds, hreleased]

/-! ## The loop over the reservations -/

/-- The refunds that no reservation was counted with. -/
def unmatched (holding : List ProviderRefund) (matched : List Nat) : List (ProviderRefund × Nat) :=
  holding.zipIdx.filter fun e => !matched.contains e.2

section

variable (holding : List ProviderRefund)

include holding

theorem providerHeld_eq (matched : List Nat) :
    providerHeld holding matched = ((unmatched holding matched).map (·.1.amountMinor)).sum := rfl

theorem unmatched_nil : unmatched holding [] = holding.zipIdx := by
  simp [unmatched]

theorem unmatched_fst : (unmatched holding []).map (·.1) = holding := by
  rw [unmatched_nil, zipIdx_map_fst]

theorem nodup_unmatched (matched : List Nat) :
    (unmatched holding matched).Nodup := by
  refine List.Nodup.filter _ (List.Nodup.of_map (·.2) ?_)
  rw [zipIdx_map_snd]
  exact nodup_range'

end

theorem unmatched_cons {holding : List ProviderRefund} {matched : List Nat}
    {e : ProviderRefund × Nat} (he : e ∈ unmatched holding matched) :
    (unmatched holding matched).Perm (e :: unmatched holding (e.2 :: matched)) := by
  have hsame : unmatched holding (e.2 :: matched) = (unmatched holding matched).erase e := by
    rw [(nodup_unmatched holding matched).erase_eq_filter, unmatched, unmatched, filter_filter]
    refine filter_congr fun x hx => ?_
    by_cases hpos : x.2 = e.2
    · -- the entry at a position is one
      have hxe : x = e := by
        have hx' := mem_zipIdx_iff_getElem?.mp hx
        have he' := mem_zipIdx_iff_getElem?.mp (mem_filter.mp he).1
        rw [hpos, he'] at hx'
        exact Prod.ext (Option.some.inj hx').symm hpos
      simp [hxe]
    · have hxe : x ≠ e := fun h => hpos (h ▸ rfl)
      simp [hpos, hxe]
  rw [hsame]
  exact perm_cons_erase he

/-- What one reservation does: it is counted with an unmatched refund, or alone. -/
theorem countReservation_cases (holding : List ProviderRefund) (acc : Matching)
    (l : LocalRefundReservation) :
    (∃ e ∈ unmatched holding acc.matched, visibleAs l e.1 = true ∧
      countReservation holding acc l =
        ⟨e.2 :: acc.matched, acc.localReserved + max l.amountMinor e.1.amountMinor⟩) ∨
      (∀ e ∈ unmatched holding acc.matched, visibleAs l e.1 = false) ∧
        countReservation holding acc l = ⟨acc.matched, acc.localReserved + l.amountMinor⟩ := by
  unfold countReservation
  split
  next h i hfind =>
    have hfound := find?_some hfind
    rw [Bool.and_eq_true] at hfound
    refine .inl ⟨(h, i), mem_filter.mpr ⟨mem_of_find?_eq_some hfind,
      hfound.1⟩, hfound.2, rfl⟩
  next hfind =>
    refine .inr ⟨fun e he => ?_, rfl⟩
    obtain ⟨hmem, hfree⟩ := mem_filter.mp he
    have hnot := find?_eq_none.mp hfind e hmem
    rw [hfree, Bool.true_and, Bool.not_eq_true] at hnot
    exact hnot

/-! ## What is counted -/

/-- What is counted so far: the reservations, and the refunds that none of them is visible as. -/
def counted (holding : List ProviderRefund) (acc : Matching) : Int :=
  providerHeld holding acc.matched + acc.localReserved

section Counting

variable {holding : List ProviderRefund} {outstanding : List LocalRefundReservation}
  {acc : Matching}

theorem providerHeld_cons {e : ProviderRefund × Nat} (he : e ∈ unmatched holding acc.matched) :
    providerHeld holding acc.matched =
      e.1.amountMinor + providerHeld holding (e.2 :: acc.matched) := by
  rw [providerHeld_eq, ((unmatched_cons he).map _).sum_eq]
  rfl

/-- One reservation never counts less than it reserves, nor drops a refund. -/
theorem counted_step (holding : List ProviderRefund) (acc : Matching) (l : LocalRefundReservation)
    (hl : 0 ≤ l.amountMinor) :
    counted holding acc ≤ counted holding (countReservation holding acc l) ∧
      acc.localReserved + l.amountMinor ≤ (countReservation holding acc l).localReserved := by
  unfold counted
  rcases countReservation_cases holding acc l with ⟨e, he, -, hstep⟩ | ⟨-, hstep⟩
  · rw [hstep, providerHeld_cons he]
    dsimp only
    omega
  · rw [hstep]
    dsimp only
    omega

theorem counted_run (holding : List ProviderRefund) (acc : Matching)
    (houtstanding : ∀ l ∈ outstanding, 0 ≤ l.amountMinor) :
    counted holding acc ≤ counted holding (outstanding.foldl (countReservation holding) acc) ∧
      acc.localReserved + (outstanding.map (·.amountMinor)).sum ≤
        (outstanding.foldl (countReservation holding) acc).localReserved := by
  induction outstanding generalizing acc with
  | nil => simp
  | cons l rest ih =>
    obtain ⟨hl, hrest⟩ := forall_mem_cons.mp houtstanding
    have hstep := counted_step holding acc l hl
    have hrun := ih (countReservation holding acc l) hrest
    rw [foldl_cons, map_cons, sum_cons]
    omega

end Counting

/-! ## One-to-one matching -/

/-- The refunds that no reservation is visible as. -/
def refundsAlone (outstanding : List LocalRefundReservation) (refunds :
    List ProviderRefund) : Int :=
  ((refunds.filter fun h => !outstanding.any fun l => visibleAs l h).map (·.amountMinor)).sum

/-- The reservations that are not visible. -/
def reservationsAlone (outstanding : List LocalRefundReservation) (refunds : List ProviderRefund) :
    Int :=
  ((outstanding.filter fun l => !refunds.any (visibleAs l)).map (·.amountMinor)).sum

/-- The larger amount of every reservation and refund that match. -/
def matchedPairs (outstanding : List LocalRefundReservation) (refunds :
    List ProviderRefund) : Int :=
  (outstanding.map fun l =>
    ((refunds.filter (visibleAs l)).map fun h => max l.amountMinor h.amountMinor).sum).sum

/-- Every refund and every reservation once. -/
def onceEach (outstanding : List LocalRefundReservation) (refunds : List ProviderRefund) : Int :=
  refundsAlone outstanding refunds + reservationsAlone outstanding refunds +
    matchedPairs outstanding refunds

/-- No reservation is visible as two refunds, and no two reservations as one. -/
structure OneToOne (outstanding : List LocalRefundReservation) (refunds : List ProviderRefund) :
    Prop where
  oneRefund : refunds.Pairwise fun h h' =>
    ∀ l ∈ outstanding, ¬ (visibleAs l h = true ∧ visibleAs l h' = true)
  oneReservation : outstanding.Pairwise fun l l' =>
    ∀ h ∈ refunds, ¬ (visibleAs l h = true ∧ visibleAs l' h = true)

section OneToOneMatching

variable {outstanding outstanding' : List LocalRefundReservation}
  {refunds refunds' : List ProviderRefund} {l : LocalRefundReservation} {h : ProviderRefund}

theorem OneToOne.perm (hone : OneToOne outstanding refunds) (hl : outstanding.Perm outstanding')
    (hr : refunds.Perm refunds') : OneToOne outstanding' refunds' := by
  constructor
  · refine (hone.oneRefund.imp fun {_ _} h l hmem => h l (hl.mem_iff.mpr hmem)).perm hr ?_
    exact fun h l hmem hboth => h l hmem hboth.symm
  · refine (hone.oneReservation.imp fun {_ _} h r hmem => h r (hr.mem_iff.mpr hmem)).perm hl ?_
    exact fun h r hmem hboth => h r hmem hboth.symm

theorem any_perm {α : Type} {l l' : List α} (h : l.Perm l') (p : α → Bool) :
    l.any p = l'.any p := by
  rw [Bool.eq_iff_iff, any_eq_true, any_eq_true]
  exact exists_congr fun x => and_congr_left fun _ => h.mem_iff

theorem onceEach_perm (hl : outstanding.Perm outstanding') (hr : refunds.Perm refunds') :
    onceEach outstanding refunds = onceEach outstanding' refunds' := by
  have hrefunds : refundsAlone outstanding refunds = refundsAlone outstanding' refunds' := by
    simp only [refundsAlone, any_perm hl]
    exact ((hr.filter _).map _).sum_eq
  have hreservations : reservationsAlone outstanding refunds =
      reservationsAlone outstanding' refunds' := by
    simp only [reservationsAlone, any_perm hr]
    exact ((hl.filter _).map _).sum_eq
  have hpairs : matchedPairs outstanding refunds = matchedPairs outstanding' refunds' := by
    have hsame : ∀ l, ((refunds.filter (visibleAs l)).map fun h =>
      max l.amountMinor h.amountMinor).sum =
        ((refunds'.filter (visibleAs l)).map fun h => max l.amountMinor h.amountMinor).sum :=
      fun l => ((hr.filter _).map _).sum_eq
    simp only [matchedPairs, hsame]
    exact (hl.map _).sum_eq
  rw [onceEach, hrefunds, hreservations, hpairs, onceEach]

theorem onceEach_alone (hnone : ∀ h ∈ refunds, visibleAs l h = false) :
    onceEach (l :: outstanding) refunds = l.amountMinor + onceEach outstanding refunds := by
  have hany : refunds.any (visibleAs l) = false := by simpa using hnone
  have hrefunds : refundsAlone (l :: outstanding) refunds = refundsAlone outstanding refunds := by
    unfold refundsAlone
    congr 2
    refine filter_congr fun h hmem => ?_
    simp [hnone h hmem]
  have hpairs : refunds.filter (visibleAs l) = [] := by
    simpa [filter_eq_nil_iff] using hnone
  simp only [onceEach, hrefunds, reservationsAlone, matchedPairs, hpairs, hany, filter_cons,
    map_cons, sum_cons, map_nil, sum_nil, Bool.not_false, if_true]
  omega

theorem onceEach_pair (hone : OneToOne (l :: outstanding) (h :: refunds))
    (hvisible : visibleAs l h = true) :
    onceEach (l :: outstanding) (h :: refunds) =
      max l.amountMinor h.amountMinor + onceEach outstanding refunds := by
  have hl : ∀ h' ∈ refunds, visibleAs l h' = false := by
    intro h' hmem
    have hnot := (pairwise_cons.mp hone.oneRefund).1 h' hmem l mem_cons_self
    simpa [hvisible] using hnot
  have hh : ∀ l' ∈ outstanding, visibleAs l' h = false := by
    intro l' hmem
    have hnot := (pairwise_cons.mp hone.oneReservation).1 l' hmem h mem_cons_self
    simpa [hvisible] using hnot
  have hrefunds : refundsAlone (l :: outstanding) (h :: refunds) =
    refundsAlone outstanding refunds := by
    unfold refundsAlone
    rw [filter_cons_of_neg (by simp [hvisible])]
    congr 2
    refine filter_congr fun h' hmem => ?_
    simp [hl h' hmem]
  have hreservations : reservationsAlone (l :: outstanding) (h :: refunds) =
      reservationsAlone outstanding refunds := by
    unfold reservationsAlone
    rw [filter_cons_of_neg (by simp [hvisible])]
    congr 2
    refine filter_congr fun l' hmem => ?_
    simp [hh l' hmem]
  have hpairs : matchedPairs (l :: outstanding) (h :: refunds) =
      max l.amountMinor h.amountMinor + matchedPairs outstanding refunds := by
    have hnone : refunds.filter (visibleAs l) = [] := by
      simpa [filter_eq_nil_iff] using hl
    unfold matchedPairs
    rw [map_cons, sum_cons, filter_cons_of_pos hvisible, hnone]
    congr 1
    · simp
    · congr 1
      refine map_congr_left fun l' hmem => ?_
      rw [filter_cons_of_neg (by simp [hh l' hmem])]
  rw [onceEach, hrefunds, hreservations, hpairs, onceEach]
  omega

theorem counted_oneToOne (holding : List ProviderRefund) (acc : Matching)
    (hone : OneToOne outstanding ((unmatched holding acc.matched).map (·.1))) :
    counted holding (outstanding.foldl (countReservation holding) acc) =
      acc.localReserved + onceEach outstanding ((unmatched holding acc.matched).map (·.1)) := by
  induction outstanding generalizing acc with
  | nil =>
    simp only [counted, providerHeld_eq, onceEach, refundsAlone, reservationsAlone, matchedPairs]
    simp [Int.add_comm, Function.comp_def]
  | cons l rest ih =>
    rw [foldl_cons]
    rcases countReservation_cases holding acc l with ⟨e, he, hvisible, hstep⟩ | ⟨hnone, hstep⟩
    · have hperm := (unmatched_cons he).map (·.1)
      rw [map_cons] at hperm
      have hpair := hone.perm (.refl _) hperm
      have hrest : OneToOne rest ((unmatched holding (e.2 :: acc.matched)).map (·.1)) :=
        ⟨(pairwise_cons.mp hpair.oneRefund).2.imp fun {_ _} h l hl =>
          h l (mem_cons_of_mem _ hl),
          (pairwise_cons.mp hpair.oneReservation).2.imp fun {_ _} h r hr =>
            h r (mem_cons_of_mem _ hr)⟩
      rw [hstep, ih _ hrest, onceEach_perm (.refl _) hperm, onceEach_pair hpair hvisible]
      dsimp only
      omega
    · have hnone' : ∀ h ∈ (unmatched holding acc.matched).map (·.1), visibleAs l h = false := by
        intro h hmem
        obtain ⟨e, he, rfl⟩ := mem_map.mp hmem
        exact hnone e he
      have hrest : OneToOne rest ((unmatched holding acc.matched).map (·.1)) :=
        ⟨hone.oneRefund.imp fun {_ _} h l hl => h l (mem_cons_of_mem _ hl),
          (pairwise_cons.mp hone.oneReservation).2⟩
      have htail := ih ⟨acc.matched, acc.localReserved + l.amountMinor⟩ hrest
      rw [hstep, htail, onceEach_alone hnone']
      dsimp only
      omega

end OneToOneMatching

/-! ## The remainder is conservative -/

/-- What the input is promised to be: no amount is negative. -/
structure RefundRemainderInput.NonNegative (input : RefundRemainderInput) : Prop where
  refunds : ∀ r ∈ input.picture.refunds, 0 ≤ r.amountMinor
  outstanding : ∀ l ∈ input.outstanding, 0 ≤ l.amountMinor

/-- The refunds that hold funds. -/
def RefundRemainderInput.holding (input : RefundRemainderInput) : List ProviderRefund :=
  input.picture.refunds.filter (·.holds)

section Conservative

variable {toUpperCase : JsString → JsString} {input : RefundRemainderInput} {out : RefundRemainder}

/-- An accepted picture has refunds of known status, and the remainder is what was
captured less what is counted. -/
theorem refundableRemainder_spec (h : refundableRemainder toUpperCase input = .ok out) :
    (∀ r ∈ input.picture.refunds, r.holds = true ∨ r.isReleased = true) ∧
      out.remainderMinor = max (input.picture.capturedMinor - lostMinor input.picture.disputes -
        counted input.holding
          (input.outstanding.foldl (countReservation input.holding) ⟨[], 0⟩)) 0 := by
  simp only [refundableRemainder, bind_eq_ok, Except.ok.injEq] at h
  obtain ⟨-, -, -, -, -, -, -, -, -, -, lost, hlost, holding, hholding, rfl⟩ := h
  obtain ⟨hknown, rfl⟩ := heldRefunds_eq_ok.mp hholding
  refine ⟨hknown, ?_⟩
  rw [disputedLost_eq hlost, Int.zero_add]
  dsimp only [counted, RefundRemainderInput.holding]
  congr 1
  omega

theorem refundableRemainder_accepts {refunds : List ProviderRefund}
    (outstanding : List LocalRefundReservation) (hr : refunds.Perm input.picture.refunds)
    (h : refundableRemainder toUpperCase input = .ok out) :
    ∃ out', refundableRemainder toUpperCase
      { input with
        picture := { input.picture with refunds := refunds }, outstanding := outstanding } =
        .ok out' := by
  simp only [refundableRemainder, bind_eq_ok, Except.ok.injEq] at h ⊢
  obtain ⟨a, hcomplete, ref, href, b, hsame, c, hcurrency, d, hcaptured, lost, hlost, holding,
    hholding, -⟩ := h
  obtain ⟨hknown, -⟩ := heldRefunds_eq_ok.mp hholding
  have hheld : heldRefunds refunds = .ok (refunds.filter (·.holds)) :=
    heldRefunds_eq_ok.mpr ⟨fun r hmem => hknown r (hr.mem_iff.mp hmem), rfl⟩
  exact ⟨_, a, hcomplete, ref, href, b, hsame, c, hcurrency, d, hcaptured,
    lost, hlost, _, hheld, rfl⟩

/-- The counted amount is at least what every holding refund holds together, and at
least all reservations together. -/
theorem counted_conservative (hnonneg : input.NonNegative) :
    (input.holding.map (·.amountMinor)).sum ≤
        counted input.holding (input.outstanding.foldl (countReservation input.holding) ⟨[], 0⟩) ∧
      (input.outstanding.map (·.amountMinor)).sum ≤
        counted input.holding
          (input.outstanding.foldl (countReservation input.holding) ⟨[], 0⟩) := by
  obtain ⟨hrefunds, hreservations⟩ := counted_run input.holding ⟨[], 0⟩ hnonneg.outstanding
  have hstart : counted input.holding ⟨[], 0⟩ = (input.holding.map (·.amountMinor)).sum := by
    have hmap : (unmatched input.holding []).map (·.1.amountMinor) =
        ((unmatched input.holding []).map (·.1)).map (·.amountMinor) := map_map.symm
    rw [counted, providerHeld_eq, hmap, unmatched_fst]
    exact Int.add_zero _
  rw [hstart] at hrefunds
  refine ⟨hrefunds, ?_⟩
  have hheld : ∀ matched, 0 ≤ providerHeld input.holding matched := by
    intro matched
    refine sum_nonneg fun x hx => ?_
    obtain ⟨e, he, rfl⟩ := mem_map.mp hx
    have hmem := mem_zipIdx_iff_getElem?.mp (mem_filter.mp he).1
    exact hnonneg.refunds _ (mem_filter.mp (mem_of_getElem? hmem)).1
  have := hheld (input.outstanding.foldl (countReservation input.holding) ⟨[], 0⟩).matched
  unfold counted
  dsimp only at hreservations
  omega

theorem refundableRemainder_conservative (hnonneg : input.NonNegative)
    (h : refundableRemainder toUpperCase input = .ok out) :
    0 ≤ out.remainderMinor ∧
      out.remainderMinor ≤ max 0 (input.picture.capturedMinor - lostMinor input.picture.disputes -
        (input.holding.map (·.amountMinor)).sum) ∧
      out.remainderMinor ≤ max 0 (input.picture.capturedMinor - lostMinor input.picture.disputes -
        (input.outstanding.map (·.amountMinor)).sum) ∧
      (OneToOne input.outstanding input.holding →
        out.remainderMinor = max 0 (input.picture.capturedMinor - lostMinor input.picture.disputes -
          refundsAlone input.outstanding input.holding -
          reservationsAlone input.outstanding input.holding -
          matchedPairs input.outstanding input.holding) ∧
        ∀ refunds outstanding, refunds.Perm input.picture.refunds →
          outstanding.Perm input.outstanding → ∃ out', refundableRemainder toUpperCase
            { input with
              picture := { input.picture with refunds := refunds }, outstanding := outstanding } =
              .ok out' ∧ out'.remainderMinor = out.remainderMinor) := by
  obtain ⟨-, hout⟩ := refundableRemainder_spec h
  obtain ⟨hrefunds, hreservations⟩ := counted_conservative hnonneg
  have honce : ∀ i : RefundRemainderInput, OneToOne i.outstanding i.holding →
      counted i.holding (i.outstanding.foldl (countReservation i.holding) ⟨[], 0⟩) =
        onceEach i.outstanding i.holding := by
    intro i hone
    rw [← unmatched_fst i.holding] at hone
    rw [counted_oneToOne i.holding ⟨[], 0⟩ hone, unmatched_fst]
    exact Int.zero_add _
  refine ⟨by omega, by omega, by omega, fun hone => ⟨?_, fun refunds outstanding hr hl => ?_⟩⟩
  · rw [hout, honce input hone, onceEach, max_comm]
    congr 1
    omega
  · obtain ⟨out', hout'⟩ := refundableRemainder_accepts outstanding hr h
    refine ⟨out', hout', ?_⟩
    have hheld : input.holding.Perm (refunds.filter (·.holds)) := (hr.filter _).symm
    have hone' := hone.perm hl.symm hheld
    rw [(refundableRemainder_spec hout').2, hout, honce _ hone', honce input hone,
      onceEach_perm hl.symm hheld]
    rfl

/-- A payment of 100 with a refund of 30 that a reservation of 40 is visible as,
a lost dispute of 10 and a reservation that is not visible yet. -/
def partlyRefunded : RefundRemainderInput where
  picture :=
    { accountRef := js "cus_1", paymentRef := some (js "pi_1"), currency := some (js "usd")
      capturedMinor := 100
      refunds := [⟨some (js "re_1"), 30, some (js "succeeded"), some (js "c1")⟩,
        ⟨some (js "re_2"), 20, some (js "failed"), none⟩]
      disputes := [⟨10, some (js "lost")⟩]
      complete := true }
  expected := ⟨js "cus_1", js "pi_1", js "usd"⟩
  outstanding := [⟨40, [js "c1"], []⟩, ⟨5, [], []⟩]

theorem refundableRemainder_conservative_partlyRefunded :
    ∃ out, refundableRemainder id partlyRefunded = .ok out ∧ 0 ≤ out.remainderMinor ∧
      out.remainderMinor ≤ 60 ∧ out.remainderMinor = 100 - 10 - 0 - 5 - 40 := by
  have hnonneg : partlyRefunded.NonNegative := ⟨by decide, by decide⟩
  have hout : refundableRemainder id partlyRefunded = .ok ⟨100, 0, 10, 45, 45⟩ := by rfl
  obtain ⟨hzero, hheld, -, hone⟩ := refundableRemainder_conservative hnonneg hout
  have honce := (hone ⟨by decide, by decide⟩).1
  exact ⟨_, hout, hzero, hheld, honce.trans (by decide)⟩

end Conservative

end AramoPlatform.Commercial
