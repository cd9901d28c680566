import AramoPlatform.Lib.Runs
import AramoPlatform.Lib.Sorting
import AramoPlatform.Subscription.PlanVersion

/-!
# The plan version at an instant

A subscription is pinned to a plan version, and a trigger records every change
of the pin. Two services ask which version applied at an instant: the usage
roll-up looks back for the last change, the metered ledger looks ahead for the
next one. Where the changes form a chain up to the current pin, both name the
version that the chain had reached.
-/

namespace AramoPlatform.Subscription

open Lib List

/-- The columns of `TenantSubscription` that name its pin. -/
structure PinnedSubscription where
  id : Uuid
  planVersionId : Uuid
  deriving DecidableEq

/-- A row of the history; `recordedAt` in milliseconds. -/
structure SubscriptionVersionPinEvent where
  id : Uuid
  subscriptionId : Uuid
  fromPlanVersionId : Uuid
  toPlanVersionId : Uuid
  recordedAt : Int
  deriving DecidableEq

/-- `ORDER BY recorded_at, id`. -/
def recordedOrder : SubscriptionVersionPinEvent → SubscriptionVersionPinEvent → Prop :=
  lexLe (·.recordedAt) fun p q => p.id ≤ q.id

instance : DecidableRel recordedOrder := fun p q =>
  inferInstanceAs (Decidable (p.recordedAt < q.recordedAt ∨
    p.recordedAt = q.recordedAt ∧ p.id ≤ q.id))

instance : Std.Total recordedOrder :=
  ⟨lexLe_total fun p q => Nat.le_total p.id q.id⟩

instance : IsTrans SubscriptionVersionPinEvent recordedOrder where
  trans p q r hpq hqr := by
    refine lexLe_trans ?_ hpq hqr
    exact fun _ _ _ => Nat.le_trans

/-! ## The two answers -/

/-- The pin changes that `aligner` reads: those of its subscriptions, in order. -/
def pinsOf (events : List SubscriptionVersionPinEvent) (subs : List PinnedSubscription) :
    List SubscriptionVersionPinEvent :=
  (events.filter fun p => (subs.map (·.id)).contains p.subscriptionId).insertionSort recordedOrder

/-- `versionAt` of the roll-up. -/
def versionAt (pins : List SubscriptionVersionPinEvent) (sub : PinnedSubscription) (time : Int) :
    Uuid :=
  let history := pins.filter fun p => p.subscriptionId == sub.id
  let before := history.filter fun p => decide (p.recordedAt ≤ time)
  match before.getLast? with
  | some p => p.toPlanVersionId
  | none =>
      match history.head? with
      | some p => p.fromPlanVersionId
      | none => sub.planVersionId

/-- `planVersionEffectiveAt` of the metered ledger. -/
def planVersionEffectiveAt (events : List SubscriptionVersionPinEvent) (sub : PinnedSubscription)
    (time : Int) : Uuid :=
  let later := (events.filter fun p =>
    p.subscriptionId == sub.id && decide (time < p.recordedAt)).insertionSort recordedOrder
  match later.head? with
  | some p => p.fromPlanVersionId
  | none => sub.planVersionId

/-! ## Chains -/

/-- The changes of one subscription, in order. -/
def pinHistory (events : List SubscriptionVersionPinEvent) (subscriptionId : Uuid) :
    List SubscriptionVersionPinEvent :=
  (events.filter fun p => p.subscriptionId == subscriptionId).insertionSort recordedOrder

/-- Each change starts from the version that the one before ended at. -/
def PinChain (first : Uuid) : List SubscriptionVersionPinEvent → Uuid → Prop
  | [], last => first = last
  | p :: rest, last => p.fromPlanVersionId = first ∧ PinChain p.toPlanVersionId rest last

instance decidablePinChain : (first : Uuid) → (pins : List SubscriptionVersionPinEvent) →
    (last : Uuid) → Decidable (PinChain first pins last)
  | first, [], last => inferInstanceAs (Decidable (first = last))
  | first, p :: rest, last =>
      have := decidablePinChain p.toPlanVersionId rest last
      inferInstanceAs (Decidable (p.fromPlanVersionId = first ∧
        PinChain p.toPlanVersionId rest last))

section Chains

variable {pins pins' : List SubscriptionVersionPinEvent} {first last : Uuid}

theorem pinChain_append :
    PinChain first (pins ++ pins') last ↔ ∃ mid, PinChain first pins mid ∧
      PinChain mid pins' last := by
  induction pins generalizing first with
  | nil => simp [PinChain]
  | cons p rest ih =>
    simp only [cons_append, PinChain, ih]
    constructor
    · rintro ⟨hp, mid, hrest, htail⟩
      exact ⟨mid, ⟨hp, hrest⟩, htail⟩
    · rintro ⟨mid, ⟨hp, hrest⟩, htail⟩
      exact ⟨hp, mid, hrest, htail⟩

theorem PinChain.last_eq (h : PinChain first pins last) :
    (pins.getLast?.map (·.toPlanVersionId)).getD first = last := by
  induction pins generalizing first with
  | nil => exact h
  | cons p rest ih =>
    have hrest := ih h.2
    cases rest with
    | nil => exact hrest
    | cons q tail =>
      rw [getLast?_cons_cons]
      simpa [getLast?_cons] using hrest

theorem PinChain.first_eq (h : PinChain first pins last) :
    (pins.head?.map (·.fromPlanVersionId)).getD last = first := by
  cases pins with
  | nil => exact h.symm
  | cons p rest => exact h.1

end Chains

/-! ## They agree -/

section Agreement

variable {events : List SubscriptionVersionPinEvent} {subs : List PinnedSubscription}
  {sub : PinnedSubscription}

theorem pinsOf_filter (hsub : sub ∈ subs) :
    (pinsOf events subs).filter (fun p => p.subscriptionId == sub.id) =
      pinHistory events sub.id := by
  rw [pinsOf, filter_insertionSort, filter_filter, pinHistory]
  congr 1
  refine filter_congr fun p _ => ?_
  by_cases hp : p.subscriptionId = sub.id
  · simp only [hp, beq_self_eq_true, Bool.true_and]
    exact contains_iff_mem.mpr (mem_map_of_mem hsub)
  · simp [hp]

theorem pinHistory_split (events : List SubscriptionVersionPinEvent) (subscriptionId : Uuid)
    (time : Int) :
    (pinHistory events subscriptionId).filter (fun p => decide (p.recordedAt ≤ time)) ++
      (pinHistory events subscriptionId).filter (fun p => decide (time < p.recordedAt)) =
        pinHistory events subscriptionId := by
  have hsorted : (pinHistory events subscriptionId).Pairwise recordedOrder :=
    pairwise_insertionSort _ _
  have hclosed : ∀ p q, recordedOrder p q → decide (q.recordedAt ≤ time) = true →
      decide (p.recordedAt ≤ time) = true := by
    intro p q hpq hq
    rw [decide_eq_true_eq] at hq ⊢
    rcases hpq with hlt | ⟨heq, -⟩
    · exact Int.le_trans (Int.le_of_lt hlt) hq
    · exact Int.le_trans (Int.le_of_eq heq) hq
  have hlater : (fun p : SubscriptionVersionPinEvent => decide (time < p.recordedAt)) =
      fun p => !decide (p.recordedAt ≤ time) := by
    funext p
    rw [← decide_not, decide_eq_decide]
    omega
  rw [hlater]
  exact filter_append_filter_of_pairwise hsorted hclosed

theorem laterPins_eq (events : List SubscriptionVersionPinEvent) (sub : PinnedSubscription)
    (time : Int) :
    (events.filter fun p => p.subscriptionId == sub.id &&
      decide (time < p.recordedAt)).insertionSort
      recordedOrder =
        (pinHistory events sub.id).filter fun p => decide (time < p.recordedAt) := by
  rw [pinHistory, filter_insertionSort, filter_filter]
  congr 1
  exact filter_congr fun p _ => Bool.and_comm _ _

/-- Both answers are the version that the chain had reached at the instant. -/
theorem versionAt_eq_planVersionEffectiveAt (hsub : sub ∈ subs) {first : Uuid}
    (hchain : PinChain first (pinHistory events sub.id) sub.planVersionId) (time : Int) :
    versionAt (pinsOf events subs) sub time = planVersionEffectiveAt events sub time := by
  have hsplit := hchain
  rw [← pinHistory_split events sub.id time, pinChain_append] at hsplit
  obtain ⟨mid, hbefore, hafter⟩ := hsplit
  have hahead : planVersionEffectiveAt events sub time = mid := by
    rw [← hafter.first_eq, planVersionEffectiveAt, laterPins_eq]
    cases ((pinHistory events sub.id).filter fun p => decide (time < p.recordedAt)).head? with
    | none => rfl
    | some p => rfl
  have hback : versionAt (pinsOf events subs) sub time = mid := by
    rw [← hbefore.last_eq, versionAt, pinsOf_filter hsub]
    cases ((pinHistory events sub.id).filter fun p => decide (p.recordedAt ≤ time)).getLast? with
    | some p => rfl
    | none =>
      -- no change yet: the version is the one that the whole chain starts from
      rw [← hchain.first_eq]
      cases (pinHistory events sub.id).head? with
      | none => rfl
      | some p => rfl
  rw [hback, hahead]

/-- A subscription that was pinned to version 1, to 2 at instant 10 and to 3 at 20,
next to another subscription. -/
theorem versionAt_eq_planVersionEffectiveAt_repinned :
    versionAt (pinsOf [⟨7, 0, 2, 3, 20⟩, ⟨8, 1, 5, 6, 15⟩, ⟨9, 0, 1, 2, 10⟩]
      [⟨0, 3⟩, ⟨1, 6⟩]) ⟨0, 3⟩ 10 =
      planVersionEffectiveAt [⟨7, 0, 2, 3, 20⟩, ⟨8, 1, 5, 6, 15⟩, ⟨9, 0, 1, 2, 10⟩] ⟨0, 3⟩ 10 := by
  have hchain : PinChain 1 (pinHistory [⟨7, 0, 2, 3, 20⟩, ⟨8, 1, 5, 6, 15⟩,
    ⟨9, 0, 1, 2, 10⟩] 0) 3 := by
    decide
  exact versionAt_eq_planVersionEffectiveAt (by decide) hchain 10

end Agreement

/-! ## The history of a subscription -/

/-- The trigger on an update of the pin: a change of the version is recorded. -/
def guardSubscriptionVersionPin (eventId : Uuid) (now : Int) (planVersionId : Uuid)
    (sub : PinnedSubscription) (events : List SubscriptionVersionPinEvent) :
    PinnedSubscription × List SubscriptionVersionPinEvent :=
  if planVersionId = sub.planVersionId then (sub, events)
  else ({ sub with planVersionId := planVersionId },
    events ++ [⟨eventId, sub.id, sub.planVersionId, planVersionId, now⟩])

/-! ## Over a run -/

/-- The pins of the subscriptions, and their history. -/
structure PinTable where
  pins : Uuid → Uuid
  events : List SubscriptionVersionPinEvent

structure Repin where
  subscriptionId : Uuid
  eventId : Uuid
  now : Int
  planVersionId : Uuid

/-- An update of a pin, later than the changes of its subscription. -/
def RepinStep (s : PinTable) (c : Repin) (t : PinTable) : Prop :=
  (∀ p ∈ s.events, p.subscriptionId = c.subscriptionId → p.recordedAt < c.now) ∧
    let out := guardSubscriptionVersionPin c.eventId c.now c.planVersionId
      ⟨c.subscriptionId, s.pins c.subscriptionId⟩ s.events
    t = ⟨Function.update s.pins c.subscriptionId out.1.planVersionId, out.2⟩

/-- A step leaves the history of a subscription alone, or adds the change of its pin
at the end. -/
theorem RepinStep.history {s t : PinTable} {c : Repin} (hstep : RepinStep s c t) (id : Uuid) :
    (t.pins id = s.pins id ∧ pinHistory t.events id = pinHistory s.events id) ∨
      ∃ p : SubscriptionVersionPinEvent, pinHistory t.events id = pinHistory s.events id ++ [p] ∧
        p.recordedAt = c.now ∧ p.fromPlanVersionId = s.pins id ∧ p.toPlanVersionId = t.pins id := by
  obtain ⟨hlast, rfl⟩ := hstep
  unfold guardSubscriptionVersionPin
  split
  · exact .inl ⟨by rw [Function.update_eq_self], rfl⟩
  · by_cases hid : c.subscriptionId = id
    · subst hid
      refine .inr ⟨⟨c.eventId, c.subscriptionId, _, c.planVersionId, c.now⟩, ?_, rfl, rfl, by simp⟩
      rw [pinHistory, filter_append, filter_cons_of_pos (by simp), filter_nil,
        insertionSort_append_singleton, pinHistory]
      intro p hp
      rw [mem_filter, beq_iff_eq] at hp
      exact .inl (hlast p hp.1 hp.2)
    · refine .inl ⟨Function.update_of_ne (Ne.symm hid) .., ?_⟩
      simp [pinHistory, filter_append, hid]

theorem planVersionEffectiveAt_of_step {s t : PinTable} {c : Repin} {time : Int}
    (hstep : RepinStep s c t) (htime : time < c.now) (id : Uuid) :
    planVersionEffectiveAt t.events ⟨id, t.pins id⟩ time =
      planVersionEffectiveAt s.events ⟨id, s.pins id⟩ time := by
  rw [planVersionEffectiveAt, laterPins_eq, planVersionEffectiveAt, laterPins_eq]
  rcases hstep.history id with ⟨hpins, hsame⟩ | ⟨p, hadded, hnow, hfrom, -⟩
  · rw [hpins, hsame]
  · rw [hadded, filter_append, filter_cons_of_pos (by simpa [hnow] using htime)]
    cases (pinHistory s.events id).filter fun p => decide (time < p.recordedAt) with
    | nil => exact hfrom
    | cons => rfl

/-- **What applied at an instant stays on record**, whatever is pinned later. -/
theorem planVersionEffectiveAt_of_run {s t : PinTable} {changes : List Repin} {time : Int}
    (hpast : ∀ p ∈ s.events, p.recordedAt ≤ time) (hlater : ∀ c ∈ changes, time < c.now)
    (hrun : Run RepinStep s changes t) (id : Uuid) :
    planVersionEffectiveAt t.events ⟨id, t.pins id⟩ time = s.pins id := by
  have hnow : planVersionEffectiveAt s.events ⟨id, s.pins id⟩ time = s.pins id := by
    rw [planVersionEffectiveAt, filter_eq_nil_iff.mpr]
    · rfl
    · intro p hp
      simpa using fun _ => hpast p hp
  rw [← hnow]
  clear hpast hnow
  induction hrun with
  | nil s => rfl
  | cons hstep _ ih =>
    rw [ih fun c hc => hlater c (mem_cons_of_mem _ hc)]
    exact planVersionEffectiveAt_of_step hstep (hlater _ mem_cons_self) id

/-- A subscription went from version 1 to 2 at 3; it is pinned to 4, another one to 5, and the
first one to 3. -/
theorem planVersionEffectiveAt_of_run_repinned : ∃ t,
    Run RepinStep ⟨fun id => if id = 0 then 2 else 1, [⟨6, 0, 1, 2, 3⟩]⟩
      [⟨0, 9, 10, 4⟩, ⟨1, 8, 15, 5⟩, ⟨0, 7, 20, 3⟩] t ∧
      planVersionEffectiveAt t.events ⟨0, t.pins 0⟩ 5 = 2 := by
  have hrun : Run RepinStep ⟨fun id => if id = 0 then 2 else 1, [⟨6, 0, 1, 2, 3⟩]⟩
      [⟨0, 9, 10, 4⟩, ⟨1, 8, 15, 5⟩, ⟨0, 7, 20, 3⟩] _ :=
    .cons ⟨by decide, rfl⟩ (.cons ⟨by decide, rfl⟩ (.cons ⟨by decide, rfl⟩ (.nil _)))
  exact ⟨_, hrun, planVersionEffectiveAt_of_run (by decide) (by decide) hrun 0⟩

/-- **No change of a pin is lost**: the history of a subscription leads from the
version at the start to its present one. -/
theorem pinChain_of_run {s t : PinTable} {changes : List Repin} (hnew : s.events = [])
    (hrun : Run RepinStep s changes t) (id : Uuid) :
    PinChain (s.pins id) (pinHistory t.events id) (t.pins id) := by
  refine hrun.invariant (I := fun t => PinChain (s.pins id) (pinHistory t.events id) (t.pins id))
    ?_ (by simp [hnew, pinHistory, PinChain])
  intro u c v hchain hstep
  rcases hstep.history id with ⟨hpins, hsame⟩ | ⟨p, hadded, -, hfrom, hto⟩
  · rwa [hpins, hsame]
  · rw [hadded, pinChain_append]
    exact ⟨u.pins id, hchain, hfrom, hto⟩

theorem pinChain_of_run_repinned : ∃ t, Run RepinStep ⟨fun _ => 1, []⟩
    [⟨0, 9, 10, 2⟩, ⟨0, 7, 20, 3⟩] t ∧ PinChain 1 (pinHistory t.events 0) (t.pins 0) := by
  have hrun : Run RepinStep ⟨fun _ => 1, []⟩ [⟨0, 9, 10, 2⟩, ⟨0, 7, 20, 3⟩] _ :=
    .cons ⟨by simp, rfl⟩ (.cons ⟨by decide, rfl⟩ (.nil _))
  exact ⟨_, hrun, pinChain_of_run rfl hrun 0⟩

end AramoPlatform.Subscription
