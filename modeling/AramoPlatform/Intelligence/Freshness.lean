import AramoPlatform.Intelligence.Clusters
import AramoPlatform.Intelligence.GoldenRuns
import AramoPlatform.Intelligence.ProjectionStatus

/-!
# Facts shown as current

A fact takes its value from the strongest claim of the winning cluster and its
freshness from the whole cluster. The two part where an old claim that was
verified stands before a fresh one, and where a contradiction hides that every
claim is old.
-/

namespace AramoPlatform.Intelligence

open Js Lib List

/-- The fact is shown as old: its state, or the flag of an availability or of a certification. -/
def ProjectedFact.shownStale (f : ProjectedFact) : Prop :=
  f.state = .stale ∨
    f.factType = .claim .availability ∧ member f.value (js "freshness") = .str (js "STALE") ∨
    f.factType = .claim .certification ∧ member f.value (js "expired") = .bool true

/-- The fact is shown as current, by its state or by its flag. -/
def ProjectedFact.shownCurrent (f : ProjectedFact) : Prop :=
  f.state ≠ .stale ∨
    f.factType = .claim .availability ∧ member f.value (js "freshness") = .str (js "CURRENT") ∨
    f.factType = .claim .certification ∧ member f.value (js "expired") = .bool false

/-- The fact of a key: the group of its claims, ranked, and what is made of them. -/
structure FactOf (host : Host) (opts : ProjectionOptions) (projected : List Assertion)
    (f : ProjectedFact) (key : AssertionType × JsString) (winner : Cluster)
      (losers : List Cluster) :
    Prop where
  ranked : (key, winner :: losers) ∈ rankedGroups host projected
  fact : groupFact host opts key (winner :: losers) = [f]

/-- What is shown as current has a value that is not time-stale, and what is shown as old
has no fresh support. The value is that of the winning representative. -/
def CurrentIsFresh (host : Host) (opts : ProjectionOptions) (l : List Assertion)
    (identifiers : List SubjectIdentifier) : Prop :=
  ∀ f ∈ (computeProjection host l identifiers opts).facts, ∀ key winner losers,
    FactOf host opts (projectedOf l) f key winner losers →
      (f.shownCurrent → isTimeStale opts winner.rep = false) ∧
      (f.shownStale → ∀ a ∈ projectedOf l, a.id ∈ f.supportingAssertionIds →
        isTimeStale opts a = true)

/-- From different references, or both without one, and not reconciled. -/
def mayContradict (opts : ProjectionOptions) (m w : Assertion) : Bool :=
  (w.sourceReferenceId != m.sourceReferenceId || (w.sourceReferenceId.isNone && w.id != m.id)) &&
    !opts.reconciled.contains (m.id, w.id)

/-- In the winning cluster a fresh claim stands before every time-stale one, or all are
time-stale and none may contradict a losing claim. -/
def FreshFirst (opts : ProjectionOptions) (winner : Cluster) (losers : List Cluster) : Prop :=
  (∃ a ∈ winner.members, isTimeStale opts a = false ∧
      ∀ b ∈ winner.members, isTimeStale opts b = true → strongerOrEqual a b = true) ∨
    (∀ b ∈ winner.members, isTimeStale opts b = true) ∧
      ∀ c ∈ losers, ∀ m ∈ c.members, ∀ w ∈ winner.members, mayContradict opts m w = false

/-! ## Members of a value -/

theorem member_assign_self {p : List (JsString × JsVal)} {k : JsString} {v : JsVal}
    (hk : k ≠ protoKey) : member (assign p (k, v)) k = v := by
  unfold assign member
  rw [if_neg hk]
  split
  next hany =>
    rw [find?_map]
    have hfun : ((fun o : JsString × JsVal => o.1 == k) ∘ fun o => if o.1 = k then (k, v) else o) =
        fun o => o.1 == k := by
      funext o
      by_cases ho : o.1 = k <;> simp [ho]
    rw [hfun]
    cases hfind : p.find? fun o => o.1 == k with
    | none =>
      obtain ⟨o, ho, heq⟩ := any_eq_true.mp hany
      exact absurd heq (find?_eq_none.mp hfind o ho)
    | some o =>
      have ho : o.1 = k := by simpa using find?_some hfind
      simp [ho]
  next hany =>
    have hnone : p.find? (fun o => o.1 == k) = none :=
      find?_eq_none.mpr fun o ho heq => hany (any_eq_true.mpr ⟨o, ho, heq⟩)
    simp [find?_append, hnone]

theorem member_assign_ne {p : List (JsString × JsVal)} {k k' : JsString} {v : JsVal}
    (hne : k ≠ k') : member (assign p (k, v)) k' = member p k' := by
  unfold assign member
  split
  · rfl
  · split
    · rw [find?_map]
      have hfun : ((fun o : JsString × JsVal => o.1 == k') ∘
          fun o => if o.1 = k then (k, v) else o) = fun o => o.1 == k' := by
        funext o
        by_cases ho : o.1 = k <;> simp [ho]
      rw [hfun]
      cases hfind : p.find? fun o => o.1 == k' with
      | none => rfl
      | some o =>
        have ho : o.1 = k' := by simpa using find?_some hfind
        have : o.1 ≠ k := by
          rw [ho]
          exact hne.symm
        simp [this]
    · simp [find?_append, hne]

/-! ## One fact -/

section Fact

variable {host : Host} {opts : ProjectionOptions} {l : List Assertion}
  {identifiers : List SubjectIdentifier} {f : ProjectedFact} {key : AssertionType × JsString}
  {winner : Cluster} {losers : List Cluster}

theorem groupContradictions_eq_nil : groupContradictions opts (winner :: losers) = [] ↔
    ∀ c ∈ losers, ∀ m ∈ c.members, ∀ w ∈ winner.members, mayContradict opts m w = false := by
  have hpartners : ∀ m, eligiblePartners opts winner m = [] ↔
      ∀ w ∈ winner.members, mayContradict opts m w = false := by
    intro m
    simp only [← Bool.not_eq_true]
    exact filter_eq_nil_iff
  unfold groupContradictions
  rw [filterMap_eq_nil_iff]
  constructor
  · intro h c hc m hm
    refine (hpartners m).mp ?_
    specialize h m (mem_flatMap_of_mem hc hm)
    cases hp : eligiblePartners opts winner m with
    | nil => rfl
    | cons p rest => simp [hp] at h
  · intro h m hm
    obtain ⟨c, hc, hm⟩ := mem_flatMap.mp hm
    rw [(hpartners m).mpr (h c hc m hm)]

section

variable (h : FactOf host opts l f key winner losers)

include h

theorem FactOf.state :
    f.state = if groupContradictions opts (winner :: losers) ≠ [] then .contradicted
      else if winner.members.all (isTimeStale opts) then .stale else .resolved := by
  rw [← head_eq_of_cons_eq h.fact]

theorem FactOf.factType :
    f.factType = .claim key.1 := by
  rw [← head_eq_of_cons_eq h.fact]

theorem FactOf.value :
    f.value = factValue host key.1 winner (winner.members.all (isTimeStale opts)) := by
  rw [← head_eq_of_cons_eq h.fact]

theorem FactOf.supporting :
    f.supportingAssertionIds = (winner.members.map (·.id)).insertionSort (· ≤ ·) := by
  rw [← head_eq_of_cons_eq h.fact]

end

theorem member_freshness (winner : Cluster) (stale : Bool) :
    member (factValue host .availability winner stale) (js "freshness") =
      .str (if stale then js "STALE" else js "CURRENT") := by
  unfold factValue
  dsimp only
  rw [member_assign_ne (by decide), member_assign_self (by decide)]

theorem member_expired (winner : Cluster) (stale : Bool) :
    member (factValue host .certification winner stale) (js "expired") = .bool stale := by
  unfold factValue
  dsimp only
  rw [member_assign_self (by decide)]

section

variable (h : FactOf host opts l f key winner losers)

include h

/-- A fact is shown as current when its cluster has a fresh claim or it is contradicted. -/
theorem FactOf.shownCurrent_iff :
    f.shownCurrent ↔ winner.members.all (isTimeStale opts) = false ∨
      groupContradictions opts (winner :: losers) ≠ [] := by
  obtain ⟨type, stored⟩ := key
  have hstate := h.state
  have hvalue := h.value
  have htype := h.factType
  unfold ProjectedFact.shownCurrent
  rw [hstate, htype, hvalue]
  by_cases hcontra : groupContradictions opts (winner :: losers) ≠ []
  · simp [hcontra]
  · cases hall : winner.members.all (isTimeStale opts) with
    | false => simp [hcontra]
    | true =>
      have havailable : type = .availability →
          member (factValue host type winner true) (js "freshness") ≠ .str (js "CURRENT") := by
        rintro rfl
        rw [member_freshness]
        simp [js, utf16Encode]
      have hexpired : type = .certification →
          member (factValue host type winner true) (js "expired") ≠ .bool false := by
        rintro rfl
        rw [member_expired]
        simp
      simp only [hcontra, if_false]
      simp
      exact ⟨havailable, hexpired⟩

theorem FactOf.all_stale_of_shownStale
    (hstale : f.shownStale) : winner.members.all (isTimeStale opts) = true := by
  obtain ⟨type, stored⟩ := key
  have hstate := h.state
  have hvalue := h.value
  have htype := h.factType
  unfold ProjectedFact.shownStale at hstale
  rw [hstate, htype, hvalue] at hstale
  by_contra hfresh
  have hfalse : winner.members.all (isTimeStale opts) = false := Bool.eq_false_iff.mpr hfresh
  rw [hfalse] at hstale
  rcases hstale with h | ⟨h, hv⟩ | ⟨h, hv⟩
  · split at h <;> cases h
  · cases h
    rw [member_freshness] at hv
    simp [js, utf16Encode] at hv
  · cases h
    rw [member_expired] at hv
    cases hv

theorem FactOf.current_iff
    (hd : ∀ a ∈ winner.members, a.id = winner.rep.id → a = winner.rep) :
    (f.shownCurrent → isTimeStale opts winner.rep = false) ↔ FreshFirst opts winner losers := by
  have hwinner := winner_ranked h.ranked
  rw [h.shownCurrent_iff]
  constructor
  · intro hfresh
    cases hrep : isTimeStale opts winner.rep with
    | false =>
      left
      exact ⟨winner.rep, rep_mem hwinner, hrep, fun b hb _ => rep_strongest hwinner hb⟩
    | true =>
      right
      have hnone : ¬ (winner.members.all (isTimeStale opts) = false ∨
          groupContradictions opts (winner :: losers) ≠ []) := by
        intro hshown
        rw [hfresh hshown] at hrep
        cases hrep
      obtain ⟨hall, hcontra⟩ := not_or.mp hnone
      exact ⟨all_eq_true.mp (Bool.not_eq_false _ ▸ hall),
        groupContradictions_eq_nil.mp (not_not.mp hcontra)⟩
  · rintro (⟨a, ha, hafresh, hfirst⟩ | ⟨hall, hquiet⟩) hshown
    · -- a stale representative would stand before the fresh claim and after it
      by_contra hstale
      have hrep : isTimeStale opts winner.rep = true := Bool.not_eq_false _ ▸ hstale
      have hid := id_eq_of_tie (hfirst winner.rep (rep_mem hwinner) hrep) (rep_strongest hwinner ha)
      rw [hd a ha hid, hrep] at hafresh
      cases hafresh
    · rcases hshown with hsome | hcontra
      · rw [all_eq_true.mpr hall] at hsome
        cases hsome
      · exact absurd (groupContradictions_eq_nil.mpr hquiet) hcontra

end

end Fact

/-! ## Every fact -/

theorem exists_fact {host : Host} {opts : ProjectionOptions} {l : List Assertion}
    {identifiers : List SubjectIdentifier} {key : AssertionType × JsString} {winner : Cluster}
    {losers : List Cluster} (hg : (key, winner :: losers) ∈ rankedGroups host (projectedOf l)) :
    ∃ f ∈ (computeProjection host l identifiers opts).facts,
      FactOf host opts (projectedOf l) f key winner losers := by
  obtain ⟨f, hf⟩ : ∃ f, groupFact host opts key (winner :: losers) = [f] := ⟨_, rfl⟩
  have hmem : f ∈ unorderedFacts host opts (projectedOf l) identifiers := by
    apply mem_append_left
    exact mem_flatMap_of_mem hg (hf ▸ mem_singleton_self f)
  rw [computeProjection_eq]
  exact ⟨f, (perm_insertionSort _ _).mem_iff.mpr hmem, hg, hf⟩

/-- **A fact shown as current shows a current value, and one shown as old has no fresh support,
if and only if in every fact a fresh claim stands first in the winning cluster, or all of it is
time-stale and nothing contradicts it.** -/
theorem current_is_fresh_iff (host : Host) (opts : ProjectionOptions) {l : List Assertion}
    (identifiers : List SubjectIdentifier) (hd : DistinctIds l) :
    CurrentIsFresh host opts l identifiers ↔
      ∀ key winner losers, (key, winner :: losers) ∈ rankedGroups host (projectedOf l) →
        FreshFirst opts winner losers := by
  have hmember : ∀ key winner losers, (key, winner :: losers) ∈ rankedGroups host (projectedOf l) →
      ∀ a ∈ winner.members, a ∈ projectedOf l := by
    intro key winner losers hg a ha
    exact mem_of_mem_filter
      (mem_of_mem_filter (mem_claims_of_member (winner_ranked hg) ha))
  have hunique : ∀ key winner losers, (key, winner :: losers) ∈ rankedGroups host (projectedOf l) →
      ∀ a ∈ winner.members, ∀ b ∈ projectedOf l, a.id = b.id → a = b :=
        fun key winner losers hg a ha b hb =>
    (hd.filter _).eq_of_id (hmember key winner losers hg a ha) hb
  have hrep : ∀ {key : AssertionType × JsString} {winner : Cluster} {losers : List Cluster},
      (key, winner :: losers) ∈ rankedGroups host (projectedOf l) →
      ∀ a ∈ winner.members, a.id = winner.rep.id → a = winner.rep := by
    intro key winner losers hg a ha hid
    have hin := hmember key winner losers hg _ (rep_mem (winner_ranked hg))
    exact hunique key winner losers hg a ha _ hin hid
  constructor
  · intro hcurrent key winner losers hg
    obtain ⟨f, hf, hof⟩ := exists_fact hg
    exact (hof.current_iff (hrep hg)).mp (hcurrent f hf key winner losers hof).1
  · intro hfirst f hf key winner losers hof
    have hg := hof.ranked
    have hvalue := (hof.current_iff (hrep hg)).mpr (hfirst key winner losers hg)
    apply And.intro hvalue
    intro hstale a ha hid
    have hall := all_eq_true.mp (hof.all_stale_of_shownStale hstale)
    rw [hof.supporting, (perm_insertionSort _ _).mem_iff] at hid
    obtain ⟨b, hb, hba⟩ := mem_map.mp hid
    rw [← hunique key winner losers hg b hb a ha hba]
    exact hall b hb

/-! ## Two availabilities -/

def availabilityOf (id observedAt : Nat) (verification : AssertionVerification) : Assertion :=
  { statedClaim id .availability [] with
    verificationStatus := verification
    observedAt := observedAt }

/-- One hundred days after the first observation, with a freshness of thirty. -/
def afterHundredDays : ProjectionOptions := ⟨100 * msPerDay, 30, [], []⟩

/-- An old verified availability, and one stated today. -/
def oldVerified : List Assertion :=
  [availabilityOf 1 0 .verified, availabilityOf 2 (100 * msPerDay) .declared]

/-- A verified availability of today, and one stated a hundred days ago. -/
def verifiedToday : List Assertion :=
  [availabilityOf 1 (100 * msPerDay) .verified, availabilityOf 2 0 .declared]

/-- An availability shown as `CURRENT` with the value of a hundred days ago. -/
theorem current_value_is_old : ¬ ∀ (host : Host) (opts : ProjectionOptions) (l : List Assertion)
    (identifiers : List SubjectIdentifier), DistinctIds l →
      CurrentIsFresh host opts l identifiers := by
  intro h
  have hd : DistinctIds oldVerified := by
    rw [DistinctIds]
    decide
  have hof : ∃ f ∈ (computeProjection plainHost oldVerified [] afterHundredDays).facts,
      FactOf plainHost afterHundredDays (projectedOf oldVerified) f (.availability, [])
        ⟨availabilityOf 1 0 .verified, oldVerified⟩ [] :=
    ⟨_, mem_of_mem_head? rfl, mem_of_mem_head? rfl, rfl⟩
  obtain ⟨f, hf, hof⟩ := hof
  have hcurrent : f.shownCurrent := by
    left
    rw [hof.state]
    decide +kernel
  have hstale := (h plainHost afterHundredDays oldVerified [] hd f hf _ _ _ hof).1 hcurrent
  revert hstale
  decide +kernel

theorem current_is_fresh_today :
    CurrentIsFresh plainHost afterHundredDays verifiedToday [] := by
  have hranked : rankedGroups plainHost (projectedOf verifiedToday) =
      [((.availability, []),
        [⟨availabilityOf 1 (100 * msPerDay) .verified, verifiedToday⟩])] := rfl
  have hd : DistinctIds verifiedToday := by
    rw [DistinctIds]
    decide
  refine (current_is_fresh_iff plainHost afterHundredDays [] hd).mpr ?_
  intro key winner losers hg
  rw [hranked, mem_singleton] at hg
  cases hg
  exact .inl ⟨_, mem_cons_self, by decide +kernel, by decide +kernel⟩

end AramoPlatform.Intelligence
