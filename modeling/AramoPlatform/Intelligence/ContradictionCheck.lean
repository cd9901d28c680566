import AramoPlatform.Intelligence.Freshness

/-!
# What is reported as a contradiction

Absent parts of a value are compatible with everything, so that compatibility is
not transitive. A claim is compared with the representative of a cluster when it
is placed, and with all members of the winning cluster when it has lost. The two
comparisons agree where what is compatible with a winning claim goes to the winning
leader.
-/

namespace AramoPlatform.Intelligence

open Js Lib List

/-! ## Claims against the winning cluster -/

/-- Every reconciled pair is there in both orders. -/
def BothOrders (opts : ProjectionOptions) : Prop :=
  ∀ a b, (a, b) ∈ opts.reconciled → (b, a) ∈ opts.reconciled

/-- The claims come from different references and were not reconciled. -/
def Unreconciled (opts : ProjectionOptions) (a b : Assertion) : Prop :=
  a.sourceReferenceId ≠ b.sourceReferenceId ∧ (a.id, b.id) ∉ opts.reconciled

section Against

variable {host : Host} {opts : ProjectionOptions} {l projected : List Assertion}
  {identifiers : List SubjectIdentifier} {key : AssertionType × JsString} {winner : Cluster}
  {losers : List Cluster} {a b m w : Assertion}

theorem mayContradict_iff : mayContradict opts a b = true ↔
    (a.sourceReferenceId ≠ b.sourceReferenceId ∨ a.sourceReferenceId = none ∧
      b.sourceReferenceId = none ∧ a.id ≠ b.id) ∧ (a.id, b.id) ∉ opts.reconciled := by
  unfold mayContradict
  rw [Bool.and_eq_true, Bool.or_eq_true, Bool.and_eq_true, bne_iff_ne, bne_iff_ne,
    Option.isNone_iff_eq_none, Bool.not_eq_true', ← Bool.not_eq_true, contains_iff_mem]
  apply and_congr_left'
  by_cases href : a.sourceReferenceId = b.sourceReferenceId
  · rw [href]
    simp [ne_comm]
  · simp [href, Ne.symm href]

theorem mayContradict_comm (hr : BothOrders opts) : mayContradict opts a b =
    mayContradict opts b a := by
  have hone : ∀ a b : Assertion, mayContradict opts a b = true → mayContradict opts b a = true := by
    intro a b h
    obtain ⟨hsource, hfree⟩ := mayContradict_iff.mp h
    apply mayContradict_iff.mpr
    apply And.intro _ fun hba => hfree (hr _ _ hba)
    rcases hsource with hne | ⟨ha, hb, hne⟩
    · exact .inl hne.symm
    · exact .inr ⟨hb, ha, hne.symm⟩
  exact Bool.eq_iff_iff.mpr ⟨hone a b, hone b a⟩

theorem Unreconciled.mayContradict (h : Unreconciled opts a b) : mayContradict opts a b = true :=
  mayContradict_iff.mpr ⟨.inl h.1, h.2⟩

theorem ne_of_mayContradict (h : mayContradict opts a b = true) : a ≠ b := by
  rintro rfl
  rcases (mayContradict_iff.mp h).1 with hne | ⟨-, -, hne⟩ <;> exact hne rfl

/-! ## Losing claims -/

/-- A claim of a losing cluster, and a member of the winning one that it may contradict. -/
structure LosesTo (host : Host) (opts : ProjectionOptions) (projected : List Assertion)
    (key : AssertionType × JsString) (winner : Cluster) (losers : List Cluster)
    (m w : Assertion) : Prop where
  ranked : (key, winner :: losers) ∈ rankedGroups host projected
  loses : ∃ c ∈ losers, m ∈ c.members
  wins : w ∈ winner.members
  may : mayContradict opts m w = true

theorem LosesTo.claims (h : LosesTo host opts projected key winner losers m w) :
    m ∈ claimsOf host projected key ∧ w ∈ claimsOf host projected key := by
  obtain ⟨c, hc, hm⟩ := h.loses
  exact ⟨mem_claims_of_member (loser_ranked h.ranked hc) hm,
    mem_claims_of_member (winner_ranked h.ranked) h.wins⟩

theorem loses_iff (hd : DistinctIds projected)
    (hg : (key, winner :: losers) ∈ rankedGroups host projected)
    (hm : m ∈ claimsOf host projected key) :
    (∃ c ∈ losers, m ∈ c.members) ↔ m ∉ winner.members := by
  have hperm : ((winner :: losers).flatMap (·.members)).Perm (claimsOf host projected key) := by
    rw [← ranked_clusters hg]
    exact members_perm
  rw [flatMap_cons] at hperm
  have hnodup : (claimsOf host projected key).Nodup :=
    ((hd.filter _).filter _ : DistinctIds (claimsOf host projected key)).of_map _
  have hdisjoint := disjoint_of_nodup_append (hperm.nodup_iff.mpr hnodup)
  rw [← mem_flatMap]
  constructor
  · exact fun hlose hwin => hdisjoint hwin hlose
  · intro hwin
    exact (mem_append.mp (hperm.mem_iff.mpr hm)).resolve_left hwin

theorem mem_losingClaims {e : Nat × List Nat} : e ∈ losingClaims host opts projected ↔
    ∃ key winner losers m, (key, winner :: losers) ∈ rankedGroups host projected ∧
      (∃ c ∈ losers, m ∈ c.members) ∧ eligiblePartners opts winner m ≠ [] ∧
        e = (m.id, (eligiblePartners opts winner m).map (·.id)) := by
  unfold losingClaims
  rw [mem_flatMap]
  constructor
  · rintro ⟨⟨key, clusters⟩, hg, he⟩
    cases clusters with
    | nil => cases he
    | cons winner losers =>
      obtain ⟨m, hm, he⟩ := mem_filterMap.mp he
      use key, winner, losers, m, hg, mem_flatMap.mp hm
      cases hpartners : eligiblePartners opts winner m with
      | nil =>
        rw [hpartners] at he
        cases he
      | cons w rest =>
        rw [hpartners] at he
        exact ⟨cons_ne_nil _ _, (Option.some.inj he).symm⟩
  · rintro ⟨key, winner, losers, m, hg, hm, hne, rfl⟩
    use (key, winner :: losers), hg
    apply mem_filterMap.mpr
    use m, mem_flatMap.mpr hm
    cases hpartners : eligiblePartners opts winner m with
    | nil => exact absurd hpartners hne
    | cons w rest => rfl

theorem mem_eligiblePartners : w ∈ eligiblePartners opts winner m ↔
    w ∈ winner.members ∧ mayContradict opts m w = true :=
  mem_filter

theorem losesTo_of_losing {e : Nat × List Nat} (he : e ∈ losingClaims host opts projected) {p : Nat}
    (hp : p ∈ e.2) : ∃ key winner losers m w, LosesTo host opts projected key winner losers m w ∧
      m.id = e.1 ∧ w.id = p := by
  obtain ⟨key, winner, losers, m, hg, hm, -, rfl⟩ := mem_losingClaims.mp he
  obtain ⟨w, hw, hid⟩ := mem_map.mp hp
  obtain ⟨hwin, hmay⟩ := mem_eligiblePartners.mp hw
  exact ⟨key, winner, losers, m, w, ⟨hg, hm, hwin, hmay⟩, rfl, hid⟩

theorem LosesTo.losing (h : LosesTo host opts projected key winner losers m w) :
    ∃ e ∈ losingClaims host opts projected, e.1 = m.id ∧ w.id ∈ e.2 := by
  have hw := mem_eligiblePartners.mpr ⟨h.wins, h.may⟩
  exact ⟨_, mem_losingClaims.mpr ⟨key, winner, losers, m, h.ranked, h.loses,
    ne_nil_of_mem hw, rfl⟩, rfl, mem_map_of_mem hw⟩

theorem mem_contradictedIn {id : Nat} (h : id ∈ contradictedIn host opts l) :
    ∃ key winner losers m w, LosesTo host opts (projectedOf l) key winner losers m w ∧
      (m.id = id ∨ w.id = id) := by
  obtain ⟨pair, hpair, hid⟩ := mem_flatMap.mp h
  obtain ⟨e, he, hhead⟩ := mem_filterMap.mp hpair
  obtain ⟨p, hp, rfl⟩ := Option.map_eq_some_iff.mp hhead
  obtain ⟨key, winner, losers, m, w, hlose, hm, hw⟩ :=
    losesTo_of_losing he (mem_of_mem_head? hp)
  simp only [mem_cons, not_mem_nil, or_false] at hid
  rw [← hm, ← hw] at hid
  exact ⟨key, winner, losers, m, w, hlose, hid.imp Eq.symm Eq.symm⟩

end Against

/-! ## Exactness -/

/-- Two projected claims of a fact that oppose each other: of different references (or both
without one), not reconciled, and incompatible. -/
structure Opposed (host : Host) (opts : ProjectionOptions) (projected : List Assertion)
    (key : AssertionType × JsString) (a b : Assertion) : Prop where
  left : a ∈ claimsOf host projected key
  right : b ∈ claimsOf host projected key
  may : mayContradict opts a b = true
  incompatible : compatible host key.1 a.payload b.payload = false

/-- What is reported are opposed claims; a winning claim that another source opposes shows; and
a claim that agrees with all of its fact is not contradicted. -/
structure ContradictionsExact (host : Host) (opts : ProjectionOptions) (l : List Assertion)
    (identifiers : List SubjectIdentifier) : Prop where
  pairs : ∀ pair ∈ (computeProjection host l identifiers opts).contradictions, ∃ key a b,
    a.id = pair.1 ∧ b.id = pair.2 ∧ Opposed host opts (projectedOf l) key a b
  partners : ∀ id, ∀ p ∈ (computeProjection host l identifiers opts).partnersOf id, ∃ key a b,
    a.id = id ∧ b.id = p ∧ Opposed host opts (projectedOf l) key a b
  shown : ∀ f ∈ (computeProjection host l identifiers opts).facts, ∀ key winner losers,
    FactOf host opts (projectedOf l) f key winner losers →
      ∀ a ∈ claimsOf host (projectedOf l) key, ∀ b ∈ claimsOf host (projectedOf l) key,
        a.id ∈ f.supportingAssertionIds → Unreconciled opts a b →
          compatible host key.1 a.payload b.payload = false → f.state = .contradicted
  agreeing : ∀ key, ∀ a ∈ claimsOf host (projectedOf l) key,
    (∀ b ∈ claimsOf host (projectedOf l) key, b ≠ a →
      compatible host key.1 a.payload b.payload = true) →
    (computeProjection host l identifiers opts).statusOf a.id ≠ some .contradicted

/-- Every claim of another source that is compatible with a winning one has won with it, and
winning claims of different sources agree, unless a claim that has lost may contradict one. -/
structure WinnerClosed (host : Host) (opts : ProjectionOptions) (projected : List Assertion)
    (key : AssertionType × JsString) (winner : Cluster) : Prop where
  closed : ∀ m ∈ claimsOf host projected key, ∀ w ∈ winner.members,
    mayContradict opts m w = true → compatible host key.1 m.payload w.payload = true →
      m ∈ winner.members
  agree : (∀ a ∈ winner.members, ∀ b ∈ winner.members, Unreconciled opts a b →
      compatible host key.1 a.payload b.payload = true) ∨
    ∃ m ∈ claimsOf host projected key, m ∉ winner.members ∧
      ∃ w ∈ winner.members, mayContradict opts m w = true

/-- A claim that goes to the leader, and one of another source that is compatible with it. -/
structure Beside (host : Host) (opts : ProjectionOptions) (type : AssertionType)
    (claims : List Assertion) (r w m : Assertion) : Prop where
  mem : w ∈ claims
  goes : leaderOf host type claims w = some r
  other : m ∈ claims
  may : mayContradict opts m w = true
  fits : compatible host type m.payload w.payload = true

/-- What is compatible with the claims of a leader is compatible with the leader, and with no
stronger one; and its claims are compatible with each other, unless one that goes elsewhere may
contradict one of them. -/
structure LeaderTells (host : Host) (opts : ProjectionOptions) (type : AssertionType)
    (claims : List Assertion) (r : Assertion) : Prop where
  through : ∀ w m, Beside host opts type claims r w m →
    compatible host type r.payload m.payload = true
  first : ∀ w m, Beside host opts type claims r w m → ∀ r' ∈ leaders host type claims,
    r' ≠ r → strongerOrEqual r' r = true → compatible host type r'.payload m.payload = false
  agree : ∀ a ∈ claims, ∀ b ∈ claims, leaderOf host type claims a = some r →
    leaderOf host type claims b = some r → Unreconciled opts a b →
      compatible host type a.payload b.payload = true ∨
        ∃ m ∈ claims, ∃ w ∈ claims, leaderOf host type claims m ≠ some r ∧
          leaderOf host type claims w = some r ∧ mayContradict opts m w = true

section Exact

variable {host : Host} {opts : ProjectionOptions} {l : List Assertion}
  {identifiers : List SubjectIdentifier} {key : AssertionType × JsString} {winner : Cluster}
  {losers : List Cluster} {a b m w : Assertion}

theorem Opposed.symm (hr : BothOrders opts) (h : Opposed host opts l key a b) :
    Opposed host opts l key b a :=
  ⟨h.right, h.left, mayContradict_comm hr ▸ h.may, compatible_comm host key.1 _ _ ▸ h.incompatible⟩

theorem LosesTo.opposed (hd : DistinctIds l) (hw : WinnerClosed host opts l key winner)
    (h : LosesTo host opts l key winner losers m w) : Opposed host opts l key m w := by
  obtain ⟨hm, hwin⟩ := h.claims
  have hout := (loses_iff hd h.ranked hm).mp h.loses
  refine ⟨hm, hwin, h.may, ?_⟩
  by_contra hcompatible
  exact hout (hw.closed m hm w h.wins h.may (Bool.not_eq_false _ ▸ hcompatible))

theorem mem_partnersOf {id p : Nat}
    (h : p ∈ (computeProjection host l identifiers opts).partnersOf id) :
    ∃ key winner losers m w, LosesTo host opts (projectedOf l) key winner losers m w ∧
      (m.id = id ∧ w.id = p ∨ m.id = p ∧ w.id = id) := by
  rw [computeProjection_eq] at h
  unfold ProjectionResult.partnersOf at h
  obtain ⟨e, he, hp⟩ := mem_flatMap.mp (mem_uniq.mp h)
  split at hp
  next hid =>
    obtain ⟨key, winner, losers, m, w, hlose, hm, hw⟩ := losesTo_of_losing he hp
    exact ⟨key, winner, losers, m, w, hlose, .inl ⟨hm.trans hid, hw⟩⟩
  next =>
    split at hp
    next hcontains =>
      obtain ⟨key, winner, losers, m, w, hlose, hm, hw⟩ :=
        losesTo_of_losing he (contains_iff_mem.mp hcontains)
      exact ⟨key, winner, losers, m, w, hlose, .inr ⟨hm.trans (mem_singleton.mp hp).symm, hw⟩⟩
    next => cases hp

theorem LosesTo.mem_partnersOf (h : LosesTo host opts (projectedOf l) key winner losers m w) :
    w.id ∈ (computeProjection host l identifiers opts).partnersOf m.id := by
  obtain ⟨e, he, hm, hw⟩ := h.losing
  rw [computeProjection_eq]
  unfold ProjectionResult.partnersOf
  apply mem_uniq.mpr
  apply mem_flatMap.mpr
  use e, he
  rw [if_pos hm]
  exact hw

theorem FactOf.contradicted_iff {f : ProjectedFact}
    (h : FactOf host opts l f key winner losers) :
    f.state = .contradicted ↔ ∃ m w, LosesTo host opts l key winner losers m w := by
  rw [h.state]
  have hnil : groupContradictions opts (winner :: losers) = [] ↔
      ∀ c ∈ losers, ∀ m ∈ c.members, ∀ w ∈ winner.members, mayContradict opts m w = false :=
    groupContradictions_eq_nil
  constructor
  · intro hstate
    by_contra hnone
    have hquiet : groupContradictions opts (winner :: losers) = [] := by
      apply hnil.mpr
      intro c hc m hm w hw
      by_contra hmay
      exact hnone ⟨m, w, h.ranked, ⟨c, hc, hm⟩, hw, Bool.not_eq_false _ ▸ hmay⟩
    rw [hquiet] at hstate
    simp only [ne_eq, not_true_eq_false, if_false] at hstate
    split at hstate <;> cases hstate
  · rintro ⟨m, w, -, ⟨c, hc, hm⟩, hw, hmay⟩
    apply if_pos
    intro hquiet
    rw [hnil.mp hquiet c hc m hm w hw] at hmay
    cases hmay

theorem WinnerClosed.of_exact (hd : DistinctIds l)
    (h : ContradictionsExact host opts l identifiers)
    (hg : (key, winner :: losers) ∈ rankedGroups host (projectedOf l)) :
    WinnerClosed host opts (projectedOf l) key winner := by
  have hd' : DistinctIds (projectedOf l) := hd.filter _
  obtain ⟨f, hf, hof⟩ : ∃ f ∈ (computeProjection host l identifiers opts).facts,
      FactOf host opts (projectedOf l) f key winner losers := exists_fact hg
  have hclaim : ∀ {k : AssertionType × JsString} {a : Assertion},
      a ∈ claimsOf host (projectedOf l) k → a ∈ projectedOf l ∧ groupKey host a = k := by
    intro k a ha
    obtain ⟨ha, hk⟩ := mem_filter.mp ha
    exact ⟨mem_of_mem_filter ha, of_decide_eq_true hk⟩
  have hwinner : ∀ a ∈ winner.members, a ∈ claimsOf host (projectedOf l) key := fun a ha =>
    mem_claims_of_member (winner_ranked hg) ha
  constructor
  · intro m hm w hw hmay hcompatible
    by_contra hout
    have hlose : LosesTo host opts (projectedOf l) key winner losers m w :=
      ⟨hg, (loses_iff hd' hg hm).mpr hout, hw, hmay⟩
    -- the reported pair is of these two claims and of this fact
    obtain ⟨k, a, b, ha, hb, hopposed⟩ := h.partners m.id w.id hlose.mem_partnersOf
    obtain rfl := hd'.eq_of_id (hclaim hopposed.left).1 (hclaim hm).1 ha
    obtain rfl := hd'.eq_of_id (hclaim hopposed.right).1 (hclaim (hwinner w hw)).1 hb
    obtain rfl := (hclaim hopposed.left).2.symm.trans (hclaim hm).2
    rw [hopposed.incompatible] at hcompatible
    cases hcompatible
  · by_cases hlose : ∃ m w, LosesTo host opts (projectedOf l) key winner losers m w
    · right
      obtain ⟨m, w, hlose⟩ := hlose
      exact ⟨m, hlose.claims.1, (loses_iff hd' hg hlose.claims.1).mp hlose.loses,
        w, hlose.wins, hlose.may⟩
    · left
      intro a ha b hb hfree
      by_contra hcompatible
      have hsupports : a.id ∈ f.supportingAssertionIds := by
        rw [hof.supporting, (perm_insertionSort _ _).mem_iff]
        exact mem_map_of_mem ha
      exact hlose (hof.contradicted_iff.mp (h.shown f hf key winner losers hof a (hwinner a ha) b
        (hwinner b hb) hsupports hfree (Bool.eq_false_iff.mpr hcompatible)))

theorem mem_of_statusInView {ids : List Nat} {a : Assertion}
    (h : statusInView opts ids a = .contradicted) : a.id ∈ ids := by
  unfold statusInView at h
  split at h
  · cases h
  · split at h
    next hcontains => exact contains_iff_mem.mp hcontains
    next => split at h <;> cases h

theorem exact_of_winnerClosed (hd : DistinctIds l) (hr : BothOrders opts)
    (h : ∀ key winner losers, (key, winner :: losers) ∈ rankedGroups host (projectedOf l) →
      WinnerClosed host opts (projectedOf l) key winner) :
    ContradictionsExact host opts l identifiers := by
  have hd' : DistinctIds (projectedOf l) := hd.filter _
  have hopposed : ∀ {key winner losers m w},
      LosesTo host opts (projectedOf l) key winner losers m w →
        Opposed host opts (projectedOf l) key m w := by
    intro key winner losers m w hlose
    exact hlose.opposed hd' (h key winner losers hlose.ranked)
  constructor
  · intro pair hpair
    obtain ⟨e, he, hhead⟩ := mem_filterMap.mp hpair
    obtain ⟨p, hp, rfl⟩ := Option.map_eq_some_iff.mp hhead
    obtain ⟨key, winner, losers, m, w, hlose, hm, hw⟩ :=
      losesTo_of_losing he (mem_of_mem_head? hp)
    exact ⟨key, m, w, hm, hw, hopposed hlose⟩
  · intro id p hp
    obtain ⟨key, winner, losers, m, w, hlose, ⟨hm, hw⟩ | ⟨hm, hw⟩⟩ := mem_partnersOf hp
    · exact ⟨key, m, w, hm, hw, hopposed hlose⟩
    · exact ⟨key, w, m, hw, hm, (hopposed hlose).symm hr⟩
  · intro f hf key winner losers hof a ha b hb hsupports hfree hincompatible
    have hg := hof.ranked
    rw [hof.supporting, (perm_insertionSort _ _).mem_iff] at hsupports
    obtain ⟨a', ha', hid⟩ := mem_map.mp hsupports
    have hclaim : a' ∈ projectedOf l :=
      mem_of_mem_filter (mem_of_mem_filter (mem_claims_of_member (winner_ranked hg) ha'))
    obtain rfl := hd'.eq_of_id hclaim (mem_of_mem_filter (mem_of_mem_filter ha)) hid
    apply hof.contradicted_iff.mpr
    by_cases hbwins : b ∈ winner.members
    · rcases (h key winner losers hg).agree with hagree | ⟨m, hm, hout, w, hw, hmay⟩
      · rw [hagree a' ha' b hbwins hfree] at hincompatible
        cases hincompatible
      · exact ⟨m, w, hg, (loses_iff hd' hg hm).mpr hout, hw, hmay⟩
    · exact ⟨b, a', hg, (loses_iff hd' hg hb).mpr hbwins, ha',
        mayContradict_comm hr ▸ hfree.mayContradict⟩
  · intro key a ha hagree hstatus
    have hproj := mem_of_mem_filter (mem_of_mem_filter ha)
    obtain ⟨a', ha', hid, hview⟩ := (statusOf_eq_some hd).mp hstatus
    obtain rfl := hd'.eq_of_id ha' hproj hid
    have hin : a'.id ∈ contradictedIn host opts l := mem_of_statusInView hview
    have hnone : ∀ k b, ¬ Opposed host opts (projectedOf l) k a' b := by
      intro k b hab
      have hk : k = key :=
        (of_decide_eq_true (mem_filter.mp hab.left).2).symm.trans
          (of_decide_eq_true (mem_filter.mp ha).2)
      subst hk
      have := hagree b hab.right (ne_of_mayContradict hab.may).symm
      rw [hab.incompatible] at this
      cases this
    obtain ⟨k, winner, losers, m, w, hlose, hm | hw⟩ := mem_contradictedIn hin
    · obtain rfl := hd'.eq_of_id
        (mem_of_mem_filter (mem_of_mem_filter hlose.claims.1)) hproj hm
      exact hnone k w (hopposed hlose)
    · obtain rfl := hd'.eq_of_id
        (mem_of_mem_filter (mem_of_mem_filter hlose.claims.2)) hproj hw
      exact hnone k m ((hopposed hlose).symm hr)

/-! ## By the leaders of a fact -/

section Leaders

variable {type : AssertionType} {claims : List Assertion} {r : Assertion}

/-- Where compatibility is transitive on the claims of a fact, its leader tells. -/
theorem LeaderTells.of_transitive (hd : DistinctIds claims) (hr : r ∈ leaders host type claims)
    (htrans : ∀ a ∈ claims, ∀ b ∈ claims, ∀ c ∈ claims,
      compatible host type a.payload b.payload = true →
        compatible host type b.payload c.payload = true →
          compatible host type a.payload c.payload = true) :
    LeaderTells host opts type claims r := by
  have hclaim := mem_leaders hr
  constructor
  · intro w m h
    obtain ⟨-, hrw, -⟩ := (leaderOf_eq_some_iff hd).mp h.goes
    have hwm := h.fits
    rw [compatible_comm] at hwm
    exact htrans r hclaim w h.mem m h.other hrw hwm
  · intro w m h r' hr' hne hstronger
    obtain ⟨-, -, hnone⟩ := (leaderOf_eq_some_iff hd).mp h.goes
    by_contra hcompatible
    have hw := htrans r' (mem_leaders hr') m h.other w h.mem (Bool.not_eq_false _ ▸ hcompatible)
      h.fits
    rw [hnone r' hr' hne hstronger] at hw
    cases hw
  · intro a ha b hb hra hrb _
    obtain ⟨-, hra, -⟩ := (leaderOf_eq_some_iff hd).mp hra
    obtain ⟨-, hrb, -⟩ := (leaderOf_eq_some_iff hd).mp hrb
    rw [compatible_comm] at hra
    exact .inl (htrans a ha r hclaim b hb hra hrb)

end Leaders

/-- The leader of the winning cluster tells if and only if the cluster is closed. -/
theorem leaderTells_iff (hd : DistinctIds l) (hg : (key, winner :: losers) ∈ rankedGroups host l) :
    LeaderTells host opts key.1 (claimsOf host l key) winner.rep ↔
      WinnerClosed host opts l key winner := by
  have hd' : DistinctIds (claimsOf host l key) := (hd.filter _).filter _
  have hwin := winner_ranked hg
  have hmem : ∀ {a}, a ∈ claimsOf host l key →
      (a ∈ winner.members ↔ leaderOf host key.1 (claimsOf host l key) a = some winner.rep) :=
    fun ha => mem_ranked_iff hwin ha
  have hclaim : ∀ {a}, a ∈ winner.members → a ∈ claimsOf host l key :=
    fun ha => mem_claims_of_member hwin ha
  constructor
  · intro h
    constructor
    · intro m hm w hw hmay hfits
      have hbeside : Beside host opts key.1 (claimsOf host l key) winner.rep w m :=
        ⟨hclaim hw, (hmem (hclaim hw)).mp hw, hm, hmay, hfits⟩
      apply (hmem hm).mpr
      apply (leaderOf_eq_some_iff hd').mpr
      exact ⟨((leaderOf_eq_some_iff hd').mp hbeside.goes).1, h.through w m hbeside,
        h.first w m hbeside⟩
    · by_cases hagree : ∀ a ∈ winner.members, ∀ b ∈ winner.members, Unreconciled opts a b →
          compatible host key.1 a.payload b.payload = true
      · exact .inl hagree
      · push Not at hagree
        obtain ⟨a, ha, b, hb, hfree, hincompatible⟩ := hagree
        obtain ⟨m, hm, w, hw, hout, hin, hmay⟩ := (h.agree a (hclaim ha) b (hclaim hb)
          ((hmem (hclaim ha)).mp ha) ((hmem (hclaim hb)).mp hb) hfree).resolve_left hincompatible
        exact .inr ⟨m, hm, fun hmw => hout ((hmem hm).mp hmw), w, (hmem hw).mpr hin, hmay⟩
  · intro h
    have hgoes : ∀ {w m}, Beside host opts key.1 (claimsOf host l key) winner.rep w m →
        leaderOf host key.1 (claimsOf host l key) m = some winner.rep := by
      intro w m hbeside
      apply (hmem hbeside.other).mp
      exact h.closed m hbeside.other w ((hmem hbeside.mem).mpr hbeside.goes) hbeside.may
        hbeside.fits
    constructor
    · exact fun w m hbeside => ((leaderOf_eq_some_iff hd').mp (hgoes hbeside)).2.1
    · exact fun w m hbeside => ((leaderOf_eq_some_iff hd').mp (hgoes hbeside)).2.2
    · intro a ha b hb hra hrb hfree
      rcases h.agree with hagree | ⟨m, hm, hout, w, hw, hmay⟩
      · exact .inl (hagree a ((hmem ha).mpr hra) b ((hmem hb).mpr hrb) hfree)
      · exact .inr ⟨m, hm, w, hclaim hw, fun hrm => hout ((hmem hm).mpr hrm),
          (hmem (hclaim hw)).mp hw, hmay⟩

end Exact

/-- **Contradictions are exact if and only if the winning leader of every fact tells**: what is
compatible with one of its claims goes to it too, and its claims agree. -/
theorem contradictions_exact_iff (host : Host) (opts : ProjectionOptions) {l : List Assertion}
    (identifiers : List SubjectIdentifier) (hd : DistinctIds l) (hr : BothOrders opts) :
    ContradictionsExact host opts l identifiers ↔
      ∀ key r, Wins host key.1 (claimsOf host (projectedOf l) key) r →
        LeaderTells host opts key.1 (claimsOf host (projectedOf l) key) r := by
  have hd' : DistinctIds (projectedOf l) := hd.filter _
  have hwins : ∀ {key winner losers}, (key, winner :: losers) ∈ rankedGroups host (projectedOf l) →
      ∀ {r}, Wins host key.1 (claimsOf host (projectedOf l) key) r ↔ r = winner.rep :=
    fun hg => ranked_iff_wins ((hd'.filter _).filter _) (ranked_clusters hg)
  constructor
  · intro h key r hwin
    obtain ⟨winner, losers, hg⟩ := exists_ranked (mem_leaders hwin.leads)
    rw [(hwins hg).mp hwin]
    exact (leaderTells_iff hd' hg).mpr (.of_exact hd h hg)
  · intro h
    apply exact_of_winnerClosed hd hr
    intro key winner losers hg
    exact (leaderTells_iff hd' hg).mp (h key winner.rep ((hwins hg).mpr rfl))

/-! ## Three places -/

def placeOf (id : Nat) (member value : String) : Assertion :=
  statedClaim id .location [(js member, .str (js value))]

/-- A city, a country and another city: the country is compatible with both. -/
def threePlaces : List Assertion :=
  [placeOf 1 "city" "paris", placeOf 2 "country" "fr", placeOf 3 "city" "nice"]

def noOptions : ProjectionOptions := ⟨0, 30, [], []⟩

/-- The second city is reported as opposed to the country. -/
theorem compatible_reported : ¬ ∀ (host : Host) (opts : ProjectionOptions) (l : List Assertion)
    (identifiers : List SubjectIdentifier), DistinctIds l → BothOrders opts →
      ContradictionsExact host opts l identifiers := by
  intro h
  have hd : DistinctIds threePlaces := by
    rw [DistinctIds]
    decide
  have hexact := h plainHost noOptions threePlaces [] hd (by intro a b hab; cases hab)
  obtain ⟨key, a, b, ha, hb, hopposed⟩ := hexact.partners 3 2 (by decide)
  have hall : ∀ a ∈ projectedOf threePlaces, ∀ b ∈ projectedOf threePlaces, a.id = 3 → b.id = 2 →
      compatible plainHost a.assertionType a.payload b.payload = true := by decide
  have hkey : key.1 = a.assertionType :=
    congrArg Prod.fst (of_decide_eq_true (mem_filter.mp hopposed.left).2).symm
  have hcompatible := hall a (mem_of_mem_filter (mem_of_mem_filter hopposed.left)) b
    (mem_of_mem_filter (mem_of_mem_filter hopposed.right)) ha hb
  rw [← hkey, hopposed.incompatible] at hcompatible
  cases hcompatible

/-! ## Three titles -/

theorem title_transitive {host : Host} {a b c : List (JsString × JsVal)}
    (hab : compatible host .title a b = true) (hbc : compatible host .title b c = true) :
    compatible host .title a c = true := by
  unfold compatible at hab hbc ⊢
  rw [beq_iff_eq] at hab hbc ⊢
  exact hab.trans hbc

def titleOf (id : Nat) (value : String) : Assertion :=
  statedClaim id .title [(js "value", .str (js value))]

/-- Two references say one title, a third one another. -/
def threeTitles : List Assertion := [titleOf 1 "cto", titleOf 2 "cto", titleOf 3 "ceo"]

/-- The third title is reported as opposed to both others. -/
theorem contradictions_exact_titles :
    ContradictionsExact plainHost noOptions threeTitles [] ∧
      (computeProjection plainHost threeTitles [] noOptions).losing = [(3, [1, 2])] := by
  have hd : DistinctIds threeTitles := by
    rw [DistinctIds]
    decide
  refine ⟨(contradictions_exact_iff plainHost noOptions [] hd (by intro a b h; cases h)).mpr ?_,
    by decide⟩
  intro key r hwin
  have htitle : ∀ a ∈ projectedOf threeTitles, a.assertionType = .title := by decide
  have hkey : key.1 = .title := by
    obtain ⟨hr, hk⟩ := mem_filter.mp (mem_leaders hwin.leads)
    rw [← of_decide_eq_true hk]
    exact htitle r (mem_of_mem_filter hr)
  refine .of_transitive (((hd.filter _).filter _).filter _) hwin.leads ?_
  rw [hkey]
  exact fun a _ b _ c _ => title_transitive

end AramoPlatform.Intelligence
