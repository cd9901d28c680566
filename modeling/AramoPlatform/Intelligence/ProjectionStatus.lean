import AramoPlatform.Intelligence.ProjectionOrder

/-!
# What the projection reads of a status

A projection reads of an assertion's own status only whether it is retired and
whether it is disputed. So a projection whose statuses are stored computes the
same result again, and so does one that reads the rows in another order.
-/

namespace AramoPlatform.Intelligence

open Js Lib List

section Status

variable {host : Host} {opts : ProjectionOptions} {σ : Assertion → AssertionStatus}
  {l l' : List Assertion} {identifiers identifiers' : List SubjectIdentifier}

/-- The assertion under another status. -/
def withStatus (σ : Assertion → AssertionStatus) (a : Assertion) : Assertion :=
  { a with currentStatus := σ a }

@[simp] theorem withStatus_id (a : Assertion) : (withStatus σ a).id = a.id := rfl

@[simp] theorem withStatus_payload (a : Assertion) : (withStatus σ a).payload = a.payload := rfl

@[simp] theorem withStatus_currentStatus (a : Assertion) :
    (withStatus σ a).currentStatus = σ a := rfl

/-- The cluster with its members under other statuses. -/
def Cluster.withStatus (σ : Assertion → AssertionStatus) (c : Cluster) : Cluster :=
  ⟨Intelligence.withStatus σ c.rep, c.members.map (Intelligence.withStatus σ)⟩

/-! ## Clusters -/

variable (type : AssertionType)

theorem placeClaim_withStatus (a : Assertion) (cs : List Cluster) :
    placeClaim host type (withStatus σ a) (cs.map (Cluster.withStatus σ)) =
      (placeClaim host type a cs).map (Cluster.withStatus σ) := by
  induction cs with
  | nil => rfl
  | cons c rest ih =>
    rw [map_cons, placeClaim, placeClaim]
    have hsame : compatible host type (c.withStatus σ).rep.payload (withStatus σ a).payload =
        compatible host type c.rep.payload a.payload := rfl
    rw [hsame]
    split
    · simp [Cluster.withStatus]
    · rw [map_cons, ih]

theorem clusterClaims_withStatus (claims : List Assertion) :
    clusterClaims host type (claims.map (withStatus σ)) =
      (clusterClaims host type claims).map (Cluster.withStatus σ) := by
  have hsort : (claims.map (withStatus σ)).insertionSort (fun a b => strongerOrEqual a b = true) =
      (claims.insertionSort fun a b => strongerOrEqual a b = true).map (withStatus σ) :=
    (map_insertionSort (fun a b => strongerOrEqual a b = true)
      (fun a b => strongerOrEqual a b = true) (withStatus σ) claims fun a _ b _ => Iff.rfl).symm
  have hfold : ∀ (cs : List Cluster) (as : List Assertion),
      (as.map (withStatus σ)).foldl (fun out a => placeClaim host type a out)
        (cs.map (Cluster.withStatus σ)) =
      (as.foldl (fun out a => placeClaim host type a out) cs).map (Cluster.withStatus σ) := by
    intro cs as
    induction as generalizing cs with
    | nil => rfl
    | cons a rest ih => rw [map_cons, foldl_cons, placeClaim_withStatus,
        ih, foldl_cons]
  rw [clusterClaims, hsort, clusterClaims]
  exact hfold [] _

variable (c : Cluster)

@[simp] theorem sources_withStatus : (c.withStatus σ).sources = c.sources := by
  simp only [Cluster.sources, Cluster.withStatus, filter_map, map_map]
  rfl

@[simp] theorem bestVerification_withStatus :
    (c.withStatus σ).bestVerification = c.bestVerification := by
  simp only [Cluster.bestVerification, Cluster.withStatus, map_map]
  rfl

@[simp] theorem latest_withStatus : (c.withStatus σ).latest = c.latest := by
  simp only [Cluster.latest, Cluster.withStatus, map_map]
  rfl

@[simp] theorem authoritative_withStatus :
    (c.withStatus σ).authoritative = c.authoritative := by
  simp only [Cluster.authoritative, Cluster.withStatus, any_map]
  rfl

theorem beforeOrEqual_withStatus (c d : Cluster) :
    (c.withStatus σ).beforeOrEqual type (d.withStatus σ) = c.beforeOrEqual type d := by
  simp only [Cluster.beforeOrEqual, sources_withStatus, bestVerification_withStatus,
    latest_withStatus, authoritative_withStatus]
  rfl

theorem rankedClusters_withStatus (claims : List Assertion) :
    rankedClusters host type (claims.map (withStatus σ)) =
      (rankedClusters host type claims).map (Cluster.withStatus σ) := by
  rw [rankedClusters, clusterClaims_withStatus, rankedClusters]
  exact (map_insertionSort _ _ _ _ fun c _ d _ => by rw [beforeOrEqual_withStatus]).symm

variable (projected : List Assertion)

theorem rankedGroups_withStatus :
    rankedGroups host (projected.map (withStatus σ)) =
      (rankedGroups host projected).map fun g => (g.1, g.2.map (Cluster.withStatus σ)) := by
  have hclaims : (projected.map (withStatus σ)).filter (·.assertionType.hasFact) =
      (projected.filter (·.assertionType.hasFact)).map (withStatus σ) := by
    rw [filter_map]
    rfl
  have hgroup : ∀ k, (((projected.filter (·.assertionType.hasFact)).map (withStatus σ)).filter
      fun a => groupKey host a = k) =
      ((projected.filter (·.assertionType.hasFact)).filter fun a => groupKey host a = k).map
        (withStatus σ) := by
    intro k
    rw [filter_map]
    rfl
  simp only [rankedGroups, claimGroups, hclaims, hgroup, map_map]
  refine map_congr_left fun k _ => ?_
  simp only [Function.comp_apply, rankedClusters_withStatus]

/-! ## Contradictions and facts -/

theorem eligiblePartners_withStatus (winner : Cluster) (m : Assertion) :
    (eligiblePartners opts (winner.withStatus σ) (withStatus σ m)).map (·.id) =
      (eligiblePartners opts winner m).map (·.id) := by
  simp only [eligiblePartners, Cluster.withStatus, filter_map, map_map]
  rfl

theorem groupContradictions_eq (winner : Cluster) (losers : List Cluster) :
    groupContradictions opts (winner :: losers) =
      (losers.flatMap (·.members)).filterMap fun m =>
        match (eligiblePartners opts winner m).map (·.id) with
        | [] => none
        | partners => some (m.id, partners) := by
  rw [groupContradictions]
  refine filterMap_congr fun m _ => ?_
  cases eligiblePartners opts winner m <;> rfl

theorem groupContradictions_withStatus (clusters : List Cluster) :
    groupContradictions opts (clusters.map (Cluster.withStatus σ)) =
      groupContradictions opts clusters := by
  cases clusters with
  | nil => rfl
  | cons winner losers =>
    have hmembers : (losers.map (Cluster.withStatus σ)).flatMap (·.members) =
        (losers.flatMap (·.members)).map (withStatus σ) := by
      rw [flatMap_map, map_flatMap]
      rfl
    rw [map_cons, groupContradictions_eq, groupContradictions_eq, hmembers,
      filterMap_map]
    refine filterMap_congr fun m _ => ?_
    simp only [Function.comp_apply, eligiblePartners_withStatus, withStatus_id]

theorem factValue_withStatus (winner : Cluster) (stale : Bool) :
    factValue host type (winner.withStatus σ) stale = factValue host type winner stale := by
  cases type with
  | skill =>
    simp only [factValue, Cluster.withStatus, filterMap_map]
    rfl
  | _ => rfl

theorem groupFact_withStatus (key : AssertionType × JsString) (clusters : List Cluster) :
    groupFact host opts key (clusters.map (Cluster.withStatus σ)) =
      groupFact host opts key clusters := by
  cases clusters with
  | nil => rfl
  | cons winner losers =>
    have hstale : (winner.withStatus σ).members.all (isTimeStale opts) =
        winner.members.all (isTimeStale opts) := by
      simp only [Cluster.withStatus, all_map]
      rfl
    have hids : (winner.withStatus σ).members.map (·.id) = winner.members.map (·.id) := by
      simp only [Cluster.withStatus, map_map]
      rfl
    have hcontra : groupContradictions opts
        (winner.withStatus σ :: losers.map (Cluster.withStatus σ)) =
        groupContradictions opts (winner :: losers) :=
      groupContradictions_withStatus (winner :: losers)
    simp only [map_cons, groupFact, hstale, hids, hcontra, factValue_withStatus,
      bestVerification_withStatus, sources_withStatus]

theorem losingClaims_withStatus :
    losingClaims host opts (projected.map (withStatus σ)) = losingClaims host opts projected := by
  rw [losingClaims, rankedGroups_withStatus, flatMap_map, losingClaims]
  exact flatMap_congr fun g _ => groupContradictions_withStatus g.2

theorem contactFacts_withStatus (verifications : List Assertion) :
    contactFacts host identifiers (verifications.map (withStatus σ)) =
      contactFacts host identifiers verifications := by
  unfold contactFacts
  refine map_congr_left fun key _ => ?_
  simp only [filter_map, map_map]
  rfl

theorem unorderedFacts_withStatus :
    unorderedFacts host opts (projected.map (withStatus σ)) identifiers =
      unorderedFacts host opts projected identifiers := by
  rw [unorderedFacts, rankedGroups_withStatus, flatMap_map, filter_map,
    contactFacts_withStatus, unorderedFacts]
  congr 1
  exact flatMap_congr fun g _ => groupFact_withStatus g.1 g.2

/-! ## The projection -/

/-- `projected` of a view. -/
abbrev projectedOf (l : List Assertion) : List Assertion := l.filter (·.currentStatus.projected)

/-- The assertions that a view shows as contradicted. -/
def contradictedIn (host : Host) (opts : ProjectionOptions) (l : List Assertion) : List Nat :=
  (contradictionPairs (losingClaims host opts (projectedOf l))).flatMap fun c => [c.1, c.2]

theorem computeProjection_eq (l : List Assertion) (identifiers : List SubjectIdentifier) :
    computeProjection host l identifiers opts =
      { facts := (unorderedFacts host opts (projectedOf l) identifiers).insertionSort
          fun a b => a.beforeOrEqual b = true
        effectiveStatus := (projectedOf l).map fun a =>
          (a.id, statusInView opts (contradictedIn host opts l) a)
        contradictions := contradictionPairs (losingClaims host opts (projectedOf l))
        losing := losingClaims host opts (projectedOf l)
        trust := deriveTrust
          ((projectedOf l).map (withStatus (statusInView opts (contradictedIn host opts l))))
          (identifiers.filter (·.status == .active)) opts.artifactSupported opts.now } := rfl

/-- A status that keeps what the projection reads of it. -/
structure KeepsAxis (σ : Assertion → AssertionStatus) (l : List Assertion) : Prop where
  projected : ∀ a ∈ l, (σ a).projected = a.currentStatus.projected
  disputed : ∀ a ∈ l, σ a = .disputed ↔ a.currentStatus = .disputed

theorem projectedOf_withStatus (h : KeepsAxis σ l) :
    projectedOf (l.map (withStatus σ)) = (projectedOf l).map (withStatus σ) := by
  rw [projectedOf, filter_map]
  congr 1
  exact filter_congr fun a ha => h.projected a ha

theorem statusInView_withStatus (h : KeepsAxis σ l) {a : Assertion} (ha : a ∈ l)
    (contradicted : List Nat) :
    statusInView opts contradicted (withStatus σ a) = statusInView opts contradicted a := by
  rw [statusInView, statusInView, withStatus_currentStatus]
  by_cases hdis : a.currentStatus = .disputed
  · rw [if_pos hdis, if_pos ((h.disputed a ha).mpr hdis)]
  · rw [if_neg hdis, if_neg fun hs => hdis ((h.disputed a ha).mp hs)]
    rfl

/-- **The projection reads of a status only its axis.** -/
theorem computeProjection_withStatus (h : KeepsAxis σ l) :
    computeProjection host (l.map (withStatus σ)) identifiers opts =
      computeProjection host l identifiers opts := by
  have hcontra : contradictedIn host opts (l.map (withStatus σ)) = contradictedIn host opts l := by
    rw [contradictedIn, projectedOf_withStatus h, losingClaims_withStatus, contradictedIn]
  have hview : ∀ a ∈ projectedOf l,
      statusInView opts (contradictedIn host opts l) (withStatus σ a) =
        statusInView opts (contradictedIn host opts l) a := fun a ha =>
    statusInView_withStatus h (mem_of_mem_filter ha) _
  rw [computeProjection_eq, computeProjection_eq, hcontra, projectedOf_withStatus h,
    unorderedFacts_withStatus, losingClaims_withStatus, map_map, map_map]
  congr 1
  · refine map_congr_left fun a ha => ?_
    simp only [Function.comp_apply, withStatus_id, hview a ha]
  · congr 1
    refine map_congr_left fun a ha => ?_
    have hone : withStatus (statusInView opts (contradictedIn host opts l)) (withStatus σ a) =
        { a with currentStatus :=
          statusInView opts (contradictedIn host opts l) (withStatus σ a) } :=
      rfl
    rw [Function.comp_apply, hone, hview a ha]
    rfl

/-! ## Rows in another order -/

/-- The same statuses, partners and trust, and the same contradictions. -/
structure SameView (r r' : ProjectionResult) : Prop where
  statusOf : ∀ id, r.statusOf id = r'.statusOf id
  partnersOf : ∀ id, r.partnersOf id = r'.partnersOf id
  contradictions : ∀ pair, pair ∈ r.contradictions ↔ pair ∈ r'.contradictions
  trust : r.trust = r'.trust

/-- The same view with the same facts in the same order. -/
structure SameProjection (r r' : ProjectionResult) : Prop extends SameView r r' where
  facts : r.facts = r'.facts

theorem statusOf_eq_some (hd : DistinctIds l) {id : Nat} {s : AssertionStatus} :
    (computeProjection host l identifiers opts).statusOf id = some s ↔
      ∃ a ∈ projectedOf l, a.id = id ∧ statusInView opts (contradictedIn host opts l) a = s := by
  have hd' : DistinctIds (projectedOf l) := hd.filter _
  rw [computeProjection_eq, ProjectionResult.statusOf, find?_map, Option.map_map,
    Option.map_eq_some_iff]
  constructor
  · rintro ⟨a, hfind, rfl⟩
    have hid := find?_some hfind
    exact ⟨a, mem_of_find?_eq_some hfind, by simpa using hid, rfl⟩
  · rintro ⟨a, ha, rfl, rfl⟩
    cases hfind : (projectedOf l).find? ((fun e : Nat × AssertionStatus => e.1 == a.id) ∘
        fun a => (a.id, statusInView opts (contradictedIn host opts l) a)) with
    | none =>
      have hnone := find?_eq_none.mp hfind a ha
      simp at hnone
    | some b =>
      have hid := find?_some hfind
      have hba := hd'.eq_of_id (mem_of_find?_eq_some hfind) ha (by simpa using hid)
      subst hba
      exact ⟨b, rfl, rfl⟩

theorem mem_contradictedIn_perm (hp : l.Perm l') (hd : DistinctIds l) (id : Nat) :
    id ∈ contradictedIn host opts l ↔ id ∈ contradictedIn host opts l' := by
  have hlosing : (losingClaims host opts (projectedOf l)).Perm
      (losingClaims host opts (projectedOf l')) := losingClaims_perm (hp.filter _) (hd.filter _)
  exact ((hlosing.filterMap _).flatMap_right _).mem_iff

theorem sameView_perm (hp : l.Perm l') (hd : DistinctIds l) (hi : identifiers.Perm identifiers') :
    SameView (computeProjection host l identifiers opts)
      (computeProjection host l' identifiers' opts) := by
  have hprojected : (projectedOf l).Perm (projectedOf l') := hp.filter _
  have hd' : DistinctIds l' := (hp.map _).nodup_iff.mp hd
  have hlosing : (losingClaims host opts (projectedOf l)).Perm
      (losingClaims host opts (projectedOf l')) := losingClaims_perm hprojected (hd.filter _)
  have hview : ∀ a, statusInView opts (contradictedIn host opts l) a =
      statusInView opts (contradictedIn host opts l') a :=
    statusInView_congr (mem_contradictedIn_perm hp hd)
  constructor
  · intro id
    refine Option.ext fun s => ?_
    rw [statusOf_eq_some hd, statusOf_eq_some hd']
    simp only [hview, hprojected.mem_iff]
  · intro id
    refine uniq_congr fun x => ?_
    exact (hlosing.flatMap_right _).mem_iff
  · intro pair
    exact (hlosing.filterMap _).mem_iff
  · rw [computeProjection_eq, computeProjection_eq]
    have hfun : withStatus (statusInView opts (contradictedIn host opts l)) =
        withStatus (statusInView opts (contradictedIn host opts l')) := by
      funext a
      rw [withStatus, withStatus, hview a]
    rw [hfun]
    exact deriveTrust_perm (hprojected.map _) (hi.filter _)

theorem facts_perm (hp : l.Perm l') (hd : DistinctIds l) (hi : identifiers.Perm identifiers') :
    (computeProjection host l identifiers opts).facts.Perm
      (computeProjection host l' identifiers' opts).facts := by
  rw [computeProjection_eq, computeProjection_eq]
  exact (perm_insertionSort _ _).trans
    ((unorderedFacts_perm (hp.filter _) (hd.filter _) hi).trans (perm_insertionSort _ _).symm)

/-- **The projection is a function of the set of its rows.** -/
theorem computeProjection_perm (hp : l.Perm l') (hd : DistinctIds l)
    (hi : identifiers.Perm identifiers') (htell : StoredKeysTell host (projectedOf l)) :
    SameProjection (computeProjection host l identifiers opts)
      (computeProjection host l' identifiers' opts) where
  toSameView := sameView_perm hp hd hi
  facts := orderedFacts_perm (hp.filter _) (hd.filter _) hi htell

/-! ## Options that say the same -/

/-- The same instant, freshness, supported assertions and reconciled pairs. -/
structure SameOptions (opts opts' : ProjectionOptions) : Prop where
  now : opts.now = opts'.now
  freshness : opts.availabilityFreshnessDays = opts'.availabilityFreshnessDays
  supported : ∀ id, id ∈ opts.artifactSupported ↔ id ∈ opts'.artifactSupported
  reconciled : ∀ pair, pair ∈ opts.reconciled ↔ pair ∈ opts'.reconciled

theorem deriveTrust_supported {supported supported' : List Nat} {now : Nat}
    (h : ∀ id, id ∈ supported ↔ id ∈ supported') :
    deriveTrust l identifiers supported now = deriveTrust l identifiers supported' now := by
  have hcontains : ∀ a : Assertion, supported.contains a.id = supported'.contains a.id := by
    intro a
    rw [Bool.eq_iff_iff, contains_iff_mem, contains_iff_mem, h]
  simp only [deriveTrust, deriveBand, hcontains]

theorem computeProjection_options {opts' : ProjectionOptions} (h : SameOptions opts opts') :
    computeProjection host l identifiers opts = computeProjection host l identifiers opts' := by
  have hstale : isTimeStale opts = isTimeStale opts' := by
    funext a
    rw [isTimeStale, isTimeStale, h.now, h.freshness]
  have heligible : eligiblePartners opts = eligiblePartners opts' := by
    funext winner m
    have hcontains : ∀ w : Assertion, opts.reconciled.contains (m.id, w.id) =
        opts'.reconciled.contains (m.id, w.id) := by
      intro w
      rw [Bool.eq_iff_iff, contains_iff_mem, contains_iff_mem, h.reconciled]
    simp only [eligiblePartners, hcontains]
  have hcontra : groupContradictions opts = groupContradictions opts' := by
    funext clusters
    cases clusters with
    | nil => rfl
    | cons winner losers => rw [groupContradictions_eq, groupContradictions_eq, heligible]
  have hfact : groupFact host opts = groupFact host opts' := by
    funext key clusters
    cases clusters with
    | nil => rfl
    | cons winner losers => simp only [groupFact, hstale, hcontra]
  have hfacts : unorderedFacts host opts (projectedOf l) identifiers =
      unorderedFacts host opts' (projectedOf l) identifiers := by
    rw [unorderedFacts, unorderedFacts, hfact]
  have hlosing : losingClaims host opts (projectedOf l) =
    losingClaims host opts' (projectedOf l) := by
    rw [losingClaims, losingClaims, hcontra]
  have hin : contradictedIn host opts l = contradictedIn host opts' l := by
    rw [contradictedIn, contradictedIn, hlosing]
  have hview : statusInView opts = statusInView opts' := by
    funext contradicted a
    rw [statusInView, statusInView, hstale]
  rw [computeProjection_eq, computeProjection_eq, hfacts, hlosing, hin, hview, h.now,
    deriveTrust_supported h.supported]

end Status

end AramoPlatform.Intelligence
