import AramoPlatform.Intelligence.Projection
import AramoPlatform.Js.KeyOrder
import Mathlib.Data.List.Perm.Basic
import Mathlib.Data.List.TakeWhile

/-!
# The projection does not depend on the order of its rows

Rows arrive ordered by their creation time only, so that rows of one time have
no order. Every sort of the projection ends in an id or in the key of a fact:
what is computed from rows with distinct ids depends on the set of rows. The
one exception is a pair of fact keys that differ only behind a NUL character,
which the grouping cuts off; PostgreSQL stores no such text.
-/

namespace AramoPlatform.Intelligence

open Js Lib List

/-! ## The comparisons are orders -/

theorem strLe_eq_unitsLe (a b : JsString) : strLe a b = unitsLe a b := by
  induction a generalizing b with
  | nil => cases b <;> rfl
  | cons u a ih =>
    cases b with
    | nil => rfl
    | cons v b => rw [strLe, unitsLe, ih]

theorem strLe_antisymm {a b : JsString} (h : strLe a b = true) (h' : strLe b a = true) : a = b := by
  rw [strLe_eq_unitsLe] at h h'
  exact unitsLe_antisymm h h'

instance : Std.Total fun a b : JsString => strLe a b = true := ⟨fun a b => by
  rw [strLe_eq_unitsLe, strLe_eq_unitsLe]
  exact unitsLe_total a b⟩

instance : IsTrans JsString fun a b => strLe a b = true := ⟨fun a b c h h' => by
  rw [strLe_eq_unitsLe] at h h' ⊢
  exact unitsLe_trans h h'⟩

theorem strongerOrEqual_iff {a b : Assertion} :
    strongerOrEqual a b = true ↔
      lexLe (fun a : Assertion => OrderDual.toDual a.verificationStatus.order)
        (lexLe (fun a : Assertion => OrderDual.toDual a.observedAt) fun a b =>
          a.id ≤ b.id) a b := by
  simp only [strongerOrEqual, lexLe, OrderDual.toDual_lt_toDual, OrderDual.toDual_inj]
  grind

instance : Std.Total fun a b : Assertion => strongerOrEqual a b = true := ⟨fun a b => by
  simp only [strongerOrEqual_iff]
  exact lexLe_total (lexLe_total fun a b => Nat.le_total a.id b.id) a b⟩

instance : IsTrans Assertion fun a b => strongerOrEqual a b = true := ⟨fun a b c h h' => by
  rw [strongerOrEqual_iff] at h h' ⊢
  refine lexLe_trans (fun _ _ _ => lexLe_trans fun a b c hab hbc => ?_) h h'
  exact Nat.le_trans hab hbc⟩

theorem id_eq_of_tie {a b : Assertion} (h : strongerOrEqual a b = true)
    (h' : strongerOrEqual b a = true) : a.id = b.id := by
  rw [strongerOrEqual_iff] at h h'
  obtain ⟨-, h, h'⟩ := lexLe_tie h h'
  obtain ⟨-, h, h'⟩ := lexLe_tie h h'
  exact Nat.le_antisymm h h'

theorem cluster_beforeOrEqual_iff {type : AssertionType} {a b : Cluster} :
    a.beforeOrEqual type b = true ↔
      lexLe (fun c : Cluster => OrderDual.toDual
          (if type = .workAuthorization then c.authoritative.toNat else 0))
        (lexLe (fun c : Cluster => OrderDual.toDual c.bestVerification)
          (lexLe (fun c : Cluster => OrderDual.toDual
              (if type = .availability then 0 else c.sources))
            (lexLe (fun c : Cluster => OrderDual.toDual c.latest)
              fun a b => a.rep.id ≤ b.rep.id))) a b := by
  simp only [Cluster.beforeOrEqual, lexLe, OrderDual.toDual_lt_toDual, OrderDual.toDual_inj]
  cases a.authoritative <;> cases b.authoritative <;>
    by_cases hwork : type = .workAuthorization <;> by_cases hav : type = .availability <;>
      simp [hwork, hav] <;> grind

instance (type : AssertionType) : Std.Total fun a b : Cluster => a.beforeOrEqual type b = true :=
  ⟨fun a b => by
    simp only [cluster_beforeOrEqual_iff]
    exact lexLe_total (lexLe_total (lexLe_total (lexLe_total fun a b =>
      Nat.le_total a.rep.id b.rep.id))) a b⟩

instance (type : AssertionType) : IsTrans Cluster fun a b => a.beforeOrEqual type b = true :=
  ⟨fun a b c h h' => by
    rw [cluster_beforeOrEqual_iff] at h h' ⊢
    refine lexLe_trans (fun _ _ _ => lexLe_trans fun _ _ _ => lexLe_trans fun _ _ _ =>
      lexLe_trans fun a b c hab hbc => ?_) h h'
    exact Nat.le_trans hab hbc⟩

theorem rep_id_eq_of_tie {type : AssertionType} {a b : Cluster} (h : a.beforeOrEqual type b = true)
    (h' : b.beforeOrEqual type a = true) : a.rep.id = b.rep.id := by
  rw [cluster_beforeOrEqual_iff] at h h'
  obtain ⟨-, h, h'⟩ := lexLe_tie h h'
  obtain ⟨-, h, h'⟩ := lexLe_tie h h'
  obtain ⟨-, h, h'⟩ := lexLe_tie h h'
  obtain ⟨-, h, h'⟩ := lexLe_tie h h'
  exact Nat.le_antisymm h h'

theorem fact_beforeOrEqual_iff {a b : ProjectedFact} :
    a.beforeOrEqual b = true ↔
      lexLe (fun f : ProjectedFact => f.factType.order)
        (lexLe (fun f : ProjectedFact => OrderDual.toDual (f.flag (js "verified")).toNat)
          (lexLe (fun f : ProjectedFact => OrderDual.toDual (f.flag (js "primary")).toNat)
            fun a b => strLe a.factKey b.factKey = true)) a b := by
  simp only [ProjectedFact.beforeOrEqual, lexLe, OrderDual.toDual_lt_toDual, OrderDual.toDual_inj]
  cases a.flag (js "verified") <;> cases b.flag (js "verified") <;>
    cases a.flag (js "primary") <;> cases b.flag (js "primary") <;> simp <;> grind

instance : Std.Total fun a b : ProjectedFact => a.beforeOrEqual b = true := ⟨fun a b => by
  simp only [fact_beforeOrEqual_iff]
  exact lexLe_total (lexLe_total (lexLe_total fun a b =>
    Std.Total.total (r := fun s t : JsString => strLe s t = true) a.factKey b.factKey)) a b⟩

instance : IsTrans ProjectedFact fun a b => a.beforeOrEqual b = true := ⟨fun a b c h h' => by
  rw [fact_beforeOrEqual_iff] at h h' ⊢
  refine lexLe_trans (fun _ _ _ => lexLe_trans fun _ _ _ =>
    lexLe_trans fun a b c hab hbc => ?_) h h'
  exact IsTrans.trans (r := fun s t : JsString => strLe s t = true) _ _ _ hab hbc⟩

theorem key_eq_of_tie {a b : ProjectedFact} (h : a.beforeOrEqual b = true)
    (h' : b.beforeOrEqual a = true) :
    a.factType.order = b.factType.order ∧ a.factKey = b.factKey := by
  rw [fact_beforeOrEqual_iff] at h h'
  obtain ⟨horder, h, h'⟩ := lexLe_tie h h'
  obtain ⟨-, h, h'⟩ := lexLe_tie h h'
  obtain ⟨-, h, h'⟩ := lexLe_tie h h'
  exact ⟨horder, strLe_antisymm h h'⟩

/-! ## Groups -/

section Projection

variable {host : Host} {opts : ProjectionOptions} {l l' : List Assertion}
  {identifiers identifiers' : List SubjectIdentifier}

/-- The ids of some assertions are distinct. -/
def DistinctIds (l : List Assertion) : Prop := (l.map (·.id)).Nodup

theorem DistinctIds.filter (h : DistinctIds l) (p : Assertion → Bool) : DistinctIds (l.filter p) :=
  h.sublist (filter_sublist.map _)

theorem DistinctIds.eq_of_id (h : DistinctIds l) {a b : Assertion} (ha : a ∈ l) (hb : b ∈ l)
    (hid : a.id = b.id) : a = b :=
  inj_on_of_nodup_map h ha hb hid

theorem rankedClusters_perm (hp : l.Perm l') (hd : DistinctIds l) (type : AssertionType) :
    rankedClusters host type l = rankedClusters host type l' := by
  rw [rankedClusters, rankedClusters, clusterClaims, clusterClaims,
    insertionSort_eq_of_perm hp fun a ha b hb h h' => hd.eq_of_id ha hb (id_eq_of_tie h h')]

/-- The groups of the projected claims with their clusters, winners first. -/
def rankedGroups (host : Host) (projected : List Assertion) :
    List ((AssertionType × JsString) × List Cluster) :=
  (claimGroups host projected).map fun g => (g.1, rankedClusters host g.1.1 g.2)

/-- The claims under one key. -/
abbrev claimsOf (host : Host) (projected : List Assertion) (k : AssertionType × JsString) :
    List Assertion :=
  (projected.filter (·.assertionType.hasFact)).filter fun a => groupKey host a = k

theorem mem_rankedGroups {g : (AssertionType × JsString) × List Cluster} :
    g ∈ rankedGroups host l ↔ (∃ a ∈ l, a.assertionType.hasFact = true ∧ groupKey host a = g.1) ∧
      g.2 = rankedClusters host g.1.1 (claimsOf host l g.1) := by
  obtain ⟨k, clusters⟩ := g
  simp only [rankedGroups, claimGroups, map_map, mem_map, mem_reverse,
    mem_dedup, mem_filter, Function.comp_apply, Prod.mk.injEq]
  constructor
  · rintro ⟨_, ⟨a, ⟨ha, hfact⟩, rfl⟩, rfl, rfl⟩
    exact ⟨⟨a, ha, hfact, rfl⟩, rfl⟩
  · rintro ⟨⟨a, ha, hfact, rfl⟩, rfl⟩
    exact ⟨_, ⟨a, ⟨ha, hfact⟩, rfl⟩, rfl, rfl⟩

theorem rankedGroups_perm (hp : l.Perm l') (hd : DistinctIds l) :
    (rankedGroups host l).Perm (rankedGroups host l') := by
  have hclaims : (l.filter (·.assertionType.hasFact)).Perm (l'.filter (·.assertionType.hasFact)) :=
    hp.filter _
  have hkeys : ((l.filter (·.assertionType.hasFact)).map (groupKey host)).reverse.dedup.reverse.Perm
      ((l'.filter (·.assertionType.hasFact)).map (groupKey host)).reverse.dedup.reverse := by
    have hmap := hclaims.map (groupKey host)
    exact (reverse_perm _).trans ((((reverse_perm _).trans
      (hmap.trans (reverse_perm _).symm)).dedup).trans (reverse_perm _).symm)
  simp only [rankedGroups, claimGroups, map_map]
  refine (hkeys.map _).trans (List.Perm.of_eq (map_congr_left fun k _ => ?_))
  simp only [Function.comp_apply, Prod.mk.injEq, true_and]
  exact rankedClusters_perm (hclaims.filter _) ((hd.filter _).filter _) k.1

/-! ## Contradictions, statuses and partners -/

/-- The losing claims of a view with the members they contradict. -/
def losingClaims (host : Host) (opts : ProjectionOptions) (projected : List Assertion) :
    List (Nat × List Nat) :=
  (rankedGroups host projected).flatMap fun g => groupContradictions opts g.2

def contradictionPairs (losing : List (Nat × List Nat)) : List (Nat × Nat) :=
  losing.filterMap fun l => l.2.head?.map fun w => (l.1, w)

theorem losingClaims_perm (hp : l.Perm l') (hd : DistinctIds l) :
    (losingClaims host opts l).Perm (losingClaims host opts l') :=
  (rankedGroups_perm hp hd).flatMap_right _

theorem statusInView_congr {contradicted contradicted' : List Nat}
    (h : ∀ id, id ∈ contradicted ↔ id ∈ contradicted') (a : Assertion) :
    statusInView opts contradicted a = statusInView opts contradicted' a := by
  have hcontains : contradicted.contains a.id = contradicted'.contains a.id := by
    rw [Bool.eq_iff_iff, contains_iff_mem, contains_iff_mem, h]
  rw [statusInView, statusInView, hcontains]

/-! ## Trust -/

theorem any_perm {α : Type} {p : α → Bool} {xs ys : List α} (h : xs.Perm ys) :
    xs.any p = ys.any p := by
  rw [Bool.eq_iff_iff, any_eq_true, any_eq_true]
  exact exists_congr fun x => and_congr_left fun _ => h.mem_iff

theorem deriveBand_perm {dimension : TrustDimension} {supported : List Nat} (hp : l.Perm l')
    (hi : identifiers.Perm identifiers') :
    deriveBand dimension l supported identifiers =
      deriveBand dimension l' supported identifiers' := by
  have hvalid : (l.filter fun a => a.currentStatus == .valid && dimensionOf a == dimension).Perm
      (l'.filter fun a => a.currentStatus == .valid && dimensionOf a == dimension) := hp.filter _
  unfold deriveBand
  dsimp only
  rw [hvalid.isEmpty_eq, any_perm hi, any_perm hp]
  split
  · rfl
  · split
    · rw [(((hvalid.filter _).filter _).map independenceKey).dedup.length_eq,
        any_perm (hvalid.filter _),
        ((hvalid.filter _).filter _).isEmpty_eq, any_perm ((hvalid.filter _).filter _)]
    · rw [((hvalid.filter _).map independenceKey).dedup.length_eq, any_perm hvalid,
        (hvalid.filter _).isEmpty_eq, any_perm (hvalid.filter _)]

theorem deriveTrust_perm {supported : List Nat} {now : Nat} (hp : l.Perm l')
    (hi : identifiers.Perm identifiers') :
    deriveTrust l identifiers supported now = deriveTrust l' identifiers' supported now := by
  unfold deriveTrust
  dsimp only
  rw [deriveBand_perm hp hi, deriveBand_perm hp hi, deriveBand_perm hp hi, deriveBand_perm hp hi,
    hp.countP_eq, hp.countP_eq, any_perm hp, (((hp.filter _).map independenceKey).dedup).length_eq,
    any_perm hp]

/-! ## Facts -/

theorem contactFacts_perm {verifications verifications' : List Assertion}
    (hi : identifiers.Perm identifiers') (hv : verifications.Perm verifications') :
    (contactFacts host identifiers verifications).Perm
      (contactFacts host identifiers' verifications') := by
  have hcontacts := hi.filter fun i => i.status == .active && i.key.identifierType != .govId
  have hkeys := ((((reverse_perm _).trans ((hcontacts.map (·.key)).trans
    (reverse_perm _).symm)).dedup).trans (reverse_perm _).symm)
  unfold contactFacts
  refine (((reverse_perm _).trans hkeys).map _).trans
    (List.Perm.of_eq (map_congr_left fun key _ => ?_))
  have hrows := hcontacts.filter fun i => i.key == key
  have hids : ((verifications.filter fun a => stringMember a.payload (js "identifier_digest") ==
      some (identifierDigest host key)).map (·.id)).insertionSort (· ≤ ·) =
      ((verifications'.filter fun a => stringMember a.payload (js "identifier_digest") ==
        some (identifierDigest host key)).map (·.id)).insertionSort (· ≤ ·) :=
    insertionSort_eq_of_perm ((hv.filter _).map _) fun a _ b _ => Nat.le_antisymm
  dsimp only
  rw [any_perm hrows, any_perm hrows, (hrows.map (·.sourceReferenceId)).dedup.length_eq, hids]

/-- The facts of a view before they are put in order. -/
def unorderedFacts (host : Host) (opts : ProjectionOptions) (projected : List Assertion)
    (identifiers : List SubjectIdentifier) : List ProjectedFact :=
  ((rankedGroups host projected).flatMap fun g => groupFact host opts g.1 g.2) ++
    contactFacts host identifiers (projected.filter fun a =>
      a.assertionType == .verificationOutcome && a.sourceKind == .verification)

theorem unorderedFacts_perm (hp : l.Perm l') (hd : DistinctIds l)
    (hi : identifiers.Perm identifiers') :
    (unorderedFacts host opts l identifiers).Perm (unorderedFacts host opts l' identifiers') :=
  ((rankedGroups_perm hp hd).flatMap_right _).append (contactFacts_perm hi (hp.filter _))

/-- The key of a claim's fact, as it is stored. -/
def storedKey (host : Host) (a : Assertion) : JsString := (groupKey host a).2.takeWhile (· ≠ 0)

/-- No two claims of one type have fact keys that differ only behind a NUL. -/
def StoredKeysTell (host : Host) (l : List Assertion) : Prop :=
  ∀ a ∈ l, ∀ b ∈ l, a.assertionType.hasFact = true → a.assertionType = b.assertionType →
    storedKey host a = storedKey host b → groupKey host a = groupKey host b

theorem storedKeysTell_of_no_nul (h : ∀ a ∈ l, (0 : UInt16) ∉ (groupKey host a).2) :
    StoredKeysTell host l := by
  have hstored : ∀ a ∈ l, storedKey host a = (groupKey host a).2 := by
    intro a ha
    refine takeWhile_eq_self_iff.mpr fun u hu => ?_
    simpa using fun h0 : u = 0 => h a ha (h0 ▸ hu)
  intro a ha b hb _ htype hkey
  rw [hstored a ha, hstored b hb] at hkey
  exact Prod.ext htype hkey

theorem FactType.eq_of_order {x y : FactType} (h : x.order = y.order) (hx : x.order ≠ 99) :
    x = y := by
  cases x with
  | claim s =>
    cases y with
    | claim t =>
      cases s <;> cases t <;> first | rfl | exact absurd rfl hx | exact absurd h (by decide)
    | contact t =>
      cases s <;> cases t <;> first | exact absurd rfl hx | exact absurd h (by decide)
  | contact s =>
    cases y with
    | claim t =>
      cases s <;> cases t <;> first | exact absurd rfl hx | exact absurd h (by decide)
    | contact t =>
      cases s <;> cases t <;> first | rfl | exact absurd rfl hx | exact absurd h (by decide)

theorem groupFact_fields {k : AssertionType × JsString} {clusters : List Cluster}
    {f : ProjectedFact} (h : f ∈ groupFact host opts k clusters) :
    f.factType = .claim k.1 ∧ f.factKey = k.2.takeWhile (· ≠ 0) ∧
      groupFact host opts k clusters = [f] := by
  cases clusters with
  | nil => cases h
  | cons winner losers =>
    obtain rfl := mem_singleton.mp h
    exact ⟨rfl, rfl, rfl⟩

theorem mem_contactFacts {verifications : List Assertion} {f : ProjectedFact}
    (h : f ∈ contactFacts host identifiers verifications) :
    ∃ i ∈ identifiers, i.key.identifierType ≠ .govId ∧
      f.factType = .contact i.key.identifierType ∧ f.factKey = i.key.normalizedValue := by
  unfold contactFacts at h
  simp only [mem_map, mem_reverse, mem_dedup, mem_filter, Bool.and_eq_true,
    beq_iff_eq, bne_iff_ne, ne_eq] at h
  obtain ⟨key, ⟨i, ⟨hi, -, hgov⟩, rfl⟩, rfl⟩ := h
  exact ⟨i, hi, hgov, rfl, rfl⟩

theorem contactFacts_key_injective {verifications : List Assertion} {f g : ProjectedFact}
    (hf : f ∈ contactFacts host identifiers verifications)
    (hg : g ∈ contactFacts host identifiers verifications) (htype : f.factType = g.factType)
    (hkey : f.factKey = g.factKey) : f = g := by
  unfold contactFacts at hf hg
  obtain ⟨⟨t, v⟩, -, rfl⟩ := mem_map.mp hf
  obtain ⟨⟨t', v'⟩, -, rfl⟩ := mem_map.mp hg
  simp only [FactType.contact.injEq] at htype hkey
  subst htype hkey
  rfl

/-- **A type and a stored key name one fact.** -/
theorem fact_eq_of_key (htell : StoredKeysTell host l) {f g : ProjectedFact}
    (hf : f ∈ unorderedFacts host opts l identifiers) (hg :
      g ∈ unorderedFacts host opts l identifiers)
    (htype : f.factType = g.factType) (hkey : f.factKey = g.factKey) : f = g := by
  rcases mem_append.mp hf with hf | hf
  · obtain ⟨gf, hgf, hf⟩ := mem_flatMap.mp hf
    obtain ⟨hftype, hfkey, hfonly⟩ := groupFact_fields hf
    rcases mem_append.mp hg with hg | hg
    · obtain ⟨gg, hgg, hg⟩ := mem_flatMap.mp hg
      obtain ⟨hgtype, hgkey, hgonly⟩ := groupFact_fields hg
      obtain ⟨⟨a, ha, hafact, hak⟩, hfc⟩ := mem_rankedGroups.mp hgf
      obtain ⟨⟨b, hb, -, hbk⟩, hgc⟩ := mem_rankedGroups.mp hgg
      rw [hftype, hgtype, FactType.claim.injEq, ← hak, ← hbk] at htype
      rw [hfkey, hgkey, ← hak, ← hbk] at hkey
      -- both claims stand in one group
      have hgroup : gf.1 = gg.1 := by rw [← hak, ← hbk, htell a ha b hb hafact htype hkey]
      have hgf' : gf = gg := Prod.ext hgroup (by rw [hfc, hgc, hgroup])
      subst hgf'
      rw [hfonly] at hgonly
      exact singleton_inj.mp hgonly
    · obtain ⟨i, -, -, hgtype, -⟩ := mem_contactFacts hg
      rw [hftype, hgtype] at htype
      cases htype
  · rcases mem_append.mp hg with hg | hg
    · obtain ⟨gg, -, hg⟩ := mem_flatMap.mp hg
      obtain ⟨hgtype, -, -⟩ := groupFact_fields hg
      obtain ⟨i, -, -, hftype, -⟩ := mem_contactFacts hf
      rw [hftype, hgtype] at htype
      cases htype
    · exact contactFacts_key_injective hf hg htype hkey

theorem order_ne_of_mem {f : ProjectedFact} (hf : f ∈ unorderedFacts host opts l identifiers) :
    f.factType.order ≠ 99 := by
  rcases mem_append.mp hf with hf | hf
  · obtain ⟨g, hg, hf⟩ := mem_flatMap.mp hf
    obtain ⟨htype, -, -⟩ := groupFact_fields hf
    obtain ⟨⟨a, -, hfact, hk⟩, -⟩ := mem_rankedGroups.mp hg
    have hfact' : g.1.1.hasFact = true := hk ▸ hfact
    rw [htype]
    cases ht : g.1.1 <;> first | decide | (rw [ht] at hfact'; cases hfact')
  · obtain ⟨i, -, hgov, htype, -⟩ := mem_contactFacts hf
    rw [htype]
    cases ht : i.key.identifierType <;> first | decide | exact absurd ht hgov

theorem orderedFacts_perm (hp : l.Perm l') (hd : DistinctIds l)
    (hi : identifiers.Perm identifiers') (htell : StoredKeysTell host l) :
    (unorderedFacts host opts l identifiers).insertionSort (fun a b => a.beforeOrEqual b = true) =
      (unorderedFacts host opts l' identifiers').insertionSort
        fun a b => a.beforeOrEqual b = true := by
  refine insertionSort_eq_of_perm (unorderedFacts_perm hp hd hi) fun f hf g hg h h' => ?_
  obtain ⟨horder, hkey⟩ := key_eq_of_tie h h'
  exact fact_eq_of_key htell hf hg (FactType.eq_of_order horder (order_ne_of_mem hf)) hkey

end Projection

end AramoPlatform.Intelligence
