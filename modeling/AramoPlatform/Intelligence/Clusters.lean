import AramoPlatform.Intelligence.ProjectionOrder
import AramoPlatform.Lib.FirstFit

/-!
# The clusters of a fact

Claims are grouped in the order of their strength, each with the first leader
that it is compatible with. The representative of a cluster is its strongest
member, every member is compatible with it, and the clusters of a fact share out
its claims. Two members of one cluster need not be compatible, nor a member and
a claim of another cluster incompatible.
-/

namespace AramoPlatform.Intelligence

open Js Lib List

/-! ## Compatibility is reflexive and symmetric -/

theorem mem_intersperse {α : Type} {sep x : α} {l : List α} (h : x ∈ l) :
    x ∈ l.intersperse sep := by
  induction l with
  | nil => cases h
  | cons y rest ih =>
    cases rest with
    | nil => exact h
    | cons z rest =>
      rw [intersperse_cons_cons]
      rcases mem_cons.mp h with rfl | h
      · exact mem_cons_self
      · exact mem_cons_of_mem _ (mem_cons_of_mem _ (ih h))

theorem fullNames_ne_nil {n : NameSnapshot} (h : n.hasName = true) : n.fullNames ≠ [] := by
  have hpart : ∀ {s : Option JsString}, NameSnapshot.part s = true → s ∈ [n.first, n.last] →
      ((([n.first, n.last].filterMap id).filter fun t => t ≠ []).intersperse
        (js " ")).flatten ≠ [] := by
    intro s hs hmem hnil
    cases s with
    | none => cases hs
    | some t =>
      have ht : t ≠ [] := by simpa [NameSnapshot.part] using hs
      have hin : t ∈ ([n.first, n.last].filterMap id).filter fun t => t ≠ [] :=
        mem_filter.mpr ⟨mem_filterMap.mpr ⟨some t, hmem, rfl⟩, by simpa using ht⟩
      exact ht (flatten_eq_nil_iff.mp hnil t (mem_intersperse hin))
  have hfull : ∀ {s : Option JsString}, NameSnapshot.part s = true → s ∈ [n.first, n.last] →
      n.fullNames ≠ [] := by
    intro s hs hmem hnil
    unfold NameSnapshot.fullNames at hnil
    dsimp only at hnil
    rw [dedup_eq_nil, append_eq_nil_iff, if_neg (hpart hs hmem)] at hnil
    cases hnil.2
  unfold NameSnapshot.hasName at h
  rw [Bool.or_eq_true, Bool.or_eq_true] at h
  rcases h with (h | h) | h
  · exact hfull h mem_cons_self
  · exact hfull h (mem_cons_of_mem _ mem_cons_self)
  · intro hnil
    unfold NameSnapshot.fullNames at hnil
    dsimp only at hnil
    rw [dedup_eq_nil, append_eq_nil_iff] at hnil
    rw [hnil.1] at h
    cases h

theorem compatible_self (host : Host) (type : AssertionType) (p : List (JsString × JsVal)) :
    compatible host type p p = true := by
  have hdiffer : ∀ s : JsString, differ s s = false := by
    intro s
    simp [differ]
  have hmatch : ∀ n : NameSnapshot, n.conflict n = false := by
    intro n
    unfold NameSnapshot.conflict
    cases hname : n.hasName with
    | false => rfl
    | true =>
      obtain ⟨x, hx⟩ := exists_mem_of_ne_nil _ (fullNames_ne_nil hname)
      have hany : (n.fullNames.any fun x => n.fullNames.contains x) = true :=
        any_eq_true.mpr ⟨x, hx, contains_iff_mem.mpr hx⟩
      simp only [NameSnapshot.namesMatch, hany]
      simp
  cases type <;> simp [compatible, hdiffer, hmatch]

theorem differ_comm (a b : JsString) : differ a b = differ b a := by
  unfold differ
  rw [Bool.and_comm (decide (a ≠ [])), decide_eq_decide.mpr (ne_comm (a := a) (b := b))]

theorem firstCompatible_comm (a b : Option JsString) :
    NameSnapshot.firstCompatible a b = NameSnapshot.firstCompatible b a := by
  cases a with
  | none => cases b <;> rfl
  | some a =>
    cases b with
    | none => rfl
    | some b =>
      have hstart : (if a.length = 1 ∨ b.length = 1 then a.head? == b.head?
          else b.isPrefixOf a || a.isPrefixOf b) =
          if b.length = 1 ∨ a.length = 1 then b.head? == a.head?
          else a.isPrefixOf b || b.isPrefixOf a := by
        by_cases h : a.length = 1 ∨ b.length = 1
        · rw [if_pos h, if_pos h.symm, BEq.comm]
        · rw [if_neg h, if_neg fun h' => h h'.symm, Bool.or_comm]
      show (a == [] || b == [] || a == b || _) = (b == [] || a == [] || b == a || _)
      rw [hstart, Bool.or_comm (a == []), BEq.comm (a := a) (b := b)]

theorem any_contains_comm (xs ys : List JsString) :
    (xs.any fun x => ys.contains x) = ys.any fun y => xs.contains y := by
  rw [Bool.eq_iff_iff, any_eq_true, any_eq_true]
  simp only [contains_iff_mem]
  exact ⟨fun ⟨x, hx, hy⟩ => ⟨x, hy, hx⟩, fun ⟨x, hx, hy⟩ => ⟨x, hy, hx⟩⟩

theorem conflict_comm (a b : NameSnapshot) : a.conflict b = b.conflict a := by
  have hmatch : NameSnapshot.namesMatch a b = NameSnapshot.namesMatch b a := by
    unfold NameSnapshot.namesMatch
    rw [any_contains_comm, firstCompatible_comm, Bool.or_comm (!a.hasName),
      Bool.and_comm (NameSnapshot.part a.last), BEq.comm (a := a.last)]
  unfold NameSnapshot.conflict
  rw [hmatch, Bool.and_comm a.hasName]

theorem compatible_comm (host : Host) (type : AssertionType) (a b : List (JsString × JsVal)) :
    compatible host type a b = compatible host type b a := by
  cases type <;> unfold compatible <;> dsimp only
  case name => rw [conflict_comm]
  case currentEmployer => rw [BEq.comm]
  case title => rw [BEq.comm]
  case location =>
    simp only [differ_comm (text host (stringMember a _))]
  case workAuthorization => rw [differ_comm, BEq.comm]
  case workHistory => rw [differ_comm, differ_comm (datePrefix _ _)]
  case education => rw [differ_comm]
  case certification => rw [differ_comm]

/-! ## Clusters as groups -/

/-- The cluster as a group of the general pass. -/
def Cluster.group (c : Cluster) : Lib.Group Assertion := ⟨c.rep, c.members⟩

/-- A leader and a claim that it may take. -/
def takes (host : Host) (type : AssertionType) (leader a : Assertion) : Bool :=
  compatible host type leader.payload a.payload

def byStrength (claims : List Assertion) : List Assertion :=
  claims.insertionSort fun a b => strongerOrEqual a b = true

/-- The claims that no stronger leader is compatible with, the strongest first. -/
def leaders (host : Host) (type : AssertionType) (claims : List Assertion) : List Assertion :=
  FirstFit.leaders (takes host type) (byStrength claims)

/-- The strongest leader that a claim is compatible with. -/
def leaderOf (host : Host) (type : AssertionType) (claims : List Assertion) (a : Assertion) :
    Option Assertion :=
  FirstFit.leaderOf (takes host type) (byStrength claims) a

/-- A leader with the claims that go to it. -/
def following (host : Host) (type : AssertionType) (claims : List Assertion) (r : Assertion) :
    Cluster :=
  ⟨r, (byStrength claims).filter fun a => (leaderOf host type claims a).any (·.id == r.id)⟩

/-- The leader whose claims stand first in `clusterOrder`. -/
structure Wins (host : Host) (type : AssertionType) (claims : List Assertion) (r : Assertion) :
    Prop where
  leads : r ∈ leaders host type claims
  first : ∀ r' ∈ leaders host type claims, (following host type claims r).beforeOrEqual type
    (following host type claims r') = true

section Clusters

variable {host : Host} {type : AssertionType} {claims : List Assertion} {c : Cluster}
  {a m : Assertion}

theorem placeClaim_group (a : Assertion) (cs : List Cluster) :
    (placeClaim host type a cs).map Cluster.group =
      FirstFit.place (takes host type) a (cs.map Cluster.group) := by
  induction cs with
  | nil => rfl
  | cons c rest ih =>
    unfold placeClaim FirstFit.place
    rw [map_cons]
    show _ = if compatible host type c.rep.payload a.payload then _ else _
    split
    · rfl
    · rw [map_cons, ih]

/-- `cluster` is the general pass over the claims in the order of their strength. -/
theorem clusterClaims_group :
    (clusterClaims host type claims).map Cluster.group =
      FirstFit.groups (takes host type) (byStrength claims) := by
  have hfold : ∀ (l : List Assertion) (cs : List Cluster),
      (l.foldl (fun out a => placeClaim host type a out) cs).map Cluster.group =
        l.foldl (fun gs a => FirstFit.place (takes host type) a gs) (cs.map Cluster.group) := by
    intro l
    induction l with
    | nil => exact fun cs => rfl
    | cons a rest ih =>
      intro cs
      rw [foldl_cons, foldl_cons, ih, placeClaim_group]
  exact hfold _ []

theorem group_mem (hc : c ∈ rankedClusters host type claims) :
    c.group ∈ FirstFit.groups (takes host type) (byStrength claims) := by
  rw [← clusterClaims_group]
  exact mem_map_of_mem ((perm_insertionSort _ _).mem_iff.mp hc)

theorem members_perm :
    ((rankedClusters host type claims).flatMap (·.members)).Perm claims := by
  have hgroups := (FirstFit.groups_spec (takes host type) (byStrength claims)).1
  rw [← clusterClaims_group, flatMap_map] at hgroups
  exact ((perm_insertionSort _ _).flatMap_right _).trans
    (hgroups.trans (perm_insertionSort _ _))

section

variable (hc : c ∈ rankedClusters host type claims)

include hc

theorem mem_claims_of_member (hm : m ∈ c.members) :
    m ∈ claims :=
  members_perm.mem_iff.mp (mem_flatMap_of_mem hc hm)

theorem led_of_ranked :
    FirstFit.Led (takes host type) c.group :=
  (FirstFit.groups_spec _ (byStrength claims)).2.1 _ (group_mem hc)

theorem rep_mem : c.rep ∈ c.members :=
  (led_of_ranked hc).leader_mem

theorem rep_strongest (hm : m ∈ c.members) :
    strongerOrEqual c.rep m = true := by
  have hsub : c.members.Sublist (byStrength claims) := FirstFit.sublist_of_mem_groups (group_mem hc)
  have hsorted := (pairwise_insertionSort (fun a b => strongerOrEqual a b =
    true) claims).sublist hsub
  have hhead : c.members.head? = some c.rep := (led_of_ranked hc).head
  cases hmembers : c.members with
  | nil =>
    rw [hmembers] at hm
    cases hm
  | cons r tail =>
    rw [hmembers] at hhead hsorted hm
    obtain rfl := Option.some.inj hhead
    rcases mem_cons.mp hm with rfl | hm
    · exact (Std.Total.total (r := fun a b : Assertion =>
        strongerOrEqual a b = true) _ _).elim id id
    · exact (pairwise_cons.mp hsorted).1 m hm

end

/-! ## Leaders -/

theorem takes_self (a : Assertion) : takes host type a a = true := compatible_self host type _

theorem mem_ranked_iff (hc : c ∈ rankedClusters host type claims) (ha : a ∈ claims) :
    a ∈ c.members ↔ leaderOf host type claims a = some c.rep :=
  FirstFit.mem_group_iff takes_self (group_mem hc) ((perm_insertionSort _ _).mem_iff.mpr ha)

theorem mem_leaders (ha : a ∈ leaders host type claims) : a ∈ claims :=
  (perm_insertionSort _ _).mem_iff.mp (FirstFit.leaders_sublist.subset ha)

section

variable (hd : DistinctIds claims)

include hd

/-- A claim goes to the leader that it is compatible with, where no stronger one is. -/
theorem leaderOf_eq_some_iff {r : Assertion} : leaderOf host type claims a = some r ↔
    r ∈ leaders host type claims ∧ compatible host type r.payload a.payload = true ∧
      ∀ r' ∈ leaders host type claims, r' ≠ r → strongerOrEqual r' r = true →
        compatible host type r'.payload a.payload = false := by
  have hmem : ∀ {x}, x ∈ byStrength claims ↔ x ∈ claims := (perm_insertionSort _ _).mem_iff
  refine FirstFit.leaderOf_eq_some_iff takes_self (pairwise_insertionSort _ _) ?_
  intro x hx y hy hxy hyx
  exact hd.eq_of_id (hmem.mp hx) (hmem.mp hy) (id_eq_of_tie hxy hyx)

theorem leaderOf_any_iff {r : Assertion} (hr : r ∈ claims) :
    (leaderOf host type claims a).any (·.id == r.id) = true ↔
      leaderOf host type claims a = some r := by
  cases hlead : leaderOf host type claims a with
  | none => simp
  | some r' =>
    have hr' := mem_leaders ((leaderOf_eq_some_iff hd).mp hlead).1
    rw [Option.any_some, beq_iff_eq, Option.some.injEq]
    exact ⟨fun hid => hd.eq_of_id hr' hr hid, fun h => h ▸ rfl⟩

theorem group_eq_following {g : Lib.Group Assertion}
    (hg : g ∈ FirstFit.groups (takes host type) (byStrength claims)) :
    g = (following host type claims g.leader).group := by
  have hperm : (byStrength claims).Perm claims := perm_insertionSort _ _
  have hleader : g.leader ∈ leaders host type claims := by
    rw [leaders, ← FirstFit.groups_leaders]
    exact mem_map_of_mem hg
  have hnodup : (byStrength claims).Nodup := hperm.nodup_iff.mpr (hd.of_map _)
  have hmembers := FirstFit.members_eq_filter takes_self hnodup hg
    (p := fun a => (leaderOf host type claims a).any (·.id == g.leader.id))
    fun x _ => leaderOf_any_iff hd (mem_leaders hleader)
  obtain ⟨leader, members⟩ := g
  exact congrArg (Lib.Group.mk leader) hmembers

/-- **The clusters of some claims are their leaders, each with the claims that go to it.** -/
theorem clusterClaims_eq_following : clusterClaims host type claims =
    (leaders host type claims).map (following host type claims) := by
  have hinj : Function.Injective Cluster.group := by
    rintro ⟨r, ms⟩ ⟨r', ms'⟩ h
    obtain ⟨rfl, rfl⟩ := Lib.Group.mk.inj h
    rfl
  apply hinj.list_map
  rw [clusterClaims_group, leaders, ← FirstFit.groups_leaders, map_map, map_map]
  refine (map_id _).symm.trans (map_congr_left fun g hg => ?_)
  exact group_eq_following hd hg

theorem ranked_iff_wins {cs : List Cluster} (h : rankedClusters host type claims = c :: cs)
    {r : Assertion} : Wins host type claims r ↔ r = c.rep := by
  have hmem : ∀ {d}, d ∈ c :: cs ↔ ∃ r' ∈ leaders host type claims,
      following host type claims r' = d := by
    intro d
    rw [← h, rankedClusters, (perm_insertionSort _ _).mem_iff, clusterClaims_eq_following hd,
      mem_map]
  have hsorted := pairwise_insertionSort (fun a b : Cluster => a.beforeOrEqual type b = true)
    (clusterClaims host type claims)
  rw [← rankedClusters, h] at hsorted
  have hfirst : ∀ d ∈ c :: cs, c.beforeOrEqual type d = true := by
    intro d hd
    rcases mem_cons.mp hd with rfl | hd
    · exact (Std.Total.total (r := fun a b : Cluster => a.beforeOrEqual type b = true) _ _).elim
        id id
    · exact (pairwise_cons.mp hsorted).1 d hd
  obtain ⟨w, hw, hwc⟩ := hmem.mp mem_cons_self
  have hrep : c.rep = w := hwc ▸ rfl
  constructor
  · intro hwins
    rw [hrep]
    have hback := hfirst _ (hmem.mpr ⟨r, hwins.leads, rfl⟩)
    rw [← hwc] at hback
    exact hd.eq_of_id (mem_leaders hwins.leads) (mem_leaders hw)
      (rep_id_eq_of_tie (hwins.first w hw) hback)
  · rintro rfl
    rw [hrep]
    refine ⟨hw, fun r' hr' => ?_⟩
    rw [hwc]
    exact hfirst _ (hmem.mpr ⟨r', hr', rfl⟩)

end

/-! ## The clusters of a group -/

variable {projected : List Assertion} {key : AssertionType × JsString} {winner : Cluster}
  {losers : List Cluster}

section

variable (h : (key, winner :: losers) ∈ rankedGroups host projected)

include h

theorem ranked_clusters :
    rankedClusters host key.1 (claimsOf host projected key) = winner :: losers :=
  (mem_rankedGroups.mp h).2.symm

theorem winner_ranked :
    winner ∈ rankedClusters host key.1 (claimsOf host projected key) := by
  rw [ranked_clusters h]
  exact mem_cons_self

theorem loser_ranked (hc : c ∈ losers) :
    c ∈ rankedClusters host key.1 (claimsOf host projected key) := by
  rw [ranked_clusters h]
  exact mem_cons_of_mem _ hc

end

theorem exists_ranked (ha : a ∈ claimsOf host projected key) :
    ∃ winner losers, (key, winner :: losers) ∈ rankedGroups host projected := by
  obtain ⟨hfact, hkey⟩ := mem_filter.mp ha
  obtain ⟨hproj, hfact⟩ := mem_filter.mp hfact
  have hperm : ((rankedClusters host key.1 (claimsOf host projected key)).flatMap
      (·.members)).Perm (claimsOf host projected key) := members_perm
  cases hranked : rankedClusters host key.1 (claimsOf host projected key) with
  | nil =>
    rw [hranked] at hperm
    cases hperm.mem_iff.mpr ha
  | cons winner losers =>
    exact ⟨winner, losers, mem_rankedGroups.mpr
      ⟨⟨a, hproj, hfact, of_decide_eq_true hkey⟩, hranked.symm⟩⟩

end Clusters

/-- A claim that a source of its own states, observed at 0. -/
def statedClaim (id : Nat) (type : AssertionType) (payload : List (JsString × JsVal)) :
    Assertion where
  id := id
  subjectId := 1
  assertionType := type
  admissionClass := .a
  payload := payload
  sourceReferenceId := some id
  sourceSystemId := js "ATS"
  sourceTenantId := some (js "T1")
  sourceKind := .recruiter
  sourceEventId := js "e"
  verificationStatus := .declared
  observedAt := 0
  validFrom := none
  validTo := none
  aiDerived := false
  contentHash := js "h"
  sourceDocumentHash := none
  currentStatus := .valid

end AramoPlatform.Intelligence
