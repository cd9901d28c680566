import AramoPlatform.Js.Text
import AramoPlatform.Lib.AugmentingPaths
import Mathlib.Data.Fintype.Card
import Mathlib.Data.Fintype.EquivFin

/-!
# Whether a chain can be approved

A change request takes effect once every step of its chain has been approved,
each by another attested human who holds the step's role and scopes and has no
part in the request. Whether there are enough of them is decided by matching
the steps to the operators on the roster; here, that the decision is exact.
-/

namespace AramoPlatform.Commercial

open Js Lib Lib.Matching List

/-- The roles a step can ask for. -/
inductive ChainRole where
  | financeAdmin
  | platformOwner
  deriving DecidableEq

def ChainRole.key : ChainRole → JsString
  | financeAdmin => js "finance_admin"
  | platformOwner => js "platform_owner"

structure CommercialChainStep where
  stepIndex : Nat
  roleKey : ChainRole
  scopeKeys : List JsString
  deriving DecidableEq

/-- One platform operator as read live. -/
structure RosterEntry where
  userId : JsString
  attested : Bool
  humanRefHash : Option JsString
  roleKeys : List JsString
  scopes : List JsString
  deriving DecidableEq, Inhabited

structure ChainSatisfiability where
  satisfiable : Bool
  unfillableSteps : List Nat
  requiredHumans : Nat
  deriving DecidableEq

def actorSatisfiesStep (actor : RosterEntry) (step : CommercialChainStep) : Bool :=
  actor.roleKeys.contains step.roleKey.key && step.scopeKeys.all actor.scopes.contains

/-- The attested operators who are not excluded, by account or by human. -/
def chainHumans (roster : List RosterEntry) (exclude excludeHumanRefs : List JsString) :
    List RosterEntry :=
  roster.filter fun r =>
    r.attested && !exclude.contains r.userId && !r.humanRefHash.any excludeHumanRefs.contains

/-- `eligibleFor[i] ?? []`. -/
def eligibleFor (steps : List CommercialChainStep) (humans : List RosterEntry) (i : Nat) :
    List JsString :=
  (steps.map fun s => (humans.filter fun h => actorSatisfiesStep h s).map (·.userId)).getD i []

/-- `owner` maps a user to the index of the step it holds; every step is tried
in turn, with no user seen. A search sees a user once, so none is deeper than
there are users. -/
def checkChainSatisfiable (steps : List CommercialChainStep) (roster : List RosterEntry)
    (exclude excludeHumanRefs : List JsString) : ChainSatisfiability :=
  let humans := chainHumans roster exclude excludeHumanRefs
  let tryEach := assignEach (eligibleFor steps humans) (humans.length + 1)
  let unfilled := (tryEach (range steps.length) fun _ => none).1
  let unfillable := unfilled.filterMap fun i => steps[i]?.map (·.stepIndex)
  { satisfiable := unfillable.length == 0
    unfillableSteps := unfillable
    requiredHumans := steps.length }

/-! ## Assignments of humans to steps -/

/-- Two accounts of one human. -/
def SameHuman (e e' : RosterEntry) : Prop :=
  e.userId = e'.userId ∨ ∃ h, e.humanRefHash = some h ∧ e'.humanRefHash = some h

/-- An attested human who is not excluded and holds the step's role and scopes. -/
structure CanTake (exclude excludeHumanRefs : List JsString) (e : RosterEntry)
    (step : CommercialChainStep) : Prop where
  attested : e.attested = true
  user : e.userId ∉ exclude
  human : ∀ h, e.humanRefHash = some h → h ∉ excludeHumanRefs
  role : step.roleKey.key ∈ e.roleKeys
  scopes : ∀ k ∈ step.scopeKeys, k ∈ e.scopes

/-- Operators for some of the steps, no human for two of them. -/
structure IsAssignment (steps : List CommercialChainStep) (roster : List RosterEntry)
    (exclude excludeHumanRefs : List JsString) (a : Fin steps.length → Option RosterEntry) :
    Prop where
  eligible : ∀ i e, a i = some e → e ∈ roster ∧ CanTake exclude excludeHumanRefs e steps[i]
  distinct : ∀ i j e e', a i = some e → a j = some e' → SameHuman e e' → i = j

/-- The steps that are assigned. -/
def filled {n : Nat} (a : Fin n → Option RosterEntry) : Finset (Fin n) :=
  Finset.univ.filter fun i => (a i).isSome

/-- One account for each user id, and one active attestation for each human. -/
structure DistinctRoster (roster : List RosterEntry) : Prop where
  users : (roster.map (·.userId)).Nodup
  humans : ((roster.filter (·.attested)).filterMap (·.humanRefHash)).Nodup

section Exact

variable {steps : List CommercialChainStep} {roster : List RosterEntry}
  {exclude excludeHumanRefs : List JsString}

theorem actorSatisfiesStep_iff {e : RosterEntry} {step : CommercialChainStep} :
    actorSatisfiesStep e step = true ↔
      step.roleKey.key ∈ e.roleKeys ∧ ∀ k ∈ step.scopeKeys, k ∈ e.scopes := by
  simp [actorSatisfiesStep]

theorem mem_chainHumans {e : RosterEntry} :
    e ∈ chainHumans roster exclude excludeHumanRefs ↔
      e ∈ roster ∧ e.attested = true ∧ e.userId ∉ exclude ∧
        ∀ h, e.humanRefHash = some h → h ∉ excludeHumanRefs := by
  cases href : e.humanRefHash <;> simp [chainHumans, href, and_assoc]

theorem mem_eligibleFor {i : Nat} {u : JsString} :
    u ∈ eligibleFor steps (chainHumans roster exclude excludeHumanRefs) i ↔
      ∃ h : i < steps.length, ∃ e ∈ roster,
        CanTake exclude excludeHumanRefs e steps[i] ∧ e.userId = u := by
  rw [eligibleFor, getD_eq_getElem?_getD, getElem?_map]
  by_cases hi : i < steps.length
  · rw [getElem?_eq_getElem hi]
    simp only [Option.map_some, Option.getD_some, mem_map, mem_filter,
      mem_chainHumans, actorSatisfiesStep_iff, hi, exists_true_left]
    constructor
    · rintro ⟨e, ⟨⟨hmem, hatt, huser, hhuman⟩, hrole, hscopes⟩, rfl⟩
      exact ⟨e, hmem, ⟨hatt, huser, hhuman, hrole, hscopes⟩, rfl⟩
    · rintro ⟨e, hmem, ⟨hatt, huser, hhuman, hrole, hscopes⟩, rfl⟩
      exact ⟨e, ⟨⟨hmem, hatt, huser, hhuman⟩, hrole, hscopes⟩, rfl⟩
  · rw [getElem?_eq_none (by omega)]
    simp [hi]

theorem DistinctRoster.eq_of_sameHuman (h : DistinctRoster roster) {e e' : RosterEntry}
    (he : e ∈ roster) (he' : e' ∈ roster) (hatt : e.attested = true) (hatt' : e'.attested = true)
    (hsame : SameHuman e e') : e = e' := by
  rcases hsame with huser | ⟨ref, href, href'⟩
  · exact inj_on_of_nodup_map h.users he he' huser
  · have hmem : e ∈ roster.filter (·.attested) := mem_filter.mpr ⟨he, hatt⟩
    have hmem' : e' ∈ roster.filter (·.attested) := mem_filter.mpr ⟨he', hatt'⟩
    have hpair := pairwise_filterMap.mp h.humans
    have hsymm : Std.Symm fun x y : RosterEntry =>
        ∀ r, x.humanRefHash = some r → ∀ r', y.humanRefHash = some r' → r ≠ r' :=
      ⟨fun x y hxy r hr r' hr' heq => hxy r' hr' r hr heq.symm⟩
    by_contra hne
    exact hpair.forall hmem hmem' hne ref href ref href' rfl

/-! ### Assignments and matchable sets of steps -/

theorem IsAssignment.matchable {a : Fin steps.length → Option RosterEntry}
    (h : IsAssignment steps roster exclude excludeHumanRefs a) :
    Matchable (eligibleFor steps (chainHumans roster exclude excludeHumanRefs))
      ((filled a).map Fin.valEmbedding) := by
  classical
  let holds (u : JsString) (i : Nat) : Prop :=
    ∃ hi : i < steps.length, ∃ e, a ⟨i, hi⟩ = some e ∧ e.userId = u
  refine ⟨fun u => if hu : ∃ i, holds u i then some hu.choose else none, fun i hi => ?_⟩
  obtain ⟨i', hi', rfl⟩ := Finset.mem_map.mp hi
  obtain ⟨e, he⟩ := Option.isSome_iff_exists.mp (Finset.mem_filter.mp hi').2
  obtain ⟨hmem, hcan⟩ := h.eligible i' e he
  have hold : ∃ i, holds e.userId i := ⟨i'.val, i'.isLt, e, he, rfl⟩
  refine ⟨e.userId, mem_eligibleFor.mpr ⟨i'.isLt, e, hmem, hcan, rfl⟩, ?_⟩
  obtain ⟨hlt, e', he', huser⟩ := hold.choose_spec
  refine (dif_pos hold).trans ?_
  exact congrArg some (Fin.val_eq_of_eq (h.distinct _ i' e' e he' he (.inl huser)))

theorem exists_assignment (hroster : DistinctRoster roster) {t : Finset Nat}
    (ht : ∀ i ∈ t, i < steps.length)
    (hmatch : Matchable (eligibleFor steps (chainHumans roster exclude excludeHumanRefs)) t) :
    ∃ a, IsAssignment steps roster exclude excludeHumanRefs a ∧
      (filled a).map Fin.valEmbedding = t := by
  classical
  obtain ⟨owner, howner⟩ := hmatch
  have hentry : ∀ i : Fin steps.length, i.val ∈ t → ∃ e ∈ roster,
      CanTake exclude excludeHumanRefs e steps[i] ∧ owner e.userId = some i.val := by
    intro i hi
    obtain ⟨u, hu, hown⟩ := howner i.val hi
    obtain ⟨_, e, hmem, hcan, rfl⟩ := mem_eligibleFor.mp hu
    exact ⟨e, hmem, hcan, hown⟩
  choose! entry hmem hcan hown using hentry
  refine ⟨fun i => if i.val ∈ t then some (entry i) else none, ⟨?_, ?_⟩, ?_⟩
  · intro i e he
    split at he
    case isTrue hi =>
      rw [← Option.some.inj he]
      exact ⟨hmem i hi, hcan i hi⟩
    case isFalse => cases he
  · intro i j e e' he he' hsame
    split at he
    case isFalse => cases he
    case isTrue hi =>
      split at he'
      case isFalse => cases he'
      case isTrue hj =>
        rw [← Option.some.inj he, ← Option.some.inj he'] at hsame
        have heq := hroster.eq_of_sameHuman (hmem i hi) (hmem j hj) (hcan i hi).attested
          (hcan j hj).attested hsame
        have hij := hown i hi
        rw [heq, hown j hj, Option.some.injEq] at hij
        exact Fin.ext hij.symm
  · ext i
    simp only [filled, Finset.mem_map, Finset.mem_filter, Finset.mem_univ, true_and,
      Fin.valEmbedding_apply]
    constructor
    · rintro ⟨j, hj, rfl⟩
      by_contra hnot
      simp [hnot] at hj
    · intro hi
      exact ⟨⟨i, ht i hi⟩, by simp [hi], rfl⟩

/-! ### The decision -/

/-- The choice that the code makes of the steps to fill. -/
noncomputable def greedySteps (steps : List CommercialChainStep) (roster : List RosterEntry)
    (exclude excludeHumanRefs : List JsString) : Finset Nat × List Nat :=
  greedy (Matchable (eligibleFor steps (chainHumans roster exclude excludeHumanRefs))) ∅
    (range steps.length)

/-- The users that a step may have at all. -/
def chainUsers (roster : List RosterEntry) (exclude excludeHumanRefs : List JsString) :
    Finset JsString :=
  ((chainHumans roster exclude excludeHumanRefs).map (·.userId)).toFinset

theorem mem_chainUsers (i : Nat) :
    ∀ u ∈ eligibleFor steps (chainHumans roster exclude excludeHumanRefs) i,
      u ∈ chainUsers roster exclude excludeHumanRefs := by
  intro u hu
  obtain ⟨_, e, hmem, hcan, rfl⟩ := mem_eligibleFor.mp hu
  rw [chainUsers, mem_toFinset]
  exact mem_map_of_mem
    (mem_chainHumans.mpr ⟨hmem, hcan.attested, hcan.user, hcan.human⟩)

/-- **The decision is that of the greedy choice.** -/
theorem checkChainSatisfiable_eq :
    checkChainSatisfiable steps roster exclude excludeHumanRefs =
      let unfillable := (greedySteps steps roster exclude excludeHumanRefs).2.filterMap
        fun i => steps[i]?.map (·.stepIndex)
      { satisfiable := unfillable.length == 0
        unfillableSteps := unfillable
        requiredHumans := steps.length } := by
  have hdepth : (chainUsers roster exclude excludeHumanRefs).card <
      (chainHumans roster exclude excludeHumanRefs).length + 1 := by
    have hle := toFinset_card_le
      ((chainHumans roster exclude excludeHumanRefs).map (·.userId))
    rw [length_map] at hle
    exact Nat.lt_succ_of_le hle
  have hunfilled : (assignEach (eligibleFor steps (chainHumans roster exclude excludeHumanRefs))
      ((chainHumans roster exclude excludeHumanRefs).length + 1) (range steps.length)
        fun _ => none).1 = (greedySteps steps roster exclude excludeHumanRefs).2 :=
    (assignEach_exact mem_chainUsers hdepth nodup_range (isMatching_empty _)
      fun i _ => Finset.notMem_empty i).1
  simp only [checkChainSatisfiable, hunfilled]

theorem lt_of_mem_greedySteps {i : Nat}
    (hi : i ∈ (greedySteps steps roster exclude excludeHumanRefs).1) : i < steps.length :=
  mem_range.mp ((mem_of_mem_greedy hi).resolve_left (Finset.notMem_empty i))

theorem card_greedySteps :
    (greedySteps steps roster exclude excludeHumanRefs).1.card +
      (checkChainSatisfiable steps roster exclude excludeHumanRefs).unfillableSteps.length =
        steps.length := by
  have hleft : ((greedySteps steps roster exclude excludeHumanRefs).2.filterMap
      fun i => steps[i]?.map (·.stepIndex)).length =
        (greedySteps steps roster exclude excludeHumanRefs).2.length := by
    rw [filterMap_length_eq_length]
    intro i hi
    have hlt : i < steps.length := mem_range.mp (left_subset_greedy _ _ hi)
    rw [getElem?_eq_getElem hlt]
    rfl
  have hsum := card_greedy (P := Matchable
    (eligibleFor steps (chainHumans roster exclude excludeHumanRefs)))
    (nodup_range (n := steps.length)) fun i _ => Finset.notMem_empty i
  rw [length_range, Finset.card_empty, Nat.zero_add] at hsum
  rw [checkChainSatisfiable_eq]
  show _ + ((greedySteps steps roster exclude excludeHumanRefs).2.filterMap
    fun i => steps[i]?.map (·.stepIndex)).length = _
  rw [hleft]
  exact hsum

theorem card_filled_le {a : Fin steps.length → Option RosterEntry}
    (h : IsAssignment steps roster exclude excludeHumanRefs a) :
    (filled a).card ≤ (greedySteps steps roster exclude excludeHumanRefs).1.card := by
  have hin : ∀ i ∈ (filled a).map Fin.valEmbedding, i ∈ range steps.length := by
    intro i hi
    obtain ⟨j, -, rfl⟩ := Finset.mem_map.mp hi
    exact mem_range.mpr j.isLt
  have hle := card_le_greedy mem_chainUsers nodup_range hin h.matchable
  rwa [Finset.card_map] at hle

theorem eligibleFor_perm {roster' : List RosterEntry} (h : roster'.Perm roster) :
    Matchable (eligibleFor steps (chainHumans roster' exclude excludeHumanRefs)) =
      Matchable (eligibleFor steps (chainHumans roster exclude excludeHumanRefs)) := by
  refine matchable_congr fun i u => ?_
  simp only [mem_eligibleFor, h.mem_iff]

/-- **The gate is exact**: it lets a chain through exactly where all of its steps
can be assigned to distinct humans, it leaves over as many steps as the largest
assignment does, and the order of the roster does not matter. -/
theorem checkChainSatisfiable_exact (steps : List CommercialChainStep)
    (roster : List RosterEntry) (exclude excludeHumanRefs : List JsString)
    (hroster : DistinctRoster roster) :
    ((checkChainSatisfiable steps roster exclude excludeHumanRefs).satisfiable = true ↔
      ∃ a, IsAssignment steps roster exclude excludeHumanRefs a ∧ ∀ i, (a i).isSome = true) ∧
    (∃ a, IsAssignment steps roster exclude excludeHumanRefs a ∧
      (checkChainSatisfiable steps roster exclude excludeHumanRefs).unfillableSteps.length =
        steps.length - (filled a).card ∧
      ∀ b, IsAssignment steps roster exclude excludeHumanRefs b →
        (filled b).card ≤ (filled a).card) ∧
    ∀ roster' : List RosterEntry, roster'.Perm roster →
      checkChainSatisfiable steps roster' exclude excludeHumanRefs =
        checkChainSatisfiable steps roster exclude excludeHumanRefs := by
  have hmatch : Matchable (eligibleFor steps (chainHumans roster exclude excludeHumanRefs))
      (greedySteps steps roster exclude excludeHumanRefs).1 :=
    matchable_greedy mem_chainUsers nodup_range
  have hsum : (greedySteps steps roster exclude excludeHumanRefs).1.card +
      (checkChainSatisfiable steps roster exclude excludeHumanRefs).unfillableSteps.length =
        steps.length := card_greedySteps
  obtain ⟨a, ha, hfilled⟩ := exists_assignment hroster (fun i => lt_of_mem_greedySteps) hmatch
  have hcard : (filled a).card = (greedySteps steps roster exclude excludeHumanRefs).1.card := by
    rw [← Finset.card_map Fin.valEmbedding, hfilled]
  refine ⟨?_, ⟨a, ha, by omega, fun b hb => hcard ▸ card_filled_le hb⟩, fun roster' hperm => ?_⟩
  · -- nothing is left over where as many steps are filled as there are
    have hall : (checkChainSatisfiable steps roster exclude excludeHumanRefs).satisfiable =
        ((checkChainSatisfiable steps roster exclude excludeHumanRefs).unfillableSteps.length
          == 0) := rfl
    rw [hall, beq_iff_eq]
    constructor
    · intro hnone
      refine ⟨a, ha, fun i => ?_⟩
      have huniv : filled a = Finset.univ := by
        rw [← Finset.card_eq_iff_eq_univ, Fintype.card_fin]
        omega
      have hi : i ∈ filled a := huniv ▸ Finset.mem_univ i
      exact (Finset.mem_filter.mp hi).2
    · rintro ⟨b, hb, hfull⟩
      have huniv : filled b = Finset.univ := by simp [filled, hfull]
      have hle := card_filled_le hb
      rw [huniv, Finset.card_univ, Fintype.card_fin] at hle
      omega
  · have hgreedy : greedySteps steps roster' exclude excludeHumanRefs =
        greedySteps steps roster exclude excludeHumanRefs := by
      rw [greedySteps, greedySteps, eligibleFor_perm hperm]
    rw [checkChainSatisfiable_eq, checkChainSatisfiable_eq, hgreedy]

end Exact

/-- Finance first, then the owner. -/
def financeThenOwner : List CommercialChainStep :=
  [⟨0, .financeAdmin, [js "platform:billing:approve"]⟩,
    ⟨1, .platformOwner, [js "platform:billing:approve"]⟩]

/-- An owner who could take either step, and a finance admin. -/
def twoOperators : List RosterEntry :=
  [⟨js "u1", true, some (js "h1"), [js "finance_admin", js "platform_owner"],
      [js "platform:billing:approve"]⟩,
    ⟨js "u2", true, some (js "h2"), [js "finance_admin"], [js "platform:billing:approve"]⟩]

/-- The first step takes the owner and has to let go of them. -/
theorem checkChainSatisfiable_exact_financeThenOwner :
    (checkChainSatisfiable financeThenOwner twoOperators [] []).unfillableSteps = [] ∧
      ∃ a, IsAssignment financeThenOwner twoOperators [] [] a ∧ ∀ i, (a i).isSome = true :=
  ⟨by decide,
    (checkChainSatisfiable_exact financeThenOwner twoOperators [] []
      ⟨by decide, by decide⟩).1.mp (by decide)⟩

end AramoPlatform.Commercial
