import Mathlib.Data.List.Induction
import Mathlib.Data.List.Nodup
import Mathlib.Data.List.Pairwise
import Mathlib.Data.List.Perm.Basic

/-!
# Grouping by the first leader that fits

A pass over a list that puts every item into the first group whose leader fits
it, and makes it the leader of a new group where none does. Leaders are compared
with items, items never with each other: two items of one group fit its leader,
and need not fit.
-/

namespace AramoPlatform.Lib

structure Group (α : Type) where
  leader : α
  members : List α

namespace FirstFit

variable {α : Type} {fits : α → α → Bool} {a x : α} {g : Group α} {gs : List (Group α)}
  {l xs ys : List α}

/-- Puts one item into the first group that it fits. -/
def place (fits : α → α → Bool) (a : α) : List (Group α) → List (Group α)
  | [] => [⟨a, [a]⟩]
  | g :: rest =>
    if fits g.leader a then ⟨g.leader, g.members ++ [a]⟩ :: rest else g :: place fits a rest

def groups (fits : α → α → Bool) (l : List α) : List (Group α) :=
  l.foldl (fun gs a => place fits a gs) []

theorem groups_append : groups fits (xs ++ ys) = ys.foldl (fun gs a =>
    place fits a gs) (groups fits xs) :=
  List.foldl_append

theorem groups_concat : groups fits (xs ++ [a]) = place fits a (groups fits xs) := by
  rw [groups_append]
  rfl

/-! ## What a group is -/

/-- The members follow their leader, and fit it. -/
structure Led (fits : α → α → Bool) (g : Group α) : Prop where
  head : g.members.head? = some g.leader
  fits : ∀ m ∈ g.members.tail, fits g.leader m = true

/-- No member of a later group fits the leader of an earlier one. -/
def Apart (fits : α → α → Bool) (g g' : Group α) : Prop := ∀ m ∈ g'.members, fits g.leader m = false

theorem Led.leader_mem (h : Led fits g) : g.leader ∈ g.members := List.mem_of_mem_head? h.head

theorem Led.of_mem (h : Led fits g) (hx : x ∈ g.members) : x = g.leader ∨
    fits g.leader x = true := by
  obtain ⟨tail, hmembers⟩ : ∃ tail, g.members = g.leader :: tail := by
    cases hm : g.members with
    | nil =>
      have h' := h.head
      rw [hm] at h'
      cases h'
    | cons y tail =>
      have h' := h.head
      rw [hm] at h'
      exact ⟨tail, by rw [Option.some.inj h']⟩
  have htail := h.fits
  rw [hmembers] at hx htail
  rcases List.mem_cons.mp hx with rfl | hx
  · exact .inl rfl
  · exact .inr (htail x hx)

theorem led_place (hgs : ∀ g ∈ gs, Led fits g) : ∀ g ∈ place fits a gs, Led fits g := by
  induction gs with
  | nil =>
    intro g hg
    obtain rfl := List.mem_singleton.mp hg
    exact ⟨rfl, by simp⟩
  | cons g rest ih =>
    have hled := hgs g List.mem_cons_self
    unfold place
    split
    next hfits =>
      intro g' hg'
      rcases List.mem_cons.mp hg' with rfl | hg'
      · have hne : g.members ≠ [] := List.ne_nil_of_mem hled.leader_mem
        refine ⟨?_, ?_⟩
        · show (g.members ++ [a]).head? = _
          rw [List.head?_append_of_ne_nil _ hne, hled.head]
        · intro m hm
          replace hm : m ∈ (g.members ++ [a]).tail := hm
          rw [List.tail_append_of_ne_nil hne] at hm
          rcases List.mem_append.mp hm with hm | hm
          · exact hled.fits m hm
          · rw [List.mem_singleton.mp hm]
            exact hfits
      · exact hgs g' (List.mem_cons_of_mem _ hg')
    next =>
      intro g' hg'
      rcases List.mem_cons.mp hg' with rfl | hg'
      · exact hled
      · exact ih (fun g hg => hgs g (List.mem_cons_of_mem _ hg)) g' hg'

/-- The members of the new groups are those of the old ones and the item. -/
theorem perm_members_place : ((place fits a gs).flatMap (·.members)).Perm
    (a :: gs.flatMap (·.members)) := by
  induction gs with
  | nil => exact .refl _
  | cons g rest ih =>
    unfold place
    split
    · simp only [List.flatMap_cons]
      rw [List.append_assoc, List.singleton_append]
      exact List.perm_middle
    · simp only [List.flatMap_cons]
      exact (ih.append_left _).trans List.perm_middle

theorem mem_place {g' : Group α} (hg' : g' ∈ place fits a gs) (hx : x ∈ g'.members) :
    x = a ∨ ∃ g ∈ gs, g.leader = g'.leader ∧ x ∈ g.members := by
  induction gs with
  | nil =>
    obtain rfl := List.mem_singleton.mp hg'
    exact .inl (List.mem_singleton.mp hx)
  | cons g rest ih =>
    unfold place at hg'
    split at hg'
    · rcases List.mem_cons.mp hg' with rfl | hmem
      · rcases List.mem_append.mp hx with hx | hx
        · exact .inr ⟨g, List.mem_cons_self, rfl, hx⟩
        · exact .inl (List.mem_singleton.mp hx)
      · exact .inr ⟨g', List.mem_cons_of_mem _ hmem, rfl, hx⟩
    · rcases List.mem_cons.mp hg' with rfl | hmem
      · exact .inr ⟨g', List.mem_cons_self, rfl, hx⟩
      · rcases ih hmem with rfl | ⟨g₀, hg₀, hlead, hx₀⟩
        · exact .inl rfl
        · exact .inr ⟨g₀, List.mem_cons_of_mem _ hg₀, hlead, hx₀⟩

theorem apart_place (hgs : gs.Pairwise (Apart fits)) : (place fits a gs).Pairwise (Apart fits) := by
  induction gs with
  | nil => exact List.pairwise_singleton _ _
  | cons g rest ih =>
    obtain ⟨hg, hrest⟩ := List.pairwise_cons.mp hgs
    unfold place
    split
    next =>
      exact List.pairwise_cons.mpr ⟨hg, hrest⟩
    next hfits =>
      refine List.pairwise_cons.mpr ⟨?_, ih hrest⟩
      intro g' hg' m hm
      rcases mem_place hg' hm with rfl | ⟨g₀, hg₀, -, hm₀⟩
      · exact Bool.eq_false_iff.mpr hfits
      · exact hg g₀ hg₀ m hm₀

/-- **The groups of a list**: every item is in one, behind a leader that it fits, and no item
fits the leader of an earlier group. -/
theorem groups_spec (fits : α → α → Bool) (l : List α) :
    ((groups fits l).flatMap (·.members)).Perm l ∧ (∀ g ∈ groups fits l, Led fits g) ∧
      (groups fits l).Pairwise (Apart fits) := by
  induction l using List.reverseRec with
  | nil => exact ⟨.refl _, by simp [groups], List.Pairwise.nil⟩
  | append_singleton l a ih =>
    obtain ⟨hperm, hled, hapart⟩ := ih
    rw [groups_concat]
    exact ⟨perm_members_place.trans ((hperm.cons a).trans (List.perm_append_singleton a l).symm),
      led_place hled, apart_place hapart⟩

theorem sublist_of_mem_groups (hg : g ∈ groups fits l) : g.members.Sublist l := by
  induction l using List.reverseRec generalizing g with
  | nil => cases hg
  | append_singleton l a ih =>
    rw [groups_concat] at hg
    have hone : ∀ gs : List (Group α), (∀ g ∈ gs, g.members.Sublist l) →
        ∀ g ∈ place fits a gs, g.members.Sublist (l ++ [a]) := by
      intro gs hgs
      induction gs with
      | nil =>
        intro g hg
        obtain rfl := List.mem_singleton.mp hg
        exact List.sublist_append_right _ _
      | cons g₀ rest ihrest =>
        intro g hg
        unfold place at hg
        split at hg
        · rcases List.mem_cons.mp hg with rfl | hg
          · exact (hgs g₀ List.mem_cons_self).append (.refl _)
          · exact (hgs g (List.mem_cons_of_mem _ hg)).trans (List.sublist_append_left _ _)
        · rcases List.mem_cons.mp hg with rfl | hg
          · exact (hgs g List.mem_cons_self).trans (List.sublist_append_left _ _)
          · exact ihrest (fun g hg => hgs g (List.mem_cons_of_mem _ hg)) g hg
    exact hone _ (fun g hg => ih hg) g hg

/-! ## The leader of an item -/

/-- The items that fit no leader before them. -/
def leaders (fits : α → α → Bool) (l : List α) : List α :=
  l.foldl (fun ls a => if ls.any (fits · a) then ls else ls ++ [a]) []

/-- The first leader that an item fits. -/
def leaderOf (fits : α → α → Bool) (l : List α) (x : α) : Option α :=
  (leaders fits l).find? (fits · x)

theorem place_leaders (a : α) (gs : List (Group α)) :
    (place fits a gs).map (·.leader) =
      if (gs.map (·.leader)).any (fits · a) then gs.map (·.leader)
      else gs.map (·.leader) ++ [a] := by
  induction gs with
  | nil => rfl
  | cons g rest ih =>
    unfold place
    by_cases hfits : fits g.leader a = true
    · simp [hfits]
    · rw [if_neg hfits, List.map_cons, ih, List.map_cons, List.any_cons,
        Bool.eq_false_iff.mpr hfits, Bool.false_or]
      split <;> rfl

theorem groups_leaders : (groups fits l).map (·.leader) = leaders fits l := by
  induction l using List.reverseRec with
  | nil => rfl
  | append_singleton l a ih =>
    rw [groups_concat, place_leaders, ih]
    unfold leaders
    rw [List.foldl_append]
    rfl

theorem leaders_sublist : (leaders fits l).Sublist l := by
  induction l using List.reverseRec with
  | nil => exact .slnil
  | append_singleton l a ih =>
    unfold leaders
    rw [List.foldl_append]
    show List.Sublist (if (leaders fits l).any (fits · a) then leaders fits l
      else leaders fits l ++ [a]) _
    split
    · exact ih.trans (List.sublist_append_left _ _)
    · exact ih.append (.refl _)

section Reflexive

variable (hrefl : ∀ x, fits x x = true)

include hrefl

theorem leaders_nodup : (leaders fits l).Nodup := by
  obtain ⟨-, hled, hapart⟩ := groups_spec fits l
  rw [← groups_leaders]
  apply List.pairwise_map.mpr
  refine hapart.imp_of_mem ?_
  intro g g' _ hg' happart hlead
  have hfits := happart _ (hled g' hg').leader_mem
  rw [hlead, hrefl] at hfits
  cases hfits

theorem leaderOf_of_mem (hg : g ∈ groups fits l) (hx : x ∈ g.members) :
    leaderOf fits l x = some g.leader := by
  obtain ⟨-, hled, hapart⟩ := groups_spec fits l
  obtain ⟨before, behind, hsplit⟩ := List.append_of_mem hg
  rw [leaderOf, ← groups_leaders, hsplit, List.map_append, List.map_cons]
  rw [hsplit, List.pairwise_append] at hapart
  apply List.find?_eq_some_iff_append.mpr
  refine ⟨?_, before.map (·.leader), behind.map (·.leader), rfl, ?_⟩
  · rcases (hled g hg).of_mem hx with rfl | hfits
    · exact hrefl _
    · exact hfits
  · intro r hr
    obtain ⟨g', hg', rfl⟩ := List.mem_map.mp hr
    rw [hapart.2.2 g' hg' g List.mem_cons_self x hx]
    rfl

/-- **An item stands in the group of the first leader that it fits.** -/
theorem mem_group_iff (hg : g ∈ groups fits l) (hx : x ∈ l) :
    x ∈ g.members ↔ leaderOf fits l x = some g.leader := by
  constructor
  · exact leaderOf_of_mem hrefl hg
  · intro h
    obtain ⟨g', hg', hx'⟩ := List.mem_flatMap.mp ((groups_spec fits l).1.mem_iff.mpr hx)
    have hlead := leaderOf_of_mem hrefl hg' hx'
    rw [h, Option.some.injEq] at hlead
    have hinj := leaders_nodup (l := l) hrefl
    rw [← groups_leaders] at hinj
    rwa [List.inj_on_of_nodup_map hinj hg hg' hlead]

theorem members_eq_filter (hnodup : l.Nodup) (hg : g ∈ groups fits l) {p : α → Bool}
    (hp : ∀ x ∈ l, p x = true ↔ leaderOf fits l x = some g.leader) :
    g.members = l.filter p := by
  have hsub := sublist_of_mem_groups hg
  have hall : g.members.filter p = g.members :=
    List.filter_eq_self.mpr fun x hx =>
      (hp x (hsub.subset hx)).mpr (leaderOf_of_mem hrefl hg hx)
  have hfilter : g.members.Sublist (l.filter p) := hall ▸ hsub.filter p
  apply hfilter.eq_of_length
  apply List.Perm.length_eq
  apply (List.perm_ext_iff_of_nodup (hnodup.sublist hsub) (hnodup.filter p)).mpr
  intro x
  refine ⟨fun hx => hfilter.subset hx, fun hx => ?_⟩
  obtain ⟨hl, hpx⟩ := List.mem_filter.mp hx
  exact (mem_group_iff hrefl hg hl).mpr ((hp x hl).mp hpx)

/-- In a list in order, the leader of an item is the first in that order which it fits. -/
theorem leaderOf_eq_some_iff {r : α → α → Prop} (hsorted : l.Pairwise r)
    (hanti : ∀ a ∈ l, ∀ b ∈ l, r a b → r b a → a = b) :
    leaderOf fits l x = some a ↔ a ∈ leaders fits l ∧ fits a x = true ∧
      ∀ b ∈ leaders fits l, b ≠ a → r b a → fits b x = false := by
  have hleaders : (leaders fits l).Pairwise r := hsorted.sublist leaders_sublist
  have hmem : ∀ {b}, b ∈ leaders fits l → b ∈ l := fun hb => leaders_sublist.subset hb
  constructor
  · intro h
    obtain ⟨hfits, before, behind, hsplit, hnone⟩ := List.find?_eq_some_iff_append.mp h
    have ha : a ∈ leaders fits l := List.mem_of_find?_eq_some h
    refine ⟨ha, hfits, fun b hb hne hba => ?_⟩
    rw [hsplit, List.pairwise_append, List.pairwise_cons] at hleaders
    have hin := hb
    rw [hsplit] at hin
    rcases List.mem_append.mp hin with hin | hin
    · simpa using hnone b hin
    · -- what stands behind the leader is not before it in the order
      have hbehind := (List.mem_cons.mp hin).resolve_left hne
      exact absurd (hanti b (hmem hb) a (hmem ha) hba (hleaders.2.1.1 b hbehind)) hne
  · rintro ⟨ha, hfits, hfirst⟩
    obtain ⟨before, behind, hsplit⟩ := List.append_of_mem ha
    have hnodup := leaders_nodup (l := l) hrefl
    apply List.find?_eq_some_iff_append.mpr
    refine ⟨hfits, before, behind, hsplit, fun b hb => ?_⟩
    rw [hsplit, List.pairwise_append] at hleaders
    rw [hsplit, List.nodup_append] at hnodup
    have hne : b ≠ a := hnodup.2.2 b hb a List.mem_cons_self
    have hin : b ∈ leaders fits l := hsplit ▸ List.mem_append_left _ hb
    rw [hfirst b hin hne (hleaders.2.2 b hb a List.mem_cons_self)]
    rfl

end Reflexive

end FirstFit

end AramoPlatform.Lib
