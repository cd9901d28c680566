import AramoPlatform.Lib.Rows
import AramoPlatform.Lib.Sorting
import Mathlib.Data.List.Induction

/-!
# The latest of a list

Rows are read in some order and the latest is kept, an earlier row for a later
one only when that one is strictly later: of several latest rows the first that
was read is taken. A reader that must not depend on the order of its rows has
to make the same of every latest row.
-/

namespace AramoPlatform.Lib

variable {α : Type} {t : α → Nat} {p q : α → Bool} {l : List α} {a x : α}

/-- Keep the best row so far unless the next one is strictly later. -/
def newer (t : α → Nat) (best : Option α) (x : α) : Option α :=
  match best with
  | none => some x
  | some y => if t y < t x then some x else some y

/-- The first of the latest rows. -/
def latest (t : α → Nat) (l : List α) : Option α := l.foldl (newer t) none

/-- A row that no other is later than. -/
def IsLatest (t : α → Nat) (l : List α) (a : α) : Prop := a ∈ l ∧ ∀ b ∈ l, t b ≤ t a

@[simp] theorem latest_nil : latest t ([] : List α) = none := rfl

theorem foldl_newer (b : α) (l : List α) :
    l.foldl (newer t) (some b) =
      some (match latest t l with
        | none => b
        | some y => if t b < t y then y else b) := by
  induction l generalizing b with
  | nil => rfl
  | cons x rest ih =>
    have hlatest : latest t (x :: rest) = rest.foldl (newer t) (some x) := rfl
    rw [hlatest, ih x, List.foldl_cons]
    by_cases hx : t b < t x
    · rw [newer, if_pos hx, ih x]
      cases latest t rest with
      | none => simp [hx]
      | some y => by_cases hy : t x < t y <;> simp [hx, hy]; omega
    · rw [newer, if_neg hx, ih b]
      cases latest t rest with
      | none => simp [hx]
      | some y =>
        by_cases hy : t x < t y
        · simp [hy]
        · have hby : ¬ t b < t y := by omega
          simp [hy, hby, hx]

theorem latest_cons (x : α) (l : List α) :
    latest t (x :: l) = some (match latest t l with
      | none => x
      | some y => if t x < t y then y else x) :=
  foldl_newer x l

theorem latest_eq_none : latest t l = none ↔ l = [] := by
  cases l with
  | nil => simp
  | cons x rest => simp [latest_cons]

theorem latest_isSome : (latest t l).isSome = true ↔ l ≠ [] := by
  rw [← Option.ne_none_iff_isSome, Ne, latest_eq_none]

theorem isLatest_of_latest (h : latest t l = some a) : IsLatest t l a := by
  induction l generalizing a with
  | nil => cases h
  | cons x rest ih =>
    rw [latest_cons] at h
    cases hrest : latest t rest with
    | none =>
      rw [hrest] at h
      obtain rfl := latest_eq_none.mp hrest
      obtain rfl := Option.some.inj h
      exact ⟨List.mem_cons_self, by simp⟩
    | some y =>
      obtain ⟨hy, hmax⟩ := ih hrest
      simp only [hrest, Option.some.injEq] at h
      by_cases hlt : t x < t y
      · rw [if_pos hlt] at h
        subst h
        refine ⟨List.mem_cons_of_mem _ hy, fun b hb => ?_⟩
        rcases List.mem_cons.mp hb with rfl | hb
        · omega
        · exact hmax b hb
      · rw [if_neg hlt] at h
        subst h
        refine ⟨List.mem_cons_self, fun b hb => ?_⟩
        rcases List.mem_cons.mp hb with rfl | hb
        · exact Nat.le_refl _
        · have := hmax b hb
          omega

variable {l' : List α}

theorem IsLatest.perm (h : IsLatest t l a) (hp : l.Perm l') : IsLatest t l' a :=
  ⟨hp.mem_iff.mp h.1, fun b hb => h.2 b (hp.mem_iff.mpr hb)⟩

theorem latest_time {b : α} (hp : l.Perm l') (h : latest t l = some a)
    (h' : latest t l' = some b) : t a = t b := by
  have ha := isLatest_of_latest h
  have hb := isLatest_of_latest h'
  have h₁ := hb.2 a (hp.mem_iff.mp ha.1)
  have h₂ := ha.2 b (hp.mem_iff.mpr hb.1)
  omega

theorem latest_map_time (hp : l'.Perm l) : (latest t l').map t = (latest t l).map t := by
  cases h' : latest t l' with
  | none =>
    obtain rfl := latest_eq_none.mp h'
    rw [← hp.nil_eq]
    rfl
  | some a =>
    cases h : latest t l with
    | none =>
      obtain rfl := latest_eq_none.mp h
      rw [hp.eq_nil] at h'
      cases h'
    | some b => exact congrArg some (latest_time hp h' h)

theorem latest_bind_perm {β : Type} {f : α → Option β}
    (hagree : ∀ a b, IsLatest t l a → IsLatest t l b → f a = f b) (hp : l'.Perm l) :
    (latest t l').bind f = (latest t l).bind f := by
  cases h' : latest t l' with
  | none =>
    obtain rfl := latest_eq_none.mp h'
    rw [← hp.nil_eq]
    rfl
  | some a =>
    cases h : latest t l with
    | none =>
      obtain rfl := latest_eq_none.mp h
      rw [hp.eq_nil] at h'
      cases h'
    | some b =>
      exact hagree a b ((isLatest_of_latest h').perm hp) (isLatest_of_latest h)

theorem latest_append (l l' : List α) :
    latest t (l ++ l') = match latest t l, latest t l' with
      | none, y => y
      | some x, none => some x
      | some x, some y => if t x < t y then some y else some x := by
  cases hl : latest t l with
  | none =>
    obtain rfl := latest_eq_none.mp hl
    rw [List.nil_append]
  | some x =>
    have hfold : latest t (l ++ l') = l'.foldl (newer t) (latest t l) := List.foldl_append
    rw [hfold, hl, foldl_newer]
    cases latest t l' with
    | none => rfl
    | some y => by_cases h : t x < t y <;> simp [h]

/-! ## Orders that bring a chosen row to the front -/

/-- The rows with `q` first. -/
def front (q : α → Bool) (l : List α) : List α := l.filter q ++ l.filter fun x => !q x

theorem front_perm (q : α → Bool) (l : List α) : (front q l).Perm l :=
  List.filter_append_perm q l

theorem filter_front : (front q l).filter p = front q (l.filter p) := by
  simp only [front, List.filter_append, List.filter_filter]
  congr 1 <;> exact List.filter_congr fun x _ => Bool.and_comm _ _

/-- When one of the latest rows has `q`, the order with the `q` rows first finds one. -/
theorem latest_front (h : IsLatest t l x) (hx : q x = true) (ha : latest t (front q l) = some a) :
    q a = true := by
  rw [front, latest_append] at ha
  have hxmem : x ∈ l.filter q := List.mem_filter.mpr ⟨h.1, hx⟩
  cases hq : latest t (l.filter q) with
  | none =>
    rw [latest_eq_none.mp hq] at hxmem
    cases hxmem
  | some y =>
    obtain ⟨hy, hmax⟩ := isLatest_of_latest hq
    obtain ⟨-, hqy⟩ := List.mem_filter.mp hy
    cases hr : latest t (l.filter fun x => !q x) with
    | none =>
      simp only [hq, hr, Option.some.injEq] at ha
      exact ha ▸ hqy
    | some z =>
      have hz := (List.mem_filter.mp (isLatest_of_latest hr).1).1
      have hle := h.2 z hz
      have hxy := hmax x hxmem
      have hnot : ¬ t y < t z := by omega
      simp only [hq, hr, hnot, if_false, Option.some.injEq] at ha
      exact ha ▸ hqy

/-! ## Reading the rows latest first -/

theorem latest_orderedInsert (x : α) (l : List α) :
    latest t (l.orderedInsert (fun a b => t b ≤ t a) x) = latest t (x :: l) := by
  induction l with
  | nil => rfl
  | cons y rest ih =>
    by_cases hle : t y ≤ t x
    · rw [List.orderedInsert_cons_of_le (fun a b => t b ≤ t a) rest hle]
    · rw [List.orderedInsert_of_not_le (fun a b => t b ≤ t a) rest hle, latest_cons, ih,
        latest_cons, latest_cons,
        latest_cons]
      have hlt : t x < t y := by omega
      have hnot : ¬ t y < t x := by omega
      cases latest t rest with
      | none => simp [hlt, hnot]
      | some z =>
        by_cases hyz : t y < t z
        · have hxz : t x < t z := by omega
          simp [hyz, hxz]
        · by_cases hxz : t x < t z <;> simp [hyz, hxz, hlt, hnot]

/-- `ORDER BY t DESC` before the rows are read changes nothing: rows of one
time keep their order. -/
theorem latest_insertionSort (l : List α) :
    latest t (l.insertionSort fun a b => t b ≤ t a) = latest t l := by
  induction l with
  | nil => rfl
  | cons x rest ih => rw [List.insertionSort_cons, latest_orderedInsert,
      latest_cons, ih, latest_cons]

theorem filter_insertionSort_desc (l : List α) :
    (l.insertionSort fun a b => t b ≤ t a).filter p =
      (l.filter p).insertionSort fun a b => t b ≤ t a := by
  have : Std.Total fun a b : α => t b ≤ t a := ⟨fun a b => Nat.le_total (t b) (t a)⟩
  have : IsTrans α fun a b => t b ≤ t a := ⟨fun a b c h h' => Nat.le_trans h' h⟩
  exact filter_insertionSort p l

/-! ## The latest of each key -/

variable {κ : Type} [BEq κ] {key : α → κ}

/-- One `map.set`: a strictly later row takes the place of its key. -/
def keepLatest (key : α → κ) (t : α → Nat) (kept : List α) (x : α) : List α :=
  if kept.any fun y => key y == key x then
    kept.map fun y => if key y == key x && decide (t y < t x) then x else y
  else kept ++ [x]

/-- The values of the map: the latest row of each key, keys in order of appearance. -/
def latestPer (key : α → κ) (t : α → Nat) (l : List α) : List α := l.foldl (keepLatest key t) []

theorem latestPer_append_singleton (l : List α) (x : α) :
    latestPer key t (l ++ [x]) = keepLatest key t (latestPer key t l) x := by
  simp [latestPer, List.foldl_append]

/-- The rows of one key. -/
abbrev ofKey (key : α → κ) (k : κ) (l : List α) : List α := l.filter fun x => key x == k

/-- A row that no other of its key is later than. -/
def LatestOfKey (key : α → κ) (t : α → Nat) (l : List α) (a : α) : Prop :=
  IsLatest t (ofKey key (key a) l) a

theorem LatestOfKey.perm (h : LatestOfKey key t l a) (hp : l.Perm l') :
    LatestOfKey key t l' a :=
  IsLatest.perm h (hp.filter _)

/-- All latest rows of some key have `p`. -/
def Certain (key : α → κ) (t : α → Nat) (p : α → Bool) (l : List α) : Prop :=
  ∃ a, LatestOfKey key t l a ∧ ∀ b, LatestOfKey key t l b → key b = key a → p b = true

/-- Whether a latest row has `p` is settled by the rows themselves: all latest
rows of some key have it, or none of any key. -/
def Settled (key : α → κ) (t : α → Nat) (p : α → Bool) (l : List α) : Prop :=
  Certain key t p l ∨ ∀ a, LatestOfKey key t l a → p a = false

theorem Certain.perm (h : Certain key t p l) (hp : l.Perm l') :
    Certain key t p l' := by
  obtain ⟨a, ha, hall⟩ := h
  exact ⟨a, ha.perm hp, fun b hb hkey => hall b (hb.perm hp.symm) hkey⟩

/-- With the `q` rows first, a key that has a latest row with `q` shows one. -/
theorem latestPer_front {b : α} (hb : LatestOfKey key t l b) (hq : q b = true)
    (ha : latest t (ofKey key (key b) (front q l)) = some a) : q a = true := by
  rw [ofKey, filter_front] at ha
  exact latest_front hb hq ha

theorem any_congr_mem {l : List α} {p q : α → Bool} (h : ∀ x ∈ l, p x = q x) :
    l.any p = l.any q := by
  rw [Bool.eq_iff_iff, List.any_eq_true, List.any_eq_true]
  exact exists_congr fun x => and_congr_right fun hx => by rw [h x hx]

/-- A row without `p` at the end takes the place of the earlier rows of its key. -/
theorem any_latestPer_append_singleton (l : List α) (hx : p x = false) :
    (latestPer key t (l ++ [x])).any p =
      (latestPer key t l).any fun y => p y && !(key y == key x && decide (t y < t x)) := by
  rw [latestPer_append_singleton, keepLatest]
  split
  · rw [List.any_map]
    refine any_congr_mem fun y _ => ?_
    rw [Function.comp_apply]
    cases hy : key y == key x && decide (t y < t x) with
    | true => rw [if_pos rfl, hx, Bool.not_true, Bool.and_false]
    | false => rw [if_neg Bool.false_ne_true, Bool.not_false, Bool.and_true]
  next hany =>
    rw [List.any_append, List.any_cons, hx, List.any_nil, Bool.or_false, Bool.or_false]
    refine any_congr_mem fun y hy => ?_
    have hkey : (key y == key x) = false := by
      rw [Bool.eq_false_iff]
      intro hk
      exact hany (List.any_eq_true.mpr ⟨y, hy, hk⟩)
    rw [hkey, Bool.false_and, Bool.not_false, Bool.and_true]

section Lawful

variable [LawfulBEq κ]

theorem mem_latestPer : a ∈ latestPer key t l ↔ latest t (ofKey key (key a) l) = some a := by
  induction l using List.reverseRecOn generalizing a with
  | nil => simp [latestPer]
  | append_singleton l x ih =>
    have hx : ofKey key (key x) (l ++ [x]) = ofKey key (key x) l ++ [x] := by simp [ofKey]
    rw [latestPer_append_singleton, keepLatest]
    by_cases hany : (latestPer key t l).any (fun y => key y == key x) = true
    · -- the key was met before, with the row `y`
      obtain ⟨y, hy, hkey⟩ := List.any_eq_true.mp hany
      have hyl := ih.mp hy
      rw [eq_of_beq hkey] at hyl
      rw [if_pos hany, List.mem_map]
      by_cases hax : key a = key x
      · rw [hax, hx, latest_append, hyl]
        have hone : latest t [x] = some x := rfl
        simp only [hone]
        constructor
        · rintro ⟨z, hz, hza⟩
          by_cases hzx : key z = key x
          · have hzl := ih.mp hz
            rw [hzx, hyl, Option.some.injEq] at hzl
            subst hzl
            by_cases hlt : t y < t x <;> simp_all
          · have hne : (key z == key x) = false := by simpa using hzx
            rw [hne, Bool.false_and, if_neg Bool.false_ne_true] at hza
            exact absurd (hza ▸ hax) hzx
        · intro h
          refine ⟨y, hy, ?_⟩
          by_cases hlt : t y < t x <;> simp_all
      · have hsame : ofKey key (key a) (l ++ [x]) = ofKey key (key a) l := by
          simp [ofKey, Ne.symm hax]
        rw [hsame, ← ih]
        constructor
        · rintro ⟨z, hz, rfl⟩
          by_cases hzx : (key z == key x && decide (t z < t x)) = true
          · rw [if_pos hzx] at hax
            exact absurd rfl hax
          · rw [if_neg hzx]
            exact hz
        · intro ha
          have hne : (key a == key x) = false := by simpa using hax
          exact ⟨a, ha, by simp [hne]⟩
    · have hnone : latest t (ofKey key (key x) l) = none := by
        cases hl : latest t (ofKey key (key x) l) with
        | none => rfl
        | some y =>
          have hyk : key y = key x := by
            simpa using (List.mem_filter.mp (isLatest_of_latest hl).1).2
          rw [← hyk] at hl
          exact absurd (List.any_eq_true.mpr ⟨y, ih.mpr hl, by simp [hyk]⟩) hany
      rw [if_neg hany, List.mem_append, List.mem_singleton]
      by_cases hax : key a = key x
      · have hnot : a ∉ latestPer key t l := by
          intro ha
          exact hany (List.any_eq_true.mpr ⟨a, ha, by simp [hax]⟩)
        rw [hax, hx, latest_append, hnone]
        have hone : latest t [x] = some x := rfl
        simp only [hone, Option.some.injEq]
        constructor
        · rintro (ha | rfl)
          · exact absurd ha hnot
          · rfl
        · rintro rfl
          exact .inr rfl
      · have hsame : ofKey key (key a) (l ++ [x]) = ofKey key (key a) l := by
          simp [ofKey, Ne.symm hax]
        rw [hsame, ← ih]
        constructor
        · rintro (ha | rfl)
          · exact ha
          · exact absurd rfl hax
        · exact .inl

theorem nodup_latestPer (l : List α) : ((latestPer key t l).map key).Nodup := by
  induction l using List.reverseRecOn with
  | nil => exact List.nodup_nil
  | append_singleton l x ih =>
    rw [latestPer_append_singleton, keepLatest]
    split
    · have hkeys : ((latestPer key t l).map fun y =>
          if (key y == key x && decide (t y < t x)) = true then x else y).map key =
            (latestPer key t l).map key := by
        rw [List.map_map]
        refine List.map_congr_left fun y _ => ?_
        simp only [Function.comp_apply]
        split
        next hy =>
          rw [Bool.and_eq_true, beq_iff_eq] at hy
          exact hy.1.symm
        · rfl
      rw [hkeys]
      exact ih
    next hany =>
      refine nodup_concat ih fun y hy hyk => hany ?_
      exact List.any_eq_true.mpr ⟨y, hy, by simp [hyk]⟩

theorem any_latestPer :
    (latestPer key t l).any p = true ↔
      ∃ a, latest t (ofKey key (key a) l) = some a ∧ p a = true := by
  simp only [List.any_eq_true, mem_latestPer]

theorem latestOfKey_of_latest {k : κ} (h : latest t (ofKey key k l) = some a) :
    key a = k ∧ LatestOfKey key t l a := by
  have hl := isLatest_of_latest h
  have hk : key a = k := by simpa using (List.mem_filter.mp hl.1).2
  refine ⟨hk, ?_⟩
  rw [LatestOfKey, hk]
  exact hl

theorem exists_latest_of_mem (key : α → κ) (t : α → Nat) (h : a ∈ l) :
    ∃ b, latest t (ofKey key (key a) l) = some b := by
  have hne : ofKey key (key a) l ≠ [] := by
    intro hnil
    have ha : a ∈ ofKey key (key a) l := List.mem_filter.mpr ⟨h, by simp⟩
    rw [hnil] at ha
    cases ha
  exact Option.isSome_iff_exists.mp (latest_isSome.mpr hne)

theorem any_latestPer_of_certain (h : Certain key t p l) : (latestPer key t l).any p = true := by
  obtain ⟨a, ha, hall⟩ := h
  obtain ⟨b, hb⟩ := exists_latest_of_mem key t (List.mem_filter.mp ha.1).1
  obtain ⟨hkey, hlb⟩ := latestOfKey_of_latest hb
  rw [any_latestPer]
  exact ⟨b, by rw [hkey]; exact hb, hall b hlb hkey⟩

theorem any_latestPer_of_none (h : ∀ a, LatestOfKey key t l a → p a = false) :
    (latestPer key t l).any p = false := by
  rw [Bool.eq_false_iff]
  intro hany
  obtain ⟨a, ha, hp⟩ := any_latestPer.mp hany
  rw [h a (latestOfKey_of_latest ha).2] at hp
  cases hp

theorem any_latestPer_perm {l' : List α} (h : Settled key t p l) (hp : l'.Perm l) :
    (latestPer key t l').any p = (latestPer key t l).any p := by
  rcases h with hyes | hno
  · rw [any_latestPer_of_certain hyes, any_latestPer_of_certain (Certain.perm hyes hp.symm)]
  · rw [any_latestPer_of_none hno, any_latestPer_of_none fun a ha => hno a (ha.perm hp)]

/-- What stays when the rows with `p` are read first, and when they are read last, is
settled. -/
theorem settled_of_front (hfirst : (latestPer key t (front p l)).any p = (latestPer key t l).any p)
    (hlast : (latestPer key t (front (fun x => !p x) l)).any p = (latestPer key t l).any p) :
    Settled key t p l := by
  cases hany : (latestPer key t l).any p with
  | true =>
    rw [hany] at hlast
    -- the row found although the others were put first
    obtain ⟨a, ha, hpa⟩ := any_latestPer.mp hlast
    refine .inl ⟨a, (latestOfKey_of_latest ha).2.perm (front_perm _ l), fun b hb hkey => ?_⟩
    by_contra hpb
    rw [← hkey] at ha
    have := latestPer_front hb (q := fun x => !p x) (by simpa using hpb) ha
    simp [hpa] at this
  | false =>
    rw [hany] at hfirst
    refine .inr fun a ha => ?_
    by_contra hpa
    obtain ⟨b, hb⟩ := exists_latest_of_mem key t
      ((front_perm p l).mem_iff.mpr (List.mem_filter.mp ha.1).1)
    have hpb := latestPer_front ha (q := p) (by simpa using hpa) hb
    have hkey : key b = key a := (latestOfKey_of_latest hb).1
    rw [← hkey] at hb
    rw [any_latestPer.mpr ⟨b, hb, hpb⟩] at hfirst
    cases hfirst

end Lawful

end AramoPlatform.Lib
