import AramoPlatform.Intelligence.RebuildViews
import AramoPlatform.Intelligence.ResolutionEffects

/-!
# The mentions of an identifier in a request

A request may mention an identifier several times, each time verified or not
and primary or not. What is kept of it is a fold over its own mentions, and
goes by those from the first verified one on.
-/

namespace AramoPlatform.Intelligence

open Js Lib

variable {l l' : List ResolutionIdentifier} {k : IdentifierKey}

/-! ## One key -/

/-- What a later mention makes of the one that is kept. -/
def mergeMention (prior id : ResolutionIdentifier) : ResolutionIdentifier :=
  if !prior.verified && id.verified then id
  else if id.isPrimary && !prior.isPrimary then { prior with isPrimary := true }
  else prior

/-- The mentions of a key. -/
def mentions (k : IdentifierKey) (l : List ResolutionIdentifier) : List ResolutionIdentifier :=
  l.filter (·.key == k)

theorem find?_dedupeStep (byKey : List ResolutionIdentifier) (id : ResolutionIdentifier) :
    (dedupeStep byKey id).find? (·.key == k) =
      if id.key = k then some ((byKey.find? (·.key == k)).elim id (mergeMention · id))
      else byKey.find? (·.key == k) := by
  have hupdate (f : ResolutionIdentifier → ResolutionIdentifier)
      (hf : ∀ p, p.key = id.key → (f p).key = id.key) :
      (updateWhere (·.key == id.key) f byKey).find? (·.key == k) =
        if id.key = k then (byKey.find? (·.key == k)).map f else byKey.find? (·.key == k) := by
    have hfind : findKey (·.key) k (updateWhere _ f byKey) = _ := findKey_updateWhere hf
    simpa only [findKey, ← beq_eq_decide] using hfind
  unfold dedupeStep
  by_cases hk : id.key = k
  · subst hk
    cases hfind : byKey.find? (·.key == id.key) with
    | none => simp [List.find?_append, hfind]
    | some prior =>
      simp only [if_true, Option.elim_some, mergeMention]
      split
      · rw [hupdate _ fun _ _ => rfl, if_pos rfl, hfind, Option.map_some]
      · split
        · rw [hupdate (fun p => { p with isPrimary := true }) fun _ h => h, if_pos rfl, hfind,
            Option.map_some]
        · exact hfind
  · rw [if_neg hk]
    split
    · simp [List.find?_append, hk]
    · split
      · rw [hupdate _ fun _ _ => rfl, if_neg hk]
      · split
        · rw [hupdate (fun p => { p with isPrimary := true }) fun _ h => h, if_neg hk]
        · rfl

/-- **What is kept of a key is a fold over its mentions.** -/
theorem find?_dedupeIdentifiers : (dedupeIdentifiers l).find? (·.key == k) =
    match mentions k l with
    | [] => none
    | m :: ms => some (ms.foldl mergeMention m) := by
  have hfold : ∀ (rest byKey : List ResolutionIdentifier),
      (rest.foldl dedupeStep byKey).find? (·.key == k) =
        (mentions k rest).foldl (fun o id => some (o.elim id (mergeMention · id)))
          (byKey.find? (·.key == k)) := by
    intro rest
    induction rest with
    | nil => exact fun _ => rfl
    | cons id rest ih =>
      intro byKey
      rw [List.foldl_cons, ih, find?_dedupeStep, mentions, mentions, List.filter_cons]
      by_cases hk : id.key = k
      · simp [hk]
      · simp [hk]
  have hsome : ∀ (ms : List ResolutionIdentifier) (m : ResolutionIdentifier),
      ms.foldl (fun o id => some (o.elim id (mergeMention · id))) (some m) =
        some (ms.foldl mergeMention m) := by
    intro ms
    induction ms with
    | nil => exact fun _ => rfl
    | cons id rest ih => exact fun m => ih _
  rw [dedupeIdentifiers, hfold]
  cases mentions k l with
  | nil => rfl
  | cons m ms => exact hsome ms m

/-! ## The flags -/

theorem foldl_mergeMention_verified (ms : List ResolutionIdentifier) (m : ResolutionIdentifier) :
    (ms.foldl mergeMention m).verified = (m :: ms).any (·.verified) := by
  induction ms generalizing m with
  | nil => simp
  | cons id rest ih =>
    have hstep : (mergeMention m id).verified = (m.verified || id.verified) := by
      unfold mergeMention
      split
      · simp_all
      · split <;> cases hm : m.verified <;> simp_all
    rw [List.foldl_cons, ih]
    simp [hstep, Bool.or_assoc]

/-- The mentions from the first verified one on, or all where none is. -/
def decisive (ms : List ResolutionIdentifier) : List ResolutionIdentifier :=
  if ms.any (·.verified) then ms.dropWhile (!·.verified) else ms

theorem foldl_mergeMention_isPrimary (ms : List ResolutionIdentifier) (m : ResolutionIdentifier) :
    (ms.foldl mergeMention m).isPrimary = (decisive (m :: ms)).any (·.isPrimary) := by
  induction ms generalizing m with
  | nil => cases hm : m.verified <;> simp [decisive, hm]
  | cons id rest ih =>
    rw [List.foldl_cons, ih]
    cases hm : m.verified
    · cases hid : id.verified
      · -- neither is verified yet
        have hstep : (mergeMention m id).verified = false ∧
            (mergeMention m id).isPrimary = (m.isPrimary || id.isPrimary) := by
          cases hp : m.isPrimary <;> cases hq : id.isPrimary <;>
            simp [mergeMention, hm, hid, hp, hq]
        cases hrest : rest.any (·.verified) <;>
          simp [decisive, hm, hid, hrest, hstep, Bool.or_assoc]
      · simp [decisive, mergeMention, hm, hid]
    · have hstep : (mergeMention m id).verified = true ∧
          (mergeMention m id).isPrimary = (m.isPrimary || id.isPrimary) := by
        cases hp : m.isPrimary <;> cases hq : id.isPrimary <;> simp [mergeMention, hm, hp, hq]
      simp [decisive, hm, hstep, Bool.or_assoc]

variable {m : ResolutionIdentifier}

theorem mem_mentions : m ∈ mentions k l ↔ m ∈ l ∧ m.key = k := by
  simp [mentions]

variable {e : ResolutionIdentifier}

/-- An entry has the flags of its mentions: verified as any of them, primary as
any of the decisive ones. -/
theorem flags_of_mem (he : e ∈ dedupeIdentifiers l) :
    mentions e.key l ≠ [] ∧ e.verified = (mentions e.key l).any (·.verified) ∧
      e.isPrimary = (decisive (mentions e.key l)).any (·.isPrimary) := by
  have hfind := find?_key_eq_some (dedupeIdentifiers_nodup l) he
  rw [find?_dedupeIdentifiers] at hfind
  cases hmentions : mentions e.key l with
  | nil =>
    rw [hmentions] at hfind
    cases hfind
  | cons m ms =>
    rw [hmentions] at hfind
    have hentry : ms.foldl mergeMention m = e := Option.some.inj hfind
    rw [← hentry, foldl_mergeMention_verified, foldl_mergeMention_isPrimary]
    exact ⟨List.cons_ne_nil _ _, rfl, rfl⟩

theorem mem_keys_dedupeIdentifiers :
    k ∈ (dedupeIdentifiers l).map (·.key) ↔ k ∈ l.map (·.key) := by
  have hfind : ((dedupeIdentifiers l).find? (·.key == k)).isSome = true ↔ mentions k l ≠ [] := by
    rw [find?_dedupeIdentifiers]
    cases mentions k l <;> simp
  rw [List.find?_isSome] at hfind
  simpa [mentions] using hfind

theorem mem_dropWhile_of_verified (hm : m ∈ l)
    (hverified : m.verified = true) : m ∈ l.dropWhile (!·.verified) := by
  induction l with
  | nil => cases hm
  | cons a rest ih =>
    cases ha : a.verified
    · rcases List.mem_cons.mp hm with rfl | hm
      · simp [hverified] at ha
      · simpa [ha] using ih hm
    · simpa [ha] using hm

theorem any_decisive (hm : m ∈ decisive l) : m ∈ l := by
  unfold decisive at hm
  split at hm
  · exact (List.dropWhile_sublist _).subset hm
  · exact hm

/-! ## Whether both flags are kept -/

/-- Both flags of every key are kept, in any order of the mentions. -/
structure FlagsKept (l : List ResolutionIdentifier) : Prop where
  nodup : ((dedupeIdentifiers l).map (·.key)).Nodup
  keys : ∀ k, k ∈ (dedupeIdentifiers l).map (·.key) ↔ k ∈ l.map (·.key)
  verified : ∀ e ∈ dedupeIdentifiers l,
    e.verified = true ↔ ∃ m ∈ l, m.key = e.key ∧ m.verified = true
  primary : ∀ e ∈ dedupeIdentifiers l,
    e.isPrimary = true ↔ ∃ m ∈ l, m.key = e.key ∧ m.isPrimary = true
  anyOrder : ∀ l', l'.Perm l → ∀ e ∈ dedupeIdentifiers l, ∃ e' ∈ dedupeIdentifiers l',
    e'.key = e.key ∧ e'.verified = e.verified ∧ e'.isPrimary = e.isPrimary
  snapshot : ∀ l', l'.Perm l → ∀ tuple names,
    snapshotOf ⟨tuple, names, l'⟩ = snapshotOf ⟨tuple, names, l⟩

/-- A key with a verified mention and a primary one has a mention that is both. -/
def BothAtOnce (l : List ResolutionIdentifier) : Prop :=
  ∀ v ∈ l, ∀ p ∈ l, p.key = v.key → v.verified = true → p.isPrimary = true →
    ∃ m ∈ l, m.key = v.key ∧ m.verified = true ∧ m.isPrimary = true

theorem verified_iff (he : e ∈ dedupeIdentifiers l) :
    e.verified = true ↔ ∃ m ∈ l, m.key = e.key ∧ m.verified = true := by
  rw [(flags_of_mem he).2.1, List.any_eq_true]
  simp [mem_mentions, and_assoc]

theorem BothAtOnce.primary_iff (h : BothAtOnce l)
    (he : e ∈ dedupeIdentifiers l) :
    e.isPrimary = true ↔ ∃ m ∈ l, m.key = e.key ∧ m.isPrimary = true := by
  rw [(flags_of_mem he).2.2, List.any_eq_true]
  constructor
  · rintro ⟨m, hm, hprimary⟩
    obtain ⟨hmem, hkey⟩ := mem_mentions.mp (any_decisive hm)
    exact ⟨m, hmem, hkey, hprimary⟩
  · rintro ⟨p, hp, hkey, hprimary⟩
    unfold decisive
    split
    next hany =>
      obtain ⟨v, hv, hverified⟩ := List.any_eq_true.mp hany
      obtain ⟨hv, hvkey⟩ := mem_mentions.mp hv
      obtain ⟨m, hm, hmkey, hboth⟩ := h v hv p hp (hkey.trans hvkey.symm) hverified hprimary
      have hmentioned : m ∈ mentions e.key l := mem_mentions.mpr ⟨hm, hmkey.trans hvkey⟩
      exact ⟨m, mem_dropWhile_of_verified hmentioned hboth.1, hboth.2⟩
    · exact ⟨p, mem_mentions.mpr ⟨hp, hkey⟩, hprimary⟩

theorem key_eq_of_text {k k' : IdentifierKey} (h : k.text = k'.text) : k = k' := by
  have htype := identifierType_eq_of_text h
  cases k
  cases k'
  simp_all [IdentifierKey.text]

instance : Std.Total fun k k' : IdentifierKey => strLe k.text k'.text = true :=
  ⟨fun k k' => Std.Total.total (r := fun a b : JsString => strLe a b = true) k.text k'.text⟩

instance : IsTrans IdentifierKey fun k k' => strLe k.text k'.text = true :=
  ⟨fun k _ _ => IsTrans.trans (r := fun a b : JsString => strLe a b = true) k.text _ _⟩

theorem keysOf_perm (hperm : l'.Perm l) (verified : Bool) :
    keysOf verified (dedupeIdentifiers l') = keysOf verified (dedupeIdentifiers l) := by
  have hmem (list : List ResolutionIdentifier) (k : IdentifierKey) :
      k ∈ ((dedupeIdentifiers list).filter (·.verified == verified)).map (·.key) ↔
        mentions k list ≠ [] ∧ (mentions k list).any (·.verified) = verified := by
    simp only [List.mem_map, List.mem_filter, beq_iff_eq]
    constructor
    · rintro ⟨e, ⟨he, hflag⟩, rfl⟩
      exact ⟨(flags_of_mem he).1, (flags_of_mem he).2.1 ▸ hflag⟩
    · rintro ⟨hsome, hflag⟩
      obtain ⟨m, hm⟩ := List.exists_mem_of_ne_nil _ hsome
      have hkey : k ∈ list.map (·.key) := List.mem_map.mpr ⟨m, mem_mentions.mp hm⟩
      obtain ⟨e, he, rfl⟩ := List.mem_map.mp (mem_keys_dedupeIdentifiers.mpr hkey)
      exact ⟨e, ⟨he, (flags_of_mem he).2.1.trans hflag⟩, rfl⟩
  have hnodup (list : List ResolutionIdentifier) :
      (((dedupeIdentifiers list).filter (·.verified == verified)).map (·.key)).Nodup :=
    (dedupeIdentifiers_nodup list).sublist (List.filter_sublist.map _)
  refine insertionSort_eq_of_perm ?_ fun a _ b _ hab hba => key_eq_of_text (strLe_antisymm hab hba)
  rw [List.perm_ext_iff_of_nodup (hnodup l') (hnodup l)]
  intro k
  have hsame : (mentions k l').Perm (mentions k l) := hperm.filter _
  have hnil : mentions k l' = [] ↔ mentions k l = [] := by
    rw [← List.length_eq_zero_iff, hsame.length_eq, List.length_eq_zero_iff]
  rw [hmem, hmem, hsame.any_eq, ne_eq, hnil]

/-- **Both flags are kept exactly where a key with a verified mention and a
primary one has a mention that is both.** -/
theorem dedupeIdentifiers_flagsKept_iff (l : List ResolutionIdentifier) :
    FlagsKept l ↔ BothAtOnce l := by
  constructor
  · intro h v hv p hp hkey hverified hprimary
    by_contra hnone
    -- the mentions that are not verified first
    let l' := l.filter (!·.verified) ++ l.filter (·.verified)
    have hperm : l'.Perm l := by
      have hsplit := List.filter_append_perm (fun m : ResolutionIdentifier => !m.verified) l
      simpa only [Bool.not_not] using hsplit
    have hentry : v.key ∈ (dedupeIdentifiers l).map (·.key) :=
      mem_keys_dedupeIdentifiers.mpr (List.mem_map_of_mem hv)
    obtain ⟨e, he, hekey⟩ := List.mem_map.mp hentry
    have htrue : e.isPrimary = true := (h.primary e he).mpr ⟨p, hp, hkey.trans hekey.symm, hprimary⟩
    obtain ⟨e', he', hekey', -, hsame⟩ := h.anyOrder l' hperm e he
    rw [htrue, (flags_of_mem he').2.2, hekey', hekey, List.any_eq_true] at hsame
    obtain ⟨m, hm, hmprimary⟩ := hsame
    have hsplit : mentions v.key l' =
        mentions v.key (l.filter (!·.verified)) ++ mentions v.key (l.filter (·.verified)) :=
      List.filter_append ..
    have hany : (mentions v.key l').any (·.verified) = true :=
      List.any_eq_true.mpr ⟨v, mem_mentions.mpr ⟨hperm.mem_iff.mpr hv, rfl⟩, hverified⟩
    have hunverified : ∀ a ∈ mentions v.key (l.filter (!·.verified)), (!a.verified) = true :=
      fun a ha => (List.mem_filter.mp (mem_mentions.mp ha).1).2
    rw [decisive, if_pos hany, hsplit, List.dropWhile_append_of_pos hunverified] at hm
    obtain ⟨hm, hmkey⟩ := mem_mentions.mp ((List.dropWhile_sublist _).subset hm)
    obtain ⟨hm, hmverified⟩ := List.mem_filter.mp hm
    exact hnone ⟨m, hm, hmkey, hmverified, hmprimary⟩
  · intro h
    refine ⟨dedupeIdentifiers_nodup l, fun k => mem_keys_dedupeIdentifiers,
      fun e he => verified_iff he, fun e he => h.primary_iff he, fun l' hperm e he => ?_,
      fun l' hperm tuple names => ?_⟩
    · have h' : BothAtOnce l' := by
        simpa only [BothAtOnce, hperm.mem_iff] using h
      have hkey : e.key ∈ (dedupeIdentifiers l').map (·.key) := by
        rw [mem_keys_dedupeIdentifiers, (hperm.map _).mem_iff, ← mem_keys_dedupeIdentifiers]
        exact List.mem_map_of_mem he
      obtain ⟨e', he', hekey⟩ := List.mem_map.mp hkey
      refine ⟨e', he', hekey, ?_, ?_⟩
      · rw [Bool.eq_iff_iff, verified_iff he', verified_iff he, hekey]
        simp only [hperm.mem_iff]
      · rw [Bool.eq_iff_iff, h'.primary_iff he', h.primary_iff he, hekey]
        simp only [hperm.mem_iff]
    · simp only [snapshotOf, keysOf_perm hperm]

/-- An address that is first primary and then verified. -/
def primaryThenVerified : List ResolutionIdentifier :=
  [(false, true), (true, false)].map fun (verified, isPrimary) =>
    ⟨⟨.email, js "ann@example.com"⟩, verified, isPrimary, none, none, none, none, none⟩

theorem primary_flag_dropped : ¬ FlagsKept primaryThenVerified := by
  intro h
  have hkept := (h.primary _ (List.mem_singleton.mpr (rfl : _ = primaryThenVerified[1]))).mpr
    ⟨primaryThenVerified[0], by decide⟩
  cases hkept

end AramoPlatform.Intelligence
