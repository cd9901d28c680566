import AramoPlatform.Intelligence.Rebuild

/-!
# What a rebuild writes

The assertions that were read carry, after the rebuild, the status that the
view gave them; every contradiction of the view is linked; nothing else of the
golden model changes.
-/

namespace AramoPlatform.Intelligence

open Js Lib List

section Writes

variable {result : ProjectionResult} {links : List AssertionLink} {db : GoldenDb}
  {read : List Assertion} {pairs : List (Nat × Nat)}

/-! ## Statuses -/

/-- The status that a view gives to an assertion. -/
def viewedStatus (result : ProjectionResult) (a : Assertion) : AssertionStatus :=
  (result.statusOf a.id).getD a.currentStatus

/-- Where the view gives another status, the rebuild has an event for it. -/
def Recordable (result : ProjectionResult) (a : Assertion) : Prop :=
  ∀ next, result.statusOf a.id = some next → next = a.currentStatus ∨ (statusEvent next).isSome

theorem assertions_applyStatus {a : Assertion} (hrow : ∀ r ∈ db.assertions, r.id = a.id → r = a)
    (hrec : Recordable result a) :
    (applyStatus result db a).assertions =
      updateWhere (fun r => r.id == a.id) (withStatus (viewedStatus result)) db.assertions := by
  have hsame : viewedStatus result a = a.currentStatus →
      updateWhere (fun r => r.id == a.id) (withStatus (viewedStatus result)) db.assertions =
        db.assertions := by
    intro hview
    refine updateWhere_eq_self fun r hr hid => ?_
    obtain rfl := hrow r hr (by simpa using hid)
    rw [withStatus, hview]
  unfold applyStatus
  split
  next hnone =>
    rw [hsame]
    rw [viewedStatus, hnone]
    rfl
  next next hsome =>
    have hview : viewedStatus result a = next := by rw [viewedStatus, hsome]; rfl
    split
    next heq => rw [hsame (hview.trans heq)]
    next hne =>
      split
      next hevent =>
        have hrecorded := (hrec next hsome).resolve_left hne
        rw [hevent] at hrecorded
        cases hrecorded
      · show updateWhere (fun r => r.id == a.id) (fun r => { r with currentStatus := next })
          db.assertions = _
        refine map_congr_left fun r hr => ?_
        by_cases hid : r.id = a.id
        · obtain rfl := hrow r hr hid
          simp [withStatus, hview]
        · simp [hid]

/-- The rows that were read under the status of the view. -/
def settleRead (result : ProjectionResult) (read : List Assertion) (r : Assertion) : Assertion :=
  if r.id ∈ read.map (·.id) then withStatus (viewedStatus result) r else r

@[simp] theorem settleRead_subjectId (r : Assertion) :
    (settleRead result read r).subjectId = r.subjectId := by
  unfold settleRead
  split <;> rfl

theorem assertions_applyStatuses (hrows : ∀ a ∈ read, ∀ r ∈ db.assertions, r.id = a.id → r = a)
    (hd : DistinctIds read) (hrec : ∀ a ∈ read, Recordable result a) :
    (read.foldl (applyStatus result) db).assertions =
      db.assertions.map (settleRead result read) := by
  induction read generalizing db with
  | nil => exact (map_id _).symm
  | cons a rest ih =>
    have hstep := assertions_applyStatus (hrows a mem_cons_self) (hrec a mem_cons_self)
    obtain ⟨hnew, hdrest⟩ := nodup_cons.mp hd
    rw [foldl_cons, ih ?_ hdrest fun b hb => hrec b (mem_cons_of_mem _ hb), hstep,
      updateWhere, map_map]
    · refine map_congr_left fun r _ => ?_
      by_cases hid : r.id = a.id
      · have hout : (withStatus (viewedStatus result) r).id ∉ rest.map (·.id) := hid ▸ hnew
        simp only [Function.comp_apply, hid, beq_self_eq_true, if_true, settleRead, map_cons,
          mem_cons, true_or]
        rw [if_neg hout]
      · simp only [Function.comp_apply, settleRead, map_cons, mem_cons, hid, false_or,
          beq_eq_false_iff_ne.mpr hid, Bool.false_eq_true, if_false]
    · intro b hb r hr hid
      -- the rows of the rest were not touched by the first step
      have hne : b.id ≠ a.id := fun heq => by
        have hmem := mem_map_of_mem (f := fun x : Assertion => x.id) hb
        rw [heq] at hmem
        exact hnew hmem
      rw [hstep] at hr
      rcases of_mem_updateWhere hr with ⟨hr, -⟩ | ⟨r₀, -, hr₀, rfl⟩
      · exact hrows b (mem_cons_of_mem _ hb) r hr hid
      · have heq : r₀.id = a.id := by simpa using hr₀
        exact absurd (hid.symm.trans heq) hne

/-! ## Links -/

theorem assertionLinks_applyStatus (db : GoldenDb) (a : Assertion) :
    (applyStatus result db a).assertionLinks = db.assertionLinks := by
  unfold applyStatus
  repeat' split
  all_goals rfl

theorem assertions_applyContradictionLink (db : GoldenDb) (pair : Nat × Nat) :
    (applyContradictionLink links db pair).assertions = db.assertions := by
  unfold applyContradictionLink
  split <;> rfl

/-- A link says that two assertions contradict each other, in either order. -/
def LinksPair (l : AssertionLink) (pair : Nat × Nat) : Prop :=
  l.linkType = .contradicts ∧ ((l.fromAssertionId, l.toAssertionId) = pair ∨
    (l.toAssertionId, l.fromAssertionId) = pair)

variable {pair : Nat × Nat}

theorem isLinked_iff :
    (links.any fun l => l.linkType == .contradicts &&
      ((l.fromAssertionId, l.toAssertionId) == pair ||
        (l.toAssertionId, l.fromAssertionId) == pair)) = true ↔ ∃ l ∈ links, LinksPair l pair := by
  simp only [any_eq_true, Bool.and_eq_true, Bool.or_eq_true, beq_iff_eq, LinksPair]

/-- The links only grow, by contradictions. -/
structure LinksGrow (old new : List AssertionLink) : Prop where
  kept : ∀ l ∈ old, l ∈ new
  fresh : ∀ l ∈ new, l ∈ old ∨ l.linkType = .contradicts

theorem LinksGrow.refl (old : List AssertionLink) : LinksGrow old old :=
  ⟨fun _ h => h, fun _ h => .inl h⟩

theorem LinksGrow.trans {old mid new : List AssertionLink} (h : LinksGrow old mid)
    (h' : LinksGrow mid new) : LinksGrow old new where
  kept := fun l hl => h'.kept l (h.kept l hl)
  fresh := by
    intro l hl
    rcases h'.fresh l hl with hmid | htype
    · exact h.fresh l hmid
    · exact .inr htype

theorem linksGrow_applyContradictionLink (db : GoldenDb) (pair : Nat × Nat) :
    LinksGrow db.assertionLinks (applyContradictionLink links db pair).assertionLinks := by
  unfold applyContradictionLink
  split
  · exact .refl _
  · constructor
    · intro l hl
      exact mem_append_left _ hl
    · intro l hl
      rcases mem_append.mp hl with hl | hl
      · exact .inl hl
      · exact .inr (mem_singleton.mp hl ▸ rfl)

theorem linksGrow_applyContradictionLinks (db : GoldenDb) :
    LinksGrow db.assertionLinks (pairs.foldl (applyContradictionLink links) db).assertionLinks := by
  induction pairs generalizing db with
  | nil => exact .refl _
  | cons pair rest ih => exact (linksGrow_applyContradictionLink db pair).trans (ih _)

theorem linked_applyContradictionLinks (hlinks : ∀ l ∈ links, l ∈ db.assertionLinks)
    (hpair : pair ∈ pairs) :
    ∃ l ∈ (pairs.foldl (applyContradictionLink links) db).assertionLinks, LinksPair l pair := by
  induction pairs generalizing db with
  | nil => cases hpair
  | cons p rest ih =>
    have hgrow : LinksGrow db.assertionLinks (applyContradictionLink links db p).assertionLinks :=
      linksGrow_applyContradictionLink db p
    rcases mem_cons.mp hpair with rfl | hpair
    · have hlinked : ∃ l ∈ (applyContradictionLink links db pair).assertionLinks,
          LinksPair l pair := by
        unfold applyContradictionLink
        split
        next hany =>
          obtain ⟨l, hl, hp⟩ := isLinked_iff.mp hany
          exact ⟨l, hlinks l hl, hp⟩
        · exact ⟨_, mem_append_right _ (mem_singleton.mpr rfl), rfl, .inl rfl⟩
      obtain ⟨l, hl, hp⟩ := hlinked
      rw [foldl_cons]
      exact ⟨l, (linksGrow_applyContradictionLinks _).kept l hl, hp⟩
    · exact ih (fun l hl => hgrow.kept l (hlinks l hl)) hpair

/-- One step of `unlinkedPairs`. -/
def keepPair (out : List (Nat × Nat)) (p : Nat × Nat) : List (Nat × Nat) :=
  if out.contains p || out.contains (p.2, p.1) then out else out ++ [p]

theorem unlinkedPairs_eq (pairs : List (Nat × Nat)) :
    unlinkedPairs pairs = pairs.foldl keepPair [] := rfl

variable {out : List (Nat × Nat)}

theorem mem_keepPair {p q : Nat × Nat} (h : q ∈ keepPair out p) :
    q ∈ out ∨ q = p := by
  unfold keepPair at h
  split at h
  · exact .inl h
  · exact (mem_append.mp h).imp_right mem_singleton.mp

theorem subset_keepPair (p : Nat × Nat) {q : Nat × Nat} (h : q ∈ out) :
    q ∈ keepPair out p := by
  unfold keepPair
  split
  · exact h
  · exact mem_append_left _ h

theorem keepPair_self (out : List (Nat × Nat)) (p : Nat × Nat) :
    p ∈ keepPair out p ∨ (p.2, p.1) ∈ keepPair out p := by
  unfold keepPair
  split
  next hany => rwa [Bool.or_eq_true, contains_iff_mem, contains_iff_mem] at hany
  · exact .inl (mem_append_right _ (mem_singleton.mpr rfl))

theorem subset_foldl_keepPair {q : Nat × Nat} (h : q ∈ out) :
    q ∈ pairs.foldl keepPair out := by
  induction pairs generalizing out with
  | nil => exact h
  | cons p rest ih => exact ih (subset_keepPair p h)

theorem mem_unlinkedPairs (h : pair ∈ pairs) :
    pair ∈ unlinkedPairs pairs ∨ (pair.2, pair.1) ∈ unlinkedPairs pairs := by
  rw [unlinkedPairs_eq]
  generalize ([] : List (Nat × Nat)) = out
  induction pairs generalizing out with
  | nil => cases h
  | cons p rest ih =>
    rw [foldl_cons]
    rcases mem_cons.mp h with rfl | h
    · exact (keepPair_self out pair).imp subset_foldl_keepPair subset_foldl_keepPair
    · exact ih h _

theorem unlinkedPairs_subset (h : pair ∈ unlinkedPairs pairs) : pair ∈ pairs := by
  have hall : ∀ (ps out : List (Nat × Nat)), pair ∈ ps.foldl keepPair out →
      pair ∈ out ∨ pair ∈ ps := by
    intro ps
    induction ps with
    | nil => exact fun out hp => .inl hp
    | cons q rest ih =>
      intro out hp
      rcases ih _ hp with hp | hp
      · exact (mem_keepPair hp).imp_right fun heq : pair = q => heq ▸ mem_cons_self
      · exact .inr (mem_cons_of_mem _ hp)
  exact (hall pairs [] h).resolve_left not_mem_nil

/-! ## The golden model after a rebuild -/

theorem writeProjection_assertions
    (hrows : ∀ a ∈ read, ∀ r ∈ db.assertions, r.id = a.id → r = a) (hd : DistinctIds read)
    (hrec : ∀ a ∈ read, Recordable result a) :
    (writeProjection read links result db).assertions =
      db.assertions.map (settleRead result read) := by
  rw [writeProjection, foldl_frame (g := GoldenDb.assertions) assertions_applyContradictionLink,
    assertions_applyStatuses hrows hd hrec]

theorem writeProjection_links :
    LinksGrow db.assertionLinks (writeProjection read links result db).assertionLinks := by
  have hstatus : (read.foldl (applyStatus result) db).assertionLinks = db.assertionLinks :=
    foldl_frame (g := GoldenDb.assertionLinks) assertionLinks_applyStatus read db
  rw [← hstatus]
  exact linksGrow_applyContradictionLinks _

theorem writeProjection_linked (hlinks : ∀ l ∈ links, l ∈ db.assertionLinks)
    (h : pair ∈ result.contradictions) :
    ∃ l ∈ (writeProjection read links result db).assertionLinks, LinksPair l pair := by
  have hstatus : (read.foldl (applyStatus result) db).assertionLinks = db.assertionLinks :=
    foldl_frame (g := GoldenDb.assertionLinks) assertionLinks_applyStatus read db
  have hread : ∀ l ∈ links, l ∈ (read.foldl (applyStatus result) db).assertionLinks := by
    rwa [hstatus]
  rcases mem_unlinkedPairs h with hp | hp
  · exact linked_applyContradictionLinks hread hp
  · obtain ⟨l, hl, htype, hends⟩ := linked_applyContradictionLinks hread hp
    refine ⟨l, hl, htype, ?_⟩
    rcases hends with heq | heq
    · exact .inr (by rw [Prod.mk.injEq] at heq; exact Prod.ext heq.2 heq.1)
    · exact .inl (by rw [Prod.mk.injEq] at heq; exact Prod.ext heq.2 heq.1)

/-- Nothing is written where every status is the view's and every pair is linked. -/
theorem writeProjection_eq_self (hstatus : ∀ a ∈ read, result.statusOf a.id = some a.currentStatus)
    (hlinked : ∀ pair ∈ result.contradictions, ∃ l ∈ links, LinksPair l pair) :
    writeProjection read links result db = db := by
  have hone : read.foldl (applyStatus result) db = db := by
    induction read with
    | nil => rfl
    | cons a rest ih =>
      have hsame : applyStatus result db a = db := by
        rw [applyStatus, hstatus a mem_cons_self]
        exact if_pos rfl
      rw [foldl_cons, hsame, ih fun b hb => hstatus b (mem_cons_of_mem _ hb)]
  have htwo : ∀ ps : List (Nat × Nat), (∀ p ∈ ps, ∃ l ∈ links, LinksPair l p) →
      ps.foldl (applyContradictionLink links) db = db := by
    intro ps hps
    induction ps with
    | nil => rfl
    | cons p rest ih =>
      have hsame : applyContradictionLink links db p = db :=
        if_pos (isLinked_iff.mpr (hps p mem_cons_self))
      rw [foldl_cons, hsame, ih fun q hq => hps q (mem_cons_of_mem _ hq)]
  rw [writeProjection, hone, htwo _ fun p hp => hlinked p (unlinkedPairs_subset hp)]

/-- The tables that a rebuild does not write. -/
structure SameOutside (db db' : GoldenDb) : Prop where
  subjects : db'.subjects = db.subjects
  references : db'.references = db.references
  identifiers : db'.identifiers = db.identifiers
  artifacts : db'.artifacts = db.artifacts
  supports : db'.supports = db.supports
  entitlements : db'.entitlements = db.entitlements

theorem SameOutside.refl (db : GoldenDb) : SameOutside db db := ⟨rfl, rfl, rfl, rfl, rfl, rfl⟩

theorem SameOutside.trans {db db' db'' : GoldenDb} (h : SameOutside db db')
    (h' : SameOutside db' db'') : SameOutside db db'' where
  subjects := h'.subjects.trans h.subjects
  references := h'.references.trans h.references
  identifiers := h'.identifiers.trans h.identifiers
  artifacts := h'.artifacts.trans h.artifacts
  supports := h'.supports.trans h.supports
  entitlements := h'.entitlements.trans h.entitlements

theorem writeProjection_outside : SameOutside db (writeProjection read links result db) := by
  have hstatus : ∀ db' a, SameOutside db' (applyStatus result db' a) := by
    intro db' a
    unfold applyStatus
    repeat' split
    all_goals exact ⟨rfl, rfl, rfl, rfl, rfl, rfl⟩
  have hlink : ∀ db' p, SameOutside db' (applyContradictionLink links db' p) := by
    intro db' p
    unfold applyContradictionLink
    split <;> exact ⟨rfl, rfl, rfl, rfl, rfl, rfl⟩
  have hone : ∀ db', SameOutside db' (read.foldl (applyStatus result) db') := by
    intro db'
    induction read generalizing db' with
    | nil => exact .refl _
    | cons a rest ih => exact (hstatus db' a).trans (ih _)
  have htwo : ∀ (ps : List (Nat × Nat)) (db' : GoldenDb),
      SameOutside db' (ps.foldl (applyContradictionLink links) db') := by
    intro ps
    induction ps with
    | nil => exact fun db' => .refl _
    | cons p rest ih => exact fun db' => (hlink db' p).trans (ih _)
  exact (hone db).trans (htwo _ _)

end Writes

end AramoPlatform.Intelligence
