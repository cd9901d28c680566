import AramoPlatform.Intelligence.IdentityInvariant

/-!
# The identifiers of a snapshot

After a snapshot is recorded, the active identifiers of its reference are those
of the snapshot, on the subject of the reference, and a verified one is bound
unless another row has the key. The rows of other sources are as they were.
Recording the same identifiers again finds nothing to do.
-/

namespace AramoPlatform.Intelligence

open Js Lib List

/-- An active row of another source. -/
def SubjectIdentifier.foreignTo (referenceId : Nat) (i : SubjectIdentifier) : Bool :=
  i.status == .active && i.sourceReferenceId != some referenceId

/-- A row that says what the snapshot says. -/
structure SettledRow (rows : List SubjectIdentifier) (subjectId : Nat) (id : ResolutionIdentifier)
    (x : SubjectIdentifier) : Prop where
  key : x.key = id.key
  subject : x.subjectId = subjectId
  primary : x.isPrimary = id.isPrimary
  bound : id.verified = true → x.verificationStatus ≠ .verified →
    ∃ b ∈ rows, b.activeVerified = true ∧ b.key = id.key ∧ b.id ≠ x.id
  released : id.verified = false → x.verificationStatus ≠ .verified

section Queries

variable {db : GoldenDb}

theorem mem_activeIdentifiersOf {referenceId : Nat} {x : SubjectIdentifier} :
    x ∈ db.activeIdentifiersOf referenceId ↔ x ∈ db.identifiers ∧ x.ownedBy referenceId = true := by
  simp [GoldenDb.activeIdentifiersOf, SubjectIdentifier.ownedBy]

theorem mem_activeVerified {keys : List IdentifierKey} {x : SubjectIdentifier} :
    x ∈ db.activeVerified keys ↔ x ∈ db.identifiers ∧ x.activeVerified = true ∧ x.key ∈ keys := by
  simp [GoldenDb.activeVerified]

variable {key : IdentifierKey}

theorem boundElsewhere_eq_true {self : Option Nat} :
    boundElsewhere db key self = true ↔
      ∃ b ∈ db.identifiers, b.activeVerified = true ∧ b.key = key ∧ some b.id ≠ self := by
  simp only [boundElsewhere, any_eq_true, mem_activeVerified, mem_singleton, bne_iff_ne]
  constructor
  · rintro ⟨b, ⟨hb, hbound, hkey⟩, hne⟩
    exact ⟨b, hb, hbound, hkey, hne⟩
  · rintro ⟨b, hb, hbound, hkey, hne⟩
    exact ⟨b, ⟨hb, hbound, hkey⟩, hne⟩

variable {row : SubjectIdentifier}

theorem of_rowOfKey_eq_some {current : List SubjectIdentifier}
    (h : rowOfKey current key = some row) : row ∈ current ∧ row.key = key :=
  ⟨mem_reverse.mp (mem_of_find?_eq_some h), by simpa using find?_some h⟩

theorem of_rowOfKey_eq_none {current : List SubjectIdentifier}
    (h : rowOfKey current key = none) (hrow : row ∈ current) :
    row.key ≠ key := by
  simpa using find?_eq_none.mp h row (mem_reverse.mpr hrow)

theorem rowOfKey_of_mem {next : Nat} (h : IdentifiersInOrder db.identifiers next)
    {referenceId : Nat} (hrow : row ∈ db.activeIdentifiersOf referenceId) :
    rowOfKey (db.activeIdentifiersOf referenceId) row.key = some row := by
  cases hfind : rowOfKey (db.activeIdentifiersOf referenceId) row.key with
  | none => exact absurd rfl (of_rowOfKey_eq_none hfind hrow)
  | some other =>
    obtain ⟨hother, hkey⟩ := of_rowOfKey_eq_some hfind
    obtain ⟨hmem, hown⟩ := mem_activeIdentifiersOf.mp hrow
    obtain ⟨hmem', hown'⟩ := mem_activeIdentifiersOf.mp hother
    rw [h.own other hmem' row hmem referenceId hown' hown hkey]

end Queries

/-! ## One identifier -/

section Refresh

variable (db : GoldenDb) (subjectId : Nat) (id : ResolutionIdentifier)

theorem refreshIdentifier_kept (x : SubjectIdentifier) :
    IdentifiersInOrder.Kept x (refreshIdentifier db subjectId id x) := by
  unfold refreshIdentifier
  dsimp only
  split
  · exact ⟨rfl, rfl, rfl, fun h => h⟩
  · split
    · exact ⟨rfl, rfl, rfl, fun h => h⟩
    · exact ⟨rfl, rfl, rfl, fun h => h⟩

theorem refreshIdentifier_status (x : SubjectIdentifier) :
    (refreshIdentifier db subjectId id x).status = x.status := by
  unfold refreshIdentifier
  dsimp only
  split
  · rfl
  · split <;> rfl

variable {db subjectId id}

theorem refreshIdentifier_settled {row : SubjectIdentifier} (hkey : row.key = id.key)
    {rows : List SubjectIdentifier}
    (hrows : ∀ b ∈ db.identifiers, b.id ≠ row.id → b ∈ rows) :
    SettledRow rows subjectId id (refreshIdentifier db subjectId id row) := by
  unfold refreshIdentifier
  dsimp only
  split
  · -- newly bound
    exact ⟨hkey, rfl, rfl, fun _ hnot => absurd rfl hnot, by simp_all⟩
  case isFalse hnotbind =>
    split
    · -- released
      exact ⟨hkey, rfl, rfl, by simp_all, fun _ => IdentifierVerification.noConfusion⟩
    case isFalse hnotrelease =>
      refine ⟨hkey, rfl, rfl, ?_, ?_⟩
      · intro hverified hnot
        have helse : boundElsewhere db id.key (some row.id) = true := by simp_all
        obtain ⟨b, hb, hbound, hbkey, hne⟩ := boundElsewhere_eq_true.mp helse
        have hneid : b.id ≠ row.id := fun h => hne (congrArg some h)
        exact ⟨b, hrows b hb hneid, hbound, hbkey, hneid⟩
      · intro hplain
        simp_all

theorem refreshIdentifier_of_settled {row : SubjectIdentifier}
    (h : SettledRow db.identifiers subjectId id row) :
    refreshIdentifier db subjectId id row = row := by
  unfold refreshIdentifier
  dsimp only
  split
  case isTrue hbind =>
    simp only [Bool.and_eq_true, bne_iff_ne, Bool.not_eq_true'] at hbind
    obtain ⟨b, hb, hbound, hkey, hne⟩ := h.bound hbind.1.1 hbind.1.2
    have helse : boundElsewhere db id.key (some row.id) = true :=
      boundElsewhere_eq_true.mpr ⟨b, hb, hbound, hkey, fun h => hne (Option.some.inj h)⟩
    rw [helse] at hbind
    cases hbind.2
  · split
    case isTrue hrelease =>
      simp only [Bool.and_eq_true, Bool.not_eq_true', beq_iff_eq] at hrelease
      exact absurd hrelease.2 (h.released hrelease.1)
    · rw [← h.subject, ← h.primary]

theorem newIdentifier_settled (horder : IdentifiersInOrder db.identifiers db.nextId)
    (subjectId referenceId now : Nat) (id : ResolutionIdentifier) {rows : List SubjectIdentifier}
    (hrows : ∀ b ∈ db.identifiers, b ∈ rows) :
    SettledRow rows subjectId id (newIdentifier db subjectId referenceId now id) ∧
      (newIdentifier db subjectId referenceId now id).id = db.nextId ∧
      (newIdentifier db subjectId referenceId now id).sourceReferenceId = some referenceId ∧
      (newIdentifier db subjectId referenceId now id).status = .active ∧
      ((newIdentifier db subjectId referenceId now id).activeVerified = true →
        ∀ j ∈ db.identifiers, j.activeVerified = true → j.key ≠ id.key) := by
  unfold newIdentifier
  dsimp only
  split
  case isTrue hbind =>
    simp only [Bool.and_eq_true, Bool.not_eq_true'] at hbind
    refine ⟨⟨rfl, rfl, rfl, fun _ hnot => absurd rfl hnot, ?_⟩, rfl, rfl, rfl, ?_⟩
    · intro hplain
      rw [hbind.1] at hplain
      cases hplain
    · intro _ j hj hjbound hjkey
      have helse : boundElsewhere db id.key none = true :=
        boundElsewhere_eq_true.mpr ⟨j, hj, hjbound, hjkey, Option.some_ne_none _⟩
      rw [helse] at hbind
      cases hbind.2
  case isFalse hnot =>
    refine ⟨⟨rfl, rfl, rfl, ?_, fun _ => IdentifierVerification.noConfusion⟩, rfl, rfl, rfl, ?_⟩
    · intro hverified _
      have helse : boundElsewhere db id.key none = true := by simpa [hverified] using hnot
      obtain ⟨b, hb, hbound, hkey, -⟩ := boundElsewhere_eq_true.mp helse
      refine ⟨b, hrows b hb, hbound, hkey, ?_⟩
      exact Nat.ne_of_lt (horder.keyed.lt b hb)
    · intro hbound
      simp [SubjectIdentifier.activeVerified] at hbound

end Refresh

/-! ## All identifiers of a snapshot -/

/-- The database with other identifiers. -/
structure OnlyIdentifiers (db db' : GoldenDb) : Prop where
  rest : db' = { db with identifiers := db'.identifiers, nextId := db'.nextId }
  next : db.nextId ≤ db'.nextId

theorem OnlyIdentifiers.refl (db : GoldenDb) : OnlyIdentifiers db db := ⟨rfl, Nat.le_refl _⟩

theorem OnlyIdentifiers.trans {a b c : GoldenDb} (h : OnlyIdentifiers a b)
    (h' : OnlyIdentifiers b c) : OnlyIdentifiers a c := by
  refine ⟨?_, Nat.le_trans h.next h'.next⟩
  rw [h'.rest, h.rest]

/-- After the identifiers `done`. -/
structure Recording (db : GoldenDb) (subjectId referenceId : Nat) (done : List ResolutionIdentifier)
    (acc : GoldenDb) : Prop where
  frame : OnlyIdentifiers db acc
  order : IdentifiersInOrder acc.identifiers acc.nextId
  pending : ∀ x ∈ db.activeIdentifiersOf referenceId, x.key ∉ done.map (·.key) → x ∈ acc.identifiers
  own : ∀ x ∈ acc.identifiers, x.ownedBy referenceId = true → x.key ∉ done.map (·.key) →
    x ∈ db.activeIdentifiersOf referenceId
  foreign : acc.identifiers.filter (·.foreignTo referenceId) =
    db.identifiers.filter (·.foreignTo referenceId)
  settled : ∀ id ∈ done, ∃ x ∈ acc.identifiers, x.ownedBy referenceId = true ∧
    SettledRow acc.identifiers subjectId id x

section Recording

variable {db acc : GoldenDb} {subjectId referenceId now : Nat} {done : List ResolutionIdentifier}

theorem Recording.start (subjectId referenceId : Nat)
    (horder : IdentifiersInOrder db.identifiers db.nextId) :
    Recording db subjectId referenceId [] db := by
  refine ⟨.refl db, horder, ?_, ?_, rfl, by simp⟩
  · intro x hx _
    exact (mem_activeIdentifiersOf.mp hx).1
  · intro x hx hown _
    exact mem_activeIdentifiersOf.mpr ⟨hx, hown⟩

theorem not_foreignTo_of_ownedBy {x : SubjectIdentifier} (h : x.ownedBy referenceId = true) :
    x.foreignTo referenceId = false := by
  simp only [SubjectIdentifier.ownedBy, Bool.and_eq_true, beq_iff_eq] at h
  simp [SubjectIdentifier.foreignTo, h.1]

variable {id : ResolutionIdentifier}

theorem SettledRow.congr {rows rows' : List SubjectIdentifier}
    {x : SubjectIdentifier} (h : SettledRow rows subjectId id x)
    (hrows : ∀ b ∈ rows, b.key = id.key → b ∈ rows') : SettledRow rows' subjectId id x := by
  refine ⟨h.key, h.subject, h.primary, ?_, h.released⟩
  intro hverified hnot
  obtain ⟨b, hb, hbound, hkey, hne⟩ := h.bound hverified hnot
  exact ⟨b, hrows b hb hkey, hbound, hkey, hne⟩

section

variable (h : Recording db subjectId referenceId done acc)

include h

theorem Recording.create
    (hreference : referenceId < db.nextId)
    (hnew : id.key ∉ done.map (·.key))
    (hnone : rowOfKey (db.activeIdentifiersOf referenceId) id.key = none) :
    Recording db subjectId referenceId (done ++ [id])
      (acc.createIdentifier (newIdentifier acc subjectId referenceId now id)) := by
  have hkeep : ∀ b ∈ acc.identifiers,
      b ∈ acc.identifiers ++ [newIdentifier acc subjectId referenceId now id] :=
    fun b hb => mem_append_left _ hb
  obtain ⟨hsettled, hid, hsource, hstatus, hbound⟩ :=
    newIdentifier_settled h.order subjectId referenceId now id hkeep
  generalize newIdentifier acc subjectId referenceId now id =
    row at hsettled hid hsource hstatus hbound hkeep
  have hrow : { row with id := acc.nextId } = row := by rw [← hid]
  have hrows : (acc.createIdentifier row).identifiers = acc.identifiers ++ [row] := by
    simp only [GoldenDb.createIdentifier, hrow]
  have hrowown : row.ownedBy referenceId = true := by
    simp [SubjectIdentifier.ownedBy, hsource, hstatus]
  -- no row of the reference has the key yet
  have hfree : ∀ j ∈ acc.identifiers, j.ownedBy referenceId = true → j.key ≠ id.key := by
    intro j hj hjown hkey
    have hmem := h.own j hj hjown (hkey ▸ hnew)
    exact of_rowOfKey_eq_none hnone hmem hkey
  refine ⟨h.frame.trans ⟨rfl, Nat.le_succ _⟩, ?_, ?_, ?_, ?_, ?_⟩
  · rw [hrows]
    refine h.order.insert hid ?_ ?_ ?_
    · intro r hr
      rw [hsource] at hr
      obtain rfl := Option.some.inj hr
      exact Nat.lt_of_lt_of_le hreference h.frame.next
    · intro r hr j hj hjown
      have hsame : referenceId = r := by
        simp only [SubjectIdentifier.ownedBy, hsource, Bool.and_eq_true, beq_iff_eq] at hr
        exact Option.some.inj hr.1
      rw [hsettled.key]
      exact hfree j hj (hsame ▸ hjown)
    · rw [hsettled.key]
      exact hbound
  · intro x hx hnot
    rw [hrows]
    simp only [map_append, mem_append, not_or] at hnot
    exact hkeep x (h.pending x hx hnot.1)
  · intro x hx hown hnot
    rw [hrows] at hx
    simp only [map_append, map_cons, map_nil, mem_append, mem_singleton,
      not_or] at hnot
    rcases (mem_append.mp hx).imp_right mem_singleton.mp with hx | rfl
    · exact h.own x hx hown hnot.1
    · exact absurd hsettled.key hnot.2
  · rw [hrows, filter_append, h.foreign]
    simp [not_foreignTo_of_ownedBy hrowown]
  · intro done' hdone
    rw [hrows]
    rcases (mem_append.mp hdone).imp_right mem_singleton.mp with hdone | rfl
    · obtain ⟨x, hx, hown, hset⟩ := h.settled done' hdone
      exact ⟨x, hkeep x hx, hown, hset.congr fun b hb _ => hkeep b hb⟩
    · exact ⟨row, mem_append_right _ mem_cons_self, hrowown, hsettled⟩

theorem Recording.refresh
    (hnew : id.key ∉ done.map (·.key)) {row : SubjectIdentifier}
    (hrow : row ∈ db.activeIdentifiersOf referenceId) (hkey : row.key = id.key) :
    Recording db subjectId referenceId (done ++ [id])
      (acc.updateIdentifier row.id (refreshIdentifier acc subjectId id)) := by
  have hmem : row ∈ acc.identifiers := h.pending row hrow (hkey ▸ hnew)
  obtain ⟨-, hown⟩ := mem_activeIdentifiersOf.mp hrow
  have hkept := refreshIdentifier_kept acc subjectId id row
  have hin : ∀ {x : SubjectIdentifier}, x ∈ (acc.updateIdentifier row.id
      (refreshIdentifier acc subjectId id)).identifiers ↔
      x ∈ acc.identifiers ∧ x.id ≠ row.id ∨ x = refreshIdentifier acc subjectId id row :=
    mem_updateWhere_key h.order.keyed.nodup hmem
  -- a row of another key is not written
  have hother : ∀ b ∈ acc.identifiers, b.key ≠ id.key → b ∈ (acc.updateIdentifier row.id
      (refreshIdentifier acc subjectId id)).identifiers := by
    intro b hb hbkey
    refine hin.mpr (.inl ⟨hb, fun hid => hbkey ?_⟩)
    rw [inj_on_of_nodup_map h.order.keyed.nodup hb hmem hid, hkey]
  have hrowown : (refreshIdentifier acc subjectId id row).ownedBy referenceId = true := by
    have hstatus := refreshIdentifier_status acc subjectId id row
    simp only [SubjectIdentifier.ownedBy, hkept.source, hstatus]
    exact hown
  refine ⟨h.frame.trans ⟨rfl, Nat.le_refl _⟩, ?_, ?_, ?_, ?_, ?_⟩
  · refine h.order.update_row hmem (refreshIdentifier_kept acc subjectId id) fun hbound => ?_
    -- a row is bound when no other row has the key bound
    by_cases hwas : row.activeVerified = true
    · exact .inl hwas
    · refine .inr fun j hj hjbound hjkey => ?_
      have hne : j.id ≠ row.id := by
        intro hid
        rw [inj_on_of_nodup_map h.order.keyed.nodup hj hmem hid] at hjbound
        exact hwas hjbound
      have helse : boundElsewhere acc id.key (some row.id) = true := boundElsewhere_eq_true.mpr
        ⟨j, hj, hjbound, hjkey.trans hkey, fun h => hne (Option.some.inj h)⟩
      have hunchanged : (refreshIdentifier acc subjectId id row).verificationStatus = .verified →
          row.verificationStatus = .verified := by
        unfold refreshIdentifier
        simp only [helse, Bool.not_true, Bool.and_false, Bool.false_eq_true, if_false]
        split
        · exact fun h => IdentifierVerification.noConfusion h
        · intro hsame
          exact hsame
      simp only [SubjectIdentifier.activeVerified, Bool.and_eq_true, beq_iff_eq] at hbound hwas
      exact hwas ⟨hkept.status hbound.1, hunchanged hbound.2⟩
  · intro x hx hnot
    simp only [map_append, map_cons, map_nil, mem_append, mem_singleton,
      not_or] at hnot
    exact hother x (h.pending x hx hnot.1) hnot.2
  · intro x hx hxown hnot
    simp only [map_append, map_cons, map_nil, mem_append, mem_singleton,
      not_or] at hnot
    rcases hin.mp hx with ⟨hx, -⟩ | rfl
    · exact h.own x hx hxown hnot.1
    · exact absurd (hkept.key.trans hkey) hnot.2
  · rw [← h.foreign]
    refine filter_updateWhere fun r hr hid => ?_
    rw [inj_on_of_nodup_map h.order.keyed.nodup hr hmem (eq_of_beq hid)]
    exact ⟨not_foreignTo_of_ownedBy hown, not_foreignTo_of_ownedBy hrowown⟩
  · intro done' hdone
    rcases (mem_append.mp hdone).imp_right mem_singleton.mp with hdone | rfl
    · obtain ⟨x, hx, hxown, hset⟩ := h.settled done' hdone
      have hne : done'.key ≠ id.key := by
        intro heq
        exact hnew (heq ▸ mem_map_of_mem hdone)
      refine ⟨x, hother x hx (hset.key ▸ hne), hxown, hset.congr fun b hb hbkey => ?_⟩
      exact hother b hb (hbkey ▸ hne)
    · refine ⟨_, hin.mpr (.inr rfl), hrowown, refreshIdentifier_settled hkey fun b hb hne => ?_⟩
      exact hin.mpr (.inl ⟨hb, hne⟩)

theorem Recording.step
    (hreference : referenceId < db.nextId)
    (hnew : id.key ∉ done.map (·.key)) (changed : Bool) :
    Recording db subjectId referenceId (done ++ [id])
      (recordIdentifier (db.activeIdentifiersOf referenceId) subjectId referenceId now
        (changed, acc) id).2 := by
  unfold recordIdentifier
  cases hrow : rowOfKey (db.activeIdentifiersOf referenceId) id.key with
  | none => exact h.create hreference hnew hrow
  | some row =>
    obtain ⟨hmem, hkey⟩ := of_rowOfKey_eq_some hrow
    exact h.refresh hnew hmem hkey

end

theorem Recording.fold (now : Nat) (hreference : referenceId < db.nextId)
    (ids : List ResolutionIdentifier)
    (h : Recording db subjectId referenceId done acc) (hnodup : ((done ++ ids).map (·.key)).Nodup)
    (changed : Bool) :
    Recording db subjectId referenceId (done ++ ids)
      (ids.foldl (recordIdentifier (db.activeIdentifiersOf referenceId) subjectId referenceId now)
        (changed, acc)).2 := by
  induction ids generalizing done acc changed with
  | nil => simpa using h
  | cons id rest ih =>
    have hnew : id.key ∉ done.map (·.key) := by
      rw [map_append, map_cons, nodup_append] at hnodup
      intro hmem
      exact hnodup.2.2 _ hmem _ mem_cons_self rfl
    rw [append_cons] at hnodup ⊢
    exact ih (h.step hreference hnew changed) hnodup _

end Recording

/-! ## The dropped keys -/

section Drop

variable {db acc : GoldenDb} {subjectId referenceId now : Nat}

/-- A row that ends. -/
def superseded (now : Nat) (r : SubjectIdentifier) : SubjectIdentifier :=
  { r with status := .superseded, validTo := some now }

theorem superseded_kept (x : SubjectIdentifier) : IdentifiersInOrder.Kept x (superseded now x) :=
  ⟨rfl, rfl, rfl, fun h => IdentifierStatus.noConfusion h⟩

theorem dropIdentifiers_eq (rows : List SubjectIdentifier) (changed : Bool) :
    (rows.foldl (dropIdentifier now) (changed, acc)).2 =
      { acc with
        identifiers := updateWhere (fun r => (rows.map (·.id)).contains r.id) (superseded now)
          acc.identifiers } := by
  induction rows generalizing acc changed with
  | nil =>
    have hnone : updateWhere (fun r => ([] : List Nat).contains r.id) (superseded now)
        acc.identifiers = acc.identifiers := updateWhere_of_forall_not fun _ _ => rfl
    rw [map_nil, hnone]
    rfl
  | cons row rest ih =>
    rw [foldl_cons]
    show (rest.foldl (dropIdentifier now) (true,
      acc.updateIdentifier row.id (superseded now))).2 = _
    rw [ih]
    have htwice : updateWhere (fun r => (rest.map (·.id)).contains r.id) (superseded now)
        (updateWhere (·.id == row.id) (superseded now) acc.identifiers) = updateWhere
          (fun r => r.id == row.id || (rest.map (·.id)).contains r.id) (superseded now)
            acc.identifiers := by
      refine updateWhere_updateWhere ?_ ?_
      · exact fun _ => rfl
      · exact fun _ => rfl
    simp only [GoldenDb.updateIdentifier, htwice, map_cons, contains_cons]

/-- The identifiers of a snapshot, as they stand in the tables. -/
structure Recorded (before : GoldenDb) (subjectId referenceId : Nat)
    (ids : List ResolutionIdentifier) (after : GoldenDb) : Prop where
  frame : OnlyIdentifiers before after
  order : IdentifiersInOrder after.identifiers after.nextId
  foreign : after.identifiers.filter (·.foreignTo referenceId) =
    before.identifiers.filter (·.foreignTo referenceId)
  settled : ∀ id ∈ ids, ∃ x ∈ after.identifiers, x.ownedBy referenceId = true ∧
    SettledRow after.identifiers subjectId id x
  covered : ∀ x ∈ after.identifiers, x.ownedBy referenceId = true → x.key ∈ ids.map (·.key)

theorem recordIdentifiers_spec (now subjectId : Nat) (horder :
    IdentifiersInOrder db.identifiers db.nextId)
    (hreference : referenceId < db.nextId) {ids : List ResolutionIdentifier}
    (hnodup : (ids.map (·.key)).Nodup) :
    Recorded db subjectId referenceId ids
      (recordIdentifiers db subjectId referenceId now ids).2 := by
  have h := Recording.fold now hreference ids (Recording.start subjectId referenceId horder)
    (by simpa using hnodup) false
  rw [nil_append] at h
  unfold recordIdentifiers
  dsimp only
  generalize ids.foldl (recordIdentifier (db.activeIdentifiersOf referenceId) subjectId referenceId
    now) (false, db) = recorded at h ⊢
  obtain ⟨changed, acc⟩ := recorded
  rw [dropIdentifiers_eq]
  generalize hdrop : ((db.activeIdentifiersOf referenceId).filter fun row =>
    rowOfKey (db.activeIdentifiersOf referenceId) row.key == some row &&
      !(ids.map (·.key)).contains row.key) = dropped
  -- what is dropped: the rows of the reference whose keys are not in the snapshot
  have hdropped : ∀ x ∈ acc.identifiers, (dropped.map (·.id)).contains x.id = true ↔
      x.ownedBy referenceId = true ∧ x.key ∉ ids.map (·.key) := by
    intro x hx
    rw [contains_iff_mem, mem_map]
    constructor
    · rintro ⟨row, hrow, hid⟩
      rw [← hdrop, mem_filter, Bool.and_eq_true, Bool.not_eq_true'] at hrow
      obtain ⟨hcurrent, -, hkey⟩ := hrow
      have hkey : row.key ∉ ids.map (·.key) := by simpa using hkey
      rw [← inj_on_of_nodup_map h.order.keyed.nodup (h.pending row hcurrent hkey) hx hid]
      exact ⟨(mem_activeIdentifiersOf.mp hcurrent).2, hkey⟩
    · rintro ⟨hown, hkey⟩
      have hcurrent := h.own x hx hown hkey
      refine ⟨x, ?_, rfl⟩
      rw [← hdrop, mem_filter, rowOfKey_of_mem horder hcurrent]
      exact ⟨hcurrent, by simpa using hkey⟩
  have hstays : ∀ x ∈ acc.identifiers, x.key ∈ ids.map (·.key) →
      x ∈ updateWhere (fun r => (dropped.map (·.id)).contains r.id) (superseded now)
        acc.identifiers := by
    intro x hx hkey
    refine mem_updateWhere_of_not hx ?_
    rw [← Bool.not_eq_true, hdropped x hx]
    exact fun hd => hd.2 hkey
  refine ⟨h.frame.trans ⟨rfl, Nat.le_refl _⟩, ?_, ?_, ?_, ?_⟩
  · refine h.order.update_of_kept superseded_kept fun x hbound => ?_
    simp [SubjectIdentifier.activeVerified, superseded] at hbound
  · rw [← h.foreign]
    refine filter_updateWhere fun r hr hid => ?_
    exact ⟨not_foreignTo_of_ownedBy ((hdropped r hr).mp hid).1, rfl⟩
  · intro id hid
    obtain ⟨x, hx, hown, hset⟩ := h.settled id hid
    have hkey : id.key ∈ ids.map (·.key) := mem_map_of_mem hid
    refine ⟨x, hstays x hx (hset.key ▸ hkey), hown, hset.congr fun b hb hbkey => ?_⟩
    exact hstays b hb (hbkey ▸ hkey)
  · intro x hx hown
    rcases of_mem_updateWhere hx with ⟨hmem, hnot⟩ | ⟨y, hy, -, rfl⟩
    · by_contra hkey
      rw [(hdropped x hmem).mpr ⟨hown, hkey⟩] at hnot
      cases hnot
    · simp [SubjectIdentifier.ownedBy, superseded] at hown

theorem recordIdentifiers_of_recorded (horder : IdentifiersInOrder db.identifiers db.nextId)
    {ids : List ResolutionIdentifier}
    (hsettled : ∀ id ∈ ids, ∃ x ∈ db.identifiers, x.ownedBy referenceId = true ∧
      SettledRow db.identifiers subjectId id x)
    (hcovered : ∀ x ∈ db.identifiers, x.ownedBy referenceId = true → x.key ∈ ids.map (·.key)) :
    recordIdentifiers db subjectId referenceId now ids = (false, db) := by
  have hstep : ∀ id ∈ ids, recordIdentifier (db.activeIdentifiersOf referenceId) subjectId
      referenceId now (false, db) id = (false, db) := by
    intro id hid
    obtain ⟨x, hx, hown, hset⟩ := hsettled id hid
    have hrow := rowOfKey_of_mem horder (mem_activeIdentifiersOf.mpr ⟨hx, hown⟩)
    rw [hset.key] at hrow
    have hsame := refreshIdentifier_of_settled hset
    have hdb : db.updateIdentifier x.id (refreshIdentifier db subjectId id) = db := by
      have hrows : updateWhere (·.id == x.id) (refreshIdentifier db subjectId id) db.identifiers =
          db.identifiers := by
        refine updateWhere_eq_self fun r hr hrid => ?_
        rw [inj_on_of_nodup_map horder.keyed.nodup hr hx (eq_of_beq hrid), hsame]
      simp only [GoldenDb.updateIdentifier, hrows]
    simp only [recordIdentifier, hrow, hsame, hdb, bne_self_eq_false, Bool.or_self]
  have hfold : ids.foldl (recordIdentifier (db.activeIdentifiersOf referenceId)
    subjectId referenceId
      now) (false, db) = (false, db) := by
    clear hsettled hcovered
    induction ids with
    | nil => rfl
    | cons id rest ih =>
      rw [foldl_cons, hstep id mem_cons_self]
      exact ih fun id' hid' => hstep id' (mem_cons_of_mem _ hid')
  unfold recordIdentifiers
  dsimp only
  have hnone : ((db.activeIdentifiersOf referenceId).filter fun row =>
      rowOfKey (db.activeIdentifiersOf referenceId) row.key == some row &&
        !(ids.map (·.key)).contains row.key) = [] := by
    refine filter_eq_nil_iff.mpr fun row hrow => ?_
    obtain ⟨hmem, hown⟩ := mem_activeIdentifiersOf.mp hrow
    rw [contains_iff_mem.mpr (hcovered row hmem hown), Bool.not_true, Bool.and_false]
    exact Bool.false_ne_true
  rw [hfold, hnone]
  rfl

end Drop

end AramoPlatform.Intelligence
