import AramoPlatform.Intelligence.GoldenTransactions

/-!
# Rules for the golden transactions

The preconditions of single statements, of the locks and of the walk along a
merge chain, and the tables that the parts of a transaction write.
-/

namespace AramoPlatform.Intelligence

open Js Lib

namespace GoldenTx

variable {ok : goldenStore.Check} {db : GoldenDb} {α β : Type}

/-! ## Statements -/

theorem wp_read {q : GoldenQuery} {Q : q.Rows → GoldenDb → Prop} :
    (read q).wp ok Q db ↔ ∀ a : q.Rows, ok (.read q) a db → Q a db :=
  ⟨fun h a ha => h a ha rfl, fun h a ha _ => h a ha⟩

variable {Q : Unit → GoldenDb → Prop}

theorem wp_write {c : GoldenWrite} :
    (write c).wp ok Q db ↔ (ok (.write c) () db → Constraints (db.write c) → Q () (db.write c)) :=
  ⟨fun h ha hc => h () ha (decide_eq_true hc), fun h _ ha hc => h ha (of_decide_eq_true hc)⟩

@[simp] theorem wp_refuse {Q : α → GoldenDb → Prop} (e : GoldenError) :
    (refuse e : GoldenTx α).wp ok Q db := trivial

@[simp] theorem wp_orThrow {Q : α → GoldenDb → Prop} (x : Option α) (e : GoldenError) :
    (orThrow x e).wp ok Q db ↔ ∀ a, x = some a → Q a db := by
  cases x with
  | none | some => simp [orThrow]

@[simp] theorem wp_require (cond : Bool) (e : GoldenError) :
    (require cond e).wp ok Q db ↔ (cond = true → Q () db) :=
  Tx.wp_require (σ := goldenStore) cond e db

@[simp] theorem wp_newId {Q : Nat → GoldenDb → Prop} : newId.wp ok Q db ↔ ∀ n, Q n db := Iff.rfl

theorem wp_lockAll (keys : List JsString) (h : Q () db) :
    (lockAll keys).wp ok Q db := by
  refine Tx.wp_mono (Tx.wp_forEach (I := fun d => d = db) ?_ rfl) ?_
  · intro key _ d hd _ _ _
    exact hd
  · rintro _ d rfl
    exact h

/-! ## Writes on some tables -/

/-- The writes of a transaction go to the tables only. -/
def Writes (tables : List GoldenTable) (t : GoldenTx α) : Prop :=
  t.Only fun s : GoldenStmt => ∀ c, s = .write c → c.table ∈ tables

theorem writes_read (tables : List GoldenTable) (q : GoldenQuery) : Writes tables (read q) :=
  Tx.only_perform.mpr fun c h => by cases h

variable {tables : List GoldenTable}

theorem writes_write {c : GoldenWrite} (t : GoldenTable)
    (htable : c.table = t) (h : t ∈ tables) : Writes tables (write c) :=
  Tx.only_perform.mpr fun c' hc => by
    cases hc
    rw [htable]
    exact h

theorem Writes.when {cond : Bool} {t : GoldenTx Unit}
    (h : Writes tables t) : Writes tables (Tx.when cond t) :=
  Tx.only_when h

/-- A relation to the rows at the start that writes on other tables respect. -/
theorem wp_of_writes {I : GoldenDb → Prop} {t : GoldenTx α}
    (ht : Writes tables t)
    (hkeep : ∀ c db, c.table ∈ tables → Constraints (db.write c) → I db → I (db.write c))
    (hdb : I db) : t.wp ok (fun _ d => I d) db := by
  refine Tx.wp_of_only ht ?_ hdb
  intro s a d hs _ hallowed hd
  cases s with
  | lock | read => exact hd
  | write c => exact hkeep c d (hs c rfl) (of_decide_eq_true hallowed) hd

/-! ## Merge chains -/

/-- The columns that a merge chain is followed by. -/
def SameLinks (s t : GoldenTalent) : Prop :=
  s.id = t.id ∧ (s.resolutionStatus = .merged ↔ t.resolutionStatus = .merged) ∧
    s.mergedIntoId = t.mergedIntoId

/-- A walk over rows that are like those of the database ends at a row like the
survivor. -/
theorem wp_followMerges {like : GoldenTalent → GoldenTalent → Prop}
    (hlinks : ∀ s t, like s t → SameLinks s t)
    (hok : ∀ id s, ok (.read (.subject id)) (some s) db → ∃ t, db.subject? id = some t ∧ like s t)
    {Q : GoldenTalent → GoldenDb → Prop} {fuel id : Nat}
    (h : ∀ s t, Intelligence.followMerges db fuel id = .ok t → like s t → Q s db) :
    (followMerges fuel id).wp ok Q db := by
  induction fuel generalizing id with
  | zero => trivial
  | succ fuel ih =>
    rw [followMerges, bind_eq_tx, Tx.wp_bind, wp_read]
    intro found hfound
    rw [bind_eq_tx, Tx.wp_bind, wp_orThrow]
    rintro s rfl
    obtain ⟨t, ht, hlike⟩ := hok id s hfound
    obtain ⟨-, hmerged, hinto⟩ := hlinks s t hlike
    have hend : ¬(t.resolutionStatus = .merged ∧ t.mergedIntoId.isSome = true) →
      Q s db := fun hend =>
      h s t (followMerges_succ.mpr ⟨t, ht, .inr ⟨hend, rfl⟩⟩) hlike
    cases hs : s.mergedIntoId with
    | none => exact hend (by simp [← hinto, hs])
    | some into =>
      show (if s.resolutionStatus = .merged then followMerges fuel into else Tx.pure s).wp ok Q db
      split
      next hm =>
        refine ih fun s' t' ht' hlike' => h s' t' ?_ hlike'
        exact followMerges_succ.mpr ⟨t, ht, .inl ⟨hmerged.mp hm, into, hinto ▸ hs, ht'⟩⟩
      next hm => exact hend fun hboth => hm (hmerged.mpr hboth.1)

/-! ## The tables of the parts -/

theorem Writes.bind {t : GoldenTx α} {f : α → GoldenTx β}
    (ht : Writes tables t) (hf : ∀ a, Writes tables (f a)) : Writes tables (t >>= f) :=
  Tx.only_bind ht hf

theorem writes_pure (tables : List GoldenTable) (a : α) : Writes tables (pure a) := trivial

theorem writes_orThrow (tables : List GoldenTable) (x : Option α) (e : GoldenError) :
    Writes tables (orThrow x e) := by
  cases x with
  | none | some => trivial

theorem writes_followMerges (tables : List GoldenTable) (fuel id : Nat) :
    Writes tables (followMerges fuel id) := by
  induction fuel generalizing id with
  | zero => trivial
  | succ fuel ih =>
    refine (writes_read tables _).bind fun found => (writes_orThrow tables found _).bind fun s => ?_
    cases s.mergedIntoId with
    | none => trivial
    | some into =>
      show Writes tables (if s.resolutionStatus = .merged then followMerges
        fuel into else Tx.pure s)
      split
      · exact ih into
      · trivial

theorem writes_survivorsOf (tables : List GoldenTable) (rows : List SubjectIdentifier) :
    Writes tables (survivorsOf rows) := by
  induction rows with
  | nil => trivial
  | cons row rest ih =>
    exact (writes_followMerges tables _ _).bind fun _ => ih.bind fun _ => trivial

theorem writes_subjectNames (tables : List GoldenTable) (ids : List Nat) :
    Writes tables (subjectNames ids) := by
  induction ids with
  | nil => trivial
  | cons s rest ih => exact (writes_read tables _).bind fun _ => ih.bind fun _ => trivial

theorem writes_createConflicts (subjectId : Nat) (conflicts : List PlannedConflict) :
    Writes [.conflicts] (createConflicts subjectId conflicts) :=
  Tx.only_forEach fun _ => Tx.only_bind Tx.only_newId fun _ =>
    writes_write .conflicts rfl (by decide)

theorem writes_openConflicts (subjectId : Nat) (planned : List PlannedConflict) :
    Writes [.conflicts] (openConflicts subjectId planned) := by
  unfold openConflicts
  split
  · trivial
  · exact (writes_read _ _).bind fun _ => (writes_createConflicts subjectId _).bind fun _ => trivial

theorem writes_boundElsewhere (tables : List GoldenTable) (key : IdentifierKey)
    (selfId : Option Nat) : Writes tables (boundElsewhere key selfId) :=
  (writes_read tables _).bind fun _ => trivial

theorem writes_bothHold {t : GoldenTx Bool} (first : Bool)
    (h : Writes tables t) : Writes tables (bothHold first t) := by
  unfold bothHold
  split
  · exact h
  · trivial

theorem writes_recordIdentifier (current : List SubjectIdentifier) (subjectId referenceId now : Nat)
    (id : ResolutionIdentifier) :
    Writes [.identifiers] (recordIdentifier current subjectId referenceId now id) := by
  have hbound : ∀ selfId, Writes [.identifiers]
      (boundElsewhere id.key selfId >>= fun bound => pure !bound) :=
    fun selfId => (writes_boundElsewhere _ id.key selfId).bind fun _ => trivial
  unfold recordIdentifier
  split
  · refine (writes_bothHold _ (hbound none)).bind fun canBind => ?_
    exact Tx.only_bind Tx.only_newId fun _ =>
      (writes_write .identifiers rfl (by decide)).bind fun _ => trivial
  next row _ =>
    refine (Writes.when (writes_write .identifiers rfl (by decide))).bind fun _ => ?_
    refine (writes_bothHold _ (hbound (some row.id))).bind fun binds => ?_
    split
    · exact (writes_write .identifiers rfl (by decide)).bind fun _ => trivial
    · split
      · exact (writes_write .identifiers rfl (by decide)).bind fun _ => trivial
      · split
        · exact (writes_write .identifiers rfl (by decide)).bind fun _ => trivial
        · trivial

theorem writes_recordIdentifiers (subjectId referenceId now : Nat)
    (identifiers : List ResolutionIdentifier) :
    Writes [.identifiers] (recordIdentifiers subjectId referenceId now identifiers) := by
  refine (writes_read _ _).bind fun current => ?_
  refine Writes.bind (Tx.only_foldl fun changed id => ?_) fun recorded => ?_
  · exact (writes_recordIdentifier current subjectId referenceId now id).bind fun _ => trivial
  · exact Writes.bind (Tx.only_forEach fun _ =>
      writes_write .identifiers rfl (by decide)) fun _ => trivial

/-- The tables of claims. -/
def claimTables : List GoldenTable := [.assertions, .assertionEvents, .assertionLinks]

theorem writes_appendEvent (h : .assertionEvents ∈ tables)
    (assertionId : Nat) (eventType : AssertionEventType) (source target : Option AssertionStatus)
    (actor : JsString) : Writes tables (appendEvent assertionId eventType source target actor) :=
  Tx.only_bind Tx.only_newId fun _ => writes_write .assertionEvents rfl h

theorem writes_writeAssertions (req : TalentIngestRequest) (actor : JsString)
    (subjectId referenceId : Nat) (drafts : List AssertionDraft) :
    Writes claimTables (writeAssertions req actor subjectId referenceId drafts) := by
  refine (writes_read _ _).bind fun live => (writes_read _ _).bind fun revoked => ?_
  refine Writes.bind (Tx.only_foldl fun added d => ?_) fun added => ?_
  · exact Tx.only_bind Tx.only_newId fun id =>
      (writes_write .assertions rfl (by decide)).bind fun _ =>
      (writes_appendEvent (by decide) id _ _ _ _).bind fun _ => trivial
  refine Writes.bind (Tx.only_forEach fun a => ?_) fun _ => ?_
  · exact (writes_write .assertions rfl (by decide)).bind fun _ =>
      writes_appendEvent (by decide) a.id _ _ _ _
  refine Writes.bind (Tx.only_forEach fun old => ?_) fun _ => trivial
  unfold linkReplacement
  split
  · exact Tx.only_bind Tx.only_newId fun _ => writes_write .assertionLinks rfl (by decide)
  · trivial

/-! ## Parts that only read -/

theorem wp_of_reads {Q : α → GoldenDb → Prop} {t : GoldenTx α} (ht : Writes [] t)
    (h : ∀ a, Q a db) : t.wp ok Q db := by
  refine Tx.wp_mono (wp_of_writes (I := fun d => d = db) ht ?_ rfl) ?_
  · intro c d hc
    cases hc
  · rintro a d rfl
    exact h a

theorem wp_gatherFacts {Q : ResolutionFacts → GoldenDb → Prop} {input : ResolutionInput}
    {existing : Option (ExternalTalentReference × GoldenTalent)}
    (h : ∀ facts : ResolutionFacts, facts.existingReference =
      existing.map (fun e => ⟨e.1.id, e.2.id, e.1.lastIdentitySnapshot⟩) → Q facts db) :
    (gatherFacts input existing).wp ok Q db := by
  rw [gatherFacts, bind_eq_tx, Tx.wp_bind, wp_read]
  intro rows _
  rw [bind_eq_tx, Tx.wp_bind]
  refine wp_of_reads (writes_survivorsOf [] rows) fun found => ?_
  rw [bind_eq_tx, Tx.wp_bind]
  exact wp_of_reads (writes_subjectNames [] _) fun names => h _ rfl

theorem wp_replay {Q : Option InboxResponse → GoldenDb → Prop} {eventId : JsString}
    {tuple : SourceTuple} (h : ∀ a, Q a db) : (replay eventId tuple).wp ok Q db := by
  refine wp_of_reads ((writes_read [] _).bind fun found => ?_) h
  cases found with
  | none => trivial
  | some prior => exact Tx.only_bind (Tx.only_require _ _) fun _ => trivial

end GoldenTx

end AramoPlatform.Intelligence
