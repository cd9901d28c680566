import AramoPlatform.Intelligence.GoldenRules

/-!
# Access states

A subject that is not merged away is accessible while one of its references is
active. Ingest, erasure, merge and split each bring the access state of the
subjects they touch up to date from what they read, under the lock of one
reference or of the subjects. So the state is right as long as a transaction
commits on what it read.
-/

namespace AramoPlatform.Intelligence

open Js Lib List

/-! ## The invariant -/

def HasActiveReference (db : GoldenDb) (subjectId : Nat) : Prop :=
  ∃ r ∈ db.references, r.subjectId = subjectId ∧ r.status = .active

/-- The access state that the references of a subject call for. -/
def AccessRight (db : GoldenDb) (s : GoldenTalent) : Prop :=
  s.resolutionStatus ≠ .merged → (s.accessState = .active ↔ HasActiveReference db s.id)

/-- The access states are right, but perhaps for some subjects. -/
def AccessExcept (ids : List Nat) (db : GoldenDb) : Prop :=
  ∀ s ∈ db.subjects, s.id ∉ ids → AccessRight db s

section Invariant

variable {db db' : GoldenDb} {ids ids' : List Nat}

theorem AccessExcept.mono (h : AccessExcept ids db) (hsub : ids ⊆ ids') : AccessExcept ids' db :=
  fun s hs hid => h s hs fun hmem => hid (hsub hmem)

theorem AccessExcept.of_references (h : AccessExcept ids db) (hs : db'.subjects = db.subjects)
    (hrefs : ∀ x, x ∉ ids → (HasActiveReference db' x ↔ HasActiveReference db x)) :
    AccessExcept ids db' := by
  intro s hmem hid hlive
  rw [hrefs s.id hid]
  rw [hs] at hmem
  exact h s hmem hid hlive

theorem AccessExcept.of_same (h : AccessExcept ids db) (hs : db'.subjects = db.subjects)
    (hr : db'.references = db.references) : AccessExcept ids db' :=
  h.of_references hs fun x _ => by simp only [HasActiveReference, hr]

theorem hasActiveReference_update (ids : List Nat) {p : ExternalTalentReference → Bool}
    {f : ExternalTalentReference → ExternalTalentReference}
    (hr : db'.references = updateWhere p f db.references)
    (hf : ∀ r ∈ db.references, p r = true → r.subjectId ∈ ids ∧ (f r).subjectId ∈ ids) {x : Nat}
    (hx : x ∉ ids) : HasActiveReference db' x ↔ HasActiveReference db x := by
  unfold HasActiveReference
  rw [hr]
  refine exists_updateWhere_iff fun r hmem hp => ?_
  obtain ⟨hold, hnew⟩ := hf r hmem hp
  constructor
  · rintro ⟨rfl, -⟩
    exact absurd hnew hx
  · rintro ⟨rfl, -⟩
    exact absurd hold hx

theorem AccessExcept.updateSubject {id : Nat} {f : GoldenTalent → GoldenTalent}
    (h : AccessExcept (id :: ids) db) (hid : ∀ s, (f s).id = s.id)
    (hf : ∀ s ∈ db.subjects, s.id = id → (f s).resolutionStatus ≠ .merged →
      ((f s).accessState = .active ↔ HasActiveReference db id)) :
    AccessExcept ids (db.updateSubject id f) := by
  intro s hmem hout
  rcases of_mem_updateWhere hmem with ⟨hold, hne⟩ | ⟨s₀, hold, heq, rfl⟩
  · refine h s hold fun hin => ?_
    rcases mem_cons.mp hin with hself | hin
    · rw [hself, beq_self_eq_true] at hne
      cases hne
    · exact hout hin
  · obtain rfl := eq_of_beq heq
    intro hlive
    rw [hid s₀]
    exact hf s₀ hold rfl hlive

theorem AccessExcept.of_right (id : Nat) (h : AccessExcept (id :: ids) db)
    (hright : ∀ s ∈ db.subjects, s.id = id → AccessRight db s) : AccessExcept ids db := by
  intro s hmem hout
  by_cases heq : s.id = id
  · exact hright s hmem heq
  · refine h s hmem fun hin => ?_
    rcases mem_cons.mp hin with hself | hin
    · exact heq hself
    · exact hout hin

theorem AccessExcept.insertSubject (h : AccessExcept ids db) (row : GoldenTalent) :
    AccessExcept (row.id :: ids) (db.write (.insertSubject row)) := by
  intro s hmem hout
  rcases mem_append.mp hmem with hmem | hnew
  · exact h s hmem fun hin => hout (mem_cons_of_mem _ hin)
  · rw [mem_singleton.mp hnew] at hout
    exact absurd mem_cons_self hout

theorem AccessExcept.repoint {moved : List Nat} {src into : Nat} (h : AccessExcept ids db)
    (hmoved : ∀ r ∈ db.references, r.id ∈ moved → r.subjectId = src) :
    AccessExcept (src :: into :: ids) (db.repointReferences moved into) := by
  refine (h.mono fun x hx =>
    mem_cons_of_mem _ (mem_cons_of_mem _ hx)).of_references rfl ?_
  intro x hx
  refine hasActiveReference_update (src :: into :: ids) rfl (fun r hr hp => ?_) hx
  rw [hmoved r hr (contains_iff_mem.mp hp)]
  exact ⟨mem_cons_self, mem_cons_of_mem _ mem_cons_self⟩

theorem AccessExcept.of_survivor {fuel x : Nat} {t : GoldenTalent} (h : AccessExcept (x :: ids) db)
    (hnodup : (db.subjects.map (·.id)).Nodup) (hfollow : followMerges db fuel x = .ok t) :
    AccessExcept (t.id :: ids) db := by
  intro s hmem hout
  by_cases heq : s.id = x
  · cases fuel with
    | zero => cases hfollow
    | succ fuel =>
      obtain ⟨s', hs', hnext⟩ := followMerges_succ.mp hfollow
      have hsame : s' = s :=
        inj_on_of_nodup_map hnodup (mem_of_subject? hs').1 hmem
          ((mem_of_subject? hs').2.trans heq.symm)
      rw [hsame] at hnext
      rcases hnext with ⟨hmerged, -⟩ | ⟨-, rfl⟩
      · exact fun hlive => absurd hmerged hlive
      · exact absurd mem_cons_self hout
  · refine h s hmem fun hin => ?_
    rcases mem_cons.mp hin with hself | hin
    · exact heq hself
    · exact hout (mem_cons_of_mem _ hin)

end Invariant

/-! ## What must still stand -/

/-- The columns of a subject that an access state rests on. -/
def GoldenTalent.standing (s : GoldenTalent) : Nat × Bool × Option Nat × AccessState :=
  (s.id, s.resolutionStatus == .merged, s.mergedIntoId, s.accessState)

/-- At the commit, what a transaction read of subjects and of references is
still so: which subject a reference has, whether it is active, which references
a subject has, whether a subject is merged away and its access state. -/
def accessStands : (s : GoldenStmt) → s.Ans → GoldenDb → Prop
  | .read (.subject id), row, db => row.map (·.standing) = (db.subject? id).map (·.standing)
  | .read (.reference tuple), row, db =>
      row.map (fun r => (r.id, r.subjectId, r.status)) =
        (db.referenceByTuple? tuple).map fun r => (r.id, r.subjectId, r.status)
  | .read (.referenceRow id), row, db =>
      row.map (fun r => (r.id, r.subjectId)) =
        (db.references.find? (·.id == id)).map fun r => (r.id, r.subjectId)
  | .read (.referencesOf id), rows, db =>
      rows.map (fun r => (r.id, r.status)) = (db.referencesOf id).map fun r => (r.id, r.status)
  | _, _, _ => True

abbrev accessCheck : goldenStore.Check := accessStands

theorem sameLinks_of_standing {s t : GoldenTalent} (h : s.standing = t.standing) :
    GoldenTx.SameLinks s t := by
  simp only [GoldenTalent.standing, Prod.mk.injEq] at h
  refine ⟨h.1, ?_, h.2.2.1⟩
  have hmerged := h.2.1
  by_cases hs : s.resolutionStatus = .merged
  · simp [hs] at hmerged ⊢
    exact hmerged
  · simp [hs] at hmerged ⊢
    exact hmerged

/-! ## What the parts read -/

section Parts

variable {db : GoldenDb} {ids : List Nat}

variable {id : Nat}

theorem subject_of_stands {s : GoldenTalent}
    (h : accessStands (.read (.subject id)) (some s) db) :
    ∃ t, db.subject? id = some t ∧ s.standing = t.standing := by
  obtain ⟨t, ht, hst⟩ := Option.map_eq_some_iff.mp (Eq.symm h)
  exact ⟨t, ht, hst.symm⟩

theorem wp_survivor {Q : GoldenTalent → GoldenDb → Prop}
    (h : ∀ s t, survivingSubject db id = .ok t → s.standing = t.standing → Q s db) :
    (GoldenTx.survivingSubject id).wp accessCheck Q db :=
  GoldenTx.wp_followMerges (fun _ _ => sameLinks_of_standing) (fun _ _ => subject_of_stands) h

theorem wp_accessStateOf {Q : AccessState → GoldenDb → Prop}
    (h : ∀ a, (a = .active ↔ HasActiveReference db id) → Q a db) :
    (GoldenTx.accessStateOf id).wp accessCheck Q db := by
  rw [GoldenTx.accessStateOf, bind_eq_tx, Tx.wp_bind, GoldenTx.wp_read]
  intro refs hrefs
  have hany : refs.any (·.status == .active) = true ↔ HasActiveReference db id := by
    have hcols : (refs.map fun r => (r.id, r.status)).any (·.2 == .active) =
        ((db.referencesOf id).map fun r => (r.id, r.status)).any (·.2 == .active) :=
      congrArg (List.any · _) hrefs
    rw [any_map, any_map] at hcols
    rw [show refs.any (·.status == .active) = _ from hcols, any_eq_true]
    simp only [GoldenDb.referencesOf, mem_filter, beq_iff_eq, Function.comp_apply,
      HasActiveReference, and_assoc]
  refine h _ ?_
  split
  next hactive => exact ⟨fun _ => hany.mp hactive, fun _ => rfl⟩
  next hnone =>
    refine ⟨fun heq => ?_, fun hactive => absurd (hany.mpr hactive) hnone⟩
    cases heq

/-- A subject that was read with its state, and whose state is compared with
what the references call for. -/
theorem right_of_standing {s t : GoldenTalent} {access : AccessState} (hst :
    s.standing = t.standing)
    (hsame : s.accessState = access) (haccess : access = .active ↔ HasActiveReference db t.id) :
    AccessRight db t := by
  intro _
  simp only [GoldenTalent.standing, Prod.mk.injEq] at hst
  rw [← hst.2.2.2, hsame]
  exact haccess

/-- The state of affairs between two transactions. -/
structure AccessInOrder (db : GoldenDb) : Prop where
  constraints : Constraints db
  access : AccessExcept [] db

theorem wp_elsewhere {α : Type} {tables : List GoldenTable} {t : GoldenTx α}
    (ht : GoldenTx.Writes tables t) (hs : .subjects ∉ tables) (hr : .references ∉ tables)
    (h : AccessInOrder db) : t.wp accessCheck (fun _ d => AccessInOrder d) db := by
  refine GoldenTx.wp_of_writes ht (fun c d hmem hafter hd => ⟨hafter, ?_⟩) h
  refine hd.access.of_same (write_frame (t := .subjects) ?_) (write_frame (t := .references) ?_)
  · exact fun heq => hs (heq ▸ hmem)
  · exact fun heq => hr (heq ▸ hmem)

theorem wp_inbox {α : Type} {row : IntelligenceInbox} {a : α} (h : AccessInOrder db) :
    ((GoldenTx.write (.insertInbox row)).bind fun _ => Tx.pure a).wp accessCheck
      (fun _ d => AccessInOrder d) db := by
  have hwrites : GoldenTx.Writes [.inbox] (GoldenTx.write (.insertInbox row)) :=
    GoldenTx.writes_write .inbox rfl (by decide)
  exact wp_elsewhere (hwrites.bind fun _ => GoldenTx.writes_pure _ a) (by decide) (by decide) h

/-! ## Erasure -/

theorem wp_eraseReference {ref r : ExternalTalentReference} {now : Nat} (h : AccessInOrder db)
    (hr : r ∈ db.references) (hid : r.id = ref.id)
    (hsubject : r.subjectId = ref.subjectId) :
    (GoldenTx.eraseReference ref now).wp accessCheck (fun _ d => AccessInOrder d) db := by
  -- the rows after the reference is marked, when it was not
  have hrest : ∀ d, Constraints d → AccessExcept [ref.subjectId] d →
      ((GoldenTx.survivingSubject ref.subjectId).bind fun subject =>
        (GoldenTx.accessStateOf subject.id).bind fun access =>
        (Tx.when (subject.accessState != access) (GoldenTx.write (.updateSubject subject.id fun s =>
          { s with accessState := access }))).bind fun _ => Tx.pure (σ := goldenStore)
          (⟨if (ref.status == .erased) then .alreadyErased else .erased,
            some subject.id, some access,
            false⟩ : TalentErasedResponse)).wp accessCheck
        (fun _ d => AccessInOrder d) d := by
    intro d hd hdoubt
    rw [Tx.wp_bind]
    refine wp_survivor fun s t hfollow hst => ?_
    have hsid : s.id = t.id := (sameLinks_of_standing hst).1
    have hleft : AccessExcept [t.id] d := hdoubt.of_survivor hd.subjectIds hfollow
    rw [Tx.wp_bind]
    refine wp_accessStateOf fun access haccess => ?_
    rw [hsid] at haccess
    rw [Tx.wp_bind, Tx.wp_when]
    split
    · rw [GoldenTx.wp_write]
      intro _ hafter
      rw [hsid] at hafter ⊢
      exact ⟨hafter, hleft.updateSubject (fun _ => rfl) fun _ _ _ _ => haccess⟩
    next hsame =>
      refine ⟨hd, hleft.of_right t.id fun t' ht' hid' => ?_⟩
      have hfound := mem_of_subject? (survivor_of_followMerges hfollow).1
      have htt : t' = t := inj_on_of_nodup_map hd.subjectIds ht' hfound.1 hid'
      rw [htt]
      exact right_of_standing hst (by simpa using hsame) haccess
  rw [GoldenTx.eraseReference]
  simp only [bind_eq_tx, pure_eq_tx]
  rw [Tx.wp_bind, Tx.wp_when]
  split
  · rw [GoldenTx.wp_write]
    intro _ hafter
    refine hrest _ hafter ((h.access.mono (nil_subset _)).of_references rfl ?_)
    intro x hx
    refine hasActiveReference_update [ref.subjectId] rfl (fun r' hr' hp => ?_) hx
    have heq : r' = r := inj_on_of_nodup_map h.constraints.referenceIds hr' hr
      ((eq_of_beq hp).trans hid.symm)
    rw [heq, hsubject]
    exact ⟨mem_singleton_self _, mem_singleton_self _⟩
  · exact hrest db h.constraints (h.access.mono (nil_subset _))

theorem wp_erase {req : TalentErasedRequest} {principal : IngestPrincipal} {now : Nat}
    (h : AccessInOrder db) :
    (GoldenTx.erase req principal now).wp accessCheck (fun _ d => AccessInOrder d) db := by
  rw [GoldenTx.erase]
  simp only [bind_eq_tx]
  rw [Tx.wp_bind, GoldenTx.wp_require]
  intro _
  rw [Tx.wp_bind]
  refine GoldenTx.wp_lockAll _ ?_
  rw [Tx.wp_bind]
  refine GoldenTx.wp_replay fun prior => ?_
  split
  · exact h
  · trivial
  · rw [GoldenTx.applyErasure]
    simp only [bind_eq_tx]
    rw [Tx.wp_bind, GoldenTx.wp_read]
    intro found hfound
    rw [Tx.wp_bind]
    have hfirst : (GoldenTx.eraseFound now found).wp accessCheck (fun _ d =>
      AccessInOrder d) db := by
      cases found with
      | none => exact h
      | some ref =>
        obtain ⟨r, hr, hcols⟩ := Option.map_eq_some_iff.mp (Eq.symm hfound)
        simp only [Prod.mk.injEq] at hcols
        exact wp_eraseReference h (mem_of_referenceByTuple? hr).1 hcols.1 hcols.2.1
    refine Tx.wp_mono hfirst fun response d hd => ?_
    exact wp_inbox hd

/-! ## Ingest -/

/-- The subject, wherever it is, is accessible. -/
def Accessible (id : Nat) (db : GoldenDb) : Prop :=
  ∀ s ∈ db.subjects, s.id = id → s.accessState = .active

theorem wp_existingReference {tuple : SourceTuple}
    {Q : Option (ExternalTalentReference × GoldenTalent) → GoldenDb → Prop} (hnone : Q none db)
    (hsome : ∀ ref s t, ∀ r ∈ db.references, r.id = ref.id → r.subjectId = ref.subjectId →
      r.status = .active → survivingSubject db r.subjectId = .ok t → s.standing = t.standing →
      Q (some (ref, s)) db) :
    (GoldenTx.existingReference tuple).wp accessCheck Q db := by
  rw [GoldenTx.existingReference]
  simp only [bind_eq_tx]
  rw [Tx.wp_bind, GoldenTx.wp_read]
  intro found hfound
  cases found with
  | none => exact hnone
  | some ref =>
    obtain ⟨r, hr, hcols⟩ := Option.map_eq_some_iff.mp (Eq.symm hfound)
    simp only [Prod.mk.injEq] at hcols
    obtain ⟨hid, hsubject, hstatus⟩ := hcols
    show ((GoldenTx.require _ _).bind _).wp accessCheck Q db
    rw [Tx.wp_bind, GoldenTx.wp_require]
    intro hactive
    rw [Tx.wp_bind]
    refine wp_survivor fun s t hfollow hst => ?_
    rw [← hsubject] at hfollow
    exact hsome ref s t r (mem_of_referenceByTuple? hr).1 hid hsubject
      (hstatus.trans (of_decide_eq_true hactive)) hfollow hst

/-- The subject of the decision is accessible; the others are as they were. -/
structure SubjectPlaced (before db : GoldenDb) (id : Nat) : Prop where
  constraints : Constraints db
  access : AccessExcept [id] db
  accessible : Accessible id db
  references : db.references = before.references
  others : ∀ s ∈ db.subjects, s.id ≠ id → s ∈ before.subjects

theorem wp_placeSubject {decision : ResolutionDecision} (h : AccessInOrder db) :
    (GoldenTx.placeSubject decision).wp accessCheck
      (fun id d => SubjectPlaced db d id ∧ ∀ x, decision.subjectId = some x → id = x) db := by
  unfold GoldenTx.placeSubject
  split
  next hdecision =>
    simp only [bind_eq_tx]
    rw [Tx.wp_bind, GoldenTx.wp_newId]
    intro n
    rw [Tx.wp_bind, GoldenTx.wp_write]
    intro _ hafter
    refine ⟨⟨hafter, h.access.insertSubject _, ?_, rfl, ?_⟩, fun x hx => ?_⟩
    · intro s hs hid
      have hnew : (⟨n, .provisional, .active, none⟩ : GoldenTalent) ∈
          (db.write (.insertSubject ⟨n, .provisional, .active, none⟩)).subjects :=
        mem_append_right _ (mem_singleton_self _)
      rw [inj_on_of_nodup_map hafter.subjectIds hs hnew hid]
    · intro s hs hne
      rcases mem_append.mp hs with hold | hnew
      · exact hold
      · rw [mem_singleton.mp hnew] at hne
        exact absurd rfl hne
    · rw [hdecision] at hx
      cases hx
  next id hdecision =>
    simp only [bind_eq_tx]
    rw [Tx.wp_bind, GoldenTx.wp_read]
    intro found hfound
    rw [Tx.wp_bind, GoldenTx.wp_orThrow]
    rintro subject rfl
    obtain ⟨t, ht, hst⟩ := subject_of_stands hfound
    have hthis : ∀ x, decision.subjectId = some x → id = x := fun x hx =>
      Option.some.inj (hdecision.symm.trans hx)
    rw [Tx.wp_bind, Tx.wp_when]
    split
    · rw [GoldenTx.wp_write]
      intro _ hafter
      refine ⟨⟨hafter, ?_, ?_, rfl, ?_⟩, hthis⟩
      · intro s hs hid
        rcases of_mem_updateWhere hs with ⟨hold, -⟩ | ⟨s₀, hold, heq, rfl⟩
        · exact h.access s hold (not_mem_nil)
        · exact absurd (mem_singleton.mpr (eq_of_beq heq)) hid
      · intro s hs hid
        rcases of_mem_updateWhere hs with ⟨hold, hne⟩ | ⟨s₀, hold, heq, rfl⟩
        · rw [hid, beq_self_eq_true] at hne
          cases hne
        · show (if subject.accessState != .active then AccessState.active
            else s₀.accessState) = .active
          split
          · rfl
          next hsame =>
            have hfind := mem_of_subject? ht
            have heq' : s₀ = t := inj_on_of_nodup_map h.constraints.subjectIds hold hfind.1
              ((eq_of_beq heq).trans hfind.2.symm)
            simp only [GoldenTalent.standing, Prod.mk.injEq] at hst
            rw [heq', ← hst.2.2.2]
            simpa using hsame
      · intro s hs hne
        rcases of_mem_updateWhere hs with ⟨hold, -⟩ | ⟨s₀, hold, heq, rfl⟩
        · exact hold
        · exact absurd (eq_of_beq heq) hne
    next hwritten =>
      refine ⟨⟨h.constraints, h.access.mono (nil_subset _), ?_, rfl, fun s hs _ => hs⟩, hthis⟩
      intro s hs hid
      have hfind := mem_of_subject? ht
      have heq' : s = t := inj_on_of_nodup_map h.constraints.subjectIds hs hfind.1
        (hid.trans hfind.2.symm)
      simp only [Bool.or_eq_true, not_or, bne_iff_ne, ne_eq, not_not] at hwritten
      simp only [GoldenTalent.standing, Prod.mk.injEq] at hst
      rw [heq', ← hst.2.2.2]
      exact hwritten.2

theorem AccessExcept.of_accessible (id : Nat) (h : AccessExcept (id :: ids) db)
    (haccessible : Accessible id db) (hactive : HasActiveReference db id) :
      AccessExcept ids db := by
  refine h.of_right id fun s hs hid _ => ?_
  rw [hid]
  exact ⟨fun _ => hactive, fun _ => haccessible s hs hid⟩

variable {input : ResolutionInput}

theorem wp_newReference {before : GoldenDb}
    (h : SubjectPlaced before db id) :
    (GoldenTx.placeReference none input id).wp accessCheck (fun _ d => AccessInOrder d) db := by
  unfold GoldenTx.placeReference
  simp only [bind_eq_tx]
  rw [Tx.wp_bind, GoldenTx.wp_newId]
  intro n
  rw [Tx.wp_bind, GoldenTx.wp_write]
  intro _ hafter
  refine ⟨hafter, AccessExcept.of_accessible id ?_ h.accessible ?_⟩
  · refine h.access.of_references rfl fun x hx => ?_
    have hne : x ≠ id := fun heq => hx (mem_singleton.mpr heq)
    simp only [HasActiveReference, GoldenDb.write, mem_append, mem_singleton]
    constructor
    · rintro ⟨r, hold | rfl, hsubject, hactive⟩
      · exact ⟨r, hold, hsubject, hactive⟩
      · exact absurd hsubject.symm hne
    · rintro ⟨r, hold, hrest⟩
      exact ⟨r, .inl hold, hrest⟩
  · exact ⟨_, mem_append_right _ (mem_singleton_self _), rfl, rfl⟩

theorem wp_knownReference {before : GoldenDb}
    {ref r : ExternalTalentReference} (h : SubjectPlaced before db id) (hr : r ∈ before.references)
    (hid : r.id = ref.id) (hactive : r.status = .active)
    (hmerged : r.subjectId = id ∨ ∀ s ∈ before.subjects, s.id = r.subjectId →
      s.resolutionStatus = .merged) :
    (GoldenTx.placeReference (some ref) input id).wp accessCheck (fun _ d =>
      AccessInOrder d) db := by
  unfold GoldenTx.placeReference
  simp only [bind_eq_tx]
  rw [Tx.wp_bind, GoldenTx.wp_write]
  intro _ hafter
  set d := db.write (.updateReference ref.id fun r =>
    { r with lastIdentitySnapshot := snapshotOf input }) with hd
  -- the reference itself, with its new snapshot
  have hr' : { r with lastIdentitySnapshot := snapshotOf input } ∈ d.references := by
    refine mem_updateWhere_of_pos (h.references.symm ▸ hr) ?_
    rw [hid, beq_self_eq_true]
  have haccess : AccessExcept [id] d :=
    h.access.of_references rfl fun _ _ => exists_updateWhere_iff fun _ _ _ => Iff.rfl
  have hthis : ∀ r₁ ∈ d.references, r₁.id = ref.id →
      r₁ = { r with lastIdentitySnapshot := snapshotOf input } := fun r₁ hr₁ heq =>
    inj_on_of_nodup_map hafter.referenceIds hr₁ hr' (heq.trans hid.symm)
  rw [Tx.wp_bind, GoldenTx.wp_read]
  intro found hfound
  rw [Tx.wp_bind, GoldenTx.wp_orThrow]
  rintro reference rfl
  obtain ⟨r₁, hr₁, hcols⟩ := Option.map_eq_some_iff.mp (Eq.symm hfound)
  simp only [Prod.mk.injEq] at hcols
  have hrow := hthis r₁ (mem_of_find?_eq_some hr₁) (by simpa using find?_some hr₁)
  have hsubject : reference.subjectId = r.subjectId := by rw [← hcols.2, hrow]
  have hrid : reference.id = ref.id := by rw [← hcols.1, hrow, ← hid]
  rw [Tx.wp_bind, Tx.wp_when]
  split
  next hmoves =>
    rw [hsubject] at hmoves
    have hne : r.subjectId ≠ id := of_decide_eq_true hmoves
    rw [GoldenTx.wp_write]
    intro _ hafter'
    refine ⟨hafter', AccessExcept.of_accessible id ?_ h.accessible ?_⟩
    · -- the subject that the reference leaves is merged away
      have hmoved : AccessExcept (r.subjectId :: id :: [id])
        (d.repointReferences [reference.id] id) := by
        refine haccess.repoint fun r₁ hr₁ hmem => ?_
        rw [hthis r₁ hr₁ ((mem_singleton.mp hmem).trans hrid)]
      refine AccessExcept.of_right r.subjectId (hmoved.mono ?_) fun s hs hsid hlive => ?_
      · intro x hx
        simp only [mem_cons, not_mem_nil, or_false, or_self] at hx ⊢
        exact hx
      · refine absurd ((hmerged.resolve_left hne) s (h.others s hs ?_) hsid) hlive
        exact fun heq => hne (hsid.symm.trans heq)
    · refine ⟨{ { r with lastIdentitySnapshot := snapshotOf input } with subjectId := id },
        mem_updateWhere_of_pos hr' ?_, rfl, hactive⟩
      show [reference.id].contains r.id = true
      rw [hrid, hid]
      exact contains_iff_mem.mpr (mem_singleton_self _)
  next hstays =>
    refine ⟨hafter, AccessExcept.of_accessible id haccess h.accessible ?_⟩
    refine ⟨_, hr', ?_, hactive⟩
    show r.subjectId = id
    rw [← hsubject]
    simpa using hstays

theorem decided_of_existing {host : Host} {facts : ResolutionFacts} {e : ExistingReference}
    (h : facts.existingReference = some e) :
    (decideResolution host facts).subjectId = some e.subjectId := by
  simp only [decideResolution, h]

theorem start_of_survivor {x : Nat} {t : GoldenTalent} (hc : Constraints db)
    (h : survivingSubject db x = .ok t) :
    x = t.id ∨ ∀ s ∈ db.subjects, s.id = x → s.resolutionStatus = .merged := by
  obtain ⟨s, hs, hnext⟩ := followMerges_succ.mp h
  rcases hnext with ⟨hmerged, -⟩ | ⟨-, rfl⟩
  · refine .inr fun s' hs' hid => ?_
    have hfind := mem_of_subject? hs
    rw [inj_on_of_nodup_map hc.subjectIds hs' hfind.1 (hid.trans hfind.2.symm)]
    exact hmerged
  · exact .inl (mem_of_subject? hs).2.symm

theorem wp_resolve {host : Host} {now : Nat} (h : AccessInOrder db) :
    (GoldenTx.resolve host input now).wp accessCheck (fun _ d => AccessInOrder d) db := by
  -- what is left once the reference is placed
  have hrest : ∀ (decision : ResolutionDecision) (existing : Option (ExternalTalentReference ×
      GoldenTalent)) (subjectId referenceId : Nat) (d : GoldenDb), AccessInOrder d →
      ((GoldenTx.openConflicts subjectId decision.conflicts).bind fun opened =>
        (GoldenTx.recordIdentifiers subjectId referenceId now
          (dedupeIdentifiers input.identifiers)).bind fun changed => Tx.pure (σ := goldenStore)
          ({ subjectId := subjectId
             referenceId := referenceId
             rule := decision.rule
             createdSubject := decision.subjectId.isNone
             createdReference := existing.isNone
             conflictsOpened := opened
             identifiersChanged := changed } : ResolutionResult)).wp accessCheck
        (fun _ d => AccessInOrder d) d := by
    intro decision existing subjectId referenceId d hd
    rw [Tx.wp_bind]
    refine Tx.wp_mono (wp_elsewhere (GoldenTx.writes_openConflicts _ _)
      (by decide) (by decide) hd) ?_
    intro _ d₁ hd₁
    rw [Tx.wp_bind]
    exact wp_elsewhere (GoldenTx.writes_recordIdentifiers _ _ _ _) (by decide) (by decide) hd₁
  rw [GoldenTx.resolve]
  simp only [bind_eq_tx, pure_eq_tx]
  rw [Tx.wp_bind]
  refine wp_existingReference ?_ ?_
  · rw [Tx.wp_bind]
    refine GoldenTx.wp_gatherFacts fun facts _ => ?_
    rw [Tx.wp_bind]
    refine Tx.wp_mono (wp_placeSubject h) ?_
    rintro subjectId d ⟨hplaced, -⟩
    rw [Tx.wp_bind]
    refine Tx.wp_mono (wp_newReference hplaced) fun referenceId d' hd' => ?_
    exact hrest _ none subjectId referenceId d' hd'
  · intro ref s t r hr hid hsubject hactive hfollow hst
    rw [Tx.wp_bind]
    refine GoldenTx.wp_gatherFacts fun facts hfacts => ?_
    rw [Tx.wp_bind]
    refine Tx.wp_mono (wp_placeSubject h) ?_
    rintro subjectId d ⟨hplaced, hthis⟩
    -- the subject of the decision is the survivor of the reference's subject
    have hsurvivor : subjectId = t.id :=
      (hthis _ (decided_of_existing hfacts)).trans (sameLinks_of_standing hst).1
    rw [Tx.wp_bind]
    refine Tx.wp_mono (wp_knownReference hplaced hr hid hactive ?_) fun referenceId d' hd' => ?_
    · rw [hsurvivor]
      exact start_of_survivor h.constraints hfollow
    · exact hrest _ (some (ref, s)) subjectId referenceId d' hd'

theorem wp_ingest {host : Host} {tokenKey : Option JsString} {req : TalentIngestRequest}
    {principal : IngestPrincipal} {now : Nat} (h : AccessInOrder db) :
    (GoldenTx.ingest host tokenKey req principal now).wp accessCheck
      (fun _ d => AccessInOrder d) db := by
  rw [GoldenTx.ingest]
  simp only [bind_eq_tx]
  rw [Tx.wp_bind, GoldenTx.wp_require]
  intro _
  split
  · trivial
  · rw [Tx.wp_bind]
    refine GoldenTx.wp_lockAll _ ?_
    rw [Tx.wp_bind]
    refine GoldenTx.wp_replay fun prior => ?_
    split
    · exact h
    · trivial
    · rw [GoldenTx.applySnapshot]
      simp only [bind_eq_tx]
      rw [Tx.wp_bind]
      refine Tx.wp_mono (wp_resolve h) fun resolution d hd => ?_
      rw [Tx.wp_bind]
      refine Tx.wp_mono (wp_elsewhere (GoldenTx.writes_writeAssertions _ _ _ _ _) (by decide)
        (by decide) hd) fun written d' hd' => ?_
      exact wp_inbox hd'

end Parts

end AramoPlatform.Intelligence
