import AramoPlatform.Intelligence.GoldenRuns
import AramoPlatform.Intelligence.RebuildEffects
import AramoPlatform.Intelligence.Survivors
import AramoPlatform.Lib.Batches

/-!
# Re-assessment

The job that rebuilds every subject whose trust state is missing or old. It
takes the first subjects of the list again and again, without those it has seen.
A subject whose rebuild fails keeps its place at the head; once as many have
failed as a batch holds, the job sees no others and ends.
-/

namespace AramoPlatform.Intelligence

open Js Lib List

def defaultReassessmentIntervalMs : Nat := 3600000

/-- The configured interval, if it is a number of at least a second. -/
def reassessmentIntervalMs (configured : Option Nat) : Nat :=
  (configured.filter (1000 ≤ ·)).getD defaultReassessmentIntervalMs

/-- No trust state, or one from before. -/
def needsAssessment (trust : List SubjectTrustState) (assessedBefore subjectId : Nat) : Bool :=
  (findKey (·.subjectId) subjectId trust).all fun t => decide (t.assessedAt < assessedBefore)

/-- The subjects due for re-assessment. Subjects stand in the order of their creation. -/
def dueForReassessment (db : ProjectionDb) (assessedBefore : Nat) : List Nat :=
  (db.golden.subjects.filter fun s =>
    s.resolutionStatus != .merged && needsAssessment db.trust assessedBefore s.id).map (·.id)

def listForReassessment (db : ProjectionDb) (assessedBefore limit : Nat) : List Nat :=
  (dueForReassessment db assessedBefore).take limit

/-- What a job works with: the configuration, the order in which each rebuild reads its
rows, and the rebuilds that fail and are rolled back. -/
structure ReassessEnv where
  rebuild : RebuildEnv
  reads : ProjectionDb → Nat → RebuildReads
  fails : Nat → Bool
  intervalMs : Option Nat

/-- `ReassessRun`: the tables, the ids in the order in which they were seen, and the number
of rebuilds that were done. -/
structure ReassessRun where
  db : ProjectionDb
  seen : List Nat
  done : Nat

namespace ReassessEnv

variable (env : ReassessEnv)

/-- The rebuild of one subject; `none` when it throws. -/
def tryRebuild (db : ProjectionDb) (subjectId now : Nat) : Option ProjectionDb :=
  if env.fails subjectId then none
  else (rebuildStored env.rebuild db (env.reads db subjectId) subjectId now).toOption

/-- The body of the inner loop: the id is seen before its rebuild is tried. -/
def attempt (now : Nat) (run : ReassessRun) (subjectId : Nat) : ReassessRun :=
  match env.tryRebuild run.db subjectId now with
  | some db => { db := db, seen := run.seen ++ [subjectId], done := run.done + 1 }
  | none => { run with seen := run.seen ++ [subjectId] }

/-- The rounds of `reassess`; `none` when `fuel` rounds are not enough. -/
def rounds (now batchSize : Nat) : Nat → ReassessRun → Option ReassessRun
  | 0, _ => none
  | fuel + 1, run =>
    let ids := (listForReassessment run.db (now - reassessmentIntervalMs env.intervalMs)
      batchSize).filter fun id => id ∉ run.seen
    if ids = [] then some run
    else rounds now batchSize fuel (ids.foldl (env.attempt now) run)

def reassess (db : ProjectionDb) (now batchSize fuel : Nat) : Option ReassessRun :=
  env.rounds now batchSize fuel ⟨db, [], 0⟩

/-- The subjects due at the start. -/
def due (db : ProjectionDb) (now : Nat) : List Nat :=
  dueForReassessment db (now - reassessmentIntervalMs env.intervalMs)

/-- What a rebuild leaves of the tables, done or failed. -/
def step (now : Nat) (db : ProjectionDb) (subjectId : Nat) : ProjectionDb :=
  (env.tryRebuild db subjectId now).getD db

end ReassessEnv

variable {env : ReassessEnv} {db : ProjectionDb} {now id : Nat}

/-! ## One rebuild -/

/-- A subject that is not merged away is rebuilt, and its trust state is new. -/
theorem rebuildStored_of_live (renv : RebuildEnv) (reads : RebuildReads) (now : Nat)
    {s : GoldenTalent} (hfound : db.golden.subject? id = some s) (hid : s.id = id)
    (hlive : s.resolutionStatus ≠ .merged) :
    ∃ db', rebuildStored renv db reads id now = .ok db' ∧
      db'.golden.subjects = db.golden.subjects ∧
      ∃ trust, db'.trust = upsert (·.subjectId) db.trust ⟨id, trust, now⟩ := by
  have hsurvives : survivingSubject db.golden id = .ok s := by
    show followMerges db.golden (31 + 1) id = .ok s
    exact followMerges_succ.mpr ⟨s, hfound, .inr ⟨fun h => hlive h.1, rfl⟩⟩
  unfold rebuildStored
  rw [hsurvives]
  show ∃ db', (if s.id ≠ id then _ else _) = _ ∧ _
  rw [if_neg (not_not.mpr hid)]
  exact ⟨_, rfl, writeProjection_outside.subjects, _, rfl⟩

/-- A subject has one row. -/
def OneRowEach (db : ProjectionDb) : Prop := (db.golden.subjects.map (·.id)).Nodup

theorem subject?_of_due {before : Nat} (h : OneRowEach db) (hdue :
    id ∈ dueForReassessment db before) :
    ∃ s, db.golden.subject? id = some s ∧ s.id = id ∧ s.resolutionStatus ≠ .merged := by
  obtain ⟨s, hs, hid⟩ := mem_map.mp hdue
  obtain ⟨hmem, hlive⟩ := mem_filter.mp hs
  rw [Bool.and_eq_true, bne_iff_ne] at hlive
  cases hfound : db.golden.subject? id with
  | none =>
    have := find?_eq_none.mp hfound s hmem
    simp [hid] at this
  | some t =>
    obtain ⟨ht, htid⟩ := mem_of_subject? hfound
    have hsame : t = s := inj_on_of_nodup_map h ht hmem (htid.trans hid.symm)
    exact ⟨t, rfl, htid, hsame ▸ hlive.1⟩

theorem needsAssessment_upsert {trust : List SubjectTrustState} {t : TrustState} {before y : Nat}
    (hbefore : before ≤ now) :
    needsAssessment (upsert (·.subjectId) trust ⟨id, t, now⟩) before y =
      (needsAssessment trust before y && y != id) := by
  unfold needsAssessment
  rw [findKey_upsert]
  by_cases hy : id = y
  · simp [hy]
    omega
  · simp [hy, Ne.symm hy]

/-- **A rebuild takes its subject off the list, and no other; a failed one changes nothing.** -/
theorem worksOff_step (env : ReassessEnv) (now : Nat) :
    WorksOff OneRowEach (env.due · now) (env.step now) env.fails := by
  intro db id hone hdue
  by_cases hfails : env.fails id = true
  · have hsame : env.step now db id = db := by
      unfold ReassessEnv.step ReassessEnv.tryRebuild
      rw [if_pos hfails]
      rfl
    refine ⟨by rwa [hsame], ?_⟩
    rw [hsame]
    symm
    apply filter_eq_self.mpr
    intro y _
    by_cases hy : y = id <;> simp [hy, hfails]
  · obtain ⟨s, hfound, hid, hlive⟩ := subject?_of_due hone hdue
    obtain ⟨db', hrebuild, hsubjects, trust, htrust⟩ :=
      rebuildStored_of_live env.rebuild (env.reads db id) now hfound hid hlive
    have hstep : env.step now db id = db' := by
      unfold ReassessEnv.step ReassessEnv.tryRebuild
      rw [if_neg hfails, hrebuild]
      rfl
    refine ⟨by rw [hstep]; unfold OneRowEach; rwa [hsubjects], ?_⟩
    rw [hstep]
    show dueForReassessment db' _ = (dueForReassessment db _).filter _
    unfold dueForReassessment
    rw [hsubjects, htrust, filter_map, filter_filter]
    congr 1
    apply filter_congr
    intro t _
    rw [needsAssessment_upsert (Nat.sub_le _ _)]
    by_cases hy : t.id = id
    · simp [hy, hfails]
    · have hne : (t.id != id) = true := bne_iff_ne.mpr hy
      simp [hy, hne]

/-! ## The job -/

theorem attempt_eq (env : ReassessEnv) (now : Nat) (run : ReassessRun) (id : Nat) :
    (env.attempt now run id).db = env.step now run.db id ∧
      (env.attempt now run id).seen = run.seen ++ [id] := by
  unfold ReassessEnv.attempt ReassessEnv.step
  cases env.tryRebuild run.db id now <;> exact ⟨rfl, rfl⟩

theorem foldl_attempt_eq (env : ReassessEnv) (now : Nat) (ids : List Nat) (run : ReassessRun) :
    (ids.foldl (env.attempt now) run).db = ids.foldl (env.step now) run.db ∧
      (ids.foldl (env.attempt now) run).seen = run.seen ++ ids := by
  induction ids generalizing run with
  | nil => simp
  | cons id ids ih =>
    obtain ⟨hdb, hseen⟩ := ih (env.attempt now run id)
    obtain ⟨hdb', hseen'⟩ := attempt_eq env now run id
    rw [foldl_cons, foldl_cons, hdb, hseen, hdb', hseen']
    simp

theorem rounds_eq (env : ReassessEnv) (now batchSize fuel : Nat) (run : ReassessRun) :
    (env.rounds now batchSize fuel run).map (fun r => (r.db, r.seen)) =
      workBatches (env.due · now) (env.step now) batchSize fuel run.db run.seen := by
  induction fuel generalizing run with
  | zero => rfl
  | succ fuel ih =>
    unfold ReassessEnv.rounds workBatches
    dsimp only
    have hlist : listForReassessment run.db
      (now - reassessmentIntervalMs env.intervalMs) batchSize =
        (env.due run.db now).take batchSize := rfl
    rw [hlist]
    split
    · rfl
    · obtain ⟨hdb, hseen⟩ := foldl_attempt_eq env now
        (((env.due run.db now).take batchSize).filter fun id => id ∉ run.seen) run
      rw [ih, hdb, hseen]

theorem nodup_due (h : OneRowEach db) : (env.due db now).Nodup := by
  unfold ReassessEnv.due dueForReassessment
  exact List.Nodup.sublist (List.Sublist.map _ filter_sublist) h

/-- **Re-assessment ends, and tries every due subject exactly once if and only if fewer of
them fail, the last one aside, than a batch holds.** -/
theorem reassess_skips_nobody_iff {batchSize fuel : Nat} (hone : OneRowEach db)
    (hbatch : 0 < batchSize) (hfuel : (env.due db now).length < fuel) :
    ∃ run, env.reassess db now batchSize fuel = some run ∧
      ((∀ id ∈ env.due db now, run.seen.count id = 1) ↔
        ((env.due db now).dropLast.filter env.fails).length < batchSize) := by
  obtain ⟨t, done, hrun, hnodup, hprefix, hall⟩ :=
    workBatches_all_iff (worksOff_step env now) hone (nodup_due hone) hbatch hfuel
  have hrounds := rounds_eq env now batchSize fuel ⟨db, [], 0⟩
  rw [hrun] at hrounds
  obtain ⟨run, hsome, hpair⟩ := Option.map_eq_some_iff.mp hrounds
  refine ⟨run, hsome, ?_⟩
  rw [← hall, show run.seen = done from congrArg Prod.snd hpair]
  constructor
  · intro h
    have hsubset : env.due db now ⊆ done := by
      intro id hid
      have hcount : done.count id = 1 := h id hid
      exact count_pos_iff.mp (by omega)
    exact hprefix.sublist.eq_of_length_le
      (subperm_of_subset (nodup_due hone) hsubset).length_le
  · intro h id hid
    rw [h]
    exact count_eq_one_of_mem (nodup_due hone) hid

/-- Two subjects that have never been assessed. -/
def twoUnassessed : ProjectionDb where
  golden :=
    { GoldenDb.empty with
      nextId := 3
      subjects := [⟨1, .active, .active, none⟩, ⟨2, .active, .active, none⟩] }
  facts := []
  trust := []
  proposals := []
  outbox := []

/-- The rebuild of the first one fails. -/
def firstFails : ReassessEnv where
  rebuild := ⟨plainHost, true, 30⟩
  reads db id := ⟨db.golden.assertionsOf id, db.golden.identifiersOf id, db.golden.referencesOf id⟩
  fails id := id == 1
  intervalMs := none

theorem reassess_skips_nobody_two :
    ∃ run, firstFails.reassess twoUnassessed 7200000 2 3 = some run ∧
      ((∀ id ∈ firstFails.due twoUnassessed 7200000, run.seen.count id = 1) ↔
        ((firstFails.due twoUnassessed 7200000).dropLast.filter firstFails.fails).length < 2) :=
  reassess_skips_nobody_iff (by unfold OneRowEach; decide) (by decide) (by decide)

/-- In batches of one, the second subject is never tried. -/
theorem reassess_skips_second :
    ∃ run, firstFails.reassess twoUnassessed 7200000 1 3 = some run ∧
      2 ∈ firstFails.due twoUnassessed 7200000 ∧ run.seen.count 2 = 0 :=
  ⟨⟨twoUnassessed, [1], 0⟩, rfl, by decide, by decide⟩

end AramoPlatform.Intelligence
