import AramoPlatform.Placement.Lineage
import Mathlib.Data.List.Dedup

/-!
# The seats of a requisition

A contract assignment takes a seat while it is active, a permanent placement
while its guarantee is or was kept. A conversion hands the seat over in one
commit. The reads count the two populations by two statements, each of which
sees the rows of its own moment.
-/

namespace AramoPlatform.Placement

open Lib PlacementTx List

/-- The seats that are taken. -/
def seats (tenantId requisitionId : Nat) (d : PlacementDb) : Nat :=
  d.assignments.countP (PlacementDb.isActiveIn tenantId requisitionId) +
    d.permanents.countP (PlacementDb.isConsumingIn tenantId requisitionId)

/-! ## One map of two -/

@[simp] theorem lookupCount_nil (r : Nat) : lookupCount [] r = none := rfl

theorem lookupCount_cons (row : Nat × Nat) (rest : List (Nat × Nat)) (r : Nat) :
    lookupCount (row :: rest) r = if row.1 = r then some row.2 else lookupCount rest r := by
  by_cases h : row.1 = r <;> simp [lookupCount, h]

theorem lookupCount_append (rows more : List (Nat × Nat)) (r : Nat) :
    lookupCount (rows ++ more) r = (lookupCount rows r).or (lookupCount more r) := by
  induction rows with
  | nil => rfl
  | cons row rest ih =>
    rw [cons_append, lookupCount_cons, lookupCount_cons, ih]
    split <;> rfl

theorem lookupCount_grouped {ids : List Nat} {r : Nat} (h : r ∈ ids) (count : Nat → Nat) :
    lookupCount (PlacementDb.grouped ids count) r =
      if count r = 0 then none else some (count r) := by
  have hgroup : ∀ rs : List Nat, lookupCount ((rs.map fun x => (x, count x)).filter (·.2 != 0)) r =
      if r ∈ rs ∧ count r ≠ 0 then some (count r) else none := by
    intro rs
    induction rs with
    | nil => rfl
    | cons x rest ih =>
      by_cases hx : x = r
      · subst hx
        by_cases hzero : count x = 0 <;> simp [hzero, lookupCount_cons, ih]
      · have hmem : r ∈ x :: rest ↔ r ∈ rest := by simp [Ne.symm hx]
        by_cases hzero : count x = 0 <;> simp [hzero, lookupCount_cons, ih, hmem, hx]
  rw [PlacementDb.grouped, hgroup]
  have hmem : r ∈ ids.dedup := mem_dedup.mpr h
  by_cases hzero : count r = 0 <;> simp [hzero, hmem]

theorem lookupCount_map (rows : List (Nat × Nat)) (more : Nat → Nat) (r : Nat) :
    lookupCount (rows.map fun row => (row.1, row.2 + more row.1)) r =
      (lookupCount rows r).map (· + more r) := by
  induction rows with
  | nil => rfl
  | cons row rest ih =>
    rw [map_cons, lookupCount_cons, lookupCount_cons, ih]
    split
    next h => simp [← h]
    next => rfl

theorem lookupCount_filter (rows : List (Nat × Nat)) (keep : Nat → Bool) (r : Nat) :
    lookupCount (rows.filter fun row => keep row.1) r =
      if keep r then lookupCount rows r else none := by
  induction rows with
  | nil => simp
  | cons row rest ih =>
    by_cases hr : row.1 = r
    · subst hr
      by_cases hkeep : keep row.1 = true <;> simp [hkeep, lookupCount_cons, ih]
    · by_cases hkeep : keep row.1 = true <;> simp [hkeep, lookupCount_cons, ih, hr]

theorem lookupCount_unionCounts (contract permanent : List (Nat × Nat)) (r : Nat) :
    lookupCount (unionCounts contract permanent) r =
      ((lookupCount contract r).map (· + (lookupCount permanent r).getD 0)).or
        (lookupCount permanent r) := by
  rw [unionCounts, lookupCount_append, lookupCount_map contract fun x =>
    (lookupCount permanent x).getD 0,
    lookupCount_filter permanent fun x => (lookupCount contract x).isNone]
  cases lookupCount contract r <;> simp

theorem lookupCount_seats {ids : List Nat} {r : Nat} (h : r ∈ ids) (t : Nat) (d : PlacementDb) :
    lookupCount (unionCounts (d.answer (.activeByRequisition t ids))
        (d.answer (.consumingByRequisition t ids))) r =
      if seats t r d = 0 then none else some (seats t r d) := by
  have hcontract := lookupCount_grouped h fun x => d.assignments.countP (PlacementDb.isActiveIn t x)
  have hpermanent := lookupCount_grouped h fun x =>
    d.permanents.countP (PlacementDb.isConsumingIn t x)
  show lookupCount (unionCounts (PlacementDb.grouped ids _) (PlacementDb.grouped ids _)) r = _
  rw [lookupCount_unionCounts, hcontract, hpermanent, seats]
  by_cases hzero : d.assignments.countP (PlacementDb.isActiveIn t r) = 0
  · by_cases hzero' : d.permanents.countP (PlacementDb.isConsumingIn t r) =
      0 <;> simp [hzero, hzero']
  · by_cases hzero' : d.permanents.countP (PlacementDb.isConsumingIn t r) =
      0 <;> simp [hzero, hzero']

/-! ## One state for both statements -/

def Query.isCount : Query → Bool
  | .activeCount _ _ | .consumingCount _ _ | .activeByRequisition _ _
  | .consumingByRequisition _ _ => true
  | _ => false

/-- What was counted before would be counted again. -/
abbrev CountStands : placementStore.Check := Rereads Query.isCount

theorem countStands_answer (s : PlacementStmt) (d : PlacementDb) :
    CountStands s (placementStore.answer s d) d := by
  cases s with
  | read q | lockRead key q => exact fun _ => rfl
  | write w | updateOffer u => trivial

theorem wp_countActive (t r : Nat) (swapped : Bool) (d : PlacementDb) :
    (placementProgram (.countActive t r swapped)).wp CountStands
      (fun out _ => out = .count (seats t r d)) d := by
  refine wp_giving ?_
  rw [countActiveByRequisition, bind_eq_tx, Tx.wp_bind]
  refine wp_bothReads fun n n' hn hn' => ?_
  show PlacementOutcome.count (n + n') = _
  rw [hn rfl, hn' rfl]
  rfl

/-- The map has the seats of the rows. -/
def HasSeats (t : Nat) (ids : List Nat) (d : PlacementDb) (rows : List (Nat × Nat)) : Prop :=
  ∀ r ∈ ids, lookupCount rows r = if seats t r d = 0 then none else some (seats t r d)

theorem wp_countActiveIds (t : Nat) (ids : List Nat) (swapped : Bool) (d : PlacementDb) :
    (placementProgram (.countActiveIds t ids swapped)).wp CountStands
      (fun out _ => ∃ rows, out = .counts rows ∧ HasSeats t ids d rows) d := by
  refine wp_giving ?_
  unfold countActiveByRequisitionIds
  split
  next hempty =>
    obtain rfl : ids = [] := by simpa using hempty
    exact ⟨[], rfl, fun r hr => by cases hr⟩
  next =>
    rw [bind_eq_tx, Tx.wp_bind]
    refine wp_bothReads fun rows rows' hrows hrows' => ⟨_, rfl, fun r hr => ?_⟩
    rw [hrows rfl, hrows' rfl]
    exact lookupCount_seats hr t d

theorem only_countActive (t r : Nat) (swapped : Bool) :
    (placementProgram (.countActive t r swapped)).Only Reads :=
  only_giving (Tx.only_bind (only_bothReads _ _ _) fun _ => trivial)

theorem only_countActiveIds (t : Nat) (ids : List Nat) (swapped : Bool) :
    (placementProgram (.countActiveIds t ids swapped)).Only Reads := by
  refine only_giving ?_
  unfold countActiveByRequisitionIds
  split
  · trivial
  · exact Tx.only_bind (only_bothReads _ _ _) fun _ => trivial

/-- A count that ends with this statement is the seats of the rows that the
statement sees. -/
def CountsOneState (w : World placementStore PlacementOutcome) (m : Move PlacementOp)
    (w' : World placementStore PlacementOutcome) : Prop :=
  ∀ i id f, m = .advance i id → w'.flights[i]? = some f →
    (∀ t r swapped n, Leads (placementProgram (.countActive t r swapped)) f.trace f.rest →
      f.rest = .pure (.count n) → n = seats t r w.db) ∧
    ∀ t ids swapped rows, Leads (placementProgram (.countActiveIds t ids swapped)) f.trace f.rest →
      f.rest = .pure (.counts rows) → HasSeats t ids w.db rows

variable {d : PlacementDb}

theorem of_counting {op : PlacementOp} {f : Flight placementStore PlacementOutcome}
    {out : PlacementOutcome} {Q : PlacementOutcome → PlacementDb → Prop}
    (honly : (placementProgram op).Only Reads) (hwp : (placementProgram op).wp CountStands Q d)
    (hstands : Stands CountStands f.trace d) (hleads : Leads (placementProgram op) f.trace f.rest)
    (hrest : f.rest = .pure out) : Q out (replay f.trace d) := by
  have hallowed : ∀ s, Reads s → ∀ d, placementStore.allowed s d = true := by
    intro s hs d
    cases s with
    | read q | lockRead key q => rfl
    | write w | updateOffer u => cases hs
  have hpost := Tx.wp_of_leads hleads hwp hstands (admitted_of_only hallowed hleads honly d)
  rw [hrest] at hpost
  exact hpost

theorem countsOneState_of_step {w w' : World placementStore PlacementOutcome} {m : Move PlacementOp}
    (h : World.Step placementProgram w m w') (hstands : AdvancesOn CountStands w m) :
    CountsOneState w m w' := by
  rintro i id f' rfl hf'
  obtain ⟨f, hf, hw'⟩ := Option.bind_eq_some_iff.mp h
  split at hw'
  next =>
    obtain ⟨g, hadvance, rfl⟩ := Option.map_eq_some_iff.mp hw'
    have hg : g = f' := by
      have hlt := (List.getElem?_eq_some_iff.mp hf).1
      rw [getElem?_set_self hlt] at hf'
      exact Option.some.inj hf'
    subst hg
    have hall := stands_of_advance countStands_answer hadvance (hstands i id rfl f hf)
    constructor
    · intro t r swapped n hleads hrest
      have hcount := of_counting (only_countActive t r swapped) (wp_countActive t r swapped w.db)
        hall hleads hrest
      exact PlacementOutcome.count.inj hcount
    · intro t ids swapped rows hleads hrest
      obtain ⟨rows', hrows, hseats⟩ := of_counting (only_countActiveIds t ids swapped)
        (wp_countActiveIds t ids swapped w.db) hall hleads hrest
      obtain rfl := PlacementOutcome.counts.inj hrows
      exact hseats
  next => cases hw'

/-! ## A conversion hands its seat over -/

/-- What was converted has its lineage. -/
def ConvertedOnce (d : PlacementDb) : Prop :=
  ∀ a ∈ d.assignments, a.endReason = some .convertedToPermanent →
    ∃ l ∈ d.lineages, l.tenantId = a.engagement.tenantId ∧ l.sourceContractAssignmentId = a.id

/-- The assignment that an operation has loaded is there, and was of this
tenant. -/
def AssignmentLoaded : placementStore.Check
  | .read (.activeAssignment t _), some a, d =>
      a.engagement.tenantId = t ∧ ∃ a' ∈ d.assignments, a'.fixed = a.fixed
  | _, _, _ => True

theorem assignmentLoaded_answer (s : PlacementStmt) (d : PlacementDb) :
    AssignmentLoaded s (placementStore.answer s d) d := by
  cases s with
  | write w | updateOffer u | lockRead key q => trivial
  | read q =>
    cases q with
    | activeAssignment t p =>
      show AssignmentLoaded (.read (.activeAssignment t p)) (d.answer (.activeAssignment t p)) d
      cases hfound : d.answer (.activeAssignment t p) with
      | none => trivial
      | some a =>
        have hfind : d.assignments.find? _ = some a := hfound
        have htenant := find?_some hfind
        simp only [Bool.and_eq_true, beq_iff_eq, and_assoc] at htenant
        exact ⟨htenant.1, a, mem_of_find?_eq_some hfind, rfl⟩
    | _ => trivial

theorem assignmentLoaded_keep {s : PlacementStmt} {a : PlacementStmt.Ans s} {d d' : PlacementDb}
    (hlater : Persists d d') (h : AssignmentLoaded s a d) : AssignmentLoaded s a d' := by
  cases s with
  | write w | updateOffer u | lockRead key q => trivial
  | read q =>
    cases q with
    | activeAssignment t p =>
      cases a with
      | none => trivial
      | some a =>
        obtain ⟨htenant, x, hx, hfixed⟩ := h
        obtain ⟨x', hx', hfixed'⟩ := exists_of_prefix_map hlater.assignments hx
        exact ⟨htenant, x', hx', hfixed'.trans hfixed⟩
    | _ => trivial

/-- An end that the schema lets pass finds the assignment active, or ended for
the same reason. -/
theorem exists_of_setEnded {id endedAt : Nat} {reason : AssignmentEndReason}
    (h : (AssignmentWrite.setEnded id reason endedAt).allowed d = true) :
    ∃ a ∈ d.assignments, a.id = id ∧ (a.lifecycleState = .active ∨ a.endReason = some reason) := by
  obtain ⟨a, hfound, hstate⟩ := (Option.any_eq_true _ _).mp h
  refine ⟨a, mem_of_find?_eq_some hfound, ?_, ?_⟩
  · exact eq_of_beq (find?_some (p := fun a : ContractAssignment => a.id == id) hfound)
  · simpa using hstate

theorem setEnded_allowed_of_endWrites {a : ContractAssignment}
    {versions : List AssignmentRateVersion} {reason : AssignmentEndReason} {tEnd endedBy : Nat}
    (h : admitsAll (endWrites a versions reason tEnd endedBy) d = true) :
    (AssignmentWrite.setEnded a.id reason tEnd).allowed d = true := by
  obtain ⟨-, hend⟩ := admitsAll_append.mp h
  have hallowed := ((admitsAll_cons _ _ _).mp hend).1
  have hsame : (applyAll (reconcileWrites versions tEnd endedBy) d).assignments = d.assignments :=
    applyAll_frame d fun w hw d => by
      have hkind := kind_of_mem_reconcileWrites hw
      simp only [mem_cons, not_mem_nil, or_false] at hkind
      rcases hkind with h | h <;> exact assignments_apply d (by simp [h]) (by simp [h])
  simpa only [Write.allowed, AssignmentWrite.allowed, hsame] using hallowed

theorem lineage_allowed_of_conversionWrites {target : PlacementProcess}
    {permanent : PermanentPlacement} {l : ConversionLineage}
    (h : admitsAll (conversionWrites target permanent l) d = true) :
    ∀ l' ∈ d.lineages, l'.tenantId = l.tenantId →
      l'.sourceContractAssignmentId ≠ l.sourceContractAssignmentId := by
  simp only [conversionWrites, append_assoc] at h
  obtain ⟨-, hrest⟩ := admitsAll_append.mp h
  obtain ⟨-, hrest⟩ := admitsAll_append.mp hrest
  have hallowed : lineageAllowed l d = true := ((admitsAll_cons _ _ _).mp hrest).1
  intro l' hl' htenant hsame
  have hrow := all_eq_true.mp hallowed l' hl'
  simp [htenant, hsame] at hrow

namespace ConvertedOnce

variable {d : PlacementDb} {ok : placementStore.Check}

theorem congr {d' : PlacementDb} (h : ConvertedOnce d) (hassignments :
    d'.assignments = d.assignments)
    (hlineages : d'.lineages = d.lineages) : ConvertedOnce d' := by
  rw [ConvertedOnce, hassignments, hlineages]
  exact h

theorem insert (h : ConvertedOnce d) (row : ContractAssignment) (hrow : row.endReason = none) :
    ConvertedOnce ((AssignmentWrite.insert row).apply d) := by
  intro a ha hreason
  rcases (mem_append.mp ha).imp_right mem_singleton.mp with hold | rfl
  · exact h a hold hreason
  · rw [hrow] at hreason
    cases hreason

/-- The writes that neither begin, nor end, nor convert an assignment. -/
def aside : WriteKind → Bool
  | .insertAssignment | .endAssignment | .lineage => false
  | _ => true

section

variable (h : ConvertedOnce d)

include h

theorem write_aside {w : Write} (hw : aside w.kind = true) :
    ConvertedOnce (w.apply d) := by
  have hne : ∀ k, aside k = false → w.kind ≠ k := by
    rintro k hk rfl
    rw [hk] at hw
    cases hw
  exact h.congr (assignments_apply d (hne _ rfl) (hne _ rfl)) (lineages_apply d (hne _ rfl))

theorem writes_aside {ws : List Write} (hws : ∀ w ∈ ws, aside w.kind = true) :
    ConvertedOnce (applyAll ws d) := by
  induction ws generalizing d with
  | nil => exact h
  | cons w rest ih =>
    exact ih (h.write_aside (hws w mem_cons_self)) fun x hx =>
      hws x (mem_cons_of_mem w hx)

theorem keeps_aside {op : PlacementOp} (hkinds : op.kinds.all aside = true) :
    (placementProgram op).wp ok (fun _ d' => ConvertedOnce d') d := by
  refine wp_of_kinds ?_ (fun u d' _ _ hd => hd) h
  intro w d' hw _ hd
  exact hd.write_aside (all_eq_true.mp hkinds _ hw)

theorem transition (input : TransitionInput) :
    (PlacementTx.transition input).wp ok (fun _ d' => ConvertedOnce d') d := by
  have hmove : ∀ (current : PlacementProcess) (target : PlacementState),
    ∀ w ∈ moveWrites current target,
      aside w.kind = true := by
    intro current target
    simp [moveWrites, Write.kind, OutboxEvent.isChange, aside]
  refine wp_transition ?_ ?_ ?_
  · intro current _ _ _ _
    exact h.writes_aside (hmove _ _)
  · intro current assignmentId versionId companyId terms recordedBy _ _ _ a ws _
    show ConvertedOnce (applyAll (moveWrites current .started ++ _) d)
    rw [applyAll_append]
    have hinserted := (h.writes_aside (hmove current .started)).insert a rfl
    exact hinserted.writes_aside (by simp [Write.kind, OutboxEvent.isChange, aside])
  · intro current id guarantee _ _ _ row ws _
    refine h.writes_aside fun w hw => ?_
    simp only [ws, append_assoc, mem_append] at hw
    rcases hw with hw | hw
    · exact hmove _ _ w hw
    · have hkind := kind_of_mem_permanentWrites hw
      simp only [mem_cons, not_mem_nil, or_false] at hkind
      rcases hkind with hkind | hkind | hkind <;> rw [hkind] <;> rfl

theorem endAssignment (input : EndAssignmentInput) (txNow : Nat) :
    (PlacementTx.endAssignment input txNow).wp ok (fun _ d' => ConvertedOnce d') d := by
  refine wp_endAssignment fun a versions _ _ => ?_
  intro ws _
  obtain ⟨-, hassignments, -, hlineages, -⟩ :=
    tables_endWrites d a versions (.given input.endReason) txNow input.endedBy
  intro x hx hreason
  rw [hlineages]
  rw [hassignments] at hx
  rcases of_mem_updateWhere hx with ⟨hold, -⟩ | ⟨x₀, -, -, rfl⟩
  · exact h x hold hreason
  · cases hreason

/-- The assignment of a conversion was active until then, and now has its
lineage. -/
theorem active_of_conversion (hids : RowIds d) {a : ContractAssignment}
    {versions : List AssignmentRateVersion} {target : PlacementProcess}
    {permanent : PermanentPlacement} {l : ConversionLineage} {tEnd endedBy : Nat}
    (hloaded : a.engagement.tenantId = l.tenantId ∧ ∃ a' ∈ d.assignments, a'.fixed = a.fixed)
    (hl : l.sourceContractAssignmentId = a.id)
    (hended : admitsAll (endWrites a versions .convertedToPermanent tEnd endedBy) d = true)
    (hstarted : admitsAll (conversionWrites target permanent l)
      (applyAll (endWrites a versions .convertedToPermanent tEnd endedBy) d) = true) :
    ∃ a₀ ∈ d.assignments, a₀.id = a.id ∧ a₀.engagement = a.engagement ∧
      a₀.lifecycleState = .active := by
  obtain ⟨htenant, a', ha', hfixed⟩ := hloaded
  obtain ⟨hid', hengagement, -⟩ := ContractAssignment.of_fixed hfixed
  obtain ⟨a₀, ha₀, hid, hstate⟩ := exists_of_setEnded (setEnded_allowed_of_endWrites hended)
  obtain rfl := inj_on_of_nodup_map hids.assignments ha' ha₀ (hid'.trans hid.symm)
  refine ⟨a', ha₀, hid, hengagement, ?_⟩
  rcases hstate with hactive | hconverted
  · exact hactive
  · -- a second lineage would be refused
    obtain ⟨-, -, -, hlineages, -⟩ :=
      tables_endWrites d a versions .convertedToPermanent tEnd endedBy
    obtain ⟨l', hl', hltenant, hlsource⟩ := h a' ha' hconverted
    refine absurd ?_ (lineage_allowed_of_conversionWrites hstarted l' (hlineages ▸ hl') ?_)
    · rw [hlsource, hl, hid]
    · rw [hltenant, hengagement, htenant]

theorem convertToPermanent (hids : RowIds d)
    (hok : ∀ s a d, ok s a d → Loads s → AssignmentLoaded s a d) (input :
      ConvertInput) (txNow : Nat) :
    (PlacementTx.convertToPermanent input txNow).wp ok (fun _ d' => ConvertedOnce d') d := by
  refine wp_convertToPermanent h ?_
  intro source a versions guarantee targetId permanentId lineageId _ _ _ hread
    _ ended target permanent
    lineage started hended _ hstarted
  have hloaded : a.engagement.tenantId = lineage.tenantId ∧ ∃ a' ∈ d.assignments,
    a'.fixed = a.fixed :=
    hok _ _ _ hread rfl
  obtain ⟨a₀, ha₀, hid, hengagement, -⟩ := h.active_of_conversion hids hloaded rfl hended hstarted
  obtain ⟨-, hassignments, -, hlineages, -⟩ :=
    tables_endWrites d a versions .convertedToPermanent txNow input.convertedBy
  obtain ⟨-, hassignments', -, hlineages', -⟩ :=
    tables_conversionWrites (applyAll ended d) target permanent lineage
  intro x hx hreason
  rw [hlineages', hlineages]
  rw [hassignments', hassignments] at hx
  rcases of_mem_updateWhere hx with ⟨hold, -⟩ | ⟨x₀, hx₀, hkey, rfl⟩
  · obtain ⟨l, hl, hof⟩ := h x hold hreason
    exact ⟨l, mem_append_left _ hl, hof⟩
  · obtain rfl := inj_on_of_nodup_map hids.assignments hx₀ ha₀
      ((eq_of_beq hkey).trans hid.symm)
    refine ⟨lineage, mem_append_right _ mem_cons_self, ?_, hid.symm⟩
    exact (hengagement ▸ hloaded.1).symm

end

end ConvertedOnce

variable {ok : placementStore.Check}

theorem convertedOnce_placementProgram (op : PlacementOp)
    (h : ConvertedOnce d) (hids : RowIds d) (hok : ∀ s a d, ok s a d → Loads s →
      AssignmentLoaded s a d) :
    (placementProgram op).wp ok (fun _ d' => ConvertedOnce d') d := by
  cases op with
  | transition input => exact wp_giving (h.transition input)
  | endAssignment input txNow => exact wp_giving (h.endAssignment input txNow)
  | convertToPermanent input txNow => exact wp_giving (h.convertToPermanent hids hok input txNow)
  | _ => exact h.keeps_aside (by rfl)

/-- **A conversion** leaves every requisition with the seats that it had. -/
theorem seats_convertToPermanent (h : ConvertedOnce d)
    (hids : RowIds d) (hok : ∀ s a d, ok s a d → Loads s → AssignmentLoaded s a d)
      (input : ConvertInput)
    (txNow : Nat) :
    (placementProgram (.convertToPermanent input txNow)).wp ok
      (fun _ d' => ∀ t r, seats t r d' = seats t r d) d := by
  refine wp_giving (wp_convertToPermanent (fun _ _ => rfl) ?_)
  intro source a versions guarantee targetId permanentId lineageId _ _ _ hread
    _ ended target permanent
    lineage started hended _ hstarted t r
  have hloaded : a.engagement.tenantId = lineage.tenantId ∧ ∃ a' ∈ d.assignments,
    a'.fixed = a.fixed :=
    hok _ _ _ hread rfl
  obtain ⟨a₀, ha₀, hid, hengagement, hactive⟩ :=
    h.active_of_conversion hids hloaded rfl hended hstarted
  obtain ⟨-, hassignments, hpermanents, -, -⟩ :=
    tables_endWrites d a versions .convertedToPermanent txNow input.convertedBy
  obtain ⟨-, hassignments', hpermanents', -, -⟩ :=
    tables_conversionWrites (applyAll ended d) target permanent lineage
  -- the assignment gives its seat to the permanent placement
  have hseat : PlacementDb.isActiveIn t r a₀ = PlacementDb.isConsumingIn t r permanent := by
    have hengagement' : permanent.engagement = a₀.engagement := hengagement.symm
    have hstate : permanent.lifecycleState = .guaranteeActive := rfl
    simp [PlacementDb.isActiveIn, PlacementDb.isConsumingIn, hengagement', hstate, hactive,
      PermanentState.consuming]
  have hgone : PlacementDb.isActiveIn t r (a₀.setEnded .convertedToPermanent txNow) = false := by
    simp [PlacementDb.isActiveIn, ContractAssignment.setEnded]
  have hcount := countP_updateWhere_of_mem (q := PlacementDb.isActiveIn t r)
    (f := (·.setEnded .convertedToPermanent txNow)) hids.assignments ha₀
  rw [hgone, hid] at hcount
  rw [seats, seats, hassignments', hassignments, hpermanents', hpermanents, countP_append,
    countP_singleton, ← hseat]
  simp only [Bool.false_eq_true, if_false] at hcount
  omega

/-! ## Runs -/

theorem rowIds_placementProgram (op : PlacementOp)
    (h : RowIds d) : (placementProgram op).wp ok (fun _ d' => RowIds d') d :=
  wp_of_kinds (fun _ _ _ hallowed hd => hd.write hallowed)
    (fun _ _ _ _ hd => ⟨hd.placements, hd.assignments⟩) h

def capacityDiscipline : Discipline placementProgram where
  Allowed _ := True
  Inv d := RowIds d ∧ ConvertedOnce d
  Evolves _ := Persists
  cond _ _ _ := True
  parts := .none placementStore
  held _ _ _ := True
  pins := Parts.pins_none
  quiet := Reads
  effect_quiet _ d hs := effect_of_reads hs d
  load := Loads
  early := AssignmentLoaded
  loadsFirst op _ := loadsFirst_placementProgram op
  early_answer s d _ _ := assignmentLoaded_answer s d
  early_keep _ _ _ _ _ _ _ hlater h := assignmentLoaded_keep hlater h
  keeps op d _ hd :=
    Tx.wp_and (Tx.wp_and (rowIds_placementProgram op hd.1)
      (convertedOnce_placementProgram op hd.2 hd.1
      fun _ _ _ hok => hok.2.2)) (Persists.program _ op d)

/-- A commit of a conversion takes no seat and frees none. -/
def ConversionKeepsSeats (w : World placementStore PlacementOutcome) (m : Move PlacementOp)
    (w' : World placementStore PlacementOutcome) : Prop :=
  ∀ i f input txNow, m = .commit i → w.flights[i]? = some f →
    Leads (placementProgram (.convertToPermanent input txNow)) f.trace f.rest →
      ∀ t r, seats t r w'.db = seats t r w.db

theorem conversionKeepsSeats_of_step {w w' : World placementStore PlacementOutcome}
    {m : Move PlacementOp} (hw : capacityDiscipline.Sound w) (h : capacityDiscipline.Step w m w') :
    ConversionKeepsSeats w m w' := by
  rintro i f input txNow rfl hf hleads
  exact hw.commit_op (P := fun d' => ∀ t r, seats t r d' = seats t r w.db) h hf trivial hleads
    (seats_convertToPermanent hw.inv.2 hw.inv.1 (fun _ _ _ hok => hok.2.2)
      input txNow)

/-- What a read returns when it has the tables to itself. -/
def answers (op : PlacementOp) (d : PlacementDb) : Except PlacementError PlacementOutcome :=
  (Tx.alone (σ := placementStore) .violation (placementProgram op) ([], d)).map (·.1)

/-- Over the same rows the two reads say the same: an entry that is not there
is zero. -/
def CountsAgree (d : PlacementDb) : Prop :=
  ∀ t ids swapped, ∃ rows,
    answers (.countActiveIds t ids swapped) d = .ok (.counts rows) ∧
    ∀ r ∈ ids, ∀ swapped',
      answers (.countActive t r swapped') d = .ok (.count ((lookupCount rows r).getD 0))

theorem countsAgree (d : PlacementDb) : CountsAgree d := by
  intro t ids swapped
  obtain ⟨rows, hrows, hseats⟩ : ∃ rows,
      answers (.countActiveIds t ids swapped) d = .ok (.counts rows) ∧ HasSeats t ids d rows := by
    by_cases hempty : ids = []
    · subst hempty
      exact ⟨[], rfl, fun r hr => by cases hr⟩
    · refine ⟨unionCounts (d.answer (.activeByRequisition t ids))
        (d.answer (.consumingByRequisition t ids)), ?_, fun r hr => lookupCount_seats hr t d⟩
      have hsome : ids.isEmpty = false := by simpa using hempty
      cases swapped <;> simp only [answers, placementProgram,
        countActiveByRequisitionIds, hsome] <;> rfl
  refine ⟨rows, hrows, fun r hr swapped' => ?_⟩
  have hcount : (lookupCount rows r).getD 0 = seats t r d := by
    rw [hseats r hr]
    split
    next hzero => exact hzero.symm
    next => rfl
  rw [hcount]
  cases swapped' <;> rfl

/-- **Capacity reads.** In every run the two reads agree and a conversion leaves the seats as
they are; and a count is the seats of the rows that its last statement sees, if no commit between
its two statements changed what the first one said. -/
theorem capacity_reads {moves : List (Move PlacementOp)}
    {w : World placementStore PlacementOutcome}
    (hrun : Run (World.Step placementProgram) (World.quiet .empty) moves w) :
    CountsAgree w.db ∧ ∀ m w', World.Step placementProgram w m w' →
      ConversionKeepsSeats w m w' ∧ (AdvancesOn CountStands w m → CountsOneState w m w') := by
  have hempty : capacityDiscipline.Inv .empty :=
    ⟨⟨nodup_nil, nodup_nil⟩, fun a ha => by cases ha⟩
  have hstep : ∀ w m w', World.Step placementProgram w m w' → capacityDiscipline.Step w m w' :=
    fun _ _ _ h => Discipline.step_of_forall (fun _ _ _ => trivial) (fun _ => trivial) h
  have hw := (Discipline.sound_quiet (D := capacityDiscipline) hempty).run (hrun.mono hstep)
  exact ⟨countsAgree w.db, fun m w' h =>
    ⟨conversionKeepsSeats_of_step hw (hstep w m w' h), countsOneState_of_step h⟩⟩

/-! ### A conversion between the statements -/

/-- An active assignment, and guarantee terms for its requisition. -/
def firstSeat : List (Move PlacementOp) :=
  oneAttempt ++ World.inTurn (moveFirstPlacement .readyToStart) 0 4 ++
    World.inTurn startFirstContract 299 9 ++
    World.inTurn (.createTerm ⟨1, 20, 0, firstTerms, 7⟩) 500 3

/-- It is converted, and then the seats are counted. -/
def countedInTurn : List (Move PlacementOp) :=
  firstSeat ++ World.inTurn convertFirst 590 23 ++ [.start (.countActive 1 20 false), .advance 0 0]

theorem capacity_reads_in_turn : ∃ w w' : World placementStore PlacementOutcome,
    Run (World.Step placementProgram) (World.quiet .empty) countedInTurn w ∧
      World.Step placementProgram w (.advance 0 0) w' ∧
      w'.flights.map (·.result) = [some (.count 1)] ∧ CountsOneState w (.advance 0 0) w' := by
  obtain ⟨w, hrun, hp⟩ := World.run_of_moves placementProgram (World.quiet .empty) countedInTurn
    (fun w : World placementStore PlacementOutcome =>
      advancesTest CountStands w (.advance 0 0 : Move PlacementOp) &&
        (w.next placementProgram (.advance 0 0)).any
          fun w' : World placementStore PlacementOutcome =>
            decide (w'.flights.map (·.result) = [some (.count 1)])) (by decide +kernel)
  obtain ⟨htest, hnext⟩ := Bool.and_eq_true_iff.mp hp
  obtain ⟨w', hstep, hw'⟩ := (Option.any_eq_true _ _).mp hnext
  exact ⟨w, w', hrun, hstep, of_decide_eq_true hw',
    ((capacity_reads hrun).2 _ _ hstep).2 (advancesOn_of_test w _ htest)⟩

/-- A count has served its first statement when the conversion is about to
commit. -/
def countedAround (swapped : Bool) : List (Move PlacementOp) :=
  firstSeat ++ [.start (.countActive 1 20 swapped), .advance 0 0, .start convertFirst] ++
    World.advances 1 590 23

/-- The conversion commits between the two statements. Before and after it one
seat is taken; the count says `n`. -/
def CountsAround (swapped : Bool) (n : Nat) : Prop :=
  ∃ w₁ w₂ w₃ : World placementStore PlacementOutcome,
    Run (World.Step placementProgram) (World.quiet .empty) (countedAround swapped) w₁ ∧
      World.Step placementProgram w₁ (.commit 1) w₂ ∧
        World.Step placementProgram w₂ (.advance 0 0) w₃ ∧
      seats 1 20 w₁.db = 1 ∧ seats 1 20 w₂.db = 1 ∧ w₃.flights.map (·.result) = [some (.count n)]

theorem countsAround_of_test {swapped : Bool} {n : Nat}
    (h : (exec (World.next placementProgram) (World.quiet .empty) (countedAround swapped)).any
      (fun w₁ : World placementStore PlacementOutcome => (w₁.next placementProgram (.commit 1)).any
        fun w₂ : World placementStore PlacementOutcome =>
          (w₂.next placementProgram (.advance 0 0)).any
          fun w₃ : World placementStore PlacementOutcome => decide (seats 1 20 w₁.db = 1 ∧
            seats 1 20 w₂.db = 1 ∧ w₃.flights.map (·.result) = [some (.count n)])) = true) :
    CountsAround swapped n := by
  obtain ⟨w₁, hrun, h₁⟩ := World.run_of_moves placementProgram _ _ _ h
  obtain ⟨w₂, hcommit, h₂⟩ := (Option.any_eq_true _ _).mp h₁
  obtain ⟨w₃, hlast, h₃⟩ := (Option.any_eq_true _ _).mp h₂
  exact ⟨w₁, w₂, w₃, hrun, hcommit, hlast, of_decide_eq_true h₃⟩

/-- The seat is counted twice, or not at all. -/
theorem seat_counted_twice_or_never : CountsAround false 2 ∧ CountsAround true 0 :=
  ⟨countsAround_of_test (by decide +kernel), countsAround_of_test (by decide +kernel)⟩

end AramoPlatform.Placement
