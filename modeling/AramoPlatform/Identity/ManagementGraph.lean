import AramoPlatform.Identity.ManagementEdges

/-!
# The management graph

A committed edge closes no cycle as long as the walk that let it in still
finds what it found. The table holds no lock from the walk to the insert, so
two calls at once may close a cycle that neither would alone. The tiers of the
walk down are the distances from the manager.
-/

namespace AramoPlatform.Identity

open Js Lib Relation List

/-- The users that `user` answers to are its neighbours. -/
def EdgeDb.ReportsTo (db : EdgeDb) (tenantId : Nat) : UserId → UserId → Prop :=
  fun user manager => db.Manages tenantId manager user

theorem transGen_reportsTo {db : EdgeDb} {tenantId : Nat} {x y : UserId} :
    TransGen (db.ReportsTo tenantId) x y ↔ TransGen (db.Manages tenantId) y x :=
  transGen_swap

/-- At its commit a walk has found every manager of the users it met. -/
def walkStands (s : EdgeStmt) (a : s.Ans) (db : EdgeDb) : Prop :=
  match s, a with
  | .managersOf tenantId report, managers => ∀ m ∈ db.managersOf tenantId report, m ∈ managers
  | _, _ => True

abbrev walkCheck : edgeStore.Check := walkStands

/-! ## Edges without cycles -/

/-- The text of an argument is the one that the column gives back. -/
def StoredText (parse : JsString → Option UserId) (text : JsString) : Prop :=
  ∀ id, parse text = some id → text = id.text

def StoredArgs (parse : JsString → Option UserId) (args : SetEdgeArgs) : Prop :=
  StoredText parse args.managerUserId ∧ StoredText parse args.reportUserId

theorem manages_create {db : EdgeDb} {row : ManagementEdge} {x y : UserId} (t : Nat) :
    (EdgeDb.mk (db.edges ++ [row])).Manages t x y ↔
      db.Manages t x y ∨ (row.tenantId = t ∧ row.managerUserId = x ∧ row.reportUserId = y) := by
  simp only [EdgeDb.Manages, mem_append, mem_singleton]
  constructor
  · rintro ⟨e, he | rfl, hrow⟩
    · exact .inl ⟨e, he, hrow⟩
    · exact .inr hrow
  · rintro (⟨e, he, hrow⟩ | hrow)
    · exact ⟨e, .inl he, hrow⟩
    · exact ⟨row, .inr rfl, hrow⟩

/-- No tenant's hierarchy has a cycle. -/
def AcyclicEdges (db : EdgeDb) : Prop := ∀ tenantId, Acyclic (db.Manages tenantId)

theorem AcyclicEdges.create {db : EdgeDb} {row : ManagementEdge} (h : AcyclicEdges db)
    (hopen : ¬ ClosesCycle (db.Manages row.tenantId) row.managerUserId row.reportUserId) :
    AcyclicEdges ⟨db.edges ++ [row]⟩ := by
  intro t
  by_cases ht : row.tenantId = t
  · subst ht
    refine (h row.tenantId).insert hopen fun x y hxy => ?_
    rcases (manages_create _).mp hxy with hold | ⟨-, hx, hy⟩
    · exact .inl hold
    · exact .inr ⟨hx.symm, hy.symm⟩
  · refine (h t).mono fun x y hxy => ?_
    rcases (manages_create _).mp hxy with hold | ⟨hrow, -⟩
    · exact hold
    · exact absurd hrow ht

/-! ## The walk up -/

namespace EdgeTx

variable {db : EdgeDb} {tenantId : Nat} {ok : edgeStore.Check}

theorem wp_require {Q : Unit → EdgeDb → Prop} (cond : Bool) (e : EdgeError) :
    (require cond e).wp ok Q db ↔ (cond = true → Q () db) :=
  Tx.wp_require (σ := edgeStore) cond e db

variable {parse : JsString → Option UserId}

theorem wp_userId {text : JsString} {Q : UserId → EdgeDb → Prop} :
    (userId parse text).wp ok Q db ↔ ∀ id, parse text = some id → Q id db := by
  unfold userId
  cases parse text with
  | none => simp [refuse]
  | some id => simp

variable {fuel : Nat}

theorem wp_findAncestorUserIds {start : UserId} {queue visited : List UserId}
    (h : Covered (db.ReportsTo tenantId) start queue visited) :
    (findAncestorUserIds tenantId fuel queue visited).wp walkCheck
      (fun ancestors d => d = db ∧ ∀ y, TransGen (db.ReportsTo tenantId) start y → y ∈ ancestors)
      db := by
  induction fuel generalizing queue visited with
  | zero =>
    cases queue with
    | nil => exact ⟨rfl, fun y hy => h.mem_of_transGen hy⟩
    | cons current queue => trivial
  | succ fuel ih =>
    cases queue with
    | nil => exact ⟨rfl, fun y hy => h.mem_of_transGen hy⟩
    | cons current queue =>
      intro managers hmanagers _
      exact ih (h.expand fun y hy => hmanagers y (EdgeDb.mem_managersOf.mpr hy))

theorem alone_bind {α β : Type} (t : EdgeTx α) (f : α → EdgeTx β) (ids : List Nat) (db : EdgeDb) :
    alone (t >>= f) ids db = (alone t ids db).bind fun out => alone (f out.1) out.2.1 out.2.2 :=
  Tx.alone_bind (σ := edgeStore) .uniqueViolation t f (ids, db)

variable {ids : List Nat}

/-- The database to itself, and queries enough: the walk ends with the users
above the start. -/
theorem alone_findAncestorUserIds {start : UserId} {queue visited : List UserId}
    (hcovered : Covered (db.ReportsTo tenantId) start queue visited)
    (hqueue : ∀ x ∈ queue, x = start ∨ x ∈ visited)
    (habove : ∀ x ∈ visited, TransGen (db.ReportsTo tenantId) start x) (hnodup : visited.Nodup)
    (hfuel : queue.length + db.edges.length ≤ fuel + visited.length) :
    ∃ ancestors, alone (findAncestorUserIds tenantId fuel queue visited) ids db =
      .ok (ancestors, ids, db) ∧ ∀ y, y ∈ ancestors ↔ TransGen (db.ReportsTo tenantId) start y := by
  induction fuel generalizing queue visited with
  | zero =>
    cases queue with
    | nil => exact ⟨visited, rfl, fun y => ⟨habove y, fun hy => hcovered.mem_of_transGen hy⟩⟩
    | cons current queue =>
      -- everyone above the start manages someone, so there are no more than edges
      have hsub : visited ⊆ db.edges.map (·.managerUserId) := by
        intro x hx
        obtain ⟨y, -, e, he, -, hmanager, -⟩ := TransGen.tail'_iff.mp (habove x hx)
        exact mem_map.mpr ⟨e, he, hmanager⟩
      have hbound := (subperm_of_subset hnodup hsub).length_le
      rw [length_map] at hbound
      simp only [length_cons] at hfuel
      omega
  | succ fuel ih =>
    cases queue with
    | nil => exact ⟨visited, rfl, fun y => ⟨habove y, fun hy => hcovered.mem_of_transGen hy⟩⟩
    | cons current queue =>
      have hstep : alone (findAncestorUserIds tenantId (fuel + 1)
        (current :: queue) visited) ids db =
          alone (findAncestorUserIds tenantId fuel
            (discover (fun _ => false) (db.managersOf tenantId current) (visited, queue)).2
            (discover (fun _ => false) (db.managersOf tenantId current) (visited, queue)).1)
              ids db :=
        rfl
      rw [hstep]
      refine ih (hcovered.expand fun y hy => EdgeDb.mem_managersOf.mpr hy) ?_ ?_
        (nodup_discover hnodup) ?_
      · intro x hx
        simp only [mem_discover.1, mem_discover.2, and_true, true_and] at hx ⊢
        rcases hx with hold | hnew
        · exact (hqueue x (mem_cons_of_mem current hold)).imp_right .inl
        · exact .inr (.inr hnew.1)
      · intro x hx
        simp only [mem_discover.1, and_true] at hx
        rcases hx with hold | hnew
        · exact habove x hold
        · have hlast : db.ReportsTo tenantId current x := EdgeDb.mem_managersOf.mp hnew
          rcases hqueue current mem_cons_self with rfl | hmet
          · exact .single hlast
          · exact (habove current hmet).tail hlast
      · have hcount :=
          length_discover (fun _ => false) (db.managersOf tenantId current) visited queue
        simp only [length_cons] at hfuel
        omega

/-! ## Setting an edge -/

variable {manager report : UserId}

/-- A report that is not above its manager, nor the manager, closes no cycle. -/
theorem not_closesCycle (hne : manager ≠ report)
    (hbelow : ¬ TransGen (db.ReportsTo tenantId) manager report) :
    ¬ ClosesCycle (db.Manages tenantId) manager report := by
  intro hpath
  rcases reflTransGen_iff_eq_or_transGen.mp hpath with heq | htrans
  · exact hne heq
  · exact hbelow (transGen_reportsTo.mpr htrans)

variable {args : SetEdgeArgs}

theorem wp_setNewEdge
    (hne : manager ≠ report) (hreport : args.reportUserId = report.text) (h : AcyclicEdges db) :
    (setNewEdge fuel args manager report).wp walkCheck (fun _ d => AcyclicEdges d) db := by
  rw [setNewEdge]
  simp only [bind_eq_tx]
  rw [Tx.wp_bind]
  refine Tx.wp_mono (wp_findAncestorUserIds (covered_start _ manager)) ?_
  rintro ancestors _ ⟨rfl, hall⟩
  rw [Tx.wp_bind, wp_require]
  intro hnone id _ _ _
  refine h.create (not_closesCycle hne fun hpath => ?_)
  -- the report would be among the ancestors, under its stored text
  have hmem := hall report hpath
  simp only [Bool.not_eq_true', any_eq_false, beq_iff_eq] at hnone
  exact hnone report hmem hreport.symm

theorem wp_setEdge
    (hstored : StoredArgs parse args) (h : AcyclicEdges db) :
    (setEdge parse fuel args).wp walkCheck (fun _ d => AcyclicEdges d) db := by
  rw [setEdge]
  simp only [bind_eq_tx]
  rw [Tx.wp_bind, wp_require]
  intro hne
  rw [Tx.wp_bind, wp_userId]
  intro manager hmanager
  rw [Tx.wp_bind, wp_userId]
  intro report hreport
  rw [Tx.wp_bind]
  intro row _ _
  show Tx.wp walkCheck _ ((row.filter (·.tenantId == args.tenantId)).elim _ _) db
  cases row.filter (·.tenantId == args.tenantId) with
  | some row => exact h
  | none =>
    refine wp_setNewEdge ?_ (hstored.2 report hreport) h
    rintro rfl
    rw [hstored.1 manager hmanager, hstored.2 manager hreport] at hne
    simp at hne

theorem wp_clearEdge {id : Nat} (h : AcyclicEdges db) :
    (clearEdge tenantId id).wp walkCheck (fun _ d => AcyclicEdges d) db := by
  rw [clearEdge]
  simp only [bind_eq_tx]
  rw [Tx.wp_bind]
  intro row _ _
  rw [Tx.wp_pure, Tx.wp_bind, wp_require]
  intro _ _ _ _ t
  refine (h t).mono ?_
  rintro x y ⟨e, he, hrow⟩
  exact ⟨e, (mem_filter.mp he).1, hrow⟩

/-! ### One call at a time -/

/-- `MANAGEMENT_CYCLE_REJECTED`. -/
def Rejected {α : Type} (out : Except EdgeError α) : Prop :=
  out = .error .selfLoop ∨ out = .error .cycle

theorem alone_setNewEdge
    (hne : manager ≠ report) (hreport : args.reportUserId = report.text)
    (hfuel : db.edges.length < fuel) :
    Rejected (alone (setNewEdge fuel args manager report) ids db) ↔
      ClosesCycle (db.Manages args.tenantId) manager report := by
  obtain ⟨ancestors, hwalk, hmem⟩ : ∃ ancestors,
      alone (findAncestorUserIds args.tenantId fuel [manager] []) ids db =
        .ok (ancestors, ids, db) ∧
      ∀ y, y ∈ ancestors ↔ TransGen (db.ReportsTo args.tenantId) manager y := by
    refine alone_findAncestorUserIds (covered_start _ manager) ?_ ?_ nodup_nil ?_
    · intro x hx
      exact .inl (mem_singleton.mp hx)
    · intro x hx
      cases hx
    · simp only [length_singleton, length_nil]
      omega
  have hcloses : ClosesCycle (db.Manages args.tenantId) manager report ↔ report ∈ ancestors := by
    rw [hmem, transGen_reportsTo, ClosesCycle, reflTransGen_iff_eq_or_transGen]
    simp [hne]
  have hhas : ancestors.any (·.text == args.reportUserId) = true ↔ report ∈ ancestors := by
    rw [any_eq_true]
    constructor
    · rintro ⟨x, hx, htext⟩
      rw [beq_iff_eq, hreport] at htext
      exact StoredUuid.text_injective htext ▸ hx
    · intro hx
      exact ⟨report, hx, by simp [hreport]⟩
  rw [setNewEdge, alone_bind, hwalk, hcloses, ← hhas]
  show Rejected (alone (require (!ancestors.any (·.text == args.reportUserId)) .cycle >>= fun _ =>
    createEdge args.tenantId manager report) ids db) ↔ _
  rw [alone_bind]
  cases ancestors.any (·.text == args.reportUserId) with
  | true => exact ⟨fun _ => rfl, fun _ => .inr rfl⟩
  | false =>
    refine ⟨fun h => ?_, fun h => absurd h Bool.false_ne_true⟩
    -- the insert ends with the row, or against the unique index
    change Rejected (alone (createEdge args.tenantId manager report) ids db) at h
    simp only [createEdge, newId, alone, Tx.newId, perform, Tx.perform, bind_eq_tx, Tx.bind,
      Tx.alone] at h
    split at h
    · rcases h with h | h <;> cases h
    · rcases h with h | h <;> cases h

/-- **A call that no other overlaps is rejected exactly when its edge would
close a cycle.** -/
theorem alone_setEdge
    (hmanager : parse args.managerUserId = some manager)
    (hreport : parse args.reportUserId = some report) (hstored : StoredArgs parse args)
    (hacyclic : Acyclic (db.Manages args.tenantId)) (hfuel : db.edges.length < fuel) :
    Rejected (alone (setEdge parse fuel args) ids db) ↔
      ClosesCycle (db.Manages args.tenantId) manager report := by
  have hm := hstored.1 manager hmanager
  have hr := hstored.2 report hreport
  rw [setEdge, alone_bind]
  by_cases hsame : manager = report
  · -- a self-loop
    subst hsame
    rw [hm, hr]
    simp only [bne_self_eq_false]
    exact ⟨fun _ => .refl, fun _ => .inl rfl⟩
  · have hne : (args.managerUserId != args.reportUserId) = true := by
      rw [bne_iff_ne, hm, hr]
      exact fun htext => hsame (StoredUuid.text_injective htext)
    rw [hne]
    show Rejected (alone (userId parse args.managerUserId >>= fun manager => _) ids db) ↔ _
    rw [userId, hmanager]
    show Rejected (alone (userId parse args.reportUserId >>= fun report => _) ids db) ↔ _
    rw [userId, hreport]
    show Rejected (alone (((db.pair? manager report).filter (·.tenantId == args.tenantId)).elim
      (setNewEdge fuel args manager report) .pure) ids db) ↔ _
    cases hpair : (db.pair? manager report).filter (·.tenantId == args.tenantId) with
    | none => exact alone_setNewEdge hsame hr hfuel
    | some row =>
      -- the edge is there already, so the way back would be a cycle
      obtain ⟨hfound, htenant⟩ := Option.filter_eq_some_iff.mp hpair
      obtain ⟨hkey, hmem⟩ : (row.managerUserId = manager ∧ row.reportUserId = report) ∧
          row ∈ db.edges := by
        have hkey := find?_some hfound
        simp only [Bool.and_eq_true, beq_iff_eq] at hkey
        exact ⟨hkey, mem_of_find?_eq_some hfound⟩
      constructor
      · rintro (h | h) <;> cases h
      · intro hback
        have hedge : db.Manages args.tenantId manager report :=
          ⟨row, hmem, beq_iff_eq.mp htenant, hkey.1, hkey.2⟩
        exact absurd (TransGen.head' hedge hback) (hacyclic manager)

/-! ## The walk down -/

theorem alone_findTiers {manager : UserId} {skip : UserId → Bool} {depth n : Nat}
    {frontier visited : List UserId} (hskip : ∀ x, skip x = true → x = manager)
    (h : Layered (db.Manages tenantId) skip manager n visited frontier) :
    ∃ found, alone (findTiers tenantId skip depth frontier visited) ids db =
      .ok (found, ids, db) ∧
      ∀ y, y ∈ found ↔ skip y = false ∧ Within (db.Manages tenantId) (n + depth) manager y := by
  induction depth generalizing n frontier visited with
  | zero => exact ⟨visited, rfl, h.visited⟩
  | succ depth ih =>
    cases frontier with
    | nil => exact ⟨visited, rfl, (h.done hskip (depth + 1)).visited⟩
    | cons x frontier =>
      have hnext := h.expand hskip fun _ => EdgeDb.mem_reportsOf
      obtain ⟨found, hfound, hmem⟩ := ih hnext
      rw [Nat.add_right_comm] at hmem
      exact ⟨found, hfound, hmem⟩

/-- **Visibility is distance**: the users at one to `max_depth` edges, without those whose text
is the argument. -/
theorem alone_findTransitiveReportUserIds {managerUserId : JsString} {manager : UserId}
    {maxDepth : Option Nat} (hown : ∀ id : UserId, parse id.text = some id)
    (hmanager : parse managerUserId = some manager) :
    ∃ found, alone (findTransitiveReportUserIds parse tenantId managerUserId maxDepth) ids db =
        .ok (found, ids, db) ∧
      ∀ y, y ∈ found ↔ y.text ≠ managerUserId ∧
        Within (db.Manages tenantId) (maxDepth.getD 3) manager y := by
  have hskip : ∀ x : UserId, (x.text == managerUserId) = true → x = manager := by
    intro x hx
    rw [beq_iff_eq] at hx
    exact Option.some.inj ((hown x).symm.trans (hx ▸ hmanager))
  unfold findTransitiveReportUserIds
  cases maxDepth.getD 3 with
  | zero =>
    refine ⟨[], rfl, fun y => ⟨fun hy => absurd hy not_mem_nil, ?_⟩⟩
    rintro ⟨-, k, hone, hk, -⟩
    omega
  | succ depth =>
    obtain ⟨found, hfound, hmem⟩ : ∃ found, _ ∧ _ :=
      alone_findTiers hskip (layered_start (db.Manages tenantId) _ manager)
    simp only [Nat.zero_add, beq_eq_false_iff_ne] at hmem
    refine ⟨found, ?_, hmem⟩
    dsimp only
    rw [userId, hmanager]
    exact hfound

/-- **The manager stays out** exactly when named by the text of the column, or on no cycle of at
most `max_depth` edges. -/
theorem alone_reports_iff {managerUserId : JsString} {manager : UserId}
    {maxDepth : Option Nat} (hown : ∀ id : UserId, parse id.text = some id)
    (hmanager : parse managerUserId = some manager) :
    ∃ found, alone (findTransitiveReportUserIds parse tenantId managerUserId maxDepth) ids db =
        .ok (found, ids, db) ∧
      ((∀ y, y ∈ found ↔ y ≠ manager ∧ ∃ n, 1 ≤ n ∧ n ≤ maxDepth.getD 3 ∧
        Steps (db.Manages tenantId) n manager y) ↔
      managerUserId = manager.text ∨
        ¬ ∃ n, 1 ≤ n ∧ n ≤ maxDepth.getD 3 ∧ Steps (db.Manages tenantId) n manager manager) := by
  obtain ⟨found, hfound, hmem⟩ := alone_findTransitiveReportUserIds hown hmanager
  refine ⟨found, hfound, ?_⟩
  simp only [hmem]
  constructor
  · intro h
    by_contra hnot
    obtain ⟨htext, hcycle⟩ := not_or.mp hnot
    exact ((h manager).mp ⟨fun heq => htext heq.symm, not_not.mp hcycle⟩).1 rfl
  · rintro (rfl | hnone) y
    · exact and_congr_left fun _ =>
        not_congr ⟨fun htext => StoredUuid.text_injective htext, congrArg StoredUuid.text⟩
    · refine and_congr_left fun hnear => iff_of_true ?_ ?_
      · rintro rfl
        exact hnone (Option.some.inj ((hown y).symm.trans hmanager) ▸ hnear)
      · rintro rfl
        exact hnone hnear

end EdgeTx

/-! ## Runs -/

/-- Users are named by the text of the column. -/
def StoredOp (parse : JsString → Option UserId) : EdgeOp → Prop
  | .set _ args => StoredArgs parse args
  | .clear _ _ => True

/-- Every walk still stands at the commit of its edge. -/
abbrev StandingEdgeStep (parse : JsString → Option UserId) :
    World edgeStore Unit → Move EdgeOp → World edgeStore Unit → Prop :=
  Guarded (World.Step (EdgeOp.program parse)) fun w m =>
    CommitsOn walkCheck w m ∧ World.StartsIn (StoredOp parse) m

theorem wp_edgeOp {parse : JsString → Option UserId} (op : EdgeOp) (db : EdgeDb)
    (hop : StoredOp parse op) (h : AcyclicEdges db) :
    (op.program parse).wp walkCheck (fun _ d => AcyclicEdges d) db := by
  cases op with
  | set fuel args => exact (Tx.wp_bind _ _ _).mpr (EdgeTx.wp_setEdge hop h)
  | clear tenantId id => exact EdgeTx.wp_clearEdge h

theorem acyclicEdges_empty : AcyclicEdges ⟨[]⟩ := by
  intro t x hx
  obtain ⟨y, -, e, he, -⟩ := TransGen.tail'_iff.mp hx
  cases he

/-- **The management graph**: without cycles in every run whose walks stand,
guarded exactly by calls that do not overlap, and visible tier by tier. -/
theorem management_graph_sound (parse : JsString → Option UserId) :
    (∀ (moves : List (Move EdgeOp)) (w : World edgeStore Unit),
      Run (StandingEdgeStep parse) (World.quiet ⟨[]⟩) moves w →
        ∀ tenantId, Acyclic (w.db.Manages tenantId)) ∧
    (∀ (db : EdgeDb) (fuel : Nat) (args : SetEdgeArgs) (manager report : UserId) (ids : List Nat),
      parse args.managerUserId = some manager → parse args.reportUserId = some report →
      StoredArgs parse args → Acyclic (db.Manages args.tenantId) → db.edges.length < fuel →
        (EdgeTx.Rejected (EdgeTx.alone (EdgeTx.setEdge parse fuel args) ids db) ↔
          ClosesCycle (db.Manages args.tenantId) manager report)) ∧
    (∀ (db : EdgeDb) (tenantId : Nat) (managerUserId : JsString) (manager : UserId)
      (maxDepth : Option Nat) (ids : List Nat), (∀ id : UserId, parse id.text = some id) →
      parse managerUserId = some manager →
        ∃ found, EdgeTx.alone (EdgeTx.findTransitiveReportUserIds parse tenantId managerUserId
            maxDepth) ids db = .ok (found, ids, db) ∧
          ((∀ y, y ∈ found ↔ y ≠ manager ∧ ∃ n, 1 ≤ n ∧ n ≤ maxDepth.getD 3 ∧
            Steps (db.Manages tenantId) n manager y) ↔
          managerUserId = manager.text ∨ ¬ ∃ n, 1 ≤ n ∧ n ≤ maxDepth.getD 3 ∧
            Steps (db.Manages tenantId) n manager manager)) := by
  refine ⟨fun moves w hrun => ?_, ?_, ?_⟩
  · exact (World.invariant_of_run_of wp_edgeOp hrun (World.onCourseOf_quiet _)
      acyclicEdges_empty).2
  · intro db fuel args manager report ids hmanager hreport hstored hacyclic hfuel
    exact EdgeTx.alone_setEdge hmanager hreport hstored hacyclic hfuel
  · intro db tenantId managerUserId manager maxDepth ids hown hmanager
    exact EdgeTx.alone_reports_iff hown hmanager

/-! ### Two calls at once -/

def userOne : UserId := .ofNat 0xa

def userTwo : UserId := .ofNat 0xb

/-- `manager` is to manage `report`. -/
def setOf (manager report : JsString) : EdgeOp := .set 3 ⟨0, manager, report⟩

/-- Each of two users is made the manager of the other, by two calls at once. -/
def overlappingCalls : List (Move EdgeOp) :=
  [.start (setOf userOne.text userTwo.text), .start (setOf userTwo.text userOne.text)] ++
    World.advances 0 0 4 ++ World.advances 1 1 4 ++ [.commit 0, .commit 0]

/-- The text of the first user in upper case. -/
def userOneUpper : JsString := js "00000000-0000-0000-0000-00000000000A"

/-- Two calls close a cycle together; one is enough when it names a user in
upper case. -/
theorem management_graph_unsound :
    (∃ w : World edgeStore Unit, Run (World.Step (EdgeOp.program StoredUuid.ofGroups?))
      (World.quiet ⟨[]⟩) overlappingCalls w ∧ ¬ Acyclic (w.db.Manages 0)) ∧
    (¬ EdgeTx.Rejected (EdgeTx.alone
      (EdgeTx.setEdge StoredUuid.ofGroups? 1 ⟨0, userOneUpper, userOne.text⟩) [0] ⟨[]⟩) ∧
      StoredUuid.ofGroups? userOneUpper = some userOne ∧
      ClosesCycle ((EdgeDb.mk []).Manages 0) userOne userOne) := by
  refine ⟨?_, ?_, by decide +kernel, .refl⟩
  · obtain ⟨w, hrun, hp⟩ := World.run_of_moves (EdgeOp.program StoredUuid.ofGroups?)
      (World.quiet ⟨[]⟩) overlappingCalls (fun w : World edgeStore Unit =>
        w.db.edges.any (fun e => e.tenantId == 0 && e.managerUserId == userOne &&
          e.reportUserId == userTwo) &&
        w.db.edges.any (fun e => e.tenantId == 0 && e.managerUserId == userTwo &&
          e.reportUserId == userOne)) (by decide +kernel)
    simp only [Bool.and_eq_true, any_eq_true, beq_iff_eq] at hp
    obtain ⟨⟨e, he, ⟨ht, hm⟩, hr⟩, e', he', ⟨ht', hm'⟩, hr'⟩ := hp
    refine ⟨w, hrun, fun hacyclic => hacyclic userOne ?_⟩
    exact .tail (.single ⟨e, he, ht, hm, hr⟩) ⟨e', he', ht', hm', hr'⟩
  · rintro (h | h)
    · exact absurd h (by decide +kernel)
    · exact absurd h (by decide +kernel)

/-! ### One call after the other -/

instance (s : EdgeStmt) (a : s.Ans) (db : EdgeDb) : Decidable (walkStands s a db) := by
  unfold walkStands
  split <;> infer_instance

def storedTest (text : JsString) : Bool :=
  (StoredUuid.ofGroups? text).all fun id => text == id.text

def storedStart : Move EdgeOp → Bool
  | .start (.set _ args) => storedTest args.managerUserId && storedTest args.reportUserId
  | _ => true

theorem storedText_of_test {text : JsString} (h : storedTest text = true) :
    StoredText StoredUuid.ofGroups? text := by
  intro id hid
  rw [storedTest, hid, Option.all_some, beq_iff_eq] at h
  exact h

theorem startsIn_of_storedStart (m : Move EdgeOp) (h : storedStart m = true) :
    World.StartsIn (StoredOp StoredUuid.ofGroups?) m := by
  rintro op rfl
  cases op with
  | set fuel args =>
    obtain ⟨hmanager, hreport⟩ := Bool.and_eq_true_iff.mp h
    exact ⟨storedText_of_test hmanager, storedText_of_test hreport⟩
  | clear tenantId id => trivial

/-- The first user is made the manager of the second. -/
def oneCall : List (Move EdgeOp) :=
  [.start (setOf userOne.text userTwo.text)] ++ World.advances 0 0 4 ++ [.commit 0]

/-- After one call its converse is rejected, and the report is visible. -/
theorem management_graph_sound_in_turn : ∃ w : World edgeStore Unit,
    Run (StandingEdgeStep StoredUuid.ofGroups?) (World.quiet ⟨[]⟩) oneCall w ∧
    Acyclic (w.db.Manages 0) ∧
    EdgeTx.Rejected (EdgeTx.alone
      (EdgeTx.setEdge StoredUuid.ofGroups? 2 ⟨0, userTwo.text, userOne.text⟩) [9] w.db) ∧
    ∃ found, EdgeTx.alone (EdgeTx.findTransitiveReportUserIds StoredUuid.ofGroups? 0 userOne.text
      none) [] w.db = .ok (found, [], w.db) ∧ userTwo ∈ found := by
  obtain ⟨w, hrun, hp⟩ := World.guardedRun_of_moves_of (EdgeOp.program StoredUuid.ofGroups?)
    walkCheck (StoredOp StoredUuid.ofGroups?) storedStart startsIn_of_storedStart (World.quiet ⟨[]⟩)
    oneCall (fun w : World edgeStore Unit => w.db == ⟨[⟨2, 0, userOne, userTwo⟩]⟩)
    (by decide +kernel)
  have hdb := beq_iff_eq.mp hp
  obtain ⟨hacyclic, hreject, hvisible⟩ := management_graph_sound StoredUuid.ofGroups?
  have hedge : w.db.Manages 0 userOne userTwo := by
    rw [hdb]
    exact ⟨_, mem_cons_self, rfl, rfl, rfl⟩
  have hkeep := hacyclic oneCall w hrun
  have hclosed : ClosesCycle (w.db.Manages 0) userTwo userOne := .single hedge
  refine ⟨w, hrun, hkeep 0, ?_, ?_⟩
  · refine (hreject w.db 2 ⟨0, userTwo.text, userOne.text⟩ userTwo userOne [9]
      (StoredUuid.ofGroups?_text userTwo) (StoredUuid.ofGroups?_text userOne)
      ⟨storedText_of_test (by decide +kernel), storedText_of_test (by decide +kernel)⟩
      (hkeep 0) ?_).mpr hclosed
    rw [hdb]
    decide
  · obtain ⟨found, hfound, hiff⟩ := hvisible w.db 0 userOne.text userOne none []
      StoredUuid.ofGroups?_text (StoredUuid.ofGroups?_text userOne)
    refine ⟨found, hfound, (hiff.mpr (.inl rfl) userTwo).mpr ⟨by decide, 1, le_rfl, by decide, ?_⟩⟩
    exact .succ (.zero userOne) hedge

end AramoPlatform.Identity
