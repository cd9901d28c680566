import AramoPlatform.Js.UuidText
import AramoPlatform.Lib.Graph
import AramoPlatform.Lib.Transactions

/-!
# The management hierarchy

`ManagementEdgeService` and its repository: one row for each pair of a manager
and a report of a tenant. Setting an edge walks up from the manager with one
query for each user met, and inserts the row if the report was not met; the
visibility of a manager walks down, one query for each tier.

A caller names users by text. The column takes several texts for one user, and
`parse` stands for what it takes; the rows come back in the stored form.
-/

namespace AramoPlatform.Identity

open Js Lib

abbrev UserId := StoredUuid

/-- A `ManagementEdge` row. -/
structure ManagementEdge where
  id : Nat
  tenantId : Nat
  managerUserId : UserId
  reportUserId : UserId
  deriving DecidableEq

structure EdgeDb where
  edges : List ManagementEdge
  deriving DecidableEq

namespace EdgeDb

def edge? (db : EdgeDb) (id : Nat) : Option ManagementEdge := db.edges.find? (·.id == id)

/-- The row of the unique index on manager and report. -/
def pair? (db : EdgeDb) (manager report : UserId) : Option ManagementEdge :=
  db.edges.find? fun e => e.managerUserId == manager && e.reportUserId == report

def managersOf (db : EdgeDb) (tenantId : Nat) (report : UserId) : List UserId :=
  (db.edges.filter fun e => e.tenantId == tenantId && e.reportUserId ==
    report).map (·.managerUserId)

/-- The reports of any of the managers. -/
def reportsOf (db : EdgeDb) (tenantId : Nat) (managers : List UserId) : List UserId :=
  (db.edges.filter fun e => e.tenantId == tenantId && managers.contains e.managerUserId).map
    (·.reportUserId)

/-- `manager` manages `report` in the tenant. -/
def Manages (db : EdgeDb) (tenantId : Nat) (manager report : UserId) : Prop :=
  ∃ e ∈ db.edges, e.tenantId = tenantId ∧ e.managerUserId = manager ∧ e.reportUserId = report

theorem mem_managersOf {db : EdgeDb} {tenantId : Nat} {manager report : UserId} :
    manager ∈ db.managersOf tenantId report ↔ db.Manages tenantId manager report := by
  simp only [managersOf, Manages, List.mem_map, List.mem_filter, Bool.and_eq_true, beq_iff_eq]
  constructor
  · rintro ⟨e, ⟨he, htenant, hreport⟩, hmanager⟩
    exact ⟨e, he, htenant, hmanager, hreport⟩
  · rintro ⟨e, he, htenant, hmanager, hreport⟩
    exact ⟨e, ⟨he, htenant, hreport⟩, hmanager⟩

theorem mem_reportsOf {db : EdgeDb} {tenantId : Nat} {managers : List UserId} {report : UserId} :
    report ∈ db.reportsOf tenantId managers ↔
      ∃ manager ∈ managers, db.Manages tenantId manager report := by
  simp only [reportsOf, Manages, List.mem_map, List.mem_filter, Bool.and_eq_true, beq_iff_eq,
    List.contains_iff_mem]
  constructor
  · rintro ⟨e, ⟨he, htenant, hmanager⟩, hreport⟩
    exact ⟨_, hmanager, e, he, htenant, rfl, hreport⟩
  · rintro ⟨manager, hmanager, e, he, htenant, rfl, hreport⟩
    exact ⟨e, ⟨he, htenant, hmanager⟩, hreport⟩

end EdgeDb

/-! ## Statements -/

inductive EdgeStmt where
  | findById (id : Nat)
  | findByPair (manager report : UserId)
  | managersOf (tenantId : Nat) (report : UserId)
  | reportsOf (tenantId : Nat) (managers : List UserId)
  | create (row : ManagementEdge)
  | deleteById (tenantId id : Nat)

abbrev EdgeStmt.Ans : EdgeStmt → Type
  | .findById _ | .findByPair _ _ => Option ManagementEdge
  | .managersOf _ _ | .reportsOf _ _ => List UserId
  | _ => Unit

inductive EdgeError where
  /-- The text is no UUID. -/
  | invalidId
  /-- `MANAGEMENT_CYCLE_REJECTED`, and its reason. -/
  | selfLoop
  | cycle
  | notFound
  | uniqueViolation
  /-- The walk is cut off. -/
  | unfinished
  deriving DecidableEq

/-- The table of edges under concurrent calls. A statement outside of a
transaction is one of its own. -/
abbrev edgeStore : Store where
  Db := EdgeDb
  Stmt := EdgeStmt
  Ans := EdgeStmt.Ans
  Key := Nat
  Err := EdgeError
  decKey := inferInstance
  answer
    | .findById id, db => db.edge? id
    | .findByPair manager report, db => db.pair? manager report
    | .managersOf tenantId report, db => db.managersOf tenantId report
    | .reportsOf tenantId managers, db => db.reportsOf tenantId managers
    | .create _, _ => ()
    | .deleteById _ _, _ => ()
  effect
    | .create row, db => ⟨db.edges ++ [row]⟩
    | .deleteById tenantId id, db =>
        ⟨db.edges.filter fun e => !(e.id == id && e.tenantId == tenantId)⟩
    | _, db => db
  allowed
    | .create row, db => (db.edge? row.id).isNone &&
        (db.pair? row.managerUserId row.reportUserId).isNone
    | _, _ => true
  locks
    | .deleteById _ id => [id]
    | _ => []

structure SetEdgeArgs where
  tenantId : Nat
  managerUserId : JsString
  reportUserId : JsString

abbrev EdgeTx (α : Type) := Tx edgeStore α

namespace EdgeTx

def perform (s : EdgeStmt) : EdgeTx s.Ans := Tx.perform (σ := edgeStore) s

def refuse {α : Type} (e : EdgeError) : EdgeTx α := Tx.throw (σ := edgeStore) e

def require (cond : Bool) (e : EdgeError) : EdgeTx Unit := Tx.require (σ := edgeStore) cond e

def newId : EdgeTx Nat := Tx.newId

/-- A call that no other overlaps. -/
def alone {α : Type} (t : EdgeTx α) (ids : List Nat) (db : EdgeDb) :
    Except EdgeError (α × List Nat × EdgeDb) :=
  Tx.alone (σ := edgeStore) .uniqueViolation t (ids, db)

/-- The text of an argument, as the column takes it. -/
def userId (parse : JsString → Option UserId) (text : JsString) : EdgeTx UserId :=
  match parse text with
  | some id => .pure id
  | none => refuse .invalidId

/-! ## The repository and the service -/

/-- The walk up, with at most `fuel` queries. -/
def findAncestorUserIds (tenantId : Nat) : Nat → List UserId → List UserId → EdgeTx (List UserId)
  | _, [], visited => .pure visited
  | 0, _ :: _, _ => refuse .unfinished
  | fuel + 1, current :: queue, visited => do
      let managers ← perform (.managersOf tenantId current)
      let out := discover (fun _ => false) managers (visited, queue)
      findAncestorUserIds tenantId fuel out.2 out.1

/-- The row of the pair, unless it is another tenant's. -/
def findByPair (tenantId : Nat) (manager report : UserId) : EdgeTx (Option ManagementEdge) := do
  let row ← perform (.findByPair manager report)
  .pure (row.filter (·.tenantId == tenantId))

/-- The new edge of `setEdge`, after its checks. -/
def createEdge (tenantId : Nat) (manager report : UserId) : EdgeTx ManagementEdge := do
  let id ← newId
  let row : ManagementEdge := ⟨id, tenantId, manager, report⟩
  perform (.create row)
  .pure row

/-- `setEdge` for a pair that has no edge. -/
def setNewEdge (fuel : Nat) (args : SetEdgeArgs) (manager report : UserId) :
    EdgeTx ManagementEdge := do
  let ancestors ← findAncestorUserIds args.tenantId fuel [manager] []
  require (!ancestors.any (·.text == args.reportUserId)) .cycle
  createEdge args.tenantId manager report

def setEdge (parse : JsString → Option UserId) (fuel : Nat) (args : SetEdgeArgs) :
    EdgeTx ManagementEdge := do
  require (args.managerUserId != args.reportUserId) .selfLoop
  let manager ← userId parse args.managerUserId
  let report ← userId parse args.reportUserId
  let existing ← findByPair args.tenantId manager report
  existing.elim (setNewEdge fuel args manager report) .pure

def clearEdge (tenantId id : Nat) : EdgeTx Unit := do
  let row ← perform (.findById id)
  require (row.any (·.tenantId == tenantId)) .notFound
  perform (.deleteById tenantId id)

/-- The walk down: `depth` tiers at most, without the reports that `skip` leaves out. -/
def findTiers (tenantId : Nat) (skip : UserId → Bool) :
    Nat → List UserId → List UserId → EdgeTx (List UserId)
  | 0, _, visited => .pure visited
  | _ + 1, [], visited => .pure visited
  | depth + 1, x :: frontier, visited => do
      let reports ← perform (.reportsOf tenantId (x :: frontier))
      let out := discover skip reports (visited, [])
      findTiers tenantId skip depth out.2 out.1

/-- The manager is left out as text. -/
def findTransitiveReportUserIds (parse : JsString → Option UserId) (tenantId : Nat)
    (managerUserId : JsString) (maxDepth : Option Nat) : EdgeTx (List UserId) :=
  match maxDepth.getD 3 with
  | 0 => .pure []
  | depth + 1 => do
      let manager ← userId parse managerUserId
      findTiers tenantId (·.text == managerUserId) (depth + 1) [manager] []

end EdgeTx

/-! ## Calls -/

inductive EdgeOp where
  | set (fuel : Nat) (args : SetEdgeArgs)
  | clear (tenantId id : Nat)

def EdgeOp.program (parse : JsString → Option UserId) : EdgeOp → EdgeTx Unit
  | .set fuel args => do
      let _ ← EdgeTx.setEdge parse fuel args
  | .clear tenantId id => EdgeTx.clearEdge tenantId id

end AramoPlatform.Identity
