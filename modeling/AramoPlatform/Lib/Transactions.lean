import AramoPlatform.Lib.Runs

/-!
# Transactions, statement by statement

A database under concurrent transactions that read committed rows. A
transaction is a tree: it runs one statement after another, and each answer
decides how it goes on. A statement sees the committed rows of the moment and
the writes of its own transaction; the writes of the others show only once
they commit. A lock that a statement takes is held to the end of its
transaction. A transaction may end at any moment without effect: that is a
crash, a deadlock or a lost connection.

What a transaction commits may rest on answers that no longer hold. `wp` is
the rule for a commit whose answers still stand as far as `ok` asks: what it
shows of every operation holds in every run all of whose commits are such.
-/

namespace AramoPlatform.Lib

/-- The statements of a database. -/
structure Store where
  Db : Type
  Stmt : Type
  Ans : Stmt → Type
  Key : Type
  Err : Type
  decKey : DecidableEq Key
  /-- What a statement returns, given the rows it sees. -/
  answer : (s : Stmt) → Db → Ans s
  /-- The rows after its writes. -/
  effect : Stmt → Db → Db
  /-- The constraints of the schema let the writes pass. -/
  allowed : Stmt → Db → Bool
  /-- The locks it takes. -/
  locks : Stmt → List Key

/-- A transaction. -/
inductive Tx (σ : Store) (α : Type) where
  | pure (a : α)
  /-- Roll back. -/
  | throw (e : σ.Err)
  /-- A random identifier. -/
  | choose (next : Nat → Tx σ α)
  | stmt (s : σ.Stmt) (next : σ.Ans s → Tx σ α)

/-- A statement and what it answered. -/
structure Answered (σ : Store) where
  stmt : σ.Stmt
  ans : σ.Ans stmt

variable {σ : Store} {α β : Type}

/-! ## Building transactions -/

namespace Tx

def bind : Tx σ α → (α → Tx σ β) → Tx σ β
  | .pure a, f => f a
  | .throw e, _ => .throw e
  | .choose next, f => .choose fun n => (next n).bind f
  | .stmt s next, f => .stmt s fun a => (next a).bind f

instance : Monad (Tx σ) where
  pure := .pure
  bind := bind

/-- Run one statement. -/
def perform (s : σ.Stmt) : Tx σ (σ.Ans s) := .stmt s .pure

/-- A fresh identifier. -/
def newId : Tx σ Nat := .choose .pure

/-- Roll back unless the condition holds. -/
def require (cond : Bool) (e : σ.Err) : Tx σ Unit := if cond then .pure () else .throw e

/-- `if (cond) …`. -/
def when (cond : Bool) (t : Tx σ Unit) : Tx σ Unit := if cond then t else .pure ()

/-- A loop over a list. -/
def forEach (xs : List β) (body : β → Tx σ Unit) : Tx σ Unit :=
  match xs with
  | [] => .pure ()
  | x :: rest => (body x).bind fun _ => forEach rest body

/-- A loop that carries a value. -/
def foldl (step : α → β → Tx σ α) (init : α) (xs : List β) : Tx σ α :=
  match xs with
  | [] => .pure init
  | x :: rest => (step init x).bind fun a => foldl step a rest

/-- A transaction with the database to itself. Its identifiers come from a
list; a write that a constraint refuses ends it. -/
def alone (violation : σ.Err) :
    Tx σ α → List Nat × σ.Db → Except σ.Err (α × List Nat × σ.Db)
  | .pure a, s => .ok (a, s)
  | .throw e, _ => .error e
  | .choose next, (ids, d) => (next (ids.headD 0)).alone violation (ids.tail, d)
  | .stmt s next, (ids, d) =>
      if σ.allowed s d then (next (σ.answer s d)).alone violation (ids, σ.effect s d)
      else .error violation

end Tx

@[simp] theorem pure_eq_tx (a : α) : (pure a : Tx σ α) = .pure a := rfl

@[simp] theorem bind_eq_tx (t : Tx σ α) (f : α → Tx σ β) : t >>= f = t.bind f := rfl

theorem Tx.alone_bind (violation : σ.Err) (t : Tx σ α) (f : α → Tx σ β) (s : List Nat × σ.Db) :
    (t.bind f).alone violation s =
      (t.alone violation s).bind fun out => (f out.1).alone violation out.2 := by
  induction t generalizing s with
  | pure a => rfl
  | throw e => rfl
  | choose next ih => exact ih _ _
  | stmt stmt next ih =>
    simp only [Tx.bind, Tx.alone]
    split
    · exact ih _ _
    · rfl

/-! ## The database under many transactions -/

/-- A transaction on its way. -/
structure Flight (σ : Store) (α : Type) where
  rest : Tx σ α
  /-- The statements so far. -/
  trace : List (Answered σ)

/-- The committed rows, and the transactions in progress. -/
structure World (σ : Store) (α : Type) where
  db : σ.Db
  flights : List (Flight σ α)

inductive Move (Op : Type) where
  | start (op : Op)
  /-- The next statement of a transaction, or its next identifier. -/
  | advance (i : Nat) (id : Nat)
  | commit (i : Nat)
  | abort (i : Nat)

/-- The rows after the writes of some statements. -/
def replay (trace : List (Answered σ)) (d : σ.Db) : σ.Db :=
  trace.foldl (fun d e => σ.effect e.stmt d) d

/-- Every write of a transaction passes the constraints. -/
def admitted : List (Answered σ) → σ.Db → Bool
  | [], _ => true
  | e :: rest, d => σ.allowed e.stmt d && admitted rest (σ.effect e.stmt d)

namespace Flight

/-- The locks that a transaction holds. -/
def held (f : Flight σ α) : List σ.Key := f.trace.flatMap fun e => σ.locks e.stmt

/-- The locks that its next statement asks for. -/
def asks (f : Flight σ α) : List σ.Key :=
  match f.rest with
  | .stmt s _ => σ.locks s
  | _ => []

/-- Only the commit is left. -/
def finished (f : Flight σ α) : Bool :=
  match f.rest with
  | .pure _ => true
  | _ => false

/-- What the transaction returns, once only the commit is left. -/
def result (f : Flight σ α) : Option α :=
  match f.rest with
  | .pure a => some a
  | _ => none

/-- One step of a transaction over the committed rows. -/
def advance (f : Flight σ α) (d : σ.Db) (id : Nat) : Option (Flight σ α) :=
  match f.rest with
  | .choose next => some ⟨next id, f.trace⟩
  | .stmt s next =>
      let view := replay f.trace d
      if σ.allowed s view then some ⟨next (σ.answer s view), f.trace ++ [⟨s, σ.answer s view⟩]⟩
      else none
  | _ => none

theorem finished_iff {f : Flight σ α} : f.finished = true ↔ ∃ a, f.rest = .pure a := by
  unfold finished
  split
  next a hrest => exact ⟨fun _ => ⟨a, hrest⟩, fun _ => rfl⟩
  next hne =>
    refine ⟨fun h => absurd h Bool.false_ne_true, ?_⟩
    rintro ⟨a, h⟩
    exact absurd h (hne a)

end Flight

namespace World

variable {Op : Type}

/-- No other transaction holds a lock that this one asks for. -/
def granted (w : World σ α) (i : Nat) (f : Flight σ α) : Bool :=
  (w.flights.eraseIdx i).all fun g => f.asks.all fun k =>
    g.held.all fun k' => @decide (k ≠ k') (@instDecidableNot _ (σ.decKey k k'))

def next (program : Op → Tx σ α) (w : World σ α) : Move Op → Option (World σ α)
  | .start op => some { w with flights := w.flights ++ [⟨program op, []⟩] }
  | .advance i id => w.flights[i]?.bind fun f =>
      if w.granted i f then
        (f.advance w.db id).map fun f' => { w with flights := w.flights.set i f' }
      else none
  | .commit i => w.flights[i]?.bind fun f =>
      if f.finished && admitted f.trace w.db then
        some ⟨replay f.trace w.db, w.flights.eraseIdx i⟩
      else none
  | .abort i => some { w with flights := w.flights.eraseIdx i }

def Step (program : Op → Tx σ α) (w : World σ α) (m : Move Op) (w' : World σ α) : Prop :=
  w.next program m = some w'

end World

/-! ## Answers that still stand -/

/-- What is asked of the answers of a transaction at its commit: of each
statement, its answer, and the rows that it would see now. -/
abbrev Store.Check (σ : Store) := (s : σ.Stmt) → σ.Ans s → σ.Db → Prop

/-- The answers of a transaction meet `ok` on these rows, each after the writes
before it. -/
def Stands (ok : σ.Check) : List (Answered σ) → σ.Db → Prop
  | [], _ => True
  | e :: rest, d => ok e.stmt e.ans d ∧ Stands ok rest (σ.effect e.stmt d)

theorem stands_of_forall {ok : σ.Check} (h : ∀ s a d, ok s a d) (trace : List (Answered σ))
    (d : σ.Db) : Stands ok trace d := by
  induction trace generalizing d with
  | nil => trivial
  | cons e rest ih => exact ⟨h _ _ _, ih _⟩

/-- The condition on a move: a commit finds its answers standing. -/
def CommitsOn (ok : σ.Check) {Op : Type} (w : World σ α) (m : Move Op) : Prop :=
  ∀ i, m = .commit i → ∀ f, w.flights[i]? = some f → Stands ok f.trace w.db

/-! ## Weakest preconditions -/

namespace Tx

/-- Every execution whose answers meet `ok` and whose writes are allowed ends
in `Q`. -/
def wp (ok : σ.Check) (Q : α → σ.Db → Prop) : Tx σ α → σ.Db → Prop
  | .pure a, d => Q a d
  | .throw _, _ => True
  | .choose next, d => ∀ n, (next n).wp ok Q d
  | .stmt s next, d =>
      ∀ a, ok s a d → σ.allowed s d = true → (next a).wp ok Q (σ.effect s d)

/-- Every statement of the transaction satisfies `P`. -/
def Only (P : σ.Stmt → Prop) : Tx σ α → Prop
  | .pure _ | .throw _ => True
  | .choose next => ∀ n, (next n).Only P
  | .stmt s next => P s ∧ ∀ a, (next a).Only P

section Rules

variable {ok : σ.Check} {Q R : α → σ.Db → Prop} {P : σ.Stmt → Prop}

@[simp] theorem wp_pure (a : α) (d : σ.Db) : (Tx.pure a).wp ok Q d ↔ Q a d := Iff.rfl

@[simp] theorem wp_throw (e : σ.Err) (d : σ.Db) : (Tx.throw e : Tx σ α).wp ok Q d := trivial

@[simp] theorem wp_choose (next : Nat → Tx σ α) (d : σ.Db) :
    (Tx.choose next).wp ok Q d ↔ ∀ n, (next n).wp ok Q d := Iff.rfl

@[simp] theorem wp_stmt (s : σ.Stmt) (next : σ.Ans s → Tx σ α) (d : σ.Db) :
    (Tx.stmt s next).wp ok Q d ↔
      ∀ a, ok s a d → σ.allowed s d = true → (next a).wp ok Q (σ.effect s d) := Iff.rfl

@[simp] theorem wp_bind {Q : β → σ.Db → Prop} (t : Tx σ α) (f : α → Tx σ β) (d : σ.Db) :
    (t.bind f).wp ok Q d ↔ t.wp ok (fun a d => (f a).wp ok Q d) d := by
  induction t generalizing d with
  | pure | throw => exact Iff.rfl
  | choose next ih => exact forall_congr' fun n => ih n d
  | stmt s next ih =>
    exact forall_congr' fun a => forall_congr' fun _ => forall_congr' fun _ => ih a _

@[simp] theorem wp_perform {s : σ.Stmt} {Q : σ.Ans s → σ.Db → Prop} (d : σ.Db) :
    (perform s).wp ok Q d ↔ ∀ a, ok s a d → σ.allowed s d = true → Q a (σ.effect s d) := Iff.rfl

@[simp] theorem wp_newId {Q : Nat → σ.Db → Prop} (d : σ.Db) :
    (newId : Tx σ Nat).wp ok Q d ↔ ∀ n, Q n d := Iff.rfl

@[simp] theorem wp_require {Q : Unit → σ.Db → Prop} (cond : Bool) (e : σ.Err) (d : σ.Db) :
    (require cond e : Tx σ Unit).wp ok Q d ↔ (cond = true → Q () d) := by
  cases cond with
  | false | true => simp [require]

@[simp] theorem wp_when {Q : Unit → σ.Db → Prop} (cond : Bool) (t : Tx σ Unit) (d : σ.Db) :
    (Tx.when cond t).wp ok Q d ↔ if cond then t.wp ok Q d else Q () d := by
  unfold Tx.when
  split
  · exact Iff.rfl
  · exact Iff.rfl

variable {t : Tx σ α}

theorem wp_mono {d : σ.Db} (h : t.wp ok Q d) (himp : ∀ a d, Q a d → R a d) :
    t.wp ok R d := by
  induction t generalizing d with
  | pure a => exact himp a d h
  | throw e => trivial
  | choose next ih =>
    intro n
    exact ih n (h n)
  | stmt s next ih =>
    intro a ha hallowed
    exact ih a (h a ha hallowed)

theorem wp_and {d : σ.Db} (h : t.wp ok Q d) (h' : t.wp ok R d) :
    t.wp ok (fun a d => Q a d ∧ R a d) d := by
  induction t generalizing d with
  | pure a => exact ⟨h, h'⟩
  | throw e => trivial
  | choose next ih =>
    intro n
    exact ih n (h n) (h' n)
  | stmt s next ih =>
    intro a ha hallowed
    exact ih a (h a ha hallowed) (h' a ha hallowed)

/-- **The loop rule**: an invariant of the body is one of the loop. -/
theorem wp_forEach {I : σ.Db → Prop} {body : β → Tx σ Unit} {xs : List β} {d : σ.Db}
    (hbody : ∀ x ∈ xs, ∀ d, I d → (body x).wp ok (fun _ d => I d) d) (hd : I d) :
    (forEach xs body).wp ok (fun _ d => I d) d := by
  induction xs generalizing d with
  | nil => exact hd
  | cons x rest ih =>
    rw [forEach, wp_bind]
    refine wp_mono (hbody x List.mem_cons_self d hd) ?_
    intro _ d' hd'
    exact ih (fun y hy => hbody y (List.mem_cons_of_mem x hy)) hd'

/-- **The frame rule**: what every statement of a transaction keeps, the
transaction keeps. -/
theorem wp_of_only {I : σ.Db → Prop} {d : σ.Db} (ht : t.Only P)
    (hkeep : ∀ s a d, P s → ok s a d → σ.allowed s d = true → I d → I (σ.effect s d)) (hd : I d) :
    t.wp ok (fun _ d => I d) d := by
  induction t generalizing d with
  | pure a => exact hd
  | throw e => trivial
  | choose next ih =>
    intro n
    exact ih n (ht n) hd
  | stmt s next ih =>
    intro a ha hallowed
    exact ih a (ht.2 a) (hkeep s a d ht.1 ha hallowed hd)

theorem only_mono {P' : σ.Stmt → Prop} (h : t.Only P) (himp : ∀ s, P s → P' s) :
    t.Only P' := by
  induction t with
  | pure | throw => trivial
  | choose next ih => exact fun n => ih n (h n)
  | stmt s next ih => exact ⟨himp s h.1, fun a => ih a (h.2 a)⟩

@[simp] theorem only_pure (a : α) : (Tx.pure a : Tx σ α).Only P := trivial

@[simp] theorem only_throw (e : σ.Err) : (Tx.throw e : Tx σ α).Only P := trivial

@[simp] theorem only_perform {s : σ.Stmt} : (perform s).Only P ↔ P s :=
  ⟨fun h => h.1, fun h => ⟨h, fun _ => trivial⟩⟩

@[simp] theorem only_newId : (newId : Tx σ Nat).Only P := fun _ => trivial

@[simp] theorem only_require (cond : Bool) (e : σ.Err) : (require cond e : Tx σ Unit).Only P := by
  cases cond with
  | false | true => trivial

theorem only_when {cond : Bool} {t : Tx σ Unit} (h : t.Only P) : (Tx.when cond t).Only P := by
  unfold Tx.when
  split
  · exact h
  · trivial

theorem only_bind {f : α → Tx σ β} (ht : t.Only P) (hf : ∀ a, (f a).Only P) :
    (t.bind f).Only P := by
  induction t with
  | pure a => exact hf a
  | throw e => trivial
  | choose next ih => exact fun n => ih n (ht n)
  | stmt s next ih => exact ⟨ht.1, fun a => ih a (ht.2 a)⟩

theorem only_forEach {body : β → Tx σ Unit} {xs : List β} (h : ∀ x, (body x).Only P) :
    (forEach xs body).Only P := by
  induction xs with
  | nil => trivial
  | cons x rest ih => exact only_bind (h x) fun _ => ih

theorem only_foldl {step : α → β → Tx σ α} {xs : List β} {init : α}
    (h : ∀ a x, (step a x).Only P) : (foldl step init xs).Only P := by
  induction xs generalizing init with
  | nil => trivial
  | cons x rest ih => exact only_bind (h init x) fun a => ih

end Rules

end Tx

/-! ## One transaction at a time -/

/-- The answers of a transaction that has the database to itself. -/
def exactly : σ.Check := fun s a d => a = σ.answer s d

/-- What the precondition promises, a transaction with the database to itself
delivers. -/
theorem Tx.wp_of_alone {Q : α → σ.Db → Prop} {violation : σ.Err} {t : Tx σ α}
    {ids ids' : List Nat} {d d' : σ.Db} {a : α}
    (h : t.alone violation (ids, d) = .ok (a, ids', d')) (hwp : t.wp exactly Q d) : Q a d' := by
  induction t generalizing ids d with
  | pure b =>
    cases h
    exact hwp
  | throw e => cases h
  | choose next ih => exact ih _ h (hwp _)
  | stmt s next ih =>
    rw [Tx.alone] at h
    split at h
    next hallowed => exact ih _ h (hwp _ rfl hallowed)
    · cases h

/-- The database under operations one at a time: each call comes with its
identifiers, and one that is refused is no step. -/
def oneAtATime {Op : Type} (violation : σ.Err) (program : Op → Tx σ α) (d : σ.Db)
    (call : Op × List Nat) : Option σ.Db :=
  match (program call.1).alone violation (call.2, d) with
  | .ok (_, _, d') => some d'
  | .error _ => none

theorem of_oneAtATime {Op : Type} {violation : σ.Err} {program : Op → Tx σ α} {d d' : σ.Db}
    {call : Op × List Nat} {Q : σ.Db → Prop} (h : oneAtATime violation program d call = some d')
    (hwp : (program call.1).wp exactly (fun _ d' => Q d') d) : Q d' := by
  unfold oneAtATime at h
  split at h
  next halone =>
    obtain rfl := Option.some.inj h
    exact Tx.wp_of_alone halone hwp
  next => cases h

/-! ## From one transaction to every run -/

/-- `t` gets to `t'` when its statements are answered as in the trace. -/
inductive Leads : Tx σ α → List (Answered σ) → Tx σ α → Prop
  | nil (t : Tx σ α) : Leads t [] t
  | choose {next : Nat → Tx σ α} {trace : List (Answered σ)} {t : Tx σ α} (n : Nat) :
      Leads (next n) trace t → Leads (.choose next) trace t
  | stmt {s : σ.Stmt} {next : σ.Ans s → Tx σ α} {trace : List (Answered σ)} {t : Tx σ α}
      (a : σ.Ans s) : Leads (next a) trace t → Leads (.stmt s next) (⟨s, a⟩ :: trace) t

theorem Leads.trans {t u v : Tx σ α} {trace more : List (Answered σ)} (h : Leads t trace u)
    (h' : Leads u more v) : Leads t (trace ++ more) v := by
  induction h with
  | nil t => exact h'
  | choose n _ ih => exact .choose n (ih h')
  | stmt a _ ih => exact .stmt a (ih h')

theorem Tx.wp_of_leads {ok : σ.Check} {Q : α → σ.Db → Prop} {t t' : Tx σ α}
    {trace : List (Answered σ)} {d : σ.Db} (hleads : Leads t trace t') (h : t.wp ok Q d)
    (hok : Stands ok trace d) (hadmitted : admitted trace d = true) :
    t'.wp ok Q (replay trace d) := by
  induction hleads generalizing d with
  | nil t => exact h
  | choose n _ ih => exact ih (h n) hok hadmitted
  | stmt a _ ih =>
    simp only [admitted, Bool.and_eq_true] at hadmitted
    exact ih (h a hok.1 hadmitted.1) hok.2 hadmitted.2

namespace World

variable {Op : Type} {program : Op → Tx σ α} {ok : σ.Check} {w w' : World σ α} {m : Move Op}

/-- Every transaction in progress is one of the programs. -/
def OnCourse (program : Op → Tx σ α) (w : World σ α) : Prop :=
  ∀ f ∈ w.flights, ∃ op, Leads (program op) f.trace f.rest

/-- The same for the operations that satisfy `P`. -/
def OnCourseOf (P : Op → Prop) (program : Op → Tx σ α) (w : World σ α) : Prop :=
  ∀ f ∈ w.flights, ∃ op, P op ∧ Leads (program op) f.trace f.rest

theorem onCourseOf_true : OnCourseOf (fun _ => True) program w ↔ OnCourse program w := by
  simp only [OnCourseOf, OnCourse, true_and]

theorem leads_of_advance {f f' : Flight σ α} {d : σ.Db} {id : Nat} (h : f.advance d id = some f') :
    ∃ more, f'.trace = f.trace ++ more ∧ Leads f.rest more f'.rest := by
  unfold Flight.advance at h
  split at h
  next next hrest =>
    obtain rfl := Option.some.inj h
    rw [hrest]
    exact ⟨[], (List.append_nil _).symm, .choose id (.nil _)⟩
  next s next hrest =>
    simp only at h
    split at h
    · obtain rfl := Option.some.inj h
      rw [hrest]
      exact ⟨_, rfl, .stmt _ (.nil _)⟩
    · cases h
  · cases h

/-- A move either leaves the committed rows as they are, or commits one of the
transactions. -/
theorem step_cases (h : Step program w m w') :
    (w'.db = w.db ∧ ∀ f ∈ w'.flights, f ∈ w.flights ∨
      (∃ op, m = .start op ∧ f = ⟨program op, []⟩) ∨
      ∃ f₀ ∈ w.flights, ∃ id, f₀.advance w.db id = some f) ∨
    ∃ i f a, m = .commit i ∧ w.flights[i]? = some f ∧ f.rest = .pure a ∧
      admitted f.trace w.db = true ∧ w'.db = replay f.trace w.db ∧
        ∀ g ∈ w'.flights, g ∈ w.flights := by
  unfold Step next at h
  cases m with
  | start op =>
    obtain rfl := Option.some.inj h
    refine .inl ⟨rfl, fun f hf => ?_⟩
    rcases List.mem_append.mp hf with hold | hnew
    · exact .inl hold
    · exact .inr (.inl ⟨op, rfl, List.mem_singleton.mp hnew⟩)
  | advance i id =>
    obtain ⟨f, hf, hw⟩ := Option.bind_eq_some_iff.mp h
    split at hw
    · obtain ⟨f', hf', rfl⟩ := Option.map_eq_some_iff.mp hw
      refine .inl ⟨rfl, fun g hg => ?_⟩
      rcases List.mem_or_eq_of_mem_set hg with hold | rfl
      · exact .inl hold
      · exact .inr (.inr ⟨f, List.mem_of_getElem? hf, id, hf'⟩)
    · cases hw
  | commit i =>
    obtain ⟨f, hf, hw⟩ := Option.bind_eq_some_iff.mp h
    split at hw
    next hboth =>
      obtain ⟨hfinished, hadmitted⟩ := Bool.and_eq_true_iff.mp hboth
      obtain ⟨a, hrest⟩ := Flight.finished_iff.mp hfinished
      obtain rfl := Option.some.inj hw
      exact .inr ⟨i, f, a, rfl, hf, hrest, hadmitted, rfl,
        fun g hg => List.mem_of_mem_eraseIdx hg⟩
    · cases hw
  | abort i =>
    obtain rfl := Option.some.inj h
    exact .inl ⟨rfl, fun f hf => .inl (List.mem_of_mem_eraseIdx hf)⟩

/-- The condition on a move: only operations that satisfy `P` are started. -/
def StartsIn (P : Op → Prop) (m : Move Op) : Prop := ∀ op, m = .start op → P op

variable {P : Op → Prop}

theorem onCourseOf_of_step (hw : OnCourseOf P program w) (h : Step program w m w')
    (hstart : StartsIn P m) : OnCourseOf P program w' := by
  intro f hf
  rcases step_cases h with ⟨-, hflights⟩ | ⟨i, f₀, a, -, -, -, -, -, hflights⟩
  · rcases hflights f hf with hold | ⟨op, hm, rfl⟩ | ⟨f₀, hf₀, id, hadvance⟩
    · exact hw f hold
    · exact ⟨op, hstart op hm, .nil _⟩
    · obtain ⟨op, hop, hleads⟩ := hw f₀ hf₀
      obtain ⟨more, htrace, hmore⟩ := leads_of_advance hadvance
      rw [htrace]
      exact ⟨op, hop, hleads.trans hmore⟩
  · exact hw f (hflights f hf)

variable {I : σ.Db → Prop}

/-- What every operation gives from the rows that it commits on, a commit
gives. -/
theorem commit_of_step_of {R : σ.Db → σ.Db → Prop}
    (hrefl : ∀ d, R d d)
    (hprogram : ∀ op d, P op → I d → (program op).wp ok (fun _ d' => R d d') d)
    (hw : OnCourseOf P program w) (hI : I w.db)
    (h : Guarded (Step program) (CommitsOn ok) w m w') : R w.db w'.db := by
  rcases step_cases h.1 with ⟨hdb, -⟩ | ⟨i, f, a, hm, hf, hrest, hadmitted, hdb, -⟩
  · rw [hdb]
    exact hrefl w.db
  · obtain ⟨op, hop, hleads⟩ := hw f (List.mem_of_getElem? hf)
    have hpost := Tx.wp_of_leads hleads (hprogram op w.db hop hI) (h.2 i hm f hf) hadmitted
    rw [hrest] at hpost
    rw [hdb]
    exact hpost

theorem commit_of_step {R : σ.Db → σ.Db → Prop} (hrefl : ∀ d, R d d)
    (hprogram : ∀ op d, I d → (program op).wp ok (fun _ d' => R d d') d)
    (hw : OnCourse program w) (hI : I w.db) (h : Guarded (Step program) (CommitsOn ok) w m w') :
    R w.db w'.db :=
  commit_of_step_of hrefl (fun op d _ hd => hprogram op d hd) (onCourseOf_true.mpr hw) hI h

/-- **Every operation that is started keeps it, so every run does.** -/
theorem invariant_of_run_of
    (hprogram : ∀ op d, P op → I d → (program op).wp ok (fun _ d' => I d') d)
    {moves : List (Move Op)}
    (hrun : Run (Guarded (Step program) fun w m => CommitsOn ok w m ∧ StartsIn P m) w moves w')
    (hw : OnCourseOf P program w) (hI : I w.db) : OnCourseOf P program w' ∧ I w'.db := by
  refine Run.invariant (I := fun w => OnCourseOf P program w ∧ I w.db) ?_ hrun ⟨hw, hI⟩
  intro w m w' hinv hstep
  refine ⟨onCourseOf_of_step hinv.1 hstep.1 hstep.2.2, ?_⟩
  exact commit_of_step_of (R := fun d d' => I d → I d') (fun _ h => h)
    (fun op d hop hd => Tx.wp_mono (hprogram op d hop hd) fun _ _ h _ => h) hinv.1 hinv.2
    ⟨hstep.1, hstep.2.1⟩ hinv.2

/-- **Every operation keeps it, so every run does.** -/
theorem invariant_of_run
    (hprogram : ∀ op d, I d → (program op).wp ok (fun _ d' => I d') d) {moves : List (Move Op)}
    (hrun : Run (Guarded (Step program) (CommitsOn ok)) w moves w') (hw : OnCourse program w)
    (hI : I w.db) : OnCourse program w' ∧ I w'.db := by
  have hout := invariant_of_run_of (P := fun _ => True) (fun op d _ hd => hprogram op d hd)
    (hrun.mono fun _ _ _ h => ⟨h.1, h.2, fun _ _ => trivial⟩) (onCourseOf_true.mpr hw) hI
  exact ⟨onCourseOf_true.mp hout.1, hout.2⟩

/-! ### Runs that compute -/

/-- Some steps of one transaction, with identifiers from `first` on. -/
def advances (i first count : Nat) : List (Move Op) :=
  (List.range count).map fun k => .advance i (first + k)

/-- An operation that has the database to itself. -/
def inTurn (op : Op) (first count : Nat) : List (Move Op) :=
  [.start op] ++ advances 0 first count ++ [.commit 0]

theorem run_of_moves (program : Op → Tx σ α) (w : World σ α) (moves : List (Move Op))
    (p : World σ α → Bool) (h : (exec (World.next program) w moves).any p = true) :
    ∃ w', Run (Step program) w moves w' ∧ p w' = true :=
  run_of_exec (fun _ _ _ hone => hone) h

instance decidableStands [∀ s a d, Decidable (ok s a d)] :
    (trace : List (Answered σ)) → (d : σ.Db) → Decidable (Stands ok trace d)
  | [], _ => isTrue trivial
  | e :: rest, d =>
      have := decidableStands rest (σ.effect e.stmt d)
      inferInstanceAs (Decidable (ok e.stmt e.ans d ∧ Stands ok rest (σ.effect e.stmt d)))

/-- A commit whose answers stand, or no commit. -/
def commitsTest (ok : σ.Check) [∀ s a d, Decidable (ok s a d)] (w : World σ α) : Move Op → Bool
  | .commit i => (w.flights[i]?).all fun f => decide (Stands ok f.trace w.db)
  | _ => true

theorem commitsOn_of_test [∀ s a d, Decidable (ok s a d)] (w : World σ α) (m : Move Op)
    (h : commitsTest ok w m = true) : CommitsOn ok w m := by
  rintro i rfl f hf
  simp only [commitsTest, hf, Option.all_some, decide_eq_true_eq] at h
  exact h

theorem guardedRun_of_moves (program : Op → Tx σ α) (ok : σ.Check)
    [∀ s a d, Decidable (ok s a d)] (w : World σ α) (moves : List (Move Op))
    (p : World σ α → Bool) (h : (exec (fun w m => if commitsTest ok w m then w.next program m
      else none) w moves).any p = true) :
    ∃ w', Run (Guarded (Step program) (CommitsOn ok)) w moves w' ∧ p w' = true :=
  run_of_exec (fun _ _ _ => guarded_of_next (fun _ _ _ hone => hone) commitsOn_of_test) h

theorem guardedRun_of_moves_of (program : Op → Tx σ α) (ok : σ.Check) (P : Op → Prop)
    [∀ s a d, Decidable (ok s a d)] (startsTest : Move Op → Bool)
    (hstarts : ∀ m, startsTest m = true → StartsIn P m) (w : World σ α) (moves : List (Move Op))
    (p : World σ α → Bool) (h : (exec (fun w m =>
      if commitsTest ok w m && startsTest m then w.next program m else none)
        w moves).any p = true) :
    ∃ w', Run (Guarded (Step program) fun w m => CommitsOn ok w m ∧ StartsIn P m) w moves w' ∧
      p w' = true := by
  refine run_of_exec (fun w m w' hone => ?_) h
  split at hone
  next htest =>
    obtain ⟨hcommits, hm⟩ := Bool.and_eq_true_iff.mp htest
    exact ⟨hone, commitsOn_of_test w m hcommits, hstarts m hm⟩
  · cases hone

/-- No transaction is in progress. -/
def quiet (d : σ.Db) : World σ α := ⟨d, []⟩

theorem onCourse_quiet (d : σ.Db) : OnCourse program (quiet d) := by
  intro f hf
  cases hf

theorem onCourseOf_quiet (d : σ.Db) : OnCourseOf P program (quiet d) := by
  intro f hf
  cases hf

end World

end AramoPlatform.Lib
