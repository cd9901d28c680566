/-!
# Fallible operations

A service call that may refuse is an `Except ε` computation: a row of
guards, each of which may throw, and then the writes of the transaction.
A refused call rolls back, so only the `.ok` outcomes change anything.
The two inversions below take such a computation apart without unfolding
the monad.
-/

namespace AramoPlatform.Lib

variable {ε α β : Type}

/-- The source's `if (!cond) throw err`. -/
def require (cond : Bool) (err : ε) : Except ε Unit :=
  if cond then .ok () else .error err

/-- The source's `if (x === null) throw err`, keeping `x` otherwise. -/
def orThrow (x : Option α) (err : ε) : Except ε α :=
  match x with
  | some a => .ok a
  | none => .error err

variable {cond : Bool}

@[simp] theorem require_eq_ok {err : ε} {u : Unit} :
    require cond err = .ok u ↔ cond = true := by
  unfold require
  cases cond <;> simp

@[simp] theorem orThrow_eq_ok {x : Option α} {err : ε} {a : α} :
    orThrow x err = .ok a ↔ x = some a := by
  unfold orThrow
  cases x <;> simp

variable {x : Except ε α}

/-- A sequence of two calls succeeds exactly when the first does and the
second does on its result. -/
@[simp] theorem bind_eq_ok {f : α → Except ε β} {b : β} :
    (x >>= f) = .ok b ↔ ∃ a, x = .ok a ∧ f a = .ok b := by
  cases x with
  | error | ok => simp [Bind.bind, Except.bind]

theorem exists_ok_of_isSome (h : x.toOption.isSome = true) : ∃ a, x = .ok a := by
  cases x with
  | error e => cases h
  | ok a => exact ⟨a, rfl⟩

theorem ok_bind (a : α) (f : α → Except ε β) : (Except.ok a >>= f) = f a := rfl

theorem require_of_true (h : cond = true) (err : ε) : require cond err = .ok () := by
  rw [h]
  rfl

theorem require_of_false (h : cond = false) (err : ε) :
    require cond err = .error err := by
  rw [h]
  rfl

theorem orThrow_some (a : α) (err : ε) : orThrow (some a) err = .ok a := rfl

theorem require_eq_error {err e : ε} :
    require cond err = .error e ↔ cond = false ∧ err = e := by
  unfold require
  cases cond <;> simp

theorem orThrow_eq_error {x : Option α} {err e : ε} :
    orThrow x err = .error e ↔ x = none ∧ err = e := by
  unfold orThrow
  cases x <;> simp

/-- A sequence of two calls fails where the first does or the second does on its
result. -/
theorem bind_eq_error {f : α → Except ε β} {e : ε} :
    (x >>= f) = .error e ↔ x = .error e ∨ ∃ a, x = .ok a ∧ f a = .error e := by
  cases x with
  | error | ok => simp [Bind.bind, Except.bind]

@[simp] theorem pure_eq_ok {a b : α} :
    (pure a : Except ε α) = .ok b ↔ a = b := by
  simp [pure, Except.pure]

@[simp] theorem map_eq_ok {f : α → β} {b : β} :
    x.map f = .ok b ↔ ∃ a, x = .ok a ∧ f a = b := by
  cases x with
  | error | ok => simp [Except.map]

theorem map_eq_error {f : α → β} {e : ε} : x.map f = .error e ↔ x = .error e := by
  cases x <;> simp [Except.map]

theorem forM_eq_ok {l : List α} {f : α → Except ε Unit} {u : Unit} :
    l.forM f = .ok u ↔ ∀ a ∈ l, f a = .ok () := by
  induction l with
  | nil =>
    show (pure () : Except ε Unit) = .ok u ↔ _
    simp
  | cons a rest ih =>
    show (f a >>= fun _ => rest.forM f) = .ok u ↔ _
    simp only [bind_eq_ok, ih, List.forall_mem_cons]
    constructor
    · rintro ⟨_, ha, hrest⟩
      exact ⟨ha, hrest⟩
    · rintro ⟨ha, hrest⟩
      exact ⟨(), ha, hrest⟩

@[simp] theorem throw_eq_ok {e : ε} {a : α} :
    (throw e : Except ε α) = .ok a ↔ False := by
  simp [throw, throwThe, MonadExceptOf.throw]

end AramoPlatform.Lib
