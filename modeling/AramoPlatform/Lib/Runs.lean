/-!
# Runs of a transition system

The common shape of every result about "any order of steps": a labelled
step relation, the runs it generates, and the two induction rules that
carry a property from one step to a whole run. A condition on the steps
of a run is a stronger step relation (`Guarded`), so the same rules serve
both.
-/

namespace AramoPlatform.Lib

variable {S A : Type}

/-- The runs of `step`: the labels taken, from the first state to the last. -/
inductive Run (step : S → A → S → Prop) : S → List A → S → Prop
  | nil (s : S) : Run step s [] s
  | cons {s t u : S} {a : A} {as : List A} :
      step s a t → Run step t as u → Run step s (a :: as) u

/-- The steps that also meet a condition on the state before and the label. -/
def Guarded (step : S → A → S → Prop) (ok : S → A → Prop) (s : S) (a : A) (t : S) : Prop :=
  step s a t ∧ ok s a

namespace Run

variable {step step' : S → A → S → Prop}

theorem append {s t u : S} {as bs : List A} (h : Run step s as t) (h' : Run step t bs u) :
    Run step s (as ++ bs) u := by
  induction h with
  | nil _ => exact h'
  | cons hstep _ ih => exact .cons hstep (ih h')

variable {as : List A}

theorem snoc {s t u : S} {a : A} (h : Run step s as t) (h' : step t a u) :
    Run step s (as ++ [a]) u :=
  h.append (.cons h' (.nil u))

theorem mono (himp : ∀ s a t, step s a t → step' s a t) {s t : S}
    (h : Run step s as t) : Run step' s as t := by
  induction h with
  | nil s => exact .nil s
  | cons hstep _ ih => exact .cons (himp _ _ _ hstep) ih

/-- **The invariant rule**: what every step preserves, every run preserves. -/
theorem invariant {I : S → Prop} (hstep : ∀ s a t, I s → step s a t → I t)
    {s t : S} (h : Run step s as t) (hs : I s) : I t := by
  induction h with
  | nil _ => exact hs
  | cons hst _ ih => exact ih (hstep _ _ _ hs hst)

/-- **The relational rule**: a reflexive and transitive relation that every
step from an invariant state respects holds between the ends of a run. -/
theorem related {I : S → Prop} {R : S → S → Prop}
    (hrefl : ∀ s, R s s) (htrans : ∀ s t u, R s t → R t u → R s u)
    (hinv : ∀ s a t, I s → step s a t → I t)
    (hrel : ∀ s a t, I s → step s a t → R s t)
    {s t : S} (h : Run step s as t) (hs : I s) : R s t := by
  induction h with
  | nil s => exact hrefl s
  | cons hst _ ih =>
    exact htrans _ _ _ (hrel _ _ _ hs hst) (ih (hinv _ _ _ hs hst))

/-- **The history rule**: a property of a run and its last state, shown for the
empty run and kept by one more step at the end, holds of every run. -/
theorem history {s : S} {P : List A → S → Prop} (hnil : P [] s)
    (hsnoc : ∀ as a t u, Run step s as t → P as t → step t a u → P (as ++ [a]) u)
    {t : S} (h : Run step s as t) : P as t := by
  -- the induction is on the part of the run still to come
  have hpart : ∀ {before : List A} {m : S}, Run step s before m → P before m →
      ∀ {rest : List A} {u : S}, Run step m rest u → P (before ++ rest) u := by
    intro before m hbefore hp rest u hrest
    induction hrest generalizing before with
    | nil _ => rwa [List.append_nil]
    | cons hstep _ ih =>
      have := ih (hbefore.snoc hstep) (hsnoc _ _ _ _ hbefore hp hstep)
      rwa [List.append_assoc] at this
  exact hpart (.nil s) hnil h

theorem forall_label {I : S → Prop} {Q : A → Prop}
    (hinv : ∀ s a t, I s → step s a t → I t) (hq : ∀ s a t, I s → step s a t → Q a)
    {s t : S} (h : Run step s as t) (hs : I s) : ∀ a ∈ as, Q a := by
  induction h with
  | nil _ => intro a ha; simp at ha
  | cons hst _ ih =>
    intro a ha
    rcases List.mem_cons.mp ha with rfl | ha
    · exact hq _ _ _ hs hst
    · exact ih (hinv _ _ _ hs hst) a ha

end Run

/-! ## Runs that compute -/

/-- The state after a list of labels, when every step is taken. -/
def exec (next : S → A → Option S) : S → List A → Option S
  | s, [] => some s
  | s, a :: as => (next s a).bind (exec next · as)

theorem guarded_of_next {step : S → A → S → Prop} {next : S → A → Option S} {ok : S → A → Prop}
    {test : S → A → Bool} (hnext : ∀ s a t, next s a = some t → step s a t)
    (hok : ∀ s a, test s a = true → ok s a) {s : S} {a : A} {t : S}
    (h : (if test s a then next s a else none) = some t) : Guarded step ok s a t := by
  split at h
  · exact ⟨hnext s a t h, hok s a ‹_›⟩
  · cases h

theorem run_of_exec {step : S → A → S → Prop} {next : S → A → Option S}
    (hnext : ∀ s a t, next s a = some t → step s a t) {s : S} {as : List A} {p : S → Bool}
    (h : (exec next s as).any p = true) : ∃ t, Run step s as t ∧ p t = true := by
  induction as generalizing s with
  | nil => exact ⟨s, .nil s, h⟩
  | cons a as ih =>
    cases hone : next s a with
    | none => simp [exec, hone] at h
    | some u =>
      obtain ⟨t, hrun, hp⟩ := ih (s := u) (by simpa [exec, hone] using h)
      exact ⟨t, .cons (hnext s a u hone) hrun, hp⟩

/-- A run whose steps all pass a test is one under the condition tested. -/
theorem guardedRun_of_exec {step : S → A → S → Prop} (next : S → A → Option S)
    (hnext : ∀ s a t, next s a = some t → step s a t) (ok : S → A → Prop) (test : S → A → Bool)
    (hok : ∀ s a, test s a = true → ok s a) (s : S) (as : List A) (p : S → Bool)
    (h : (exec (fun s a => if test s a then next s a else none) s as).any p = true) :
    ∃ t, Run (Guarded step ok) s as t ∧ p t = true :=
  run_of_exec (fun _ _ _ => guarded_of_next hnext hok) h

end AramoPlatform.Lib
