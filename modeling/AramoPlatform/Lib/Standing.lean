import AramoPlatform.Lib.Transactions

/-!
# Answers that stand by themselves

An answer stands at the commit of its transaction for one of three reasons.
The row that it was read from is locked by the statement, so that nobody else
could write it. Or it was read before the transaction wrote anything, and what
it says is kept by every commit. Or the run is asked for it, as a condition on
its commits. A `Discipline` collects what has to be shown of the operations
for the three to work together; its invariant then holds in every run.
-/

namespace AramoPlatform.Lib

variable {σ : Store} {α Op : Type}

/-! ## Locked parts -/

/-- The part of the rows that belongs to a lock: a statement changes it on the
grounds of this part alone, and not at all without the lock. -/
structure Parts (σ : Store) where
  Part : Type
  part : σ.Key → σ.Db → Part
  part_local : ∀ s k d d', part k d = part k d' → part k (σ.effect s d) = part k (σ.effect s d')
  part_frame : ∀ s k d, k ∉ σ.locks s → part k (σ.effect s d) = part k d

/-- No part of the rows is of interest. -/
def Parts.none (σ : Store) : Parts σ where
  Part := Unit
  part _ _ := ()
  part_local _ _ _ _ _ := rfl
  part_frame _ _ _ _ := rfl

/-- The check speaks of the parts that the statement locks. -/
structure Parts.Pins (v : Parts σ) (held : σ.Check) : Prop where
  answer : ∀ s d, held s (σ.answer s d) d
  keep : ∀ s a d d', (∀ k ∈ σ.locks s, v.part k d = v.part k d') → held s a d → held s a d'

theorem Parts.pins_none : (Parts.none σ).Pins fun _ _ _ => True :=
  ⟨fun _ _ => trivial, fun _ _ _ _ _ _ => trivial⟩

/-- The locks that a list of statements takes. -/
def lockedBy (trace : List (Answered σ)) : List σ.Key := trace.flatMap fun e => σ.locks e.stmt

namespace Parts

variable (v : Parts σ)

theorem part_replay_frame {trace : List (Answered σ)} {k : σ.Key} (h : k ∉ lockedBy trace)
    (d : σ.Db) : v.part k (replay trace d) = v.part k d := by
  induction trace generalizing d with
  | nil => rfl
  | cons e rest ih =>
    rw [lockedBy, List.flatMap_cons, List.mem_append, not_or] at h
    exact (ih h.2 _).trans (v.part_frame e.stmt k d h.1)

theorem stands_of_parts {held : σ.Check} (hpins : v.Pins held) {trace : List (Answered σ)}
    {d d' : σ.Db} (h : Stands held trace d)
    (hparts : ∀ k ∈ lockedBy trace, v.part k d = v.part k d') : Stands held trace d' := by
  induction trace generalizing d d' with
  | nil => trivial
  | cons e rest ih =>
    simp only [lockedBy, List.flatMap_cons, List.mem_append] at hparts
    refine ⟨hpins.keep e.stmt e.ans d d' (fun k hk => hparts k (.inl hk)) h.1, ?_⟩
    exact ih h.2 fun k hk => v.part_local e.stmt k d d' (hparts k (.inr hk))

end Parts

variable {ok : σ.Check}

theorem stands_append {trace more : List (Answered σ)} {d : σ.Db} :
    Stands ok (trace ++ more) d ↔ Stands ok trace d ∧ Stands ok more (replay trace d) := by
  induction trace generalizing d with
  | nil => simp [Stands, replay]
  | cons e rest ih =>
    simp only [List.cons_append, Stands, ih, replay, List.foldl_cons, and_assoc]

variable {trace : List (Answered σ)}

theorem stands_and {ok ok' : σ.Check} {d : σ.Db}
    (h : Stands ok trace d) (h' : Stands ok' trace d) :
    Stands (fun s a d => ok s a d ∧ ok' s a d) trace d := by
  induction trace generalizing d with
  | nil => trivial
  | cons e rest ih => exact ⟨⟨h.1, h'.1⟩, ih h.2 h'.2⟩

/-! ## Early reads -/

/-- The answers before the first write meet `ok` on these rows. -/
def EarlyStands (quiet : σ.Stmt → Prop) (ok : σ.Check) : List (Answered σ) → σ.Db → Prop
  | [], _ => True
  | e :: rest, d => quiet e.stmt → ok e.stmt e.ans d ∧ EarlyStands quiet ok rest d

namespace Tx

variable {β : Type} {quiet load : σ.Stmt → Prop}

/-- The loads come before the first write. -/
def LoadsFirst (quiet load : σ.Stmt → Prop) : Tx σ α → Prop
  | .pure _ | .throw _ => True
  | .choose next => ∀ n, (next n).LoadsFirst quiet load
  | .stmt s next => (∀ a, quiet s → (next a).LoadsFirst quiet load) ∧
      (¬ quiet s → ¬ load s ∧ ∀ a, (next a).Only fun s => ¬ load s)

@[simp] theorem loadsFirst_pure (a : α) : (Tx.pure a : Tx σ α).LoadsFirst quiet load := trivial

@[simp] theorem loadsFirst_throw (e : σ.Err) :
    (Tx.throw e : Tx σ α).LoadsFirst quiet load := trivial

theorem loadsFirst_of_only {t : Tx σ α} (h : t.Only fun s => ¬ load s) :
    t.LoadsFirst quiet load := by
  induction t with
  | pure | throw => trivial
  | choose next ih => exact fun n => ih n (h n)
  | stmt s next ih => exact ⟨fun a _ => ih a (h.2 a), fun _ => h⟩

theorem LoadsFirst.mono {load' : σ.Stmt → Prop} {t : Tx σ α} (h : t.LoadsFirst quiet load)
    (himp : ∀ s, load' s → load s) : t.LoadsFirst quiet load' := by
  induction t with
  | pure | throw => trivial
  | choose next ih => exact fun n => ih n (h n)
  | stmt s next ih =>
    refine ⟨fun a hs => ih a (h.1 a hs), fun hnot => ⟨mt (himp s) (h.2 hnot).1, fun a => ?_⟩⟩
    exact only_mono ((h.2 hnot).2 a) fun s' => mt (himp s')

theorem LoadsFirst.only {P : σ.Stmt → Prop} {t : Tx σ α} (h : t.LoadsFirst quiet load)
    (hquiet : ∀ s, quiet s → P s) (hload : ∀ s, ¬ load s → P s) : t.Only P := by
  induction t with
  | pure | throw => trivial
  | choose next ih => exact fun n => ih n (h n)
  | stmt s next ih =>
    by_cases hs : quiet s
    · exact ⟨hquiet s hs, fun a => ih a (h.1 a hs)⟩
    · obtain ⟨hnoload, hrest⟩ := h.2 hs
      exact ⟨hload s hnoload, fun a => only_mono (hrest a) hload⟩

theorem loadsFirst_bind {t : Tx σ α} {f : α → Tx σ β} (ht : t.Only quiet)
    (hf : ∀ a, (f a).LoadsFirst quiet load) : (t.bind f).LoadsFirst quiet load := by
  induction t with
  | pure a => exact hf a
  | throw e => trivial
  | choose next ih => exact fun n => ih n (ht n)
  | stmt s next ih => exact ⟨fun a _ => ih a (ht.2 a), fun hnot => absurd ht.1 hnot⟩

theorem loadsFirst_bind_of_only {t : Tx σ α} {f : α → Tx σ β} (ht : t.LoadsFirst quiet load)
    (hf : ∀ a, (f a).Only fun s => ¬ load s) : (t.bind f).LoadsFirst quiet load := by
  induction t with
  | pure a => exact loadsFirst_of_only (hf a)
  | throw e => trivial
  | choose next ih => exact fun n => ih n (ht n)
  | stmt s next ih =>
    refine ⟨fun a hs => ih a (ht.1 a hs), fun hnot => ⟨(ht.2 hnot).1, fun a => ?_⟩⟩
    exact only_bind ((ht.2 hnot).2 a) hf

theorem stands_of_only {ok : σ.Check} {t t' : Tx σ α} {trace : List (Answered σ)}
    (hleads : Leads t trace t') (h : t.Only fun s => ¬ load s) (d : σ.Db) :
    Stands (fun s a d => load s → ok s a d) trace d := by
  induction hleads generalizing d with
  | nil t => trivial
  | choose n _ ih => exact ih (h n) d
  | stmt a _ ih => exact ⟨fun hload => absurd hload h.1, ih (h.2 a) _⟩

theorem stands_of_early {ok : σ.Check} (hquiet : ∀ s d, quiet s → σ.effect s d = d) {t t' : Tx σ α}
    {trace : List (Answered σ)} (hleads : Leads t trace t') (ht : t.LoadsFirst quiet load)
    {d : σ.Db} (h : EarlyStands quiet (fun s a d => load s → ok s a d) trace d) :
    Stands (fun s a d => load s → ok s a d) trace d := by
  induction hleads with
  | nil t => trivial
  | choose n _ ih => exact ih (ht n) h
  | @stmt s next trace t a hrest ih =>
    by_cases hs : quiet s
    · obtain ⟨hone, hmore⟩ := h hs
      refine ⟨hone, ?_⟩
      rw [hquiet s d hs]
      exact ih (ht.1 a hs) hmore
    · obtain ⟨hnoload, honly⟩ := ht.2 hs
      exact ⟨fun hload => absurd hload hnoload, stands_of_only hrest (honly a) _⟩

end Tx

theorem earlyStands_mono {quiet : σ.Stmt → Prop}
    {d d' : σ.Db} (h : EarlyStands quiet ok trace d)
    (hkeep : ∀ s a, quiet s → ok s a d → ok s a d') : EarlyStands quiet ok trace d' := by
  induction trace with
  | nil => trivial
  | cons e rest ih =>
    intro hs
    exact ⟨hkeep e.stmt e.ans hs (h hs).1, ih (h hs).2⟩

theorem earlyStands_append {quiet : σ.Stmt → Prop}
    (hquiet : ∀ s d, quiet s → σ.effect s d = d) {e : Answered σ}
    {d : σ.Db} (h : EarlyStands quiet ok trace d)
    (hlast : quiet e.stmt → replay trace d = d → ok e.stmt e.ans d) :
    EarlyStands quiet ok (trace ++ [e]) d := by
  induction trace with
  | nil => exact fun hs => ⟨hlast hs rfl, trivial⟩
  | cons x rest ih =>
    intro hs
    refine ⟨(h hs).1, ih (h hs).2 fun he hrest => hlast he ?_⟩
    rw [replay, List.foldl_cons, hquiet x.stmt d hs]
    exact hrest

/-! ## Exclusive locks -/

namespace World

variable {w w' : World σ α} {m : Move Op} {program : Op → Tx σ α}

/-- No two transactions hold a lock in common. -/
def Exclusive (w : World σ α) : Prop :=
  w.flights.Pairwise fun f g => ∀ k ∈ f.held, k ∉ g.held

theorem held_of_advance {f f' : Flight σ α} {d : σ.Db} {id : Nat} (h : f.advance d id = some f') :
    ∀ k ∈ f'.held, k ∈ f.held ∨ k ∈ f.asks := by
  unfold Flight.advance at h
  split at h
  next next hrest =>
    obtain rfl := Option.some.inj h
    exact fun k hk => .inl hk
  next s next hrest =>
    simp only at h
    split at h
    · obtain rfl := Option.some.inj h
      intro k hk
      simp only [Flight.held, List.flatMap_append, List.mem_append, List.flatMap_cons,
        List.flatMap_nil, List.append_nil] at hk
      rcases hk with hold | hnew
      · exact .inl hold
      · refine .inr ?_
        rw [Flight.asks, hrest]
        exact hnew
    · cases h
  · cases h

theorem not_held_of_granted {i : Nat} {f g : Flight σ α} (h : w.granted i f = true)
    (hg : g ∈ w.flights.eraseIdx i) : ∀ k ∈ f.asks, k ∉ g.held := by
  intro k hk hheld
  have hk' := List.all_eq_true.mp (List.all_eq_true.mp h g hg) k hk
  have hne := List.all_eq_true.mp hk' k hheld
  exact @of_decide_eq_true _ (@instDecidableNot _ (σ.decKey k k)) hne rfl

theorem flights_split {i : Nat} {f : Flight σ α} (h : w.flights[i]? = some f) :
    ∃ l r, w.flights = l ++ f :: r ∧ w.flights.eraseIdx i = l ++ r ∧
      ∀ f', w.flights.set i f' = l ++ f' :: r := by
  obtain ⟨hlt, hf⟩ := List.getElem?_eq_some_iff.mp h
  refine ⟨w.flights.take i, w.flights.drop (i + 1), ?_, List.eraseIdx_eq_take_drop_succ _ _,
    fun f' => List.set_eq_take_append_cons_drop.trans (if_pos hlt)⟩
  rw [← hf, ← List.drop_eq_getElem_cons hlt, List.take_append_drop]

theorem exclusive_of_step (hw : Exclusive w) (h : Step program w m w') : Exclusive w' := by
  unfold Step next at h
  cases m with
  | start op =>
    obtain rfl := Option.some.inj h
    refine List.pairwise_append.mpr ⟨hw, List.pairwise_singleton _ _, ?_⟩
    intro f _ g hg k _
    obtain rfl := List.mem_singleton.mp hg
    exact List.not_mem_nil
  | advance i id =>
    obtain ⟨f, hf, hw'⟩ := Option.bind_eq_some_iff.mp h
    split at hw'
    next hgranted =>
      obtain ⟨f', hf', rfl⟩ := Option.map_eq_some_iff.mp hw'
      obtain ⟨l, r, hsplit, herase, hset⟩ := flights_split hf
      have hnew : ∀ g ∈ l ++ r, ∀ k ∈ f.asks, k ∉ g.held := by
        intro g hg
        exact not_held_of_granted hgranted (herase ▸ hg)
      rw [Exclusive, hsplit] at hw
      rw [Exclusive]
      simp only [hset]
      rw [List.pairwise_append, List.pairwise_cons] at hw ⊢
      obtain ⟨hl, ⟨hr, hrr⟩, hlr⟩ := hw
      refine ⟨hl, ⟨fun g hg k hk => ?_, hrr⟩, fun g hg x hx k hk => ?_⟩
      · rcases held_of_advance hf' k hk with hold | hasked
        · exact hr g hg k hold
        · exact hnew g (List.mem_append_right l hg) k hasked
      · rcases List.mem_cons.mp hx with rfl | hx
        · intro hkeep
          rcases held_of_advance hf' k hkeep with hold | hasked
          · exact hlr g hg f List.mem_cons_self k hk hold
          · exact hnew g (List.mem_append_left r hg) k hasked hk
        · exact hlr g hg x (List.mem_cons_of_mem f hx) k hk
    · cases hw'
  | commit i =>
    obtain ⟨f, hf, hw'⟩ := Option.bind_eq_some_iff.mp h
    split at hw'
    · obtain rfl := Option.some.inj hw'
      exact hw.sublist (List.eraseIdx_sublist _ _)
    · cases hw'
  | abort i =>
    obtain rfl := Option.some.inj h
    exact hw.sublist (List.eraseIdx_sublist _ _)

theorem disjoint_of_exclusive (hw : Exclusive w) {i : Nat} {f : Flight σ α}
    (hf : w.flights[i]? = some f) : ∀ g ∈ w.flights.eraseIdx i, ∀ k ∈ g.held, k ∉ f.held := by
  obtain ⟨l, r, hsplit, herase, -⟩ := flights_split hf
  rw [Exclusive, hsplit, List.pairwise_append, List.pairwise_cons] at hw
  obtain ⟨-, ⟨hr, -⟩, hlr⟩ := hw
  intro g hg k hk hheld
  rw [herase] at hg
  rcases List.mem_append.mp hg with hl | hr'
  · exact hlr g hl f List.mem_cons_self k hk hheld
  · exact hr g hr' k hheld hk

theorem trace_of_advance {f f' : Flight σ α} {d : σ.Db} {id : Nat} (h : f.advance d id = some f') :
    f'.trace = f.trace ∨ ∃ s, f'.trace = f.trace ++ [⟨s, σ.answer s (replay f.trace d)⟩] := by
  unfold Flight.advance at h
  split at h
  · obtain rfl := Option.some.inj h
    exact .inl rfl
  next s next hrest =>
    simp only at h
    split at h
    · obtain rfl := Option.some.inj h
      exact .inr ⟨s, rfl⟩
    · cases h
  · cases h

end World

theorem stands_of_advance (hanswer : ∀ s d, ok s (σ.answer s d) d) {f f' : Flight σ α}
    {d : σ.Db} {id : Nat} (h : f.advance d id = some f') (hf : Stands ok f.trace d) :
    Stands ok f'.trace d := by
  rcases World.trace_of_advance h with hsame | ⟨s, hmore⟩
  · exact hsame ▸ hf
  · rw [hmore, stands_append]
    exact ⟨hf, hanswer s _, trivial⟩

/-- The condition on a move: a transaction goes on while its answers stand. -/
def AdvancesOn (ok : σ.Check) {Op : Type} (w : World σ α) (m : Move Op) : Prop :=
  ∀ i id, m = .advance i id → ∀ f, w.flights[i]? = some f → Stands ok f.trace w.db

/-- An advance of a transaction whose answers stand, or no advance. -/
def advancesTest {Op : Type} (ok : σ.Check) [∀ s a d, Decidable (ok s a d)] (w : World σ α) :
    Move Op → Bool
  | .advance i _ => (w.flights[i]?).all fun f => decide (Stands ok f.trace w.db)
  | _ => true

theorem advancesOn_of_test [∀ s a d, Decidable (ok s a d)] (w : World σ α)
    (m : Move Op) (h : advancesTest ok w m = true) : AdvancesOn ok w m := by
  rintro i id rfl f hf
  simp only [advancesTest, hf, Option.all_some, decide_eq_true_eq] at h
  exact h

theorem admitted_of_only {P : σ.Stmt → Prop} (hP : ∀ s, P s → ∀ d, σ.allowed s d = true)
    {t t' : Tx σ α} (h : Leads t trace t') (ht : t.Only P) (d : σ.Db) :
    admitted trace d = true := by
  induction h generalizing d with
  | nil t => rfl
  | choose n _ ih => exact ih (ht n) d
  | stmt a _ ih => exact Bool.and_eq_true_iff.mpr ⟨hP _ ht.1 d, ih (ht.2 a) _⟩

/-! ## Disciplines -/

/-- What is shown of the operations, one at a time. -/
structure Discipline (program : Op → Tx σ α) where
  /-- The operations that are started. -/
  Allowed : Op → Prop
  Inv : σ.Db → Prop
  /-- What a commit with a result does to the rows. -/
  Evolves : α → σ.Db → σ.Db → Prop
  /-- What a run is asked for. -/
  cond : σ.Check
  parts : Parts σ
  held : σ.Check
  pins : parts.Pins held
  quiet : σ.Stmt → Prop
  effect_quiet : ∀ s d, quiet s → σ.effect s d = d
  load : σ.Stmt → Prop
  early : σ.Check
  loadsFirst : ∀ op, Allowed op → (program op).LoadsFirst quiet load
  early_answer : ∀ s d, Inv d → load s → early s (σ.answer s d) d
  early_keep : ∀ s a out d d', load s → Inv d → Evolves out d d' → early s a d → early s a d'
  keeps : ∀ op d, Allowed op → Inv d →
    (program op).wp (fun s a d => cond s a d ∧ held s a d ∧ (load s → early s a d))
      (fun out d' => Inv d' ∧ Evolves out d d') d

namespace Discipline

variable {program : Op → Tx σ α} (D : Discipline program) {w w' : World σ α} {m : Move Op}

/-- The steps of a run that meets the condition. -/
abbrev Step : World σ α → Move Op → World σ α → Prop :=
  Guarded (World.Step program) fun w m => CommitsOn D.cond w m ∧ World.StartsIn D.Allowed m

/-- The rows keep the invariant, and every answer that should stand does. -/
structure Sound (w : World σ α) : Prop where
  onCourse : World.OnCourseOf D.Allowed program w
  exclusive : World.Exclusive w
  held : ∀ f ∈ w.flights, Stands D.held f.trace w.db
  early : ∀ f ∈ w.flights, EarlyStands D.quiet (fun s a d => D.load s → D.early s a d) f.trace w.db
  inv : D.Inv w.db

theorem sound_quiet {d : σ.Db} (h : D.Inv d) : D.Sound (World.quiet d) where
  onCourse := World.onCourseOf_quiet d
  exclusive := List.Pairwise.nil
  held f hf := by cases hf
  early f hf := by cases hf
  inv := h

variable {D}

theorem Sound.post (hw : D.Sound w) {i : Nat} {f : Flight σ α} {out : α} {op : Op}
    {Q : α → σ.Db → Prop} (hf : w.flights[i]? = some f) (hrest : f.rest = .pure out)
    (hadmitted : admitted f.trace w.db = true) (hcond : Stands D.cond f.trace w.db)
    (hop : D.Allowed op) (hleads : Leads (program op) f.trace f.rest)
    (hwp : (program op).wp (fun s a d => D.cond s a d ∧ D.held s a d ∧ (D.load s → D.early s a d)) Q
      w.db) : Q out (replay f.trace w.db) := by
  have hmem := List.mem_of_getElem? hf
  have hearly := Tx.stands_of_early D.effect_quiet hleads (D.loadsFirst op hop) (hw.early f hmem)
  have hall := stands_and hcond (stands_and (hw.held f hmem) hearly)
  have hpost := Tx.wp_of_leads hleads hwp hall hadmitted
  rw [hrest] at hpost
  exact hpost

theorem Sound.commit (hw : D.Sound w) {i : Nat} {f : Flight σ α} {out : α}
    (hf : w.flights[i]? = some f) (hrest : f.rest = .pure out)
    (hadmitted : admitted f.trace w.db = true) (hcond : Stands D.cond f.trace w.db) :
    D.Inv (replay f.trace w.db) ∧ D.Evolves out w.db (replay f.trace w.db) := by
  obtain ⟨op, hop, hleads⟩ := hw.onCourse f (List.mem_of_getElem? hf)
  exact hw.post hf hrest hadmitted hcond hop hleads (D.keeps op w.db hop hw.inv)

/-- A commit among the moves: what it writes, and the transactions that are
left. -/
theorem commit_cases {i : Nat} (h : World.Step program w (.commit i) w') :
    ∃ f out, w.flights[i]? = some f ∧ f.rest = .pure out ∧ admitted f.trace w.db = true ∧
      w' = ⟨replay f.trace w.db, w.flights.eraseIdx i⟩ := by
  obtain ⟨f, hf, hw'⟩ := Option.bind_eq_some_iff.mp h
  split at hw'
  next hboth =>
    obtain ⟨hfinished, hadmitted⟩ := Bool.and_eq_true_iff.mp hboth
    obtain ⟨out, hrest⟩ := Flight.finished_iff.mp hfinished
    exact ⟨f, out, hf, hrest, hadmitted, (Option.some.inj hw').symm⟩
  · cases hw'

theorem Sound.commit_op (hw : D.Sound w) {i : Nat} {f : Flight σ α} {op : Op} {P : σ.Db → Prop}
    (h : D.Step w (.commit i) w') (hf : w.flights[i]? = some f) (hop : D.Allowed op)
    (hleads : Leads (program op) f.trace f.rest)
    (hwp : (program op).wp (fun s a d => D.cond s a d ∧ D.held s a d ∧ (D.load s → D.early s a d))
      (fun _ => P) w.db) : P w'.db := by
  obtain ⟨f', out, hf', hrest, hadmitted, rfl⟩ := commit_cases h.1
  obtain rfl := Option.some.inj (hf.symm.trans hf')
  exact hw.post hf hrest hadmitted (h.2.1 i rfl f hf) hop hleads hwp

theorem step_of_forall (hcond : ∀ s a d, D.cond s a d) (hop : ∀ op, D.Allowed op)
    (h : World.Step program w m w') : D.Step w m w' :=
  ⟨h, fun _ _ f _ => stands_of_forall hcond f.trace w.db, fun op _ => hop op⟩

section

variable (hw : D.Sound w)

include hw

theorem Sound.of_commit {i : Nat} (h : D.Step w (.commit i) w') : D.Sound w' := by
  have hcourse := World.onCourseOf_of_step hw.onCourse h.1 h.2.2
  have hexclusive := World.exclusive_of_step hw.exclusive h.1
  obtain ⟨f, out, hf, hrest, hadmitted, rfl⟩ := commit_cases h.1
  obtain ⟨hinv, hevolves⟩ := hw.commit hf hrest hadmitted (h.2.1 i rfl f hf)
  refine ⟨hcourse, hexclusive, fun g hg => ?_, fun g hg => ?_, hinv⟩
  · -- the parts that `g` has locked were not written
    refine D.parts.stands_of_parts D.pins (hw.held g (List.mem_of_mem_eraseIdx hg)) ?_
    intro k hk
    exact (D.parts.part_replay_frame
      (World.disjoint_of_exclusive hw.exclusive hf g hg k hk) w.db).symm
  · refine earlyStands_mono (hw.early g (List.mem_of_mem_eraseIdx hg)) ?_
    intro s a _ hkept hload
    exact D.early_keep s a out w.db _ hload hw.inv hevolves (hkept hload)

theorem Sound.of_quiet_step (h : D.Step w m w') (hdb : w'.db = w.db)
    (hflights : ∀ f ∈ w'.flights, f ∈ w.flights ∨ (∃ op, m = .start op ∧ f = ⟨program op, []⟩) ∨
      ∃ f₀ ∈ w.flights, ∃ id, f₀.advance w.db id = some f) : D.Sound w' := by
  refine ⟨World.onCourseOf_of_step hw.onCourse h.1 h.2.2, World.exclusive_of_step hw.exclusive h.1,
    fun f hf => ?_, fun f hf => ?_, hdb ▸ hw.inv⟩
  · rw [hdb]
    rcases hflights f hf with hold | ⟨op, -, rfl⟩ | ⟨f₀, hf₀, id, hadvance⟩
    · exact hw.held f hold
    · trivial
    · exact stands_of_advance D.pins.answer hadvance (hw.held f₀ hf₀)
  · rw [hdb]
    rcases hflights f hf with hold | ⟨op, -, rfl⟩ | ⟨f₀, hf₀, id, hadvance⟩
    · exact hw.early f hold
    · trivial
    · rcases World.trace_of_advance hadvance with hsame | ⟨s, hmore⟩
      · exact hsame ▸ hw.early f₀ hf₀
      · rw [hmore]
        refine earlyStands_append D.effect_quiet (hw.early f₀ hf₀) ?_
        intro _ hreplay hload
        rw [hreplay]
        exact D.early_answer s w.db hw.inv hload

/-- **The step rule.** -/
theorem Sound.step (h : D.Step w m w') : D.Sound w' := by
  rcases World.step_cases h.1 with ⟨hdb, hflights⟩ | ⟨i, -, -, rfl, -⟩
  · exact hw.of_quiet_step h hdb hflights
  · exact hw.of_commit h

/-- **The run rule.** -/
theorem Sound.run {moves : List (Move Op)} (hrun : Run D.Step w moves w') :
    D.Sound w' := by
  refine Run.invariant (I := D.Sound) ?_ hrun hw
  intro w m w' hs hstep
  exact hs.step hstep

theorem Sound.evolves (h : D.Step w m w') :
    w'.db = w.db ∨ ∃ out, D.Evolves out w.db w'.db := by
  rcases World.step_cases h.1 with ⟨hdb, -⟩ | ⟨i, f, out, hm, hf, hrest, hadmitted, hdb, -⟩
  · exact .inl hdb
  · refine .inr ⟨out, ?_⟩
    rw [hdb]
    exact (hw.commit hf hrest hadmitted (h.2.1 i hm f hf)).2

end

end Discipline

end AramoPlatform.Lib
