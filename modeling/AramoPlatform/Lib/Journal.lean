import AramoPlatform.Lib.Rows
import Mathlib.Data.List.Infix

/-!
# Journals of state changes

An append-only list of the moves of many subjects. The moves of one subject
form a path when each of them starts where the one before ended. A path can be
cut anywhere, and two paths that meet can be joined; so what is appended to a
journal is a path by itself. A table keeps its journal when the path of each
row ends at the state of the row.
-/

namespace AramoPlatform.Lib

variable {S : Type}

/-- A move of a subject. With no source it opens the subject. -/
structure Entry (S : Type) where
  subject : Nat
  source : Option S
  target : S
  deriving DecidableEq

/-- The moves of one subject, oldest first. -/
def entriesOf (journal : List (Entry S)) (subject : Nat) : List (Entry S) :=
  journal.filter (·.subject == subject)

/-- The moves lead from `a` to `b` along legal edges. -/
def Traces (legal : Option S → S → Prop) : Option S → List (Entry S) → Option S → Prop
  | a, [], b => a = b
  | a, e :: rest, b => e.source = a ∧ legal e.source e.target ∧ Traces legal (some e.target) rest b

variable {legal : Option S → S → Prop} {a b c : Option S} {e : Entry S}
  {entries more journal : List (Entry S)} {subject : Nat}

@[simp] theorem traces_nil : Traces legal a [] b ↔ a = b := Iff.rfl

@[simp] theorem traces_cons :
    Traces legal a (e :: entries) b ↔
      e.source = a ∧ legal e.source e.target ∧ Traces legal (some e.target) entries b := Iff.rfl

theorem traces_append :
    Traces legal a (entries ++ more) c ↔ ∃ b, Traces legal a entries b ∧ Traces legal b more c := by
  induction entries generalizing a with
  | nil => simp
  | cons e rest ih =>
    simp only [List.cons_append, traces_cons, ih]
    constructor
    · rintro ⟨hsource, hlegal, b, hrest, hmore⟩
      exact ⟨b, ⟨hsource, hlegal, hrest⟩, hmore⟩
    · rintro ⟨b, ⟨hsource, hlegal, hrest⟩, hmore⟩
      exact ⟨hsource, hlegal, b, hrest, hmore⟩

theorem Traces.unique (h : Traces legal a entries b) (h' : Traces legal a entries c) : b = c := by
  induction entries generalizing a with
  | nil => exact Eq.trans (Eq.symm h) h'
  | cons e rest ih => exact ih h.2.2 h'.2.2

theorem Traces.cut (h : Traces legal a entries b) (h' : Traces legal a (entries ++ more) c) :
    Traces legal b more c := by
  obtain ⟨b', hfirst, hmore⟩ := traces_append.mp h'
  rwa [h.unique hfirst]

/-! ## The moves of a subject -/

@[simp] theorem entriesOf_nil : entriesOf ([] : List (Entry S)) subject = [] := rfl

theorem entriesOf_append :
    entriesOf (journal ++ more) subject = entriesOf journal subject ++ entriesOf more subject :=
  List.filter_append ..

@[simp] theorem entriesOf_cons_self (source : Option S) (target : S) :
    entriesOf (⟨subject, source, target⟩ :: journal) subject =
      ⟨subject, source, target⟩ :: entriesOf journal subject := by
  simp [entriesOf]

theorem entriesOf_cons_of_ne (h : e.subject ≠ subject) :
    entriesOf (e :: journal) subject = entriesOf journal subject := by
  simp [entriesOf, h]

theorem entriesOf_eq_nil (h : ∀ e ∈ journal, e.subject ≠ subject) :
    entriesOf journal subject = [] := by
  rw [entriesOf, List.filter_eq_nil_iff]
  intro e he
  simpa using h e he

theorem entriesOf_eq_self (h : ∀ e ∈ journal, e.subject = subject) :
    entriesOf journal subject = journal := by
  rw [entriesOf, List.filter_eq_self]
  intro e he
  simpa using h e he

/-! ## Rows that keep their journal -/

/-- What a table has to say of its rows. -/
structure Chronicle (R S : Type) where
  id : R → Nat
  state : R → S
  /-- Where the path of a row starts. -/
  start : R → Option S
  legal : Option S → S → Prop
  /-- The moves that are told to others. -/
  tells : Entry S → Bool

/-- The path of each row leads to its state, and what was told are the moves. -/
structure Kept {R : Type} (c : Chronicle R S) (rows : List R) (journal told : List (Entry S)) :
    Prop where
  ids : (rows.map c.id).Nodup
  subjects : ∀ e ∈ journal, e.subject ∈ rows.map c.id
  traces : ∀ r ∈ rows, Traces c.legal (c.start r) (entriesOf journal (c.id r)) (some (c.state r))
  told_eq : told = journal.filter c.tells

/-- What was appended to the journal is, for each row, the path from the state
that it was in to the one it is in. -/
def GoesOn {R : Type} (c : Chronicle R S) (rows : List R) (journal : List (Entry S))
    (rows' : List R) (journal' : List (Entry S)) : Prop :=
  ∃ more, journal' = journal ++ more ∧ ∀ r ∈ rows, ∃ r' ∈ rows', c.id r' = c.id r ∧
    Traces c.legal (some (c.state r)) (entriesOf more (c.id r)) (some (c.state r'))

namespace Kept

variable {R : Type} {c : Chronicle R S} {rows rows' : List R} {told told' : List (Entry S)}

theorem nil : Kept c [] [] [] where
  ids := List.nodup_nil
  subjects := by
    intro e he
    cases he
  traces := by
    intro r hr
    cases hr
  told_eq := rfl

section

variable (h : Kept c rows journal told)

include h

theorem move {r : R} (hr : r ∈ rows) {target : S} {f : R → R}
    (hid : ∀ x, c.id (f x) = c.id x) (hstart : ∀ x, c.start (f x) = c.start x)
    (hstate : ∀ x, c.state (f x) = target) (hlegal : c.legal (some (c.state r)) target) :
    Kept c (updateWhere (fun x => c.id x == c.id r) f rows)
      (journal ++ [⟨c.id r, some (c.state r), target⟩])
      (told ++ [⟨c.id r, some (c.state r), target⟩].filter c.tells) := by
  have hids : (updateWhere (fun x => c.id x == c.id r) f rows).map c.id = rows.map c.id :=
    map_updateWhere c.id hid
  constructor
  · exact hids ▸ h.ids
  · intro e he
    rw [hids]
    rcases (List.mem_append.mp he).imp_right List.mem_singleton.mp with hold | rfl
    · exact h.subjects e hold
    · exact List.mem_map_of_mem hr
  · intro x hx
    rcases (mem_updateWhere_key h.ids hr).mp hx with ⟨hx, hne⟩ | rfl
    · rw [entriesOf_append, entriesOf_cons_of_ne, entriesOf_nil, List.append_nil]
      · exact h.traces x hx
      · intro heq
        exact hne heq.symm
    · rw [hid, hstart, hstate, entriesOf_append, entriesOf_cons_self, entriesOf_nil]
      exact traces_append.mpr ⟨_, h.traces r hr, rfl, hlegal, rfl⟩
  · rw [List.filter_append, h.told_eq]

theorem insert {x : R} {opening : List (Entry S)}
    (hfresh : ∀ r ∈ rows, c.id r ≠ c.id x) (hsubject : ∀ e ∈ opening, e.subject = c.id x)
    (htraces : Traces c.legal (c.start x) opening (some (c.state x))) :
    Kept c (rows ++ [x]) (journal ++ opening) (told ++ opening.filter c.tells) := by
  constructor
  · exact nodup_concat h.ids hfresh
  · intro e he
    rw [List.map_append, List.map_singleton]
    rcases List.mem_append.mp he with hold | hopen
    · exact List.mem_append_left _ (h.subjects e hold)
    · exact List.mem_append_right _ (List.mem_singleton.mpr (hsubject e hopen))
  · intro r hr
    rw [entriesOf_append]
    rcases (List.mem_append.mp hr).imp_right List.mem_singleton.mp with hold | rfl
    · rw [entriesOf_eq_nil fun e he heq => hfresh r hold (heq.symm.trans (hsubject e he)),
        List.append_nil]
      exact h.traces r hold
    · rw [entriesOf_eq_self hsubject, entriesOf_eq_nil, List.nil_append]
      · exact htraces
      · intro e he heq
        obtain ⟨r, hr, hid⟩ := List.mem_map.mp (h.subjects e he)
        exact hfresh r hr (hid.trans heq)
  · rw [List.filter_append, h.told_eq]

theorem insert_silent {x : R} {opening : List (Entry S)}
    (hfresh : ∀ r ∈ rows, c.id r ≠ c.id x) (hsubject : ∀ e ∈ opening, e.subject = c.id x)
    (htraces : Traces c.legal (c.start x) opening (some (c.state x)))
    (hsilent : opening.filter c.tells = []) : Kept c (rows ++ [x]) (journal ++ opening) told := by
  have hopened := h.insert hfresh hsubject htraces
  rwa [hsilent, List.append_nil] at hopened

/-- A journal that is appended to goes on from the states that it led to. -/
theorem goesOn {journal' : List (Entry S)}
    (h' : Kept c rows' journal' told') (hjournal : journal <+: journal')
    (hrows : ∀ r ∈ rows, ∃ r' ∈ rows', c.id r' = c.id r ∧ c.start r' = c.start r) :
    GoesOn c rows journal rows' journal' := by
  obtain ⟨more, rfl⟩ := hjournal
  refine ⟨more, rfl, fun r hr => ?_⟩
  obtain ⟨r', hr', hid, hstart⟩ := hrows r hr
  have hafter := h'.traces r' hr'
  rw [hid, hstart, entriesOf_append] at hafter
  exact ⟨r', hr', hid, (h.traces r hr).cut hafter⟩

end

end Kept

end AramoPlatform.Lib
