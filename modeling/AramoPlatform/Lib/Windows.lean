/-!
# Half-open windows

A window holds the times from its start up to its end, without the end. A
window with no end is open. Windows that follow one another without a gap hold
each time between their ends once.
-/

namespace AramoPlatform.Lib

structure Window where
  start : Nat
  stop : Option Nat
  deriving DecidableEq

namespace Window

def covers (w : Window) (t : Nat) : Bool := decide (w.start ≤ t) &&
    w.stop.all fun e => decide (t < e)

/-- The end, if any, comes after the start. -/
def proper (w : Window) : Bool := w.stop.all fun e => decide (w.start < e)

/-- For proper windows: they share a time. -/
def overlaps (v w : Window) : Bool :=
  (w.stop.all fun e => decide (v.start < e)) && v.stop.all fun e => decide (w.start < e)

theorem covers_iff {w : Window} {t : Nat} :
    w.covers t = true ↔ w.start ≤ t ∧ ∀ e, w.stop = some e → t < e := by
  simp [covers, Option.all_eq_true]

end Window

/-! ## Tilings -/

/-- One window after another, from `start` up to `stop`. -/
inductive Tiles : Nat → Option Nat → List Window → Prop where
  | nil (t : Nat) : Tiles t (some t) []
  | last (start : Nat) : Tiles start none [⟨start, none⟩]
  | cons {start e : Nat} {stop : Option Nat} {rest : List Window} :
      start < e → Tiles e stop rest → Tiles start stop (⟨start, some e⟩ :: rest)

namespace Tiles

variable {start : Nat} {stop : Option Nat} {ws : List Window}

theorem start_le (h : Tiles start stop ws) : ∀ e, stop = some e → start ≤ e := by
  induction h with
  | nil t => exact fun e he => Nat.le_of_eq (Option.some.inj he)
  | last start => exact fun e he => by cases he
  | cons hlt _ ih => exact fun e he => Nat.le_trans (Nat.le_of_lt hlt) (ih e he)

/-- **Exactly one** of the windows holds a time between the ends. -/
theorem countP_covers (h : Tiles start stop ws) (t : Nat) :
    ws.countP (·.covers t) = if (⟨start, stop⟩ : Window).covers t then 1 else 0 := by
  induction h with
  | nil s =>
    have hnone : (⟨s, some s⟩ : Window).covers t = false := by
      simp only [Window.covers, Option.all_some, Bool.and_eq_false_iff, decide_eq_false_iff_not]
      omega
    rw [hnone]
    rfl
  | last s => simp [List.countP_cons]
  | @cons s e stop rest hlt hrest ih =>
    have hle := hrest.start_le
    rw [List.countP_cons, ih]
    by_cases hs : s ≤ t
    · by_cases he : t < e
      · have hbefore : (⟨e, stop⟩ : Window).covers t = false := by
          have hlate : ¬ e ≤ t := by omega
          simp [Window.covers, hlate]
        have hall : (⟨s, stop⟩ : Window).covers t = true := by
          refine Window.covers_iff.mpr ⟨hs, fun e' he' => ?_⟩
          have := hle e' he'
          omega
        have hfirst : (⟨s, some e⟩ : Window).covers t = true := by simp [Window.covers, hs, he]
        rw [hbefore, hall, hfirst]
        rfl
      · have hfirst : (⟨s, some e⟩ : Window).covers t = false := by simp [Window.covers, he]
        have hsame : (⟨e, stop⟩ : Window).covers t = (⟨s, stop⟩ : Window).covers t := by
          simp [Window.covers, hs, Nat.le_of_not_lt he]
        rw [hfirst, hsame]
        rfl
    · have hlate : ¬ e ≤ t := by omega
      simp [Window.covers, hs, hlate]

theorem stop_of_mem {m : Nat} (h : Tiles start (some m) ws) : ∀ w ∈ ws, ∃ e, w.stop = some e := by
  generalize hstop : some m = stop at h
  induction h with
  | nil t => exact fun w hw => by cases hw
  | last s => cases hstop
  | cons _ _ ih =>
    intro w hw
    rcases List.mem_cons.mp hw with rfl | hw
    · exact ⟨_, rfl⟩
    · exact ih hstop w hw

theorem append {m : Nat} {more : List Window} (h : Tiles start (some m) ws)
    (hmore : Tiles m stop more) : Tiles start stop (ws ++ more) := by
  generalize hmid : some m = mid at h
  induction h with
  | nil t =>
    obtain rfl := Option.some.inj hmid
    exact hmore
  | last s => cases hmid
  | cons hlt _ ih => exact .cons hlt (ih hmid)

theorem exists_last (h : Tiles start none ws) :
    ∃ init p, ws = init ++ [⟨p, none⟩] ∧ Tiles start (some p) init := by
  generalize hstop : none = stop at h
  induction h with
  | nil t => cases hstop
  | last s => exact ⟨[], s, rfl, .nil s⟩
  | cons hlt _ ih =>
    obtain ⟨init, p, rfl, hinit⟩ := ih hstop
    exact ⟨_ :: init, p, rfl, .cons hlt hinit⟩

theorem of_last {init : List Window} {p : Nat} (h : Tiles start none (init ++ [⟨p, none⟩])) :
    Tiles start (some p) init := by
  obtain ⟨init', p', heq, hinit⟩ := h.exists_last
  obtain ⟨rfl, hlast⟩ := List.append_inj' heq rfl
  obtain ⟨⟩ := hlast
  exact hinit

theorem extend {init : List Window} {p x : Nat} (h : Tiles start none (init ++ [⟨p, none⟩]))
    (hlt : p < x) : Tiles start none (init ++ [⟨p, some x⟩, ⟨x, none⟩]) :=
  h.of_last.append (.cons hlt (.last x))

end Tiles
end AramoPlatform.Lib
