import AramoPlatform.Js.Text
import AramoPlatform.Lib.DotSegments

/-!
# Web addresses

The standard parsing of an absolute `http` or `https` address, as far as its
scheme, its authority and its path: controls at the ends and tabs are dropped, a
backslash reads as a slash, dot segments are resolved in all their spellings,
and what may not stand in a path is percent-encoded. Scheme and authority
determine the origin.
-/

namespace AramoPlatform.Js

open Lib List

structure Url where
  scheme : JsString
  authority : JsString
  path : List JsString
  deriving DecidableEq

namespace Url

/-! ## Segments -/

def slash : UInt16 := 0x2F

/-- A slash, or a backslash, which reads as one. -/
def isSlash (u : UInt16) : Bool := u == slash || u == 0x5C

/-- `?` or `#`, behind which there is no path. -/
def endsPath (u : UInt16) : Bool := u == 0x3F || u == 0x23

def asciiLower (s : JsString) : JsString := s.map fun u =>
    if 0x41 ≤ u && u ≤ 0x5A then u + 0x20 else u

def isDoubleDot (s : JsString) : Bool :=
  [js "..", js ".%2e", js "%2e.", js "%2e%2e"].contains (asciiLower s)

def isSingleDot (s : JsString) : Bool := [js ".", js "%2e"].contains (asciiLower s)

/-- The parts of a text between its slashes. -/
def splitSlashes : JsString → List JsString
  | [] => [[]]
  | u :: rest =>
      if isSlash u then [] :: splitSlashes rest
      else match splitSlashes rest with
        | [] => [[u]]
        | s :: ss => (u :: s) :: ss

theorem slash_notMem_split {s part : JsString} (h : part ∈ splitSlashes s) : slash ∉ part := by
  induction s generalizing part with
  | nil =>
    rw [mem_singleton.mp h]
    exact not_mem_nil
  | cons u rest ih =>
    unfold splitSlashes at h
    split at h
    next =>
      rcases mem_cons.mp h with rfl | h
      · exact not_mem_nil
      · exact ih h
    next hu =>
      have hne : slash ≠ u := by
        rintro rfl
        exact hu rfl
      split at h
      next =>
        rw [mem_singleton.mp h]
        simpa using hne
      next part' parts hparts =>
        rcases mem_cons.mp h with rfl | h
        · intro hmem
          rcases mem_cons.mp hmem with heq | hmem
          · exact hne heq
          · exact ih (hparts ▸ mem_cons_self) hmem
        · exact ih (hparts ▸ mem_cons_of_mem _ h)

/-! ## Percent-encoding -/

def hexUpper (d : Nat) : UInt16 := if d < 10 then (48 + d).toUInt16 else (55 + d).toUInt16

def percentByte (b : Nat) : JsString := [0x25, hexUpper (b / 16 % 16), hexUpper (b % 16)]

/-- The code points that a path is written with as they are. -/
def inPath (u : UInt16) : Bool :=
  0x21 ≤ u && u ≤ 0x7E && !(js "\"#<>?^`\x7b\x7d").contains u

def encodePoint (c : CodePoint) : JsString :=
  match c with
  | .unit u => if inPath u then [u] else c.utf8.flatMap percentByte
  | .pair _ _ => c.utf8.flatMap percentByte

def encodeSegment (s : JsString) : JsString := (codePoints s).flatMap encodePoint

theorem slash_notMem_percentByte (b : Nat) : slash ∉ percentByte b := by
  have hdigit : ∀ d < 16, slash ≠ hexUpper d := by decide
  intro h
  simp only [percentByte, mem_cons, not_mem_nil, or_false] at h
  rcases h with h | h | h
  · exact absurd h (by decide)
  · exact hdigit _ (Nat.mod_lt _ (by decide)) h
  · exact hdigit _ (Nat.mod_lt _ (by decide)) h

theorem slash_notMem_encode {s : JsString} (h : slash ∉ s) : slash ∉ encodeSegment s := by
  have hbytes : ∀ bs : List Nat, slash ∉ bs.flatMap percentByte := by
    intro bs hmem
    obtain ⟨b, -, hb⟩ := mem_flatMap.mp hmem
    exact slash_notMem_percentByte b hb
  unfold encodeSegment
  induction s using codePoints.induct with
  | case1 => exact not_mem_nil
  | case2 u =>
    simp only [codePoints, flatMap_cons, flatMap_nil, append_nil, encodePoint]
    split
    · exact h
    · exact hbytes _
  | case3 u v rest hpair ih =>
    rw [codePoints, if_pos hpair, flatMap_cons]
    intro hmem
    rcases mem_append.mp hmem with hmem | hmem
    · exact hbytes _ hmem
    · exact ih (fun hin => h (mem_cons_of_mem _ (mem_cons_of_mem _ hin))) hmem
  | case4 u v rest hpair ih =>
    rw [codePoints, if_neg hpair, flatMap_cons]
    intro hmem
    rcases mem_append.mp hmem with hmem | hmem
    · simp only [encodePoint] at hmem
      split at hmem
      · exact h (mem_singleton.mp hmem ▸ mem_cons_self)
      · exact hbytes _ hmem
    · exact ih (fun hin => h (mem_cons_of_mem _ hin)) hmem

/-! ## The path -/

def stepOf (s : JsString) : Step JsString :=
  if isDoubleDot s then .up else if isSingleDot s then .here else .name (encodeSegment s)

/-- The steps of what follows the authority. -/
def pathSteps (s : JsString) : List (Step JsString) :=
  let t := s.takeWhile fun u => !endsPath u
  (splitSlashes (if t.head?.any isSlash then t.drop 1 else t)).map stepOf

def parsePath (s : JsString) : List JsString := DotSegments.resolve [] (pathSteps s)

/-- The path as it is written. -/
def pathText (path : List JsString) : JsString := path.flatMap (slash :: ·)

theorem slash_notMem_parsePath {s part : JsString} (h : part ∈ parsePath s) : slash ∉ part := by
  rcases DotSegments.mem_resolve h with rfl | h
  · exact not_mem_nil
  · obtain ⟨raw, hraw, hstep⟩ := mem_map.mp h
    unfold stepOf at hstep
    split at hstep
    · cases hstep
    · split at hstep
      · cases hstep
      · cases hstep
        exact slash_notMem_encode (slash_notMem_split hraw)

theorem takeWhile_slash {s r : JsString} (h : slash ∉ s) :
    (s ++ slash :: r).takeWhile (· != slash) = s := by
  rw [takeWhile_append_of_pos]
  · rw [takeWhile_cons_of_neg (by simp), append_nil]
  · intro u hu
    exact bne_iff_ne.mpr fun heq => h (heq ▸ hu)

/-- A path is inside a directory at the root when that is its first part. -/
theorem pathText_inside_iff {path : List JsString} {name : JsString} (hne : path ≠ [])
    (hpath : ∀ part ∈ path, slash ∉ part) (hname : slash ∉ name) :
    pathText path = slash :: name ∨ (slash :: name ++ [slash]) <+: pathText path ↔
      path.head? = some name := by
  cases path with
  | nil => exact absurd rfl hne
  | cons part rest =>
    have hpart := hpath part mem_cons_self
    rw [head?_cons, Option.some_inj]
    cases rest with
    | nil =>
      have htext : pathText [part] = slash :: part := by simp [pathText]
      rw [htext]
      constructor
      · rintro (heq | ⟨t, ht⟩)
        · exact (List.cons.inj heq).2
        · have hmem : slash ∈ part := by
            rw [← (List.cons.inj ht).2]
            simp
          exact absurd hmem hpart
      · exact fun heq => .inl (congrArg _ heq)
    | cons part' rest =>
      obtain ⟨tail, htext⟩ : ∃ tail, pathText (part :: part' :: rest) =
        slash :: (part ++ slash :: tail) := by
        exact ⟨part' ++ pathText rest, by simp [pathText]⟩
      rw [htext]
      constructor
      · rintro (heq | ⟨t, ht⟩)
        · have hmem : slash ∈ name := by
            rw [← (List.cons.inj heq).2]
            simp
          exact absurd hmem hname
        · have htail : name ++ slash :: t = part ++ slash :: tail := by simpa using ht
          have hcut := congrArg (takeWhile (· != slash)) htail
          rw [takeWhile_slash hname, takeWhile_slash hpart] at hcut
          exact hcut.symm
      · rintro rfl
        right
        exact ⟨tail, by simp⟩

/-! ## The parser -/

def isC0OrSpace (u : UInt16) : Bool := u ≤ 0x20

def isTabOrNewline (u : UInt16) : Bool := u == 0x09 || u == 0x0A || u == 0x0D

def strip (s : JsString) : JsString :=
  (((s.dropWhile isC0OrSpace).reverse.dropWhile isC0OrSpace).reverse).filter (!isTabOrNewline ·)

def endsAuthority (u : UInt16) : Bool := isSlash u || endsPath u

/-- An absolute address of a special scheme. -/
def parse (s : JsString) : Option Url :=
  let t := strip s
  let scheme := asciiLower (t.takeWhile (· != 0x3A))
  -- any number of slashes may stand before the authority
  let rest := ((t.dropWhile (· != 0x3A)).drop 1).dropWhile isSlash
  let authority := rest.takeWhile (!endsAuthority ·)
  if (scheme = js "http" ∨ scheme = js "https") ∧ authority ≠ [] then
    some ⟨scheme, authority, parsePath (rest.dropWhile (!endsAuthority ·))⟩
  else none

theorem strip_eq_self {s : JsString} (h : ∀ u ∈ s, 0x20 < u) : strip s = s := by
  have hdrop : ∀ t : JsString, (∀ u ∈ t, 0x20 < u) → t.dropWhile isC0OrSpace = t := by
    intro t ht
    cases t with
    | nil => rfl
    | cons u t =>
      have hu : isC0OrSpace u = false := by
        have := ht u mem_cons_self
        unfold isC0OrSpace
        exact decide_eq_false (UInt16.not_le.mpr this)
      rw [dropWhile_cons_of_neg (by simp [hu])]
  have hrev : ∀ u ∈ s.reverse, 0x20 < u := fun u hu => h u (mem_reverse.mp hu)
  unfold strip
  rw [hdrop s h, hdrop s.reverse hrev, reverse_reverse]
  apply filter_eq_self.mpr
  intro u hu
  have hbig := h u hu
  unfold isTabOrNewline
  simp only [Bool.not_eq_true', Bool.or_eq_false_iff, beq_eq_false_iff_ne]
  have hne : ∀ v : UInt16, v ≤ 0x20 → u ≠ v := by
    rintro v hv rfl
    exact UInt16.not_le.mpr hbig hv
  exact ⟨⟨hne _ (by decide), hne _ (by decide)⟩, hne _ (by decide)⟩

/-- A name that may stand for a host, with its port. -/
def IsHost (host : JsString) : Prop := host ≠ [] ∧ ∀ u ∈ host, 0x20 < u ∧ endsAuthority u = false

/-- **An address of a host, read.** -/
theorem parse_absolute {scheme host rest : JsString}
    (hscheme : scheme = js "http" ∨ scheme = js "https") (hhost : IsHost host)
    (hrest : ∀ u ∈ rest, 0x20 < u) (hstart : ∀ u ∈ rest.head?, endsAuthority u = true) :
    parse (scheme ++ js "://" ++ host ++ rest) = some ⟨scheme, host, parsePath rest⟩ := by
  obtain ⟨hne, hunits⟩ := hhost
  have hclean : ∀ u ∈ scheme ++ js "://" ++ host ++ rest, 0x20 < u := by
    intro u hu
    rcases mem_append.mp hu with hu | hu
    · rcases mem_append.mp hu with hu | hu
      · have hfixed : (js "http" ++ js "https" ++ js "://").all (0x20 < ·) = true := by decide
        refine of_decide_eq_true (all_eq_true.mp hfixed u ?_)
        rcases hscheme with rfl | rfl <;> rcases mem_append.mp hu with hu | hu <;> simp [hu]
      · exact (hunits u hu).1
    · exact hrest u hu
  have hdrop : ∀ t : JsString, ((js "//") ++ host ++ t).dropWhile isSlash = host ++ t := by
    intro t
    cases host with
    | nil => exact absurd rfl hne
    | cons u host =>
      have hu := (hunits u mem_cons_self).2
      have hslash : isSlash u = false := (Bool.or_eq_false_iff.mp hu).1
      show ((slash :: slash :: u :: (host ++ t)).dropWhile isSlash) = u :: (host ++ t)
      rw [dropWhile_cons_of_pos (by decide), dropWhile_cons_of_pos (by decide),
        dropWhile_cons_of_neg (by simp [hslash])]
  have htake : (host ++ rest).takeWhile (!endsAuthority ·) = host := by
    rw [takeWhile_append_of_pos fun u hu => by simp [(hunits u hu).2]]
    cases rest with
    | nil => exact append_nil _
    | cons u rest =>
      rw [takeWhile_cons_of_neg (by simp [hstart u rfl]), append_nil]
  have hleft : (host ++ rest).dropWhile (!endsAuthority ·) = rest := by
    rw [dropWhile_append_of_pos fun u hu => by simp [(hunits u hu).2]]
    cases rest with
    | nil => rfl
    | cons u rest => rw [dropWhile_cons_of_neg (by simp [hstart u rfl])]
  unfold parse
  rw [strip_eq_self hclean]
  have hcolon : ∀ u ∈ scheme, (u != 0x3A) = true := by
    refine all_eq_true.mp ?_
    rcases hscheme with rfl | rfl <;> decide
  have hlower : asciiLower scheme = scheme := by
    rcases hscheme with rfl | rfl <;> decide
  have hsplit : scheme ++ js "://" ++ host ++ rest = scheme ++
    0x3A :: (js "//" ++ host ++ rest) := by
    rw [append_assoc, append_assoc, append_assoc]
    rfl
  rw [hsplit]
  dsimp only
  rw [takeWhile_append_of_pos hcolon, takeWhile_cons_of_neg (by simp), append_nil,
    dropWhile_append_of_pos hcolon, dropWhile_cons_of_neg (by simp), drop_one,
    tail_cons, append_assoc, ← append_assoc, hdrop, htake, hleft, hlower,
    if_pos ⟨hscheme, hne⟩]

end Url

end AramoPlatform.Js
