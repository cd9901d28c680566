import Mathlib.Data.List.Sort

/-!
# JavaScript strings

A JavaScript string is a sequence of UTF-16 code units, lone surrogates
included. Three of its standard operations matter to the ledger: reading it
as code points, its UTF-8 bytes (`Buffer.from(s, 'utf8')`, where a lone
surrogate becomes U+FFFD), and the quoting of `JSON.stringify`. The quoting
is undone by `scanQuoted`, which is how the text of a string is shown to
determine the string.
-/

namespace AramoPlatform.Js

/-- A JavaScript string: its UTF-16 code units. -/
abbrev JsString := List UInt16

/-- The code units of one Unicode scalar value. -/
def utf16Encode (c : Char) : JsString :=
  if c.toNat < 0x10000 then [c.toNat.toUInt16]
  else [(0xD800 + (c.toNat - 0x10000) / 0x400).toUInt16,
        (0xDC00 + (c.toNat - 0x10000) % 0x400).toUInt16]

/-- A string literal of the source. -/
def js (s : String) : JsString := s.toList.flatMap utf16Encode

theorem js_eq_nil {s : String} : js s = [] ↔ s = "" := by
  rw [js, List.flatMap_eq_nil_iff]
  constructor
  · intro h
    rw [← String.toList_eq_nil_iff, List.eq_nil_iff_forall_not_mem]
    intro c hc
    have hnil := h c hc
    unfold utf16Encode at hnil
    split at hnil <;> cases hnil
  · rintro rfl
    intro c hc
    cases hc

def isHighSurrogate (u : UInt16) : Bool := 0xD800 ≤ u && u ≤ 0xDBFF

def isLowSurrogate (u : UInt16) : Bool := 0xDC00 ≤ u && u ≤ 0xDFFF

/-- One code point of a string: a single unit (possibly a lone surrogate)
or a surrogate pair. -/
inductive CodePoint where
  | unit (u : UInt16)
  | pair (hi lo : UInt16)
  deriving DecidableEq

/-- `StringToCodePoints`. -/
def codePoints : JsString → List CodePoint
  | [] => []
  | [u] => [.unit u]
  | u :: v :: rest =>
      if isHighSurrogate u && isLowSurrogate v then .pair u v :: codePoints rest
      else .unit u :: codePoints (v :: rest)

/-! ## UTF-8 bytes -/

/-- The code point's number. -/
def CodePoint.value : CodePoint → Nat
  | .unit u => u.toNat
  | .pair hi lo => 0x10000 + (hi.toNat - 0xD800) * 0x400 + (lo.toNat - 0xDC00)

/-- Not a lone surrogate. -/
def CodePoint.isScalar : CodePoint → Bool
  | .unit u => !(isHighSurrogate u || isLowSurrogate u)
  | .pair hi lo => isHighSurrogate hi && isLowSurrogate lo

/-- The UTF-8 bytes of a Unicode scalar value. -/
def utf8Encode (n : Nat) : List Nat :=
  if n < 0x80 then [n]
  else if n < 0x800 then [0xC0 + n / 0x40, 0x80 + n % 0x40]
  else if n < 0x10000 then [0xE0 + n / 0x1000, 0x80 + n / 0x40 % 0x40, 0x80 + n % 0x40]
  else [0xF0 + n / 0x40000, 0x80 + n / 0x1000 % 0x40, 0x80 + n / 0x40 % 0x40, 0x80 + n % 0x40]

/-- A lone surrogate is written as U+FFFD. -/
def CodePoint.utf8 (c : CodePoint) : List Nat :=
  if c.isScalar then utf8Encode c.value else utf8Encode 0xFFFD

/-- `Buffer.from(s, 'utf8')`. -/
def utf8 (s : JsString) : List Nat := (codePoints s).flatMap CodePoint.utf8

/-- `String.prototype.isWellFormed`: no lone surrogates. -/
def isWellFormed (s : JsString) : Bool := (codePoints s).all CodePoint.isScalar

theorem CodePoint.value_unit (u : UInt16) : (CodePoint.unit u).value = u.toNat := rfl

theorem CodePoint.value_pair (hi lo : UInt16) : (CodePoint.pair hi lo).value =
    0x10000 + (hi.toNat - 0xD800) * 0x400 + (lo.toNat - 0xDC00) := rfl

theorem surrogate_bounds {hi lo : UInt16} (h : (CodePoint.pair hi lo).isScalar = true) :
    0xD800 ≤ hi.toNat ∧ hi.toNat ≤ 0xDBFF ∧ 0xDC00 ≤ lo.toNat ∧ lo.toNat ≤ 0xDFFF := by
  simp only [CodePoint.isScalar, isHighSurrogate, isLowSurrogate, Bool.and_eq_true,
    decide_eq_true_eq, UInt16.le_iff_toNat_le, UInt16.reduceToNat] at h
  exact ⟨h.1.1, h.1.2, h.2.1, h.2.2⟩

theorem CodePoint.value_lt {c : CodePoint} (h : c.isScalar = true) : c.value < 0x110000 := by
  cases c with
  | unit u =>
    have hu : u.toNat < 0x10000 := u.toNat_lt
    exact Nat.lt_of_lt_of_le hu (by decide)
  | pair hi lo =>
    have hb := surrogate_bounds h
    rw [CodePoint.value_pair]
    omega

theorem CodePoint.value_injective {c c' : CodePoint} (h : c.isScalar = true)
    (h' : c'.isScalar = true) (hv : c.value = c'.value) : c = c' := by
  cases c with
  | unit u =>
    cases c' with
    | unit u' => exact congrArg CodePoint.unit (UInt16.toNat_inj.mp hv)
    | pair hi lo =>
      have hu : u.toNat < 0x10000 := u.toNat_lt
      simp only [CodePoint.value_unit, CodePoint.value_pair] at hv
      omega
  | pair hi lo =>
    cases c' with
    | unit u =>
      have hu : u.toNat < 0x10000 := u.toNat_lt
      simp only [CodePoint.value_unit, CodePoint.value_pair] at hv
      omega
    | pair hi' lo' =>
      have hb := surrogate_bounds h
      have hb' := surrogate_bounds h'
      simp only [CodePoint.value_pair] at hv
      have hhi : hi = hi' := UInt16.toNat_inj.mp (by omega)
      have hlo : lo = lo' := UInt16.toNat_inj.mp (by omega)
      rw [hhi, hlo]

theorem utf8Encode_append_inj {n m : Nat} {r r' : List Nat} (hn : n < 0x110000) (hm : m < 0x110000)
    (h : utf8Encode n ++ r = utf8Encode m ++ r') : n = m ∧ r = r' := by
  unfold utf8Encode at h
  split at h <;> split at h <;> (try split at h) <;> (try split at h) <;> (try split at h) <;>
    (try split at h) <;> simp at h <;> first | omega | (refine ⟨by omega, ?_⟩; tauto)

theorem flatMap_utf8_injective {l l' : List CodePoint} (hl : l.all CodePoint.isScalar = true)
    (hl' : l'.all CodePoint.isScalar = true)
    (h : l.flatMap CodePoint.utf8 = l'.flatMap CodePoint.utf8) : l = l' := by
  have hne : ∀ c : CodePoint, c.utf8 ≠ [] := by
    intro c
    unfold CodePoint.utf8 utf8Encode
    repeat' split
    all_goals simp
  induction l generalizing l' with
  | nil =>
    cases l' with
    | nil => rfl
    | cons c l' => simp [hne] at h
  | cons c l ih =>
    cases l' with
    | nil => simp [hne] at h
    | cons c' l' =>
      simp only [List.all_cons, Bool.and_eq_true] at hl hl'
      simp only [List.flatMap_cons, CodePoint.utf8, hl.1, hl'.1, if_true] at h
      obtain ⟨hv, hrest⟩ := utf8Encode_append_inj (CodePoint.value_lt hl.1)
        (CodePoint.value_lt hl'.1) h
      rw [CodePoint.value_injective hl.1 hl'.1 hv, ih hl.2 hl'.2 hrest]

theorem codePoints_injective {s t : JsString} (h : codePoints s = codePoints t) : s = t := by
  let units : CodePoint → JsString
    | .unit u => [u]
    | .pair hi lo => [hi, lo]
  have hback : ∀ s : JsString, (codePoints s).flatMap units = s := by
    intro s
    induction s using codePoints.induct with
    | case1 => rfl
    | case2 u => rfl
    | case3 _ _ _ hp ih | case4 _ _ _ hp ih => simp [codePoints, hp, units, ih]
  rw [← hback s, h, hback t]

theorem utf8_injective {s t : JsString} (hs : isWellFormed s = true) (ht : isWellFormed t = true)
    (h : utf8 s = utf8 t) : s = t :=
  codePoints_injective (flatMap_utf8_injective hs ht h)

/-! ## `trim` and whitespace -/

/-- The units `trim` removes: WhiteSpace and LineTerminator. -/
def isSpace (u : UInt16) : Bool :=
  (9 ≤ u && u ≤ 13) || u == 0x20 || u == 0xA0 || u == 0x1680 ||
    (0x2000 ≤ u && u ≤ 0x200A) || u == 0x2028 || u == 0x2029 || u == 0x202F ||
    u == 0x205F || u == 0x3000 || u == 0xFEFF

def trim (s : JsString) : JsString :=
  ((s.dropWhile isSpace).reverse.dropWhile isSpace).reverse

/-- `s.replace(/\s+/g, ' ')`: every run of whitespace becomes one space. -/
def collapseSpaces : JsString → JsString
  | [] => []
  | u :: rest =>
      if isSpace u then
        match rest with
        | [] => [0x20]
        | v :: _ => if isSpace v then collapseSpaces rest else 0x20 :: collapseSpaces rest
      else u :: collapseSpaces rest

/-- The shape `/^[^\s@]+@[^\s@]+\.[^\s@]+$/` asks of an address. -/
def isEmailShape (s : JsString) : Bool :=
  let isAt : UInt16 → Bool := (· == 0x40)
  let localPart := s.takeWhile (fun u => !isAt u)
  let domain := (s.dropWhile (fun u => !isAt u)).drop 1
  let hostEnd := domain.dropLast.drop 1
  !localPart.isEmpty && !s.any isSpace && s.any isAt && !domain.any isAt && hostEnd.any (· == 0x2E)

/-! ## `JSON.stringify` of a string -/

/-- A lower-case hexadecimal digit. -/
def hexDigit (d : Nat) : UInt16 := if d < 10 then (48 + d).toUInt16 else (87 + d).toUInt16

def hexVal (u : UInt16) : Nat := if u < 58 then u.toNat - 48 else u.toNat - 87

/-- `\uXXXX`. -/
def unicodeEscape (u : UInt16) : JsString :=
  [0x5C, 0x75, hexDigit (u.toNat / 0x1000), hexDigit (u.toNat / 0x100 % 0x10),
    hexDigit (u.toNat / 0x10 % 0x10), hexDigit (u.toNat % 0x10)]

/-- The two-character escapes of `QuoteJSONString`. -/
def shortEscape (u : UInt16) : Option UInt16 :=
  if u = 0x08 then some 0x62 else if u = 0x09 then some 0x74
  else if u = 0x0A then some 0x6E else if u = 0x0C then some 0x66
  else if u = 0x0D then some 0x72 else if u = 0x22 then some 0x22
  else if u = 0x5C then some 0x5C else none

/-- The quoted form of one code point. Control characters and lone
surrogates are escaped, everything else is written as it is. -/
def CodePoint.quote : CodePoint → JsString
  | .unit u =>
      match shortEscape u with
      | some c => [0x5C, c]
      | none =>
          if u < 0x20 || isHighSurrogate u || isLowSurrogate u then unicodeEscape u else [u]
  | .pair hi lo => [hi, lo]

/-- The text between the quotation marks. -/
def quoteBody (s : JsString) : JsString := (codePoints s).flatMap CodePoint.quote

/-- `QuoteJSONString`. -/
def quote (s : JsString) : JsString := 0x22 :: quoteBody s ++ [0x22]

/-! ## Quoting is undone by scanning -/

/-- The unit a two-character escape stands for. -/
def unescape (c : UInt16) : UInt16 :=
  if c = 0x62 then 0x08 else if c = 0x74 then 0x09 else if c = 0x6E then 0x0A
  else if c = 0x66 then 0x0C else if c = 0x72 then 0x0D else c

/-- Reads a quoted body up to its closing quotation mark. -/
def scanQuoted : JsString → Option (JsString × JsString)
  | [] => none
  | 0x22 :: r => some ([], r)
  | 0x5C :: 0x75 :: a :: b :: c :: d :: r =>
      (scanQuoted r).map fun p =>
        ((((hexVal a * 16 + hexVal b) * 16 + hexVal c) * 16 + hexVal d).toUInt16 :: p.1, p.2)
  | 0x5C :: c :: r => (scanQuoted r).map fun p => (unescape c :: p.1, p.2)
  | u :: r => (scanQuoted r).map fun p => (u :: p.1, p.2)

theorem hexVal_hexDigit : ∀ d, d < 16 → hexVal (hexDigit d) = d := by decide

theorem scanQuoted_unicodeEscape (u : UInt16) (r : JsString) :
    scanQuoted (unicodeEscape u ++ r) = (scanQuoted r).map fun p => (u :: p.1, p.2) := by
  have hlt : u.toNat < 0x10000 := u.toNat_lt
  have hval : ((u.toNat / 0x1000 * 16 + u.toNat / 0x100 % 0x10) * 16 + u.toNat / 0x10 % 0x10) * 16
      + u.toNat % 0x10 = u.toNat := by omega
  have hback : (u.toNat).toUInt16 = u := by simp
  simp only [unicodeEscape, List.cons_append, List.nil_append, scanQuoted]
  rw [hexVal_hexDigit _ (by omega), hexVal_hexDigit _ (by omega), hexVal_hexDigit _ (by omega),
    hexVal_hexDigit _ (by omega), hval, hback]

theorem scanQuoted_plain {u : UInt16} (hq : u ≠ 0x22) (hb : u ≠ 0x5C) (r : JsString) :
    scanQuoted (u :: r) = (scanQuoted r).map fun p => (u :: p.1, p.2) := by
  rw [scanQuoted.eq_def]
  split <;> simp_all

theorem scanQuoted_short {u c : UInt16} (h : shortEscape u = some c) (r : JsString) :
    scanQuoted (0x5C :: c :: r) = (scanQuoted r).map fun p => (u :: p.1, p.2) := by
  -- each of the seven escapes, by its own row of the table
  simp only [shortEscape] at h
  repeat' split at h
  all_goals first | (cases h; subst_vars; simp [scanQuoted, unescape]) | cases h

theorem ne_special_of_not_short {u : UInt16} (h : shortEscape u = none) :
    u ≠ 0x22 ∧ u ≠ 0x5C := by
  constructor
  · rintro rfl
    exact absurd h (by decide)
  · rintro rfl
    exact absurd h (by decide)

theorem scanQuoted_unit (u : UInt16) (r : JsString) :
    scanQuoted ((CodePoint.unit u).quote ++ r) = (scanQuoted r).map fun p => (u :: p.1, p.2) := by
  simp only [CodePoint.quote]
  cases hs : shortEscape u with
  | some c => simpa using scanQuoted_short hs r
  | none =>
    obtain ⟨hq, hb⟩ := ne_special_of_not_short hs
    simp only
    split
    · exact scanQuoted_unicodeEscape u r
    · exact scanQuoted_plain hq hb r

theorem surrogate_ne_special {u : UInt16} (h : 0xD800 ≤ u) : u ≠ 0x22 ∧ u ≠ 0x5C := by
  constructor
  · rintro rfl
    exact absurd h (by decide)
  · rintro rfl
    exact absurd h (by decide)

/-- **Quoting is undone**: the scanner reads back the string and stops right
after its closing quotation mark. -/
theorem scanQuoted_quoteBody (s r : JsString) :
    scanQuoted (quoteBody s ++ 0x22 :: r) = some (s, r) := by
  unfold quoteBody
  induction s using codePoints.induct with
  | case1 => simp [codePoints, scanQuoted]
  | case2 u =>
    simp only [codePoints, List.flatMap_cons, List.flatMap_nil, List.append_nil]
    rw [scanQuoted_unit]
    simp [scanQuoted]
  | case3 u v rest hpair ih =>
    have hu : 0xD800 ≤ u := by simp [isHighSurrogate] at hpair; exact hpair.1.1
    have hv : 0xD800 ≤ v := by
      have hlo : 0xDC00 ≤ v := by simp [isLowSurrogate] at hpair; exact hpair.2.1
      exact UInt16.le_trans (show (0xD800 : UInt16) ≤ 0xDC00 by decide) hlo
    simp only [codePoints, hpair, if_true, List.flatMap_cons, CodePoint.quote, List.cons_append,
      List.nil_append]
    rw [scanQuoted_plain (surrogate_ne_special hu).1 (surrogate_ne_special hu).2,
      scanQuoted_plain (surrogate_ne_special hv).1 (surrogate_ne_special hv).2, ih]
    rfl
  | case4 u v rest hpair ih =>
    simp only [codePoints, hpair, Bool.false_eq_true, if_false, List.flatMap_cons,
      List.append_assoc]
    rw [scanQuoted_unit, ih]
    rfl

theorem quote_append_inj {s t r r' : JsString} (h : quote s ++ r = quote t ++ r') :
    s = t ∧ r = r' := by
  simp only [quote, List.cons_append, List.append_assoc, List.nil_append, List.cons.injEq,
    true_and] at h
  have hs := scanQuoted_quoteBody s r
  rw [h, scanQuoted_quoteBody t r'] at hs
  simp only [Option.some.injEq, Prod.mk.injEq] at hs
  exact ⟨hs.1.symm, hs.2.symm⟩

end AramoPlatform.Js
