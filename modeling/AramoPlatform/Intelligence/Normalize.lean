import AramoPlatform.Intelligence.Golden
import AramoPlatform.Js.Stringify
import Mathlib.Data.List.Dedup

/-!
# Normalisation, names and canonical hashing

What the platform's runtime gives (digests, Unicode normalisation, case
mapping) is a parameter, `Host`; everything built on it is written out.
-/

namespace AramoPlatform.Intelligence

open Js Lib List

/-- What the runtime provides. -/
structure Host where
  /-- `createHash('sha256')` over the UTF-8 bytes, in lower-case hex. -/
  sha256Hex : JsString → JsString
  /-- `createHmac('sha256', key)`, in lower-case hex. -/
  hmacSha256Hex : JsString → JsString → JsString
  /-- `normalize('NFKD')`. -/
  normalizeNFKD : JsString → JsString
  toLowerCase : JsString → JsString
  toUpperCase : JsString → JsString
  /-- `Math.max` on two finite numbers. -/
  max : JsNum → JsNum → JsNum

/-! ## Strings -/

/-- White space and line terminators: `\s`, and what `trim` removes. -/
def isSpace (u : UInt16) : Bool :=
  (9 ≤ u && u ≤ 13) || u == 0x20 || u == 0xA0 || u == 0x1680 || (0x2000 ≤ u && u ≤ 0x200A) ||
    u == 0x2028 || u == 0x2029 || u == 0x202F || u == 0x205F || u == 0x3000 || u == 0xFEFF

def trim (s : JsString) : JsString := ((s.dropWhile isSpace).reverse.dropWhile isSpace).reverse

def isDigit (u : UInt16) : Bool := 48 ≤ u && u ≤ 57

def isLowerLetter (u : UInt16) : Bool := 97 ≤ u && u ≤ 122

def isUpperLetter (u : UInt16) : Bool := 65 ≤ u && u ≤ 90

/-- The order in which `sort()` puts strings: by code units. -/
def strLe : JsString → JsString → Bool
  | [], _ => true
  | _ :: _, [] => false
  | a :: as, b :: bs => a < b || (a == b && strLe as bs)

/-- `[...new Set(xs)].sort()` on strings. -/
def uniqStrings (xs : List JsString) : List JsString :=
  xs.dedup.insertionSort fun a b => strLe a b = true

/-- `[...new Set(xs)].sort()` on ids. -/
def uniq (xs : List Nat) : List Nat := xs.dedup.insertionSort (· ≤ ·)

@[simp] theorem mem_uniq {xs : List Nat} {x : Nat} : x ∈ uniq xs ↔ x ∈ xs := by
  rw [uniq, mem_insertionSort, mem_dedup]

theorem nodup_uniq (xs : List Nat) : (uniq xs).Nodup :=
  (perm_insertionSort _ _).nodup_iff.mpr (nodup_dedup xs)

@[simp] theorem uniq_nil : uniq [] = [] := rfl

theorem uniq_congr {xs ys : List Nat} (h : ∀ x, x ∈ xs ↔ x ∈ ys) : uniq xs = uniq ys := by
  refine insertionSort_eq_of_perm ?_ fun a _ b _ => Nat.le_antisymm
  rw [perm_ext_iff_of_nodup (nodup_dedup xs) (nodup_dedup ys)]
  intro x
  rw [mem_dedup, mem_dedup, h]

/-! ## Identifiers -/

/-- `identifierKey`: `TYPE:normalized_value`. -/
def IdentifierKey.text (k : IdentifierKey) : JsString :=
  k.identifierType.text ++ js ":" ++ k.normalizedValue

/-- The keys in the order of their texts. -/
def sortKeys (keys : List IdentifierKey) : List IdentifierKey :=
  keys.insertionSort fun a b => strLe a.text b.text = true

@[simp] theorem mem_sortKeys {keys : List IdentifierKey} {k : IdentifierKey} :
    k ∈ sortKeys keys ↔ k ∈ keys :=
  mem_insertionSort _

section Host

variable (host : Host)

def normalizeEmail (value : JsString) : JsString := host.toLowerCase (trim value)

/-- `+` and the digits; ten digits without a `+` are read as a number of the
North American plan. -/
def normalizePhone (value : JsString) : JsString :=
  let trimmed := trim value
  let digits := trimmed.filter isDigit
  if trimmed.head? = some 0x2B then js "+" ++ digits
  else if digits.length = 10 then js "+1" ++ digits
  else js "+" ++ digits

/-- `GovIdTokenizer.token` under its key: formatting never changes the token. -/
def govIdToken (key : JsString) (jurisdiction identifierClass raw : JsString) : JsString :=
  let value := (host.toUpperCase raw).filter fun u => isUpperLetter u || isDigit u
  host.hmacSha256Hex key (host.toUpperCase jurisdiction ++ js ":" ++
    host.toUpperCase identifierClass ++ js ":" ++ value)

/-! ## Names -/

/-- `replace(/\s+/g, ' ')`. -/
def collapseSpaces : JsString → JsString
  | [] => []
  | u :: rest =>
      if isSpace u then
        if (rest.head?.map isSpace).getD false then collapseSpaces rest
        else 0x20 :: collapseSpaces rest
      else u :: collapseSpaces rest

def normalizeNamePart (value : Option JsString) : JsString :=
  match value with
  | none => []
  | some v =>
      let plain := (host.normalizeNFKD v).filter fun u => !(0x300 ≤ u && u ≤ 0x36F)
      let letters := (host.toLowerCase plain).filter fun u => isLowerLetter u || isSpace u
      trim (collapseSpaces letters)

/-- An absent part where the normalised one is empty. -/
def presentPart (s : JsString) : Option JsString := if s = [] then none else some s

def normalizeNames (names : Option NameSnapshot) : NameSnapshot :=
  match names with
  | none => ⟨none, none, none⟩
  | some n =>
      let aliases := ((n.aliases.getD []).map fun a => normalizeNamePart host (some a)).filter
        fun a => a ≠ []
      { first := presentPart (normalizeNamePart host n.first)
        last := presentPart (normalizeNamePart host n.last)
        aliases := if aliases = [] then none else some (uniqStrings aliases) }

end Host

namespace NameSnapshot

/-- `Object.keys(names).length > 0`. -/
def hasMember (n : NameSnapshot) : Bool := n.first.isSome || n.last.isSome || n.aliases.isSome

/-- A part that is there and is not the empty string. -/
def part (s : Option JsString) : Bool := s.any fun t => t ≠ []

def hasName (n : NameSnapshot) : Bool :=
  part n.first || part n.last || (n.aliases.getD []).any fun _ => true

def fullNames (n : NameSnapshot) : List JsString :=
  let parts := ([n.first, n.last].filterMap id).filter fun t => t ≠ []
  let full := (parts.intersperse (js " ")).flatten
  ((n.aliases.getD []) ++ if full = [] then [] else [full]).dedup

/-- An initial is compatible with a full first name. -/
def firstCompatible (a b : Option JsString) : Bool :=
  match a, b with
  | some a, some b =>
      a == [] || b == [] || a == b ||
        (if a.length = 1 ∨ b.length = 1 then a.head? == b.head?
          else b.isPrefixOf a || a.isPrefixOf b)
  | _, _ => true

/-- `namesMatch`: the two snapshots may name the same person. -/
def namesMatch (a b : NameSnapshot) : Bool :=
  !a.hasName || !b.hasName ||
    (part a.last && part b.last && a.last == b.last && firstCompatible a.first b.first) ||
    a.fullNames.any fun x => b.fullNames.contains x

/-- `namesConflict`: both carry a name and they do not match. -/
def conflict (a b : NameSnapshot) : Bool := a.hasName && b.hasName && !namesMatch a b

/-- The snapshot as JSON: absent parts are absent members. -/
def toJs (n : NameSnapshot) : JsVal :=
  .obj ((n.first.map fun s => (js "first", JsVal.str s)).toList ++
    (n.last.map fun s => (js "last", JsVal.str s)).toList ++
    (n.aliases.map fun l => (js "aliases", JsVal.arr (l.map .str))).toList)

end NameSnapshot

/-! ## Canonical JSON -/

/-- The order of `Object.entries(…).sort(([a], [b]) => …)`. -/
def memberLe (a b : JsString × Json) : Prop := strLe a.1 b.1 = true

instance : DecidableRel memberLe := fun a b => inferInstanceAs (Decidable (strLe a.1 b.1 = true))

mutual
/-- The tree `canonicalJson` writes: members sorted by their names at every
depth, undefined members left out. -/
def canonicalTree : JsVal → Json
  | .undefined => .null
  | .null => .null
  | .bool b => .bool b
  | .num n => .num n
  | .str s => .str s
  | .arr elems => .arr (canonicalElems elems)
  | .obj members => .obj ((canonicalMembers members).insertionSort memberLe)
termination_by structural v => v

def canonicalElems : List JsVal → List Json
  | [] => []
  | v :: rest => canonicalTree v :: canonicalElems rest
termination_by structural l => l

def canonicalMembers : List (JsString × JsVal) → List (JsString × Json)
  | [] => []
  | (k, v) :: rest =>
      if v.isUndefined then canonicalMembers rest
      else (k, canonicalTree v) :: canonicalMembers rest
termination_by structural l => l
end

def canonicalJson (v : JsVal) : JsString := print (canonicalTree v)

/-- An id as it stands in a JSON text. -/
def idText (id : Nat) : JsString := js (toString id)

end AramoPlatform.Intelligence
