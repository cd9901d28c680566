import AramoPlatform.Lib.Outcome
import AramoPlatform.Sign.HashChain
import Mathlib.Data.Nat.Digits.Lemmas
import Mathlib.Logic.Relation

/-!
# Reading and writing DER

`document-seal/der.ts` and `trusted-timestamp/der.ts`: two readers and two
writers of elements of a tag, a length and a content. The writers agree. The
readers differ in one check and in the texts of errors: the time-stamp
reader refuses the long form of a length below 128, the seal reader reads it,
and both read a long form with leading zero bytes. `Accepts` says which
elements a reader accepts, apart from how it goes through the bytes.
-/

namespace AramoPlatform.Sign

open Js Lib List

abbrev Buffer := List UInt8

/-! ## Numerals, the most significant digit first -/

section Numerals

variable {base n : Nat} {digits : List Nat}

/-- The loop `value = value * base + digit`. -/
def numeralValue (base : Nat) (digits : List Nat) : Nat := digits.foldl (fun n d => n * base + d) 0

/-- The loop that unshifts `n % base` and goes on with `n / base`, down to zero. -/
def numeral (base n : Nat) : List Nat := (Nat.digits base n).reverse

theorem numeralValue_eq_ofDigits (base : Nat) (digits : List Nat) :
    numeralValue base digits = Nat.ofDigits base digits.reverse := by
  rw [numeralValue, Nat.ofDigits_eq_foldr, foldr_reverse]
  congr 1
  funext n d
  simp only [Nat.cast_id]
  ring

theorem numeralValue_numeral (base n : Nat) : numeralValue base (numeral base n) = n := by
  rw [numeralValue_eq_ofDigits, numeral, reverse_reverse, Nat.ofDigits_digits]

theorem numeral_numeralValue (hbase : 1 < base) (hlt : ∀ d ∈ digits, d < base)
    (hhead : digits.head? ≠ some 0) : numeral base (numeralValue base digits) = digits := by
  rw [numeralValue_eq_ofDigits, numeral, Nat.digits_ofDigits base hbase, reverse_reverse]
  · simpa using hlt
  · intro hne hzero
    rw [getLast_reverse] at hzero
    rw [head?_eq_some_head (by simpa using hne), hzero] at hhead
    exact hhead rfl

theorem numeral_head (base n : Nat) : (numeral base n).head? ≠ some 0 := by
  intro h
  by_cases hn : n = 0
  · simp [numeral, hn] at h
  · rw [numeral, head?_reverse,
      getLast?_eq_some_getLast (Nat.digits_ne_nil_iff_ne_zero.mpr hn)]
      at h
    exact Nat.getLast_digit_ne_zero base hn (Option.some.inj h)

theorem numeral_lt (hbase : 1 < base) : ∀ d ∈ numeral base n, d < base := by
  simpa [numeral] using fun d hd => Nat.digits_lt_base hbase hd

theorem length_numeral_le (hbase : 1 < base) {k : Nat} :
    (numeral base n).length ≤ k ↔ n < base ^ k := by
  rw [numeral, length_reverse, Nat.digits_length_le_iff hbase]

end Numerals

/-! ## Bytes -/

/-- `length = length * 256 + byte`, and `v = (v << 8n) | BigInt(b)`. -/
def bigEndian (bytes : Buffer) : Nat := numeralValue 256 (bytes.map (·.toNat))

/-- `while (n > 0) { bytes.unshift(n & 0xff); n = Math.floor(n / 256); }`. -/
def lengthBytes (n : Nat) : Buffer := (numeral 256 n).map UInt8.ofNat

theorem toNat_ofNat {n : Nat} (h : n < 256) : (UInt8.ofNat n).toNat = n := by
  rw [UInt8.toNat_ofNat']
  omega

theorem map_toNat_lengthBytes (n : Nat) : (lengthBytes n).map (·.toNat) = numeral 256 n := by
  rw [lengthBytes, map_map]
  exact (map_congr_left fun d hd => toNat_ofNat (numeral_lt (by omega) d hd)).trans
    (map_id _)

theorem bigEndian_lengthBytes (n : Nat) : bigEndian (lengthBytes n) = n := by
  rw [bigEndian, map_toNat_lengthBytes, numeralValue_numeral]

theorem lengthBytes_bigEndian {bytes : Buffer} (h : bytes.head? ≠ some 0) :
    lengthBytes (bigEndian bytes) = bytes := by
  rw [lengthBytes, bigEndian, numeral_numeralValue (by omega), map_map]
  · simp [Function.comp_def]
  · simp only [forall_mem_map]
    exact fun b _ => b.toNat_lt
  · intro hhead
    cases bytes with
    | nil => cases hhead
    | cons b rest =>
      simp only [map_cons, head?_cons, Option.some.injEq] at h hhead
      exact h (congrArg some (UInt8.toNat_inj.mp hhead))

/-! ## Writing -/

def encodeLength (length : Nat) : Buffer :=
  if length < 0x80 then [UInt8.ofNat length]
  else (0x80 ||| UInt8.ofNat (lengthBytes length).length) :: lengthBytes length

/-- `tlv` of the seal and `encodeTlv` of the time stamp. -/
def tlv (tag : UInt8) (content : Buffer) : Buffer := tag :: (encodeLength content.length ++ content)

/-- `Buffer.compare(x, y) <= 0`. -/
def bufferLe (x y : Buffer) : Prop := bufferCompare (x.map (·.toNat)) (y.map (·.toNat)) ≤ 0

instance : DecidableRel bufferLe := fun x y =>
  inferInstanceAs (Decidable (bufferCompare (x.map (·.toNat)) (y.map (·.toNat)) ≤ 0))

def setOf (items : List Buffer) : Buffer := tlv 0x31 (items.insertionSort bufferLe).flatten

/-- `while (start < bytes.length - 1 && bytes[start] === 0) start += 1`. -/
def stripZeros : Buffer → Buffer
  | a :: b :: rest => if a = 0 then stripZeros (b :: rest) else a :: b :: rest
  | bytes => bytes

/-- The content of a non-negative INTEGER: without leading zeros, and with one
where the first bit would be a sign. -/
def integerBytes (bytes : Buffer) : Buffer :=
  match stripZeros bytes with
  | [] => [0]
  | b :: rest => if b &&& 0x80 != 0 then 0 :: b :: rest else b :: rest

/-- Of bytes; `integerFromBytes` of the seal is the same. -/
def encodeUnsignedInteger (bytes : Buffer) : Buffer := tlv 0x02 (integerBytes bytes)

/-! ## Reading -/

structure DerNode where
  tag : UInt8
  constructed : Bool
  raw : Buffer
  content : Buffer
  deriving DecidableEq

/-- What the two readers do differently. -/
structure DerReader where
  /-- `if (length < 0x80) throw …` after a long form. -/
  refusesShort : Bool
  runsPast : String
  trailing : String
  notConstructed : UInt8 → String

def sealReader : DerReader where
  refusesShort := false
  runsPast := "truncated content"
  trailing := "trailing bytes"
  notConstructed _ := "not constructed"

def timestampReader : DerReader where
  refusesShort := true
  runsPast := "content runs past the end of the input"
  trailing := "trailing bytes after the top-level element"
  notConstructed tag :=
    "tag 0x" ++ String.ofList (Nat.toDigits 16 tag.toNat) ++ " is not constructed"

/-- The length from its first byte and the bytes behind it, and the bytes that
are left. -/
def readLength (r : DerReader) (first : UInt8) (rest : Buffer) : Except String (Nat × Buffer) :=
  if first < 0x80 then .ok (first.toNat, rest)
  else do
    let count := (first &&& 0x7f).toNat
    require (count != 0) "indefinite length is not DER"
    require (count ≤ 4) "length too large"
    require (count ≤ rest.length) "truncated length"
    let length := bigEndian (rest.take count)
    require (!r.refusesShort || 0x80 ≤ length) "non-minimal length encoding"
    .ok (length, rest.drop count)

/-- `readOne`, on the bytes from its offset; with the element come the bytes
from `next`. -/
def readOne (r : DerReader) : Buffer → Except String (DerNode × Buffer)
  | tag :: first :: rest => do
    require (tag &&& 0x1f != 0x1f) "high tag numbers are not supported"
    let (length, body) ← readLength r first rest
    require (length ≤ body.length) r.runsPast
    let next := body.drop length
    let raw := (tag :: first :: rest).take (rest.length + 2 - next.length)
    .ok (⟨tag, tag &&& 0x20 != 0, raw, body.take length⟩, next)
  | _ => .error "truncated header"

/-- `parse` of the seal and `parseDer` of the time stamp. -/
def parseWith (r : DerReader) (input : Buffer) : Except String DerNode := do
  let (node, next) ← readOne r input
  require next.isEmpty r.trailing
  .ok node

def parse : Buffer → Except String DerNode := parseWith sealReader

def parseDer : Buffer → Except String DerNode := parseWith timestampReader

/-! ## What a reader accepts -/

/-- The octets that give a length: itself, or at most four bytes behind their
number. -/
inductive LengthOctets : Buffer → Nat → Prop
  | short (b : UInt8) (hb : b < 0x80) : LengthOctets [b] b.toNat
  | long (first : UInt8) (bytes : Buffer) (hfirst : ¬ first < 0x80)
      (hcount : (first &&& 0x7f).toNat = bytes.length) (hne : bytes ≠ [])
        (hfour : bytes.length ≤ 4) :
      LengthOctets (first :: bytes) (bigEndian bytes)

theorem LengthOctets.cons {octets : Buffer} {n : Nat} (h : LengthOctets octets n) :
    ∃ first bytes, octets = first :: bytes := by
  cases h <;> exact ⟨_, _, rfl⟩

/-- An element with these octets of length. -/
structure Element (octets : Buffer) (node : DerNode) : Prop where
  length : LengthOctets octets node.content.length
  tag : node.tag &&& 0x1f ≠ 0x1f
  constructed : node.constructed = (node.tag &&& 0x20 != 0)
  raw : node.raw = node.tag :: (octets ++ node.content)

/-- What a reader accepts as an element. -/
def Accepts (r : DerReader) (node : DerNode) : Prop :=
  ∃ octets, Element octets node ∧
    (r.refusesShort = true → octets.length = 1 ∨ 0x80 ≤ node.content.length)

theorem readLength_eq_ok {r : DerReader} {first : UInt8} {rest body : Buffer} {n : Nat} :
    readLength r first rest = .ok (n, body) ↔ ∃ bytes, rest = bytes ++ body ∧
      LengthOctets (first :: bytes) n ∧ (r.refusesShort = true → bytes = [] ∨ 0x80 ≤ n) := by
  by_cases hfirst : first < 0x80
  · rw [readLength, if_pos hfirst]
    constructor
    · intro h
      obtain ⟨rfl, rfl⟩ := Prod.mk.inj (Except.ok.inj h)
      exact ⟨[], rfl, .short first hfirst, fun _ => .inl rfl⟩
    · rintro ⟨bytes, rfl, hoctets, -⟩
      cases hoctets with
      | short => rfl
      | long _ _ hlong => exact absurd hfirst hlong
  · simp only [readLength, if_neg hfirst, bind_eq_ok, require_eq_ok, Except.ok.injEq,
      Prod.mk.injEq, exists_const, bne_iff_ne, decide_eq_true_eq, Bool.or_eq_true,
      Bool.not_eq_true']
    constructor
    · rintro ⟨hzero, hfour, hlong, hmin, rfl, rfl⟩
      have hlen := length_take_of_le hlong
      refine ⟨_, (take_append_drop _ _).symm, .long first _ hfirst hlen.symm ?_ ?_, ?_⟩
      · rw [← length_pos_iff, hlen]
        omega
      · omega
      · intro hr
        exact .inr (hmin.resolve_left (by simp [hr]))
    · rintro ⟨bytes, rfl, hoctets, hmin⟩
      cases hoctets with
      | short _ hshort => exact absurd hshort hfirst
      | long _ _ _ hcount hne hfour =>
        have hpos := length_pos_iff.mpr hne
        simp only [hcount, take_left, drop_left, length_append, and_true]
        refine ⟨by omega, hfour, by omega, ?_⟩
        cases hr : r.refusesShort with
        | false => exact .inl rfl
        | true => exact .inr ((hmin hr).resolve_left hne)

/-- **What `readOne` reads**: an accepted element, and the rest. -/
theorem readOne_eq_ok {r : DerReader} {buf next : Buffer} {node : DerNode} :
    readOne r buf = .ok (node, next) ↔ Accepts r node ∧ buf = node.raw ++ next := by
  -- the bytes of an element are those before the rest
  have htake : ∀ (tag first : UInt8) (bytes content next : Buffer),
      (tag :: first :: (bytes ++ (content ++ next))).take
        ((bytes ++ (content ++ next)).length + 2 - next.length) =
          tag :: (first :: bytes ++ content) := by
    intro tag first bytes content next
    rw [show tag :: first :: (bytes ++ (content ++ next)) =
      (tag :: (first :: bytes ++ content)) ++ next by simp]
    refine take_left' ?_
    simp only [length_cons, length_append]
    omega
  constructor
  · intro h
    match buf with
    | [] | [_] => cases h
    | tag :: first :: rest =>
      simp only [readOne, bind_eq_ok, require_eq_ok, exists_const, bne_iff_ne, Prod.exists,
        decide_eq_true_eq, Except.ok.injEq, Prod.mk.injEq] at h
      obtain ⟨htag, length, body, hlength, hlong, rfl, rfl⟩ := h
      obtain ⟨bytes, rfl, hoctets, hmin⟩ := readLength_eq_ok.mp hlength
      obtain ⟨content, next, rfl, rfl⟩ : ∃ content next, content ++ next = body ∧
          content.length = length :=
        ⟨_, _, take_append_drop length body, length_take_of_le hlong⟩
      simp only [take_left, drop_left, htake]
      exact ⟨⟨first :: bytes, ⟨hoctets, htag, rfl, rfl⟩, by simpa using hmin⟩, by simp⟩
  · rintro ⟨⟨octets, helement, hmin⟩, rfl⟩
    obtain ⟨first, bytes, rfl⟩ := helement.length.cons
    obtain ⟨tag, constructed, raw, content⟩ := node
    obtain ⟨hlength, htag, hconstructed, hraw⟩ := helement
    dsimp only at hlength htag hconstructed hraw hmin ⊢
    subst hconstructed hraw
    have hread := readLength_eq_ok.mpr
      ⟨bytes, (rfl : bytes ++ (content ++ next) = _), hlength, by simpa using hmin⟩
    simp only [cons_append, append_assoc, readOne, hread, bind_eq_ok, require_eq_ok,
      exists_const, bne_iff_ne, Prod.exists, decide_eq_true_eq, Except.ok.injEq, Prod.mk.injEq]
    refine ⟨htag, _, _, ⟨rfl, rfl⟩, by simp, ?_, by simp⟩
    simp only [take_left, drop_left, htake]
    simp

theorem Accepts.raw_ne_nil {r : DerReader} {node : DerNode} (h : Accepts r node) :
    node.raw ≠ [] := by
  obtain ⟨octets, helement, -⟩ := h
  simp [helement.raw]

theorem parseWith_eq_ok {r : DerReader} {input : Buffer} {node : DerNode} :
    parseWith r input = .ok node ↔ Accepts r node ∧ node.raw = input := by
  simp only [parseWith, bind_eq_ok, require_eq_ok, exists_const, Prod.exists, readOne_eq_ok,
    List.isEmpty_iff, Except.ok.injEq]
  constructor
  · rintro ⟨x, next, ⟨haccepts, rfl⟩, rfl, rfl⟩
    exact ⟨haccepts, by simp⟩
  · rintro ⟨haccepts, rfl⟩
    exact ⟨node, [], ⟨haccepts, by simp⟩, rfl, rfl⟩

/-- The loop of `children`, from the offset on. -/
def readAll (r : DerReader) (buf : Buffer) : Except String (List DerNode) :=
  if buf = [] then .ok []
  else
    match _h : readOne r buf with
    | .error e => .error e
    | .ok (node, next) => do
      let rest ← readAll r next
      .ok (node :: rest)
termination_by buf.length
decreasing_by
  obtain ⟨haccepts, rfl⟩ := readOne_eq_ok.mp _h
  have := length_pos_iff.mpr haccepts.raw_ne_nil
  rw [length_append]
  omega

def children (r : DerReader) (node : DerNode) : Except String (List DerNode) := do
  require node.constructed (r.notConstructed node.tag)
  readAll r node.content

theorem readAll_eq_ok {r : DerReader} {buf : Buffer} {nodes : List DerNode} :
    readAll r buf = .ok nodes ↔ (∀ x ∈ nodes, Accepts r x) ∧ buf = nodes.flatMap (·.raw) := by
  constructor
  · intro h
    fun_induction readAll r buf generalizing nodes with
    | case1 =>
      obtain rfl := Except.ok.inj h
      simp
    | case2 buf hne e hread => cases h
    | case3 buf hne node next hread ih =>
      obtain ⟨rest, hrest, h⟩ := bind_eq_ok.mp h
      obtain rfl := Except.ok.inj h
      obtain ⟨haccepts, rfl⟩ := readOne_eq_ok.mp hread
      obtain ⟨hall, rfl⟩ := ih hrest
      exact ⟨forall_mem_cons.mpr ⟨haccepts, hall⟩, rfl⟩
  · rintro ⟨hall, rfl⟩
    induction nodes with
    | nil => simp [readAll]
    | cons node rest ih =>
      obtain ⟨haccepts, hrest⟩ := forall_mem_cons.mp hall
      have hread := readOne_eq_ok.mpr ⟨haccepts, (rfl : node.raw ++ rest.flatMap (·.raw) = _)⟩
      rw [flatMap_cons, readAll, if_neg (by simp [haccepts.raw_ne_nil])]
      split
      · rename_i e he
        rw [hread] at he
        cases he
      · rename_i x next hx
        rw [hread] at hx
        obtain ⟨rfl, rfl⟩ := Prod.mk.inj (Except.ok.inj hx)
        rw [ih hrest]
        rfl

theorem children_eq_ok {r : DerReader} {node : DerNode} {nodes : List DerNode} :
    children r node = .ok nodes ↔ node.constructed = true ∧ (∀ x ∈ nodes, Accepts r x) ∧
      node.content = nodes.flatMap (·.raw) := by
  simp only [children, bind_eq_ok, require_eq_ok, exists_const, readAll_eq_ok]

/-! ## Reading what was written -/

def decodeInteger (node : DerNode) : Except String Int := do
  require (node.tag == 0x02) "expected an INTEGER"
  match node.content with
  | [] => .error "empty INTEGER"
  | b :: rest =>
    let value : Int := bigEndian (b :: rest)
    .ok (if b &&& 0x80 != 0 then value - 2 ^ ((rest.length + 1) * 8) else value)

/-- `nonceValue` of the time-stamp protocol. -/
def nonceValue (nonce : Buffer) : Nat := bigEndian nonce

/-- The node that an encoding is read as. -/
def element (tag : UInt8) (content : Buffer) : DerNode :=
  ⟨tag, tag &&& 0x20 != 0, tlv tag content, content⟩

theorem lengthOctets_encodeLength {n : Nat} (h : n < 2 ^ 32) : LengthOctets (encodeLength n) n := by
  unfold encodeLength
  split
  · rename_i hshort
    have hbyte := LengthOctets.short (UInt8.ofNat n) (by
      rw [UInt8.lt_iff_toNat_lt, toNat_ofNat (by omega)]
      exact hshort)
    rwa [toNat_ofNat (by omega)] at hbyte
  · rename_i hlong
    have hne : lengthBytes n ≠ [] := by
      intro hnil
      have := bigEndian_lengthBytes n
      simp [hnil, bigEndian, numeralValue] at this
      omega
    have hfour : (lengthBytes n).length ≤ 4 := by
      rw [lengthBytes, length_map, length_numeral_le (by omega)]
      omega
    have hpos := length_pos_iff.mpr hne
    have hoctets := LengthOctets.long (0x80 ||| UInt8.ofNat (lengthBytes n).length) (lengthBytes n)
    rw [bigEndian_lengthBytes] at hoctets
    generalize (lengthBytes n).length = k at hoctets hpos hfour
    obtain rfl | rfl | rfl | rfl : k = 1 ∨ k = 2 ∨ k = 3 ∨ k = 4 := by omega
    all_goals exact hoctets (by decide) (by decide) hne (by decide)

theorem accepts_element (r : DerReader) {tag : UInt8} {content : Buffer}
    (htag : tag &&& 0x1f ≠ 0x1f) (hlen : content.length < 2 ^ 32) :
    Accepts r (element tag content) := by
  refine ⟨_, ⟨lengthOctets_encodeLength hlen, htag, rfl, rfl⟩, fun _ => ?_⟩
  show (encodeLength content.length).length = 1 ∨ 0x80 ≤ content.length
  unfold encodeLength
  split
  · exact .inl rfl
  · exact .inr (by omega)

theorem parseWith_tlv (r : DerReader) {tag : UInt8} {content : Buffer}
    (htag : tag &&& 0x1f ≠ 0x1f) (hlen : content.length < 2 ^ 32) :
    parseWith r (tlv tag content) = .ok (element tag content) :=
  parseWith_eq_ok.mpr ⟨accepts_element r htag hlen, rfl⟩

/-- Items of a tag and a content that the readers read. -/
def Encodable (item : UInt8 × Buffer) : Prop :=
  item.1 &&& 0x1f ≠ 0x1f ∧ item.2.length < 2 ^ 32

theorem children_flatMap (r : DerReader) {outer : UInt8} {items : List (UInt8 × Buffer)}
    (houter : (outer &&& 0x20 != 0) = true) (hitems : ∀ i ∈ items, Encodable i) :
    children r (element outer (items.flatMap fun i => tlv i.1 i.2)) =
      .ok (items.map fun i => element i.1 i.2) := by
  refine children_eq_ok.mpr ⟨houter, ?_, ?_⟩
  · simp only [forall_mem_map]
    exact fun i hi => accepts_element r (hitems i hi).1 (hitems i hi).2
  · rw [flatMap_map]
    rfl

instance : Std.Total bufferLe := ⟨fun _ _ => bufferCompare_total _ _⟩

instance : IsTrans Buffer bufferLe := ⟨fun _ _ _ => bufferCompare_trans⟩

theorem bufferLe_antisymm {x y : Buffer} (h : bufferLe x y) (h' : bufferLe y x) : x = y :=
  map_injective_iff.mpr (fun _ _ => UInt8.toNat_inj.mp) (bufferCompare_antisymm h h')

theorem setOf_perm {items items' : List Buffer} (h : items.Perm items') :
    setOf items = setOf items' := by
  rw [setOf, setOf, insertionSort_eq_of_perm h fun _ _ _ _ => bufferLe_antisymm]

theorem bigEndian_zero_cons (bytes : Buffer) : bigEndian (0 :: bytes) = bigEndian bytes := by
  simp [bigEndian, numeralValue]

theorem bigEndian_stripZeros (bytes : Buffer) : bigEndian (stripZeros bytes) = bigEndian bytes := by
  fun_induction stripZeros bytes with
  | case1 b rest ih => rw [ih, bigEndian_zero_cons]
  | case2 => rfl
  | case3 => rfl

theorem decodeInteger_integerBytes (bytes : Buffer) :
    decodeInteger (element 0x02 (integerBytes bytes)) = .ok (nonceValue bytes) := by
  have hvalue := bigEndian_stripZeros bytes
  rw [nonceValue, ← hvalue, integerBytes]
  cases stripZeros bytes with
  | nil => rfl
  | cons b rest =>
    by_cases hsign : (b &&& 0x80 != 0) = true
    · simp only [hsign, if_true]
      rw [← bigEndian_zero_cons]
      rfl
    · simp [decodeInteger, element, require, hsign]

/-- **Reading is the inverse of writing**, for an element, for the elements of a
SEQUENCE or a context tag, for a SET OF and for an integer. -/
theorem parseWith_inverse (r : DerReader) :
    (∀ tag content, Encodable (tag, content) →
      parseWith r (tlv tag content) = .ok (element tag content)) ∧
    (∀ outer (items : List (UInt8 × Buffer)), (outer &&& 0x20 != 0) = true →
      (∀ i ∈ items, Encodable i) →
      let content := items.flatMap fun i => tlv i.1 i.2
      Encodable (outer, content) → ∃ node, parseWith r (tlv outer content) = .ok node ∧
        children r node = .ok (items.map fun i => element i.1 i.2)) ∧
    (∀ items items' : List (UInt8 × Buffer), (∀ i ∈ items, Encodable i) → items.Perm items' →
      let encodings := items.map fun i => tlv i.1 i.2
      setOf encodings = setOf (items'.map fun i => tlv i.1 i.2) ∧
      (encodings.flatten.length < 2 ^ 32 → ∃ node, ∃ sorted : List (UInt8 × Buffer),
        parseWith r (setOf encodings) = .ok node ∧
        sorted.Perm items ∧ (sorted.map fun i => tlv i.1 i.2).Pairwise bufferLe ∧
        children r node = .ok (sorted.map fun i => element i.1 i.2))) ∧
    (∀ bytes, (integerBytes bytes).length < 2 ^ 32 →
      ∃ node, parseWith r (encodeUnsignedInteger bytes) = .ok node ∧
        decodeInteger node = .ok (nonceValue bytes)) := by
  refine ⟨fun tag content h => parseWith_tlv r h.1 h.2, ?_, ?_, ?_⟩
  · intro outer items houter hitems content hcontent
    exact ⟨_, parseWith_tlv r hcontent.1 hcontent.2, children_flatMap r houter hitems⟩
  · intro items items' hitems hperm encodings
    refine ⟨setOf_perm (hperm.map _), fun hlen => ?_⟩
    let le := fun i j : UInt8 × Buffer => bufferLe (tlv i.1 i.2) (tlv j.1 j.2)
    let sorted := items.insertionSort le
    have hsorted : sorted.map (fun i => tlv i.1 i.2) = encodings.insertionSort bufferLe :=
      map_insertionSort le bufferLe _ _ fun _ _ _ _ => Iff.rfl
    have hmem : ∀ i ∈ sorted, Encodable i := fun i hi =>
      hitems i ((perm_insertionSort le items).mem_iff.mp hi)
    have hset : setOf encodings = tlv 0x31 (sorted.flatMap fun i => tlv i.1 i.2) := by
      rw [setOf, ← hsorted, flatMap]
    have hcontent : (sorted.flatMap fun i => tlv i.1 i.2).length < 2 ^ 32 := by
      rw [flatMap, hsorted, ((perm_insertionSort bufferLe encodings).flatten).length_eq]
      exact hlen
    have hchildren : children r (element 0x31 (sorted.flatMap fun i => tlv i.1 i.2)) =
        .ok (sorted.map fun i => element i.1 i.2) := children_flatMap r (by decide) hmem
    refine ⟨_, sorted, ?_, perm_insertionSort le items, ?_, hchildren⟩
    · rw [hset]
      exact parseWith_tlv r (by decide) hcontent
    · rw [hsorted]
      exact pairwise_insertionSort bufferLe encodings
  · intro bytes hlen
    exact ⟨_, parseWith_tlv r (by decide) hlen, decodeInteger_integerBytes bytes⟩

/-- Two OCTET STRINGs in a SEQUENCE and, out of order, in a SET OF, and an integer with its
first bit set. -/
theorem parseWith_inverse_twoBytes :
    (∃ node, parseDer (tlv 0x30 (tlv 0x04 [0x02] ++ tlv 0x04 [0x01])) = .ok node ∧
      children timestampReader node = .ok [element 0x04 [0x02], element 0x04 [0x01]]) ∧
    (∃ node, parseDer (setOf [tlv 0x04 [0x02], tlv 0x04 [0x01]]) = .ok node ∧
      setOf [tlv 0x04 [0x02], tlv 0x04 [0x01]] = setOf [tlv 0x04 [0x01], tlv 0x04 [0x02]]) ∧
    ∃ node, parseDer (encodeUnsignedInteger [0x80, 0x01]) = .ok node ∧
      decodeInteger node = .ok (nonceValue [0x80, 0x01]) := by
  obtain ⟨-, hsequence, hset, hinteger⟩ := parseWith_inverse timestampReader
  have hitems : ∀ i ∈ [((0x04 : UInt8), ([0x02] : Buffer)), (0x04, [0x01])], Encodable i := by
    unfold Encodable
    decide
  obtain ⟨hsame, hread⟩ := hset _ _ hitems (.swap _ _ [])
  obtain ⟨node, _, hparse, -⟩ := hread (by decide)
  exact ⟨hsequence 0x30 _ (by decide) hitems ⟨by decide, by decide⟩, ⟨node, hparse, hsame⟩,
    hinteger _ (by decide)⟩

/-! ## Reading only what is written -/

/-- Length octets that the writers do not write: a long form with a leading
zero, or of a length below 128. -/
def redundant : Buffer → Bool
  | _ :: d :: rest => d == 0 || (rest.isEmpty && d < 0x80)
  | _ => false

theorem high_or_low {b : UInt8} (h : ¬ b < 0x80) : 0x80 ||| b &&& 0x7f = b := by
  obtain ⟨⟨b⟩⟩ := b
  revert b
  decide +kernel

theorem LengthOctets.eq_encodeLength_iff {octets : Buffer} {n : Nat} (h : LengthOctets octets n) :
    octets = encodeLength n ↔ redundant octets = false := by
  cases h with
  | short b hb =>
    have : b.toNat < 0x80 := hb
    simp [encodeLength, redundant, this]
  | long first bytes hfirst hcount hne hfour =>
    obtain ⟨d, rest, rfl⟩ := exists_cons_of_ne_nil hne
    have hsingle : bigEndian [d] = d.toNat := by simp [bigEndian, numeralValue]
    simp only [redundant, Bool.or_eq_false_iff, beq_eq_false_iff_ne, Bool.and_eq_false_iff,
      isEmpty_eq_false_iff, decide_eq_false_iff_not, UInt8.lt_iff_toNat_lt]
    constructor
    · intro heq
      unfold encodeLength at heq
      split at heq
      · simp at heq
      · rename_i hlong
        have hbytes := (List.cons.inj heq).2
        have hhead := numeral_head 256 (bigEndian (d :: rest))
        rw [← map_toNat_lengthBytes, ← hbytes] at hhead
        refine ⟨fun hd => hhead (by simp [hd]), ?_⟩
        by_cases hrest : rest = []
        · subst hrest
          rw [hsingle] at hlong
          exact .inr hlong
        · exact .inl hrest
    · rintro ⟨hd, hvalue⟩
      have hbytes : lengthBytes (bigEndian (d :: rest)) = d :: rest :=
        lengthBytes_bigEndian (by simpa using hd)
      have hlong : ¬ bigEndian (d :: rest) < 0x80 := by
        intro hshort
        have hone : (lengthBytes (bigEndian (d :: rest))).length ≤ 1 := by
          rw [lengthBytes, length_map, length_numeral_le (by omega)]
          omega
        rw [hbytes] at hone
        obtain rfl : rest = [] := eq_nil_of_length_eq_zero (by simpa using hone)
        exact hvalue.resolve_left (by simp) (hsingle ▸ hshort)
      rw [encodeLength, if_neg hlong, hbytes, ← hcount, UInt8.ofNat_toNat, high_or_low hfirst]

/-- What a reader reads of an input: its top-level element, and what
`children` gives of what it has read. -/
def Reads (r : DerReader) (input : Buffer) (node : DerNode) : Prop :=
  ∃ top, parseWith r input = .ok top ∧
    Relation.ReflTransGen (fun x y => ∃ nodes, children r x = .ok nodes ∧ y ∈ nodes) top node

/-- Every element that is read is what the writer makes of its tag and content,
and the two readers read the same elements. -/
def StrictlyRead (input : Buffer) : Prop :=
  (∀ node, Reads sealReader input node → tlv node.tag node.content = node.raw) ∧
  (∀ node, Reads timestampReader input node → tlv node.tag node.content = node.raw) ∧
  ∀ node, Reads sealReader input node ↔ Reads timestampReader input node

theorem Reads.accepts {r : DerReader} {input : Buffer} {node : DerNode} (h : Reads r input node) :
    Accepts r node := by
  obtain ⟨top, hparse, hpath⟩ := h
  cases hpath with
  | refl => exact (parseWith_eq_ok.mp hparse).1
  | tail _ hstep =>
    obtain ⟨nodes, hchildren, hnode⟩ := hstep
    exact (children_eq_ok.mp hchildren).2.1 node hnode

/-- A reader that accepts every element that another one reads reads them, too. -/
theorem Reads.mono {r r' : DerReader} {input : Buffer}
    (h : ∀ x, Reads r input x → Accepts r' x) {node : DerNode} (hnode : Reads r input node) :
    Reads r' input node := by
  obtain ⟨top, hparse, hpath⟩ := hnode
  refine ⟨top, parseWith_eq_ok.mpr ⟨h top ⟨top, hparse, .refl⟩, (parseWith_eq_ok.mp hparse).2⟩, ?_⟩
  induction hpath with
  | refl => exact .refl
  | tail hpath hstep ih =>
    obtain ⟨nodes, hchildren, hy⟩ := hstep
    obtain ⟨hconstructed, -, hcontent⟩ := children_eq_ok.mp hchildren
    exact ih.tail ⟨nodes, children_eq_ok.mpr ⟨hconstructed, fun z hz =>
      h z ⟨top, hparse, hpath.tail ⟨nodes, hchildren, hz⟩⟩, hcontent⟩, hy⟩

/-- The elements of an input, at any depth: of a constructed element those that
its content consists of. -/
def HasElement (input octets : Buffer) (node : DerNode) : Prop :=
  Element octets node ∧ ∃ top, ((∃ o, Element o top) ∧ top.raw = input) ∧
    Relation.ReflTransGen (fun x y => ∃ nodes : List DerNode, (x.constructed = true ∧
      (∀ z ∈ nodes, ∃ o, Element o z) ∧ x.content = nodes.flatMap (·.raw)) ∧ y ∈ nodes) top node

theorem accepts_seal {node : DerNode} :
    Accepts sealReader node ↔ ∃ octets, Element octets node :=
  exists_congr fun _ => and_iff_left_of_imp fun _ h => absurd h (by decide)

theorem reads_seal {input : Buffer} {node : DerNode} :
    Reads sealReader input node ↔ ∃ octets, HasElement input octets node := by
  constructor
  · intro h
    obtain ⟨octets, helement⟩ := accepts_seal.mp h.accepts
    simp only [Reads, parseWith_eq_ok, children_eq_ok, accepts_seal] at h
    exact ⟨octets, helement, h⟩
  · rintro ⟨octets, -, h⟩
    simp only [Reads, parseWith_eq_ok, children_eq_ok, accepts_seal]
    exact h

/-- **The readers are strict exactly on the inputs without a redundant length.** -/
theorem strictlyRead_iff (input : Buffer) :
    StrictlyRead input ↔ ∀ octets node, HasElement input octets node →
      redundant octets = false := by
  constructor
  · intro hstrict octets node h
    have hraw := hstrict.1 node (reads_seal.mpr ⟨octets, h⟩)
    rw [h.1.raw, tlv] at hraw
    exact h.1.length.eq_encodeLength_iff.mp (append_cancel_right (List.cons.inj hraw).2).symm
  · intro h
    have hlength : ∀ node, Reads sealReader input node →
        Element (encodeLength node.content.length) node := by
      intro node hnode
      obtain ⟨octets, hel⟩ := reads_seal.mp hnode
      exact hel.1.length.eq_encodeLength_iff.mpr (h octets node hel) ▸ hel.1
    have hboth : ∀ node, Reads sealReader input node ↔ Reads timestampReader input node := by
      refine fun node => ⟨fun hnode => hnode.mono fun x hx => ⟨_, hlength x hx, fun _ => ?_⟩,
        fun hnode => hnode.mono fun x hx => ?_⟩
      · unfold encodeLength
        split
        · exact .inl rfl
        · exact .inr (by omega)
      · obtain ⟨octets, helement, -⟩ := hx.accepts
        exact accepts_seal.mpr ⟨octets, helement⟩
    have hwritten : ∀ node, Reads sealReader input node → tlv node.tag node.content = node.raw :=
      fun node hnode => (hlength node hnode).raw.symm
    exact ⟨hwritten, fun node hnode => hwritten node ((hboth node).mpr hnode), hboth⟩

/-- The seal reader reads the long form of the length 1. -/
theorem redundant_length_read : ¬ ∀ input, StrictlyRead input := by
  intro hclaim
  let input : Buffer := [0x04, 0x81, 0x01, 0x00]
  have hwritten := (hclaim input).1 ⟨0x04, false, input, [0x00]⟩ ⟨_, rfl, .refl⟩
  exact absurd hwritten (by decide)

end AramoPlatform.Sign
