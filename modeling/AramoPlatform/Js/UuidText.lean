import AramoPlatform.Js.Text

/-!
# UUIDs as text

A column of type `uuid` stores a number of thirty-two hexadecimal digits, and
gives it back as text in one form: lower case, in five groups. It takes more
than that form in, so two texts may name one row.
-/

namespace AramoPlatform.Js

structure StoredUuid where
  digits : List (Fin 16)
  length_digits : digits.length = 32
  deriving DecidableEq

namespace StoredUuid

def digitUnit (d : Fin 16) : UInt16 := (if d.val < 10 then 48 + d.val else 87 + d.val).toUInt16

/-- A hexadecimal digit of either case. -/
def unitDigit? (u : UInt16) : Option (Fin 16) :=
  if h : 48 ≤ u.toNat ∧ u.toNat ≤ 57 then some ⟨u.toNat - 48, by omega⟩
  else if h : 97 ≤ u.toNat ∧ u.toNat ≤ 102 then some ⟨u.toNat - 87, by omega⟩
  else if h : 65 ≤ u.toNat ∧ u.toNat ≤ 70 then some ⟨u.toNat - 55, by omega⟩
  else none

theorem unitDigit?_digitUnit (d : Fin 16) : unitDigit? (digitUnit d) = some d := by
  revert d
  decide

/-- Five groups, with a hyphen between each two. -/
def joinGroups (a b c d e : JsString) : JsString :=
  a ++ 45 :: (b ++ 45 :: (c ++ 45 :: (d ++ 45 :: e)))

/-- The text of a stored id. -/
def text (id : StoredUuid) : JsString :=
  let units := id.digits.map digitUnit
  joinGroups (units.take 8) ((units.drop 8).take 4) ((units.drop 12).take 4)
    ((units.drop 16).take 4) (units.drop 20)

/-- The units of text in five groups, without the hyphens. -/
def splitGroups? (s : JsString) : Option JsString :=
  if s.length = 36 ∧ s[8]? = some 45 ∧ s[13]? = some 45 ∧ s[18]? = some 45 ∧ s[23]? = some 45 then
    some (s.take 8 ++ (s.drop 9).take 4 ++ (s.drop 14).take 4 ++ (s.drop 19).take 4 ++ s.drop 24)
  else none

/-- An id from text in five groups, in upper or lower case. -/
def ofGroups? (s : JsString) : Option StoredUuid :=
  (splitGroups? s).bind fun units => (units.mapM unitDigit?).bind fun digits =>
    if h : digits.length = 32 then some ⟨digits, h⟩ else none

/-- The id with a number. -/
def ofNat (n : Nat) : StoredUuid :=
  ⟨(List.range 32).map fun i => Fin.ofNat 16 (n / Nat.pow 16 (31 - i)), by simp⟩

example : (ofNat 0x12345678abcd0000ffff00000000000a).text =
    js "12345678-abcd-0000-ffff-00000000000a" := by
  decide +kernel

example : ofGroups? (js "12345678-ABCD-0000-ffff-00000000000A") =
    some (ofNat 0x12345678abcd0000ffff00000000000a) := by
  decide +kernel

theorem splitGroups?_joinGroups {a b c d e : JsString} (ha : a.length = 8) (hb : b.length = 4)
    (hc : c.length = 4) (hd : d.length = 4) (he : e.length = 12) :
    splitGroups? (joinGroups a b c d e) = some (a ++ b ++ c ++ d ++ e) := by
  have hmarks : (joinGroups a b c d e).length = 36 ∧ (joinGroups a b c d e)[8]? = some 45 ∧
      (joinGroups a b c d e)[13]? = some 45 ∧ (joinGroups a b c d e)[18]? = some 45 ∧
      (joinGroups a b c d e)[23]? = some 45 := by
    simp [joinGroups, ha, hb, hc, hd, he]
  rw [splitGroups?, if_pos hmarks]
  have hshort : ∀ (group : JsString) (n : Nat), group.length ≤ n → group.drop n = [] :=
    fun _ _ => List.drop_eq_nil_of_le
  simp [joinGroups, List.drop_append, hshort, ha, hb, hc, hd]

theorem mapM_unitDigit? (digits : List (Fin 16)) :
    (digits.map digitUnit).mapM unitDigit? = some digits := by
  induction digits with
  | nil => rfl
  | cons d rest ih => simp [List.map_cons, List.mapM_cons, unitDigit?_digitUnit, ih]

theorem ofGroups?_text (id : StoredUuid) : ofGroups? id.text = some id := by
  obtain ⟨digits, hlength⟩ := id
  have hunits : (digits.map digitUnit).length = 32 := by rw [List.length_map, hlength]
  have hwhole : ∀ units : JsString, units.take 8 ++ (units.drop 8).take 4 ++
    (units.drop 12).take 4 ++
      (units.drop 16).take 4 ++ units.drop 20 = units := by
    intro units
    rw [← List.take_add, ← List.take_add, ← List.take_add, List.take_append_drop]
  have hsplit : splitGroups? (text ⟨digits, hlength⟩) = some (digits.map digitUnit) := by
    rw [text, splitGroups?_joinGroups, hwhole]
    all_goals simp [hlength]
  rw [ofGroups?, hsplit, Option.bind_some, mapM_unitDigit?, Option.bind_some, dif_pos hlength]

theorem text_injective {a b : StoredUuid} (h : a.text = b.text) : a = b := by
  have hsame := ofGroups?_text b
  rw [← h, ofGroups?_text] at hsame
  exact Option.some.inj hsame

end StoredUuid

end AramoPlatform.Js
