import AramoPlatform.Js.Decimal
import AramoPlatform.Js.KeyOrder
import AramoPlatform.Js.Stringify

/-!
# Reading objects

What a validator reads of a value it does not know: whether it is an object,
its property of a name, its own keys, and whether a number is a safe integer.
-/

namespace AramoPlatform.Js

namespace JsVal

/-- Neither `null`, nor an array, nor a primitive. -/
def isObj : JsVal → Bool
  | .obj _ => true
  | _ => false

def keys : JsVal → List JsString
  | .obj members => (ownKeys members).map (·.1)
  | _ => []

/-- `v[k]`, for a name that no prototype has. -/
def prop (v : JsVal) (k : String) : JsVal :=
  match v with
  | .obj members => ((members.find? (·.1 == js k)).map (·.2)).getD .undefined
  | _ => .undefined

/-- `k in v`, likewise. -/
def hasProp (v : JsVal) (k : String) : Bool :=
  match v with
  | .obj members => members.any (·.1 == js k)
  | _ => false

end JsVal

/-- The value of an integer's text; a fraction or an exponent has none. -/
def integerOf (n : JsNum) : Option Int :=
  match n.text with
  | 0x2D :: digits => if digits.all isDigit then some (-(digitsValue digits : Int)) else none
  | digits => if digits.all isDigit then some (digitsValue digits) else none

/-- The value of a number that `Number.isSafeInteger` accepts. -/
def JsVal.safeInteger : JsVal → Option Int
  | .num n => (integerOf n).filter fun x => decide (x.natAbs < 2 ^ 53)
  | _ => none

/-- `sort()` on strings. -/
def sortUnits (l : List JsString) : List JsString := l.insertionSort fun x y => unitsLe x y = true

/-- `join`. -/
def joinWith (sep : JsString) : List JsString → JsString
  | [] => []
  | [s] => s
  | s :: rest => s ++ sep ++ joinWith sep rest

example : JsVal.safeInteger (.num ⟨js "-12", by decide, by decide⟩) = some (-12) := by decide

/-! ## Texts put together with `join` -/

theorem joinWith_elems (part : JsString) (rest : List Json) :
    joinWith (js ",") (part :: rest.map print) ++ [0x5D] = part ++ printElems rest := by
  induction rest generalizing part with
  | nil => rfl
  | cons v rest ih =>
    simp only [List.map_cons, joinWith, printElems, List.append_assoc, ih]
    rfl

theorem joinWith_members (part : JsString) (rest : List (JsString × Json)) :
    joinWith (js ",") (part :: rest.map fun m => quote m.1 ++ 0x3A :: print m.2) ++ [0x7D] =
      part ++ printMembers rest := by
  induction rest generalizing part with
  | nil => rfl
  | cons m rest ih =>
    simp only [List.map_cons, joinWith, printMembers, List.append_assoc, List.cons_append, ih]
    rfl

theorem print_arr (l : List Json) :
    print (.arr l) = 0x5B :: (joinWith (js ",") (l.map print) ++ [0x5D]) := by
  cases l with
  | nil => decide
  | cons v rest => rw [List.map_cons, joinWith_elems, print]

theorem print_obj (ms : List (JsString × Json)) :
    print (.obj ms) =
      0x7B :: (joinWith (js ",") (ms.map fun m => quote m.1 ++ 0x3A :: print m.2) ++ [0x7D]) := by
  cases ms with
  | nil => decide
  | cons m rest => rw [List.map_cons, joinWith_members, print, List.append_assoc, List.cons_append]

end AramoPlatform.Js
