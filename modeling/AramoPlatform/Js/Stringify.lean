import AramoPlatform.Js.Value

/-!
# `JSON.stringify`

The serialiser in two stages: `toJson` reads a value the way
`SerializeJSONProperty` does (members in enumeration order, `undefined`
members dropped, `undefined` elements written as `null`), and `print` writes
the resulting tree. Printing is prefix-free: the text of a tree, followed by
a closing bracket, a comma or the end, determines the tree
(`print_append_inj`). So `JSON.stringify` loses nothing that `toJson` keeps.
-/

namespace AramoPlatform.Js

/-- The tree a JSON text is written from. -/
inductive Json where
  | null
  | bool (b : Bool)
  | num (n : JsNum)
  | str (s : JsString)
  | arr (elems : List Json)
  | obj (members : List (JsString × Json))

mutual
/-- `SerializeJSONProperty`, up to the text. A value that JSON cannot write
is `null` where it stands as an element. -/
def toJson : JsVal → Json
  | .undefined => .null
  | .null => .null
  | .bool b => .bool b
  | .num n => .num n
  | .str s => .str s
  | .arr elems => .arr (toJsonElems elems)
  | .obj members => .obj (ownKeys (toJsonMembers members))
termination_by structural v => v

def toJsonElems : List JsVal → List Json
  | [] => []
  | v :: rest => toJson v :: toJsonElems rest
termination_by structural l => l

def toJsonMembers : List (JsString × JsVal) → List (JsString × Json)
  | [] => []
  | (k, v) :: rest =>
      if v.isUndefined then toJsonMembers rest else (k, toJson v) :: toJsonMembers rest
termination_by structural l => l
end

mutual
/-- The text of a tree, without white space. -/
def print : Json → JsString
  | .null => js "null"
  | .bool true => js "true"
  | .bool false => js "false"
  | .num n => n.text
  | .str s => quote s
  | .arr [] => js "[]"
  | .arr (v :: rest) => 0x5B :: (print v ++ printElems rest)
  | .obj [] => js "\x7b\x7d"
  | .obj ((k, v) :: rest) => 0x7B :: (quote k ++ 0x3A :: (print v ++ printMembers rest))
termination_by structural j => j

/-- The elements after the first, and the closing bracket. -/
def printElems : List Json → JsString
  | [] => [0x5D]
  | v :: rest => 0x2C :: (print v ++ printElems rest)
termination_by structural l => l

/-- The members after the first, and the closing brace. -/
def printMembers : List (JsString × Json) → JsString
  | [] => [0x7D]
  | (k, v) :: rest => 0x2C :: (quote k ++ 0x3A :: (print v ++ printMembers rest))
termination_by structural l => l
end

def stringify (v : JsVal) : JsString := print (toJson v)

/-! ## What `toJson` keeps -/

theorem toJsonElems_eq (l : List JsVal) : toJsonElems l = l.map toJson := by
  induction l with
  | nil => simp [toJsonElems]
  | cons v rest ih => simp [toJsonElems, ih]

theorem toJsonMembers_eq (ms : List (JsString × JsVal)) :
    toJsonMembers ms = (ms.filter fun m => !m.2.isUndefined).map fun m => (m.1, toJson m.2) := by
  induction ms with
  | nil => simp [toJsonMembers]
  | cons m rest ih =>
    obtain ⟨k, v⟩ := m
    by_cases hv : v.isUndefined <;> simp [toJsonMembers, hv, ih]

/-! ## Printing is prefix-free -/

/-- What may follow a printed tree: the end, a comma or a closing bracket. -/
def Stops (r : JsString) : Prop :=
  ∀ u ∈ r.head?, u = 0x2C ∨ u = 0x5D ∨ u = 0x7D

/-- The constructor that a text starting with `u` is printed from; 7 when
there is none. -/
def headClass (u : UInt16) : Nat :=
  if isNumUnit u then 6
  else if u = 0x6E then 0 else if u = 0x74 then 1 else if u = 0x66 then 2
  else if u = 0x22 then 3 else if u = 0x5B then 4 else if u = 0x7B then 5 else 7

def Json.shape : Json → Nat
  | .null => 0
  | .bool b => if b then 1 else 2
  | .str _ => 3
  | .arr _ => 4
  | .obj _ => 5
  | .num _ => 6

theorem Json.shape_ne_seven (j : Json) : j.shape ≠ 7 := by
  cases j with
  | bool b => cases b <;> decide
  | _ => simp [Json.shape]

theorem print_head (j : Json) : ∃ u t, print j = u :: t ∧ headClass u = j.shape := by
  cases j with
  | null => exact ⟨_, _, rfl, by decide⟩
  | bool b => cases b <;> exact ⟨_, _, rfl, by decide⟩
  | str s => exact ⟨0x22, quoteBody s ++ [0x22], rfl, rfl⟩
  | arr elems => cases elems <;> exact ⟨_, _, rfl, rfl⟩
  | obj members => cases members <;> exact ⟨_, _, rfl, rfl⟩
  | num n =>
    obtain ⟨text, hne, hnum⟩ := n
    cases text with
    | nil => exact absurd rfl hne
    | cons u t =>
      simp only [List.all_cons, Bool.and_eq_true] at hnum
      exact ⟨u, t, rfl, by simp [headClass, hnum.1, Json.shape]⟩

theorem shape_eq_of_print {j j' : Json} {r r' : JsString} (h : print j ++ r = print j' ++ r') :
    j.shape = j'.shape := by
  obtain ⟨u, t, hj, hu⟩ := print_head j
  obtain ⟨u', t', hj', hu'⟩ := print_head j'
  rw [hj, hj'] at h
  simp only [List.cons_append, List.cons.injEq] at h
  rw [← hu, ← hu', h.1]

theorem num_append_inj {t t' r r' : JsString} (ht : t.all isNumUnit = true)
    (ht' : t'.all isNumUnit = true) (hr : Stops r) (hr' : Stops r') (h : t ++ r = t' ++ r') :
    t = t' ∧ r = r' := by
  have hstop : ∀ s : JsString, Stops s → s.takeWhile isNumUnit = [] := by
    intro s hs
    cases s with
    | nil => rfl
    | cons u s =>
      have hu : isNumUnit u = false := by
        rcases hs u rfl with rfl | rfl | rfl <;> decide
      simp [hu]
  have htake : ∀ t r : JsString, t.all isNumUnit = true → Stops r →
      (t ++ r).takeWhile isNumUnit = t := by
    intro t r ht hr
    rw [List.takeWhile_append_of_pos (by simpa using ht), hstop r hr, List.append_nil]
  have heq : t = t' := by
    rw [← htake t r ht hr, h, htake t' r' ht' hr']
  subst heq
  exact ⟨rfl, List.append_cancel_left h⟩

theorem stops_printElems (l : List Json) (r : JsString) : Stops (printElems l ++ r) := by
  cases l <;> simp [printElems, Stops]

theorem stops_printMembers (ms : List (JsString × Json)) (r : JsString) :
    Stops (printMembers ms ++ r) := by
  cases ms with
  | nil | cons => simp [printMembers, Stops]

theorem print_ne_of_headClass {j : Json} {u : UInt16} {t r : JsString} (hu : headClass u = 7) :
    u :: t ≠ print j ++ r := by
  intro h
  obtain ⟨w, t', hj, hw⟩ := print_head j
  rw [hj] at h
  simp only [List.cons_append, List.cons.injEq] at h
  rw [← h.1, hu] at hw
  exact j.shape_ne_seven hw.symm

mutual
/-- **A printed tree determines the tree** and where its text ends. -/
theorem print_append_inj : ∀ (j j' : Json) {r r' : JsString}, Stops r → Stops r' →
    print j ++ r = print j' ++ r' → j = j' ∧ r = r'
  | .null, j', r, r', _, _, h => by
    have hs := shape_eq_of_print h
    cases j' with
    | null => exact ⟨rfl, List.append_cancel_left h⟩
    | bool b => cases b <;> simp [Json.shape] at hs
    | _ => simp [Json.shape] at hs
  | .bool b, j', r, r', _, _, h => by
    have hs := shape_eq_of_print h
    cases j' with
    | bool b' =>
      have hb : b = b' := by cases b <;> cases b' <;> simp_all [Json.shape]
      subst hb
      exact ⟨rfl, List.append_cancel_left h⟩
    | _ => cases b <;> simp [Json.shape] at hs
  | .num n, j', r, r', hr, hr', h => by
    have hs := shape_eq_of_print h
    cases j' with
    | num n' =>
      obtain ⟨ht, hrr⟩ := num_append_inj n.numeric n'.numeric hr hr' h
      exact ⟨by cases n; cases n'; simp_all, hrr⟩
    | bool b => cases b <;> simp [Json.shape] at hs
    | _ => simp [Json.shape] at hs
  | .str s, j', r, r', _, _, h => by
    have hs := shape_eq_of_print h
    cases j' with
    | str s' =>
      obtain ⟨rfl, hrr⟩ := quote_append_inj h
      exact ⟨rfl, hrr⟩
    | bool b => cases b <;> simp [Json.shape] at hs
    | _ => simp [Json.shape] at hs
  | .arr l, j', r, r', _, _, h => by
    have hs := shape_eq_of_print h
    cases j' with
    | arr l' =>
      cases l with
      | nil =>
        cases l' with
        | nil => exact ⟨rfl, List.append_cancel_left h⟩
        | cons v' rest' =>
          simp only [print, js, List.cons_append, List.append_assoc] at h
          exact absurd (List.cons.inj h).2 (print_ne_of_headClass (by decide))
      | cons v rest =>
        cases l' with
        | nil =>
          simp only [print, js, List.cons_append, List.append_assoc] at h
          exact absurd (List.cons.inj h).2.symm (print_ne_of_headClass (by decide))
        | cons v' rest' =>
          simp only [print, List.cons_append, List.append_assoc, List.cons.injEq, true_and] at h
          obtain ⟨rfl, htail⟩ := print_append_inj v v' (stops_printElems rest r)
            (stops_printElems rest' r') h
          obtain ⟨rfl, hrr⟩ := printElems_append_inj rest rest' htail
          exact ⟨rfl, hrr⟩
    | bool b => cases b <;> simp [Json.shape] at hs
    | _ => simp [Json.shape] at hs
  | .obj ms, j', r, r', _, _, h => by
    have hs := shape_eq_of_print h
    cases j' with
    | obj ms' =>
      match ms, ms', h with
      | [], [], h => exact ⟨rfl, List.append_cancel_left h⟩
      | [], (k', v') :: rest', h =>
        simp only [print, js, quote, List.cons_append, List.append_assoc] at h
        exact absurd (List.cons.inj (List.cons.inj h).2).1 (by decide)
      | (k, v) :: rest, [], h =>
        simp only [print, js, quote, List.cons_append, List.append_assoc] at h
        exact absurd (List.cons.inj (List.cons.inj h).2).1 (by decide)
      | (k, v) :: rest, (k', v') :: rest', h =>
        simp only [print, List.cons_append, List.append_assoc, List.cons.injEq, true_and] at h
        obtain ⟨rfl, hval⟩ := quote_append_inj h
        obtain ⟨rfl, htail⟩ := print_append_inj v v' (stops_printMembers rest r)
          (stops_printMembers rest' r') (List.cons.inj hval).2
        obtain ⟨rfl, hrr⟩ := printMembers_append_inj rest rest' htail
        exact ⟨rfl, hrr⟩
    | bool b => cases b <;> simp [Json.shape] at hs
    | _ => simp [Json.shape] at hs

theorem printElems_append_inj : ∀ (l l' : List Json) {r r' : JsString},
    printElems l ++ r = printElems l' ++ r' → l = l' ∧ r = r'
  | [], [], r, r', h => ⟨rfl, List.append_cancel_left h⟩
  | [], v' :: rest', r, r', h => by
    simp only [printElems, List.cons_append] at h
    exact absurd (List.cons.inj h).1 (by decide)
  | v :: rest, [], r, r', h => by
    simp only [printElems, List.cons_append] at h
    exact absurd (List.cons.inj h).1 (by decide)
  | v :: rest, v' :: rest', r, r', h => by
    simp only [printElems, List.cons_append, List.append_assoc, List.cons.injEq, true_and] at h
    obtain ⟨rfl, htail⟩ := print_append_inj v v' (stops_printElems rest r)
      (stops_printElems rest' r') h
    obtain ⟨rfl, hrr⟩ := printElems_append_inj rest rest' htail
    exact ⟨rfl, hrr⟩

theorem printMembers_append_inj : ∀ (ms ms' : List (JsString × Json)) {r r' : JsString},
    printMembers ms ++ r = printMembers ms' ++ r' → ms = ms' ∧ r = r'
  | [], [], r, r', h => ⟨rfl, List.append_cancel_left h⟩
  | [], (k', v') :: rest', r, r', h => by
    simp only [printMembers, List.cons_append] at h
    exact absurd (List.cons.inj h).1 (by decide)
  | (k, v) :: rest, [], r, r', h => by
    simp only [printMembers, List.cons_append] at h
    exact absurd (List.cons.inj h).1 (by decide)
  | (k, v) :: rest, (k', v') :: rest', r, r', h => by
    simp only [printMembers, List.cons_append, List.append_assoc, List.cons.injEq, true_and] at h
    obtain ⟨rfl, hval⟩ := quote_append_inj h
    obtain ⟨rfl, htail⟩ := print_append_inj v v' (stops_printMembers rest r)
      (stops_printMembers rest' r') (List.cons.inj hval).2
    obtain ⟨rfl, hrr⟩ := printMembers_append_inj rest rest' htail
    exact ⟨rfl, hrr⟩
end

theorem print_injective {j j' : Json} (h : print j = print j') : j = j' := by
  have hnil : Stops [] := by simp [Stops]
  exact (print_append_inj j j' hnil hnil (by rw [h])).1

/-! ## Numbers beyond the doubles -/

/-- `JSON.parse` reads a numeral beyond the doubles as `Infinity`, which has no
digits of its own. The numeral stands for it. -/
def isInfinite (n : JsNum) : Bool := n.text == js "1e309" || n.text == js "-1e309"

mutual
/-- What `SerializeJSONProperty` makes of numbers: one that is not finite is
`null`. -/
def finiteOrNull : JsVal → JsVal
  | .num n => if isInfinite n then .null else .num n
  | .arr elems => .arr (finiteElems elems)
  | .obj members => .obj (finiteMembers members)
  | v => v
termination_by structural v => v

def finiteElems : List JsVal → List JsVal
  | [] => []
  | v :: rest => finiteOrNull v :: finiteElems rest
termination_by structural l => l

def finiteMembers : List (JsString × JsVal) → List (JsString × JsVal)
  | [] => []
  | (k, v) :: rest => (k, finiteOrNull v) :: finiteMembers rest
termination_by structural l => l
end

theorem finiteElems_eq (l : List JsVal) : finiteElems l = l.map finiteOrNull := by
  induction l with
  | nil => simp [finiteElems]
  | cons v rest ih => simp [finiteElems, ih]

theorem finiteMembers_eq (ms : List (JsString × JsVal)) :
    finiteMembers ms = ms.map fun m => (m.1, finiteOrNull m.2) := by
  induction ms with
  | nil => simp [finiteMembers]
  | cons m rest ih => simp [finiteMembers, ih]

theorem nodup_finiteMembers {ms : List (JsString × JsVal)} (hnd : (ms.map Prod.fst).Nodup) :
    ((finiteMembers ms).map Prod.fst).Nodup := by
  simpa [finiteMembers_eq, Function.comp_def] using hnd

theorem wf_finiteOrNull {v : JsVal} (h : v.wf = true) : (finiteOrNull v).wf = true := by
  induction v with
  | num n => by_cases hn : isInfinite n <;> simp [finiteOrNull, hn, JsVal.wf]
  | arr l ih =>
    simp only [finiteOrNull, finiteElems_eq, JsVal.wf_arr, List.forall_mem_map] at h ⊢
    exact fun v hv => ih v hv (h v hv)
  | obj ms ih =>
    obtain ⟨hnd, hwf⟩ := JsVal.wf_obj.mp h
    refine JsVal.wf_obj.mpr ⟨nodup_finiteMembers hnd, ?_⟩
    simp only [finiteMembers_eq, List.forall_mem_map]
    exact fun m hm => ih m hm (hwf m hm)
  | _ => rfl

@[simp] theorem isUndefined_finiteOrNull (v : JsVal) :
    (finiteOrNull v).isUndefined = v.isUndefined := by
  cases v with
  | num n => by_cases hn : isInfinite n <;> simp [finiteOrNull, hn, JsVal.isUndefined]
  | _ => simp [finiteOrNull, JsVal.isUndefined]

theorem defines_finiteMembers {ms : List (JsString × JsVal)} {k : JsString} {x : JsVal} :
    JsVal.Defines (finiteMembers ms) k x ↔ ∃ v, JsVal.Defines ms k v ∧ x = finiteOrNull v := by
  simp only [JsVal.Defines, finiteMembers_eq, List.mem_map, Prod.mk.injEq,
    ← JsVal.isUndefined_eq_false]
  constructor
  · rintro ⟨⟨m, hm, rfl, rfl⟩, hdef⟩
    exact ⟨m.2, ⟨hm, (isUndefined_finiteOrNull _).symm.trans hdef⟩, rfl⟩
  · rintro ⟨v, ⟨hv, hdef⟩, rfl⟩
    exact ⟨⟨(k, v), hv, rfl, rfl⟩, (isUndefined_finiteOrNull v).trans hdef⟩

theorem sameJson_finiteOrNull {v w : JsVal} (h : SameJson v w) :
    SameJson (finiteOrNull v) (finiteOrNull w) := by
  induction h with
  | nullish hn hn' =>
    rcases hn with rfl | rfl <;> rcases hn' with rfl | rfl <;> exact .nullish
      (by simp [finiteOrNull])
      (by simp [finiteOrNull])
  | bool b => exact .bool b
  | num n => exact .refl (wf_finiteOrNull rfl)
  | str s => exact .str s
  | arr hlen _ ih =>
    simp only [finiteOrNull, finiteElems_eq]
    refine .arr (by simp [hlen]) fun i x y hx hy => ?_
    simp only [List.getElem?_map, Option.map_eq_some_iff] at hx hy
    obtain ⟨a, ha, rfl⟩ := hx
    obtain ⟨b, hb, rfl⟩ := hy
    exact ih i a b ha hb
  | obj hkeys _ ih =>
    simp only [finiteOrNull]
    refine .obj (fun k => ?_) fun k x y hx hy => ?_
    · have hnames : ∀ ms, (∃ x, JsVal.Defines (finiteMembers ms) k x) ↔
          ∃ v, JsVal.Defines ms k v := by
        intro ms
        simp only [defines_finiteMembers]
        exact ⟨fun ⟨_, v, hv, _⟩ => ⟨v, hv⟩, fun ⟨v, hv⟩ => ⟨_, v, hv, rfl⟩⟩
      rw [hnames, hnames, hkeys]
    · obtain ⟨a, ha, rfl⟩ := defines_finiteMembers.mp hx
      obtain ⟨b, hb, rfl⟩ := defines_finiteMembers.mp hy
      exact ih k a b ha hb

end AramoPlatform.Js
