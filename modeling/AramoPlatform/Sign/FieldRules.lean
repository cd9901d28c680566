import AramoPlatform.Lib.Rows
import AramoPlatform.Sign.HashChain
import Mathlib.Data.Rat.Defs
import Mathlib.Tactic.MkIffOfInductiveProp

/-!
# Field rules

The name, check-box and payment rules a signer's fields must meet at
completion, and the value rules of a single field.
-/

namespace AramoPlatform.Sign

open Js

inductive FieldType where
  | signature
  | initials
  | signDate
  | signerName
  | text
  | checkbox
  | acknowledgement
  | payment
  | firstName
  | lastName
  | email
  | company
  | title
  deriving DecidableEq

inductive SignatureMethod where
  | typed
  | drawn
  | uploaded
  | digitalCertificate
  deriving DecidableEq

inductive CheckboxGroupRule where
  | selectOne
  | selectAny
  deriving DecidableEq

inductive SignerNameMode where
  | signerProfile
  | signerEntered
  deriving DecidableEq

/-- A row of `SignatureField`. -/
structure FieldRow where
  id : Uuid
  envelopeDocumentId : Uuid
  signerId : Option Uuid
  fieldType : FieldType
  signatureMethod : Option SignatureMethod
  pageNumber : Nat
  x : Rat
  y : Rat
  width : Option Rat
  height : Option Rat
  required : Bool
  value : Option JsString
  filledAt : Option Nat
  label : Option JsString
  groupKey : Option JsString
  groupRule : Option CheckboxGroupRule
  minSelected : Option Nat
  nameMode : Option SignerNameMode
  paymentAmountMinor : Option Nat
  paymentCurrency : Option JsString

/-- `CHECK_FIELD_TYPES`. -/
def FieldType.isCheck : FieldType → Bool
  | checkbox | acknowledgement => true
  | _ => false

/-- `PROFILE_TEXT_FIELD_TYPES`. -/
def FieldType.isProfileText : FieldType → Bool
  | firstName | lastName | email | company | title => true
  | _ => false

def profileTextMax : Nat := 200

inductive ValueRefusal where
  | signerProfileNameServerFilled
  | paymentFieldServerFilled
  | checkboxValueInvalid
  | profileFieldValueInvalid
  | emailFieldValueInvalid
  deriving DecidableEq

/-- The refusal of a profile text field's value, if there is one. -/
def profileTextValueRefusal (fieldType : FieldType) (value : JsString) : Option ValueRefusal :=
  let v := trim value
  if !fieldType.isProfileText then none
  else if v.length > profileTextMax then some .profileFieldValueInvalid
  else if fieldType == .email && !v.isEmpty && (v.length > 254 || !isEmailShape v) then
    some .emailFieldValueInvalid
  else none

def isPaymentField (f : FieldRow) : Bool := f.fieldType == .payment

/-- A name whose value the server fills. -/
def isServerFilledName (f : FieldRow) : Bool :=
  f.fieldType == .signerName && f.nameMode == some .signerProfile

/-! ## The rules at completion -/

inductive FieldRuleReason where
  | requiredFieldUnfilled
  | checkboxRequiredUnchecked
  | checkboxGroupSelectOne
  | checkboxGroupMinSelected
  | paymentRequired
  deriving DecidableEq

structure FieldRuleViolation where
  reason : FieldRuleReason
  fieldId : Option Uuid := none
  groupKey : Option JsString := none
  deriving DecidableEq

def isChecked (f : FieldRow) : Bool := f.filledAt.isSome && f.value == some (js "true")

/-- The check-box groups in the order of their first box. -/
abbrev FieldGroups := List (JsString × List FieldRow)

/-- `groups.set(key, [...(groups.get(key) ?? []), f])`. -/
def addToGroup (key : JsString) (f : FieldRow) : FieldGroups → FieldGroups
  | [] => [(key, [f])]
  | (k, boxes) :: rest =>
      if k = key then (k, boxes ++ [f]) :: rest else (k, boxes) :: addToGroup key f rest

/-- What the first loop makes of one field: nothing, a violation, or a box of
a group. -/
inductive FieldVerdict where
  | pass
  | violation (v : FieldRuleViolation)
  | grouped (key : JsString)

def fieldVerdict (f : FieldRow) : FieldVerdict :=
  if isServerFilledName f then .pass
  else if isPaymentField f then
    if f.filledAt.isNone then .violation ⟨.paymentRequired, some f.id, none⟩ else .pass
  else
    match f.fieldType, f.groupKey with
    | .checkbox, some key => .grouped key
    | _, _ =>
        if !f.required then .pass
        else if f.fieldType.isCheck then
          if isChecked f then .pass else .violation ⟨.checkboxRequiredUnchecked, some f.id, none⟩
        else if f.filledAt.isNone then .violation ⟨.requiredFieldUnfilled, some f.id, none⟩
        else .pass

/-- The first loop. -/
def scanFields : List FieldRow → FieldGroups → Except FieldRuleViolation FieldGroups
  | [], groups => .ok groups
  | f :: rest, groups =>
      match fieldVerdict f with
      | .pass => scanFields rest groups
      | .violation v => .error v
      | .grouped key => scanFields rest (addToGroup key f groups)

/-- The second loop, on one group. -/
def groupViolation (key : JsString) (boxes : List FieldRow) : Option FieldRuleViolation :=
  let checked := (boxes.filter isChecked).length
  let rule := (boxes.head?.bind (·.groupRule)).getD .selectAny
  let required := boxes.any (·.required)
  let min :=
    if rule = .selectOne then 1
    else boxes.foldl (fun m b => max m (b.minSelected.getD 1)) 1
  if rule = .selectOne ∧ checked > 1 then some ⟨.checkboxGroupSelectOne, none, some key⟩
  else if required ∧ checked < min then
    if rule = .selectOne then some ⟨.checkboxGroupSelectOne, none, some key⟩
    else some ⟨.checkboxGroupMinSelected, none, some key⟩
  else none

/-- The first rule a signer's fields break at completion. -/
def evaluateSignerFieldRules (fields : List FieldRow) : Option FieldRuleViolation :=
  match scanFields fields [] with
  | .error v => some v
  | .ok groups => groups.findSome? fun g => groupViolation g.1 g.2

/-! ## Payment fields in the rules -/

variable {v : FieldRuleViolation}

theorem groupViolation_reason {key : JsString} {boxes : List FieldRow}
    (h : groupViolation key boxes = some v) : v.reason ≠ .paymentRequired := by
  unfold groupViolation at h
  dsimp only at h
  repeat' split at h
  all_goals first | cases h; simp | simp at h

variable {f : FieldRow}

theorem fieldVerdict_payment
    (h : fieldVerdict f = .violation v) (hv : v.reason = .paymentRequired) :
    isPaymentField f = true ∧ f.filledAt = none ∧ v.fieldId = some f.id := by
  unfold fieldVerdict at h
  repeat' split at h
  -- only the payment branch reports `payment_required`
  all_goals first | (cases h; done) | (cases h; simp at hv; done) | (cases h; simp_all)

theorem fieldVerdict_of_unpaid (hpay : isPaymentField f = true)
    (hnone : f.filledAt = none) : ∃ v, fieldVerdict f = .violation v := by
  have hname : isServerFilledName f = false := by
    simp only [isPaymentField, beq_iff_eq] at hpay
    simp [isServerFilledName, hpay]
  exact ⟨⟨.paymentRequired, some f.id, none⟩, by simp [fieldVerdict, hname, hpay, hnone]⟩

variable {fields : List FieldRow}

theorem scanFields_payment {groups : FieldGroups}
    (h : scanFields fields groups = .error v)
    (hv : v.reason = .paymentRequired) :
    ∃ f ∈ fields, isPaymentField f = true ∧ f.filledAt = none ∧ v.fieldId = some f.id := by
  induction fields generalizing groups with
  | nil => simp [scanFields] at h
  | cons f rest ih =>
    unfold scanFields at h
    cases hverdict : fieldVerdict f with
    | pass | grouped =>
      obtain ⟨f', hmem, hf'⟩ := ih (by simpa [hverdict] using h)
      exact ⟨f', List.mem_cons_of_mem _ hmem, hf'⟩
    | violation w =>
      have hvw : w = v := by simpa [hverdict] using h
      exact ⟨f, List.mem_cons_self, fieldVerdict_payment (hvw ▸ hverdict) hv⟩

theorem evaluateSignerFieldRules_payment
    (h : evaluateSignerFieldRules fields = some v) (hv : v.reason = .paymentRequired) :
    ∃ f ∈ fields, isPaymentField f = true ∧ f.filledAt = none ∧ v.fieldId = some f.id := by
  unfold evaluateSignerFieldRules at h
  split at h
  · cases h
    exact scanFields_payment ‹_› hv
  · obtain ⟨g, -, hg⟩ := List.exists_of_findSome?_eq_some h
    exact absurd hv (groupViolation_reason hg)

theorem scanFields_ok {groups groups' : FieldGroups}
    (h : scanFields fields groups = .ok groups') (hf : f ∈ fields)
    (hpay : isPaymentField f = true) : f.filledAt.isSome = true := by
  induction fields generalizing groups with
  | nil => simp at hf
  | cons f' rest ih =>
    unfold scanFields at h
    rcases List.mem_cons.mp hf with rfl | hf
    · by_contra hnone
      obtain ⟨v, hv⟩ := fieldVerdict_of_unpaid hpay (by simpa using hnone)
      simp [hv] at h
    · split at h
      · exact ih h hf
      · simp at h
      · exact ih h hf

theorem filled_of_rules (h : evaluateSignerFieldRules fields = none)
    (hf : f ∈ fields) (hpay : isPaymentField f = true) :
    f.filledAt.isSome = true := by
  unfold evaluateSignerFieldRules at h
  split at h
  · simp at h
  · exact scanFields_ok ‹_› hf hpay

/-! ## What the rules ask -/

/-- The check-box group of a field. -/
def FieldRow.group? (f : FieldRow) : Option JsString :=
  if f.fieldType = .checkbox then f.groupKey else none

def groupBoxes (key : JsString) (fields : List FieldRow) : List FieldRow :=
  fields.filter fun f => f.group? = some key

/-- The boxes of one group carry the same rule. -/
def RulesAgree (fields : List FieldRow) : Prop :=
  ∀ key, ∀ a ∈ groupBoxes key fields, ∀ b ∈ groupBoxes key fields, a.groupRule = b.groupRule

/-- What is asked of a field by itself. -/
structure FieldMet (f : FieldRow) : Prop where
  paid : f.fieldType = .payment → f.filledAt.isSome = true
  checked : f.fieldType.isCheck = true → f.group? = none → f.required = true → isChecked f = true
  filled : f.fieldType ≠ .payment → f.fieldType.isCheck = false → f.required = true →
    isServerFilledName f = false → f.filledAt.isSome = true

/-- What is asked of the boxes of a group. -/
@[mk_iff] structure GroupMet (boxes : List FieldRow) : Prop where
  selectOne : (∃ b ∈ boxes, b.groupRule = some .selectOne) → (boxes.filter isChecked).length ≤ 1 ∧
    ((∃ b ∈ boxes, b.required = true) → (boxes.filter isChecked).length = 1)
  atLeast : (¬ ∃ b ∈ boxes, b.groupRule = some .selectOne) → (∃ b ∈ boxes, b.required = true) →
    1 ≤ (boxes.filter isChecked).length ∧
      ∀ b ∈ boxes, ∀ m, b.minSelected = some m → m ≤ (boxes.filter isChecked).length

@[mk_iff] structure FieldRulesMet (fields : List FieldRow) : Prop where
  each : ∀ f ∈ fields, FieldMet f
  groups : ∀ key, GroupMet (groupBoxes key fields)

/-- The groups after a field that breaks no rule. -/
def collect (groups : FieldGroups) (f : FieldRow) : FieldGroups :=
  match f.group? with
  | some key => addToGroup key f groups
  | none => groups

theorem fieldVerdict_spec (f : FieldRow) :
    (∃ v, fieldVerdict f = .violation v) ∧ ¬ FieldMet f ∨
      fieldVerdict f = f.group?.elim .pass .grouped ∧ FieldMet f := by
  unfold fieldVerdict
  split
  next hname =>
    have htype : f.fieldType = .signerName := by
      simp only [isServerFilledName, Bool.and_eq_true, beq_iff_eq] at hname
      exact hname.1
    refine .inr ⟨by simp [FieldRow.group?, htype], ?_⟩
    constructor <;> simp [htype, hname, FieldType.isCheck]
  next hname =>
    split
    next hpay =>
      have htype : f.fieldType = .payment := beq_iff_eq.mp hpay
      split
      next hnone =>
        refine .inl ⟨⟨_, rfl⟩, fun h => ?_⟩
        have hfilled := h.paid htype
        simp_all
      next hsome =>
        refine .inr ⟨by simp [FieldRow.group?, htype], ?_⟩
        have hfilled : f.filledAt.isSome = true := by simpa [Option.isSome_iff_ne_none] using hsome
        constructor <;> simp [htype, hfilled, FieldType.isCheck]
    next hpay =>
      have htype : f.fieldType ≠ .payment := fun h => hpay (beq_iff_eq.mpr h)
      split
      next key hbox hkey =>
        refine .inr ⟨by simp [FieldRow.group?, hbox, hkey], ?_⟩
        constructor <;> simp [FieldRow.group?, hbox, hkey, FieldType.isCheck]
      next hnot =>
        have hgroup : f.group? = none := by
          cases hkey : f.groupKey with
          | none => simp [FieldRow.group?, hkey]
          | some key => exact if_neg fun hbox => hnot key hbox hkey
        rw [hgroup]
        have hmet : FieldMet f ↔ (f.required = true →
            if f.fieldType.isCheck then isChecked f = true else f.filledAt.isSome = true) := by
          constructor
          · intro h hreq
            split
            next hcheck => exact h.checked hcheck hgroup hreq
            next hcheck => exact h.filled htype (by simpa using hcheck) hreq (by simpa using hname)
          · intro h
            exact ⟨fun hpaid => absurd hpaid htype, fun hcheck _ hreq => by
              simpa [hcheck] using h hreq,
              fun _ hcheck hreq _ => by simpa [hcheck] using h hreq⟩
        rw [hmet]
        cases f.required <;> cases f.fieldType.isCheck <;> cases isChecked f <;>
          cases f.filledAt <;> simp

theorem scanFields_eq_ok {groups groups' : FieldGroups} :
    scanFields fields groups = .ok groups' ↔
      (∀ f ∈ fields, FieldMet f) ∧ fields.foldl collect groups = groups' := by
  induction fields generalizing groups with
  | nil => simp [scanFields]
  | cons f rest ih =>
    rw [List.forall_mem_cons, List.foldl_cons, collect]
    rcases fieldVerdict_spec f with ⟨⟨v, hv⟩, hnot⟩ | ⟨hv, hmet⟩
    · simp [scanFields, hv, hnot]
    · cases hgroup : f.group? <;> simp [scanFields, hv, hgroup, hmet, ih]

/-- The boxes that were collected under a key. -/
def boxesAt (k : JsString) (groups : FieldGroups) : List FieldRow :=
  ((groups.find? (·.1 == k)).map (·.2)).getD []

theorem boxesAt_addToGroup (key k : JsString) (f : FieldRow) (groups : FieldGroups) :
    boxesAt k (addToGroup key f groups) =
      if key = k then boxesAt k groups ++ [f] else boxesAt k groups := by
  induction groups with
  | nil => by_cases hk : key = k <;> simp [addToGroup, boxesAt, hk]
  | cons g rest ih =>
    rw [boxesAt] at ih ⊢
    rw [addToGroup]
    by_cases hg : g.1 = key
    · by_cases hk : key = k <;> simp [boxesAt, hg, hk]
    · by_cases hk : g.1 = k
      · subst hk
        simp [boxesAt, hg, Ne.symm hg]
      · simpa [boxesAt, hg, hk] using ih

theorem boxesAt_collect (k : JsString) (groups : FieldGroups) :
    boxesAt k (fields.foldl collect groups) = boxesAt k groups ++ groupBoxes k fields := by
  induction fields generalizing groups with
  | nil => exact (List.append_nil _).symm
  | cons f rest ih =>
    rw [List.foldl_cons, ih, collect, groupBoxes, groupBoxes, List.filter_cons]
    cases hgroup : f.group? with
    | none => simp
    | some key => by_cases hk : key = k <;> simp [boxesAt_addToGroup, hk]

theorem keys_addToGroup (key : JsString) (f : FieldRow) {groups : FieldGroups}
    (h : (groups.map (·.1)).Nodup) : ((addToGroup key f groups).map (·.1)).Nodup ∧
      ∀ k ∈ (addToGroup key f groups).map (·.1), k = key ∨ k ∈ groups.map (·.1) := by
  induction groups with
  | nil => simp [addToGroup]
  | cons g rest ih =>
    rw [List.map_cons, List.nodup_cons] at h
    rw [addToGroup]
    split
    next hg => simp_all
    next hg =>
      obtain ⟨hnodup, hkeys⟩ := ih h.2
      refine ⟨List.nodup_cons.mpr ⟨fun hmem => ?_, hnodup⟩, fun k hk => ?_⟩
      · exact (hkeys _ hmem).elim hg h.1
      · rcases List.mem_cons.mp hk with rfl | hk
        · exact .inr List.mem_cons_self
        · exact (hkeys k hk).imp_right (List.mem_cons_of_mem _)

theorem nodup_collect {groups : FieldGroups} (h : (groups.map (·.1)).Nodup) :
    ((fields.foldl collect groups).map (·.1)).Nodup := by
  induction fields generalizing groups with
  | nil => exact h
  | cons f rest ih =>
    refine ih ?_
    unfold collect
    split
    next key hgroup => exact (keys_addToGroup key f h).1
    · exact h

/-- The groups after the first loop are the check-box groups of the fields. -/
theorem forall_collect {P : JsString → List FieldRow → Prop} (hnil : ∀ key, P key []) :
    (∀ g ∈ fields.foldl collect [], P g.1 g.2) ↔ ∀ key, P key (groupBoxes key fields) := by
  have hboxes : ∀ key, boxesAt key (fields.foldl collect []) = groupBoxes key fields :=
    fun key => boxesAt_collect key []
  constructor
  · intro h key
    rw [← hboxes, boxesAt]
    cases hfind : (fields.foldl collect []).find? (·.1 == key) with
    | none => exact hnil key
    | some g =>
      have hkey : g.1 = key := by simpa using List.find?_some hfind
      exact hkey ▸ h g (List.mem_of_find?_eq_some hfind)
  · intro h g hg
    have hnodup : ((fields.foldl collect []).map (·.1)).Nodup := nodup_collect List.nodup_nil
    have hfind := Lib.find?_key_eq_some hnodup hg
    have hg2 : g.2 = groupBoxes g.1 fields := by
      rw [← hboxes, boxesAt]
      simp only [beq_eq_decide] at hfind ⊢
      rw [hfind, Option.map_some, Option.getD_some]
    exact hg2 ▸ h g.1

theorem foldl_max_le {boxes : List FieldRow} {m n : Nat} :
    boxes.foldl (fun m b => max m (b.minSelected.getD 1)) m ≤ n ↔
      m ≤ n ∧ ∀ b ∈ boxes, b.minSelected.getD 1 ≤ n := by
  induction boxes generalizing m with
  | nil => simp
  | cons b rest ih => simp [ih, and_assoc]

theorem groupViolation_eq_none {key : JsString} {boxes : List FieldRow}
    (h : ∀ a ∈ boxes, ∀ b ∈ boxes, a.groupRule = b.groupRule) :
    groupViolation key boxes = none ↔ GroupMet boxes := by
  have hrule : (boxes.head?.bind (·.groupRule)).getD .selectAny = .selectOne ↔
      ∃ b ∈ boxes, b.groupRule = some .selectOne := by
    cases boxes with
    | nil => simp
    | cons b rest =>
      have hsame : (∃ a ∈ b :: rest, a.groupRule = some .selectOne) ↔
          b.groupRule = some .selectOne :=
        ⟨fun ⟨a, ha, hone⟩ => (h b List.mem_cons_self a ha).trans hone,
          fun hone => ⟨b, List.mem_cons_self, hone⟩⟩
      rw [hsame]
      cases hb : b.groupRule with
      | none | some => simp [hb]
  have hleast : (1 ≤ (boxes.filter isChecked).length ∧
      ∀ b ∈ boxes, b.minSelected.getD 1 ≤ (boxes.filter isChecked).length) ↔
      1 ≤ (boxes.filter isChecked).length ∧
        ∀ b ∈ boxes, ∀ m, b.minSelected = some m → m ≤ (boxes.filter isChecked).length := by
    refine and_congr_right fun hone => forall₂_congr fun b _ => ?_
    cases b.minSelected <;> simp [hone]
  rw [groupMet_iff, ← hrule, ← hleast, ← foldl_max_le, ← List.any_eq_true]
  unfold groupViolation
  dsimp only
  generalize (boxes.filter isChecked).length = checked
  by_cases hone : (boxes.head?.bind (·.groupRule)).getD .selectAny = .selectOne
  · rw [if_pos hone, if_pos hone]
    by_cases hmany : checked > 1
    · simp [hone, hmany]
    · have hfew : checked = 0 ∨ checked = 1 := by omega
      rcases hfew with rfl | rfl <;> cases boxes.any (·.required) <;> simp [hone]
  · cases boxes.any (·.required) <;> simp [hone]

theorem FieldRulesMet.perm {fields' : List FieldRow} (h : FieldRulesMet fields)
    (hperm : fields'.Perm fields) : FieldRulesMet fields' := by
  refine ⟨fun f hf => h.each f (hperm.mem_iff.mp hf), fun key => ?_⟩
  have hboxes : (groupBoxes key fields').Perm (groupBoxes key fields) := hperm.filter _
  have hcount := (hboxes.filter isChecked).length_eq
  obtain ⟨hone, hleast⟩ := h.groups key
  constructor
  · simpa only [hboxes.mem_iff, hcount] using hone
  · simpa only [hboxes.mem_iff, hcount] using hleast

/-- **A signer's fields break no rule exactly where they are as the rules ask**, in
any order. -/
theorem evaluateSignerFieldRules_eq_none_iff (h : RulesAgree fields) :
    (evaluateSignerFieldRules fields = none ↔ FieldRulesMet fields) ∧
      ∀ fields', fields'.Perm fields →
        (evaluateSignerFieldRules fields' = none ↔ evaluateSignerFieldRules fields = none) := by
  have hiff : ∀ {l}, RulesAgree l → (evaluateSignerFieldRules l = none ↔ FieldRulesMet l) := by
    intro l hagree
    have hgroups : (∀ key, GroupMet (groupBoxes key l)) ↔
        ∀ g ∈ l.foldl collect [], groupViolation g.1 g.2 = none := by
      rw [forall_collect (P := fun key boxes => groupViolation key boxes = none) fun key => rfl]
      exact forall_congr' fun key => (groupViolation_eq_none (hagree key)).symm
    rw [fieldRulesMet_iff, hgroups, evaluateSignerFieldRules]
    cases hscan : scanFields l [] with
    | error v =>
      have hnot : ¬ ∀ f ∈ l, FieldMet f := by
        intro heach
        rw [scanFields_eq_ok.mpr ⟨heach, rfl⟩] at hscan
        cases hscan
      simp [hnot]
    | ok groups =>
      obtain ⟨heach, rfl⟩ := scanFields_eq_ok.mp hscan
      simp only [List.findSome?_eq_none_iff]
      exact (and_iff_right heach).symm
  refine ⟨hiff h, fun fields' hperm => ?_⟩
  have h' : RulesAgree fields' := by
    intro key
    have hboxes : (groupBoxes key fields').Perm (groupBoxes key fields) := hperm.filter _
    simpa only [hboxes.mem_iff] using h key
  rw [hiff h, hiff h']
  exact ⟨fun hmet => hmet.perm hperm.symm, fun hmet => hmet.perm hperm⟩

/-- A box of a group that asks for one of its boxes. -/
def groupBox (id : Uuid) (value : Option JsString) : FieldRow :=
  ⟨id, 50, some 7, .checkbox, none, 1, 0, 0, none, none, true, value, value.map fun _ => 1000,
    none, some (js "terms"), some .selectOne, some 1, none, none, none⟩

theorem evaluateSignerFieldRules_oneOfTwo :
    FieldRulesMet [groupBox 1 none, groupBox 2 (some (js "true"))] ∧
      evaluateSignerFieldRules [groupBox 2 (some (js "true")), groupBox 1 none] = none := by
  have hagree : RulesAgree [groupBox 1 none, groupBox 2 (some (js "true"))] := by
    have hrule : ∀ a ∈ [groupBox 1 none, groupBox 2 (some (js "true"))],
        a.groupRule = some .selectOne := by simp [groupBox]
    intro key a ha b hb
    rw [hrule a (List.mem_of_mem_filter ha), hrule b (List.mem_of_mem_filter hb)]
  have h := evaluateSignerFieldRules_eq_none_iff hagree
  exact ⟨h.1.mp (by decide), (h.2 _ (List.Perm.swap _ _ _)).mpr (by decide)⟩

end AramoPlatform.Sign
