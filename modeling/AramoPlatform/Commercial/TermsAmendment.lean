import AramoPlatform.Commercial.JsonbColumns
import AramoPlatform.Commercial.PaymentTerms
import AramoPlatform.Commercial.TermsValidation

/-!
# Amendments of payment terms

An amendment of a contract may carry its payment terms again; in this version it
can only add obligations to them. The terms of the contract and every recorded
obligation have to be in the new block as they are, and what the block has
besides is added. Both copies of the postpaid approval come out of jsonb columns.
-/

namespace AramoPlatform.Commercial.Stored

open Js Lib Sign List

/-- The terms columns of a `Contract` row, the approval as it was written. -/
structure RecordedTerms where
  billingMode : Option JsString
  paymentCurrency : Option JsString
  paymentTimezone : Option JsString
  graceDays : Option JsNum
  postpaidApproval : Option JsValue

/-- A row of `ContractPaymentObligation`, as it is selected. -/
structure RecordedObligation where
  obligationRef : JsString
  dueDate : JsString
  amountMinor : JsNum
  description : JsString

/-- `===` with a value that is a string, a number or `null`. -/
def strictEquals : JsVal → JsVal → Bool
  | .undefined, .undefined => true
  | .null, .null => true
  | .bool b, .bool b' => b == b'
  | .num n, .num n' => n == n'
  | .str s, .str s' => s == s'
  | _, _ => false

/-- A nullable column. -/
def column (s : Option JsString) : JsVal := s.elim .null .str

/-- `same`: two values by their texts. -/
def sameText (a b : JsVal) : Bool := stringify (orNull a) == stringify (orNull b)

def elements : JsVal → List JsVal
  | .arr elems => elems
  | _ => []

/-- The approval column as it is read. -/
def RecordedTerms.approval (k : RecordedTerms) : JsVal :=
  k.postpaidApproval.elim .null fun a => jsonb a.val

def contractTermsSame (k : RecordedTerms) (terms : JsVal) : Bool :=
  strictEquals (column k.billingMode) (terms.prop "billing_mode") &&
  strictEquals (column k.paymentCurrency) (terms.prop "currency") &&
  strictEquals (column k.paymentTimezone) (terms.prop "timezone") &&
  strictEquals (k.graceDays.elim .null .num) (orNull (terms.prop "grace_days")) &&
  sameText k.approval (terms.prop "postpaid_approval")

def hasRef (ref : JsString) (o : JsVal) : Bool :=
  strictEquals (o.prop "obligation_ref") (.str ref)

/-- A recorded obligation is in the block as it is. -/
def keepsObligation (obligations : List JsVal) (e : RecordedObligation) :
    Except PaymentRecordRefused Unit := do
  let n ← orThrow (obligations.find? (hasRef e.obligationRef))
    (refusal .paymentTermsChangeUndefined (some (js "obligation_removed")))
  require (strictEquals (n.prop "due_date") (.str e.dueDate) &&
      strictEquals (n.prop "amount_minor") (.num e.amountMinor) &&
      strictEquals (n.prop "description") (.str e.description))
    (refusal .paymentTermsChangeUndefined (some (js "obligation_changed")))

/-- `amendmentObligationsToAdd`, on the row of the contract, its obligations and
the block of the stored request. -/
def amendmentObligationsToAdd (contract : Option RecordedTerms) (existing : List RecordedObligation)
    (terms : JsVal) : Except PaymentRecordRefused (List JsVal) := do
  let k ← orThrow (contract.filter (·.billingMode.isSome))
    (refusal .paymentTermsChangeUndefined (some (js "contract_has_no_payment_terms")))
  require (contractTermsSame k terms)
    (refusal .paymentTermsChangeUndefined (some (js "contract_terms_differ")))
  let obligations := elements (terms.prop "obligations")
  existing.forM (keepsObligation obligations)
  pure (obligations.filter fun o => !existing.any fun e => hasRef e.obligationRef o)

/-! ## What a block without errors is -/

/-- The fields of a block that the validation accepts. -/
structure Accepted (v : JsVal) : Prop where
  graceDays : v.prop "grace_days" = .undefined ∨ ∃ n, v.prop "grace_days" = .num n
  obligations : ∃ obs, v.prop "obligations" = .arr obs ∧
    (∀ o ∈ obs, ∃ ref, o.prop "obligation_ref" = .str ref) ∧
    (obs.map fun o => o.prop "obligation_ref").Nodup

theorem obligationName_eq_some {o : JsVal} {ref : JsString} (h : obligationName o = some ref) :
    o.prop "obligation_ref" = .str ref := by
  unfold obligationName at h
  split at h
  · split at h
    · rw [← Option.some.inj h]
      assumption
    · cases h
  · cases h

theorem name_of_obligationErrors {place : JsString} {refs : List JsString} {o : JsVal}
    (h : obligationErrors place refs o = []) : ∃ ref, obligationName o = some ref ∧ ref ∉ refs := by
  unfold obligationErrors at h
  split at h
  · cases h
  · simp only [append_eq_nil_iff] at h
    obtain ⟨⟨⟨⟨-, href⟩, -⟩, -⟩, -⟩ := h
    cases hname : obligationName o with
    | none => simp [hname] at href
    | some ref => exact ⟨ref, rfl, by simpa [hname] using href⟩

section Each

variable {place : JsString} {check : JsString → List JsString → JsVal → List JsString}
  {name : JsVal → Option JsString}

/-- Elements that each take a name nobody has taken have different names. -/
theorem names_of_eachErrors
    (hcheck : ∀ p seen d, check p seen d = [] → ∃ n, name d = some n ∧ n ∉ seen) {i : Nat}
    {seen : List JsString} {l : List JsVal} (h : eachErrors place check name i seen l = []) :
    ∃ names : List JsString, l.map name = names.map some ∧ names.Nodup ∧ ∀ n ∈ names, n ∉ seen := by
  induction l generalizing i seen with
  | nil => exact ⟨[], rfl, nodup_nil, by simp⟩
  | cons d rest ih =>
    rw [eachErrors, append_eq_nil_iff] at h
    obtain ⟨n, hn, hfresh⟩ := hcheck _ _ _ h.1
    obtain ⟨names, hnames, hnodup, hnew⟩ := ih h.2
    rw [hn] at hnew
    refine ⟨n :: names, by simp [hn, hnames], nodup_cons.mpr ⟨?_, hnodup⟩, ?_⟩
    · intro hmem
      exact hnew n hmem (by simp)
    · intro m hm
      rcases mem_cons.mp hm with rfl | hm
      · exact hfresh
      · intro hseen
        exact hnew m hm (by simp [hseen])

end Each

theorem accepted_of_errors {acceptsTimeZone : AcceptsTimeZone} {v : JsVal} {place : JsString}
    {required : Bool} (hpresent : v ≠ .undefined)
    (h : paymentTermsErrors acceptsTimeZone v place required = []) : Accepted v := by
  unfold paymentTermsErrors at h
  rw [if_neg (by simpa using hpresent)] at h
  split at h
  · cases h
  · simp only [append_eq_nil_iff] at h
    obtain ⟨⟨-, hgrace⟩, hobligations⟩ := h
    constructor
    · cases hv : v.prop "grace_days" with
      | undefined => exact .inl rfl
      | num n => exact .inr ⟨n, rfl⟩
      | _ => simp [graceDaysErrors, hv, JsVal.safeInteger, JsVal.isUndefined] at hgrace
    · cases hv : v.prop "obligations" with
      | arr obs =>
        simp only [obligationsErrors, hv] at hobligations
        split at hobligations
        · rw [append_eq_nil_iff] at hobligations
          obtain ⟨names, hnames, hnodup, -⟩ :=
            names_of_eachErrors (fun _ _ _ h => name_of_obligationErrors h) hobligations.1
          have hrefs : obs.map (fun o => o.prop "obligation_ref") = names.map .str := by
            refine ext_getElem ?_ fun i hi hi' => ?_
            · have := congrArg List.length hnames
              simpa using this
            · have hi : i < obs.length := by simpa using hi
              have hat := congrArg (·[i]?) hnames
              simp only [length_map] at hi'
              simp only [getElem?_map, getElem?_eq_getElem hi,
                getElem?_eq_getElem hi', Option.map_some, Option.some.injEq] at hat
              simp [obligationName_eq_some hat]
          refine ⟨obs, rfl, fun o ho => ?_, ?_⟩
          · have hmem : o.prop "obligation_ref" ∈ names.map .str := by
              rw [← hrefs]
              exact mem_map_of_mem ho
            obtain ⟨ref, -, href⟩ := mem_map.mp hmem
            exact ⟨ref, href.symm⟩
          · rw [hrefs]
            exact hnodup.map fun a b hab => by simpa using hab
        · cases hobligations
      | _ => simp [obligationsErrors, hv] at hobligations

/-! ## Reading the stored block -/

theorem strictEquals_str {v : JsVal} {s : JsString} : strictEquals v (.str s) =
    true ↔ v = .str s := by
  cases v <;> simp [strictEquals]

theorem strictEquals_num {v : JsVal} {n : JsNum} : strictEquals v (.num n) = true ↔ v = .num n := by
  cases v <;> simp [strictEquals]

theorem strictEquals_column {s : Option JsString} {v : JsVal} :
    strictEquals (column s) v = true ↔ v = column s := by
  cases s with
  | none => cases v <;> simp [column, strictEquals]
  | some s =>
    cases v with
    | str s' =>
      simp only [column, Option.elim, strictEquals, beq_iff_eq, JsVal.str.injEq]
      exact eq_comm
    | _ => simp [column, strictEquals]

variable {v : JsVal} {k : String}

section

variable (hv : v.wf = true)

include hv

theorem prop_jsonb_eq_str {s : JsString} :
    (jsonb v).prop k = .str s ↔ v.prop k = .str s := by
  rw [prop_jsonb hv]
  cases hprop : v.prop k <;> simp [JsVal.isUndefined, jsonb]

theorem prop_jsonb_eq_num {n : JsNum} :
    (jsonb v).prop k = .num n ↔ v.prop k = .num n := by
  rw [prop_jsonb hv]
  cases hprop : v.prop k <;> simp [JsVal.isUndefined, jsonb]

theorem elements_jsonb :
    elements ((jsonb v).prop k) = (elements (v.prop k)).map jsonb := by
  rw [prop_jsonb hv]
  cases hprop : v.prop k <;> simp [JsVal.isUndefined, jsonb, elements, jsonbElems_eq]

theorem orNull_prop_jsonb : orNull ((jsonb v).prop k) = jsonb (v.prop k) := by
  rw [prop_jsonb hv]
  cases hprop : v.prop k <;> simp [JsVal.isUndefined, jsonb, orNull]

theorem wf_prop : (v.prop k).wf = true := by
  cases v with
  | obj ms =>
    simp only [JsVal.prop]
    cases hfind : ms.find? (·.1 == js k) with
    | none => rfl
    | some m => exact (JsVal.wf_obj.mp hv).2 m (mem_of_find?_eq_some hfind)
  | _ => rfl

theorem wf_of_mem_elements {o : JsVal} (ho : o ∈ elements v) : o.wf = true := by
  cases v with
  | arr elems => exact JsVal.wf_arr.mp hv o ho
  | _ => cases ho

end

/-! ## What an amendment keeps and adds -/

/-- The terms of the block are the recorded ones, as values: a column that is
`null` stands for a member that is not there. -/
structure SameTerms (k : RecordedTerms) (v : JsVal) : Prop where
  billingMode : ∃ mode, k.billingMode = some mode ∧ v.prop "billing_mode" = .str mode
  currency : v.prop "currency" = column k.paymentCurrency
  timezone : v.prop "timezone" = column k.paymentTimezone
  graceDays : v.prop "grace_days" = k.graceDays.elim .undefined .num
  approval : SameJson (k.postpaidApproval.elim .undefined (·.val)) (v.prop "postpaid_approval")

/-- The obligation of the block is the recorded one. -/
structure SameObligation (e : RecordedObligation) (o : JsVal) : Prop where
  obligationRef : o.prop "obligation_ref" = .str e.obligationRef
  dueDate : o.prop "due_date" = .str e.dueDate
  amountMinor : o.prop "amount_minor" = .num e.amountMinor
  description : o.prop "description" = .str e.description

/-- The obligations of the block. -/
def obligationsOf (v : JsVal) : List JsVal := elements (v.prop "obligations")

/-- No recorded obligation has the reference of this one. -/
def isNew (existing : List RecordedObligation) (o : JsVal) : Bool :=
  !existing.any fun e => hasRef e.obligationRef o

variable {existing : List RecordedObligation} {r : RecordedTerms}

section

variable (hv : v.wf = true)

include hv

theorem hasRef_jsonb {ref : JsString} : hasRef ref (jsonb v) = hasRef ref v := by
  rw [Bool.eq_iff_iff, hasRef, hasRef, strictEquals_str, strictEquals_str, prop_jsonb_eq_str hv]

theorem prop_jsonb_eq_column {s : Option JsString} :
    (jsonb v).prop k = column s ↔ v.prop k = column s := by
  cases s with
  | some s => exact prop_jsonb_eq_str hv
  | none =>
    rw [prop_jsonb hv]
    cases hprop : v.prop k <;> simp [JsVal.isUndefined, jsonb, column]

theorem sameText_approval_iff :
    sameText r.approval ((jsonb v).prop k) = true ↔
      SameJson (r.postpaidApproval.elim .undefined (·.val)) (v.prop k) := by
  have hread : orNull r.approval = jsonb (r.postpaidApproval.elim .undefined (·.val)) := by
    cases happroval : r.postpaidApproval with
    | none => simp [RecordedTerms.approval, happroval, orNull, jsonb]
    | some a =>
      have hne := jsonb_ne_undefined a.val
      simp only [RecordedTerms.approval, happroval, Option.elim]
      cases hback : jsonb a.val <;> simp_all [orNull]
  have hwf : (r.postpaidApproval.elim JsVal.undefined (·.val)).wf = true := by
    cases r.postpaidApproval with
    | none => rfl
    | some a => exact a.wf
  rw [sameText, beq_iff_eq, hread, orNull_prop_jsonb hv]
  exact stringify_jsonb_iff hwf (wf_prop hv)

section

variable (haccepted : Accepted v)

include haccepted

theorem graceDays_iff :
    strictEquals (r.graceDays.elim .null .num) (orNull ((jsonb v).prop "grace_days")) = true ↔
      v.prop "grace_days" = r.graceDays.elim .undefined .num := by
  rw [orNull_prop_jsonb hv]
  rcases haccepted.graceDays with habsent | ⟨n, hn⟩
  · rw [habsent]
    cases r.graceDays <;> simp [jsonb, strictEquals]
  · rw [hn]
    cases r.graceDays with
    | none => simp [jsonb, strictEquals]
    | some m =>
      simp only [jsonb, Option.elim, strictEquals, beq_iff_eq, JsVal.num.injEq]
      exact eq_comm

theorem contractTermsSame_iff
    (hmode : r.billingMode.isSome = true) :
    contractTermsSame r (jsonb v) = true ↔ SameTerms r v := by
  obtain ⟨mode, hmode⟩ := Option.isSome_iff_exists.mp hmode
  simp only [contractTermsSame, Bool.and_eq_true, strictEquals_column, prop_jsonb_eq_column hv,
    graceDays_iff hv haccepted, sameText_approval_iff hv, hmode]
  constructor
  · rintro ⟨⟨⟨⟨hbilling, hcurrency⟩, htimezone⟩, hgrace⟩, happroval⟩
    exact ⟨⟨mode, hmode, hbilling⟩, hcurrency, htimezone, hgrace, happroval⟩
  · intro h
    obtain ⟨mode', hmode', hbilling⟩ := h.billingMode
    rw [hmode, Option.some.injEq] at hmode'
    subst hmode'
    exact ⟨⟨⟨⟨hbilling, h.currency⟩, h.timezone⟩, h.graceDays⟩, h.approval⟩

/-- A recorded obligation is kept when the block has it, and has it once. -/
theorem keepsObligation_iff {e : RecordedObligation} :
    keepsObligation (elements ((jsonb v).prop "obligations")) e = .ok () ↔
      ∃ o ∈ obligationsOf v, SameObligation e o := by
  obtain ⟨obs, hobs, -, hnodup⟩ := haccepted.obligations
  have hall : obligationsOf v = obs := by rw [obligationsOf, hobs, elements]
  have hwf : ∀ o ∈ obs, o.wf = true := by
    intro o ho
    exact wf_of_mem_elements (wf_prop (k := "obligations") hv) (by rw [hobs]; exact ho)
  rw [elements_jsonb hv, hobs, hall]
  simp only [keepsObligation, bind_eq_ok, orThrow_eq_ok, require_eq_ok, Bool.and_eq_true,
    strictEquals_str, strictEquals_num, elements, find?_map]
  constructor
  · rintro ⟨n, hfind, ⟨hdue, hamount⟩, hdescription⟩
    obtain ⟨o, ho, rfl⟩ := Option.map_eq_some_iff.mp hfind
    have hmem := mem_of_find?_eq_some ho
    have href := find?_some ho
    have howf := hwf o hmem
    rw [Function.comp_apply, hasRef_jsonb howf, hasRef, strictEquals_str] at href
    rw [prop_jsonb_eq_str howf] at hdue hdescription
    rw [prop_jsonb_eq_num howf] at hamount
    exact ⟨o, hmem, href, hdue, hamount, hdescription⟩
  · rintro ⟨o, hmem, hsame⟩
    have howf := hwf o hmem
    -- the references are different, so the first obligation found is this one
    have hfind : obs.find? (hasRef e.obligationRef ∘ jsonb) = some o := by
      cases hfound : obs.find? (hasRef e.obligationRef ∘ jsonb) with
      | none =>
        have hnot := find?_eq_none.mp hfound o hmem
        rw [Function.comp_apply, hasRef_jsonb howf, hasRef, strictEquals_str] at hnot
        exact absurd hsame.obligationRef hnot
      | some o' =>
        have hmem' := mem_of_find?_eq_some hfound
        have href := find?_some hfound
        rw [Function.comp_apply, hasRef_jsonb (hwf o' hmem'), hasRef, strictEquals_str] at href
        rw [inj_on_of_nodup_map hnodup hmem' hmem (href.trans hsame.obligationRef.symm)]
    refine ⟨jsonb o, by rw [hfind, Option.map_some], ⟨?_, ?_⟩, ?_⟩
    · rw [prop_jsonb_eq_str howf]
      exact hsame.dueDate
    · rw [prop_jsonb_eq_num howf]
      exact hsame.amountMinor
    · rw [prop_jsonb_eq_str howf]
      exact hsame.description

/-- What the code returns: the obligations with a new reference, as they are
read back. -/
theorem amendmentObligationsToAdd_eq_ok
    {l : List JsVal} :
    amendmentObligationsToAdd (some r) existing (jsonb v) = .ok l ↔
      (SameTerms r v ∧ ∀ e ∈ existing, ∃ o ∈ obligationsOf v, SameObligation e o) ∧
        l = ((obligationsOf v).filter (isNew existing)).map jsonb := by
  obtain ⟨obs, hobs, -⟩ := haccepted.obligations
  have hall : obligationsOf v = obs := by rw [obligationsOf, hobs, elements]
  have hresult : (elements ((jsonb v).prop "obligations")).filter
      (fun o => !existing.any fun e => hasRef e.obligationRef o) =
        (obs.filter (isNew existing)).map jsonb := by
    rw [elements_jsonb hv, hobs, elements, filter_map]
    congr 1
    refine filter_congr fun o ho => ?_
    have howf : o.wf = true :=
      wf_of_mem_elements (wf_prop (k := "obligations") hv) (by rw [hobs]; exact ho)
    simp only [Function.comp_apply, isNew, hasRef_jsonb howf]
  simp only [amendmentObligationsToAdd, bind_eq_ok, orThrow_eq_ok, require_eq_ok, pure_eq_ok,
    forM_eq_ok, hresult, keepsObligation_iff hv haccepted, hall]
  constructor
  · rintro ⟨k, hk, -, hterms, -, hkept, rfl⟩
    obtain ⟨hmode, rfl⟩ : r.billingMode.isSome = true ∧ r = k := by
      simpa [Option.filter] using hk
    exact ⟨⟨(contractTermsSame_iff hv haccepted hmode).mp hterms, hkept⟩, rfl⟩
  · rintro ⟨⟨hterms, hkept⟩, rfl⟩
    obtain ⟨mode, hmode, -⟩ := hterms.billingMode
    have hsome : r.billingMode.isSome = true := by rw [hmode, Option.isSome_some]
    exact ⟨r, by simp [Option.filter, hsome], (), (contractTermsSame_iff hv haccepted hsome).mpr
      hterms, (), hkept, rfl⟩

end

end

/-- **Amendments only add obligations.** A block without errors, read back from
the stored request, is accepted exactly when its terms are the recorded ones and
it has every recorded obligation as it is; the result is its obligations with a
reference not yet recorded, each once and in their order. -/
theorem amendmentObligationsToAdd_iff (acceptsTimeZone : AcceptsTimeZone) (place : JsString)
    (required : Bool) (v : JsValue) (hpresent : v.val ≠ .undefined)
    (haccepted : paymentTermsErrors acceptsTimeZone v.val place required = [])
    (r : RecordedTerms) (existing : List RecordedObligation) :
    ((∃ l, amendmentObligationsToAdd (some r) existing (jsonb v.val) = .ok l) ↔
      SameTerms r v.val ∧ ∀ e ∈ existing, ∃ o ∈ obligationsOf v.val, SameObligation e o) ∧
    ∀ l, amendmentObligationsToAdd (some r) existing (jsonb v.val) = .ok l →
      l = ((obligationsOf v.val).filter (isNew existing)).map jsonb ∧
        (l.map fun o => o.prop "obligation_ref").Nodup := by
  have hblock := accepted_of_errors hpresent haccepted
  refine ⟨⟨?_, ?_⟩, fun l hl => ?_⟩
  · rintro ⟨l, hl⟩
    exact ((amendmentObligationsToAdd_eq_ok v.wf hblock).mp hl).1
  · intro h
    exact ⟨_, (amendmentObligationsToAdd_eq_ok v.wf hblock).mpr ⟨h, rfl⟩⟩
  · obtain ⟨-, rfl⟩ := (amendmentObligationsToAdd_eq_ok v.wf hblock).mp hl
    refine ⟨rfl, ?_⟩
    obtain ⟨obs, hobs, hrefs, hnodup⟩ := hblock.obligations
    have hall : obligationsOf v.val = obs := by rw [obligationsOf, hobs, elements]
    rw [hall, map_map]
    have hread : (obs.filter (isNew existing)).map ((fun o => o.prop "obligation_ref") ∘ jsonb) =
        (obs.filter (isNew existing)).map fun o => o.prop "obligation_ref" := by
      refine map_congr_left fun o ho => ?_
      have hmem := mem_of_mem_filter ho
      obtain ⟨ref, href⟩ := hrefs o hmem
      have howf : o.wf = true :=
        wf_of_mem_elements (wf_prop (k := "obligations") v.wf) (by rw [hobs]; exact hmem)
      rw [Function.comp_apply, href]
      exact (prop_jsonb_eq_str howf).mpr href
    rw [hread]
    exact hnodup.sublist (filter_sublist.map _)

/-- A postpaid contract with one obligation. -/
def recordedPostpaid : RecordedTerms where
  billingMode := some (js "POSTPAID")
  paymentCurrency := some (js "USD")
  paymentTimezone := some (js "America/New_York")
  graceDays := none
  postpaidApproval := some ⟨.obj [(js "statement", .str (js "postpaid")),
    (js "evidence_ref", .str (js "PO-1"))], by decide⟩

def recordedFirst : RecordedObligation :=
  ⟨js "FIRST", js "2026-01-15", ⟨js "5000", by decide, by decide⟩, js "First"⟩

/-- The same terms, the approval written the other way round, and one more
obligation. -/
def amendedPostpaid : JsValue where
  val := .obj [(js "billing_mode", .str (js "POSTPAID")), (js "currency", .str (js "USD")),
    (js "timezone", .str (js "America/New_York")),
    (js "postpaid_approval", .obj [(js "evidence_ref", .str (js "PO-1")),
      (js "statement", .str (js "postpaid"))]),
    (js "obligations", .arr [
      .obj [(js "obligation_ref", .str (js "SECOND")), (js "due_date", .str (js "2026-02-15")),
        (js "amount_minor", .num ⟨js "7000", by decide, by decide⟩),
        (js "description", .str (js "Second"))],
      .obj [(js "obligation_ref", .str (js "FIRST")), (js "due_date", .str (js "2026-01-15")),
        (js "amount_minor", .num ⟨js "5000", by decide, by decide⟩),
        (js "description", .str (js "First"))]])]
  wf := by decide

theorem amendmentObligationsToAdd_iff_amendedPostpaid :
    ∃ l, amendmentObligationsToAdd (some recordedPostpaid) [recordedFirst]
        (jsonb amendedPostpaid.val) = .ok l ∧
      l = ((obligationsOf amendedPostpaid.val).filter (isNew [recordedFirst])).map jsonb ∧
      SameTerms recordedPostpaid amendedPostpaid.val := by
  have hruns : (amendmentObligationsToAdd (some recordedPostpaid) [recordedFirst]
      (jsonb amendedPostpaid.val)).toOption.isSome = true := by decide +kernel
  obtain ⟨hiff, hresult⟩ := amendmentObligationsToAdd_iff (· == js "America/New_York")
    (js "contract_amendment.payment_terms") false amendedPostpaid (by simp [amendedPostpaid])
    (by decide +kernel) recordedPostpaid [recordedFirst]
  cases hrun : amendmentObligationsToAdd (some recordedPostpaid) [recordedFirst]
      (jsonb amendedPostpaid.val) with
  | error e => simp [hrun, Except.toOption] at hruns
  | ok l => exact ⟨l, rfl, (hresult l hrun).1, (hiff.mp ⟨l, hrun⟩).1⟩

end AramoPlatform.Commercial.Stored
