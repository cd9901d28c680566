import AramoPlatform.Billing.FinanceWithholding

/-!
# Withheld finance data does not show

Two change requests that differ only in what a reader may not see are
projected alike for that reader. `blank` says what that is: the values under
amount keys, the terms of contract blocks; the rest stands where it stood. The
projection is a function of the blanked request, whatever the nesting, and it
does not look at the order of members either.
-/

namespace AramoPlatform.Billing.Finance

open Js List

/-! ## What a reader may see -/

mutual
/-- The value with `null` under every amount key, and without the terms of the
objects held under block keys; the flag says that the value is such an object. -/
def blank (amount blocks : JsString → Bool) : Bool → JsVal → JsVal
  | _, .arr elems => .arr (blankElems amount blocks elems)
  | block, .obj members => .obj (blankMembers amount blocks block members)
  | _, v => v
termination_by structural _ v => v

def blankElems (amount blocks : JsString → Bool) : List JsVal → List JsVal
  | [] => []
  | v :: rest => blank amount blocks false v :: blankElems amount blocks rest
termination_by structural l => l

def blankMembers (amount blocks : JsString → Bool) (block : Bool) :
    List (JsString × JsVal) → List (JsString × JsVal)
  | [] => []
  | (k, v) :: rest =>
      if block && contractTermsKeys.contains k then blankMembers amount blocks block rest
      else (k, if amount k then .null else blank amount blocks (blocks k) v) ::
        blankMembers amount blocks block rest
termination_by structural l => l
end

/-- A member with the value of an evidence key blanked. -/
def blankEvidenceAt (m : JsString × JsVal) : JsString × JsVal :=
  (m.1, if financialEvidenceKeys.contains m.1 then .null else m.2)

def blankEvidence : JsVal → JsVal
  | .obj members => .obj (members.map blankEvidenceAt)
  | v => v

/-- The amount keys of an action: every monetary key of a monetary action,
`amount_minor` alone of any other. -/
def amountKey (actionType : JsString) : JsString → Bool :=
  if monetaryActionTypes.contains actionType then isMonetaryKey else tenantAmountKeys.contains

/-- The requester's own text, the reason and the evidence, of a financial
request is withheld from everyone else. -/
def hidesRequesterText (reader : FinanceReader) (r : ChangeRequestProjectionInput) : Bool :=
  isFinancialRequestAction (some r.actionType) && !reader.isRequester r

/-- What a reader without access may see of the payload. -/
def visiblePayload (reader : FinanceReader) (r : ChangeRequestProjectionInput) : JsVal :=
  let payload := blank (amountKey r.actionType) contractTermsBlockKeys.contains false r.payload.val
  if hidesRequesterText reader r then blankEvidence payload else payload

/-- What a reader without access may see of the chain's basis. -/
def visibleBasis (r : ChangeRequestProjectionInput) : JsVal :=
  blank (amountKey r.actionType) (fun _ => false) false r.chainBasis

/-- Two requests that differ in what is withheld from the reader, up to the
given equality of values. -/
structure SameForReader (same : JsVal → JsVal → Prop) (reader : FinanceReader)
    (r r' : ChangeRequestProjectionInput) : Prop where
  actionType : r.actionType = r'.actionType
  requestedBy : r.requestedBy = r'.requestedBy
  payload : same (visiblePayload reader r) (visiblePayload reader r')
  basis : same (visibleBasis r) (visibleBasis r')
  reason : hidesRequesterText reader r = false → r.reason = r'.reason
  rejectionReason : isFinancialRequestAction (some r.actionType) = false →
    r.rejectionReason = r'.rejectionReason

/-- Projections that differ in the order of members only. -/
structure SameProjection (p p' : ChangeRequestFinanceProjection) : Prop where
  payload : SameUpToKeyOrder p.payload p'.payload
  basis : SameUpToKeyOrder p.basis p'.basis
  reason : p.reason = p'.reason
  reasonWithheld : p.reasonWithheld = p'.reasonWithheld
  rejectionReason : p.rejectionReason = p'.rejectionReason
  notesWithheld : p.notesWithheld = p'.notesWithheld

/-! ## Blanking, constructor by constructor -/

section Blank

variable {amount blocks : JsString → Bool}

theorem blank_arr (block : Bool) (l : List JsVal) :
    blank amount blocks block (.arr l) = .arr (l.map (blank amount blocks false)) := by
  have helems : blankElems amount blocks l = l.map (blank amount blocks false) := by
    induction l with
    | nil => simp [blankElems]
    | cons v rest ih => simp [blankElems, ih]
  rw [blank, helems]

theorem blank_obj (block : Bool) (ms : List (JsString × JsVal)) :
    blank amount blocks block (.obj ms) =
      .obj ((ms.filter fun m => !(block && contractTermsKeys.contains m.1)).map fun m =>
        (m.1, if amount m.1 then .null else blank amount blocks (blocks m.1) m.2)) := by
  have hmembers : blankMembers amount blocks block ms =
      (ms.filter fun m => !(block && contractTermsKeys.contains m.1)).map fun m =>
        (m.1, if amount m.1 then .null else blank amount blocks (blocks m.1) m.2) := by
    induction ms with
    | nil => simp [blankMembers]
    | cons m rest ih =>
      rw [blankMembers]
      by_cases hk : block && contractTermsKeys.contains m.1
      · rw [if_pos hk, ih, filter_cons_of_neg (by simpa using hk)]
      · rw [if_neg hk, ih,
          filter_cons_of_pos (by simpa [imp_iff_not_or] using hk), map_cons]
  rw [blank, hmembers]

@[simp] theorem isObj_blank (block : Bool) (v : JsVal) :
    (blank amount blocks block v).isObj = v.isObj := by
  cases v <;> simp [blank, JsVal.isObj]

theorem blank_of_not_isObj {v : JsVal} (h : v.isObj = false) (block : Bool) :
    blank amount blocks block v = blank amount blocks false v := by
  cases v with
  | obj ms => cases h
  | arr l => rw [blank_arr, blank_arr]
  | _ => rfl

end Blank

/-! ## The amounts -/

section Amounts

variable {amount : JsString → Bool} {marker : String}

/-- What a member that is no amount has become of it, blanked before or not. -/
theorem filter_map_blank {β : Type} (blocks : JsString → Bool) (block : Bool)
    (f : JsString × JsVal → β) {ms : List (JsString × JsVal)}
    (hf : ∀ m ∈ ms, amount m.1 = false → f (m.1, blank amount blocks (blocks m.1) m.2) = f m) :
    (((ms.filter fun m => !(block && contractTermsKeys.contains m.1)).map fun m =>
        (m.1, if amount m.1 then .null else blank amount blocks (blocks m.1) m.2)).filter
          fun m => !amount m.1).map f =
      ((ms.filter fun m => !amount m.1).filter fun m =>
        !(block && contractTermsKeys.contains m.1)).map f := by
  rw [filter_map, map_map, filter_filter, filter_filter]
  have hcond : ∀ m : JsString × JsVal,
      (((fun m : JsString × JsVal => !amount m.1) ∘ fun m : JsString × JsVal =>
        (m.1, if amount m.1 then JsVal.null else blank amount blocks (blocks m.1) m.2)) m &&
          !(block && contractTermsKeys.contains m.1)) =
        (!(block && contractTermsKeys.contains m.1) && !amount m.1) :=
    fun m => Bool.and_comm _ _
  rw [filter_congr fun m _ => hcond m]
  refine map_congr_left fun m hm => ?_
  obtain ⟨hmem, hcond⟩ := mem_filter.mp hm
  have hamount : amount m.1 = false := by
    simp only [Bool.and_eq_true, Bool.not_eq_true'] at hcond
    exact hcond.2
  simp only [Function.comp_apply, hamount, Bool.false_eq_true, if_false]
  exact hf m hmem hamount

theorem redact_blank (v : JsVal) :
    redact amount marker (blank amount (fun _ => false) false v) = redact amount marker v := by
  induction v with
  | arr l ih =>
    rw [blank_arr, redact_arr, redact_arr, map_map]
    congr 1
    exact map_congr_left fun v hv => ih v hv
  | obj ms ih =>
    rw [blank_obj, redact_obj, redact_obj]
    have hval : ∀ m ∈ ms, amount m.1 = false →
        (m.1, redact amount marker (blank amount (fun _ => false) false m.2)) =
          (m.1, redact amount marker m.2) := fun m hm _ => by rw [ih m hm]
    rw [filter_map_blank (fun _ => false) false (fun m => (m.1, redact amount marker m.2)) hval]
    simp [any_map, Function.comp_def]
  | _ => rfl

end Amounts

/-! ## The terms of contract blocks -/

section Terms

variable {amount : JsString → Bool} {marker : String}

/-- What both walks make of one member. -/
def withheldRow (amount : JsString → Bool) (marker : String) (m : JsString × JsVal) :
    JsString × JsVal :=
  withholdTermsAt (m.1, redact amount marker m.2)

theorem withholdTermsDeep_redact_obj (ms : List (JsString × JsVal)) :
    withholdTermsDeep (redact amount marker (.obj ms)) =
      .obj (copyEntries (markIf (ms.any fun m => amount m.1) marker
        (copyEntries ((ms.filter fun m => !amount m.1).map (withheldRow amount marker))))) := by
  have hmarker : withholdTermsAt (js marker, financeAmountWithheld) =
      (js marker, financeAmountWithheld) := by
    simp [withholdTermsAt, financeAmountWithheld, isRecord, JsVal.isObj, withholdTermsDeep]
  rw [redact_obj, withholdTermsDeep_obj, map_markIf withholdTermsAt_fst hmarker,
    map_copyEntries withholdTermsAt_fst, map_map]
  rfl

theorem withholdTermsDeep_redact_blank
    (hterms : ∀ k, contractTermsKeys.contains k = true → amount k = false) (block : Bool)
    {ms : List (JsString × JsVal)}
    (hrow : ∀ m ∈ ms, withheldRow amount marker
        (m.1, blank amount contractTermsBlockKeys.contains
          (contractTermsBlockKeys.contains m.1) m.2)
      = withheldRow amount marker m) :
    withholdTermsDeep (redact amount marker
        (blank amount contractTermsBlockKeys.contains block (.obj ms))) =
      .obj (copyEntries (markIf (ms.any fun m => amount m.1) marker
        (copyEntries (((ms.filter fun m => !amount m.1).map (withheldRow amount marker)).filter
          fun m => !(block && contractTermsKeys.contains m.1))))) := by
  rw [blank_obj, withholdTermsDeep_redact_obj, filter_map_blank _ _ _ fun m hm _ => hrow m hm,
    filter_map]
  -- no terms key is an amount key, so the marker stands as it would
  have hany : (((ms.filter fun m => !(block && contractTermsKeys.contains m.1)).map fun m =>
      (m.1, if amount m.1 then JsVal.null
        else blank amount contractTermsBlockKeys.contains
          (contractTermsBlockKeys.contains m.1) m.2)).any fun m => amount m.1) =
      ms.any fun m => amount m.1 := by
    rw [any_map, any_filter]
    congr 1
    funext m
    cases hm : contractTermsKeys.contains m.1 with
    | true => simp [hterms m.1 hm]
    | false => simp
  rw [hany]
  rfl

/-- A block is redacted alike with and without its terms, and any other value
alike whatever the terms of the blocks in it. -/
theorem withholdTerms_blank (hterms : ∀ k, contractTermsKeys.contains k = true → amount k = false)
    (hmarker : contractTermsKeys.contains (js marker) = false) (v : JsVal) :
    withholdTermsDeep (redact amount marker
        (blank amount contractTermsBlockKeys.contains false v)) =
      withholdTermsDeep (redact amount marker v) ∧
    (v.isObj = true →
      withholdContractTerms (withholdTermsDeep (redact amount marker
        (blank amount contractTermsBlockKeys.contains true v))) false =
      withholdContractTerms (withholdTermsDeep (redact amount marker v)) false) := by
  induction v with
  | arr l ih =>
    refine ⟨?_, fun h => by cases h⟩
    rw [blank_arr, redact_arr, redact_arr, withholdTermsDeep_arr, withholdTermsDeep_arr]
    simp only [map_map]
    congr 1
    exact map_congr_left fun v hv => (ih v hv).1
  | obj ms ih =>
    have hrow : ∀ m ∈ ms, withheldRow amount marker
        (m.1, blank amount contractTermsBlockKeys.contains
          (contractTermsBlockKeys.contains m.1) m.2)
        = withheldRow amount marker m := by
      intro m hm
      obtain ⟨hplain, hblock⟩ := ih m hm
      simp only [withheldRow, withholdTermsAt, isRecord, isObj_redact, isObj_blank]
      cases hk : contractTermsBlockKeys.contains m.1 with
      | false => simp [hplain]
      | true =>
        cases hobj : m.2.isObj with
        | true => simp [hblock hobj]
        | false => simp [blank_of_not_isObj hobj true, hplain]
    constructor
    · rw [withholdTermsDeep_redact_blank hterms false hrow, withholdTermsDeep_redact_obj]
      simp
    · intro _
      rw [withholdTermsDeep_redact_blank hterms true hrow, withholdTermsDeep_redact_obj,
        withholdContractTerms_obj, withholdContractTerms_obj]
      have hkeep : (!contractTermsKeys.contains (js marker)) = true := by rw [hmarker]; rfl
      have hpass : ∀ out : List (JsString × JsVal),
          (copyEntries (markIf (ms.any fun m => amount m.1) marker (copyEntries out))).filter
              (fun m => !contractTermsKeys.contains m.1) =
            copyEntries (markIf (ms.any fun m => amount m.1) marker
              (copyEntries (out.filter fun m => !contractTermsKeys.contains m.1))) := by
        intro out
        rw [filter_copyEntries (fun k => !contractTermsKeys.contains k),
          filter_markIf (p := fun k => !contractTermsKeys.contains k) hkeep,
          filter_copyEntries (fun k => !contractTermsKeys.contains k)]
      rw [hpass, hpass, filter_filter]
      simp
  | _ => exact ⟨rfl, fun h => by cases h⟩

end Terms

/-! ## The evidence -/

theorem withholdTermsDeep_redact_blankEvidence {amount : JsString → Bool} {marker : String}
    (hmarker : financialEvidenceKeys.contains (js marker) = false) (v : JsVal) :
    withholdTermsDeep (redact amount marker (blankEvidence v)) =
      blankEvidence (withholdTermsDeep (redact amount marker v)) := by
  cases v with
  | obj ms =>
    have hfst : ∀ m, (blankEvidenceAt m).1 = m.1 := fun _ => rfl
    have hmark : blankEvidenceAt (js marker, financeAmountWithheld) =
        (js marker, financeAmountWithheld) := by
      simp only [blankEvidenceAt, hmarker, Bool.false_eq_true, if_false]
    have hrow : ∀ m, withheldRow amount marker (blankEvidenceAt m) =
        blankEvidenceAt (withheldRow amount marker m) := by
      intro m
      simp only [withheldRow, blankEvidenceAt, withholdTermsAt]
      by_cases hk : financialEvidenceKeys.contains m.1 = true
      · simp only [if_pos hk]
        simp [redact, withholdTermsDeep, isRecord, JsVal.isObj]
      · simp only [if_neg hk]
    rw [blankEvidence, withholdTermsDeep_redact_obj, withholdTermsDeep_redact_obj, blankEvidence,
      map_copyEntries hfst, map_markIf hfst hmark, map_copyEntries hfst, filter_map,
      map_map, map_map]
    simp only [any_map, Function.comp_def, hfst, hrow]
  | arr l => simp only [blankEvidence, redact_arr, withholdTermsDeep_arr]
  | _ => rfl

theorem withholdEvidence_blankEvidence (v : JsVal) :
    withholdEvidence (blankEvidence v) = withholdEvidence v := by
  cases v with
  | obj ms =>
    have hkeep : ((ms.map blankEvidenceAt).filter fun m => !financialEvidenceKeys.contains m.1) =
        ms.filter fun m => !financialEvidenceKeys.contains m.1 := by
      rw [filter_map]
      conv_rhs => rw [← map_id (ms.filter fun m => !financialEvidenceKeys.contains m.1)]
      refine map_congr_left fun m hm => ?_
      have hm' : financialEvidenceKeys.contains m.1 = false :=
        Bool.not_eq_true' _ ▸ (mem_filter.mp hm).2
      simp only [blankEvidenceAt, hm', Bool.false_eq_true, if_false, id]
    show JsVal.obj _ = JsVal.obj _
    rw [hkeep, any_map]
    rfl
  | _ => rfl

/-! ## The order of members -/

section Order

theorem alike_markIf {ms ms' : List (JsString × JsVal)} (h : AlikeMembers ms ms')
    {marker : String} (hmarker : js marker ≠ protoKey) (withheld : Bool) :
    AlikeMembers (markIf withheld marker ms) (markIf withheld marker ms') := by
  cases withheld with
  | false => exact h
  | true => exact h.assign hmarker rfl

theorem alike_redact (amount : JsString → Bool) {marker : String}
    (hmarker : js marker ≠ protoKey) {v w : JsVal} (h : Alike v w) :
    Alike (redact amount marker v) (redact amount marker w) := by
  refine Alike.induct (P := fun v w => Alike (redact amount marker v) (redact amount marker w))
    ?leaf ?arr ?obj v w h
  case leaf =>
    intro v hwf hobj harr
    have hsame : redact amount marker v = v := by
      cases v with
      | arr l => exact absurd rfl (harr l)
      | obj ms => cases hobj
      | _ => rfl
    rw [hsame]
    exact .refl hwf
  case arr =>
    intro l l' ih
    rw [redact_arr, redact_arr, alike_arr, forall₂_map_left_iff, forall₂_map_right_iff]
    exact ih
  case obj =>
    intro ms ms' hms ih
    rw [redact_obj, redact_obj, alike_obj, hms.any_eq amount]
    refine alike_markIf (AlikeMembers.copyEntries ?_) hmarker _
    refine (hms.filter fun k => !amount k).map (fun _ => rfl) fun k v w hv hw => ?_
    exact ih k v w (mem_of_mem_filter hv) (mem_of_mem_filter hw)

theorem alike_drop {ms ms' : List (JsString × JsVal)} (h : AlikeMembers ms ms')
    (hides : JsString → Bool) {marker : String} (hmarker : js marker ≠ protoKey)
    (withheld : Bool) :
    Alike (.obj (markIf withheld marker (copyEntries (ms.filter fun m => !hides m.1))))
      (.obj (markIf withheld marker (copyEntries (ms'.filter fun m => !hides m.1)))) :=
  alike_obj.mpr (alike_markIf (h.filter fun k => !hides k).copyEntries hmarker withheld)

theorem alike_withholdContractTerms {v w : JsVal} (h : Alike v w) :
    Alike (withholdContractTerms v false) (withholdContractTerms w false) := by
  cases v with
  | obj ms =>
    cases w with
    | obj ms' => exact alike_drop (alike_obj.mp h) contractTermsKeys.contains (by decide) true
    | _ => cases h.same
  | _ =>
    cases w with
    | obj ms' => cases h.same
    | _ => exact h

theorem alike_withholdEvidence {v w : JsVal} (h : Alike v w) :
    Alike (withholdEvidence v) (withholdEvidence w) := by
  cases v with
  | obj ms =>
    cases w with
    | obj ms' =>
      have hms := alike_obj.mp h
      rw [withholdEvidence, withholdEvidence, hms.any_eq financialEvidenceKeys.contains]
      exact alike_drop hms financialEvidenceKeys.contains (by decide) _
    | _ => cases h.same
  | _ =>
    cases w with
    | obj ms' => cases h.same
    | _ => exact h

theorem alike_withholdTermsDeep {v w : JsVal} (h : Alike v w) :
    Alike (withholdTermsDeep v) (withholdTermsDeep w) := by
  refine Alike.induct (P := fun v w => Alike (withholdTermsDeep v) (withholdTermsDeep w))
    ?leaf ?arr ?obj v w h
  case leaf =>
    intro v hwf hobj harr
    have hsame : withholdTermsDeep v = v := by
      cases v with
      | arr l => exact absurd rfl (harr l)
      | obj ms => cases hobj
      | _ => rfl
    rw [hsame]
    exact .refl hwf
  case arr =>
    intro l l' ih
    rw [withholdTermsDeep_arr, withholdTermsDeep_arr, alike_arr, forall₂_map_left_iff,
      forall₂_map_right_iff]
    exact ih
  case obj =>
    intro ms ms' hms ih
    rw [withholdTermsDeep_obj, withholdTermsDeep_obj, alike_obj]
    refine (hms.map withholdTermsAt_fst fun k v w hv hw => ?_).copyEntries
    have hobj : isRecord v = isRecord w := (hms.vals k v w hv hw).isObj_eq
    by_cases hblock : (contractTermsBlockKeys.contains k && isRecord v) = true
    · rw [withholdTermsAt, withholdTermsAt, if_pos hblock, if_pos (hobj ▸ hblock)]
      exact alike_withholdContractTerms (ih k v w hv hw)
    · rw [withholdTermsAt, withholdTermsAt, if_neg hblock, if_neg (hobj ▸ hblock)]
      exact ih k v w hv hw

theorem wf_blank {amount blocks : JsString → Bool} {v : JsVal} (h : v.wf = true) :
    ∀ block, (blank amount blocks block v).wf = true := by
  induction v with
  | arr l ih =>
    intro block
    rw [blank_arr, JsVal.wf_arr]
    intro w hw
    obtain ⟨v, hv, rfl⟩ := mem_map.mp hw
    exact ih v hv (JsVal.wf_arr.mp h v hv) false
  | obj ms ih =>
    intro block
    obtain ⟨hnd, hwf⟩ := JsVal.wf_obj.mp h
    rw [blank_obj, JsVal.wf_obj]
    constructor
    · rw [map_map]
      exact hnd.sublist (filter_sublist.map Prod.fst)
    · intro m hm
      obtain ⟨m', hm', rfl⟩ := mem_map.mp hm
      have hmem := mem_of_mem_filter hm'
      by_cases hk : amount m'.1 = true
      · simp [hk, JsVal.wf]
      · simp only [hk, Bool.false_eq_true, if_false]
        exact ih m' hmem (hwf m' hmem) _
  | _ => exact fun block => h

theorem wf_blankEvidence {v : JsVal} (h : v.wf = true) : (blankEvidence v).wf = true := by
  cases v with
  | obj ms =>
    obtain ⟨hnd, hwf⟩ := JsVal.wf_obj.mp h
    rw [blankEvidence, JsVal.wf_obj]
    constructor
    · rw [map_map]
      exact hnd
    · intro m hm
      obtain ⟨m', hm', rfl⟩ := mem_map.mp hm
      rw [blankEvidenceAt]
      split
      · rfl
      · exact hwf m' hm'
  | _ => exact h

end Order

/-! ## The projection -/

/-- What a reader without access is shown of the payload. -/
def shownPayload (actionType : JsString) (hidesText : Bool) (payload : JsVal) : JsVal :=
  let shown :=
    withholdTermsDeep (redact (amountKey actionType) "amount_withheld" (recordOr payload))
  if hidesText then withholdEvidence shown else shown

theorem withholdChangeRequestAmounts_eq (actionType : JsString) (obj : JsVal) :
    withholdChangeRequestAmounts (some actionType) obj false =
      redact (amountKey actionType) "amount_withheld" obj := by
  simp only [withholdChangeRequestAmounts, amountKey, Option.any_some, Bool.false_eq_true,
    if_false]
  split <;> rfl

theorem projectChangeRequestFinance_eq {reader : FinanceReader}
    (hread : reader.amountAccess = false) (r : ChangeRequestProjectionInput) :
    projectChangeRequestFinance r reader =
      { payload := shownPayload r.actionType (hidesRequesterText reader r) r.payload.val
        basis := redact (amountKey r.actionType) "amount_withheld" (recordOr r.chainBasis)
        reason := if hidesRequesterText reader r then none else some r.reason
        reasonWithheld :=
          if hidesRequesterText reader r then some financeAmountWithheld else none
        rejectionReason :=
          if isFinancialRequestAction (some r.actionType) then none else some r.rejectionReason
        notesWithheld :=
          if isFinancialRequestAction (some r.actionType) then some financeAmountWithheld
          else none } := by
  simp only [projectChangeRequestFinance, hread, withholdChangeRequestAmounts_eq,
    withholdContractTermsDeep, shownPayload, hidesRequesterText, Bool.false_or]
  by_cases hfinancial : isFinancialRequestAction (some r.actionType) = true
  · by_cases hrequester : reader.isRequester r = true
    · simp [hfinancial, hrequester]
    · simp [hfinancial, hrequester]
  · simp [hfinancial]

theorem amountKey_terms (actionType k : JsString) (h : contractTermsKeys.contains k = true) :
    amountKey actionType k = false := by
  have hk : k = js "terms" ∨ k = js "recorded_terms" := by simpa [contractTermsKeys] using h
  simp only [amountKey]
  rcases hk with rfl | rfl
  · split <;> decide
  · split <;> decide

theorem recordOr_of_isObj {v : JsVal} (h : v.isObj = true) : recordOr v = v := if_pos h

theorem recordOr_of_not_isObj {v : JsVal} (h : v.isObj = false) : recordOr v = .obj [] :=
  if_neg (by rw [isRecord, h]; exact Bool.false_ne_true)

theorem isObj_blankEvidence (v : JsVal) : (blankEvidence v).isObj = v.isObj := by
  cases v <;> rfl

theorem isObj_visiblePayload (reader : FinanceReader) (r : ChangeRequestProjectionInput) :
    (visiblePayload reader r).isObj = r.payload.val.isObj := by
  rw [visiblePayload]
  split
  · rw [isObj_blankEvidence, isObj_blank]
  · rw [isObj_blank]

/-- **The payload shown is a function of the visible one.** -/
theorem shownPayload_visiblePayload (reader : FinanceReader) (r : ChangeRequestProjectionInput) :
    shownPayload r.actionType (hidesRequesterText reader r) (visiblePayload reader r) =
      shownPayload r.actionType (hidesRequesterText reader r) r.payload.val := by
  have hterms := (withholdTerms_blank (amountKey_terms r.actionType)
    (show contractTermsKeys.contains (js "amount_withheld") = false by decide) r.payload.val).1
  have hvisible := isObj_visiblePayload reader r
  cases hobj : r.payload.val.isObj with
  | false =>
    rw [shownPayload, shownPayload, recordOr_of_not_isObj hobj,
      recordOr_of_not_isObj (hvisible.trans hobj)]
  | true =>
    rw [shownPayload, shownPayload, recordOr_of_isObj hobj,
      recordOr_of_isObj (hvisible.trans hobj), visiblePayload]
    by_cases htext : hidesRequesterText reader r = true
    · simp only [if_pos htext]
      rw [withholdTermsDeep_redact_blankEvidence (by decide), withholdEvidence_blankEvidence,
        hterms]
    · simp only [if_neg htext]
      exact hterms

theorem redact_visibleBasis (r : ChangeRequestProjectionInput) :
    redact (amountKey r.actionType) "amount_withheld" (recordOr (visibleBasis r)) =
      redact (amountKey r.actionType) "amount_withheld" (recordOr r.chainBasis) := by
  cases hobj : r.chainBasis.isObj with
  | false =>
    rw [visibleBasis, recordOr_of_not_isObj hobj,
      recordOr_of_not_isObj ((isObj_blank _ _).trans hobj)]
  | true =>
    rw [visibleBasis, recordOr_of_isObj hobj, recordOr_of_isObj ((isObj_blank _ _).trans hobj)]
    exact redact_blank r.chainBasis

theorem wf_prop {v : JsVal} (h : v.wf = true) (k : String) : (v.prop k).wf = true := by
  cases v with
  | obj ms =>
    rw [JsVal.prop]
    cases hfind : ms.find? (·.1 == js k) with
    | none => rfl
    | some m => exact (JsVal.wf_obj.mp h).2 m (mem_of_find?_eq_some hfind)
  | _ => rfl

theorem wf_recordOr {v : JsVal} (h : v.wf = true) : (recordOr v).wf = true := by
  rw [recordOr]
  split
  · exact h
  · rfl

theorem alike_recordOr {v w : JsVal} (h : Alike v w) : Alike (recordOr v) (recordOr w) := by
  cases hobj : v.isObj with
  | false =>
    rw [recordOr_of_not_isObj hobj, recordOr_of_not_isObj (h.isObj_eq.symm.trans hobj)]
    exact .refl rfl
  | true =>
    rw [recordOr_of_isObj hobj, recordOr_of_isObj (h.isObj_eq.symm.trans hobj)]
    exact h

theorem alike_shownPayload (actionType : JsString) (hidesText : Bool) {v w : JsVal}
    (h : Alike v w) :
    Alike (shownPayload actionType hidesText v) (shownPayload actionType hidesText w) := by
  have hmarker : js "amount_withheld" ≠ protoKey := by decide
  have hshown := alike_withholdTermsDeep
    (alike_redact (amountKey actionType) hmarker (alike_recordOr h))
  cases hidesText with
  | false => exact hshown
  | true => exact alike_withholdEvidence hshown

theorem wf_visiblePayload (reader : FinanceReader) (r : ChangeRequestProjectionInput) :
    (visiblePayload reader r).wf = true := by
  rw [visiblePayload]
  split
  · exact wf_blankEvidence (wf_blank r.payload.wf false)
  · exact wf_blank r.payload.wf false

theorem wf_visibleBasis (r : ChangeRequestProjectionInput) : (visibleBasis r).wf = true :=
  wf_blank (wf_prop (wf_recordOr r.requiredChain.wf) "basis") false

namespace SameForReader

variable {same : JsVal → JsVal → Prop} {reader : FinanceReader}
  {r r' : ChangeRequestProjectionInput}

section

variable (h : SameForReader same reader r r')

include h

theorem hidesText_eq :
    hidesRequesterText reader r = hidesRequesterText reader r' := by
  rw [hidesRequesterText, hidesRequesterText, FinanceReader.isRequester,
    FinanceReader.isRequester, h.actionType, h.requestedBy]

theorem shownReason_eq :
    (if hidesRequesterText reader r then none else some r.reason) =
      if hidesRequesterText reader r' then none else some r'.reason := by
  rw [← h.hidesText_eq]
  by_cases htext : hidesRequesterText reader r = true
  · rw [if_pos htext, if_pos htext]
  · rw [if_neg htext, if_neg htext, h.reason (by simpa using htext)]

theorem shownRejection_eq :
    (if isFinancialRequestAction (some r.actionType) then none else some r.rejectionReason) =
      if isFinancialRequestAction (some r'.actionType) then none
        else some r'.rejectionReason := by
  rw [← h.actionType]
  by_cases hfinancial : isFinancialRequestAction (some r.actionType) = true
  · rw [if_pos hfinancial, if_pos hfinancial]
  · rw [if_neg hfinancial, if_neg hfinancial, h.rejectionReason (by simpa using hfinancial)]

end

end SameForReader

/-- **A reader without access learns nothing that is withheld**, not even from
the shape of the rest; and access shows the payload as it is stored. -/
theorem projectChangeRequestFinance_withholds (reader : FinanceReader) :
    (reader.amountAccess = false → ∀ r r' : ChangeRequestProjectionInput,
      (SameForReader Eq reader r r' →
        projectChangeRequestFinance r reader = projectChangeRequestFinance r' reader) ∧
      (SameForReader SameUpToKeyOrder reader r r' →
        SameProjection (projectChangeRequestFinance r reader)
          (projectChangeRequestFinance r' reader))) ∧
    (reader.amountAccess = true → ∀ r : ChangeRequestProjectionInput,
      (projectChangeRequestFinance r reader).payload =
        if isRecord r.payload.val then r.payload.val else .obj []) := by
  constructor
  · intro hread r r'
    rw [projectChangeRequestFinance_eq hread r, projectChangeRequestFinance_eq hread r',
      ← shownPayload_visiblePayload reader r, ← shownPayload_visiblePayload reader r',
      ← redact_visibleBasis r, ← redact_visibleBasis r']
    constructor
    · intro h
      rw [h.shownReason_eq, h.shownRejection_eq, h.payload, h.basis, h.hidesText_eq,
        h.actionType]
    · intro h
      rw [h.shownReason_eq, h.shownRejection_eq, h.hidesText_eq, h.actionType]
      have hpayload : Alike (visiblePayload reader r) (visiblePayload reader r') :=
        ⟨wf_visiblePayload reader r, wf_visiblePayload reader r', h.payload⟩
      have hbasis : Alike (visibleBasis r) (visibleBasis r') :=
        ⟨wf_visibleBasis r, wf_visibleBasis r', h.basis⟩
      exact
        { payload := (alike_shownPayload _ _ hpayload).same
          basis := (alike_redact _ (by decide) (alike_recordOr hbasis)).same
          reason := rfl
          reasonWithheld := rfl
          rejectionReason := rfl
          notesWithheld := rfl }
  · intro hread r
    simp [projectChangeRequestFinance, hread, withholdChangeRequestAmounts,
      withholdContractTermsDeep, structuredClone, recordOr]

/-- A credit over an amount, asked for with a contract in hand. -/
def creditRequest (amount : JsNum) (reason : String) (contract : JsValue) :
    ChangeRequestProjectionInput where
  actionType := js "CREDIT"
  requestedBy := js "u1"
  reason := js reason
  rejectionReason := none
  payload :=
    ⟨.obj [(js "amount_minor", .num amount), (js "currency", .str (js "USD")),
        (js "contract", contract.val)],
      JsVal.wf_obj.mpr ⟨show [js "amount_minor", js "currency", js "contract"].Nodup by decide,
        by simp [JsVal.wf, contract.wf]⟩⟩
  requiredChain :=
    ⟨.obj [(js "basis", .obj [(js "amount_minor", .num amount)])],
      JsVal.wf_obj.mpr ⟨by simp, by simp [JsVal.wf, JsVal.wfMembers]⟩⟩

theorem projectChangeRequestFinance_withholds_credit :
    projectChangeRequestFinance
        (creditRequest ⟨js "100", by decide, by decide⟩ "goodwill" ⟨.obj [], rfl⟩)
        ⟨false, some (js "u2")⟩ =
      projectChangeRequestFinance
        (creditRequest ⟨js "4200", by decide, by decide⟩ "double charge"
          ⟨.obj [(js "terms", .str (js "net 30"))], rfl⟩)
        ⟨false, some (js "u2")⟩ :=
  ((projectChangeRequestFinance_withholds ⟨false, some (js "u2")⟩).1 rfl _ _).1
    { actionType := rfl
      requestedBy := rfl
      payload := rfl
      basis := rfl
      reason := fun h => absurd h (by decide)
      rejectionReason := fun _ => rfl }

/-- A request with nothing in its payload, and a chain with this basis. -/
def requestWithBasis (actionType : String) (basis : JsValue) : ChangeRequestProjectionInput where
  actionType := js actionType
  requestedBy := js "u1"
  reason := js "renewal"
  rejectionReason := none
  payload := ⟨.obj [], rfl⟩
  requiredChain :=
    ⟨.obj [(js "basis", basis.val)],
      JsVal.wf_obj.mpr ⟨by simp, by simp [basis.wf]⟩⟩

/-- A contract with terms, as a basis would hold it. -/
def contractBasis (terms : String) : JsValue :=
  ⟨.obj [(js "contract", .obj [(js "terms", .str (js terms))])], rfl⟩

/-- Evidence, as a basis would hold it. -/
def categoryBasis (category : String) : JsValue :=
  ⟨.obj [(js "category", .str (js category))], rfl⟩

/-- Terms and evidence are withheld from the payload alone: in the basis of a
chain they show. A payload that is no object is not returned, access or not. -/
theorem basis_shows_terms_and_evidence :
    (blank (amountKey (js "SUBSCRIPTION_OPEN")) contractTermsBlockKeys.contains false
        (contractBasis "net 30").val =
      blank (amountKey (js "SUBSCRIPTION_OPEN")) contractTermsBlockKeys.contains false
        (contractBasis "net 60").val ∧
      (projectChangeRequestFinance
        (requestWithBasis "SUBSCRIPTION_OPEN" (contractBasis "net 30")) ⟨false, none⟩).basis ≠
      (projectChangeRequestFinance
        (requestWithBasis "SUBSCRIPTION_OPEN" (contractBasis "net 60")) ⟨false, none⟩).basis) ∧
    (blankEvidence (categoryBasis "duplicate").val = blankEvidence (categoryBasis "goodwill").val ∧
      (projectChangeRequestFinance
        (requestWithBasis "REFUND" (categoryBasis "duplicate")) ⟨false, none⟩).basis ≠
      (projectChangeRequestFinance
        (requestWithBasis "REFUND" (categoryBasis "goodwill")) ⟨false, none⟩).basis) ∧
    (projectChangeRequestFinance
        { requestWithBasis "REFUND" ⟨.obj [], rfl⟩ with payload := ⟨.arr [.null], rfl⟩ }
        ⟨true, none⟩).payload ≠ .arr [.null] := by
  have hterms : ∀ terms, blank (amountKey (js "SUBSCRIPTION_OPEN"))
      contractTermsBlockKeys.contains false (contractBasis terms).val =
        .obj [(js "contract", .obj [])] := fun _ => rfl
  have hcategory : ∀ category, blankEvidence (categoryBasis category).val =
      .obj [(js "category", .null)] := fun _ => rfl
  refine ⟨⟨?_, ?_⟩, ⟨?_, ?_⟩, fun h => by cases h⟩
  · rw [hterms, hterms]
  · show JsVal.obj [(js "contract", .obj [(js "terms", .str (js "net 30"))])] ≠
      .obj [(js "contract", .obj [(js "terms", .str (js "net 60"))])]
    have hne : js "net 30" ≠ js "net 60" := by decide
    simp [hne]
  · rw [hcategory, hcategory]
  · show JsVal.obj [(js "category", .str (js "duplicate"))] ≠
      .obj [(js "category", .str (js "goodwill"))]
    have hne : js "duplicate" ≠ js "goodwill" := by decide
    simp [hne]

end AramoPlatform.Billing.Finance
