import AramoPlatform.Js.Entries

/-!
# Withholding finance amounts

What a reader without both finance scopes is shown of a commercial change
request: amounts, contract terms, the reason, the evidence and the notes are
omitted, and the object that lost one carries a marker instead.
-/

namespace AramoPlatform.Billing.Finance

open Js

def financeAmountWithheld : JsVal := .str (js "FINANCE_SCOPE_REQUIRED")

/-- A deep copy. -/
def structuredClone (v : JsVal) : JsVal := v

def isRecord : JsVal → Bool := JsVal.isObj

/-- `if (withheld) out[marker] = FINANCE_AMOUNT_WITHHELD`. -/
def markIf (withheld : Bool) (marker : String) (out : List (JsString × JsVal)) :
    List (JsString × JsVal) :=
  if withheld then assign out (js marker, financeAmountWithheld) else out

/-! ## Amounts -/

mutual
/-- The walk that omits the hidden keys at every depth and marks the objects
that lost one. -/
def redact (hides : JsString → Bool) (marker : String) : JsVal → JsVal
  | .arr elems => .arr (redactElems hides marker elems)
  | .obj members =>
      .obj (markIf (members.any fun m => hides m.1) marker
        (copyEntries ((redactMembers hides marker members).filter fun m => !hides m.1)))
  | v => v
termination_by structural v => v

def redactElems (hides : JsString → Bool) (marker : String) : List JsVal → List JsVal
  | [] => []
  | v :: rest => redact hides marker v :: redactElems hides marker rest
termination_by structural l => l

def redactMembers (hides : JsString → Bool) (marker : String) :
    List (JsString × JsVal) → List (JsString × JsVal)
  | [] => []
  | (k, v) :: rest => (k, redact hides marker v) :: redactMembers hides marker rest
termination_by structural l => l
end

def tenantAmountKeys : List JsString := [js "amount_minor"]

/-- `strip`, which on an object is `stripRecord`. -/
def strip (v : JsVal) : JsVal := redact tenantAmountKeys.contains "amount_withheld" v

def monetaryActionTypes : List JsString :=
  [js "CREDIT", js "DISCOUNT", js "REFUND", js "PAYMENT_RECORD"]

def nonTenantAmountKeys : List JsString :=
  [js "credit_escalation_threshold_minor", js "discount_escalation_threshold_bps",
    js "list_price_minor", js "reference_price_minor"]

/-- `/^amount(_|$)/`. -/
def isAmountName (k : JsString) : Bool := k == js "amount" || (js "amount_").isPrefixOf k

def isMonetaryKey (k : JsString) : Bool :=
  !nonTenantAmountKeys.contains k &&
    (tenantAmountKeys.contains k || (js "_minor").isSuffixOf k || isAmountName k)

def stripMonetary (v : JsVal) : JsVal := redact isMonetaryKey "amount_withheld" v

def withholdChangeRequestAmounts (actionType : Option JsString) (obj : JsVal) (access : Bool) :
    JsVal :=
  if access then structuredClone obj
  else if actionType.any monetaryActionTypes.contains then stripMonetary obj
  else strip obj

/-! ## Contract terms -/

def contractTermsKeys : List JsString := [js "terms", js "recorded_terms"]

def contractTermsBlockKeys : List JsString := [js "contract", js "contract_amendment"]

/-- One contract block; every reader without access sees the marker. -/
def withholdContractTerms (obj : JsVal) (access : Bool) : JsVal :=
  if access then structuredClone obj
  else
    match obj with
    | .obj members =>
        .obj (markIf true "terms_withheld"
          (copyEntries (members.filter fun m => !contractTermsKeys.contains m.1)))
    | v => v

mutual
/-- `withholdContractTermsDeep` without access. -/
def withholdTermsDeep : JsVal → JsVal
  | .arr elems => .arr (withholdTermsElems elems)
  | .obj members => .obj (copyEntries (withholdTermsMembers members))
  | v => v
termination_by structural v => v

def withholdTermsElems : List JsVal → List JsVal
  | [] => []
  | v :: rest => withholdTermsDeep v :: withholdTermsElems rest
termination_by structural l => l

def withholdTermsMembers : List (JsString × JsVal) → List (JsString × JsVal)
  | [] => []
  | (k, x) :: rest =>
      (k, if contractTermsBlockKeys.contains k && isRecord x
          then withholdContractTerms (withholdTermsDeep x) false
          else withholdTermsDeep x) :: withholdTermsMembers rest
termination_by structural l => l
end

def withholdContractTermsDeep (v : JsVal) (access : Bool) : JsVal :=
  if access then structuredClone v else withholdTermsDeep v

/-! ## The projection -/

def financialRequestActionTypes : List JsString := monetaryActionTypes

def isFinancialRequestAction (a : Option JsString) : Bool :=
  a.any financialRequestActionTypes.contains

def financialEvidenceKeys : List JsString :=
  [js "category", js "basis", js "refund_policy_ref"]

def withholdEvidence (payload : JsVal) : JsVal :=
  match payload with
  | .obj members =>
      .obj (markIf (members.any fun m => financialEvidenceKeys.contains m.1) "evidence_withheld"
        (copyEntries (members.filter fun m => !financialEvidenceKeys.contains m.1)))
  | v => v

/-- Who is reading; the user id of a caller that is no user is `none`. -/
structure FinanceReader where
  amountAccess : Bool
  userId : Option JsString

/-- The fields of a change request that the projection reads. -/
structure ChangeRequestProjectionInput where
  actionType : JsString
  requestedBy : JsString
  reason : JsString
  rejectionReason : Option JsString
  payload : JsValue
  requiredChain : JsValue

/-- The finance-scoped fields of a projection; an absent field is `none`. -/
structure ChangeRequestFinanceProjection where
  payload : JsVal
  basis : JsVal
  reason : Option JsString
  reasonWithheld : Option JsVal
  rejectionReason : Option (Option JsString)
  notesWithheld : Option JsVal

/-- `isRecord(v) ? v : {}`. -/
def recordOr (v : JsVal) : JsVal := if isRecord v then v else .obj []

/-- `chain['basis']`, where `chain` is the stored chain or `{}`. -/
def ChangeRequestProjectionInput.chainBasis (r : ChangeRequestProjectionInput) : JsVal :=
  (recordOr r.requiredChain.val).prop "basis"

/-- `reader.user_id !== null && reader.user_id === r.requested_by`. -/
def FinanceReader.isRequester (reader : FinanceReader) (r : ChangeRequestProjectionInput) : Bool :=
  reader.userId == some r.requestedBy

def projectChangeRequestFinance (r : ChangeRequestProjectionInput) (reader : FinanceReader) :
    ChangeRequestFinanceProjection :=
  let access := reader.amountAccess
  let basis := withholdChangeRequestAmounts (some r.actionType) (recordOr r.chainBasis) access
  let amounts :=
    withholdChangeRequestAmounts (some r.actionType) (recordOr r.payload.val) access
  let payload := withholdContractTermsDeep amounts access
  if access || !isFinancialRequestAction (some r.actionType) then
    { payload, basis, reason := some r.reason, reasonWithheld := none,
      rejectionReason := some r.rejectionReason, notesWithheld := none }
  else
    let requester := reader.isRequester r
    { payload := if requester then payload else withholdEvidence payload
      basis
      reason := if requester then some r.reason else none
      reasonWithheld := if requester then none else some financeAmountWithheld
      rejectionReason := none
      notesWithheld := some financeAmountWithheld }

/-! ## What each pass does to an object -/

section

variable (hides : JsString → Bool)

include hides

theorem redactElems_eq (marker : String) (l : List JsVal) :
    redactElems hides marker l = l.map (redact hides marker) := by
  induction l with
  | nil => simp [redactElems]
  | cons v rest ih => simp [redactElems, ih]

theorem redactMembers_eq (marker : String)
    (ms : List (JsString × JsVal)) :
    redactMembers hides marker ms = ms.map fun m => (m.1, redact hides marker m.2) := by
  induction ms with
  | nil => simp [redactMembers]
  | cons m rest ih => simp [redactMembers, ih]

theorem redact_obj (marker : String) (ms : List (JsString × JsVal)) :
    redact hides marker (.obj ms) =
      .obj (markIf (ms.any fun m => hides m.1) marker
        (copyEntries ((ms.filter fun m => !hides m.1).map fun m =>
          (m.1, redact hides marker m.2)))) := by
  rw [redact, redactMembers_eq, List.filter_map]
  rfl

theorem redact_arr (marker : String) (l : List JsVal) :
    redact hides marker (.arr l) = .arr (l.map (redact hides marker)) := by
  rw [redact, redactElems_eq]

@[simp] theorem isObj_redact (marker : String) (v : JsVal) :
    (redact hides marker v).isObj = v.isObj := by
  cases v <;> simp [redact, JsVal.isObj]

end

theorem withholdTermsElems_eq (l : List JsVal) :
    withholdTermsElems l = l.map withholdTermsDeep := by
  induction l with
  | nil => simp [withholdTermsElems]
  | cons v rest ih => simp [withholdTermsElems, ih]

/-- What becomes of one member: an object under a contract key loses its terms. -/
def withholdTermsAt (m : JsString × JsVal) : JsString × JsVal :=
  (m.1, if contractTermsBlockKeys.contains m.1 && isRecord m.2
    then withholdContractTerms (withholdTermsDeep m.2) false
    else withholdTermsDeep m.2)

@[simp] theorem withholdTermsAt_fst (m : JsString × JsVal) : (withholdTermsAt m).1 = m.1 := rfl

theorem withholdTermsDeep_obj (ms : List (JsString × JsVal)) :
    withholdTermsDeep (.obj ms) = .obj (copyEntries (ms.map withholdTermsAt)) := by
  have hmembers : withholdTermsMembers ms = ms.map withholdTermsAt := by
    induction ms with
    | nil => simp [withholdTermsMembers]
    | cons m rest ih => simp [withholdTermsMembers, withholdTermsAt, ih]
  rw [withholdTermsDeep, hmembers]

theorem withholdTermsDeep_arr (l : List JsVal) :
    withholdTermsDeep (.arr l) = .arr (l.map withholdTermsDeep) := by
  rw [withholdTermsDeep, withholdTermsElems_eq]

theorem withholdContractTerms_obj (ms : List (JsString × JsVal)) :
    withholdContractTerms (.obj ms) false =
      .obj (markIf true "terms_withheld"
        (copyEntries (ms.filter fun m => !contractTermsKeys.contains m.1))) := rfl

/-! ## Markers -/

theorem map_markIf {f : JsString × JsVal → JsString × JsVal} (hf : ∀ m, (f m).1 = m.1)
    {marker : String} (hmarker : f (js marker, financeAmountWithheld) =
      (js marker, financeAmountWithheld)) (withheld : Bool) (out : List (JsString × JsVal)) :
    (markIf withheld marker out).map f = markIf withheld marker (out.map f) := by
  cases withheld with
  | false => rfl
  | true => simp only [markIf, if_true, map_assign hf, hmarker]

theorem filter_markIf {p : JsString → Bool} {marker : String} (hmarker : p (js marker) = true)
    (withheld : Bool) (out : List (JsString × JsVal)) :
    (markIf withheld marker out).filter (fun m => p m.1) =
      markIf withheld marker (out.filter fun m => p m.1) := by
  cases withheld with
  | false => rfl
  | true => simp [markIf, filter_assign, hmarker]

end AramoPlatform.Billing.Finance
