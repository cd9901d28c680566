import AramoPlatform.Js.Objects
import AramoPlatform.Js.UtcDate

/-!
# The validation of payment terms

`paymentTermsErrors` reads a `payment_terms` block of a contract from outside
and lists what is wrong with it, one line an error. A block without an error is
a plain record: its fields have the types of `PaymentTermsBlock`, and its
obligations have different references.
-/

namespace AramoPlatform.Commercial

open Js Lib

/-- The time zones that `Intl.DateTimeFormat` takes. -/
abbrev AcceptsTimeZone := JsString → Bool

/-! ## Small validators -/

/-- `closed`: the keys of an object that its kind does not have. -/
def closedErrors (o : JsVal) (allowed : List JsString) (place : JsString) : List JsString :=
  (o.keys.filter fun k => !allowed.contains k).map fun k =>
    place ++ (if place = [] then [] else js ".") ++ k ++ js " is not a field of this " ++
      (if place = [] then js "action" else js "block")

/-- A string that is not blank, of at most `max` characters. -/
def isText (max : Nat) : JsVal → Bool
  | .str s => trim s != [] && decide (s.length ≤ max)
  | _ => false

/-- `text`. -/
def textErrors (v : JsVal) (place : JsString) (max : Nat) (optional : Bool) : List JsString :=
  if v.isUndefined && optional then []
  else if isText max v then []
  else [place ++ js " must be a non-empty string of at most " ++ natText max ++ js " characters"]

/-- `positiveInt`. -/
def positiveIntErrors (v : JsVal) (place : JsString) : List JsString :=
  if v.safeInteger.any (1 ≤ ·) then []
  else [place ++ js " must be an integer of at least 1 (minor units)"]

/-- The errors of the elements of an array. Each is checked at its place, against
the names that the elements before it have taken. -/
def eachErrors (place : JsString) (check : JsString → List JsString → JsVal → List JsString)
    (name : JsVal → Option JsString) : Nat → List JsString → List JsVal → List JsString
  | _, _, [] => []
  | i, seen, d :: rest =>
      check (place ++ js "[" ++ natText i ++ js "]") seen d ++
        eachErrors place check name (i + 1) (seen ++ (name d).toList) rest

/-- `SHA256_HEX`. -/
def isSha256Hex (s : JsString) : Bool :=
  s.length == 64 && s.all fun u => isDigit u || (0x61 ≤ u && u ≤ 0x66)

/-- The digest an element takes, when it is one. -/
def documentDigest (d : JsVal) : Option JsString :=
  match d.prop "sha256" with
  | .str s => if d.isObj && isSha256Hex s then some s else none
  | _ => none

def documentErrors (place : JsString) (seen : List JsString) (d : JsVal) : List JsString :=
  if !d.isObj then [place ++ js " must be an object"]
  else
    closedErrors d [js "name", js "sha256", js "byte_size", js "media_type"] place ++
    textErrors (d.prop "name") (place ++ js ".name") 200 false ++
    (match documentDigest d with
      | none => [place ++ js ".sha256 must be a lowercase SHA-256 hex digest"]
      | some digest =>
        if seen.contains digest then [place ++ js ".sha256 repeats another document"] else []) ++
    (if (d.prop "byte_size").isUndefined || (d.prop "byte_size").safeInteger.any (0 ≤ ·) then []
      else [place ++ js ".byte_size must be a non-negative integer"]) ++
    textErrors (d.prop "media_type") (place ++ js ".media_type") 100 true

/-- `documents`. -/
def documentsErrors (v : JsVal) (place : JsString) (optional : Bool) : List JsString :=
  if v.isUndefined && optional then []
  else
    match v with
    | .arr elems =>
      if elems.length ≤ 20 then eachErrors place documentErrors documentDigest 0 [] elems
      else [place ++ js " must be an array of at most 20 documents"]
    | _ => [place ++ js " must be an array of at most 20 documents"]

/-- `DATE.exec`: year, month and day of `YYYY-MM-DD`. -/
def dateParts : JsString → Option (Int × Int × Int)
  | [a, b, c, d, 0x2D, e, f, 0x2D, g, h] =>
      if [a, b, c, d, e, f, g, h].all isDigit then
        some (digitsValue [a, b, c, d], digitsValue [e, f], digitsValue [g, h])
      else none
  | _ => none

/-- A real calendar date: the date that its parts give has these parts. -/
def isCalendarDate : JsVal → Bool
  | .str s =>
      match dateParts s with
      | some (y, mo, d) =>
          (dateUTC y (mo - 1) d 0 0 0 0).any fun t => decide (t.civil = ⟨y, mo - 1, d⟩)
      | none => false
  | _ => false

/-- `[A-Za-z0-9_+-]`. -/
def isZoneUnit (u : UInt16) : Bool :=
  isDigit u || (0x41 ≤ u && u ≤ 0x5A) || (0x61 ≤ u && u ≤ 0x7A) || u == 0x5F || u == 0x2B ||
    u == 0x2D

def isLetter (u : UInt16) : Bool := (0x41 ≤ u && u ≤ 0x5A) || (0x61 ≤ u && u ≤ 0x7A)

/-- `Area/Location` of two or three parts. -/
def isZoneName (s : JsString) : Bool :=
  let parts := s.splitOn 0x2F
  (parts.length == 2 || parts.length == 3) &&
    parts.all (fun part => part != [] && part.all isZoneUnit) && s.head?.any isLetter

def isIanaTimeZone (acceptsTimeZone : AcceptsTimeZone) : JsVal → Bool
  | .str s =>
      1 ≤ s.length && s.length ≤ 64 && (s == js "UTC" || isZoneName s) && acceptsTimeZone s
  | _ => false

/-! ## The block -/

/-- `OBLIGATION_REF_PATTERN`. -/
def isObligationRef (s : JsString) : Bool :=
  s.head?.any (fun u => 0x41 ≤ u && u ≤ 0x5A) && decide (s.length ≤ 40) &&
    s.all fun u => isDigit u || (0x41 ≤ u && u ≤ 0x5A) || u == 0x5F || u == 0x2D

/-- The reference an element takes, when it is one. -/
def obligationName (o : JsVal) : Option JsString :=
  match o.prop "obligation_ref" with
  | .str s => if o.isObj && isObligationRef s then some s else none
  | _ => none

def obligationErrors (place : JsString) (refs : List JsString) (o : JsVal) : List JsString :=
  if !o.isObj then [place ++ js " must be an object"]
  else
    closedErrors o [js "obligation_ref", js "due_date", js "amount_minor",
      js "description"] place ++
    (match obligationName o with
      | none => [place ++ js ".obligation_ref must match ^[A-Z][A-Z0-9_-]\x7b0,39\x7d$"]
      | some name =>
        if refs.contains name then
          [place ++ js ".obligation_ref repeats another obligation (unique within the contract)"]
        else []) ++
    (if isCalendarDate (o.prop "due_date") then []
      else [place ++ js ".due_date must be a calendar date (YYYY-MM-DD)"]) ++
    positiveIntErrors (o.prop "amount_minor") (place ++ js ".amount_minor") ++
    textErrors (o.prop "description") (place ++ js ".description") 500 false

def billingModeErrors (mode : JsVal) (place : JsString) : List JsString :=
  match mode with
  | .undefined | .null =>
    [js "BILLING_MODE_REQUIRED: " ++ place ++
      js ".billing_mode is required (PREPAID or POSTPAID; never assumed)"]
  | .str s =>
    if s = js "PREPAID" ∨ s = js "POSTPAID" then []
    else [js "BILLING_MODE_REQUIRED: " ++ place ++ js ".billing_mode must be PREPAID or POSTPAID"]
  | _ => [js "BILLING_MODE_REQUIRED: " ++ place ++ js ".billing_mode must be PREPAID or POSTPAID"]

def isMode (mode : JsVal) (s : JsString) : Bool :=
  match mode with
  | .str m => m == s
  | _ => false

def postpaidApprovalErrors (mode a : JsVal) (place : JsString) : List JsString :=
  if isMode mode (js "POSTPAID") then
    if a.isUndefined then
      [js "POSTPAID_APPROVAL_REQUIRED: " ++ place ++ js (".postpaid_approval is required " ++
        "for POSTPAID (never inferred from a missing payment)")]
    else if !a.isObj then
      [js "POSTPAID_APPROVAL_REQUIRED: " ++ place ++ js ".postpaid_approval must be an object"]
    else
      closedErrors a [js "statement", js "evidence_ref", js "documents"]
        (place ++ js ".postpaid_approval") ++
      textErrors (a.prop "statement") (js "POSTPAID_APPROVAL_REQUIRED: " ++ place ++
        js ".postpaid_approval.statement") 1000 false ++
      textErrors (a.prop "evidence_ref") (js "POSTPAID_APPROVAL_REQUIRED: " ++ place ++
        js ".postpaid_approval.evidence_ref") 500 false ++
      documentsErrors (a.prop "documents") (place ++ js ".postpaid_approval.documents") true
  else if a.isUndefined then []
  else [place ++ js ".postpaid_approval is carried only by a POSTPAID contract"]

def graceDaysMax : Int := 3650

def paymentTermsMaxObligations : Nat := 120

def graceDaysErrors (v : JsVal) (place : JsString) : List JsString :=
  if v.isUndefined || v.safeInteger.any (fun n => 0 ≤ n && n ≤ graceDaysMax) then []
  else [place ++ js ".grace_days must be an integer between 0 and 3650 (absent = 0)"]

def obligationsErrors (mode v : JsVal) (place : JsString) : List JsString :=
  match v with
  | .arr obs =>
    if obs.length ≤ paymentTermsMaxObligations then
      eachErrors (place ++ js ".obligations") obligationErrors obligationName 0 [] obs ++
        (if isMode mode (js "PREPAID") &&
          !(obs.filterMap obligationName).contains (js "INITIAL") then
          [js "INITIAL_OBLIGATION_REQUIRED: " ++ place ++
            js ".obligations must include obligation_ref INITIAL for a PREPAID contract"]
        else [])
    else [place ++ js ".obligations must be an array of at most 120 obligations"]
  | _ => [place ++ js ".obligations must be an array of at most 120 obligations"]

def paymentTermsErrors (acceptsTimeZone : AcceptsTimeZone) (v : JsVal) (place : JsString)
    (required : Bool) : List JsString :=
  if v.isUndefined then
    if required then
      [js "PAYMENT_TERMS_REQUIRED: " ++ place ++
        js " is required (billing_mode, currency, timezone, obligations; PR-1)"]
    else []
  else if !v.isObj then [js "PAYMENT_TERMS_REQUIRED: " ++ place ++ js " must be an object"]
  else
    closedErrors v [js "billing_mode", js "postpaid_approval", js "currency", js "timezone",
      js "obligations", js "grace_days"] place ++
    billingModeErrors (v.prop "billing_mode") place ++
    postpaidApprovalErrors (v.prop "billing_mode") (v.prop "postpaid_approval") place ++
    (if isMode (v.prop "currency") (js "USD") then []
      else [place ++ js ".currency must be USD (v1)"]) ++
    (if isIanaTimeZone acceptsTimeZone (v.prop "timezone") then []
      else [js "PAYMENT_TIMEZONE_INVALID: " ++ place ++
        js ".timezone must be an IANA time zone (e.g. America/New_York)"]) ++
    graceDaysErrors (v.prop "grace_days") place ++
    obligationsErrors (v.prop "billing_mode") (v.prop "obligations") place

end AramoPlatform.Commercial
