import AramoPlatform.Js.Objects
import AramoPlatform.Lib.Outcome
import AramoPlatform.Subscription.PlanVersion

/-!
# The strict parser of plan terms

The content of a plan version is a stored document. It is read by a parser that
refuses whatever deviates from format 1, and past a checksum, so that no limit
is ever read from a document that is not exactly what was approved.
-/

namespace AramoPlatform.Subscription

open Js Lib

/-! ## The document -/

structure DocumentPlan where
  key : JsString
  productKey : JsString
  name : JsString
  description : Option JsString
  tenantKind : Option JsString
  salesModel : JsString
  listPriceMinor : Option Int
  currency : Option JsString
  referencePriceMinor : Option Int
  referencePriceSubstantiated : Bool
  billingInterval : Option JsString
  commitmentMonths : Option Int
  eligibility : Option JsString
  supportTier : Option JsString
  deriving DecidableEq

structure DocumentAllowance where
  allowanceKey : JsString
  includedQuantity : Option Int
  unlimited : Bool
  period : JsString
  deriving DecidableEq

structure DocumentWindow where
  allowanceKey : JsString
  windowKind : JsString
  limitQuantity : Int
  deriving DecidableEq

structure DocumentCapacity where
  capacityKey : JsString
  limitQuantity : Option Int
  unlimited : Bool
  deriving DecidableEq

structure DocumentFeature where
  featureKey : JsString
  enabled : Bool
  deriving DecidableEq

structure DocumentUnitPrice where
  unitKey : JsString
  unitPriceMinor : Int
  deriving DecidableEq

inductive PriceInterval where
  | month
  | year
  deriving DecidableEq

structure DocumentRegionalPrice where
  country : JsString
  currency : JsString
  amountMinor : Int
  interval : PriceInterval
  deriving DecidableEq

/-- `PlanVersionContent`, as it is parsed. -/
structure PlanDocument where
  plan : DocumentPlan
  allowances : List DocumentAllowance
  allowanceWindows : List DocumentWindow
  capacities : List DocumentCapacity
  features : List DocumentFeature
  /-- Absent when no unit is priced, never empty. -/
  unitPrices : Option (List DocumentUnitPrice)
  regionalPrices : Option (List DocumentRegionalPrice)
  deriving DecidableEq

/-! ## Fields -/

/-- `PlanVersionContentError`: its message. -/
abbrev ContentError := JsString

def exactKeys (o : JsVal) (keys : List JsString) (place : JsString) : Except ContentError Unit :=
  let got := sortUnits o.keys
  let want := sortUnits keys
  require (got == want)
    (place ++ js ": keys " ++ joinWith (js ",") got ++ js " are not " ++ joinWith (js ",") want)

def fieldError (place : JsString) (k expected : String) : ContentError :=
  place ++ js "." ++ js k ++ js " must be " ++ js expected

/-- `str`. -/
def strField (o : JsVal) (k : String) (place : JsString) : Except ContentError JsString :=
  match o.prop k with
  | .str s => if s = [] then .error (fieldError place k "a non-empty string") else .ok s
  | _ => .error (fieldError place k "a non-empty string")

def strOrNull (o : JsVal) (k : String) (place : JsString) :
    Except ContentError (Option JsString) :=
  match o.prop k with
  | .null => .ok none
  | .str s => .ok (some s)
  | _ => .error (fieldError place k "a string or null")

def intOrNull (o : JsVal) (k : String) (place : JsString) : Except ContentError (Option Int) :=
  match o.prop k with
  | .null => .ok none
  | v => do
      let n ← orThrow v.safeInteger (fieldError place k "an integer or null")
      .ok (some n)

/-- `int`. -/
def intField (o : JsVal) (k : String) (place : JsString) : Except ContentError Int := do
  let v ← intOrNull o k place
  orThrow v (fieldError place k "an integer")

/-- `bool`. -/
def boolField (o : JsVal) (k : String) (place : JsString) : Except ContentError Bool :=
  match o.prop k with
  | .bool b => .ok b
  | _ => .error (fieldError place k "a boolean")

/-- `arr`. -/
def arrField (o : JsVal) (k : String) : Except ContentError (List JsVal) :=
  match o.prop k with
  | .arr elems =>
      if elems.all (·.isObj) then .ok elems
      else .error (js "content." ++ js k ++ js " must be an array of objects")
  | _ => .error (js "content." ++ js k ++ js " must be an array of objects")

/-- The rows of an array, each with the place that its errors name. -/
def mapRows {α : Type} (name : String) (f : JsVal → JsString → Except ContentError α) :
    Nat → List JsVal → Except ContentError (List α)
  | _, [] => .ok []
  | i, row :: rest => do
      let a ← f row (js "content." ++ js name ++ js "[" ++ natText i ++ js "]")
      let others ← mapRows name f (i + 1) rest
      .ok (a :: others)

/-! ## Rows -/

def parsePlan (p : JsVal) : Except ContentError DocumentPlan := do
  let place := js "content.plan"
  require p.isObj (js "content.plan must be an object")
  exactKeys p [js "key", js "product_key", js "name", js "description", js "tenant_kind",
    js "sales_model", js "list_price_minor", js "currency", js "reference_price_minor",
    js "reference_price_substantiated", js "billing_interval", js "commitment_months",
    js "eligibility", js "support_tier"] place
  let key ← strField p "key" place
  let productKey ← strField p "product_key" place
  let name ← strField p "name" place
  let description ← strOrNull p "description" place
  let tenantKind ← strOrNull p "tenant_kind" place
  let salesModel ← strField p "sales_model" place
  let listPriceMinor ← intOrNull p "list_price_minor" place
  let currency ← strOrNull p "currency" place
  let referencePriceMinor ← intOrNull p "reference_price_minor" place
  let referencePriceSubstantiated ← boolField p "reference_price_substantiated" place
  let billingInterval ← strOrNull p "billing_interval" place
  let commitmentMonths ← intOrNull p "commitment_months" place
  let eligibility ← strOrNull p "eligibility" place
  let supportTier ← strOrNull p "support_tier" place
  .ok ⟨key, productKey, name, description, tenantKind, salesModel, listPriceMinor, currency,
    referencePriceMinor, referencePriceSubstantiated, billingInterval, commitmentMonths,
    eligibility, supportTier⟩

def parseAllowance (a : JsVal) (place : JsString) : Except ContentError DocumentAllowance := do
  exactKeys a [js "allowance_key", js "included_quantity", js "unlimited", js "period"] place
  let allowanceKey ← strField a "allowance_key" place
  let includedQuantity ← intOrNull a "included_quantity" place
  let unlimited ← boolField a "unlimited" place
  let period ← strField a "period" place
  .ok ⟨allowanceKey, includedQuantity, unlimited, period⟩

def parseWindow (a : JsVal) (place : JsString) : Except ContentError DocumentWindow := do
  exactKeys a [js "allowance_key", js "window_kind", js "limit_quantity"] place
  let allowanceKey ← strField a "allowance_key" place
  let windowKind ← strField a "window_kind" place
  let limitQuantity ← intField a "limit_quantity" place
  .ok ⟨allowanceKey, windowKind, limitQuantity⟩

def parseCapacity (a : JsVal) (place : JsString) : Except ContentError DocumentCapacity := do
  exactKeys a [js "capacity_key", js "limit_quantity", js "unlimited"] place
  let capacityKey ← strField a "capacity_key" place
  let limitQuantity ← intOrNull a "limit_quantity" place
  let unlimited ← boolField a "unlimited" place
  .ok ⟨capacityKey, limitQuantity, unlimited⟩

def parseFeature (a : JsVal) (place : JsString) : Except ContentError DocumentFeature := do
  exactKeys a [js "feature_key", js "enabled"] place
  let featureKey ← strField a "feature_key" place
  let enabled ← boolField a "enabled" place
  .ok ⟨featureKey, enabled⟩

/-! ## Prices -/

def meteredUnitKeys : List JsString :=
  [js "sign.sms_message", js "sign.whatsapp_message", js "sign.sms_otp", js "sign.id_verification",
    js "sign.kba", js "sign.qes_signature", js "sign.india_estamp"]

def maxUnitPriceMinor : Int := 10000000

def maxRegionalPriceMinor : Int := 1000000000

def maxRegionalPrices : Nat := 200

def parseUnitPrice (productKey : JsString) (a : JsVal) (place : JsString) :
    Except ContentError DocumentUnitPrice := do
  exactKeys a [js "unit_key", js "unit_price_minor", js "currency"] place
  let unitKey ← strField a "unit_key" place
  require (meteredUnitKeys.contains unitKey)
    (place ++ js ".unit_key must be one of " ++ joinWith (js ", ") meteredUnitKeys)
  require (unitKey.takeWhile (· ≠ 0x2E) == productKey)
    (place ++ js ".unit_key " ++ unitKey ++ js " is not a unit of product " ++ productKey)
  let unitPriceMinor ← intField a "unit_price_minor" place
  require (decide (0 ≤ unitPriceMinor) && decide (unitPriceMinor ≤ maxUnitPriceMinor))
    (place ++ js ".unit_price_minor must be 0..10000000")
  match a.prop "currency" with
  | .str c => require (c == js "USD") (place ++ js ".currency must be USD")
  | _ => .error (place ++ js ".currency must be USD")
  .ok ⟨unitKey, unitPriceMinor⟩

/-- Each row is strictly after the one before it. -/
def ascending {α : Type} (key : α → JsString) : List α → Bool
  | a :: b :: rest => !unitsLe (key b) (key a) && ascending key (b :: rest)
  | _ => true

def parseUnitPrices (raw : JsVal) (productKey : JsString) :
    Except ContentError (List DocumentUnitPrice) := do
  let rows ← arrField raw "unit_prices"
  require (rows ≠ []) (js "content.unit_prices must be omitted when no unit is priced " ++
    js "(never empty)")
  let out ← mapRows "unit_prices" (parseUnitPrice productKey) 0 rows
  require (ascending (·.unitKey) out)
    (js "content.unit_prices must be sorted by unit_key with no duplicate")
  .ok out

/-- `count` letters from `A` to `Z`. -/
def isUpperCode (count : Nat) (s : JsString) : Bool :=
  s.length == count && s.all fun u => 0x41 ≤ u && u ≤ 0x5A

def intervalOf (v : JsVal) : Option PriceInterval :=
  match v with
  | .str s => if s = js "MONTH" then some .month else if s = js "YEAR" then some .year else none
  | _ => none

def parseRegionalPrice (a : JsVal) (place : JsString) :
    Except ContentError DocumentRegionalPrice := do
  exactKeys a [js "country", js "currency", js "amount_minor", js "interval"] place
  let country ← strField a "country" place
  require (isUpperCode 2 country)
    (place ++ js ".country must be an upper-case ISO 3166-1 alpha-2 code")
  require (country != js "US")
    (place ++ js ".country US is the plan's list price, not a regional price")
  let currency ← strField a "currency" place
  require (isUpperCode 3 currency) (place ++ js ".currency must be an upper-case ISO 4217 code")
  let amountMinor ← intField a "amount_minor" place
  require (decide (0 ≤ amountMinor) && decide (amountMinor ≤ maxRegionalPriceMinor))
    (place ++ js ".amount_minor must be 0..1000000000")
  let interval ← orThrow (intervalOf (a.prop "interval"))
    (place ++ js ".interval must be MONTH or YEAR")
  .ok ⟨country, currency, amountMinor, interval⟩

def regionalKey (r : DocumentRegionalPrice) : JsString :=
  r.country ++ [0] ++ (match r.interval with
    | .month => js "MONTH"
    | .year => js "YEAR")

def parseRegionalPrices (raw : JsVal) : Except ContentError (List DocumentRegionalPrice) := do
  let rows ← arrField raw "regional_prices"
  require (rows ≠ [])
    (js "content.regional_prices must be omitted when no regional price is set (never empty)")
  require (decide (rows.length ≤ maxRegionalPrices))
    (js "content.regional_prices holds at most 200 entries")
  let out ← mapRows "regional_prices" parseRegionalPrice 0 rows
  require (ascending regionalKey out)
    (js "content.regional_prices must be sorted by country then interval with no duplicate")
  .ok out

/-! ## The parser -/

/-- The names of a row are all different. -/
def uniqueKeys (name : String) (keys : List JsString) : Except ContentError Unit :=
  require (decide keys.Nodup) (js "content." ++ js name ++ js " has a duplicate key")

/-- An optional key of the document. -/
def whenPresent {α : Type} (raw : JsVal) (k : String) (parsed : Except ContentError α) :
    Except ContentError (Option α) :=
  if raw.hasProp k then parsed.map some else .ok none

def isFormatOne : JsVal → Bool := fun v => v.safeInteger == some 1

def parsePlanVersionContent (raw : JsVal) : Except ContentError PlanDocument := do
  require raw.isObj (js "content must be an object")
  exactKeys raw ([js "format", js "plan", js "allowances", js "allowance_windows", js "capacities",
    js "features"] ++ (if raw.hasProp "unit_prices" then [js "unit_prices"] else []) ++
      (if raw.hasProp "regional_prices" then [js "regional_prices"] else [])) (js "content")
  require (isFormatOne (raw.prop "format")) (js "content.format must be 1")
  let plan ← parsePlan (raw.prop "plan")
  let allowanceRows ← arrField raw "allowances"
  let allowances ← mapRows "allowances" parseAllowance 0 allowanceRows
  let windowRows ← arrField raw "allowance_windows"
  let windows ← mapRows "allowance_windows" parseWindow 0 windowRows
  let capacityRows ← arrField raw "capacities"
  let capacities ← mapRows "capacities" parseCapacity 0 capacityRows
  let featureRows ← arrField raw "features"
  let features ← mapRows "features" parseFeature 0 featureRows
  uniqueKeys "allowances" (allowances.map (·.allowanceKey))
  uniqueKeys "allowance_windows" (windows.map fun w => w.allowanceKey ++ [0] ++ w.windowKind)
  uniqueKeys "capacities" (capacities.map (·.capacityKey))
  uniqueKeys "features" (features.map (·.featureKey))
  let unitPrices ← whenPresent raw "unit_prices" (parseUnitPrices raw plan.productKey)
  let regionalPrices ← whenPresent raw "regional_prices" (parseRegionalPrices raw)
  .ok ⟨plan, allowances, windows, capacities, features, unitPrices, regionalPrices⟩

theorem parsePlanVersionContent_nodup {raw : JsVal} {out : PlanDocument}
    (h : parsePlanVersionContent raw = .ok out) :
    (out.allowances.map (·.allowanceKey)).Nodup ∧ (out.capacities.map (·.capacityKey)).Nodup := by
  simp only [parsePlanVersionContent, uniqueKeys, bind_eq_ok, require_eq_ok, Except.ok.injEq,
    decide_eq_true_eq] at h
  obtain ⟨-, -, -, -, -, -, plan, -, -, -, allowances, -, -, -, windows, -,
    -, -, capacities, -, -, -,
    features, -, -, hallowances, -, -, -, hcapacities, -, -, -, -, -, -, rfl⟩ := h
  exact ⟨hallowances, hcapacities⟩

end AramoPlatform.Subscription
