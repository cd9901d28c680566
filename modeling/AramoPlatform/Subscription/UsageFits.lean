import AramoPlatform.Subscription.Allowance
import AramoPlatform.Subscription.PlanTerms

/-!
# A change of version and the usage so far

A change of version within a billing period carries the usage over. A term that
the new version lowers is admissible while the usage fits the new limit; what is
not lowered fits because it fitted before. An allowance that is dropped or
counted over another kind of period has no treatment, and is refused.
-/

namespace AramoPlatform.Subscription

open Js Lib List

/-! ## Which terms change -/

inductive TermKind where
  | allowance
  | capacity
  | window
  deriving DecidableEq

def TermKind.text : TermKind → JsString
  | .allowance => js "allowance"
  | .capacity => js "capacity"
  | .window => js "window"

/-- An element of `changedTerms` whose `change` is `lowered`. -/
structure LoweredTerm where
  kind : TermKind
  key : JsString
  windowKind : Option JsString
  newLimit : Int
  deriving DecidableEq

/-- An element of `changedTerms`. -/
inductive DocumentChange where
  | undefined (allowanceKey : JsString)
  | lowered (term : LoweredTerm)
  deriving DecidableEq

/-- `lower`: a limit that is not met any more, or may not be. -/
def lowersLimit (fromUnlimited : Bool) (fromQuantity : Option Int) (toUnlimited : Bool)
    (toQuantity : Option Int) : Bool :=
  !toUnlimited && (fromUnlimited || match fromQuantity, toQuantity with
    | some f, some t => decide (t < f)
    | _, _ => true)

/-- One allowance of the source. -/
def allowanceChange (target : PlanDocument) (a : DocumentAllowance) : Option DocumentChange :=
  match target.allowances.find? (·.allowanceKey == a.allowanceKey) with
  | none => some (.undefined a.allowanceKey)
  | some b =>
      if b.period != a.period then some (.undefined a.allowanceKey)
      else if lowersLimit a.unlimited a.includedQuantity b.unlimited b.includedQuantity then
        some (.lowered ⟨.allowance, a.allowanceKey, none, b.includedQuantity.getD 0⟩)
      else none

/-- One capacity of the source. -/
def capacityChange (target : PlanDocument) (c : DocumentCapacity) : Option DocumentChange :=
  match target.capacities.find? (·.capacityKey == c.capacityKey) with
  | none => some (.lowered ⟨.capacity, c.capacityKey, none, 0⟩)
  | some d =>
      if lowersLimit c.unlimited c.limitQuantity d.unlimited d.limitQuantity then
        some (.lowered ⟨.capacity, c.capacityKey, none, d.limitQuantity.getD 0⟩)
      else none

/-- One window of the target. -/
def windowChange (source : PlanDocument) (w : DocumentWindow) : Option DocumentChange :=
  match source.allowanceWindows.find? fun v =>
      v.allowanceKey == w.allowanceKey && v.windowKind == w.windowKind with
  | none => some (.lowered ⟨.window, w.allowanceKey, some w.windowKind, w.limitQuantity⟩)
  | some v =>
      if w.limitQuantity < v.limitQuantity then
        some (.lowered ⟨.window, w.allowanceKey, some w.windowKind, w.limitQuantity⟩)
      else none

/-- `changedTerms`, with the new limits. -/
def documentChanges (source target : PlanDocument) : List DocumentChange :=
  source.allowances.filterMap (allowanceChange target) ++
    source.capacities.filterMap (capacityChange target) ++
    target.allowanceWindows.filterMap (windowChange source)

/-! ## The usage -/

/-- The columns of `AllowanceUsage` that are counted. -/
structure AllowanceUsageRow where
  tenantId : Uuid
  allowanceKey : JsString
  periodStart : Nat
  state : UsageState
  reservedAt : Nat
  deriving DecidableEq

/-- The columns of `CapacityUsage` that are summed. -/
structure CapacityUsageRow where
  tenantId : Uuid
  capacityKey : JsString
  quantity : Int
  active : Bool
  deriving DecidableEq

structure UsageTables where
  allowanceUsage : List AllowanceUsageRow
  capacityUsage : List CapacityUsageRow

/-- Reserved or consumed in the period. -/
def UsageTables.inPeriod (u : UsageTables) (tenantId : Uuid) (key : JsString) (start : Nat) : Int :=
  u.allowanceUsage.countP fun r =>
    r.tenantId == tenantId && r.allowanceKey == key && r.periodStart == start && r.state.isCounted

/-- Reserved or consumed, and reserved in the last twenty-four hours. -/
def UsageTables.inDay (u : UsageTables) (tenantId : Uuid) (key : JsString) (now : Nat) : Int :=
  u.allowanceUsage.countP fun r =>
    r.tenantId == tenantId && r.allowanceKey == key && r.state.isCounted &&
      decide (now < r.reservedAt + dayWindowMs) && decide (r.reservedAt ≤ now)

/-- The active quantity. -/
def UsageTables.activeQuantity (u : UsageTables) (tenantId : Uuid) (key : JsString) : Int :=
  ((u.capacityUsage.filter fun r => r.tenantId == tenantId && r.capacityKey == key && r.active).map
    (·.quantity)).sum

/-! ## `assertUsageFits` -/

structure ContentRow where
  id : Uuid
  content : JsVal
  contentChecksum : JsString

/-- `planVersionTerms`; `checksum` is `planVersionChecksum`. -/
def planVersionTerms (checksum : JsVal → JsString) (row : ContentRow) :
    Except ContentError PlanDocument := do
  require (checksum row.content == row.contentChecksum)
    (js "plan version " ++ uuidText row.id ++ js ": checksum mismatch")
  parsePlanVersionContent row.content

structure ExceededTerm where
  term : JsString
  used : Int
  newLimit : Int
  deriving DecidableEq

inductive UsageRefusal where
  | content (error : ContentError)
  /-- `USAGE_TREATMENT_UNDEFINED`. -/
  | treatmentUndefined (terms : List JsString) (fromVersionId toVersionId : Uuid)
  /-- `USAGE_EXCEEDS_NEW_LIMIT`. -/
  | exceedsNewLimit (exceeded : List ExceededTerm) (periodStart : Nat)
      (fromVersionId toVersionId : Uuid)
  deriving DecidableEq

/-- Whose usage is checked, and when. -/
structure UsageContext where
  tenantId : Uuid
  productKey : ProductKey
  anchor : Nat
  now : Nat

/-- `startsWith(product_key + '.')`. -/
def UsageContext.owns (ctx : UsageContext) (key : JsString) : Bool :=
  (ctx.productKey ++ js ".").isPrefixOf key

/-- What counts against a lowered term; the keys of other products are left out. -/
def usedOf (ctx : UsageContext) (u : UsageTables) (c : LoweredTerm) : Option Int :=
  match c.kind with
  | .capacity => some (u.activeQuantity ctx.tenantId c.key)
  | .allowance =>
      if ctx.owns c.key then
        some (u.inPeriod ctx.tenantId c.key (billingPeriodAt ctx.anchor ctx.now).start)
      else none
  | .window => if ctx.owns c.key then some (u.inDay ctx.tenantId c.key ctx.now) else none

/-- The name that a refusal gives a term. -/
def termText (c : LoweredTerm) : JsString :=
  match c.kind with
  | .window => js "window:" ++ c.key ++ js ":" ++ c.windowKind.getD []
  | kind => kind.text ++ js ":" ++ c.key

/-- A lowered term whose usage does not fit. -/
def exceededBy (ctx : UsageContext) (u : UsageTables) (c : LoweredTerm) : Option ExceededTerm :=
  match usedOf ctx u c with
  | some used => if c.newLimit < used then some ⟨termText c, used, c.newLimit⟩ else none
  | none => none

def undefinedKey : DocumentChange → Option JsString
  | .undefined key => some (js "allowance:" ++ key)
  | .lowered _ => none

def loweredTerm : DocumentChange → Option LoweredTerm
  | .undefined _ => none
  | .lowered c => some c

/-- `assertUsageFits`, on what the tables hold once its locks are taken. -/
def assertUsageFits (checksum : JsVal → JsString) (localeCompare : JsString → JsString → Int)
    (u : UsageTables) (ctx : UsageContext) (source target : ContentRow) :
      Except UsageRefusal Unit := do
  let sourceTerms ← (planVersionTerms checksum source).mapError .content
  let targetTerms ← (planVersionTerms checksum target).mapError .content
  let changes := documentChanges sourceTerms targetTerms
  let missing := changes.filterMap undefinedKey
  require (missing == []) (.treatmentUndefined missing source.id target.id)
  let lowered := (changes.filterMap loweredTerm).insertionSort fun a b =>
    localeCompare (a.kind.text ++ js ":" ++ a.key) (b.kind.text ++ js ":" ++ b.key) ≤ 0
  let exceeded := lowered.filterMap (exceededBy ctx u)
  require (exceeded == []) (.exceedsNewLimit exceeded (billingPeriodAt ctx.anchor ctx.now).start
    source.id target.id)

/-! ## Nothing is over its limit -/

/-- Unlimited is never exceeded, and a missing quantity counts as zero. -/
def Fits (unlimited : Bool) (quantity : Option Int) (used : Int) : Prop :=
  unlimited = true ∨ used ≤ quantity.getD 0

/-- The usage of the context is within the limits of a version. -/
structure WithinLimits (u : UsageTables) (ctx : UsageContext) (d : PlanDocument) : Prop where
  allowances : ∀ a ∈ d.allowances, Fits a.unlimited a.includedQuantity
    (u.inPeriod ctx.tenantId a.allowanceKey (billingPeriodAt ctx.anchor ctx.now).start)
  capacities : ∀ c ∈ d.capacities, Fits c.unlimited c.limitQuantity
    (u.activeQuantity ctx.tenantId c.capacityKey)
  windows : ∀ w ∈ d.allowanceWindows, u.inDay ctx.tenantId w.allowanceKey ctx.now ≤ w.limitQuantity

section Fitting

variable {checksum : JsVal → JsString} {localeCompare : JsString → JsString → Int} {u : UsageTables}
  {ctx : UsageContext} {source target : ContentRow} {s t : PlanDocument}

theorem fits_of_not_lowered {fromUnlimited toUnlimited :
    Bool} {fromQuantity toQuantity : Option Int}
    {used : Int} (hkept : lowersLimit fromUnlimited fromQuantity toUnlimited toQuantity = false)
    (hfits : Fits fromUnlimited fromQuantity used) : Fits toUnlimited toQuantity used := by
  cases toUnlimited with
  | true => exact .inl rfl
  | false =>
    cases fromUnlimited with
    | true => cases hkept
    | false =>
      cases fromQuantity with
      | none => cases hkept
      | some f =>
        cases toQuantity with
        | none => cases hkept
        | some q =>
          right
          have hlimit : ¬ q < f := by simpa [lowersLimit] using hkept
          have hused : used ≤ f := by simpa [Fits] using hfits
          show used ≤ q
          omega

/-- Once the check has passed, no term is undefined, and what counts against a lowered
term is within its new limit. -/
theorem change_fits (hsource : planVersionTerms checksum source = .ok s)
    (htarget : planVersionTerms checksum target = .ok t)
    (hok : assertUsageFits checksum localeCompare u ctx source target = .ok ()) :
    ∀ change ∈ documentChanges s t, ∃ c, change = .lowered c ∧
      ∀ used, usedOf ctx u c = some used → used ≤ c.newLimit := by
  simp only [assertUsageFits, hsource, htarget, Except.mapError, ok_bind, bind_eq_ok, require_eq_ok,
    beq_iff_eq] at hok
  obtain ⟨-, hmissing, hexceeded⟩ := hok
  intro change hchange
  cases change with
  | undefined key =>
    have hmem := mem_filterMap.mpr ⟨_, hchange, (rfl : undefinedKey (.undefined key) = _)⟩
    rw [hmissing] at hmem
    cases hmem
  | lowered c =>
    refine ⟨c, rfl, fun used hused => ?_⟩
    by_contra hover
    have hlowered : c ∈ (documentChanges s t).filterMap loweredTerm :=
      mem_filterMap.mpr ⟨_, hchange, rfl⟩
    have hterm : exceededBy ctx u c = some ⟨termText c, used, c.newLimit⟩ := by
      rw [exceededBy, hused]
      exact if_pos (by omega)
    have hmem : (⟨termText c, used, c.newLimit⟩ : ExceededTerm) ∈ ([] : List ExceededTerm) := by
      rw [← hexceeded, mem_filterMap]
      exact ⟨c, by simpa only [mem_insertionSort] using hlowered, hterm⟩
    cases hmem

theorem allowance_fits {a : DocumentAllowance}
    (hchange : ∀ change, allowanceChange t a = some change → ∃ c, change = .lowered c ∧
      ∀ used, usedOf ctx u c = some used → used ≤ c.newLimit)
    (hfits : Fits a.unlimited a.includedQuantity
      (u.inPeriod ctx.tenantId a.allowanceKey (billingPeriodAt ctx.anchor ctx.now).start)) :
    ∃ b ∈ t.allowances, b.allowanceKey = a.allowanceKey ∧ b.period = a.period ∧
      (ctx.owns a.allowanceKey = true → Fits b.unlimited b.includedQuantity
        (u.inPeriod ctx.tenantId a.allowanceKey (billingPeriodAt ctx.anchor ctx.now).start)) := by
  unfold allowanceChange at hchange
  split at hchange
  · obtain ⟨_, hlowered, -⟩ := hchange _ rfl
    cases hlowered
  next b hfind =>
    have hkey : b.allowanceKey = a.allowanceKey := by simpa using find?_some hfind
    split at hchange
    · obtain ⟨_, hlowered, -⟩ := hchange _ rfl
      cases hlowered
    next hperiod =>
      refine ⟨b, mem_of_find?_eq_some hfind, hkey, by simpa using hperiod, fun howns => ?_⟩
      split at hchange
      · obtain ⟨c, hc, hused⟩ := hchange _ rfl
        obtain rfl := DocumentChange.lowered.inj hc
        exact .inr (hused _ (if_pos howns))
      next hkept => exact fits_of_not_lowered (by simpa using hkept) hfits

/-- A capacity of the source fits into the target's, or is not used where it has none. -/
theorem capacity_fits {c : DocumentCapacity}
    (hchange : ∀ change, capacityChange t c = some change → ∃ l, change = .lowered l ∧
      ∀ used, usedOf ctx u l = some used → used ≤ l.newLimit)
    (hfits : Fits c.unlimited c.limitQuantity (u.activeQuantity ctx.tenantId c.capacityKey)) :
    (∃ d ∈ t.capacities, d.capacityKey = c.capacityKey ∧
        Fits d.unlimited d.limitQuantity (u.activeQuantity ctx.tenantId c.capacityKey)) ∨
      (∀ d ∈ t.capacities, d.capacityKey ≠ c.capacityKey) ∧
        u.activeQuantity ctx.tenantId c.capacityKey ≤ 0 := by
  unfold capacityChange at hchange
  split at hchange
  next hfind =>
    obtain ⟨l, hl, hused⟩ := hchange _ rfl
    obtain rfl := DocumentChange.lowered.inj hl
    refine .inr ⟨fun d hd => ?_, hused _ rfl⟩
    simpa using find?_eq_none.mp hfind d hd
  next d hfind =>
    refine .inl ⟨d, mem_of_find?_eq_some hfind, by simpa using find?_some hfind, ?_⟩
    split at hchange
    · obtain ⟨l, hl, hused⟩ := hchange _ rfl
      obtain rfl := DocumentChange.lowered.inj hl
      exact .inr (hused _ rfl)
    next hkept => exact fits_of_not_lowered (by simpa using hkept) hfits

theorem window_fits {w : DocumentWindow}
    (hchange : ∀ change, windowChange s w = some change → ∃ l, change = .lowered l ∧
      ∀ used, usedOf ctx u l = some used → used ≤ l.newLimit)
    (hwithin : ∀ v ∈ s.allowanceWindows,
      u.inDay ctx.tenantId v.allowanceKey ctx.now ≤ v.limitQuantity)
    (howns : ctx.owns w.allowanceKey = true) :
    u.inDay ctx.tenantId w.allowanceKey ctx.now ≤ w.limitQuantity := by
  unfold windowChange at hchange
  split at hchange
  · obtain ⟨l, hl, hused⟩ := hchange _ rfl
    obtain rfl := DocumentChange.lowered.inj hl
    exact hused _ (if_pos howns)
  next v hfind =>
    split at hchange
    · obtain ⟨l, hl, hused⟩ := hchange _ rfl
      obtain rfl := DocumentChange.lowered.inj hl
      exact hused _ (if_pos howns)
    next hkept =>
      have hv := hwithin v (mem_of_find?_eq_some hfind)
      have hkey : v.allowanceKey = w.allowanceKey ∧ v.windowKind = w.windowKind := by
        simpa using find?_some hfind
      rw [hkey.1] at hv
      omega

/-- A change of version that passes the check leaves the usage within the new limits:
every capacity, and the allowances and windows of the product. -/
theorem assertUsageFits_within (hsource : planVersionTerms checksum source = .ok s)
    (htarget : planVersionTerms checksum target = .ok t) (hwithin : WithinLimits u ctx s)
    (hok : assertUsageFits checksum localeCompare u ctx source target = .ok ()) :
    (∀ a ∈ s.allowances, ∃ b ∈ t.allowances, b.allowanceKey = a.allowanceKey ∧
      b.period = a.period ∧ (∀ b' ∈ t.allowances, b'.allowanceKey = a.allowanceKey → b' = b) ∧
      (ctx.owns a.allowanceKey = true → Fits b.unlimited b.includedQuantity
        (u.inPeriod ctx.tenantId a.allowanceKey (billingPeriodAt ctx.anchor ctx.now).start))) ∧
    (∀ c ∈ s.capacities, (∃ d ∈ t.capacities, d.capacityKey = c.capacityKey ∧
        Fits d.unlimited d.limitQuantity (u.activeQuantity ctx.tenantId c.capacityKey)) ∨
      (∀ d ∈ t.capacities, d.capacityKey ≠ c.capacityKey) ∧
        u.activeQuantity ctx.tenantId c.capacityKey ≤ 0) ∧
    ∀ w ∈ t.allowanceWindows, ctx.owns w.allowanceKey = true →
      u.inDay ctx.tenantId w.allowanceKey ctx.now ≤ w.limitQuantity := by
  have hchanges := change_fits hsource htarget hok
  have hparsed := htarget
  simp only [planVersionTerms, bind_eq_ok] at hparsed
  obtain ⟨-, -, hparsed⟩ := hparsed
  refine ⟨fun a ha => ?_, fun c hc => ?_, fun w hw => ?_⟩
  · obtain ⟨b, hb, hkey, hperiod, hfits⟩ := allowance_fits (fun change h => hchanges change
      (by simp only [documentChanges, mem_append, mem_filterMap]
          exact .inl (.inl ⟨a, ha, h⟩))) (hwithin.allowances a ha)
    refine ⟨b, hb, hkey, hperiod, fun b' hb' hkey' => ?_, hfits⟩
    exact inj_on_of_nodup_map (parsePlanVersionContent_nodup hparsed).1 hb'
      hb (hkey'.trans hkey.symm)
  · refine capacity_fits (fun change h => hchanges change ?_) (hwithin.capacities c hc)
    simp only [documentChanges, mem_append, mem_filterMap]
    exact .inl (.inr ⟨c, hc, h⟩)
  · refine window_fits (fun change h => hchanges change ?_) hwithin.windows
    simp only [documentChanges, mem_append, mem_filterMap]
    exact .inr ⟨w, hw, h⟩

end Fitting

/-! ## One allowance -/

/-- The document of a plan with one allowance. -/
def oneAllowance (allowanceKey : String) (included : JsNum) : JsVal :=
  .obj [(js "format", .num ⟨js "1", by decide, by decide⟩),
    (js "plan", .obj [(js "key", .str (js "team")), (js "product_key", .str (js "sign")),
      (js "name", .str (js "Team")), (js "description", .null), (js "tenant_kind", .null),
      (js "sales_model", .str (js "SELF_SERVICE")), (js "list_price_minor", .null),
      (js "currency", .null), (js "reference_price_minor", .null),
      (js "reference_price_substantiated", .bool false), (js "billing_interval", .null),
      (js "commitment_months", .null), (js "eligibility", .null), (js "support_tier", .null)]),
    (js "allowances", .arr [.obj [(js "allowance_key", .str (js allowanceKey)),
      (js "included_quantity", .num included), (js "unlimited", .bool false),
      (js "period", .str (js "MONTH"))]]),
    (js "allowance_windows", .arr []), (js "capacities", .arr []), (js "features", .arr [])]

def ten : JsNum := ⟨js "10", by decide, by decide⟩

def two : JsNum := ⟨js "2", by decide, by decide⟩

/-- What `oneAllowance` parses to. -/
def oneAllowanceTerms (allowanceKey : String) (included : Int) : PlanDocument where
  plan := ⟨js "team", js "sign", js "Team", none, none, js "SELF_SERVICE", none, none, none, false,
    none, none, none, none⟩
  allowances := [⟨js allowanceKey, some included, false, js "MONTH"⟩]
  allowanceWindows := []
  capacities := []
  features := []
  unitPrices := none
  regionalPrices := none

/-- Some consumed sends of the first period. -/
def consumedSends (allowanceKey : String) (count : Nat) : UsageTables :=
  ⟨replicate count ⟨1, js allowanceKey, 0, .consumed, 5⟩, []⟩

def signContext : UsageContext := ⟨1, js "sign", 0, 1000⟩

/-- Two sends, and a change from ten to two. -/
theorem assertUsageFits_within_two :
    ∃ b ∈ (oneAllowanceTerms "sign.envelopes" 2).allowances,
      Fits b.unlimited b.includedQuantity
        ((consumedSends "sign.envelopes" 2).inPeriod 1 (js "sign.envelopes")
          (billingPeriodAt 0 1000).start) := by
  have hsource : planVersionTerms (fun _ => []) ⟨7, oneAllowance "sign.envelopes" ten, []⟩ =
      .ok (oneAllowanceTerms "sign.envelopes" 10) := by rfl
  have htarget : planVersionTerms (fun _ => []) ⟨8, oneAllowance "sign.envelopes" two, []⟩ =
      .ok (oneAllowanceTerms "sign.envelopes" 2) := by rfl
  have hwithin : WithinLimits (consumedSends "sign.envelopes" 2) signContext
      (oneAllowanceTerms "sign.envelopes" 10) := by
    refine ⟨fun a ha => ?_, fun c hc => ?_, fun w hw => ?_⟩
    · obtain rfl := mem_singleton.mp ha
      exact .inr (by decide)
    · cases hc
    · cases hw
  have hok : assertUsageFits (fun _ => []) (fun _ _ =>
    0) (consumedSends "sign.envelopes" 2) signContext
      ⟨7, oneAllowance "sign.envelopes" ten, []⟩ ⟨8, oneAllowance "sign.envelopes" two,
        []⟩ = .ok () := by
    rfl
  obtain ⟨hallowances, -⟩ := assertUsageFits_within hsource htarget hwithin hok
  obtain ⟨b, hb, -, -, -, hfits⟩ := hallowances _ mem_cons_self
  exact ⟨b, hb, hfits (by decide)⟩

/-- An allowance whose key is not the product's is lowered below its usage. -/
theorem foreign_allowance_not_checked :
    ¬ ∀ (checksum : JsVal → JsString) (localeCompare : JsString → JsString → Int) (u : UsageTables)
      (ctx : UsageContext) (source target : ContentRow) (s t : PlanDocument),
      planVersionTerms checksum source = .ok s → planVersionTerms checksum target = .ok t →
      WithinLimits u ctx s → assertUsageFits checksum localeCompare u ctx source target = .ok () →
      ∀ a ∈ s.allowances, ∃ b ∈ t.allowances, b.allowanceKey = a.allowanceKey ∧
        b.period = a.period ∧ Fits b.unlimited b.includedQuantity
          (u.inPeriod ctx.tenantId a.allowanceKey (billingPeriodAt ctx.anchor ctx.now).start) := by
  intro h
  have hwithin : WithinLimits (consumedSends "mail.sends" 3) signContext
      (oneAllowanceTerms "mail.sends" 10) := by
    refine ⟨fun a ha => ?_, fun c hc => ?_, fun w hw => ?_⟩
    · obtain rfl := mem_singleton.mp ha
      exact .inr (by decide)
    · cases hc
    · cases hw
  obtain ⟨b, hb, -, -, hfits⟩ := h (fun _ => []) (fun _ _ => 0) (consumedSends "mail.sends" 3)
    signContext ⟨7, oneAllowance "mail.sends" ten, []⟩ ⟨8, oneAllowance "mail.sends" two, []⟩
    (oneAllowanceTerms "mail.sends" 10) (oneAllowanceTerms "mail.sends" 2) rfl rfl hwithin rfl
    _ mem_cons_self
  obtain rfl := mem_singleton.mp hb
  rcases hfits with hunlimited | hover
  · cases hunlimited
  · revert hover
    decide

end AramoPlatform.Subscription
