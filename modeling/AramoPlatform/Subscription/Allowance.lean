import AramoPlatform.Js.Date
import AramoPlatform.Lib.Outcome
import AramoPlatform.Lib.Rows
import AramoPlatform.Lib.Runs
import AramoPlatform.Subscription.PlanVersion

/-!
# The send allowance of a tenant

`AllowanceService` for one tenant, one product and one allowance key. A send
is reserved before it is dispatched, consumed when the provider has accepted
it and released when it has failed. The rows are counted twice: those of the
billing period against the plan's limit, and those reserved in the last
twenty-four hours against its day window.
-/

namespace AramoPlatform.Subscription

open Js Lib

/-! ## Billing periods

Monthly periods from the anchor of a subscription, in UTC: period `k` starts
`k` calendar months after the anchor, at its time of day, on its day of the
month or the last one that the month has. -/

def isLeapYear (year : Nat) : Bool := year % 4 == 0 && (year % 100 != 0 || year % 400 == 0)

/-- The days of a month, counted from zero as in `getUTCMonth`. -/
def daysInMonth (year month : Nat) : Nat :=
  match month with
  | 1 => if isLeapYear year then 29 else 28
  | 3 | 5 | 8 | 10 => 30
  | _ => 31

/-- The days from 1970-01-01 to the first of a month. -/
def daysBefore (year month : Nat) : Nat :=
  let days := fun y : Nat => 365 * y + y / 4 - y / 100 + y / 400
  days (year - 1) - days 1969 +
    ((List.range month).map (daysInMonth year)).foldl (· + ·) 0

/-- `addMonthsClamped`; dates before the epoch do not occur. -/
def addMonthsClamped (anchor months : Nat) : Nat :=
  let (year, month, date) := civilDate (anchor / 86400000)
  let m := month - 1 + months
  let targetYear := year + m / 12
  let targetMonth := m % 12
  let day := min date (daysInMonth targetYear targetMonth)
  (daysBefore targetYear targetMonth + (day - 1)) * 86400000 + anchor % 86400000

structure BillingPeriod where
  start : Nat
  stop : Nat

/-- The monthly period containing `time`. Before the anchor, the first period. -/
def billingPeriodAt (anchor time : Nat) : BillingPeriod :=
  if time < anchor then ⟨anchor, addMonthsClamped anchor 1⟩
  else
    let (anchorYear, anchorMonth, _) := civilDate (anchor / 86400000)
    let (year, month, _) := civilDate (time / 86400000)
    let k := year * 12 + month - (anchorYear * 12 + anchorMonth)
    let k := if time < addMonthsClamped anchor k then k - 1 else k
    ⟨addMonthsClamped anchor k, addMonthsClamped anchor (k + 1)⟩

/-- An anchor on 31 January 2024 renews on 29 February. -/
example : (billingPeriodAt 1706694245006 1710000000000).start = 1709199845006 := by decide

/-! ## The plan -/

def dayWindowMs : Nat := 24 * 60 * 60 * 1000

def defaultReservationTtlMs : Nat := 10 * 60 * 1000

inductive SubscriptionStatus where
  | trialing
  | active
  | pastDue
  | incomplete
  | canceled
  deriving DecidableEq

structure SupportExtension where
  extendsUntil : Nat
  removedAt : Option Nat

/-- The open subscription of the product, with its plan. -/
structure OpenSubscription where
  status : SubscriptionStatus
  graceUntil : Option Nat
  supportExtensions : List SupportExtension
  periodAnchor : Nat
  planKey : JsString
  terms : PlanVersionContent

def subscriptionSends (status : SubscriptionStatus) (graceUntil : Option Nat) (time : Nat) : Bool :=
  match status with
  | .trialing | .active => true
  | .pastDue => graceUntil.any (time < ·)
  | .incomplete | .canceled => false

def supportExtensionCovers (extensions : List SupportExtension) (time : Nat) : Bool :=
  extensions.any fun x => x.removedAt.isNone && decide (time < x.extendsUntil)

inductive UnsubscribedState where
  | none
  | pastDue
  | incomplete
  | canceled
  deriving DecidableEq

structure ActivePlan where
  planKey : JsString
  limit : Option Nat
  period : BillingPeriod
  dailyLimit : Option Nat

/-- The limit of an allowance, and whether the plan has one. -/
def limitOf (terms : PlanVersionContent) (allowanceKey : JsString) : Option (Option Nat) :=
  (terms.allowances.find? (·.allowanceKey == allowanceKey)).map fun a =>
    if a.unlimited then none else some (a.includedQuantity.getD 0)

def dailyLimitOf (terms : PlanVersionContent) (allowanceKey : JsString) : Option Nat :=
  (terms.allowanceWindows.find? fun w =>
    w.allowanceKey == allowanceKey && w.windowKind == js "DAY").map (·.limitQuantity)

def activePlan (subscription : Option OpenSubscription) (allowanceKey : JsString) (time : Nat) :
    Except UnsubscribedState ActivePlan := do
  let sub ← orThrow subscription .none
  let limit ← orThrow (limitOf sub.terms allowanceKey) .none
  require (subscriptionSends sub.status sub.graceUntil time ||
      (sub.status == .pastDue && supportExtensionCovers sub.supportExtensions time))
    (match sub.status with
      | .pastDue => .pastDue
      | .incomplete => .incomplete
      | _ => .canceled)
  pure { planKey := sub.planKey, limit := limit, period := billingPeriodAt sub.periodAnchor time
         dailyLimit := dailyLimitOf sub.terms allowanceKey }

/-! ## The ledger -/

inductive UsageState where
  | reserved
  | consumed
  | released
  deriving DecidableEq

/-- `RESERVED` or `CONSUMED`. -/
def UsageState.isCounted : UsageState → Bool
  | reserved | consumed => true
  | released => false

/-- A row of `AllowanceUsage`; the send key is unique. -/
structure AllowanceUsage where
  sendKey : JsString
  periodStart : Nat
  state : UsageState
  reservedAt : Nat
  reservedUntil : Nat
  finalizedAt : Option Nat
  deriving DecidableEq

def inPeriod (start : Nat) (u : AllowanceUsage) : Bool :=
  u.state.isCounted && u.periodStart == start

/-- `used`. -/
def usedIn (usage : List AllowanceUsage) (start : Nat) : Nat := usage.countP (inPeriod start)

/-- Counted, and reserved in the twenty-four hours that end at `time`. -/
def inDayWindow (time : Nat) (u : AllowanceUsage) : Bool :=
  u.state.isCounted && decide (time < u.reservedAt + dayWindowMs) && decide (u.reservedAt ≤ time)

structure DailyUsage where
  used : Nat
  oldest : Option Nat

def dailyUsage (usage : List AllowanceUsage) (time : Nat) : DailyUsage where
  used := usage.countP (inDayWindow time)
  oldest := ((usage.filter (inDayWindow time)).map (·.reservedAt)).min?

structure AllowanceWindowStatus where
  limit : Nat
  used : Nat
  remaining : Nat
  nextAvailableAt : Option Nat

def windowOf (limit : Nat) (d : DailyUsage) : AllowanceWindowStatus where
  limit := limit
  used := d.used
  remaining := limit - d.used
  nextAvailableAt := if limit ≤ d.used then d.oldest.map (· + dayWindowMs) else none

inductive AllowanceThreshold where
  | ok
  | warning
  | exhausted
  deriving DecidableEq

/-- Warning at 80% of the allowance, exhausted at 100%. -/
def thresholdOf (used limit : Nat) : AllowanceThreshold :=
  if limit ≤ used then .exhausted
  else if 0 < limit ∧ limit * 4 ≤ used * 5 then .warning
  else .ok

structure AllowanceStatus where
  planKey : JsString
  allowanceKey : JsString
  limit : Option Nat
  used : Nat
  remaining : Option Nat
  periodStart : Nat
  periodEnd : Nat
  threshold : AllowanceThreshold
  daily : Option AllowanceWindowStatus

def statusOf (plan : ActivePlan) (allowanceKey : JsString) (used : Nat)
    (daily : Option AllowanceWindowStatus) : AllowanceStatus where
  planKey := plan.planKey
  allowanceKey := allowanceKey
  limit := plan.limit
  used := used
  remaining := plan.limit.map (· - used)
  periodStart := plan.period.start
  periodEnd := plan.period.stop
  threshold := plan.limit.elim .ok (thresholdOf used ·)
  daily := daily

/-! ## The operations -/

structure AllowanceState where
  subscription : Option OpenSubscription
  usage : List AllowanceUsage
  /-- The usage events, each with the send key it was written for. -/
  usageEvents : List (JsString × JsString)
  /-- The keys that the calls of `resolveStale` under way have still to resolve. -/
  resolvers : List (List JsString)

inductive ReserveResult where
  | ok (already : Bool) (status : AllowanceStatus)
  | notSubscribed (state : UnsubscribedState)
  | limitReached (status : AllowanceStatus)
  | dailyLimitReached (status : AllowanceStatus)

section

variable (allowanceKey : JsString)

/-- The row of a charge: an earlier row of the key is reserved again, else a new
one is written. -/
def chargeRow (usage : List AllowanceUsage) (sendKey : JsString) (periodStart time ttlMs : Nat) :
    List AllowanceUsage :=
  if usage.any (·.sendKey == sendKey) then
    updateWhere (·.sendKey == sendKey)
      (fun u => { u with
        state := .reserved, periodStart := periodStart, reservedAt := time
        reservedUntil := time + ttlMs, finalizedAt := none }) usage
  else usage ++ [⟨sendKey, periodStart, .reserved, time, time + ttlMs, none⟩]

/-- `reserve`, under the advisory lock; `time` is the clock read before it. -/
def reserve (s : AllowanceState) (sendKey : JsString) (time : Nat) (ttlMs : Option Nat) :
    ReserveResult × AllowanceState :=
  match activePlan s.subscription allowanceKey time with
  | .error state => (.notSubscribed state, s)
  | .ok plan =>
    let dailyRaw := dailyUsage s.usage time
    let daily := plan.dailyLimit.map (windowOf · dailyRaw)
    let used := usedIn s.usage plan.period.start
    if s.usage.any fun u => u.sendKey == sendKey && u.state.isCounted then
      (.ok true (statusOf plan allowanceKey used daily), s)
    else if plan.limit.any (· ≤ used) then
      (.limitReached (statusOf plan allowanceKey used daily), s)
    else if daily.any fun d => d.limit ≤ d.used then
      (.dailyLimitReached (statusOf plan allowanceKey used daily), s)
    else
      let dailyAfter := plan.dailyLimit.map
        (windowOf · ⟨dailyRaw.used + 1, some (dailyRaw.oldest.getD time)⟩)
      (.ok false (statusOf plan allowanceKey (used + 1) dailyAfter),
        { s with
          usage := chargeRow s.usage sendKey plan.period.start time
            (ttlMs.getD defaultReservationTtlMs) })

end

inductive ConsumeResult where
  | consumed
  | already
  | missing
  deriving DecidableEq

/-- The `RESERVED` row of a key: the condition of the two compare-and-sets. -/
def isReserved (sendKey : JsString) (u : AllowanceUsage) : Bool :=
  u.sendKey == sendKey && u.state == .reserved

def consume (s : AllowanceState) (sendKey usageEventType : JsString) (time : Nat) :
    ConsumeResult × AllowanceState :=
  if s.usage.countP (isReserved sendKey) = 1 then
    (.consumed, { s with
      usage := updateWhere (isReserved sendKey)
        (fun u => { u with state := .consumed, finalizedAt := some time }) s.usage
      usageEvents := s.usageEvents ++ [(sendKey, usageEventType)] })
  else
    let row := s.usage.find? (·.sendKey == sendKey)
    (if row.any (·.state == .consumed) then .already else .missing, s)

def release (s : AllowanceState) (sendKey : JsString) (time : Nat) : Bool × AllowanceState :=
  (s.usage.countP (isReserved sendKey) == 1, { s with
    usage := updateWhere (isReserved sendKey)
      (fun u => { u with state := .released, finalizedAt := some time }) s.usage })

def staleReservations (s : AllowanceState) (time : Nat) : List JsString :=
  (s.usage.filter fun u => u.state == .reserved && decide (u.reservedUntil < time)).map (·.sendKey)

inductive SendOutcome where
  | accepted
  | notAccepted
  | unknown
  deriving DecidableEq

/-- One turn of the loop of `resolveStale`. -/
def resolveOne (s : AllowanceState) (sendKey usageEventType : JsString) (outcome : SendOutcome)
    (time : Nat) : AllowanceState :=
  match outcome with
  | .accepted => (consume s sendKey usageEventType time).2
  | .notAccepted => (release s sendKey time).2
  | .unknown => s

/-! ## Runs -/

inductive AllowanceCall where
  | reserve (sendKey : JsString) (time : Nat) (ttlMs : Option Nat)
  | consume (sendKey usageEventType : JsString) (time : Nat)
  | release (sendKey : JsString) (time : Nat)
  /-- A call of `resolveStale` reads the overdue keys. -/
  | resolveStale (time : Nat)
  /-- The `i`-th such call resolves its next key. -/
  | resolveNext (i : Nat) (usageEventType : JsString) (outcome : SendOutcome) (time : Nat)
  /-- Billing moves the subscription; its plan version and its anchor stay. -/
  | subscriptionMoved (status : SubscriptionStatus) (graceUntil : Option Nat)
      (supportExtensions : List SupportExtension)

/-- One transaction. Nothing orders the clock readings of the callers. -/
def allowanceNext (allowanceKey : JsString) (s : AllowanceState) : AllowanceCall → AllowanceState
  | .reserve sendKey time ttlMs => (reserve allowanceKey s sendKey time ttlMs).2
  | .consume sendKey usageEventType time => (consume s sendKey usageEventType time).2
  | .release sendKey time => (release s sendKey time).2
  | .resolveStale time => { s with resolvers := s.resolvers ++ [staleReservations s time] }
  | .resolveNext i usageEventType outcome time =>
    match s.resolvers[i]? with
    | some (sendKey :: rest) =>
      { resolveOne s sendKey usageEventType outcome time with resolvers := s.resolvers.set i rest }
    | _ => s
  | .subscriptionMoved status graceUntil supportExtensions =>
    { s with
      subscription := s.subscription.map fun sub =>
        { sub with
          status := status, graceUntil := graceUntil, supportExtensions := supportExtensions } }

def allowanceStep (allowanceKey : JsString) (s : AllowanceState) (call : AllowanceCall)
    (t : AllowanceState) : Prop :=
  t = allowanceNext allowanceKey s call

end AramoPlatform.Subscription
