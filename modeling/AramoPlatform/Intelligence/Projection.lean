import AramoPlatform.Intelligence.IngestMapping
import Mathlib.Algebra.Order.Ring.Rat

/-!
# The projection

From the assertions and identifiers of one view of a subject: the resolved
facts, the status that every assertion has in that view, the pairs that
contradict each other and the trust state. The service stores what this
computes over the full set; a tenant-scoped read computes it over what the
tenant may see.
-/

namespace AramoPlatform.Intelligence

open Js Lib

/-! ## Payloads -/

/-- `payload[k]`. -/
def member (p : List (JsString × JsVal)) (k : JsString) : JsVal :=
  ((p.find? (·.1 == k)).map (·.2)).getD .undefined

/-- The string at `payload[k]`. -/
def stringMember (p : List (JsString × JsVal)) (k : JsString) : Option JsString :=
  match member p k with
  | .str s => some s
  | _ => none

/-- What a comparison of texts keeps of a unit. -/
def isTextUnit (u : UInt16) : Bool := isLowerLetter u || isDigit u || u == 0x2B || u == 0x23

/-- `replace(/[^a-z0-9+#]+/g, ' ')`. -/
def spaceOthers : JsString → JsString
  | [] => []
  | u :: rest =>
      if isTextUnit u then u :: spaceOthers rest
      else if (rest.head?.map isTextUnit).getD true then 0x20 :: spaceOthers rest
      else spaceOthers rest

section Values

variable (host : Host)

def text (v : Option JsString) : JsString :=
  match v with
  | none => []
  | some s =>
      let plain := (host.normalizeNFKD s).filter fun u => !(0x300 ≤ u && u ≤ 0x36F)
      trim (spaceOthers (host.toLowerCase plain))

/-- `month` and `year`: the start of a date. -/
def datePrefix (n : Nat) (v : Option JsString) : JsString := (v.getD []).take n

/-- Both present and different. -/
def differ (a b : JsString) : Bool := a ≠ [] && b ≠ [] && a ≠ b

def factKey (type : AssertionType) (p : List (JsString × JsVal)) : JsString :=
  let at_ (k : String) : JsString := text host (stringMember p (js k))
  match type with
  | .workHistory => at_ "employer" ++ js "|" ++ datePrefix 7 (stringMember p (js "start_date"))
  | .education => at_ "institution" ++ js "|" ++ at_ "degree"
  | .certification => at_ "name" ++ js "|" ++ at_ "issuer"
  | .skill | .project => at_ "name"
  | .publicProfileUrl =>
      match stringMember p (js "url") with
      | some u => ((host.toLowerCase (trim u)).reverse.dropWhile (· == 0x2F)).reverse
      | none => []
  | _ => []

/-- A payload of type `NAME` as a name snapshot. -/
def namesOf (p : List (JsString × JsVal)) : NameSnapshot :=
  { first := stringMember p (js "first")
    last := stringMember p (js "last")
    aliases := match member p (js "aliases") with
      | .arr l => some (l.filterMap fun v => match v with | .str s => some s | _ => none)
      | _ => none }

/-- `compatible`: may both payloads of the same fact hold? -/
def compatible (type : AssertionType) (a b : List (JsString × JsVal)) : Bool :=
  let textAt (p : List (JsString × JsVal)) (k : String) := text host (stringMember p (js k))
  let dateAt (n : Nat) (p : List (JsString × JsVal)) (k : String) :=
    datePrefix n (stringMember p (js k))
  match type with
  | .name =>
      !(normalizeNames host (some (namesOf a))).conflict (normalizeNames host (some (namesOf b)))
  | .currentEmployer => textAt a "name" == textAt b "name"
  | .title => textAt a "value" == textAt b "value"
  | .location =>
      !(["country", "region", "city"].any fun k => differ (textAt a k) (textAt b k))
  | .workAuthorization =>
      stringMember a (js "status") == stringMember b (js "status") ||
        differ (textAt a "jurisdiction") (textAt b "jurisdiction")
  | .workHistory =>
      !differ (textAt a "title") (textAt b "title") &&
        !differ (dateAt 7 a "end_date") (dateAt 7 b "end_date")
  | .education => !differ (dateAt 4 a "end_date") (dateAt 4 b "end_date")
  | .certification => !differ (textAt a "credential_id") (textAt b "credential_id")
  | _ => true

end Values

/-! ## Staleness -/

def msPerDay : Nat := 86400000

/-- `Date.UTC` in days, with a month from 0 that may be out of range. -/
def utcDays (year month day : Int) : Int :=
  let year := (if 0 ≤ year ∧ year ≤ 99 then year + 1900 else year) + month / 12
  let m := month % 12
  let y := if m < 2 then year - 1 else year
  let yearOfEra := y % 400
  let dayOfYear := (153 * ((m + 10) % 12) + 2) / 5
  y / 400 * 146097 + (yearOfEra * 365 + yearOfEra / 4 - yearOfEra / 100 + dayOfYear) - 719468 +
    (day - 1)

/-- The number that some digits write. -/
def digitsValue (s : JsString) : Int := s.foldl (fun n u => 10 * n + (u.toNat - 48 : Nat)) 0

/-- `parseLooseDate` on `YYYY`, `YYYY-MM` and `YYYY-MM-DD`: the last second of
the period, in milliseconds. -/
def parseLooseDate (v : Option JsString) : Option Int :=
  match v with
  | none => none
  | some s =>
      let y := s.take 4
      let m := (s.drop 5).take 2
      let d := (s.drop 8).take 2
      let lastSecond (days : Int) : Int := days * 86400000 + 86399000
      if y.length = 4 ∧ y.all isDigit ∧ m.all isDigit ∧ d.all isDigit then
        some (lastSecond (if d ≠ [] then utcDays (digitsValue y) (digitsValue m - 1) (digitsValue d)
          else if m ≠ [] then utcDays (digitsValue y) (digitsValue m) 0
          else utcDays (digitsValue y) 11 31))
      else none

structure ProjectionOptions where
  now : Nat
  availabilityFreshnessDays : ℚ
  /-- The assertions that an acquired artifact backs. -/
  artifactSupported : List Nat
  /-- Pairs that a tenant reconciled, in both orders. -/
  reconciled : List (Nat × Nat)

def isTimeStale (opts : ProjectionOptions) (a : Assertion) : Bool :=
  a.validTo.any (· < opts.now) ||
    (a.assertionType == .certification &&
      (parseLooseDate (stringMember a.payload (js "expires_on"))).any (· < (opts.now : Int))) ||
    (a.assertionType == .availability &&
      opts.availabilityFreshnessDays * msPerDay < (opts.now : ℚ) - a.observedAt)

/-! ## Clusters -/

def AssertionVerification.order : AssertionVerification → Nat
  | .verified => 3
  | .documentSupported => 2
  | .declared => 1

/-- `byStrength`: verification, then recency, then the id. -/
def strongerOrEqual (a b : Assertion) : Bool :=
  if a.verificationStatus.order ≠ b.verificationStatus.order then
    b.verificationStatus.order < a.verificationStatus.order
  else if a.observedAt ≠ b.observedAt then b.observedAt < a.observedAt
  else a.id ≤ b.id

/-- Compatible claims and the strongest of them. -/
structure Cluster where
  rep : Assertion
  members : List Assertion

/-- Put a claim into the first cluster it is compatible with. -/
def placeClaim (host : Host) (type : AssertionType) (a : Assertion) : List Cluster → List Cluster
  | [] => [⟨a, [a]⟩]
  | c :: rest =>
      if compatible host type c.rep.payload a.payload then ⟨c.rep, c.members ++ [a]⟩ :: rest
      else c :: placeClaim host type a rest

/-- `cluster`. -/
def clusterClaims (host : Host) (type : AssertionType) (claims : List Assertion) : List Cluster :=
  (claims.insertionSort fun a b => strongerOrEqual a b = true).foldl
    (fun out a => placeClaim host type a out) []

/-- `independenceKey`. -/
inductive Independence where
  | self
  | ti (kind : SourceKind)
  | tenant (sourceSystemId : JsString) (sourceTenantId : JsString)
  deriving DecidableEq

def independenceKey (a : Assertion) : Independence :=
  if a.sourceKind = .talentSelf then .self
  else if a.sourceKind.tiOriginated then .ti a.sourceKind
  else .tenant a.sourceSystemId (a.sourceTenantId.getD [])

namespace Cluster

/-- `sourcesOf`. -/
def sources (c : Cluster) : Nat :=
  let n := ((c.members.filter (!·.aiDerived)).map independenceKey).dedup.length
  if n = 0 then 1 else n

def bestVerification (c : Cluster) : Nat :=
  (c.members.map (·.verificationStatus.order)).foldl Nat.max 0

def latest (c : Cluster) : Nat := (c.members.map (·.observedAt)).foldl Nat.max 0

/-- A member carries the flag that the platform computed. -/
def authoritative (c : Cluster) : Bool :=
  c.members.any fun m => match member m.payload (js "authoritative") with
    | .bool b => b
    | _ => false

/-- `clusterOrder`: `a` stands before `b` or they are the same. -/
def beforeOrEqual (type : AssertionType) (a b : Cluster) : Bool :=
  if type = .workAuthorization ∧ a.authoritative ≠ b.authoritative then a.authoritative
  else if a.bestVerification ≠ b.bestVerification then b.bestVerification < a.bestVerification
  else if type ≠ .availability ∧ a.sources ≠ b.sources then b.sources < a.sources
  else if a.latest ≠ b.latest then b.latest < a.latest
  else a.rep.id ≤ b.rep.id

end Cluster

/-- The clusters of a fact, the winning one first. -/
def rankedClusters (host : Host) (type : AssertionType) (claims : List Assertion) : List Cluster :=
  (clusterClaims host type claims).insertionSort fun a b => a.beforeOrEqual type b = true

/-! ## Facts -/

inductive FactType where
  | claim (type : AssertionType)
  | contact (type : IdentifierType)
  deriving DecidableEq

inductive FactState where
  | resolved
  | stale
  | contradicted
  deriving DecidableEq

structure ProjectedFact where
  factType : FactType
  factKey : JsString
  value : List (JsString × JsVal)
  state : FactState
  verificationStatus : AssertionVerification
  corroboratingSources : Nat
  supportingAssertionIds : List Nat

def verificationName : Nat → AssertionVerification
  | 3 => .verified
  | 2 => .documentSupported
  | _ => .declared

/-- The largest of some numbers, if there are any. -/
def maxNum (host : Host) : List JsNum → Option JsNum
  | [] => none
  | n :: rest => some (rest.foldl host.max n)

def factValue (host : Host) (type : AssertionType) (winner : Cluster) (stale : Bool) :
    List (JsString × JsVal) :=
  let p := winner.rep.payload
  match type with
  | .skill =>
      let years := winner.members.filterMap fun m => match member m.payload (js "years") with
        | .num n => some n
        | _ => none
      let lastUsed := (winner.members.filterMap fun m =>
        stringMember m.payload (js "last_used")).insertionSort
        fun a b => strLe a b = true
      let withYears := match maxNum host years with
        | some n => assign p (js "years", .num n)
        | none => p
      match lastUsed.getLast? with
      | some s => assign withYears (js "last_used", .str s)
      | none => withYears
  | .availability =>
      assign (assign p (js "freshness", .str (if stale then js "STALE" else js "CURRENT")))
        (js "observed_at", .str (toISOString winner.rep.observedAt))
  | .certification => assign p (js "expired", .bool stale)
  | _ => p

def identifierDigest (host : Host) (key : IdentifierKey) : JsString := host.sha256Hex key.text

/-- `SINGLE_VALUED` and `MULTI_VALUED`: every type but a verification outcome. -/
def AssertionType.hasFact : AssertionType → Bool
  | .verificationOutcome => false
  | _ => true

/-- The key under which a claim is grouped. -/
def groupKey (host : Host) (a : Assertion) : AssertionType × JsString :=
  (a.assertionType, if a.assertionType.singleValued then [] else factKey host
    a.assertionType a.payload)

/-- The groups of claims in the order of their first member. -/
def claimGroups (host : Host) (projected : List Assertion) :
    List ((AssertionType × JsString) × List Assertion) :=
  let claims := projected.filter (·.assertionType.hasFact)
  (claims.map (groupKey host)).reverse.dedup.reverse.map fun k =>
    (k, claims.filter fun a => groupKey host a = k)

/-- The members of the winning cluster that a losing claim contradicts: those of
another source that were not reconciled with it. -/
def eligiblePartners (opts : ProjectionOptions) (winner : Cluster) (m : Assertion) :
    List Assertion :=
  winner.members.filter fun w =>
    (w.sourceReferenceId != m.sourceReferenceId ||
        (w.sourceReferenceId.isNone && w.id != m.id)) &&
      !opts.reconciled.contains (m.id, w.id)

/-- The contradictions of one group: every losing claim with its partners. -/
def groupContradictions (opts : ProjectionOptions) (clusters : List Cluster) :
    List (Nat × List Nat) :=
  match clusters with
  | [] => []
  | winner :: losers =>
      (losers.flatMap (·.members)).filterMap fun m =>
        match eligiblePartners opts winner m with
        | [] => none
        | partners => some (m.id, partners.map (·.id))

/-- The fact of one group. -/
def groupFact (host : Host) (opts : ProjectionOptions) (key : AssertionType × JsString)
    (clusters : List Cluster) : List ProjectedFact :=
  match clusters with
  | [] => []
  | winner :: _ =>
      let stale := winner.members.all (isTimeStale opts)
      [{ factType := .claim key.1
         factKey := key.2.takeWhile (· ≠ 0)
         value := factValue host key.1 winner stale
         state := if groupContradictions opts clusters ≠ [] then .contradicted
           else if stale then .stale else .resolved
         verificationStatus := verificationName winner.bestVerification
         corroboratingSources := winner.sources
         supportingAssertionIds := (winner.members.map (·.id)).insertionSort (· ≤ ·) }]

/-- The contact facts of the active email and phone identifiers. -/
def contactFacts (host : Host) (identifiers : List SubjectIdentifier)
    (verifications : List Assertion) : List ProjectedFact :=
  let contacts := identifiers.filter fun i => i.status == .active && i.key.identifierType != .govId
  (contacts.map (·.key)).reverse.dedup.reverse.map fun key =>
    let rows := contacts.filter (·.key == key)
    let verified := rows.any (·.verificationStatus == .verified)
    { factType := .contact key.identifierType
      factKey := key.normalizedValue
      value := [(js "value", .str key.normalizedValue), (js "verified", .bool verified),
        (js "primary", .bool (rows.any (·.isPrimary)))]
      state := .resolved
      verificationStatus := if verified then .verified else .declared
      corroboratingSources := (rows.map (·.sourceReferenceId)).dedup.length
      supportingAssertionIds := ((verifications.filter fun a =>
        stringMember a.payload (js "identifier_digest") == some (identifierDigest host key)).map
          (·.id)).insertionSort (· ≤ ·) }

/-- `PROFILE_FACT_TYPES`, the order in which facts are shown. -/
def FactType.order : FactType → Nat
  | .claim .name => 0
  | .claim .currentEmployer => 1
  | .claim .title => 2
  | .claim .location => 3
  | .claim .workHistory => 4
  | .claim .skill => 5
  | .claim .education => 6
  | .claim .certification => 7
  | .claim .project => 8
  | .claim .publicProfileUrl => 9
  | .claim .availability => 10
  | .claim .workAuthorization => 11
  | .contact .email => 12
  | .contact .phone => 13
  | _ => 99

/-- `value[k] === true`. -/
def ProjectedFact.flag (f : ProjectedFact) (k : JsString) : Bool :=
  match member f.value k with
  | .bool b => b
  | _ => false

/-- `orderFacts` compares the type, the flags of a contact and the key. -/
def ProjectedFact.beforeOrEqual (a b : ProjectedFact) : Bool :=
  if a.factType.order ≠ b.factType.order then a.factType.order < b.factType.order
  else if a.flag (js "verified") ≠ b.flag (js "verified") then a.flag (js "verified")
  else if a.flag (js "primary") ≠ b.flag (js "primary") then a.flag (js "primary")
  else strLe a.factKey b.factKey

/-! ## Trust -/

inductive TrustBand where
  | notEstablished
  | selfAsserted
  | corroborated
  | independentlyVerified
  | authoritative
  deriving DecidableEq

def TrustBand.order : TrustBand → Nat
  | .notEstablished => 0
  | .selfAsserted => 1
  | .corroborated => 2
  | .independentlyVerified => 3
  | .authoritative => 4

def TrustBand.atLeast (current floor : TrustBand) : TrustBand :=
  if current.order < floor.order then floor else current

inductive TrustDimension where
  | identity
  | claims
  | continuity
  | eligibility
  deriving DecidableEq

def dimensionOf (a : Assertion) : TrustDimension :=
  match a.assertionType with
  | .name => .identity
  | .workHistory | .education => .continuity
  | .workAuthorization => .eligibility
  | .verificationOutcome =>
      let target := stringMember a.payload (js "target")
      if target = some (js "EMAIL") ∨ target = some (js "PHONE") then .identity
      else if target = some (js "EMPLOYMENT") ∨ target = some (js "EDUCATION") then .continuity
      else .claims
  | _ => .claims

structure TrustState where
  identityBand : TrustBand
  claimsBand : TrustBand
  continuityBand : TrustBand
  eligibilityBand : TrustBand
  openContradictionCount : Nat
  staleAssertionCount : Nat
  hasOpenDispute : Bool
  singleSourceOnly : Bool
  verificationStale : Bool
  deriving DecidableEq

/-- The flag of a work authorisation that the platform computed. -/
def isAuthoritative (a : Assertion) : Bool :=
  match member a.payload (js "authoritative") with
  | .bool b => b
  | _ => false

/-- `deriveBand`, on assertions under their status in the view. -/
def deriveBand (dimension : TrustDimension) (assertions : List Assertion) (supported : List Nat)
    (identifiers : List SubjectIdentifier) : TrustBand :=
  let valid := assertions.filter fun a => a.currentStatus == .valid && dimensionOf a == dimension
  let senderVerified := dimension == .identity &&
    identifiers.any fun i => i.verificationStatus == .verified && i.sourceReferenceId.isSome
  if valid.isEmpty && !senderVerified then .notEstablished
  else
    -- only an authoritative work authorisation raises the band of eligibility
    let raising := if dimension = .eligibility then
        valid.filter fun a => a.assertionType != .workAuthorization || isAuthoritative a
      else valid
    let sources := ((raising.filter fun a => !a.aiDerived && a.sourceKind != .talentSelf).map
      independenceKey).dedup
    let documented := raising.any fun a =>
      !a.aiDerived && a.verificationStatus == .documentSupported
    let tiVerified := raising.filter fun a =>
      a.sourceKind.tiOriginated && a.verificationStatus == .verified
    let b₁ := if 2 ≤ sources.length || documented || senderVerified then
      TrustBand.selfAsserted.atLeast .corroborated else .selfAsserted
    let b₂ := if tiVerified.isEmpty then b₁ else b₁.atLeast .independentlyVerified
    let b₃ := if tiVerified.any fun a => a.sourceKind == .tiAcquired && supported.contains a.id then
      b₂.atLeast .authoritative else b₂
    let contradicted := assertions.any fun a =>
      a.currentStatus == .contradicted && dimensionOf a == dimension
    if contradicted && TrustBand.corroborated.order < b₃.order then .corroborated else b₃

def verificationStaleDays : Nat := 365

def deriveTrust (assertions : List Assertion) (identifiers : List SubjectIdentifier)
    (supported : List Nat) (now : Nat) : TrustState :=
  let firstHand := assertions.filter fun a => a.currentStatus == .valid && !a.aiDerived
  { identityBand := deriveBand .identity assertions supported identifiers
    claimsBand := deriveBand .claims assertions supported identifiers
    continuityBand := deriveBand .continuity assertions supported identifiers
    eligibilityBand := deriveBand .eligibility assertions supported identifiers
    openContradictionCount := assertions.countP (·.currentStatus == .contradicted)
    staleAssertionCount := assertions.countP (·.currentStatus == .stale)
    hasOpenDispute := assertions.any (·.currentStatus == .disputed)
    singleSourceOnly := (firstHand.map independenceKey).dedup.length == 1
    verificationStale := assertions.any fun a =>
      a.currentStatus == .valid && a.sourceKind == .verification &&
        verificationStaleDays * msPerDay < now - a.observedAt }

/-! ## The projection of a view -/

structure ProjectionResult where
  facts : List ProjectedFact
  /-- The status of every projected assertion in this view. -/
  effectiveStatus : List (Nat × AssertionStatus)
  /-- A losing claim and the first member of the winning cluster it contradicts. -/
  contradictions : List (Nat × Nat)
  /-- Every losing claim with all the members it contradicts. -/
  losing : List (Nat × List Nat)
  trust : TrustState

/-- The partners of a contradicted assertion, in order. -/
def ProjectionResult.partnersOf (r : ProjectionResult) (id : Nat) : List Nat :=
  uniq (r.losing.flatMap fun l =>
    if l.1 = id then l.2 else if l.2.contains id then [l.1] else [])

/-- The status of an assertion in a view. A dispute keeps its own axis. -/
def statusInView (opts : ProjectionOptions) (contradicted : List Nat) (a : Assertion) :
    AssertionStatus :=
  if a.currentStatus = .disputed then .disputed
  else if contradicted.contains a.id then .contradicted
  else if isTimeStale opts a then .stale
  else .valid

def computeProjection (host : Host) (assertions : List Assertion)
    (identifiers : List SubjectIdentifier) (opts : ProjectionOptions) : ProjectionResult :=
  let projected := assertions.filter (·.currentStatus.projected)
  let groups := (claimGroups host projected).map fun g => (g.1, rankedClusters host g.1.1 g.2)
  let losing := groups.flatMap fun g => groupContradictions opts g.2
  let contradictions := losing.filterMap fun l => l.2.head?.map fun w => (l.1, w)
  let contradicted := contradictions.flatMap fun c => [c.1, c.2]
  let status := statusInView opts contradicted
  let verifications := projected.filter fun a =>
    a.assertionType == .verificationOutcome && a.sourceKind == .verification
  let facts := (groups.flatMap fun g => groupFact host opts g.1 g.2) ++
    contactFacts host identifiers verifications
  { facts := facts.insertionSort fun a b => a.beforeOrEqual b = true
    effectiveStatus := projected.map fun a => (a.id, status a)
    contradictions := contradictions
    losing := losing
    trust := deriveTrust (projected.map fun a => { a with currentStatus := status a })
      (identifiers.filter (·.status == .active)) opts.artifactSupported opts.now }

/-- The status of an assertion in the view, if it is projected there. -/
def ProjectionResult.statusOf (r : ProjectionResult) (id : Nat) : Option AssertionStatus :=
  (r.effectiveStatus.find? (·.1 == id)).map (·.2)

end AramoPlatform.Intelligence
