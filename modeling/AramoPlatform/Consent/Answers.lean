import AramoPlatform.Consent.Ledger

/-!
# The answers of the ledger

The runtime check, the state read and the list summary each read all rows of a
talent, take the latest row of every source for a scope, and answer with the
most restrictive of them. They differ in what they do with terms, with old
grants and with channels.
-/

namespace AramoPlatform.Consent

open Lib List

inductive ContactChannel
  | email
  | phone
  | sms
  | indeed
  | portal
  | other
  deriving DecidableEq

def ContactChannel.wire : ContactChannel → String
  | email => "email"
  | phone => "phone"
  | sms => "sms"
  | indeed => "indeed"
  | portal => "portal"
  | other => "other"

inductive ConsentCheckOperation
  | ingestion
  | matching
  | examination
  | selection
  | packaging
  | submittal
  | crossTenant
  | communication
  | recording
  | transcription
  | aiProcessing
  deriving DecidableEq

namespace ConsentCheckOperation

/-- `OPERATION_SCOPE_MAP`. -/
def requiredScope : ConsentCheckOperation → ConsentScope
  | ingestion => .profileStorage
  | matching | examination => .matching
  | selection | packaging | submittal | communication => .contacting
  | crossTenant => .crossTenantVisibility
  | recording => .recording
  | transcription => .transcription
  | aiProcessing => .aiProcessing

end ConsentCheckOperation

/-- `SCOPE_DEPENDENCY_CHAIN`: the prerequisites of a scope. -/
def scopeDependencyChain : ConsentScope → List ConsentScope
  | .matching => [.profileStorage]
  | .contacting => [.profileStorage, .matching]
  | .crossTenantVisibility => [.profileStorage, .matching, .contacting]
  | .profileStorage | .resumeProcessing | .recording | .transcription | .aiProcessing => []

def stalenessWindowMonths : Nat := 12

/-! ## The rows of a scope -/

def ofScope (scope : ConsentScope) (rows : List ConsentEvent) : List ConsentEvent :=
  rows.filter fun e => e.scope == scope

def grantsOf (scope : ConsentScope) (rows : List ConsentEvent) : List ConsentEvent :=
  rows.filter fun e => e.scope == scope && e.action == .granted

/-- The map from a source to its latest row: a later row of the source replaces it. -/
def latestPerSource (rows : List ConsentEvent) : List ConsentEvent :=
  latestPer (·.capturedMethod) (·.occurredAt) rows

def isDenial (e : ConsentEvent) : Bool := e.action == .revoked || e.action == .expired

inductive ScopeState
  | allowed
  | denied
  | noGrant
  deriving DecidableEq

def computeMostRestrictiveStateForScope (rows : List ConsentEvent) (scope : ConsentScope) :
    ScopeState :=
  let scopeEvents := ofScope scope rows
  if scopeEvents.isEmpty then .noGrant
  else if (latestPerSource scopeEvents).any isDenial then .denied
  else if (latestPerSource scopeEvents).any (·.action == .granted) then .allowed
  else .noGrant

def findLatestGrantForScope (rows : List ConsentEvent) (scope : ConsentScope) :
    Option ConsentEvent :=
  latest (·.occurredAt) (grantsOf scope rows)

/-- Older than the window, in calendar months. -/
def isStale (calendar : Calendar) (occurredAt now : Nat) : Bool :=
  decide (occurredAt < calendar.monthsBefore stalenessWindowMonths now)

/-- One step of the intersection; a grant without the list restricts nothing. -/
def narrowChannels (intersection : Option (List String)) (e : ConsentEvent) :
    Option (List String) :=
  match e.metadata.permittedChannels with
  | none => intersection
  | some permitted =>
    match intersection with
    | none => some permitted.eraseDups
    | some previous => some (previous.filter permitted.contains)

/-- The channels that every latest grant permits; `none` when no grant restricts them. -/
def computePermittedChannelsIntersection (rows : List ConsentEvent) (scope : ConsentScope) :
    Option (List String) :=
  (latestPerSource (grantsOf scope rows)).foldl narrowChannels none

/-! ## The runtime check -/

inductive ReasonCode
  | consentStateUnknown
  | scopeDependencyUnmet
  | consentNotGranted
  | consentRevoked
  | staleConsent
  | channelNotConsented
  deriving DecidableEq

inductive CheckResult
  | allowed
  | denied
  | error
  deriving DecidableEq

structure ConsentDecision where
  result : CheckResult
  scope : ConsentScope
  deniedScopes : List ConsentScope
  reasonCode : Option ReasonCode
  displayMessage : Option String
  logMessage : String
  computedAt : Nat
  deriving DecidableEq

/-- The missing channel is refused with 400, an unmet dependency with 422 and the
decision in its details; other decisions are returned. -/
inductive CheckOutcome
  | channelRequired (operation : ConsentCheckOperation) (derivedScope : ConsentScope)
  | unmetDependency (decision : ConsentDecision)
  | decided (decision : ConsentDecision)
  deriving DecidableEq

def scopeNames (scopes : List ConsentScope) : String := ", ".intercalate (scopes.map (·.wire))

/-- A denial of the requested scope itself. -/
def denial (now : Nat) (scope : ConsentScope) (reason : ReasonCode) (display : Option String)
    (log : String) : CheckOutcome :=
  .decided ⟨.denied, scope, [scope], some reason, display, log, now⟩

/-- Whether the channel is within the permitted ones. -/
def channelPermitted (permitted : Option (List String)) (channel : ContactChannel) : Bool :=
  permitted.all (·.contains channel.wire)

/-- Decisions F and G, for contacting. -/
def contactingDecision (calendar : Calendar) (now : Nat) (events : List ConsentEvent)
    (channel : ContactChannel) : CheckOutcome :=
  if (findLatestGrantForScope events .contacting).any fun g =>
    isStale calendar g.occurredAt now then
    denial now .contacting .staleConsent (some "Consent has expired. Refresh required.")
      "contacting_denied: stale_consent"
  else if !channelPermitted (computePermittedChannelsIntersection events .contacting) channel then
    denial now .contacting .channelNotConsented
      (some ("Channel '" ++ channel.wire ++ "' is not permitted by current consent."))
      ("contacting_denied: channel_not_consented (" ++ channel.wire ++ ")")
  else .decided ⟨.allowed, .contacting, [], none, none, "contacting_allowed", now⟩

/-- What is asked of a scope that stands: nothing, but for contacting. -/
def standingDecision (calendar : Calendar) (now : Nat) (events : List ConsentEvent)
    (scope : ConsentScope) (channel : Option ContactChannel) : CheckOutcome :=
  match scope, channel with
  | .contacting, some channel => contactingDecision calendar now events channel
  | _, _ => .decided ⟨.allowed, scope, [], none, none, scope.wire ++ "_allowed", now⟩

/-- Decisions D, F and G, once the dependencies of the scope are met. -/
def scopeDecision (calendar : Calendar) (now : Nat) (events : List ConsentEvent)
    (scope : ConsentScope) (channel : Option ContactChannel) : CheckOutcome :=
  match computeMostRestrictiveStateForScope events scope with
  | .noGrant => denial now scope .consentNotGranted none (scope.wire ++ "_denied: no_grant")
  | .denied => denial now scope .consentRevoked none (scope.wire ++ "_denied: denied")
  | .allowed => standingDecision calendar now events scope channel

/-- The prerequisites that do not stand. -/
def failedDependencies (events : List ConsentEvent) (scope : ConsentScope) : List ConsentScope :=
  (scopeDependencyChain scope).filter fun dep =>
    computeMostRestrictiveStateForScope events dep != .allowed

/-- `resolveConsentState` on the rows of a talent, which are read latest first. -/
def resolveConsentState (calendar : Calendar) (now talentRecordId : Nat) (rows : List ConsentEvent)
    (operation : ConsentCheckOperation) (channel : Option ContactChannel) : CheckOutcome :=
  let scope := operation.requiredScope
  if scope == .contacting && channel.isNone then .channelRequired operation scope
  else
    let events := rows.insertionSort fun a b => b.occurredAt ≤ a.occurredAt
    if events.isEmpty then
      .decided ⟨.error, scope, [], some .consentStateUnknown, none,
        "consent_state_missing for talent " ++ toString talentRecordId, now⟩
    else if !(failedDependencies events scope).isEmpty then
      .unmetDependency ⟨.denied, scope, failedDependencies events scope,
        some .scopeDependencyUnmet,
        some ("Required consent scope(s) not granted: " ++
          scopeNames (failedDependencies events scope)),
        "scope_dependency_unmet: " ++ scopeNames (failedDependencies events scope), now⟩
    else scopeDecision calendar now events scope channel

/-- The check returns an allowing decision. -/
def CheckOutcome.allows : CheckOutcome → Bool
  | .decided decision => decision.result == .allowed
  | _ => false

/-! ## The state read -/

inductive ConsentScopeStatus
  | granted
  | revoked
  | expired
  | noGrant
  deriving DecidableEq

/-- `TalentConsentScopeStateDto`. -/
@[ext] structure ScopeStateDto where
  scope : ConsentScope
  status : ConsentScopeStatus
  grantedAt : Option Nat
  revokedAt : Option Nat
  expiresAt : Option Nat
  deriving DecidableEq

def findLatestForAction (rows : List ConsentEvent) (action : ConsentAction) : Option ConsentEvent :=
  latest (·.occurredAt) (rows.filter fun e => e.action == action)

/-- The status by the latest row of every source, most restrictive first. -/
def latestStatus (scopeEvents : List ConsentEvent) : ConsentScopeStatus :=
  if (latestPerSource scopeEvents).any (·.action == .revoked) then .revoked
  else if (latestPerSource scopeEvents).any (·.action == .expired) then .expired
  else if (latestPerSource scopeEvents).any (·.action == .granted) then .granted
  else .noGrant

/-- A grant whose term has ended. -/
def termEnded (now : Nat) (grant : Option ConsentEvent) : Bool :=
  (grant.bind (·.expiresAt)).any fun expiresAt => decide (expiresAt ≤ now)

def deriveScopeStateForReadEndpoint (now : Nat) (rows : List ConsentEvent) (scope : ConsentScope) :
    ScopeStateDto :=
  let scopeEvents := ofScope scope rows
  if scopeEvents.isEmpty then ⟨scope, .noGrant, none, none, none⟩
  else
    let status := latestStatus scopeEvents
    let latestGrant := findLatestForAction scopeEvents .granted
    let latestRevoke := findLatestForAction scopeEvents .revoked
    { scope := scope
      status := if status == .granted && termEnded now latestGrant then .expired else status
      grantedAt := latestGrant.map (·.occurredAt)
      revokedAt := latestRevoke.map (·.occurredAt)
      expiresAt := latestGrant.bind (·.expiresAt) }

/-- The scopes of `resolveAllScopes`. -/
def resolveAllScopes (now : Nat) (rows : List ConsentEvent) : List ScopeStateDto :=
  profileConsentScopes.map (deriveScopeStateForReadEndpoint now rows)

/-! ## The list summary -/

inductive ConsentSummary
  | contactable
  | expiringLt30d
  | doNotContact
  deriving DecidableEq

/-- Thirty days in milliseconds. -/
def expiringHorizon : Nat := 2592000000

/-- The summary of one talent by its contacting rows. -/
def contactingSummary (now : Nat) (rows : List ConsentEvent) : Option ConsentSummary :=
  let evs := ofScope .contacting rows
  if evs.isEmpty then none
  else
    let anyRevoked := (latestPerSource evs).any (·.action == .revoked)
    let anyExpired := (latestPerSource evs).any (·.action == .expired)
    let anyGranted := (latestPerSource evs).any (·.action == .granted)
    if anyRevoked || anyExpired || !anyGranted then some .doNotContact
    else
      let latestGrantExpiry := (findLatestForAction evs .granted).bind (·.expiresAt)
      if latestGrantExpiry.any fun expiry => decide (expiry ≤ now + expiringHorizon) then
        some .expiringLt30d
      else some .contactable

/-! ## What the answers rest on -/

variable {calendar : Calendar} {now talentRecordId : Nat} {rows rows' : List ConsentEvent}
  {scope : ConsentScope} {operation : ConsentCheckOperation} {channel : ContactChannel}

/-- The latest row of some source has `p`. -/
def anyLatest (p : ConsentEvent → Bool) (rows : List ConsentEvent) : Bool :=
  (latestPerSource rows).any p

/-- The scope has a row, and no source stands at a denial. -/
structure Stands (rows : List ConsentEvent) (scope : ConsentScope) : Prop where
  some_row : ofScope scope rows ≠ []
  no_denial : anyLatest isDenial (ofScope scope rows) = false

theorem anyLatest_iff {p : ConsentEvent → Bool} :
    anyLatest p rows = true ↔
      ∃ e, latest (·.occurredAt) (ofKey (·.capturedMethod) e.capturedMethod rows) = some e ∧
        p e = true :=
  any_latestPer

theorem anyLatest_sorted (p q : ConsentEvent → Bool) :
    anyLatest p ((rows.insertionSort fun a b => b.occurredAt ≤ a.occurredAt).filter q) =
      anyLatest p (rows.filter q) := by
  rw [Bool.eq_iff_iff, anyLatest_iff, anyLatest_iff]
  simp only [ofKey, filter_insertionSort_desc, latest_insertionSort]

theorem isGrant_of_not_denial {e : ConsentEvent} (h : isDenial e = false) :
    e.action = .granted := by
  unfold isDenial at h
  cases haction : e.action <;> simp [haction] at h ⊢

theorem exists_latestPerSource (h : rows ≠ []) : ∃ e, e ∈ latestPerSource rows := by
  obtain ⟨e, rest, rfl⟩ := exists_cons_of_ne_nil h
  obtain ⟨b, hb⟩ := exists_latest_of_mem (·.capturedMethod) (·.occurredAt)
    (mem_cons_self (a := e) (l := rest))
  refine ⟨b, mem_latestPer.mpr ?_⟩
  rw [(latestOfKey_of_latest hb).1]
  exact hb

theorem anyLatest_granted (hne : rows ≠ []) (h : anyLatest isDenial rows = false) :
    anyLatest (·.action == .granted) rows = true := by
  obtain ⟨e, he⟩ := exists_latestPerSource hne
  have hnot : isDenial e = false := by
    rw [Bool.eq_false_iff]
    intro hd
    have hany : anyLatest isDenial rows = true := any_eq_true.mpr ⟨e, he, hd⟩
    rw [h] at hany
    cases hany
  exact any_eq_true.mpr ⟨e, he, by rw [isGrant_of_not_denial hnot]; rfl⟩

theorem scopeState_eq :
    computeMostRestrictiveStateForScope rows scope =
      if ofScope scope rows = [] then .noGrant
      else if anyLatest isDenial (ofScope scope rows) then .denied else .allowed := by
  unfold computeMostRestrictiveStateForScope
  by_cases hnil : ofScope scope rows = []
  · simp [hnil]
  · have hempty : (ofScope scope rows).isEmpty = false := by simpa using hnil
    simp only [hempty, hnil, if_false, Bool.false_eq_true]
    cases hd : anyLatest isDenial (ofScope scope rows) with
    | true =>
      have hany : (latestPerSource (ofScope scope rows)).any isDenial = true := hd
      rw [hany, if_pos rfl, if_pos rfl]
    | false =>
      have hany : (latestPerSource (ofScope scope rows)).any isDenial = false := hd
      have hgrant : (latestPerSource (ofScope scope rows)).any (·.action == .granted) = true :=
        anyLatest_granted hnil hd
      simp only [hany, hgrant, Bool.false_eq_true, if_false, if_true]

theorem scopeState_allowed_iff :
    computeMostRestrictiveStateForScope rows scope = .allowed ↔ Stands rows scope := by
  rw [scopeState_eq]
  constructor
  · intro h
    by_cases hnil : ofScope scope rows = []
    · rw [if_pos hnil] at h
      cases h
    · rw [if_neg hnil] at h
      cases hd : anyLatest isDenial (ofScope scope rows) with
      | true =>
        rw [hd] at h
        cases h
      | false => exact ⟨hnil, hd⟩
  · rintro ⟨hne, hno⟩
    rw [if_neg hne, hno]
    rfl

theorem scopeState_denied_iff :
    computeMostRestrictiveStateForScope rows scope = .denied ↔
      anyLatest isDenial (ofScope scope rows) = true := by
  rw [scopeState_eq]
  by_cases hnil : ofScope scope rows = []
  · rw [if_pos hnil, hnil]
    constructor <;> intro h <;> cases h
  · rw [if_neg hnil]
    cases anyLatest isDenial (ofScope scope rows) <;> simp

theorem scopeState_sorted :
    computeMostRestrictiveStateForScope
        (rows.insertionSort fun a b => b.occurredAt ≤ a.occurredAt) scope =
      computeMostRestrictiveStateForScope rows scope := by
  have hnil : ofScope scope (rows.insertionSort fun a b => b.occurredAt ≤ a.occurredAt) = [] ↔
      ofScope scope rows = [] := by
    rw [ofScope, filter_insertionSort_desc, ← length_eq_zero_iff, length_insertionSort,
      length_eq_zero_iff, ofScope]
  rw [scopeState_eq, scopeState_eq]
  have hany : anyLatest isDenial
      (ofScope scope (rows.insertionSort fun a b => b.occurredAt ≤ a.occurredAt)) =
        anyLatest isDenial (ofScope scope rows) := anyLatest_sorted _ _
  simp only [hnil, hany]

/-! ## Channels -/

/-- The grant does not exclude the channel. -/
def admits (channel : ContactChannel) (e : ConsentEvent) : Bool :=
  e.metadata.permittedChannels.all (·.contains channel.wire)

theorem channelPermitted_narrow (intersection : Option (List String)) (e : ConsentEvent) :
    channelPermitted (narrowChannels intersection e) channel =
      (channelPermitted intersection channel && admits channel e) := by
  unfold narrowChannels admits channelPermitted
  cases e.metadata.permittedChannels with
  | none => simp
  | some permitted =>
    cases intersection with
    | none => simp [contains_eq_mem]
    | some previous => simp [contains_eq_mem, Bool.and_comm]

theorem channelPermitted_foldl (intersection : Option (List String)) (grants : List ConsentEvent) :
    channelPermitted (grants.foldl narrowChannels intersection) channel =
      (channelPermitted intersection channel && grants.all (admits channel)) := by
  induction grants generalizing intersection with
  | nil => simp
  | cons e rest ih =>
    rw [foldl_cons, ih, channelPermitted_narrow, all_cons, Bool.and_assoc]

theorem channelPermitted_eq :
    channelPermitted (computePermittedChannelsIntersection rows scope) channel =
      !anyLatest (fun e => !admits channel e) (grantsOf scope rows) := by
  rw [computePermittedChannelsIntersection, channelPermitted_foldl]
  simp [channelPermitted, anyLatest, all_eq_not_any_not]

theorem channelPermitted_sorted :
    channelPermitted (computePermittedChannelsIntersection
        (rows.insertionSort fun a b => b.occurredAt ≤ a.occurredAt) scope) channel =
      channelPermitted (computePermittedChannelsIntersection rows scope) channel := by
  rw [channelPermitted_eq, channelPermitted_eq, grantsOf, anyLatest_sorted]
  rfl

theorem latestGrant_sorted :
    findLatestGrantForScope (rows.insertionSort fun a b => b.occurredAt ≤ a.occurredAt) scope =
      findLatestGrantForScope rows scope := by
  rw [findLatestGrantForScope, grantsOf, filter_insertionSort_desc, latest_insertionSort]
  rfl

/-! ## The check in closed form -/

/-- The latest grant for contacting is within the window. -/
def FreshGrant (calendar : Calendar) (now : Nat) (rows : List ConsentEvent) : Prop :=
  ∀ g, findLatestGrantForScope rows .contacting = some g → isStale calendar g.occurredAt now = false

/-- No source's latest grant for contacting excludes the channel. -/
def AdmitsChannel (rows : List ConsentEvent) (channel : ContactChannel) : Prop :=
  anyLatest (fun e => !admits channel e) (grantsOf .contacting rows) = false

/-- What the check asks of a scope itself, beyond its standing. -/
def ContactingTerms (calendar : Calendar) (now : Nat) (rows : List ConsentEvent)
    (scope : ConsentScope) (channel : Option ContactChannel) : Prop :=
  scope = .contacting →
    FreshGrant calendar now rows ∧ ∃ c, channel = some c ∧ AdmitsChannel rows c

/-- The rows read latest first. -/
abbrev latestFirst (rows : List ConsentEvent) : List ConsentEvent :=
  rows.insertionSort fun a b => b.occurredAt ≤ a.occurredAt

theorem latestFirst_isEmpty : (latestFirst rows).isEmpty = rows.isEmpty := by
  rw [Bool.eq_iff_iff, List.isEmpty_iff, List.isEmpty_iff, ← length_eq_zero_iff,
    length_insertionSort, length_eq_zero_iff]

theorem failedDependencies_sorted :
    failedDependencies (latestFirst rows) scope = failedDependencies rows scope := by
  simp only [failedDependencies, latestFirst, scopeState_sorted]

theorem failedDependencies_isEmpty :
    (failedDependencies rows scope).isEmpty = true ↔
      ∀ dep ∈ scopeDependencyChain scope, Stands rows dep := by
  simp only [failedDependencies, List.isEmpty_iff, filter_eq_nil_iff, bne_iff_ne, ne_eq,
    not_not, scopeState_allowed_iff]

theorem contactingDecision_allows :
    (contactingDecision calendar now rows channel).allows = true ↔
      FreshGrant calendar now rows ∧ AdmitsChannel rows channel := by
  unfold contactingDecision
  split
  next hstale =>
    constructor
    · intro h
      cases h
    · rintro ⟨hfresh, -⟩
      cases hg : findLatestGrantForScope rows .contacting with
      | none => simp [hg] at hstale
      | some g =>
        have hold : isStale calendar g.occurredAt now = true := by simpa [hg] using hstale
        rw [hfresh g hg] at hold
        cases hold
  next hstale =>
    have hfresh : FreshGrant calendar now rows := by
      intro g hg
      rw [hg] at hstale
      simpa using hstale
    rw [channelPermitted_eq, Bool.not_not]
    split
    next hexcluded =>
      constructor
      · intro h
        cases h
      · rintro ⟨-, hadmits⟩
        rw [AdmitsChannel, hexcluded] at hadmits
        cases hadmits
    next hadmits =>
      have hno : AdmitsChannel rows channel := by
        rw [AdmitsChannel]
        simpa using hadmits
      exact ⟨fun _ => ⟨hfresh, hno⟩, fun _ => rfl⟩

theorem contactingDecision_sorted :
    contactingDecision calendar now (latestFirst rows) channel =
      contactingDecision calendar now rows channel := by
  simp only [contactingDecision, latestFirst, latestGrant_sorted, channelPermitted_sorted]

theorem scopeDecision_sorted {channel : Option ContactChannel} :
    scopeDecision calendar now (latestFirst rows) scope channel =
      scopeDecision calendar now rows scope channel := by
  have hstanding : standingDecision calendar now (latestFirst rows) scope channel =
      standingDecision calendar now rows scope channel := by
    cases scope <;> cases channel <;> first | rfl | exact contactingDecision_sorted
  simp only [scopeDecision, hstanding]
  rw [scopeState_sorted]

/-- The order of the query is no matter: the answer is that of the rows themselves. -/
theorem resolveConsentState_eq {channel : Option ContactChannel} :
    resolveConsentState calendar now talentRecordId rows operation channel =
      if operation.requiredScope == .contacting && channel.isNone then
        .channelRequired operation operation.requiredScope
      else if rows.isEmpty then
        .decided ⟨.error, operation.requiredScope, [], some .consentStateUnknown, none,
          "consent_state_missing for talent " ++ toString talentRecordId, now⟩
      else if !(failedDependencies rows operation.requiredScope).isEmpty then
        .unmetDependency ⟨.denied, operation.requiredScope,
          failedDependencies rows operation.requiredScope, some .scopeDependencyUnmet,
          some ("Required consent scope(s) not granted: " ++
            scopeNames (failedDependencies rows operation.requiredScope)),
          "scope_dependency_unmet: " ++
            scopeNames (failedDependencies rows operation.requiredScope), now⟩
      else scopeDecision calendar now rows operation.requiredScope channel := by
  have hempty : (rows.insertionSort fun a b => b.occurredAt ≤ a.occurredAt).isEmpty =
      rows.isEmpty := latestFirst_isEmpty
  have hfailed : failedDependencies (rows.insertionSort fun a b => b.occurredAt ≤ a.occurredAt)
      operation.requiredScope = failedDependencies rows operation.requiredScope :=
    failedDependencies_sorted
  have hdecision : scopeDecision calendar now
      (rows.insertionSort fun a b => b.occurredAt ≤ a.occurredAt) operation.requiredScope channel =
        scopeDecision calendar now rows operation.requiredScope channel := scopeDecision_sorted
  simp only [resolveConsentState, hempty, hfailed, hdecision]

theorem standingDecision_allows {channel : Option ContactChannel}
    (hchannel : (scope == .contacting && channel.isNone) = false) :
    (standingDecision calendar now rows scope channel).allows = true ↔
      ContactingTerms calendar now rows scope channel := by
  by_cases hscope : scope = .contacting
  · subst hscope
    cases channel with
    | none => cases hchannel
    | some c =>
      refine contactingDecision_allows.trans ?_
      simp [ContactingTerms]
  · have hterms : ContactingTerms calendar now rows scope channel := fun h => absurd h hscope
    refine iff_of_true ?_ hterms
    cases scope <;> first | rfl | exact absurd rfl hscope

theorem scopeDecision_allows {channel : Option ContactChannel}
    (hchannel : (scope == .contacting && channel.isNone) = false) :
    (scopeDecision calendar now rows scope channel).allows = true ↔
      Stands rows scope ∧ ContactingTerms calendar now rows scope channel := by
  rw [← scopeState_allowed_iff, ← standingDecision_allows hchannel, scopeDecision]
  cases computeMostRestrictiveStateForScope rows scope <;> simp [denial, CheckOutcome.allows]

/-- **What the check allows**: its scope and the prerequisites stand; for contacting, the
latest grant is within the window and no source excludes the channel. -/
theorem resolveConsentState_allows_iff {channel : Option ContactChannel} :
    (resolveConsentState calendar now talentRecordId rows operation channel).allows = true ↔
      (∀ dep ∈ scopeDependencyChain operation.requiredScope, Stands rows dep) ∧
        Stands rows operation.requiredScope ∧
          ContactingTerms calendar now rows operation.requiredScope channel := by
  rw [resolveConsentState_eq]
  cases hchannel : operation.requiredScope == .contacting && channel.isNone with
  | true =>
    rw [Bool.and_eq_true, beq_iff_eq, Option.isNone_iff_eq_none] at hchannel
    simp [CheckOutcome.allows, ContactingTerms, hchannel.1, hchannel.2]
  | false =>
    rw [if_neg Bool.false_ne_true]
    by_cases hnil : rows = []
    · subst hnil
      have hno : ¬ Stands [] operation.requiredScope := fun h => h.some_row rfl
      simp [CheckOutcome.allows, hno]
    · have hempty : rows.isEmpty = false := by simpa using hnil
      rw [hempty, if_neg Bool.false_ne_true, ← failedDependencies_isEmpty]
      cases (failedDependencies rows operation.requiredScope).isEmpty with
      | false => simp [CheckOutcome.allows]
      | true =>
        rw [Bool.not_true, if_neg Bool.false_ne_true, scopeDecision_allows hchannel]
        simp

end AramoPlatform.Consent
