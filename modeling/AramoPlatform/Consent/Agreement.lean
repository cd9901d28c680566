import AramoPlatform.Consent.Answers

/-!
# Where the three answers agree

The check, the state read and the summary apply one rule to the same rows. They
agree, for every order in which the rows are read, when no standing grant's term
has ended and rows of one source and time do not contradict each other where an
answer depends on them.
-/

namespace AramoPlatform.Consent

open Lib List

section Agreement

variable (calendar : Calendar) (now talentRecordId : Nat)

/-- The answers agree and depend on no order of the rows. -/
structure AnswersAgree (rows : List ConsentEvent) : Prop where
  /-- What the check allows is shown as granted, with its prerequisites. -/
  checkShown : ∀ read shown, read.Perm rows → shown.Perm rows →
    ∀ (operation : ConsentCheckOperation) channel,
      (resolveConsentState calendar now talentRecordId read operation channel).allows = true →
      ∀ scope ∈ scopeDependencyChain operation.requiredScope ++ [operation.requiredScope],
        scope ∈ profileConsentScopes →
          (deriveScopeStateForReadEndpoint now shown scope).status = .granted
  /-- A contactable talent is shown as granted. -/
  summaryShown : ∀ read shown, read.Perm rows → shown.Perm rows →
    contactingSummary now read = some .contactable ∨
      contactingSummary now read = some .expiringLt30d →
    (deriveScopeStateForReadEndpoint now shown .contacting).status = .granted
  sameCheck : ∀ read, read.Perm rows → ∀ operation channel,
    resolveConsentState calendar now talentRecordId read operation channel =
      resolveConsentState calendar now talentRecordId rows operation channel
  sameState : ∀ read, read.Perm rows → resolveAllScopes now read = resolveAllScopes now rows
  sameSummary : ∀ read, read.Perm rows → contactingSummary now read = contactingSummary now rows

/-- Whether a latest row of the scope has `p` does not depend on ties. -/
def ScopeSettled (p : ConsentEvent → Bool) (rows : List ConsentEvent) : Prop :=
  Settled (·.capturedMethod) (·.occurredAt) p rows

/-- The term of a latest grant of the scope has ended. -/
def TermEnded (rows : List ConsentEvent) (scope : ConsentScope) : Prop :=
  ∃ g, IsLatest (·.occurredAt) (grantsOf scope rows) g ∧ termEnded now (some g) = true

/-- Ties and terms that no answer stumbles over. -/
structure Unambiguous (rows : List ConsentEvent) : Prop where
  expiries : ∀ scope ∈ profileConsentScopes, ∀ a b,
    IsLatest (·.occurredAt) (grantsOf scope rows) a →
    IsLatest (·.occurredAt) (grantsOf scope rows) b → a.expiresAt = b.expiresAt
  revocations : ∀ scope ∈ profileConsentScopes,
    ScopeSettled (·.action == .revoked) (ofScope scope rows)
  denials : ∀ scope, scope ≠ .resumeProcessing → scope ≠ .crossTenantVisibility →
    ScopeSettled isDenial (ofScope scope rows)
  resume : ScopeSettled isDenial (ofScope .resumeProcessing rows) ∨
    TermEnded now rows .resumeProcessing
  crossTenant : ScopeSettled isDenial (ofScope .crossTenantVisibility rows) ∨
    (TermEnded now rows .crossTenantVisibility ∧
      ¬ ∀ dep ∈ scopeDependencyChain .crossTenantVisibility, Stands rows dep)
  channels : (∀ dep ∈ scopeDependencyChain .contacting, Stands rows dep) →
    Stands rows .contacting → FreshGrant calendar now rows →
    ∀ channel, ScopeSettled (fun e => !admits channel e) (grantsOf .contacting rows)
  terms : ∀ scope ∈ profileConsentScopes, scope ≠ .resumeProcessing →
    (scope = .contacting ∨ ∀ dep ∈ scopeDependencyChain scope, Stands rows dep) →
    Stands rows scope → ¬ TermEnded now rows scope

end Agreement

variable {calendar : Calendar} {now talentRecordId : Nat} {rows read : List ConsentEvent}
  {scope : ConsentScope} {p q : ConsentEvent → Bool}

/-! ## The answers in closed form -/

theorem latestGrant_eq :
    findLatestForAction (ofScope scope rows) .granted = findLatestGrantForScope rows scope := by
  rw [findLatestForAction, findLatestGrantForScope, ofScope, grantsOf, filter_filter]
  congr 1
  refine filter_congr fun e _ => ?_
  rw [Bool.and_comm]

theorem anyLatest_mem {p : ConsentEvent → Bool} (h : anyLatest p rows = true) :
    ∃ e ∈ latestPerSource rows, p e = true :=
  any_eq_true.mp h

theorem anyLatest_expired (h : anyLatest (·.action == .revoked) rows = false) :
    anyLatest (·.action == .expired) rows = anyLatest isDenial rows := by
  refine any_congr_mem fun e he => ?_
  have hnot : (e.action == .revoked) = false := by
    rw [Bool.eq_false_iff]
    intro hr
    have hany : anyLatest (·.action == .revoked) rows = true := any_eq_true.mpr ⟨e, he, hr⟩
    rw [h] at hany
    cases hany
  rw [isDenial, hnot, Bool.false_or]

theorem anyLatest_revoked_denial (h : anyLatest (·.action == .revoked) rows = true) :
    anyLatest isDenial rows = true := by
  obtain ⟨e, he, hr⟩ := anyLatest_mem h
  exact any_eq_true.mpr ⟨e, he, by simp [isDenial, eq_of_beq hr]⟩

/-- The status shown for a scope: a revoke, then a denial or an ended term, then a grant. -/
theorem shownStatus_eq :
    (deriveScopeStateForReadEndpoint now rows scope).status =
      if ofScope scope rows = [] then .noGrant
      else if anyLatest (·.action == .revoked) (ofScope scope rows) then .revoked
      else if anyLatest isDenial (ofScope scope rows) ||
          termEnded now (findLatestGrantForScope rows scope) then .expired
      else .granted := by
  unfold deriveScopeStateForReadEndpoint
  by_cases hnil : ofScope scope rows = []
  · simp [hnil]
  · have hempty : (ofScope scope rows).isEmpty = false := by simpa using hnil
    dsimp only
    rw [if_neg hnil, hempty, if_neg Bool.false_ne_true, latestGrant_eq]
    have hstatus : latestStatus (ofScope scope rows) =
        if anyLatest (·.action == .revoked) (ofScope scope rows) then .revoked
        else if anyLatest isDenial (ofScope scope rows) then .expired else .granted := by
      unfold latestStatus
      cases hr : anyLatest (·.action == .revoked) (ofScope scope rows) with
      | true =>
        have hr' : (latestPerSource (ofScope scope rows)).any (·.action == .revoked) = true := hr
        rw [hr', if_pos rfl, if_pos rfl]
      | false =>
        have hr' : (latestPerSource (ofScope scope rows)).any (·.action == .revoked) = false := hr
        have hx : (latestPerSource (ofScope scope rows)).any (·.action == .expired) =
            anyLatest isDenial (ofScope scope rows) := anyLatest_expired hr
        rw [hr', hx]
        cases hd : anyLatest isDenial (ofScope scope rows) with
        | true => rfl
        | false =>
          have hg : (latestPerSource (ofScope scope rows)).any (·.action == .granted) = true :=
            anyLatest_granted hnil hd
          rw [hg]
          rfl
    rw [hstatus]
    cases anyLatest (·.action == .revoked) (ofScope scope rows) <;>
      cases anyLatest isDenial (ofScope scope rows) <;>
        cases termEnded now (findLatestGrantForScope rows scope) <;> rfl

theorem contactingSummary_eq :
    contactingSummary now rows =
      if ofScope .contacting rows = [] then none
      else if anyLatest isDenial (ofScope .contacting rows) then some .doNotContact
      else if ((findLatestGrantForScope rows .contacting).bind (·.expiresAt)).any
          fun expiry => decide (expiry ≤ now + expiringHorizon) then some .expiringLt30d
      else some .contactable := by
  unfold contactingSummary
  by_cases hnil : ofScope .contacting rows = []
  · simp [hnil]
  · have hempty : (ofScope .contacting rows).isEmpty = false := by simpa using hnil
    dsimp only
    rw [if_neg hnil, hempty, if_neg Bool.false_ne_true, latestGrant_eq]
    cases hd : anyLatest isDenial (ofScope .contacting rows) with
    | false =>
      have hno : ∀ e ∈ latestPerSource (ofScope .contacting rows), isDenial e = false := by
        intro e he
        rw [Bool.eq_false_iff]
        intro hp
        have hany : anyLatest isDenial (ofScope .contacting rows) = true :=
          any_eq_true.mpr ⟨e, he, hp⟩
        rw [hd] at hany
        cases hany
      have hr : (latestPerSource (ofScope .contacting rows)).any
        (·.action == .revoked) = false := by
        rw [any_eq_false]
        intro e he
        simp [isGrant_of_not_denial (hno e he)]
      have hx : (latestPerSource (ofScope .contacting rows)).any
        (·.action == .expired) = false := by
        rw [any_eq_false]
        intro e he
        simp [isGrant_of_not_denial (hno e he)]
      have hg : (latestPerSource (ofScope .contacting rows)).any (·.action == .granted) = true :=
        anyLatest_granted hnil hd
      rw [hr, hx, hg]
      rfl
    | true =>
      cases hr : anyLatest (·.action == .revoked) (ofScope .contacting rows) with
      | true =>
        have hr' : (latestPerSource (ofScope .contacting rows)).any
          (·.action == .revoked) = true := hr
        rw [hr']
        rfl
      | false =>
        have hx : (latestPerSource (ofScope .contacting rows)).any (·.action == .expired) = true :=
          (anyLatest_expired hr).trans hd
        rw [hx, Bool.or_true, Bool.true_or]

theorem grantedAt_eq :
    (deriveScopeStateForReadEndpoint now rows scope).grantedAt =
      (findLatestGrantForScope rows scope).map (·.occurredAt) := by
  unfold deriveScopeStateForReadEndpoint
  dsimp only
  rw [← latestGrant_eq]
  split
  next hnil =>
    rw [List.isEmpty_iff.mp hnil]
    rfl
  · rfl

theorem revokedAt_eq :
    (deriveScopeStateForReadEndpoint now rows scope).revokedAt =
      (findLatestForAction (ofScope scope rows) .revoked).map (·.occurredAt) := by
  unfold deriveScopeStateForReadEndpoint
  dsimp only
  split
  next hnil =>
    rw [List.isEmpty_iff.mp hnil]
    rfl
  · rfl

theorem expiresAt_eq :
    (deriveScopeStateForReadEndpoint now rows scope).expiresAt =
      (findLatestGrantForScope rows scope).bind (·.expiresAt) := by
  unfold deriveScopeStateForReadEndpoint
  dsimp only
  rw [← latestGrant_eq]
  split
  next hnil =>
    rw [List.isEmpty_iff.mp hnil]
    rfl
  · rfl

theorem scope_eq : (deriveScopeStateForReadEndpoint now rows scope).scope = scope := by
  unfold deriveScopeStateForReadEndpoint
  dsimp only
  split <;> rfl

theorem termEnded_eq (g : Option ConsentEvent) :
    termEnded now g = (g.bind (·.expiresAt)).any fun expiresAt => decide (expiresAt ≤ now) := rfl

/-- The latest grant's term has ended, when the latest grants agree on it. -/
theorem termEnded_latest_iff (now : Nat)
    (hagree : ∀ a b, IsLatest (·.occurredAt) (grantsOf scope rows) a →
      IsLatest (·.occurredAt) (grantsOf scope rows) b → a.expiresAt = b.expiresAt) :
    termEnded now (findLatestGrantForScope rows scope) = true ↔ TermEnded now rows scope := by
  constructor
  · intro h
    cases hg : findLatestGrantForScope rows scope with
    | none =>
      rw [hg] at h
      cases h
    | some g =>
      rw [hg] at h
      exact ⟨g, isLatest_of_latest hg, h⟩
  · rintro ⟨g, hg, hended⟩
    have hne : grantsOf scope rows ≠ [] := ne_nil_of_mem hg.1
    obtain ⟨a, ha⟩ : ∃ a, findLatestGrantForScope rows scope = some a :=
      Option.isSome_iff_exists.mp (latest_isSome.mpr hne)
    rw [ha]
    have hsame : a.expiresAt = g.expiresAt := hagree a g (isLatest_of_latest ha) hg
    simpa [termEnded, hsame] using hended

/-! ## Unambiguous rows give one answer -/

theorem ofScope_perm (hp : read.Perm rows) : (ofScope scope read).Perm (ofScope scope rows) :=
  hp.filter _

theorem grantsOf_perm (hp : read.Perm rows) : (grantsOf scope read).Perm (grantsOf scope rows) :=
  hp.filter _

theorem ofScope_eq_nil (hp : read.Perm rows) : ofScope scope read = [] ↔
    ofScope scope rows = [] := by
  rw [← length_eq_zero_iff, (ofScope_perm hp).length_eq, length_eq_zero_iff]

theorem anyLatest_perm (h : ScopeSettled p rows) (hp : read.Perm rows) :
    anyLatest p read = anyLatest p rows :=
  any_latestPer_perm h hp

theorem scopeState_perm (h : ScopeSettled isDenial (ofScope scope rows)) (hp : read.Perm rows) :
    computeMostRestrictiveStateForScope read scope =
      computeMostRestrictiveStateForScope rows scope := by
  rw [scopeState_eq, scopeState_eq, anyLatest_perm h (ofScope_perm hp)]
  simp only [ofScope_eq_nil hp]

theorem latestGrant_time (hp : read.Perm rows) :
    (findLatestGrantForScope read scope).map (·.occurredAt) =
      (findLatestGrantForScope rows scope).map (·.occurredAt) :=
  latest_map_time (grantsOf_perm hp)

theorem stale_perm (hp : read.Perm rows) :
    ((findLatestGrantForScope read scope).any fun g => isStale calendar g.occurredAt now) =
      (findLatestGrantForScope rows scope).any fun g => isStale calendar g.occurredAt now := by
  have hmap : ∀ o : Option ConsentEvent, (o.any fun g => isStale calendar g.occurredAt now) =
      (o.map (·.occurredAt)).any fun time => isStale calendar time now := by
    intro o
    cases o <;> rfl
  rw [hmap, hmap, latestGrant_time hp]

variable {operation : ConsentCheckOperation}

section

variable (h : Unambiguous calendar now rows)

include h

theorem Unambiguous.denials_of_chain
    {dep : ConsentScope}
    (hdep : dep ∈ scopeDependencyChain operation.requiredScope) :
    ScopeSettled isDenial (ofScope dep rows) := by
  refine h.denials dep ?_ ?_ <;> rintro rfl <;> cases operation <;>
    simp [ConsentCheckOperation.requiredScope, scopeDependencyChain] at hdep

section

variable (hp : read.Perm rows)

include hp

theorem Unambiguous.sameFailed
    (operation : ConsentCheckOperation) :
    failedDependencies read operation.requiredScope =
      failedDependencies rows operation.requiredScope := by
  refine filter_congr fun dep hdep => ?_
  rw [scopeState_perm (h.denials_of_chain hdep) hp]

theorem Unambiguous.sameContacting
    (hdeps : ∀ dep ∈ scopeDependencyChain .contacting, Stands rows dep)
    (hstands : Stands rows .contacting) (channel : ContactChannel) :
    contactingDecision calendar now read channel =
      contactingDecision calendar now rows channel := by
  unfold contactingDecision
  rw [stale_perm hp]
  split
  · rfl
  next hfresh =>
    have hgrant : FreshGrant calendar now rows := by
      intro g hg
      rw [hg] at hfresh
      simpa using hfresh
    have hsettled := h.channels hdeps hstands hgrant channel
    rw [channelPermitted_eq, channelPermitted_eq, anyLatest_perm hsettled (grantsOf_perm hp)]

theorem Unambiguous.sameScopeDecision
    (channel : Option ContactChannel)
    (hdeps : ∀ dep ∈ scopeDependencyChain operation.requiredScope, Stands rows dep) :
    scopeDecision calendar now read operation.requiredScope channel =
      scopeDecision calendar now rows operation.requiredScope channel := by
  have hstate : computeMostRestrictiveStateForScope read operation.requiredScope =
      computeMostRestrictiveStateForScope rows operation.requiredScope := by
    refine scopeState_perm ?_ hp
    by_cases hcross : operation.requiredScope = .crossTenantVisibility
    · rw [hcross] at hdeps ⊢
      exact h.crossTenant.resolve_right fun hno => hno.2 hdeps
    · refine h.denials _ ?_ hcross
      cases operation <;> simp [ConsentCheckOperation.requiredScope]
  unfold scopeDecision
  rw [hstate]
  cases hallowed : computeMostRestrictiveStateForScope rows operation.requiredScope with
  | noGrant => rfl
  | denied => rfl
  | allowed =>
    have hstands := scopeState_allowed_iff.mp hallowed
    by_cases hscope : operation.requiredScope = .contacting
    · rw [hscope] at hdeps hstands ⊢
      cases channel with
      | none => rfl
      | some c => exact h.sameContacting hp hdeps hstands c
    · cases hq : operation.requiredScope <;> first | rfl | exact absurd hq hscope

theorem Unambiguous.sameCheck
    (operation : ConsentCheckOperation) (channel : Option ContactChannel) :
    resolveConsentState calendar now talentRecordId read operation channel =
      resolveConsentState calendar now talentRecordId rows operation channel := by
  have hempty : read.isEmpty = rows.isEmpty := by
    rw [Bool.eq_iff_iff, List.isEmpty_iff, List.isEmpty_iff, ← length_eq_zero_iff,
      hp.length_eq, length_eq_zero_iff]
  rw [resolveConsentState_eq, resolveConsentState_eq, h.sameFailed hp, hempty]
  split
  · rfl
  · split
    · rfl
    · split
      · rfl
      next hfailed =>
        refine h.sameScopeDecision hp channel (failedDependencies_isEmpty.mp ?_)
        simpa using hfailed

theorem Unambiguous.sameEnded
    (hscope : scope ∈ profileConsentScopes) :
    termEnded now (findLatestGrantForScope read scope) =
      termEnded now (findLatestGrantForScope rows scope) := by
  rw [termEnded_eq, termEnded_eq, findLatestGrantForScope, findLatestGrantForScope,
    latest_bind_perm (h.expiries scope hscope) (grantsOf_perm hp)]

end

theorem Unambiguous.settled_or_ended
    (hscope : scope ∈ profileConsentScopes) :
    ScopeSettled isDenial (ofScope scope rows) ∨
      termEnded now (findLatestGrantForScope rows scope) = true := by
  have hiff := termEnded_latest_iff now (h.expiries scope hscope)
  by_cases hresume : scope = .resumeProcessing
  · subst hresume
    exact h.resume.imp_right hiff.mpr
  · by_cases hcross : scope = .crossTenantVisibility
    · subst hcross
      exact h.crossTenant.imp_right fun hended => hiff.mpr hended.1
    · exact .inl (h.denials scope hresume hcross)

theorem Unambiguous.sameStatus (hp : read.Perm rows)
    (hscope : scope ∈ profileConsentScopes) :
    deriveScopeStateForReadEndpoint now read scope =
      deriveScopeStateForReadEndpoint now rows scope := by
  ext1
  · rw [scope_eq, scope_eq]
  · have hor : (anyLatest isDenial (ofScope scope read) ||
        termEnded now (findLatestGrantForScope read scope)) =
          (anyLatest isDenial (ofScope scope rows) ||
            termEnded now (findLatestGrantForScope rows scope)) := by
      rw [h.sameEnded hp hscope]
      rcases h.settled_or_ended hscope with hsettled | hended
      · rw [anyLatest_perm hsettled (ofScope_perm hp)]
      · rw [hended, Bool.or_true, Bool.or_true]
    rw [shownStatus_eq, shownStatus_eq, hor,
      anyLatest_perm (h.revocations scope hscope) (ofScope_perm hp)]
    simp only [ofScope_eq_nil hp]
  · rw [grantedAt_eq, grantedAt_eq, latestGrant_time hp]
  · rw [revokedAt_eq, revokedAt_eq, findLatestForAction, findLatestForAction,
      latest_map_time ((ofScope_perm hp).filter _)]
  · rw [expiresAt_eq, expiresAt_eq]
    exact latest_bind_perm (h.expiries scope hscope) (grantsOf_perm hp)

theorem Unambiguous.sameSummary (hp : read.Perm rows) :
    contactingSummary now read = contactingSummary now rows := by
  have hexpiry : (findLatestGrantForScope read .contacting).bind (·.expiresAt) =
      (findLatestGrantForScope rows .contacting).bind (·.expiresAt) :=
    latest_bind_perm (h.expiries .contacting (by decide)) (grantsOf_perm hp)
  rw [contactingSummary_eq, contactingSummary_eq, hexpiry,
    anyLatest_perm (h.denials .contacting (by decide) (by decide)) (ofScope_perm hp)]
  simp only [ofScope_eq_nil hp]

end

theorem shown_granted (hstands : Stands rows scope)
    (hterm : termEnded now (findLatestGrantForScope rows scope) = false) :
    (deriveScopeStateForReadEndpoint now rows scope).status = .granted := by
  have hrevoked : anyLatest (·.action == .revoked) (ofScope scope rows) = false := by
    rw [Bool.eq_false_iff]
    intro hr
    have hd := anyLatest_revoked_denial hr
    rw [hstands.no_denial] at hd
    cases hd
  rw [shownStatus_eq, if_neg hstands.some_row, hrevoked, hstands.no_denial, hterm]
  rfl

theorem chain_closed {dep dep' : ConsentScope} (h : dep ∈ scopeDependencyChain scope)
    (h' : dep' ∈ scopeDependencyChain dep) : dep' ∈ scopeDependencyChain scope := by
  cases scope <;> cases dep <;> cases dep' <;>
    first | decide | (revert h; decide) | (revert h'; decide)

/-- Every scope of an allowed operation stands, with its prerequisites, and the summary
asks for no prerequisites of contacting. -/
theorem Unambiguous.granted (h : Unambiguous calendar now rows)
    (hprofile : scope ∈ profileConsentScopes) (hresume : scope ≠ .resumeProcessing)
    (hdeps : scope = .contacting ∨ ∀ dep ∈ scopeDependencyChain scope, Stands rows dep)
    (hstands : Stands rows scope) :
    (deriveScopeStateForReadEndpoint now rows scope).status = .granted := by
  refine shown_granted hstands ?_
  rw [Bool.eq_false_iff]
  intro hended
  exact h.terms scope hprofile hresume hdeps hstands
    ((termEnded_latest_iff now (h.expiries scope hprofile)).mp hended)

theorem Unambiguous.agree (h : Unambiguous calendar now rows) :
    AnswersAgree calendar now talentRecordId rows where
  checkShown read shown hread hshown operation channel hallows scope hscope hprofile := by
    rw [h.sameCheck hread, resolveConsentState_allows_iff] at hallows
    obtain ⟨hchain, hstands, -⟩ := hallows
    rw [h.sameStatus hshown hprofile]
    rcases mem_append.mp hscope with hdep | hown
    · refine h.granted hprofile ?_ (.inr fun dep' hdep' => hchain dep' (chain_closed hdep hdep'))
        (hchain scope hdep)
      rintro rfl
      cases operation <;> simp [ConsentCheckOperation.requiredScope, scopeDependencyChain] at hdep
    · rw [mem_singleton.mp hown] at hprofile ⊢
      refine h.granted hprofile ?_ (.inr hchain) hstands
      cases operation <;> simp [ConsentCheckOperation.requiredScope]
  summaryShown read shown hread hshown hsummary := by
    rw [h.sameSummary hread, contactingSummary_eq] at hsummary
    rw [h.sameStatus hshown (by decide)]
    refine h.granted (by decide) (by decide) (.inl rfl) ?_
    constructor
    · intro hnil
      rw [if_pos hnil] at hsummary
      rcases hsummary with hs | hs <;> cases hs
    · rw [Bool.eq_false_iff]
      intro hd
      rw [hd, if_pos rfl] at hsummary
      split at hsummary <;> rcases hsummary with hs | hs <;> cases hs
  sameCheck read hread operation channel := h.sameCheck hread operation channel
  sameState read hread :=
    map_congr_left fun _ hscope => h.sameStatus hread hscope
  sameSummary read hread := h.sameSummary hread

/-! ## Answers that agree come from unambiguous rows -/

theorem scopeSettled_of_perm
    (h : ∀ read : List ConsentEvent, read.Perm rows →
      anyLatest p (read.filter q) = anyLatest p (rows.filter q)) :
    ScopeSettled p (rows.filter q) := by
  have hfirst := h _ (front_perm p rows)
  have hlast := h _ (front_perm (fun e => !p e) rows)
  rw [filter_front] at hfirst hlast
  exact settled_of_front hfirst hlast

theorem AnswersAgree.sameStatus (h : AnswersAgree calendar now talentRecordId rows)
    (hp : read.Perm rows) (hscope : scope ∈ profileConsentScopes) :
    deriveScopeStateForReadEndpoint now read scope =
      deriveScopeStateForReadEndpoint now rows scope :=
  map_inj_left.mp (h.sameState read hp) scope hscope

theorem shown_expiry {a : ConsentEvent} (ha : IsLatest (·.occurredAt) (grantsOf scope rows) a) :
    (deriveScopeStateForReadEndpoint now
      (front (fun e => e.expiresAt == a.expiresAt) rows) scope).expiresAt = a.expiresAt := by
  rw [expiresAt_eq, findLatestGrantForScope, grantsOf, filter_front]
  have hne : front (fun e => e.expiresAt == a.expiresAt) (grantsOf scope rows) ≠ [] := by
    intro hnil
    have hmem := (front_perm (fun e => e.expiresAt == a.expiresAt)
      (grantsOf scope rows)).mem_iff.mpr ha.1
    rw [hnil] at hmem
    cases hmem
  obtain ⟨b, hb⟩ : ∃ b, latest (·.occurredAt)
      (front (fun e => e.expiresAt == a.expiresAt) (grantsOf scope rows)) = some b :=
    Option.isSome_iff_exists.mp (latest_isSome.mpr hne)
  have hsame := latest_front ha (q := fun e => e.expiresAt == a.expiresAt) (by simp) hb
  have hshow : latest (·.occurredAt) (front (fun e => e.expiresAt == a.expiresAt)
      (rows.filter fun e => e.scope == scope && e.action == .granted)) = some b := hb
  rw [hshow]
  exact eq_of_beq hsame

theorem AnswersAgree.expiries (h : AnswersAgree calendar now talentRecordId rows)
    (hscope : scope ∈ profileConsentScopes) {a b : ConsentEvent}
    (ha : IsLatest (·.occurredAt) (grantsOf scope rows) a)
    (hb : IsLatest (·.occurredAt) (grantsOf scope rows) b) : a.expiresAt = b.expiresAt := by
  have hsa := congrArg ScopeStateDto.expiresAt
    (h.sameStatus (front_perm (fun e => e.expiresAt == a.expiresAt) rows) hscope)
  have hsb := congrArg ScopeStateDto.expiresAt
    (h.sameStatus (front_perm (fun e => e.expiresAt == b.expiresAt) rows) hscope)
  rw [shown_expiry ha] at hsa
  rw [shown_expiry hb] at hsb
  exact hsa.trans hsb.symm

theorem shown_revoked_iff (now : Nat) :
    (deriveScopeStateForReadEndpoint now rows scope).status = .revoked ↔
      anyLatest (·.action == .revoked) (ofScope scope rows) = true := by
  rw [shownStatus_eq]
  by_cases hnil : ofScope scope rows = []
  · rw [if_pos hnil, hnil]
    constructor <;> intro h <;> cases h
  · rw [if_neg hnil]
    cases anyLatest (·.action == .revoked) (ofScope scope rows) with
    | true => simp
    | false =>
      rw [if_neg Bool.false_ne_true]
      split <;> simp

theorem AnswersAgree.sameRevoked (h : AnswersAgree calendar now talentRecordId rows)
    (hscope : scope ∈ profileConsentScopes) (hp : read.Perm rows) :
    anyLatest (·.action == .revoked) (ofScope scope read) =
      anyLatest (·.action == .revoked) (ofScope scope rows) := by
  rw [Bool.eq_iff_iff, ← shown_revoked_iff now, ← shown_revoked_iff now,
    h.sameStatus hp hscope]

/-- A scope that stands in one order and not in another has a contradiction among its
latest rows. -/
theorem anyDenial_of_stands (hp : read.Perm rows) (h : Stands read scope ↔ Stands rows scope) :
    anyLatest isDenial (ofScope scope read) = anyLatest isDenial (ofScope scope rows) := by
  by_cases hnil : ofScope scope rows = []
  · rw [(ofScope_eq_nil hp).mpr hnil, hnil]
  · have hread : ofScope scope read ≠ [] := fun h => hnil ((ofScope_eq_nil hp).mp h)
    have hone : Stands read scope ↔ anyLatest isDenial (ofScope scope read) = false :=
      ⟨fun hs => hs.no_denial, fun hd => ⟨hread, hd⟩⟩
    have htwo : Stands rows scope ↔ anyLatest isDenial (ofScope scope rows) = false :=
      ⟨fun hs => hs.no_denial, fun hd => ⟨hnil, hd⟩⟩
    rw [hone, htwo] at h
    cases hr : anyLatest isDenial (ofScope scope read) <;>
      cases hs : anyLatest isDenial (ofScope scope rows) <;> simp [hr, hs] at h ⊢

/-- The dependencies that a refusal names. -/
def CheckOutcome.unmetScopes : CheckOutcome → List ConsentScope
  | .unmetDependency decision => decision.deniedScopes
  | _ => []

theorem unmetScopes_eq
    (hscope : operation.requiredScope ≠ .contacting) (hne : rows ≠ []) :
    (resolveConsentState calendar now talentRecordId rows operation none).unmetScopes =
      failedDependencies rows operation.requiredScope := by
  have hno : (operation.requiredScope == .contacting && (none : Option ContactChannel).isNone) =
      false := by
    simp [hscope]
  have hempty : rows.isEmpty = false := by simpa using hne
  rw [resolveConsentState_eq, hno, hempty, if_neg Bool.false_ne_true, if_neg Bool.false_ne_true]
  cases hfailed : failedDependencies rows operation.requiredScope with
  | cons dep rest => simp [CheckOutcome.unmetScopes]
  | nil =>
    have hdecision : (scopeDecision calendar now rows operation.requiredScope none).unmetScopes =
        [] := by
      unfold scopeDecision
      cases computeMostRestrictiveStateForScope rows operation.requiredScope with
      | noGrant => rfl
      | denied => rfl
      | allowed => cases operation.requiredScope <;> rfl
    simpa using hdecision

/-- The check for `cross_tenant` names each prerequisite that does not stand. -/
theorem AnswersAgree.stands_dep (h : AnswersAgree calendar now talentRecordId rows)
    (hp : read.Perm rows) (hscope : scope ∈ scopeDependencyChain .crossTenantVisibility) :
    Stands read scope ↔ Stands rows scope := by
  by_cases hnil : rows = []
  · subst hnil
    rw [hp.eq_nil]
  · have hread : read ≠ [] := by
      intro hr
      subst hr
      exact hnil hp.nil_eq.symm
    have hfailed := congrArg CheckOutcome.unmetScopes (h.sameCheck read hp .crossTenant none)
    rw [unmetScopes_eq (by decide) hread, unmetScopes_eq (by decide) hnil] at hfailed
    have hmem : ∀ l : List ConsentEvent,
        scope ∉ failedDependencies l ConsentCheckOperation.crossTenant.requiredScope ↔
          Stands l scope := by
      intro l
      rw [failedDependencies, mem_filter, not_and, ← scopeState_allowed_iff]
      simp only [bne_iff_ne, ne_eq, not_not]
      exact ⟨fun hl => hl hscope, fun hl _ => hl⟩
    rw [← hmem, ← hmem, hfailed]

theorem allows_plain_iff (calendar : Calendar) (now talentRecordId : Nat)
    (hscope : operation.requiredScope ≠ .contacting) :
    (resolveConsentState calendar now talentRecordId rows operation none).allows = true ↔
      (∀ dep ∈ scopeDependencyChain operation.requiredScope, Stands rows dep) ∧
        Stands rows operation.requiredScope := by
  rw [resolveConsentState_allows_iff]
  exact ⟨fun h => ⟨h.1, h.2.1⟩, fun h => ⟨h.1, h.2, fun hc => absurd hc hscope⟩⟩

section

variable (h : AnswersAgree calendar now talentRecordId rows)

include h

theorem AnswersAgree.stands_plain
    (hp : read.Perm rows) (operation : ConsentCheckOperation)
    (hscope : operation.requiredScope ≠ .contacting)
    (hread : ∀ dep ∈ scopeDependencyChain operation.requiredScope, Stands read dep)
    (hrows : ∀ dep ∈ scopeDependencyChain operation.requiredScope, Stands rows dep) :
    Stands read operation.requiredScope ↔ Stands rows operation.requiredScope := by
  have hsame := h.sameCheck read hp operation none
  constructor
  · intro hs
    have hallows := (allows_plain_iff calendar now talentRecordId hscope).mpr ⟨hread, hs⟩
    rw [hsame] at hallows
    exact ((allows_plain_iff calendar now talentRecordId hscope).mp hallows).2
  · intro hs
    have hallows := (allows_plain_iff calendar now talentRecordId hscope).mpr ⟨hrows, hs⟩
    rw [← hsame] at hallows
    exact ((allows_plain_iff calendar now talentRecordId hscope).mp hallows).2

theorem AnswersAgree.denials
    (hresume : scope ≠ .resumeProcessing) (hcross : scope ≠ .crossTenantVisibility) :
    ScopeSettled isDenial (ofScope scope rows) := by
  refine scopeSettled_of_perm fun read hp => anyDenial_of_stands hp ?_
  cases scope with
  | profileStorage | matching | contacting => exact h.stands_dep hp (by decide)
  | recording =>
    exact h.stands_plain hp .recording (by decide)
      (fun _ hd => by cases hd) (fun _ hd => by cases hd)
  | transcription =>
    exact h.stands_plain hp .transcription (by decide)
      (fun _ hd => by cases hd) (fun _ hd => by cases hd)
  | aiProcessing =>
    exact h.stands_plain hp .aiProcessing (by decide)
      (fun _ hd => by cases hd) (fun _ hd => by cases hd)
  | resumeProcessing => exact absurd rfl hresume
  | crossTenantVisibility => exact absurd rfl hcross

theorem AnswersAgree.denials_of_shown
    (hscope : scope ∈ profileConsentScopes) (hterm : ¬ TermEnded now rows scope) :
    ScopeSettled isDenial (ofScope scope rows) := by
  have hagree : ∀ a b, IsLatest (·.occurredAt) (grantsOf scope rows) a →
      IsLatest (·.occurredAt) (grantsOf scope rows) b → a.expiresAt = b.expiresAt :=
    fun a b ha hb => h.expiries hscope ha hb
  have hended : termEnded now (findLatestGrantForScope rows scope) = false := by
    rw [Bool.eq_false_iff]
    exact fun he => hterm ((termEnded_latest_iff now hagree).mp he)
  refine scopeSettled_of_perm fun read hp => ?_
  have hended' : termEnded now (findLatestGrantForScope read scope) = false := by
    rw [termEnded_eq, findLatestGrantForScope, latest_bind_perm hagree (grantsOf_perm hp)]
    exact hended
  have hrevoked := h.sameRevoked hscope hp
  have hstatus := congrArg ScopeStateDto.status (h.sameStatus hp hscope)
  rw [shownStatus_eq, shownStatus_eq, hended, hended', hrevoked] at hstatus
  show anyLatest isDenial (ofScope scope read) = anyLatest isDenial (ofScope scope rows)
  by_cases hnil : ofScope scope rows = []
  · rw [(ofScope_eq_nil hp).mpr hnil, hnil]
  · have hread : ofScope scope read ≠ [] := fun h => hnil ((ofScope_eq_nil hp).mp h)
    rw [if_neg hnil, if_neg hread] at hstatus
    cases hr : anyLatest (·.action == .revoked) (ofScope scope rows) with
    | true =>
      rw [hr] at hrevoked
      rw [anyLatest_revoked_denial hr, anyLatest_revoked_denial hrevoked]
    | false =>
      rw [hr, if_neg Bool.false_ne_true, if_neg Bool.false_ne_true] at hstatus
      cases hd : anyLatest isDenial (ofScope scope read) <;>
        cases hd' : anyLatest isDenial (ofScope scope rows) <;> simp [hd, hd'] at hstatus ⊢

end

theorem freshGrant_perm (hp : read.Perm rows) (h : FreshGrant calendar now rows) :
    FreshGrant calendar now read := by
  intro g hg
  have htime : (findLatestGrantForScope read .contacting).map (·.occurredAt) =
      (findLatestGrantForScope rows .contacting).map (·.occurredAt) := latestGrant_time hp
  rw [hg] at htime
  cases hrows : findLatestGrantForScope rows .contacting with
  | none =>
    rw [hrows] at htime
    cases htime
  | some a =>
    rw [hrows] at htime
    have heq : g.occurredAt = a.occurredAt := Option.some.inj htime
    rw [heq]
    exact h a hrows

theorem AnswersAgree.channels (h : AnswersAgree calendar now talentRecordId rows)
    (hdeps : ∀ dep ∈ scopeDependencyChain .contacting, Stands rows dep)
    (hstands : Stands rows .contacting) (hfresh : FreshGrant calendar now rows)
    (channel : ContactChannel) :
    ScopeSettled (fun e => !admits channel e) (grantsOf .contacting rows) := by
  refine scopeSettled_of_perm fun read hp => ?_
  show anyLatest _ (grantsOf .contacting read) = anyLatest _ (grantsOf .contacting rows)
  have hread : ∀ dep ∈ scopeDependencyChain .contacting, Stands read dep := by
    intro dep hdep
    refine (h.stands_dep hp ?_).mpr (hdeps dep hdep)
    revert hdep
    cases dep <;> decide
  have hstands' : Stands read .contacting := (h.stands_dep hp (by decide)).mpr hstands
  have hiff : ∀ l, (∀ dep ∈ scopeDependencyChain .contacting, Stands l dep) → Stands l .contacting →
      FreshGrant calendar now l →
        ((resolveConsentState calendar now talentRecordId l .selection
          (some channel)).allows = true ↔
          AdmitsChannel l channel) := by
    intro l hl hs hf
    rw [resolveConsentState_allows_iff]
    constructor
    · rintro ⟨-, -, hterms⟩
      obtain ⟨-, c, hc, hadmits⟩ := hterms rfl
      rw [Option.some.inj hc]
      exact hadmits
    · exact fun hadmits => ⟨hl, hs, fun _ => ⟨hf, channel, rfl, hadmits⟩⟩
  have hone := hiff read hread hstands' (freshGrant_perm hp hfresh)
  have htwo := hiff rows hdeps hstands hfresh
  rw [h.sameCheck read hp] at hone
  have hadmits := hone.symm.trans htwo
  unfold AdmitsChannel at hadmits
  cases hr : anyLatest (fun e => !admits channel e) (grantsOf .contacting read) <;>
    cases hs : anyLatest (fun e => !admits channel e) (grantsOf .contacting rows) <;>
      simp [hr, hs] at hadmits ⊢

theorem not_ended_of_granted
    (hagree : ∀ a b, IsLatest (·.occurredAt) (grantsOf scope rows) a →
      IsLatest (·.occurredAt) (grantsOf scope rows) b → a.expiresAt = b.expiresAt)
    (h : (deriveScopeStateForReadEndpoint now rows scope).status = .granted) :
    ¬ TermEnded now rows scope := by
  intro hended
  rw [shownStatus_eq, (termEnded_latest_iff now hagree).mpr hended, Bool.or_true] at h
  split at h
  · cases h
  · split at h <;> cases h

theorem AnswersAgree.terms (h : AnswersAgree calendar now talentRecordId rows)
    (hprofile : scope ∈ profileConsentScopes) (hresume : scope ≠ .resumeProcessing)
    (hdeps : scope = .contacting ∨ ∀ dep ∈ scopeDependencyChain scope, Stands rows dep)
    (hstands : Stands rows scope) : ¬ TermEnded now rows scope := by
  refine not_ended_of_granted (fun a b ha hb => h.expiries hprofile ha hb) ?_
  have hplain : ∀ operation : ConsentCheckOperation, operation.requiredScope = scope →
      scope ≠ .contacting →
        (deriveScopeStateForReadEndpoint now rows scope).status = .granted := by
    rintro operation rfl hne
    refine h.checkShown rows rows (.refl rows) (.refl rows) operation none
      ((allows_plain_iff calendar now talentRecordId hne).mpr ⟨hdeps.resolve_left hne,
        hstands⟩) _ ?_ hprofile
    exact mem_append_right _ (mem_singleton_self _)
  cases scope with
  | profileStorage => exact hplain .ingestion rfl (by decide)
  | matching => exact hplain .matching rfl (by decide)
  | crossTenantVisibility => exact hplain .crossTenant rfl (by decide)
  | contacting =>
    refine h.summaryShown rows rows (.refl rows) (.refl rows) ?_
    rw [contactingSummary_eq, if_neg hstands.some_row, hstands.no_denial,
      if_neg Bool.false_ne_true]
    split
    · exact .inr rfl
    · exact .inl rfl
  | resumeProcessing => exact absurd rfl hresume
  | recording | transcription | aiProcessing => exact absurd hprofile (by decide)

theorem AnswersAgree.unambiguous (h : AnswersAgree calendar now talentRecordId rows) :
    Unambiguous calendar now rows where
  expiries _ hscope _ _ ha hb := h.expiries hscope ha hb
  revocations _ hscope := scopeSettled_of_perm fun _ hp => h.sameRevoked hscope hp
  denials _ hresume hcross := h.denials hresume hcross
  resume := by
    by_cases hterm : TermEnded now rows .resumeProcessing
    · exact .inr hterm
    · exact .inl (h.denials_of_shown (by decide) hterm)
  crossTenant := by
    by_cases hdeps : ∀ dep ∈ scopeDependencyChain .crossTenantVisibility, Stands rows dep
    · refine .inl (scopeSettled_of_perm fun read hp => anyDenial_of_stands hp ?_)
      exact h.stands_plain hp .crossTenant (by decide)
        (fun dep hdep => (h.stands_dep hp hdep).mpr (hdeps dep hdep)) hdeps
    · by_cases hterm : TermEnded now rows .crossTenantVisibility
      · exact .inr ⟨hterm, hdeps⟩
      · exact .inl (h.denials_of_shown (by decide) hterm)
  channels := h.channels
  terms _ hprofile hresume hdeps hstands := h.terms hprofile hresume hdeps hstands

/-- **The three consent answers agree** exactly when the rows are unambiguous. -/
theorem consent_answers_agree_iff :
    AnswersAgree calendar now talentRecordId rows ↔ Unambiguous calendar now rows :=
  ⟨fun h => h.unambiguous, fun h => h.agree⟩

/-! ## An ended term -/

def portalGrant (id : Nat) (scope : ConsentScope) (occurredAt : Nat) (expiresAt : Option Nat) :
    ConsentEvent where
  id := id
  tenantId := 1
  talentRecordId := 9
  scope := scope
  action := .granted
  capturedByActorId := none
  capturedMethod := .portalSelfService
  consentVersion := "portal-v1"
  occurredAt := occurredAt
  expiresAt := expiresAt
  metadata := .none
  createdAt := occurredAt

/-- Contacting was granted for a day, in January 2026. -/
def dayGrant : List ConsentEvent :=
  [portalGrant 0 .profileStorage 1768435200000 none, portalGrant 1 .matching 1768435200001 none,
    portalGrant 2 .contacting 1768435200002 (some 1768521600000)]

/-- The day after, the check still allows what the state read shows as expired. -/
theorem ended_term_still_allowed : ¬ AnswersAgree commonYear 1768608000000 9 dayGrant := by
  intro h
  have hshown := h.checkShown dayGrant dayGrant (.refl _) (.refl _) .selection (some .email)
    (by decide +kernel) .contacting (by decide) (by decide)
  exact absurd hshown (by decide +kernel)

end AramoPlatform.Consent
