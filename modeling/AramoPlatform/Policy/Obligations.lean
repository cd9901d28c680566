import AramoPlatform.Policy.Evaluate

/-!
# What a composition keeps of its components

A composition keeps every effect, every capability of an override and the
strongest verdict, whatever the order of the components. It need not keep an
audit: the flag is computed again from the winning verdict, so that the audit
of an `ALLOW_WITH_AUDIT` component without a `WRITE_AUDIT` effect is gone when
a stronger component joins it.
-/

namespace AramoPlatform.Policy

open Js Lib List

/-! ## Compositions -/

/-- A composition of `l` to `d` loses no obligation. -/
structure KeepsObligations (l : List PolicyDecision) (d : PolicyDecision) : Prop where
  verdict : (∃ x ∈ l, x.decision = d.decision) ∧
    ∀ x ∈ l, x.decision.precedence ≤ d.decision.precedence
  append : ∀ l₁ l₂, l₁ ≠ [] → l₂ ≠ [] → l = l₁ ++ l₂ →
    ∃ d₁ d₂ d', composePolicyDecisions l₁ = .ok d₁ ∧ composePolicyDecisions l₂ = .ok d₂ ∧
      composePolicyDecisions [d₁, d₂] = .ok d' ∧ SameOutcome d d' ∧ d.reasonCode = d'.reasonCode
  order : ∀ l', (∀ x, x ∈ l' ↔ x ∈ l) →
    ∃ d', composePolicyDecisions l' = .ok d' ∧ SameOutcome d d'
  effects : ∀ x ∈ l, ∀ e ∈ x.effects, ∃ e' ∈ d.effects, e.Same e'
  capabilities : d.decision = .requiresOverride → ∀ x ∈ l, x.decision = .requiresOverride →
    ∀ c ∈ x.requiredCapabilities, c ∈ d.requiredCapabilities
  audit : (∃ x ∈ l, x.auditRequired = true) →
    d.auditRequired = true ∧ (composeWithAuthorization .deny d).auditRequired = true

/-- An audit that a verdict asks for is asked for by an effect as well. -/
def AuditsWritten (l : List PolicyDecision) : Prop :=
  (∃ x ∈ l, x.decision = .allowWithAudit) → ∃ x ∈ l, hasEffect x.effects .writeAudit = true

namespace ComposedOf

variable {l : List PolicyDecision} {d : PolicyDecision}

section

variable (h : ComposedOf l d)

include h

theorem hasEffect_iff (kind : EffectKind) :
    hasEffect d.effects kind = true ↔ ∃ x ∈ l, hasEffect x.effects kind = true := by
  simp only [hasEffect, any_eq_true, beq_iff_eq]
  constructor
  · rintro ⟨e, he, hkind⟩
    obtain ⟨x, hx, hex⟩ := mem_flatMap.mp (h.effects_subset he)
    exact ⟨x, hx, e, hex, hkind⟩
  · rintro ⟨x, hx, e, he, hkind⟩
    obtain ⟨e', he', hid⟩ := h.effect_by_id (mem_flatMap.mpr ⟨x, hx, he⟩)
    exact ⟨e', he', (effectId_eq_iff.mp hid).1.trans hkind⟩

theorem denied_audit_iff :
    (composeWithAuthorization .deny d).auditRequired = true ↔
      ∃ x ∈ l, hasEffect x.effects .writeAudit = true :=
  h.hasEffect_iff .writeAudit

/-- **Audits survive** exactly when effects ask for them. -/
theorem audit_kept_iff (hfin : ∀ x ∈ l, Finalized x) :
    ((∃ x ∈ l, x.auditRequired = true) →
      d.auditRequired = true ∧ (composeWithAuthorization .deny d).auditRequired = true) ↔
      AuditsWritten l := by
  constructor
  · rintro hkept ⟨x, hx, hdec⟩
    have haudit : x.auditRequired = true := by rw [(hfin x hx).audit, hdec]; rfl
    exact h.denied_audit_iff.mp (hkept ⟨x, hx, haudit⟩).2
  · rintro hwritten ⟨x, hx, haudit⟩
    have heffect : ∃ x ∈ l, hasEffect x.effects .writeAudit = true := by
      rw [(hfin x hx).audit, Bool.or_eq_true, beq_iff_eq] at haudit
      rcases haudit with hdec | heff
      · exact hwritten ⟨x, hx, hdec⟩
      · exact ⟨x, hx, heff⟩
    refine ⟨?_, h.denied_audit_iff.mpr heffect⟩
    rw [h.finalized.audit, (h.hasEffect_iff .writeAudit).mpr heffect, Bool.or_true]

theorem keepsObligations (hfin : ∀ x ∈ l, Finalized x)
    (haudits : AuditsWritten l) (htold : ToldApart (l.flatMap (·.effects))) :
    KeepsObligations l d where
  verdict := h.verdict_max
  append := by
    rintro l₁ l₂ hne₁ hne₂ rfl
    obtain ⟨d₁, hd₁, h₁⟩ := composePolicyDecisions_composed hne₁
    obtain ⟨d₂, hd₂, h₂⟩ := composePolicyDecisions_composed hne₂
    obtain ⟨d', hd', h'⟩ := composePolicyDecisions_composed (cons_ne_nil d₁ [d₂])
    exact ⟨d₁, d₂, d', hd₁, hd₂, hd', h₁.append h₂ h h' htold⟩
  order := by
    intro l' hmem
    have hne : l' ≠ [] := by
      obtain ⟨⟨x, hx, -⟩, -⟩ := h.verdict_max
      exact ne_nil_of_mem ((hmem x).mpr hx)
    obtain ⟨d', hd', h'⟩ := composePolicyDecisions_composed hne
    exact ⟨d', hd', h.sameOutcome_of_members h' hmem htold⟩
  effects := h.effects_kept_iff.mpr htold
  capabilities := fun hover x hx hxover c hc =>
    (h.capabilities c).mpr ⟨hover, x, hx, hxover, hc⟩
  audit := (h.audit_kept_iff hfin).mpr haudits

end

end ComposedOf

theorem keepsObligations_iff {l : List PolicyDecision} (hne : l ≠ [])
    (hfin : ∀ x ∈ l, Finalized x) :
    (∃ d, composePolicyDecisions l = .ok d ∧ KeepsObligations l d) ↔
      AuditsWritten l ∧ ToldApart (l.flatMap (·.effects)) := by
  constructor
  · rintro ⟨d, hd, hkeeps⟩
    have h := composedOf_of_ok hd
    exact ⟨(h.audit_kept_iff hfin).mp hkeeps.audit, h.effects_kept_iff.mp hkeeps.effects⟩
  · rintro ⟨haudits, htold⟩
    obtain ⟨d, hd, h⟩ := composePolicyDecisions_composed hne
    exact ⟨d, hd, h.keepsObligations hfin haudits htold⟩

/-! ## The order of a package's rules -/

section Rules

variable {V : Type} {lang : UnknownValues V} {pkg : PolicyPackage V} {context : PolicyContext V}

/-- Refused alike, or with the same outcome. -/
def SameResult : Except PolicyEngineError PolicyDecision →
    Except PolicyEngineError PolicyDecision → Prop
  | .ok d, .ok d' => SameOutcome d d'
  | .error e, .error e' => e = e'
  | _, _ => False

/-- Every order of the rules gives the same result. -/
def OrderFree (lang : UnknownValues V) (pkg : PolicyPackage V) (context : PolicyContext V) : Prop :=
  ∀ rules, rules.Perm pkg.rules →
    SameResult (evaluate lang pkg context) (evaluate lang { pkg with rules := rules } context)

/-- The first effects of the matching rules that are alike are the same, within
a rule and between two. -/
def RulesTold (lang : UnknownValues V) (pkg : PolicyPackage V) (context : PolicyContext V) : Prop :=
  ∀ r ∈ matchingRules lang pkg context, ∀ r' ∈ matchingRules lang pkg context,
    ∀ e e', FirstAlike (r.effects.getD []) e → FirstAlike (r'.effects.getD []) e' →
      e.Alike e' → e.Same e'

theorem evaluate_eq (lang : UnknownValues V) (pkg : PolicyPackage V) (context : PolicyContext V) :
    evaluate lang pkg context =
      if pkg.resources.contains context.resource = true then
        if pkg.actions.contains context.action = true then
          composePolicyDecisions (decisionsFor lang pkg context)
        else .error (unregisteredAction pkg context.action)
      else .error (unregisteredResource pkg context.resource) := by
  rw [evaluate]
  by_cases hres : pkg.resources.contains context.resource = true
  · by_cases hact : pkg.actions.contains context.action = true
    · rw [if_pos hres, if_pos hact, require_of_true hres, ok_bind, require_of_true hact, ok_bind]
    · rw [if_pos hres, if_neg hact, require_of_true hres, ok_bind,
        require_of_false (Bool.not_eq_true _ ▸ hact)]
      rfl
  · rw [if_neg hres, require_of_false (Bool.not_eq_true _ ▸ hres)]
    rfl

theorem decisionsFor_ne_nil (lang : UnknownValues V) (pkg : PolicyPackage V)
    (context : PolicyContext V) : decisionsFor lang pkg context ≠ [] := by
  rw [decisionsFor]
  split
  · exact cons_ne_nil _ _
  next hne => exact hne

theorem decisionsFor_of_match {r : Rule V} (h : r ∈ matchingRules lang pkg context) :
    decisionsFor lang pkg context = (matchingRules lang pkg context).map (ruleToDecision pkg) := by
  rw [decisionsFor, if_neg (ne_nil_of_mem (mem_map_of_mem h))]

theorem matchingRules_perm {rules : List (Rule V)} (h : rules.Perm pkg.rules) :
    (matchingRules lang { pkg with rules := rules } context).Perm
      (matchingRules lang pkg context) :=
  h.filter _

theorem decisionsFor_perm {rules : List (Rule V)} (h : rules.Perm pkg.rules) :
    (decisionsFor lang { pkg with rules := rules } context).Perm
      (decisionsFor lang pkg context) := by
  have hmatched : ((matchingRules lang { pkg with rules := rules } context).map
      (ruleToDecision pkg)).Perm ((matchingRules lang pkg context).map (ruleToDecision pkg)) :=
    (matchingRules_perm h).map _
  rw [decisionsFor, decisionsFor]
  by_cases hnil : (matchingRules lang pkg context).map (ruleToDecision pkg) = []
  · rw [if_pos hnil, if_pos (hnil ▸ hmatched).eq_nil]
    exact List.Perm.refl _
  · rw [if_neg hnil, if_neg fun hnil' => hnil (hnil' ▸ hmatched).nil_eq.symm]
    exact hmatched

theorem ownEffect_of_mem {d : PolicyDecision} {r : Rule V}
    (hr : r ∈ matchingRules lang pkg context) (h : ComposedOf (decisionsFor lang pkg context) d)
    {e : Effect} (he : e ∈ d.effects) :
    ∃ r' ∈ matchingRules lang pkg context, FirstAlike (r'.effects.getD []) e := by
  rw [h.effects, decisionsFor_of_match hr] at he
  obtain ⟨x, hx, hex⟩ := mem_firstBy_flatMap he
  obtain ⟨r', hr', rfl⟩ := mem_map.mp hx
  exact ⟨r', hr', firstAlike_iff.mpr hex⟩

theorem sameOutcome_of_rulesTold {rules : List (Rule V)} {d d' : PolicyDecision}
    (htold : RulesTold lang pkg context) (hperm : rules.Perm pkg.rules)
    (h : ComposedOf (decisionsFor lang pkg context) d)
    (h' : ComposedOf (decisionsFor lang { pkg with rules := rules } context) d') :
    SameOutcome d d' := by
  have hmem : ∀ x, x ∈ decisionsFor lang { pkg with rules := rules } context ↔
      x ∈ decisionsFor lang pkg context := fun x => (decisionsFor_perm hperm).mem_iff
  have hdec := h.decision_congr h' hmem
  have hall : ∀ e, e ∈ (decisionsFor lang { pkg with rules := rules } context).flatMap (·.effects) ↔
      e ∈ (decisionsFor lang pkg context).flatMap (·.effects) := by
    intro e
    simp only [mem_flatMap, hmem]
  refine sameOutcome_of_finalized h.finalized h'.finalized hdec ?_ ?_ ?_
  · cases hmatch : matchingRules lang pkg context with
    | nil =>
      -- the default disposition alone decides, under every order
      have hnil : matchingRules lang { pkg with rules := rules } context = [] := by
        have hrules : (matchingRules lang { pkg with rules := rules } context).Perm [] :=
          hmatch ▸ matchingRules_perm hperm
        exact hrules.eq_nil
      have heq : d'.effects = d.effects := by
        rw [h.effects, h'.effects, decisionsFor, decisionsFor, hmatch, hnil]
        rfl
      rw [heq]
      exact ⟨fun e he => ⟨e, he, .refl e⟩, fun e he => ⟨e, he, .refl e⟩⟩
    | cons r rest =>
      have hr : r ∈ matchingRules lang pkg context := hmatch ▸ mem_cons_self
      have hr' : r ∈ matchingRules lang { pkg with rules := rules } context :=
        (matchingRules_perm hperm).mem_iff.mpr hr
      have hsame : ∀ e ∈ d.effects, ∀ e' ∈ d'.effects, effectId e' = effectId e → e.Same e' := by
        intro e he e' he' hid
        obtain ⟨r₁, hr₁, he₁⟩ := ownEffect_of_mem hr h he
        obtain ⟨r₂, hr₂, he₂⟩ := ownEffect_of_mem hr' h' he'
        exact htold r₁ hr₁ r₂ ((matchingRules_perm hperm).mem_iff.mp hr₂) e e' he₁ he₂
          (effectId_eq_iff.mp hid.symm)
      constructor
      · intro e he
        obtain ⟨e', he', hid⟩ := h'.effect_by_id ((hall e).mpr (h.effects_subset he))
        exact ⟨e', he', hsame e he e' he' hid⟩
      · intro e' he'
        obtain ⟨e, he, hid⟩ := h.effect_by_id ((hall e').mp (h'.effects_subset he'))
        exact ⟨e, he, (hsame e he e' he' hid.symm).symm⟩
  · intro c
    rw [h.capabilities, h'.capabilities, hdec]
    simp only [hmem]
  · intro t
    rw [h.warnings, h'.warnings]
    simp only [hmem]

theorem ownEffect_at_front {d : PolicyDecision} {r : Rule V} {rest : List (Rule V)}
    (hr : r ∈ matchingRules lang pkg context)
    (h : ComposedOf (decisionsFor lang { pkg with rules := r :: rest } context) d) {e : Effect}
    (he : FirstAlike (r.effects.getD []) e) : e ∈ d.effects := by
  have hmatch : matchingRules lang { pkg with rules := r :: rest } context =
      r :: matchingRules lang { pkg with rules := rest } context :=
    filter_cons_of_pos (mem_filter.mp hr).2
  rw [h.effects, decisionsFor_of_match (hmatch ▸ mem_cons_self), hmatch, map_cons,
    flatMap_cons]
  exact firstBy_append_left (firstAlike_iff.mp he) _

/-- **The order of the rules is of no account** exactly when the first effects
of the matching rules that are alike are the same. -/
theorem orderFree_iff : OrderFree lang pkg context ↔
    (pkg.resources.contains context.resource = true →
      pkg.actions.contains context.action = true → RulesTold lang pkg context) := by
  constructor
  · intro hfree hres hact r hr r' hr' e e' he he' halike
    obtain ⟨d, hd, h⟩ := composePolicyDecisions_composed (decisionsFor_ne_nil lang pkg context)
    -- either rule can come first, and then its own effect is in the outcome
    have hfront : ∀ r ∈ matchingRules lang pkg context, ∀ e, FirstAlike (r.effects.getD []) e →
        ∃ d' ∈ d.effects, e.Same d' := by
      intro r hr e he
      obtain ⟨s, t, hrules⟩ := append_of_mem (mem_filter.mp hr).1
      have hperm : (r :: (s ++ t)).Perm pkg.rules := hrules ▸ perm_middle.symm
      have hresult := hfree _ hperm
      obtain ⟨d', hd', h'⟩ := composePolicyDecisions_composed
        (decisionsFor_ne_nil lang { pkg with rules := r :: (s ++ t) } context)
      rw [evaluate_eq, evaluate_eq, if_pos hres, if_pos hres, if_pos hact, if_pos hact, hd,
        hd'] at hresult
      exact hresult.effects.2 e (ownEffect_at_front hr h' he)
    obtain ⟨m, hm, hem⟩ := hfront r hr e he
    obtain ⟨m', hm', hem'⟩ := hfront r' hr' e' he'
    have hid : effectId m = effectId m' :=
      effectId_eq_iff.mpr (hem.alike.symm.trans (halike.trans hem'.alike))
    rw [h.effects] at hm hm'
    have hmm := firstBy_injective hm hm' hid
    subst hmm
    exact hem.trans hem'.symm
  · intro htold rules hperm
    rw [evaluate_eq, evaluate_eq]
    by_cases hres : pkg.resources.contains context.resource = true
    · by_cases hact : pkg.actions.contains context.action = true
      · obtain ⟨d, hd, h⟩ := composePolicyDecisions_composed (decisionsFor_ne_nil lang pkg context)
        obtain ⟨d', hd', h'⟩ := composePolicyDecisions_composed
          (decisionsFor_ne_nil lang { pkg with rules := rules } context)
        rw [if_pos hres, if_pos hres, if_pos hact, if_pos hact, hd, hd']
        exact sameOutcome_of_rulesTold (htold hres hact) hperm h h'
      · rw [if_pos hres, if_pos hres, if_neg hact, if_neg hact]
        exact rfl
    · rw [if_neg hres, if_neg hres]
      exact rfl

end Rules

/-! ## When nothing is lost -/

/-- **Policy composition loses no obligation** exactly when effects ask for
every audit that a verdict asks for and effects that are alike are the same;
the order of a package's rules is of no account under the latter. -/
theorem obligations_kept_iff (V : Type) :
    (∀ (first : DecisionParts) (rest : List DecisionParts),
      (∃ d, composePolicyDecisions ((first :: rest).map finalize) = .ok d ∧
        KeepsObligations ((first :: rest).map finalize) d) ↔
      AuditsWritten ((first :: rest).map finalize) ∧
        ToldApart (((first :: rest).map finalize).flatMap (·.effects))) ∧
    ∀ (lang : UnknownValues V) (pkg : PolicyPackage V) (context : PolicyContext V),
      OrderFree lang pkg context ↔ (pkg.resources.contains context.resource = true →
        pkg.actions.contains context.action = true → RulesTold lang pkg context) := by
  refine ⟨fun first rest => ?_, fun lang pkg context => orderFree_iff⟩
  refine keepsObligations_iff (cons_ne_nil _ _) fun x hx => ?_
  obtain ⟨parts, -, rfl⟩ := mem_map.mp hx
  exact finalize_finalized parts

/-- An allowed decision under audit, and a denial; neither carries an effect. -/
def audited : DecisionParts := ⟨.allowWithAudit, "ALLOW_AUDITED", [], [], [], []⟩

def denied : DecisionParts := ⟨.deny, "HARD_NO", [], [], [], []⟩

/-- The audit of the allowed decision is lost to the denial of another, and to
a denied authorization. -/
theorem audit_lost_to_denial :
    (finalize audited).auditRequired = true ∧
      (composePolicyDecisions [finalize audited, finalize denied]).map (·.auditRequired) =
        .ok false ∧
      (composeWithAuthorization .deny (finalize audited)).auditRequired = false ∧
      ¬ ∃ d, composePolicyDecisions [finalize audited, finalize denied] = .ok d ∧
        KeepsObligations [finalize audited, finalize denied] d := by
  refine ⟨rfl, rfl, rfl, ?_⟩
  rintro ⟨d, hd, hkeeps⟩
  have hlost : d.auditRequired = false :=
    congrArg PolicyDecision.auditRequired (Except.ok.inj hd).symm
  have hkept := (hkeeps.audit ⟨finalize audited, mem_cons_self, rfl⟩).1
  rw [hlost] at hkept
  cases hkept

end AramoPlatform.Policy
