import AramoPlatform.Lib.Latest
import AramoPlatform.Lib.Outcome
import AramoPlatform.Policy.Effects

/-!
# Composing policy decisions

`types.ts` and `compose.ts` of the policy engine. Decisions compose most
restrictive first: the verdict is the strongest of the components, their
effects are united, and the capabilities of the overrides are collected when
an override is what is required. The flags of the result are computed again
from its verdict and effects.
-/

namespace AramoPlatform.Policy

open Js Lib List

inductive Decision
  | allow
  | deny
  | requiresOverride
  | allowWithAudit
  deriving DecidableEq

/-- `DECISION_PRECEDENCE`. -/
def Decision.precedence : Decision → Nat
  | allow => 0
  | allowWithAudit => 1
  | requiresOverride => 2
  | deny => 3

theorem Decision.precedence_injective {x y : Decision} (h : x.precedence = y.precedence) :
    x = y := by
  cases x <;> cases y <;> first | rfl | exact absurd h (by decide)

structure DecisionProvenance where
  policyVersion : String
  ruleId : String
  deriving DecidableEq

structure PolicyDecision where
  decision : Decision
  reasonCode : String
  requiredCapabilities : List String
  auditRequired : Bool
  overrideRequired : Bool
  reasonRequired : Bool
  warnings : List String
  effects : List Effect
  provenance : List DecisionProvenance

inductive PolicyEngineErrorCode
  | unregisteredResource
  | unregisteredAction
  | emptyComposition
  deriving DecidableEq

structure PolicyEngineError where
  code : PolicyEngineErrorCode
  message : String
  details : List (String × String)
  deriving DecidableEq

def hasEffect (effects : List Effect) (kind : EffectKind) : Bool :=
  effects.any fun e => e.kind == kind

/-- What `finalize` is given. -/
structure DecisionParts where
  decision : Decision
  reasonCode : String
  requiredCapabilities : List String
  effects : List Effect
  warnings : List String
  provenance : List DecisionProvenance

/-- The flags are derived from the verdict and the effects. -/
def finalize (parts : DecisionParts) : PolicyDecision :=
  let overrideRequired := parts.decision == .requiresOverride
  { decision := parts.decision
    reasonCode := parts.reasonCode
    requiredCapabilities := parts.requiredCapabilities
    auditRequired := parts.decision == .allowWithAudit || hasEffect parts.effects .writeAudit
    overrideRequired := overrideRequired
    reasonRequired := overrideRequired || hasEffect parts.effects .requireReason
    warnings := parts.warnings
    effects := parts.effects
    provenance := parts.provenance }

def dedupeStrings (values : List String) : List String := values.eraseDups

/-- The more restrictive comes first. -/
def rank (d : PolicyDecision) : Nat := d.decision.precedence

def emptyComposition : PolicyEngineError where
  code := .emptyComposition
  message := "composePolicyDecisions requires at least one decision " ++
    "(R3 -- the engine has no global default)"
  details := []

/-- `reduce` with a strict comparison keeps the first decision of the highest
precedence. -/
def composePolicyDecisions (decisions : List PolicyDecision) :
    Except PolicyEngineError PolicyDecision :=
  match latest rank decisions with
  | none => .error emptyComposition
  | some winner =>
      let provenance := decisions.flatMap (·.provenance)
      let warnings := dedupeStrings (decisions.flatMap (·.warnings))
      let union := unionEffects (decisions.flatMap (·.effects)) exclusiveEffectKinds
      if union.conflict then
        .ok (finalize ⟨.deny, "POLICY_EFFECT_CONFLICT", [], [], warnings, provenance⟩)
      else
        let requiredCapabilities :=
          if winner.decision = .requiresOverride then
            dedupeStrings ((decisions.filter fun d => d.decision == .requiresOverride).flatMap
              (·.requiredCapabilities))
          else []
        .ok (finalize ⟨winner.decision, winner.reasonCode, requiredCapabilities, union.effects,
          warnings, provenance⟩)

inductive AuthorizationVerdict
  | allow
  | deny
  deriving DecidableEq

def composeWithAuthorization (authorization : AuthorizationVerdict) (policy : PolicyDecision) :
    PolicyDecision :=
  match authorization with
  | .deny => finalize
      ⟨.deny, "AUTHORIZATION_DENIED", [], policy.effects, policy.warnings, policy.provenance⟩
  | .allow => policy

/-! ## What a composition is -/

/-- The flags are those that `finalize` derives. -/
structure Finalized (d : PolicyDecision) : Prop where
  audit : d.auditRequired = (d.decision == .allowWithAudit || hasEffect d.effects .writeAudit)
  override : d.overrideRequired = (d.decision == .requiresOverride)
  reason : d.reasonRequired = (d.overrideRequired || hasEffect d.effects .requireReason)

theorem finalize_finalized (parts : DecisionParts) : Finalized (finalize parts) := ⟨rfl, rfl, rfl⟩

/-- `d` has the verdict and reason of the first strongest decision of `l`, one
effect of those that are alike, and everybody's warnings and override
capabilities. -/
structure ComposedOf (l : List PolicyDecision) (d : PolicyDecision) : Prop where
  winner : ∃ w, latest rank l = some w ∧ d.decision = w.decision ∧ d.reasonCode = w.reasonCode
  effects : d.effects = firstBy effectId [] (l.flatMap (·.effects))
  warnings : ∀ t, t ∈ d.warnings ↔ ∃ x ∈ l, t ∈ x.warnings
  capabilities : ∀ c, c ∈ d.requiredCapabilities ↔ d.decision = .requiresOverride ∧
    ∃ x ∈ l, x.decision = .requiresOverride ∧ c ∈ x.requiredCapabilities
  finalized : Finalized d

theorem mem_dedupeStrings {t : String} {l : List String} : t ∈ dedupeStrings l ↔ t ∈ l := by
  rw [dedupeStrings, mem_eraseDups]

theorem composePolicyDecisions_composed {l : List PolicyDecision} (hne : l ≠ []) :
    ∃ d, composePolicyDecisions l = .ok d ∧ ComposedOf l d := by
  obtain ⟨w, hw⟩ := Option.isSome_iff_exists.mp (latest_isSome (t := rank).mpr hne)
  unfold composePolicyDecisions
  simp only [hw, unionEffects_exclusiveEffectKinds, Bool.false_eq_true, if_false]
  refine ⟨_, rfl, ⟨w, hw, rfl, rfl⟩, rfl, ?_, ?_, finalize_finalized _⟩
  · intro t
    simp only [finalize, mem_dedupeStrings, mem_flatMap]
  · intro c
    by_cases hover : w.decision = .requiresOverride
    · simp only [finalize, hover, if_true, mem_dedupeStrings, mem_flatMap, mem_filter,
        beq_iff_eq, true_and, and_assoc]
    · simp only [finalize, hover, if_false, not_mem_nil, false_and]

theorem composedOf_of_ok {l : List PolicyDecision} {d : PolicyDecision}
    (h : composePolicyDecisions l = .ok d) : ComposedOf l d := by
  by_cases hne : l = []
  · subst hne
    cases h
  · obtain ⟨d', hd', hcomp⟩ := composePolicyDecisions_composed hne
    rw [hd'] at h
    obtain rfl := Except.ok.inj h
    exact hcomp

/-- The same verdict, flags, effects, capabilities and warnings. -/
structure SameOutcome (d d' : PolicyDecision) : Prop where
  decision : d.decision = d'.decision
  audit : d.auditRequired = d'.auditRequired
  override : d.overrideRequired = d'.overrideRequired
  reason : d.reasonRequired = d'.reasonRequired
  effects : SameEffects d.effects d'.effects
  capabilities : ∀ c, c ∈ d.requiredCapabilities ↔ c ∈ d'.requiredCapabilities
  warnings : ∀ t, t ∈ d.warnings ↔ t ∈ d'.warnings

theorem SameEffects.hasEffect {l l' : List Effect} (h : SameEffects l l') (kind : EffectKind) :
    Policy.hasEffect l kind = Policy.hasEffect l' kind := by
  rw [Bool.eq_iff_iff]
  simp only [Policy.hasEffect, any_eq_true, beq_iff_eq]
  constructor
  · rintro ⟨e, he, hkind⟩
    obtain ⟨e', he', hsame⟩ := h.1 e he
    exact ⟨e', he', hsame.1.symm.trans hkind⟩
  · rintro ⟨e', he', hkind⟩
    obtain ⟨e, he, hsame⟩ := h.2 e' he'
    exact ⟨e, he, hsame.1.symm.trans hkind⟩

theorem sameOutcome_of_finalized {d d' : PolicyDecision} (hd : Finalized d) (hd' : Finalized d')
    (hdec : d.decision = d'.decision) (heff : SameEffects d.effects d'.effects)
    (hcap : ∀ c, c ∈ d.requiredCapabilities ↔ c ∈ d'.requiredCapabilities)
    (hwarn : ∀ t, t ∈ d.warnings ↔ t ∈ d'.warnings) : SameOutcome d d' where
  decision := hdec
  audit := by rw [hd.audit, hd'.audit, hdec, heff.hasEffect]
  override := by rw [hd.override, hd'.override, hdec]
  reason := by rw [hd.reason, hd'.reason, hd.override, hd'.override, hdec, heff.hasEffect]
  effects := heff
  capabilities := hcap
  warnings := hwarn

namespace ComposedOf

variable {l l' l₁ l₂ : List PolicyDecision} {d d' d₁ d₂ : PolicyDecision}

section

variable (h : ComposedOf l d)

include h

theorem verdict_max :
    (∃ x ∈ l, x.decision = d.decision) ∧
      ∀ x ∈ l, x.decision.precedence ≤ d.decision.precedence := by
  obtain ⟨w, hw, hdec, -⟩ := h.winner
  obtain ⟨hmem, hmax⟩ := isLatest_of_latest hw
  exact ⟨⟨w, hmem, hdec.symm⟩, fun x hx => hdec ▸ hmax x hx⟩

theorem decision_congr (h' : ComposedOf l' d')
    (hmem : ∀ x, x ∈ l' ↔ x ∈ l) : d.decision = d'.decision := by
  obtain ⟨⟨x, hx, hxd⟩, hmax⟩ := h.verdict_max
  obtain ⟨⟨y, hy, hyd⟩, hmax'⟩ := h'.verdict_max
  have hxy := hmax' x ((hmem x).mpr hx)
  have hyx := hmax y ((hmem y).mp hy)
  rw [hxd] at hxy
  rw [hyd] at hyx
  exact Decision.precedence_injective (Nat.le_antisymm hxy hyx)

/-- An override among the components is the verdict unless one of them denies. -/
theorem requiresOverride_of_component {x : PolicyDecision} (hx : x ∈ l)
    (hover : x.decision = .requiresOverride)
    (hle : d.decision.precedence ≤ Decision.requiresOverride.precedence) :
    d.decision = .requiresOverride := by
  have hge := h.verdict_max.2 x hx
  rw [hover] at hge
  exact Decision.precedence_injective (Nat.le_antisymm hle hge)

theorem effects_subset {e : Effect} (he : e ∈ d.effects) :
    e ∈ l.flatMap (·.effects) := by
  rw [h.effects] at he
  exact (mem_of_mem_firstBy he).1

theorem effect_by_id {e : Effect} (he : e ∈ l.flatMap (·.effects)) :
    ∃ e' ∈ d.effects, effectId e' = effectId e := by
  rw [h.effects]
  exact exists_firstBy he (not_mem_nil (a := effectId e))

theorem effects_kept_iff :
    (∀ x ∈ l, ∀ e ∈ x.effects, ∃ e' ∈ d.effects, e.Same e') ↔
      ToldApart (l.flatMap (·.effects)) := by
  rw [← union_keeps_iff, h.effects]
  simp only [mem_flatMap]
  constructor
  · rintro hkeep e ⟨x, hx, he⟩
    exact hkeep x hx e he
  · intro hkeep x hx e he
    exact hkeep e ⟨x, hx, he⟩

/-- **Neither the order nor a repetition of the components matters** when those
of their effects that are alike are the same. -/
theorem sameOutcome_of_members (h' : ComposedOf l' d')
    (hmem : ∀ x, x ∈ l' ↔ x ∈ l) (htold : ToldApart (l.flatMap (·.effects))) :
    SameOutcome d d' := by
  have hdec := h.decision_congr h' hmem
  have heffects : ∀ e, e ∈ l'.flatMap (·.effects) ↔ e ∈ l.flatMap (·.effects) := by
    intro e
    simp only [mem_flatMap, hmem]
  refine sameOutcome_of_finalized h.finalized h'.finalized hdec ?_ ?_ ?_
  · refine htold.sameEffects (fun e he => h.effects_subset he)
      (fun e he => (heffects e).mp (h'.effects_subset he)) ?_ ?_
    · intro e he
      exact h'.effect_by_id ((heffects e).mpr (h.effects_subset he))
    · intro e he
      exact h.effect_by_id ((heffects e).mp (h'.effects_subset he))
  · intro c
    rw [h.capabilities, h'.capabilities, hdec]
    simp only [hmem]
  · intro t
    rw [h.warnings, h'.warnings]
    simp only [hmem]

end

/-- The first strongest of two lists is the first strongest of their winners. -/
theorem winner_append (h₁ : ComposedOf l₁ d₁) (h₂ : ComposedOf l₂ d₂) (h : ComposedOf (l₁ ++ l₂) d)
    (h' : ComposedOf [d₁, d₂] d') : d.decision = d'.decision ∧ d.reasonCode = d'.reasonCode := by
  obtain ⟨w₁, hw₁, hdec₁, hcode₁⟩ := h₁.winner
  obtain ⟨w₂, hw₂, hdec₂, hcode₂⟩ := h₂.winner
  obtain ⟨w, hw, hdec, hcode⟩ := h.winner
  obtain ⟨w', hw', hdec', hcode'⟩ := h'.winner
  rw [latest_append, hw₁, hw₂] at hw
  have hpair : latest rank [d₁, d₂] = if rank d₁ < rank d₂ then some d₂ else some d₁ := rfl
  rw [hpair] at hw'
  have hrank : rank d₁ < rank d₂ ↔ rank w₁ < rank w₂ := by rw [rank, rank, hdec₁, hdec₂, rank, rank]
  by_cases hlt : rank w₁ < rank w₂
  · simp only [hrank, hlt, if_true, Option.some.injEq] at hw hw'
    subst hw hw'
    exact ⟨by rw [hdec, hdec', hdec₂], by rw [hcode, hcode', hcode₂]⟩
  · simp only [hrank, hlt, if_false, Option.some.injEq] at hw hw'
    subst hw hw'
    exact ⟨by rw [hdec, hdec', hdec₁], by rw [hcode, hcode', hcode₁]⟩

/-- **Composing a concatenation is composing the two compositions.** -/
theorem append (h₁ : ComposedOf l₁ d₁) (h₂ : ComposedOf l₂ d₂) (h : ComposedOf (l₁ ++ l₂) d)
    (h' : ComposedOf [d₁, d₂] d') (htold : ToldApart ((l₁ ++ l₂).flatMap (·.effects))) :
    SameOutcome d d' ∧ d.reasonCode = d'.reasonCode := by
  obtain ⟨hdec, hcode⟩ := winner_append h₁ h₂ h h'
  have hpair : ∀ e, e ∈ [d₁, d₂].flatMap (·.effects) ↔ e ∈ d₁.effects ∨ e ∈ d₂.effects := by
    intro e
    simp
  have hall : ∀ e, e ∈ (l₁ ++ l₂).flatMap (·.effects) ↔
      e ∈ l₁.flatMap (·.effects) ∨ e ∈ l₂.flatMap (·.effects) := by
    intro e
    rw [flatMap_append, mem_append]
  -- an effect of either composition is one of its components
  have hsub : ∀ e ∈ d'.effects, e ∈ (l₁ ++ l₂).flatMap (·.effects) := by
    intro e he
    rw [hall]
    exact ((hpair e).mp (h'.effects_subset he)).imp h₁.effects_subset h₂.effects_subset
  refine ⟨sameOutcome_of_finalized h.finalized h'.finalized hdec ?_ ?_ ?_, hcode⟩
  · refine htold.sameEffects (fun e he => h.effects_subset he) hsub ?_ ?_
    · intro e he
      -- it stands by its id in one of the compositions, and from there in the result
      have hmid : ∃ m ∈ [d₁, d₂].flatMap (·.effects), effectId m = effectId e := by
        rcases (hall e).mp (h.effects_subset he) with he | he
        · obtain ⟨m, hm, hid⟩ := h₁.effect_by_id he
          exact ⟨m, (hpair m).mpr (.inl hm), hid⟩
        · obtain ⟨m, hm, hid⟩ := h₂.effect_by_id he
          exact ⟨m, (hpair m).mpr (.inr hm), hid⟩
      obtain ⟨m, hm, hid⟩ := hmid
      obtain ⟨e', he', hid'⟩ := h'.effect_by_id hm
      exact ⟨e', he', hid'.trans hid⟩
    · intro e he
      exact h.effect_by_id (hsub e he)
  · intro c
    rw [h.capabilities, h'.capabilities, hdec]
    refine and_congr_right fun hover => ?_
    simp only [mem_append, mem_cons, not_mem_nil, or_false]
    constructor
    · rintro ⟨x, hx | hx, hxover, hc⟩
      · have hd₁ := h₁.requiresOverride_of_component hx hxover
          (hover ▸ h'.verdict_max.2 d₁ (by simp))
        exact ⟨d₁, .inl rfl, hd₁, (h₁.capabilities c).mpr ⟨hd₁, x, hx, hxover, hc⟩⟩
      · have hd₂ := h₂.requiresOverride_of_component hx hxover
          (hover ▸ h'.verdict_max.2 d₂ (by simp))
        exact ⟨d₂, .inr rfl, hd₂, (h₂.capabilities c).mpr ⟨hd₂, x, hx, hxover, hc⟩⟩
    · rintro ⟨x, rfl | rfl, hxover, hc⟩
      · obtain ⟨-, y, hy, hyover, hcy⟩ := (h₁.capabilities c).mp hc
        exact ⟨y, .inl hy, hyover, hcy⟩
      · obtain ⟨-, y, hy, hyover, hcy⟩ := (h₂.capabilities c).mp hc
        exact ⟨y, .inr hy, hyover, hcy⟩
  · intro t
    rw [h.warnings, h'.warnings]
    simp only [mem_append, mem_cons, not_mem_nil, or_false]
    constructor
    · rintro ⟨x, hx | hx, ht⟩
      · exact ⟨d₁, .inl rfl, (h₁.warnings t).mpr ⟨x, hx, ht⟩⟩
      · exact ⟨d₂, .inr rfl, (h₂.warnings t).mpr ⟨x, hx, ht⟩⟩
    · rintro ⟨x, rfl | rfl, ht⟩
      · obtain ⟨y, hy, hty⟩ := (h₁.warnings t).mp ht
        exact ⟨y, .inl hy, hty⟩
      · obtain ⟨y, hy, hty⟩ := (h₂.warnings t).mp ht
        exact ⟨y, .inr hy, hty⟩

end ComposedOf

end AramoPlatform.Policy
