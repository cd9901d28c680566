import AramoPlatform.Lib.FirstBy
import AramoPlatform.Policy.Signatures

/-!
# Effects

The obligations that a policy decision carries (`types.ts`), and how a
composition brings those of several decisions together (`unionEffects` of
`compose.ts`): the first of the effects is kept that are alike, which is to
say of one kind and with one text for their parameters.
-/

namespace AramoPlatform.Policy

open Js Lib List

/-- `EFFECT_KINDS`. -/
inductive EffectKind
  | writeAudit
  | requireReason
  | notifyRole
  | emitEvent
  | showBanner
  deriving DecidableEq

def EffectKind.wire : EffectKind → JsString
  | writeAudit => js "WRITE_AUDIT"
  | requireReason => js "REQUIRE_REASON"
  | notifyRole => js "NOTIFY_ROLE"
  | emitEvent => js "EMIT_EVENT"
  | showBanner => js "SHOW_BANNER"

theorem EffectKind.wire_injective {k k' : EffectKind} (h : k.wire = k'.wire) : k = k' := by
  cases k <;> cases k' <;> first | rfl | exact absurd h (by decide)

/-- A `Record<string, unknown>`. -/
structure Params where
  members : List (JsString × JsVal)
  wf : (JsVal.obj members).wf = true

structure Effect where
  kind : EffectKind
  params : Option Params

/-- `effect.params ?? null`. -/
def Effect.paramsValue (e : Effect) : JsVal :=
  match e.params with
  | none => .null
  | some p => .obj p.members

theorem Effect.paramsValue_wf (e : Effect) : e.paramsValue.wf = true := by
  obtain ⟨kind, params⟩ := e
  cases params with
  | none => rfl
  | some p => exact p.wf

/-- The same obligation, up to the key order of its parameters. -/
def Effect.Same (e e' : Effect) : Prop :=
  e.kind = e'.kind ∧ SameUpToKeyOrder e.paramsValue e'.paramsValue

namespace Effect.Same

theorem refl (e : Effect) : e.Same e := ⟨rfl, .refl e.paramsValue_wf⟩

theorem symm {e e' : Effect} (h : e.Same e') : e'.Same e := ⟨h.1.symm, h.2.symm⟩

theorem trans {e e' e'' : Effect} (h : e.Same e') (h' : e'.Same e'') : e.Same e'' :=
  ⟨h.1.trans h'.1, h.2.trans h'.2⟩

end Effect.Same

def paramsSignature (effect : Effect) : JsString := (stable effect.paramsValue).getD []

/-- Of one kind, with parameters that are the same as written: `Infinity` for
`null` and `[undefined]` for `[]` make no difference, nor does the key order. -/
def Effect.Alike (e e' : Effect) : Prop :=
  e.kind = e'.kind ∧ WrittenAlike e.paramsValue e'.paramsValue

theorem paramsSignature_eq_iff {e e' : Effect} :
    paramsSignature e = paramsSignature e' ↔ WrittenAlike e.paramsValue e'.paramsValue := by
  have hsome (e : Effect) : stable e.paramsValue = some (paramsSignature e) := by
    obtain ⟨kind, params⟩ := e
    cases params <;> rfl
  rw [← stable_eq_iff e.paramsValue_wf e'.paramsValue_wf, hsome, hsome, Option.some_inj]

theorem Effect.Same.alike {e e' : Effect} (h : e.Same e') : e.Alike e' :=
  ⟨h.1, (stable_eq_iff e.paramsValue_wf e'.paramsValue_wf).mp
    (stable_congr h.2 e.paramsValue_wf e'.paramsValue_wf)⟩

/-! ## `unionEffects` -/

/-- `JSON.stringify([e.kind, sig])`. -/
def effectId (e : Effect) : JsString :=
  stringify (.arr [.str e.kind.wire, .str (paramsSignature e)])

theorem effectId_eq_iff {e e' : Effect} : effectId e = effectId e' ↔ e.Alike e' := by
  rw [Effect.Alike, ← paramsSignature_eq_iff]
  constructor
  · intro h
    have hjson := print_injective h
    simp only [toJson, toJsonElems, Json.arr.injEq, List.cons.injEq, Json.str.injEq,
      and_true] at hjson
    exact ⟨EffectKind.wire_injective hjson.1, hjson.2⟩
  · rintro ⟨hkind, hsig⟩
    simp only [effectId, hkind, hsig]

namespace Effect.Alike

theorem symm {e e' : Effect} (h : e.Alike e') : e'.Alike e :=
  effectId_eq_iff.mp (effectId_eq_iff.mpr h).symm

theorem trans {e e' e'' : Effect} (h : e.Alike e') (h' : e'.Alike e'') : e.Alike e'' :=
  effectId_eq_iff.mp ((effectId_eq_iff.mpr h).trans (effectId_eq_iff.mpr h'))

end Effect.Alike

structure EffectUnion where
  effects : List Effect
  conflict : Bool

/-- `EXCLUSIVE_EFFECT_KINDS`: no kind that exists cannot be satisfied twice. -/
def exclusiveEffectKinds : List EffectKind := []

/-- The loop of `unionEffects`, with its `emitted`, `signaturesByKind` and `out`. -/
def unionLoop (exclusiveKinds : List EffectKind) :
    List Effect → List JsString → (EffectKind → List JsString) → List Effect → EffectUnion
  | [], _, _, out => ⟨out, false⟩
  | e :: rest, emitted, signaturesByKind, out =>
      let sig := paramsSignature e
      let sigs := if sig ∈ signaturesByKind e.kind then signaturesByKind e.kind
        else sig :: signaturesByKind e.kind
      if e.kind ∈ exclusiveKinds ∧ 1 < sigs.length then ⟨[], true⟩
      else if effectId e ∈ emitted then
        unionLoop exclusiveKinds rest emitted (Function.update signaturesByKind e.kind sigs) out
      else
        unionLoop exclusiveKinds rest (effectId e :: emitted)
          (Function.update signaturesByKind e.kind sigs) (out ++ [e])

def unionEffects (effects : List Effect) (exclusiveKinds : List EffectKind) : EffectUnion :=
  unionLoop exclusiveKinds effects [] (fun _ => []) []

theorem unionLoop_nil (effects out : List Effect) (emitted : List JsString)
    (signaturesByKind : EffectKind → List JsString) :
    unionLoop [] effects emitted signaturesByKind out =
      ⟨out ++ firstBy effectId emitted effects, false⟩ := by
  induction effects generalizing out emitted signaturesByKind with
  | nil => simp [unionLoop, firstBy]
  | cons e rest ih =>
    by_cases he : effectId e ∈ emitted
    · simp only [unionLoop, firstBy, he, not_mem_nil, false_and, if_false, if_true, ih]
    · simp only [unionLoop, firstBy, he, not_mem_nil, false_and, if_false, ih,
        append_assoc, cons_append, nil_append]

/-- With no exclusive kind there is no conflict, and the first effect of each
kind and signature is kept. -/
theorem unionEffects_exclusiveEffectKinds (effects : List Effect) :
    unionEffects effects exclusiveEffectKinds = ⟨firstBy effectId [] effects, false⟩ := by
  rw [unionEffects, exclusiveEffectKinds, unionLoop_nil, nil_append]

/-! ## Sets of effects -/

/-- The same effects, up to the key order of their parameters. -/
def SameEffects (l l' : List Effect) : Prop :=
  (∀ e ∈ l, ∃ e' ∈ l', e.Same e') ∧ ∀ e' ∈ l', ∃ e ∈ l, e'.Same e

/-- Effects that are alike are the same. -/
def ToldApart (effects : List Effect) : Prop :=
  ∀ e ∈ effects, ∀ e' ∈ effects, e.Alike e' → e.Same e'

/-- Where effects that are alike are the same, those with the same ids are. -/
theorem ToldApart.sameEffects {effects l l' : List Effect} (htold : ToldApart effects)
    (hl : ∀ e ∈ l, e ∈ effects) (hl' : ∀ e ∈ l', e ∈ effects)
    (hids : ∀ e ∈ l, ∃ e' ∈ l', effectId e' = effectId e)
    (hids' : ∀ e' ∈ l', ∃ e ∈ l, effectId e = effectId e') : SameEffects l l' := by
  constructor
  · intro e he
    obtain ⟨e', he', hid⟩ := hids e he
    exact ⟨e', he', htold e (hl e he) e' (hl' e' he') (effectId_eq_iff.mp hid.symm)⟩
  · intro e' he'
    obtain ⟨e, he, hid⟩ := hids' e' he'
    exact ⟨e, he, htold e' (hl' e' he') e (hl e he) (effectId_eq_iff.mp hid.symm)⟩

/-- The union keeps every effect exactly when those that are alike are the same. -/
theorem union_keeps_iff (effects : List Effect) :
    (∀ e ∈ effects, ∃ e' ∈ firstBy effectId [] effects, e.Same e') ↔ ToldApart effects := by
  constructor
  · intro hkeep e he e' he' halike
    obtain ⟨d, hd, hed⟩ := hkeep e he
    obtain ⟨d', hd', hed'⟩ := hkeep e' he'
    -- `d` and `d'` have one id, and the union holds one effect of an id
    have hid : effectId d = effectId d' :=
      effectId_eq_iff.mpr (hed.alike.symm.trans (halike.trans hed'.alike))
    have hdd := firstBy_injective hd hd' hid
    subst hdd
    exact hed.trans hed'.symm
  · intro htold e he
    obtain ⟨d, hd, hid⟩ := exists_firstBy he (not_mem_nil (a := effectId e))
    exact ⟨d, hd, htold e he d (mem_of_mem_firstBy hd).1 (effectId_eq_iff.mp hid.symm)⟩

/-- The first in the list of the effects that are alike to it. -/
def FirstAlike (effects : List Effect) (e : Effect) : Prop :=
  ∃ before after, effects = before ++ e :: after ∧ ∀ e' ∈ before, ¬ e'.Alike e

theorem firstAlike_iff {effects : List Effect} {e : Effect} :
    FirstAlike effects e ↔ e ∈ firstBy effectId [] effects := by
  simp only [FirstAlike, mem_firstBy_iff, ← effectId_eq_iff, not_mem_nil, not_false_eq_true,
    true_and]

/-- **The union is the first of the effects that are alike**, in their order. -/
theorem unionEffects_first_of_alike (effects : List Effect) :
    (unionEffects effects exclusiveEffectKinds).conflict = false ∧
      (unionEffects effects exclusiveEffectKinds).effects.Sublist effects ∧
      (unionEffects effects exclusiveEffectKinds).effects.Pairwise (fun e e' => ¬ e.Alike e') ∧
      ∀ e, e ∈ (unionEffects effects exclusiveEffectKinds).effects ↔ FirstAlike effects e := by
  rw [unionEffects_exclusiveEffectKinds]
  refine ⟨rfl, firstBy_sublist effectId [] effects, ?_, fun e => firstAlike_iff.symm⟩
  exact (firstBy_pairwise effectId [] effects).imp fun hne halike =>
    hne (effectId_eq_iff.mpr halike)

end AramoPlatform.Policy
