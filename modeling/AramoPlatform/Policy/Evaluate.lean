import AramoPlatform.Policy.Composition

/-!
# Evaluating a package

`predicate.ts` and `evaluate.ts`: the rules of a package whose resource,
action and condition match the context are turned into decisions and composed;
without a match the package's own default disposition decides. The engine
never reads the meaning of a value, so the values of a context are of any
type with the four operations that the operators use.
-/

namespace AramoPlatform.Policy

open Lib

/-- What the operators of a predicate ask of two `unknown` values. -/
structure UnknownValues (V : Type) where
  /-- `Object.is`, which compares objects by identity. -/
  objectIs : V → V → Bool
  /-- The value of a finite number. -/
  asNumber : V → Option Rat
  /-- The elements, when `Array.isArray`. -/
  elements : V → Option (List V)
  undefined : V

inductive PredicateSource
  | declared
  | derived
  | attributes
  | capabilities
  deriving DecidableEq

inductive PredicateOp
  | eq
  | ne
  | lt
  | lte
  | gt
  | gte
  | isIn
  | exists
  deriving DecidableEq

section Values

variable {V : Type}

structure Predicate (V : Type) where
  source : PredicateSource
  key : String
  op : PredicateOp
  value : V

/-- The parts of a context that a predicate can reach, and what it is matched by. -/
structure PolicyContext (V : Type) where
  resource : String
  action : String
  declared : List (String × V)
  derived : List (String × V)
  attributes : List (String × V)
  principalCapabilities : List (String × V)

def bucket (ctx : PolicyContext V) : PredicateSource → List (String × V)
  | .declared => ctx.declared
  | .derived => ctx.derived
  | .attributes => ctx.attributes
  | .capabilities => ctx.principalCapabilities

def compareNumbers (lang : UnknownValues V) (test : Rat → Rat → Bool) (a b : V) : Bool :=
  match lang.asNumber a, lang.asNumber b with
  | some x, some y => test x y
  | _, _ => false

def evalPredicate (lang : UnknownValues V) (ctx : PolicyContext V) (p : Predicate V) : Bool :=
  let store := bucket ctx p.source
  let has := (store.lookup p.key).isSome
  let actual := (store.lookup p.key).getD lang.undefined
  match p.op with
  | .exists => has
  | .eq => has && lang.objectIs actual p.value
  | .ne => !has || !lang.objectIs actual p.value
  | .isIn => has && match lang.elements p.value with
    | none => false
    | some elems => elems.any fun x => lang.objectIs x actual
  | .lt => compareNumbers lang (fun a b => decide (a < b)) actual p.value
  | .lte => compareNumbers lang (fun a b => decide (a ≤ b)) actual p.value
  | .gt => compareNumbers lang (fun a b => decide (b < a)) actual p.value
  | .gte => compareNumbers lang (fun a b => decide (b ≤ a)) actual p.value

/-- Every predicate holds; an absent condition always does. -/
def conditionHolds (lang : UnknownValues V) (ctx : PolicyContext V)
    (predicates : Option (List (Predicate V))) : Bool :=
  match predicates with
  | none => true
  | some ps => ps.all (evalPredicate lang ctx)

structure Rule (V : Type) where
  id : String
  resource : String
  action : String
  when : Option (List (Predicate V))
  decision : Decision
  reasonCode : String
  requiredCapability : Option String
  effects : Option (List Effect)

structure DefaultDisposition where
  decision : Decision
  reasonCode : String
  requiredCapability : Option String
  effects : Option (List Effect)

structure PolicyPackage (V : Type) where
  name : String
  version : String
  resources : List String
  actions : List String
  defaultDisposition : DefaultDisposition
  rules : List (Rule V)

/-- An override names its capability; an empty name is none. -/
def capabilitiesOf (decision : Decision) (requiredCapability : Option String) : List String :=
  match requiredCapability with
  | none => []
  | some c => if decision = .requiresOverride ∧ c ≠ "" then [c] else []

def ruleToDecision (pkg : PolicyPackage V) (rule : Rule V) : PolicyDecision :=
  finalize
    { decision := rule.decision
      reasonCode := rule.reasonCode
      requiredCapabilities := capabilitiesOf rule.decision rule.requiredCapability
      effects := rule.effects.getD []
      warnings := []
      provenance := [⟨pkg.version, rule.id⟩] }

def dispositionToDecision (pkg : PolicyPackage V) : PolicyDecision :=
  let d := pkg.defaultDisposition
  finalize
    { decision := d.decision
      reasonCode := d.reasonCode
      requiredCapabilities := capabilitiesOf d.decision d.requiredCapability
      effects := d.effects.getD []
      warnings := []
      provenance := [⟨pkg.version, "__default__"⟩] }

def unregisteredResource (pkg : PolicyPackage V) (resource : String) : PolicyEngineError where
  code := .unregisteredResource
  message := "Context resource \"" ++ resource ++ "\" is not registered by package \"" ++
    pkg.name ++ "\""
  details := [("package", pkg.name), ("resource", resource)]

def unregisteredAction (pkg : PolicyPackage V) (action : String) : PolicyEngineError where
  code := .unregisteredAction
  message := "Context action \"" ++ action ++ "\" is not registered by package \"" ++
    pkg.name ++ "\""
  details := [("package", pkg.name), ("action", action)]

/-- The rules of the package that apply to the context, in its order. -/
def matchingRules (lang : UnknownValues V) (pkg : PolicyPackage V) (context : PolicyContext V) :
    List (Rule V) :=
  pkg.rules.filter fun rule =>
    rule.resource == context.resource && rule.action == context.action &&
      conditionHolds lang context rule.when

/-- What `evaluate` composes: the matching rules, or the default disposition. -/
def decisionsFor (lang : UnknownValues V) (pkg : PolicyPackage V) (context : PolicyContext V) :
    List PolicyDecision :=
  let matched := (matchingRules lang pkg context).map (ruleToDecision pkg)
  if matched = [] then [dispositionToDecision pkg] else matched

def evaluate (lang : UnknownValues V) (pkg : PolicyPackage V) (context : PolicyContext V) :
    Except PolicyEngineError PolicyDecision := do
  require (pkg.resources.contains context.resource) (unregisteredResource pkg context.resource)
  require (pkg.actions.contains context.action) (unregisteredAction pkg context.action)
  composePolicyDecisions (decisionsFor lang pkg context)

end Values

end AramoPlatform.Policy
