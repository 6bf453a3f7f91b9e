import Aeterna.Core.Types
import Mathlib.Data.List.Sort

/-!
The governance engine (`knowledge/src/governance.rs`): how the policies of the layers above a target are merged by id,
and what a context violates of the merged rules.
-/

namespace Aeterna

mutual
def Json.same : Json → Json → Bool
  | .null, .null => true
  | .bool a, .bool b => a = b
  | .num a, .num b => a = b
  | .str a, .str b => a = b
  | .arr as, .arr bs => Json.sameItems as bs
  | .obj as, .obj bs => Json.sameFields as bs
  | _, _ => false

def Json.sameItems : List Json → List Json → Bool
  | [], [] => true
  | a :: as, b :: bs => a.same b && Json.sameItems as bs
  | _, _ => false

def Json.sameFields : List (String × Json) → List (String × Json) → Bool
  | [], [] => true
  | (k, a) :: as, (l, b) :: bs => k = l && a.same b && Json.sameFields as bs
  | _, _ => false
end

namespace Governance

inductive PolicyMode where
  | optional | mandatory
  deriving DecidableEq, Repr

inductive RuleMergeStrategy where
  | override | merge | intersect
  deriving DecidableEq, Repr

inductive RuleType where
  | allow | deny
  deriving DecidableEq, Repr

inductive ConstraintOperator where
  | mustUse | mustNotUse | mustMatch | mustNotMatch | mustExist | mustNotExist
  deriving DecidableEq, Repr

inductive ConstraintTarget where
  | file | code | dependency | import_ | config
  deriving DecidableEq, Repr

structure PolicyRule where
  id : String
  ruleType : RuleType := .allow
  target : ConstraintTarget
  operator : ConstraintOperator
  value : Json
  severity : ConstraintSeverity
  message : String

structure Policy where
  id : String
  layer : KnowledgeLayer
  mode : PolicyMode := .optional
  mergeStrategy : RuleMergeStrategy := .override
  rules : List PolicyRule
  metadata : HashMap String Json := ∅

structure Resolution where
  resolved : HashMap String Policy := ∅
  mandatory : HashMap String KnowledgeLayer := ∅

def pushRule (rules : List PolicyRule) (rule : PolicyRule) : List PolicyRule :=
  if rules.any (fun held => held.id = rule.id) then rules else rules ++ [rule]

def mergeExisting (existing incoming : Policy) : Policy :=
  match incoming.mergeStrategy with
  | .override => incoming
  | .merge => { existing with
      rules := incoming.rules.foldl pushRule existing.rules
      metadata := incoming.metadata.entries.foldl
        (fun merged entry => merged.insert entry.1 entry.2) existing.metadata
      layer := incoming.layer }
  | .intersect => { existing with
      rules := existing.rules.filter (fun held => incoming.rules.any (fun rule => rule.id = held.id))
      layer := incoming.layer }

def barred (mandatory : Option KnowledgeLayer) (incoming : Policy) : Bool :=
  mandatory.any (fun layer => incoming.layer ≠ layer) && incoming.mergeStrategy ≠ .override

def mergePolicy (state : Resolution) (incoming : Policy) : Resolution :=
  if barred (state.mandatory.lookup incoming.id) incoming then state
  else {
    mandatory :=
      if incoming.mode = .mandatory then state.mandatory.insert incoming.id incoming.layer else state.mandatory
    resolved :=
      match state.resolved.lookup incoming.id with
      | some existing => state.resolved.insert incoming.id (mergeExisting existing incoming)
      | none => state.resolved.insert incoming.id incoming }

structure GovernanceEngine where
  policies : KnowledgeLayer → List Policy
  keyed : ∀ layer, ∀ policy ∈ policies layer, policy.layer = layer

def GovernanceEngine.new : GovernanceEngine where
  policies _ := []
  keyed := by simp

def GovernanceEngine.addPolicy (engine : GovernanceEngine) (policy : Policy) : GovernanceEngine where
  policies := Function.update engine.policies policy.layer (engine.policies policy.layer ++ [policy])
  keyed layer other held := by
    by_cases same : layer = policy.layer
    · subst same
      rw [Function.update_self] at held
      rcases List.mem_append.mp held with held | held
      · exact engine.keyed _ other held
      · rw [List.mem_singleton.mp held]
    · rw [Function.update_of_ne same] at held
      exact engine.keyed layer other held

variable (policies : List Policy)

def GovernanceEngine.ofPolicies : GovernanceEngine := policies.foldl .addPolicy .new

theorem foldl_addPolicy (engine : GovernanceEngine) (layer : KnowledgeLayer) :
    (policies.foldl .addPolicy engine).policies layer =
      engine.policies layer ++ policies.filter (fun policy => policy.layer = layer) := by
  induction policies generalizing engine with
  | nil => simp
  | cons first rest ih =>
    rw [List.foldl_cons, ih]
    by_cases own : first.layer = layer
    · subst own
      simp [GovernanceEngine.addPolicy]
    · simp [GovernanceEngine.addPolicy, own, Function.update_of_ne (Ne.symm own)]

theorem ofPolicies_policies (layer : KnowledgeLayer) :
    (GovernanceEngine.ofPolicies policies).policies layer = policies.filter (fun policy => policy.layer = layer) :=
  foldl_addPolicy policies .new layer

def layersTo (target : KnowledgeLayer) : List KnowledgeLayer := KnowledgeLayer.walk.takeWhile (· ≠ target) ++ [target]

namespace GovernanceEngine
variable (engine : GovernanceEngine)

variable (target : KnowledgeLayer)

def contributions : List Policy := (layersTo target).flatMap engine.policies

def resolve : Resolution := (engine.contributions target).foldl mergePolicy {}

/-- The walk of `validate`, which writes the layer of each policy again. -/
def resolveInline : Resolution :=
  (layersTo target).foldl (fun state layer =>
    ((engine.policies layer).map (fun policy => { policy with layer := layer })).foldl mergePolicy state) {}

end GovernanceEngine

abbrev Context : Type := HashMap String Json

/-- `regex::Regex`: what compiles, and what it then matches. -/
structure Regex where
  new : String → Option (String → Bool)

structure PolicyViolation extends Aeterna.PolicyViolation where
  (ruleId policyId : String)
  context : Context

structure ValidationResult where
  isValid : Bool
  violations : List PolicyViolation

def ConstraintTarget.key : ConstraintTarget → String
  | .file => "path"
  | .code => "content"
  | .dependency => "dependencies"
  | .import_ => "imports"
  | .config => "config"

def uses (value wanted : Json) : Bool :=
  match value with
  | .arr items => items.any (·.same wanted)
  | _ => value.same wanted

def matchesText (regex : Regex) (value pattern : Json) : Bool :=
  match value, pattern with
  | .str text, .str pattern => (regex.new pattern).any (· text)
  | _, _ => false

def conditionMet (regex : Regex) (operator : ConstraintOperator) (value : Option Json) (wanted : Json) : Bool :=
  match operator with
  | .mustExist => value.isSome
  | .mustNotExist => value.isNone
  | .mustUse => value.any (uses · wanted)
  | .mustNotUse => ! value.any (uses · wanted)
  | .mustMatch => value.any (matchesText regex · wanted)
  | .mustNotMatch => ! value.any (matchesText regex · wanted)

def evaluateRule (regex : Regex) (policy : Policy) (rule : PolicyRule) (context : Context) : Option PolicyViolation :=
  let met := conditionMet regex rule.operator (context.lookup rule.target.key) rule.value
  let violated := match rule.ruleType with
    | .allow => ! met
    | .deny => met
  if violated then
    some { ruleId := rule.id, policyId := policy.id, severity := rule.severity, message := rule.message, context := context }
  else none

def violationsOf (regex : Regex) (context : Context) (policies : List Policy) : List PolicyViolation :=
  policies.flatMap (fun policy => policy.rules.filterMap (fun rule => evaluateRule regex policy rule context))

structure Iteration where
  values : HashMap String Policy → List Policy
  perm : ∀ resolved, (values resolved).Perm (resolved.entries.map (·.2))

namespace GovernanceEngine
variable (engine : GovernanceEngine) (regex : Regex) (hash : Iteration)

variable (target : KnowledgeLayer)

def validate (context : Context) : ValidationResult :=
  let resolved := (hash.values (engine.resolveInline target).resolved).insertionSort
    (fun a b => b.layer.precedence ≤ a.layer.precedence)
  let violations := violationsOf regex context resolved
  { isValid := violations.isEmpty, violations := violations }

def resolveActivePolicies : List Policy := hash.values (engine.resolve target).resolved

/-- `validate_with_context`. The drift event it emits does not show in the result. -/
def validateWithContext (context : Context) : ValidationResult :=
  let violations := violationsOf regex context (engine.resolveActivePolicies hash target)
  { isValid := violations.isEmpty, violations := violations }

end GovernanceEngine

def missingMandatory (active : List Policy) (context : Context) : List PolicyViolation :=
  if (active.filter (fun policy => policy.mode = .mandatory)).length = 0 then
    [{ ruleId := "missing_mandatory_policies", policyId := "governance_requirement", severity := .warn,
       message := "No mandatory policies detected for this project layer", context := context }]
  else []

end Governance

end Aeterna
