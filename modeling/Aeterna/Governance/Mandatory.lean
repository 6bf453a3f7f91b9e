import Aeterna.Governance.Merging
import Mathlib.Data.List.Induction

namespace Aeterna.Governance
open Option
open List hiding set

variable {layer target : KnowledgeLayer}

theorem mem_layersTo : layer ∈ layersTo target ↔ target.precedence ≤ layer.precedence := by
  cases layer <;> cases target <;> decide

theorem layersTo_deeper (deeper : target.precedence ≤ layer.precedence) :
    ∃ below, layersTo target = layersTo layer ++ below ∧ ∀ other ∈ below, other.precedence < layer.precedence := by
  refine ⟨(layersTo target).drop (layersTo layer).length, ?_, ?_⟩
  · revert deeper
    cases layer <;> cases target <;> decide
  · revert deeper
    cases layer <;> cases target <;> decide

namespace GovernanceEngine
variable {engine : GovernanceEngine}

def Enforced (engine : GovernanceEngine) (target : KnowledgeLayer) (id : String) (rule : PolicyRule) : Prop :=
  ∃ policy, (engine.resolveInline target).resolved.lookup id = some policy ∧ rule ∈ policy.rules

variable {target : KnowledgeLayer}

theorem enforced_iff {id : String} {rule : PolicyRule} : engine.Enforced target id rule ↔
    ∃ policy, (((engine.contributions target).filter (fun policy => policy.id = id)).foldl mergeInto (none, none)).1 =
      some policy ∧ rule ∈ policy.rules := by
  have view := view_foldl (engine.contributions target) {} id
  have resolved := congrArg Prod.fst view
  simp only [Enforced, resolveInline_eq]
  rw [show (engine.resolve target).resolved.lookup id = _ from resolved]
  rfl

theorem contribution_layer {policy : Policy} (among : policy ∈ engine.contributions target) :
    policy.layer ∈ layersTo target ∧ policy ∈ engine.policies policy.layer := by
  obtain ⟨layer, above, held⟩ := mem_flatMap.mp among
  rw [engine.keyed layer policy held]
  exact ⟨above, held⟩

end GovernanceEngine

theorem foldl_deeper {engine : GovernanceEngine} {mandatory : Policy}
    (registered : mandatory ∈ engine.policies layer) (binding : mandatory.mode = .mandatory)
    (deeper : target.precedence ≤ layer.precedence)
    (later : ∀ other, other.precedence < layer.precedence → target.precedence ≤ other.precedence →
    ∀ policy ∈ engine.policies other, policy.id = mandatory.id → policy.mergeStrategy ≠ .override) :
    ((engine.contributions target).filter (fun policy => policy.id = mandatory.id)).foldl mergeInto (none, none) =
      ((engine.contributions layer).filter (fun policy => policy.id = mandatory.id)).foldl mergeInto
        (none, none) := by
  obtain ⟨below, walk, lower⟩ := layersTo_deeper deeper
  have split : engine.contributions target = engine.contributions layer ++ below.flatMap engine.policies := by
    rw [GovernanceEngine.contributions, walk, flatMap_append]
    rfl
  have own : mandatory ∈ engine.contributions layer :=
    mem_flatMap.mpr ⟨layer, mem_layersTo.mpr le_rfl, registered⟩
  rw [split, filter_append, foldl_append]
  apply foldl_barred
  intro policy among
  obtain ⟨among, same⟩ := mem_filter.mp among
  obtain ⟨other, further, held⟩ := mem_flatMap.mp among
  -- the id is held by a layer above, and this contribution comes from further down
  have held_by : (((engine.contributions layer).filter (fun policy => policy.id = mandatory.id)).foldl mergeInto
      (none, none)).2.isSome :=
    mandatory_held (mem_filter.mpr ⟨own, by simp⟩) binding
  obtain ⟨by_layer, is⟩ := isSome_iff_exists.mp held_by
  refine barred_iff.mpr ⟨by_layer, is, ?_, ?_⟩
  · rcases mandatory_from is with none | ⟨source, among, -, rfl⟩
    · cases none
    · have above := mem_layersTo.mp (GovernanceEngine.contribution_layer (mem_of_mem_filter among)).1
      have down := lower other further
      rw [engine.keyed other policy held]
      rintro rfl
      omega
  · have within : other ∈ layersTo target := by
      rw [walk]
      exact mem_append_right _ further
    exact later other (lower other further) (mem_layersTo.mp within) policy held (by simpa using same)

/-- A mandatory contribution that is let in whole: it overrides, or nothing came before it under its id, or it
merges, is not kept out, and brings rules with fresh and distinct ids; and the rest of its layer only merges. -/
structure LetIn (earlier : List Policy) (mandatory : Policy) (later : List Policy) : Prop where
  before : mandatory.mergeStrategy = .override ∨ (∀ policy ∈ earlier, policy.id ≠ mandatory.id) ∨
    (mandatory.mergeStrategy = .merge ∧ (mandatory.rules.map (·.id)).Nodup ∧
      ∀ policy ∈ earlier, policy.id = mandatory.id →
        (policy.mode = .mandatory → policy.layer = mandatory.layer) ∧
        ∀ held ∈ policy.rules, ∀ rule ∈ mandatory.rules, held.id ≠ rule.id)
  after : ∀ policy ∈ later, policy.id = mandatory.id → policy.mergeStrategy = .merge

theorem enforced_of_letIn {engine : GovernanceEngine} {mandatory : Policy}
    {earlier later : List Policy} (order : engine.contributions layer = earlier ++ mandatory :: later)
    (letIn : LetIn earlier mandatory later) :
    ∀ rule ∈ mandatory.rules, engine.Enforced layer mandatory.id rule := by
  intro rule among
  rw [GovernanceEngine.enforced_iff, order, filter_append, filter_cons_of_pos (by simp), foldl_append,
    foldl_cons]
  set held := (earlier.filter (fun policy => policy.id = mandatory.id)).foldl mergeInto (none, none) with held_eq
  have taken : ∃ policy, (mergeInto held mandatory).1 = some policy ∧ rule ∈ policy.rules := by
    rcases letIn.before with overrides | fresh | ⟨merges, distinct, compatible⟩
    · rcases mergeInto_cases held mandatory with ⟨kept, -⟩ | ⟨-, policy, into, -, how⟩
      · exact absurd kept (not_barred_of_override overrides)
      · rcases how with ⟨rfl, -⟩ | ⟨_, -, -, -, ⟨merges, -⟩ | ⟨intersects, -⟩⟩
        · exact ⟨policy, into, among⟩
        · rw [overrides] at merges
          cases merges
        · rw [overrides] at intersects
          cases intersects
    · have empty : earlier.filter (fun policy => policy.id = mandatory.id) = [] := by
        simpa [filter_eq_nil_iff] using fresh
      rw [held_eq, empty]
      exact ⟨mandatory, by simp [mergeInto, barred], among⟩
    · rcases mergeInto_cases held mandatory with ⟨kept, -⟩ | ⟨-, policy, into, -, how⟩
      · obtain ⟨by_layer, is, differs, -⟩ := barred_iff.mp kept
        rcases mandatory_from is with none | ⟨source, found, binding, rfl⟩
        · cases none
        · obtain ⟨before, same⟩ := mem_filter.mp found
          exact absurd ((compatible source before (by simpa using same)).1 binding).symm differs
      · rcases how with ⟨rfl, -⟩ | ⟨existing, found, -, -, ⟨-, rules⟩ | ⟨intersects, -⟩⟩
        · exact ⟨policy, into, among⟩
        · refine ⟨policy, into, rules ▸ pushRules_fresh distinct ?_ rule among⟩
          intro before held_rule
          rcases rules_from found held_rule with ⟨_, none, -⟩ | ⟨source, listed, from_⟩
          · cases none
          · obtain ⟨listed, same⟩ := mem_filter.mp listed
            exact (compatible source listed (by simpa using same)).2 before from_
        · rw [merges] at intersects
          cases intersects
  obtain ⟨policy, into, among⟩ := taken
  exact rules_kept into among (fun other found => by
    obtain ⟨listed, same⟩ := mem_filter.mp found
    exact letIn.after other listed (by simpa using same))

/-- What is enforced of a mandatory contribution at its own layer stays enforced further down, and this is
all of it where it is let in whole. -/
theorem mandatory_binds (engine : GovernanceEngine) (layer target : KnowledgeLayer) (mandatory : Policy)
    (registered : mandatory ∈ engine.policies layer) (binding : mandatory.mode = .mandatory)
    (deeper : target.precedence ≤ layer.precedence)
    (later : ∀ other, other.precedence < layer.precedence → target.precedence ≤ other.precedence →
      ∀ policy ∈ engine.policies other, policy.id = mandatory.id → policy.mergeStrategy ≠ .override) :
    (∀ rule ∈ mandatory.rules, engine.Enforced layer mandatory.id rule → engine.Enforced target mandatory.id rule) ∧
    (∀ earlier rest, engine.contributions layer = earlier ++ mandatory :: rest → LetIn earlier mandatory rest →
      ∀ rule ∈ mandatory.rules, engine.Enforced target mandatory.id rule) := by
  have same : ∀ rule, engine.Enforced layer mandatory.id rule → engine.Enforced target mandatory.id rule := by
    intro rule enforced
    rw [GovernanceEngine.enforced_iff] at enforced ⊢
    rw [foldl_deeper registered binding deeper later]
    exact enforced
  constructor
  · exact fun rule _ => same rule
  · intro earlier rest order letIn rule among
    exact same rule (enforced_of_letIn order letIn rule among)

def MandatoryBinds (engine : GovernanceEngine) : Prop :=
  ∀ layer target, target.precedence ≤ layer.precedence → ∀ mandatory ∈ engine.policies layer,
    mandatory.mode = .mandatory →
    (∀ other, other.precedence < layer.precedence → ∀ policy ∈ engine.policies other,
      policy.id = mandatory.id → policy.mergeStrategy ≠ .override) →
    ∀ rule ∈ mandatory.rules, engine.Enforced target mandatory.id rule

def samplePolicy (layer : KnowledgeLayer) (mode : PolicyMode) (strategy : RuleMergeStrategy) (rules : List String) :
    Policy where
  id := "secrets"
  layer := layer
  mode := mode
  mergeStrategy := strategy
  rules := rules.map (fun id =>
    { id := id, target := .code, operator := .mustNotMatch, value := .str id, severity := .block, message := id })

/-- A tenant's mandatory policy reaches the projects although an organization and a project merge with it. -/
theorem tenant_mandatory_binds : (GovernanceEngine.ofPolicies [samplePolicy .tenant .mandatory .merge ["a", "b"],
      samplePolicy .org .optional .merge ["c"], samplePolicy .project .optional .intersect ["c"]]).Enforced
      .project "secrets"
      { id := "a", target := .code, operator := .mustNotMatch, value := .str "a", severity := .block, message := "a" } := by
  refine (mandatory_binds _ .tenant .project (samplePolicy .tenant .mandatory .merge ["a", "b"]) ?_ rfl
    (by decide) ?_).2
    [] [] rfl ⟨Or.inr (Or.inl (by simp)), by simp⟩ _ (mem_cons_self ..)
  · exact mem_singleton.mpr rfl
  · intro other lower _ policy held _
    rw [ofPolicies_policies] at held
    simp only [mem_filter, mem_cons, not_mem_nil, or_false, decide_eq_true_eq] at held
    obtain ⟨rfl | rfl | rfl, rfl⟩ := held
    · exact absurd lower (by decide)
    · simp [samplePolicy]
    · simp [samplePolicy]

theorem not_mandatoryBinds {policies : List Policy} (mandatory : Policy) (listed : mandatory ∈ policies)
    (binding : mandatory.mode = .mandatory)
    (deepest : ∀ policy ∈ policies, mandatory.layer.precedence ≤ policy.layer.precedence) {rule : PolicyRule}
    (among : rule ∈ mandatory.rules)
    (missing : ¬ (GovernanceEngine.ofPolicies policies).Enforced mandatory.layer mandatory.id rule) :
    ¬ MandatoryBinds (GovernanceEngine.ofPolicies policies) := by
  intro binds
  refine missing (binds mandatory.layer mandatory.layer le_rfl mandatory ?_ binding ?_ rule among)
  · rw [ofPolicies_policies]
    exact mem_filter.mpr ⟨listed, by simp⟩
  · intro other lower policy held _
    rw [ofPolicies_policies] at held
    obtain ⟨held, same⟩ := mem_filter.mp held
    have above := deepest policy held
    rw [of_decide_eq_true same] at above
    omega

theorem not_enforced {engine : GovernanceEngine} {id : String} {rule : PolicyRule}
    (missing : ∀ policy, (engine.resolveInline target).resolved.lookup id = some policy →
    rule.id ∉ policy.rules.map (·.id)) :
    ¬ engine.Enforced target id rule := by
  rintro ⟨policy, found, among⟩
  exact missing policy found (List.mem_map_of_mem among)

/-- A second mandatory policy is kept out, an intersection adds nothing, and one layer may merge twice. -/
theorem mandatory_not_binding : ¬ MandatoryBinds (.ofPolicies [samplePolicy .tenant .mandatory .merge ["a"],
      samplePolicy .org .mandatory .merge ["b"]]) ∧
    ¬ MandatoryBinds (.ofPolicies [samplePolicy .tenant .optional .merge ["a"],
      samplePolicy .org .mandatory .intersect ["b"]]) ∧
    ¬ MandatoryBinds (.ofPolicies [samplePolicy .org .mandatory .merge ["b"],
      samplePolicy .org .optional .intersect []]) := by
  refine ⟨?_, ?_, ?_⟩
  · refine not_mandatoryBinds (samplePolicy .org .mandatory .merge ["b"])
      (by simp) rfl ?_ (mem_singleton.mpr rfl)
      (not_enforced ?_)
    · simp [samplePolicy, KnowledgeLayer.precedence]
    · intro policy found
      cases found
      decide
  · refine not_mandatoryBinds (samplePolicy .org .mandatory .intersect ["b"])
      (by simp) rfl ?_ (mem_singleton.mpr rfl)
      (not_enforced ?_)
    · simp [samplePolicy, KnowledgeLayer.precedence]
    · intro policy found
      cases found
      decide
  · refine not_mandatoryBinds (samplePolicy .org .mandatory .merge ["b"])
      (by simp) rfl ?_ (mem_singleton.mpr rfl)
      (not_enforced ?_)
    · simp [samplePolicy, KnowledgeLayer.precedence]
    · intro policy found
      cases found
      decide

variable (contributions : List Policy)

def placed : Option Policy :=
  ((contributions.filter (fun policy => policy.mergeStrategy = .override)).getLast?).or contributions.head?

def ModeReflects (id : String) (contributions : List Policy) : Prop :=
  ∀ before policy after, contributions = before ++ policy :: after → policy.mode = .mandatory →
    (∀ other ∈ after, other.mergeStrategy ≠ .override) →
    ∃ resolved, (contributions.foldl mergePolicy {}).resolved.lookup id = some resolved ∧ resolved.mode = .mandatory ∧
      ∀ (hash : Iteration) context, missingMandatory
        (hash.values (contributions.foldl mergePolicy {}).resolved) context = []

theorem placed_append (policy : Policy) : placed (contributions ++ [policy]) =
    if policy.mergeStrategy = .override then some policy else (placed contributions).or (some policy) := by
  by_cases overrides : policy.mergeStrategy = .override
  · simp [placed, overrides]
  · cases contributions <;> simp [placed, overrides]

theorem resolved_mode :
    (contributions.foldl mergeInto (none, none)).1.map (·.mode) = (placed contributions).map (·.mode) := by
  induction contributions using reverseRecOn with
  | nil => rfl
  | append_singleton contributions policy ih =>
    rw [foldl_append, foldl_cons, foldl_nil, placed_append]
    set held := contributions.foldl mergeInto (none, none)
    rcases mergeInto_cases held policy with ⟨kept, same⟩ | ⟨-, merged, into, -, how⟩
    · obtain ⟨layer, binds, -, keeps⟩ := barred_iff.mp kept
      rw [same, if_neg keeps, ih]
      -- something held the id, so something was placed
      rcases mandatory_from binds with none | ⟨source, among, -, -⟩
      · cases none
      · cases found : placed contributions with
        | some first => rfl
        | none =>
          obtain ⟨-, empty⟩ := or_eq_none_iff.mp found
          rw [head?_eq_none_iff.mp empty] at among
          cases among
    · rw [into]
      rcases how with ⟨rfl, overrides | none⟩ | ⟨existing, found, -, mode, how⟩
      · rw [if_pos overrides]
      · rw [none, map_none] at ih
        rw [map_eq_none_iff.mp ih.symm, none_or, ite_self]
      · have keeps : policy.mergeStrategy ≠ .override := by
          rcases how with ⟨merges, -⟩ | ⟨intersects, -⟩
          · simp [merges]
          · simp [intersects]
        rw [found, map_some] at ih
        obtain ⟨first, placed_first, same⟩ := map_eq_some_iff.mp ih.symm
        rw [if_neg keeps, placed_first, some_or, map_some, map_some, same, mode]

theorem missingMandatory_nil {id : String} {state : Resolution} {policy : Policy}
    (found : state.resolved.lookup id = some policy) (mode : policy.mode = .mandatory) (hash : Iteration)
    (context : Context) :
    missingMandatory (hash.values state.resolved) context = [] := by
  have entry : policy ∈ state.resolved.entries.map (·.2) :=
    List.mem_map.mpr ⟨⟨id, policy⟩, AList.mem_lookup_iff.mp found, rfl⟩
  have listed := (hash.perm _).mem_iff.mpr entry
  rw [missingMandatory, if_neg]
  intro empty
  have counted : policy ∈ (hash.values state.resolved).filter (fun policy => policy.mode = .mandatory) :=
    mem_filter.mpr ⟨listed, by simpa using mode⟩
  rw [length_eq_zero_iff.mp empty] at counted
  cases counted

/-- The mode reflects the contributors exactly where a surviving mandatory one sits on a mandatory one. -/
theorem modeReflects_iff (id : String) (contributions : List Policy)
    (own : ∀ policy ∈ contributions, policy.id = id) :
    ModeReflects id contributions ↔
      ∀ before policy after, contributions = before ++ policy :: after → policy.mode = .mandatory →
        (∀ other ∈ after, other.mergeStrategy ≠ .override) →
        ∃ first, placed contributions = some first ∧ first.mode = .mandatory := by
  have all : contributions.filter (fun policy => policy.id = id) = contributions := by
    simpa [filter_eq_self] using own
  have resolved : (contributions.foldl mergePolicy {}).resolved.lookup id =
      (contributions.foldl mergeInto (none, none)).1 := by
    have view := congrArg Prod.fst (view_foldl contributions {} id)
    rw [all] at view
    exact view
  have mode := resolved_mode contributions
  constructor
  · intro reflects before policy after split binding survives
    obtain ⟨merged, found, is, -⟩ := reflects before policy after split binding survives
    rw [← resolved, found, map_some, is] at mode
    exact map_eq_some_iff.mp mode.symm
  · intro sits before policy after split binding survives
    obtain ⟨first, placed_first, is⟩ := sits before policy after split binding survives
    rw [placed_first, map_some, is, ← resolved] at mode
    obtain ⟨merged, found, is⟩ := map_eq_some_iff.mp mode
    exact ⟨merged, found, is, fun hash context => missingMandatory_nil found is hash context⟩

theorem tenant_mode_reflects : ModeReflects "secrets" [samplePolicy .tenant .mandatory .merge ["a"],
      samplePolicy .org .optional .merge ["b"]] := by
  refine (modeReflects_iff "secrets" _ ?_).mpr ?_
  · simp [samplePolicy]
  · intro before policy after _ _ _
    exact ⟨samplePolicy .tenant .mandatory .merge ["a"], rfl, rfl⟩

theorem mode_forgets_mandatory : ¬ ModeReflects "secrets" [samplePolicy .tenant .optional .merge ["a"],
      samplePolicy .org .mandatory .merge ["b"]] := by
  intro reflects
  obtain ⟨resolved, found, mode, -⟩ := reflects [samplePolicy .tenant .optional .merge ["a"]] _ [] rfl rfl (by simp)
  cases found
  cases mode

end Aeterna.Governance
