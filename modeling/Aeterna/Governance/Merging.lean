import Aeterna.Governance.Engine
import Aeterna.Lib.KeyedFold

namespace Aeterna.Governance
open List GovernanceEngine

abbrev Held : Type := Option Policy × Option KnowledgeLayer

def Resolution.view (state : Resolution) (id : String) : Held := (state.resolved.lookup id, state.mandatory.lookup id)

def mergeInto (held : Held) (incoming : Policy) : Held :=
  if barred held.2 incoming then held
  else (some ((held.1.map (mergeExisting · incoming)).getD incoming),
    if incoming.mode = .mandatory then some incoming.layer else held.2)

theorem mergePolicy_keyed : Lib.Keyed (fun _ : Policy => True) Resolution.view (·.id) mergePolicy mergeInto where
  same state incoming _ := by
    unfold mergePolicy mergeInto Resolution.view
    by_cases kept : barred (state.mandatory.lookup incoming.id) incoming
    · rw [if_pos kept, if_pos kept]
    · rw [if_neg kept, if_neg kept]
      by_cases binding : incoming.mode = .mandatory <;> cases found : state.resolved.lookup incoming.id <;>
        simp [binding]
  other state incoming id _ differs := by
    unfold mergePolicy Resolution.view
    by_cases kept : barred (state.mandatory.lookup incoming.id) incoming
    · rw [if_pos kept]
    · rw [if_neg kept]
      by_cases binding : incoming.mode = .mandatory <;> cases found : state.resolved.lookup incoming.id <;>
        simp [binding, AList.lookup_insert_ne differs]

theorem view_foldl (policies : List Policy) (state : Resolution) (id : String) :
    (policies.foldl mergePolicy state).view id = (policies.filter (fun policy => policy.id = id)).foldl mergeInto
      (state.view id) :=
  mergePolicy_keyed.foldl (fun _ _ => trivial) state id

variable {mandatory : Option KnowledgeLayer} {incoming rules : List PolicyRule} {rule : PolicyRule}
variable {contributions : List Policy} {held : Held}

theorem barred_iff {incoming : Policy} : barred mandatory incoming ↔
    ∃ layer, mandatory = some layer ∧ incoming.layer ≠ layer ∧ incoming.mergeStrategy ≠ .override := by
  cases mandatory <;> simp [barred]

theorem not_barred_of_override {incoming : Policy} (overrides : incoming.mergeStrategy = .override) :
    ¬ barred mandatory incoming := by
  rw [barred_iff]
  rintro ⟨layer, -, -, differs⟩
  exact differs overrides

theorem mergeInto_cases (held : Held) (incoming : Policy) :
    (barred held.2 incoming ∧ mergeInto held incoming = held) ∨
    ¬ barred held.2 incoming ∧ ∃ policy, (mergeInto held incoming).1 = some policy ∧
      (mergeInto held incoming).2 = (if incoming.mode = .mandatory then some incoming.layer else held.2) ∧
      ((policy = incoming ∧ (incoming.mergeStrategy = .override ∨ held.1 = none)) ∨
       ∃ existing, held.1 = some existing ∧ policy.id = existing.id ∧ policy.mode = existing.mode ∧
        ((incoming.mergeStrategy = .merge ∧ policy.rules = incoming.rules.foldl pushRule existing.rules) ∨
         (incoming.mergeStrategy = .intersect ∧ policy.rules =
            existing.rules.filter (fun rule => incoming.rules.any (fun other => other.id = rule.id))))) := by
  by_cases kept : barred held.2 incoming
  · exact Or.inl ⟨kept, if_pos kept⟩
  · refine Or.inr ⟨kept, (held.1.map (mergeExisting · incoming)).getD incoming, by rw [mergeInto, if_neg kept],
      by rw [mergeInto, if_neg kept], ?_⟩
    cases found : held.1 with
    | none => exact Or.inl ⟨rfl, Or.inr rfl⟩
    | some existing =>
      cases strategy : incoming.mergeStrategy with
      | override => exact Or.inl ⟨by simp [mergeExisting, strategy], Or.inl rfl⟩
      | merge => exact Or.inr ⟨existing, rfl, by simp [mergeExisting, strategy]⟩
      | intersect => exact Or.inr ⟨existing, rfl, by simp [mergeExisting, strategy]⟩

theorem mem_pushRules (held : rule ∈ rules) : rule ∈ incoming.foldl pushRule rules := by
  induction incoming generalizing rules with
  | nil => exact held
  | cons first rest ih =>
    apply ih
    unfold pushRule
    split
    · exact held
    · exact mem_append_left _ held

theorem mem_of_pushRules (held : rule ∈ incoming.foldl pushRule rules) : rule ∈ rules ∨ rule ∈ incoming := by
  induction incoming generalizing rules with
  | nil => exact Or.inl held
  | cons first rest ih =>
    rcases ih held with found | found
    · unfold pushRule at found
      split at found
      · exact Or.inl found
      · rcases mem_append.mp found with found | found
        · exact Or.inl found
        · exact Or.inr (mem_singleton.mp found ▸ mem_cons_self)
    · exact Or.inr (mem_cons_of_mem _ found)

theorem pushRules_fresh (distinct : (incoming.map (·.id)).Nodup)
    (fresh : ∀ held ∈ rules, ∀ rule ∈ incoming, held.id ≠ rule.id) :
    ∀ rule ∈ incoming, rule ∈ incoming.foldl pushRule rules := by
  induction incoming generalizing rules with
  | nil => simp
  | cons first rest ih =>
    obtain ⟨new, distinct⟩ := nodup_cons.mp distinct
    have pushed : pushRule rules first = rules ++ [first] := by
      rw [pushRule, if_neg]
      simpa using fun held among => fresh held among first mem_cons_self
    intro rule among
    rw [foldl_cons, pushed]
    rcases mem_cons.mp among with rfl | among
    · exact mem_pushRules (mem_append_right _ (mem_singleton.mpr rfl))
    · refine ih distinct ?_ rule among
      intro held before other later
      rcases mem_append.mp before with before | before
      · exact fresh held before other (mem_cons_of_mem _ later)
      · rw [mem_singleton.mp before]
        exact fun same => new (mem_map.mpr ⟨other, later, same.symm⟩)

theorem mandatory_from {layer : KnowledgeLayer} (binds : (contributions.foldl mergeInto held).2 = some layer) :
    held.2 = some layer ∨ ∃ policy ∈ contributions, policy.mode = .mandatory ∧ policy.layer = layer := by
  induction contributions generalizing held with
  | nil => exact Or.inl binds
  | cons first rest ih =>
    rcases ih binds with before | ⟨policy, among, found⟩
    · rcases mergeInto_cases held first with ⟨-, same⟩ | ⟨-, policy, -, mandatory, -⟩
      · exact Or.inl (same ▸ before)
      · rw [mandatory] at before
        by_cases binding : first.mode = .mandatory
        · rw [if_pos binding, Option.some.injEq] at before
          exact Or.inr ⟨first, mem_cons_self, binding, before⟩
        · rw [if_neg binding] at before
          exact Or.inl before
    · exact Or.inr ⟨policy, mem_cons_of_mem _ among, found⟩

theorem mandatory_stays (binds : held.2.isSome) : (contributions.foldl mergeInto held).2.isSome := by
  induction contributions generalizing held with
  | nil => exact binds
  | cons first rest ih =>
    apply ih
    rcases mergeInto_cases held first with ⟨-, same⟩ | ⟨-, policy, -, mandatory, -⟩
    · rw [same]
      exact binds
    · rw [mandatory]
      split
      · rfl
      · exact binds

theorem mandatory_held {policy : Policy} (among : policy ∈ contributions) (binding : policy.mode = .mandatory) :
    (contributions.foldl mergeInto held).2.isSome := by
  obtain ⟨before, after, rfl⟩ := append_of_mem among
  rw [foldl_append, foldl_cons]
  apply mandatory_stays
  rcases mergeInto_cases (before.foldl mergeInto held) policy with ⟨kept, same⟩ | ⟨-, resolved, -, mandatory, -⟩
  · obtain ⟨layer, held, -⟩ := barred_iff.mp kept
    rw [same, held]
    rfl
  · rw [mandatory, if_pos binding]
    rfl

theorem foldl_barred (kept : ∀ policy ∈ contributions, barred held.2 policy) :
    contributions.foldl mergeInto held = held := by
  induction contributions with
  | nil => rfl
  | cons first rest ih =>
    rw [foldl_cons, mergeInto, if_pos (kept first mem_cons_self)]
    exact ih (fun policy among => kept policy (mem_cons_of_mem _ among))

theorem rules_from {policy : Policy}
    (resolved : (contributions.foldl mergeInto held).1 = some policy) (among : rule ∈ policy.rules) :
    (∃ existing, held.1 = some existing ∧ rule ∈ existing.rules) ∨ ∃ source ∈ contributions, rule ∈ source.rules := by
  induction contributions generalizing held with
  | nil => exact Or.inl ⟨policy, resolved, among⟩
  | cons first rest ih =>
    rcases ih resolved with ⟨existing, after, among⟩ | ⟨source, later, among⟩
    · rcases mergeInto_cases held first with ⟨-, same⟩ | ⟨-, merged, into, -, how⟩
      · exact Or.inl ⟨existing, same ▸ after, among⟩
      · rw [after, Option.some.injEq] at into
        subst into
        rcases how with ⟨rfl, -⟩ | ⟨before, found, -, -, ⟨-, rules⟩ | ⟨-, rules⟩⟩
        · exact Or.inr ⟨existing, mem_cons_self, among⟩
        · rw [rules] at among
          rcases mem_of_pushRules among with among | among
          · exact Or.inl ⟨before, found, among⟩
          · exact Or.inr ⟨first, mem_cons_self, among⟩
        · rw [rules] at among
          exact Or.inl ⟨before, found, mem_of_mem_filter among⟩
    · exact Or.inr ⟨source, mem_cons_of_mem _ later, among⟩

theorem rules_kept {existing : Policy} (found : held.1 = some existing) (among : rule ∈ existing.rules)
    (merging : ∀ policy ∈ contributions, policy.mergeStrategy = .merge) :
    ∃ policy, (contributions.foldl mergeInto held).1 = some policy ∧ rule ∈ policy.rules := by
  induction contributions generalizing held existing with
  | nil => exact ⟨existing, found, among⟩
  | cons first rest ih =>
    have merges := merging first mem_cons_self
    have later := fun policy member => merging policy (mem_cons_of_mem _ member)
    rcases mergeInto_cases held first with ⟨-, same⟩ | ⟨-, merged, into, -, how⟩
    · rw [foldl_cons, same]
      exact ih found among later
    · rcases how with ⟨rfl, overrides | none⟩ | ⟨before, held_, -, -, ⟨-, rules⟩ | ⟨intersects, -⟩⟩
      · rw [merges] at overrides
        cases overrides
      · rw [none] at found
        cases found
      · rw [found, Option.some.injEq] at held_
        subst held_
        exact ih into (rules ▸ mem_pushRules among) later
      · rw [merges] at intersects
        cases intersects

theorem relayered (engine : GovernanceEngine) (layer : KnowledgeLayer) :
    (engine.policies layer).map (fun policy => { policy with layer := layer }) = engine.policies layer := by
  conv_rhs => rw [← map_id (engine.policies layer)]
  apply map_congr_left
  intro policy held
  rw [← engine.keyed layer policy held]
  rfl

theorem resolveInline_eq (engine : GovernanceEngine) (target : KnowledgeLayer) :
    engine.resolveInline target = engine.resolve target := by
  simp only [resolveInline, resolve, GovernanceEngine.contributions, relayered,
    foldl_flatMap]

/-- Both paths report the same violations, in whatever order their hash maps give the policies. -/
theorem validations_agree (engine : GovernanceEngine) (regex : Regex) (inline resolved : Iteration)
    (target : KnowledgeLayer) (context : Context) :
    ((engine.validate regex inline target context).violations.Perm
      (engine.validateWithContext regex resolved target context).violations) ∧
    (engine.validate regex inline target context).isValid =
      (engine.validateWithContext regex resolved target context).isValid := by
  have policies : ((inline.values (engine.resolve target).resolved).insertionSort
      (fun a b => b.layer.precedence ≤ a.layer.precedence)).Perm (engine.resolveActivePolicies resolved target) :=
    ((perm_insertionSort _ _).trans (inline.perm _)).trans (resolved.perm _).symm
  have violations : ((engine.validate regex inline target context).violations.Perm
      (engine.validateWithContext regex resolved target context).violations) := by
    simp only [validate, validateWithContext, resolveInline_eq]
    exact policies.flatMap_right _
  refine ⟨violations, ?_⟩
  have lengths := violations.length_eq
  rw [Bool.eq_iff_iff]
  simp only [validate, validateWithContext,
    isEmpty_iff_length_eq_zero] at lengths ⊢
  rw [lengths]

end Aeterna.Governance
