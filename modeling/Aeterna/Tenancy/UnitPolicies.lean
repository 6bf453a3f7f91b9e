import Aeterna.Governance.Engine
import Aeterna.Lib.Sequences
import Aeterna.Tenancy.UnitTable

/-!
The policies of units (`storage/src/postgres.rs`): `unit_policies` has one row for a policy id, whatever the unit.
-/

namespace Aeterna.Tenancy
open Lib (Table run recorded Throughout Along)
open List Option

/-- `Policy`, with the fields that merging does not read. -/
structure UnitPolicy extends Governance.Policy where
  name : String
  description : Option String := none

structure PolicyColumn (Doc : Type) where
  toValue : UnitPolicy → Except PostgresError Doc
  fromValue : Doc → Except PostgresError UnitPolicy
  readsBack : ∀ {policy doc}, toValue policy = .ok doc → fromValue doc = .ok policy

structure UnitPolicyRow (Doc : Type) where
  unitId : String
  policy : Doc
  (createdAt updatedAt : Int)

structure PolicyStore (Doc : Type) where
  units : UnitTable
  policies : Table String (UnitPolicyRow Doc) := {}

/-- A call of `add_unit_policy`, with the times at which it reads the clock. -/
structure AddUnitPolicy where
  (tenantId unitId : String)
  policy : UnitPolicy
  createdAt : Int := 0
  updatedAt : Int := 0

section
variable {Doc : Type} (column : PolicyColumn Doc) (s : PolicyStore Doc)

def addUnitPolicy (call : AddUnitPolicy) : Except PostgresError (PolicyStore Doc) :=
  if (s.units.rowOf call.tenantId call.unitId).isNone then .error (.notFound call.unitId)
  else (column.toValue call.policy).map (fun doc => { s with
    policies := s.policies.upsert call.policy.id ⟨call.unitId, doc, call.createdAt, call.updatedAt⟩
      (fun old => { old with policy := doc, updatedAt := call.updatedAt }) })

def unitPolicyRows (tenantId unitId : String) : List (String × UnitPolicyRow Doc) :=
  s.policies.rows.filter (fun e => e.2.unitId = unitId ∧ (s.units.rowOf tenantId e.2.unitId).isSome)

def getUnitPolicies (tenantId unitId : String) : Except PostgresError (List UnitPolicy) :=
  (unitPolicyRows s tenantId unitId).mapM (fun e => column.fromValue e.2.policy)

def addStep (s : PolicyStore Doc) (call : AddUnitPolicy) : Option (PolicyStore Doc) :=
  (addUnitPolicy column s call).toOption

end

def latest (made : List AddUnitPolicy) (tenantId unitId policyId : String) : Option UnitPolicy :=
  (made.reverse.find? (fun call => call.tenantId = tenantId ∧ call.unitId = unitId ∧ call.policy.id = policyId)).map
    (·.policy)

theorem latest_append (made : List AddUnitPolicy) (call : AddUnitPolicy) (tenantId unitId policyId : String) :
    latest (made ++ [call]) tenantId unitId policyId =
      if call.tenantId = tenantId ∧ call.unitId = unitId ∧ call.policy.id = policyId then some call.policy
      else latest made tenantId unitId policyId := by
  unfold latest
  rw [reverse_append, reverse_singleton, singleton_append, find?_cons]
  split
  · rename_i hit
    rw [if_pos (of_decide_eq_true hit)]
    rfl
  · rename_i missed
    rw [if_neg (of_decide_eq_false missed)]

theorem latest_mem {made : List AddUnitPolicy} {tenantId unitId policyId : String} {policy : UnitPolicy}
    (found : latest made tenantId unitId policyId = some policy) :
    ∃ call ∈ made, call.tenantId = tenantId ∧ call.unitId = unitId ∧ call.policy.id = policyId := by
  obtain ⟨call, first, _⟩ := map_eq_some_iff.mp found
  have hit := find?_some first
  simp only [decide_eq_true_eq] at hit
  exact ⟨call, mem_reverse.mp (mem_of_find?_eq_some first), hit⟩

theorem latest_of_mem {made : List AddUnitPolicy} {call : AddUnitPolicy} (member : call ∈ made) :
    ∃ policy, latest made call.tenantId call.unitId call.policy.id = some policy := by
  cases found : latest made call.tenantId call.unitId call.policy.id with
  | some policy => exact ⟨policy, rfl⟩
  | none =>
    have missing := find?_eq_none.mp (map_eq_none_iff.mp found) call (mem_reverse.mpr member)
    simp at missing

section
variable {Doc : Type} (column : PolicyColumn Doc)

variable (state : PolicyStore Doc × List AddUnitPolicy)

def ReadsLatest : Prop :=
  ∀ tenantId unitId, ∃ policies, getUnitPolicies column state.1 tenantId unitId = .ok policies ∧
    (policies.map (·.id)).Nodup ∧
    ∀ policy, policy ∈ policies ↔ latest state.2 tenantId unitId policy.id = some policy

structure Matches : Prop where
  keyed : ∀ id row, state.1.policies.get id = some row →
    ∃ policy, column.fromValue row.policy = .ok policy ∧ policy.id = id
  owned : ∀ id row, state.1.policies.get id = some row → ∃ tenantId, (state.1.units.rowOf tenantId row.unitId).isSome
  holds : ∀ tenantId unitId id policy, latest state.2 tenantId unitId id = some policy ↔
    (state.1.units.rowOf tenantId unitId).isSome ∧
      ∃ row, state.1.policies.get id = some row ∧ row.unitId = unitId ∧ column.fromValue row.policy = .ok policy

def SameUnit (earlier call : AddUnitPolicy) : Prop := earlier.policy.id = call.policy.id →
    earlier.unitId = call.unitId

variable {column} {s next last : PolicyStore Doc} {made calls : List AddUnitPolicy} {call : AddUnitPolicy}

theorem addStep_some (ran : addStep column s call = some next) :
    (s.units.rowOf call.tenantId call.unitId).isSome ∧ ∃ doc, column.fromValue doc = .ok call.policy ∧
      next.units = s.units ∧
      next.policies = s.policies.upsert call.policy.id ⟨call.unitId, doc, call.createdAt, call.updatedAt⟩
        (fun old => { old with policy := doc, updatedAt := call.updatedAt }) := by
  unfold addStep addUnitPolicy at ran
  split at ran
  · cases ran
  · rename_i held
    refine ⟨by simpa [isSome_iff_ne_none] using held, ?_⟩
    cases written : column.toValue call.policy with
    | error e =>
      rw [written] at ran
      cases ran
    | ok doc =>
      rw [written] at ran
      cases ran
      exact ⟨doc, column.readsBack written, rfl, rfl⟩

theorem mem_unitPolicyRows {tenantId unitId : String} {e : String × UnitPolicyRow Doc} :
    e ∈ unitPolicyRows s tenantId unitId ↔
      s.policies.get e.1 = some e.2 ∧ e.2.unitId = unitId ∧ (s.units.rowOf tenantId unitId).isSome := by
  obtain ⟨id, row⟩ := e
  rw [unitPolicyRows, mem_filter, ← Table.get_eq_some, decide_eq_true_eq]
  constructor
  · rintro ⟨held, rfl, own⟩
    exact ⟨held, rfl, own⟩
  · rintro ⟨held, rfl, own⟩
    exact ⟨held, rfl, own⟩

theorem mem_getUnitPolicies {tenantId unitId : String} {policies : List UnitPolicy} {policy : UnitPolicy}
    (read : getUnitPolicies column s tenantId unitId = .ok policies) :
    policy ∈ policies ↔ (s.units.rowOf tenantId unitId).isSome ∧
      ∃ id row, s.policies.get id = some row ∧ row.unitId = unitId ∧ column.fromValue row.policy = .ok policy := by
  have same := Lib.mapM_eq_ok.mp read
  have shown : policy ∈ policies ↔ ∃ e ∈ unitPolicyRows s tenantId unitId,
      column.fromValue e.2.policy = .ok policy := by
    rw [← List.mem_map, same]
    simp
  rw [shown]
  constructor
  · rintro ⟨⟨id, row⟩, member, read⟩
    obtain ⟨held, there, own⟩ := mem_unitPolicyRows.mp member
    exact ⟨own, id, row, held, there, read⟩
  · rintro ⟨own, id, row, held, there, read⟩
    exact ⟨(id, row), mem_unitPolicyRows.mpr ⟨held, there, own⟩, read⟩

theorem Matches.readsLatest (found : Matches column (s, made)) : ReadsLatest column (s, made) := by
  intro tenantId unitId
  have legible : ∀ e ∈ unitPolicyRows s tenantId unitId, ∃ policy, column.fromValue e.2.policy = .ok policy ∧
      policy.id = e.1 :=
    fun e member => found.keyed e.1 e.2 (mem_unitPolicyRows.mp member).1
  have read : ∃ policies, getUnitPolicies column s tenantId unitId = .ok policies := by
    unfold getUnitPolicies
    generalize unitPolicyRows s tenantId unitId = rows at legible
    induction rows with
    | nil => exact ⟨[], rfl⟩
    | cons e rest ih =>
      obtain ⟨policy, first, _⟩ := legible e mem_cons_self
      obtain ⟨policies, later⟩ := ih (fun other member => legible other (mem_cons_of_mem _ member))
      refine ⟨policy :: policies, ?_⟩
      rw [mapM_cons, first, later]
      rfl
  obtain ⟨policies, read⟩ := read
  refine ⟨policies, read, ?_, fun policy => ?_⟩
  · -- the ids that are read are the keys of the rows
    have same := congrArg (map (Except.map (·.id))) (Lib.mapM_eq_ok.mp read)
    rw [List.map_map, List.map_map] at same
    have keys : (policies.map (·.id)).map Except.ok =
        ((unitPolicyRows s tenantId unitId).map Prod.fst).map (Except.ok (ε := PostgresError)) := by
      rw [List.map_map, List.map_map]
      refine Eq.trans same.symm (map_congr_left (fun e member => ?_))
      obtain ⟨policy, shown, key⟩ := legible e member
      simp [shown, Except.map, key]
    rw [map_injective_iff.mpr (fun _ _ => Except.ok.inj) keys]
    exact Table.selected_unique s.policies _
  · rw [mem_getUnitPolicies read, found.holds]
    refine and_congr_right (fun own => ?_)
    constructor
    · rintro ⟨id, row, held, there, read⟩
      obtain ⟨other, shown, key⟩ := found.keyed id row held
      rw [read] at shown
      cases shown
      exact ⟨row, by rw [key]; exact held, there, read⟩
    · rintro ⟨row, held, there, read⟩
      exact ⟨policy.id, row, held, there, read⟩

theorem rowOf_tenant_eq {t : UnitTable} {tenantId other id : String} (own : (t.rowOf tenantId id).isSome)
    (own' : (t.rowOf other id).isSome) : tenantId = other := by
  obtain ⟨row, held⟩ := isSome_iff_exists.mp own
  obtain ⟨row', held'⟩ := isSome_iff_exists.mp own'
  obtain ⟨found, rfl⟩ := UnitTable.rowOf_eq_some.mp held
  obtain ⟨found', rfl⟩ := UnitTable.rowOf_eq_some.mp held'
  rw [found] at found'
  cases found'
  rfl

theorem Matches.unitId_eq (found : Matches column (s, made)) (same : ∀ earlier ∈ made, SameUnit earlier call)
    {row : UnitPolicyRow Doc} (held : s.policies.get call.policy.id = some row) : row.unitId = call.unitId := by
  obtain ⟨policy, read, _⟩ := found.keyed _ row held
  obtain ⟨tenantId, own⟩ := found.owned _ row held
  obtain ⟨earlier, member, _, unit, id⟩ := latest_mem ((found.holds _ _ _ policy).mpr ⟨own, row, held, rfl, read⟩)
  rw [← unit]
  exact same earlier member id

theorem addStep_row (ran : addStep column s call = some next) : ∃ row, next.policies.get call.policy.id = some row ∧
    column.fromValue row.policy = .ok call.policy ∧
    row.unitId = ((s.policies.get call.policy.id).map (·.unitId)).getD call.unitId := by
  obtain ⟨_, doc, read, _, rows⟩ := addStep_some ran
  rw [rows, Table.get_upsert, if_pos rfl]
  cases s.policies.get call.policy.id with
  | none => exact ⟨_, rfl, read, rfl⟩
  | some old => exact ⟨_, rfl, read, rfl⟩

theorem addStep_other (ran : addStep column s call = some next) {id : String} (apart : id ≠ call.policy.id) :
    next.policies.get id = s.policies.get id := by
  obtain ⟨_, doc, _, _, rows⟩ := addStep_some ran
  rw [rows, Table.get_upsert, if_neg apart]

theorem Matches.add (found : Matches column (s, made)) (same : ∀ earlier ∈ made, SameUnit earlier call)
    (ran : addStep column s call = some next) : Matches column (next, made ++ [call]) := by
  obtain ⟨own, _, _, units, _⟩ := addStep_some ran
  obtain ⟨written, there, read, unit⟩ := addStep_row ran
  have unit : written.unitId = call.unitId := by
    rw [unit]
    cases held : s.policies.get call.policy.id with
    | none => rfl
    | some row => exact found.unitId_eq same held
  constructor
  · intro id row held
    by_cases key : id = call.policy.id
    · subst key
      rw [there] at held
      cases held
      exact ⟨_, read, rfl⟩
    · exact found.keyed id row (by rw [← addStep_other ran key]; exact held)
  · intro id row held
    dsimp only
    rw [units]
    by_cases key : id = call.policy.id
    · subst key
      rw [there] at held
      cases held
      exact ⟨call.tenantId, by rw [unit]; exact own⟩
    · exact found.owned id row (by rw [← addStep_other ran key]; exact held)
  · intro tenantId unitId id policy
    dsimp only
    rw [latest_append, units]
    by_cases key : id = call.policy.id
    · subst key
      simp only [there, Option.some.injEq, exists_eq_left', unit, read, Except.ok.injEq, and_true]
      by_cases place : call.unitId = unitId
      · subst place
        by_cases tenant : call.tenantId = tenantId
        · subst tenant
          simp [own]
        · -- the unit is of one tenant, and nothing is added to it for another
          have foreign : ¬ (s.units.rowOf tenantId call.unitId).isSome :=
            fun other => tenant (rowOf_tenant_eq own other)
          rw [if_neg (fun all => tenant all.1), found.holds]
          exact ⟨fun all => absurd all.1 foreign, fun all => absurd all.1 foreign⟩
      · rw [if_neg (fun all => place all.2), found.holds]
        constructor
        · rintro ⟨_, row, held, rfl, _⟩
          exact absurd (found.unitId_eq same held).symm place
        · rintro ⟨_, other, _⟩
          exact absurd other place
    · rw [if_neg (fun all => key all.2.2.symm), addStep_other ran key]
      exact found.holds tenantId unitId id policy

theorem sameUnit_of_readsLatest (found : Matches column (s, made)) (ran : addStep column s call = some next)
    (reads : ReadsLatest column (next, made ++ [call])) : ∀ earlier ∈ made, SameUnit earlier call := by
  intro earlier member id
  obtain ⟨policies, read, _, exactly⟩ := reads call.tenantId call.unitId
  have added := (exactly call.policy).mpr (by rw [latest_append, if_pos ⟨rfl, rfl, rfl⟩])
  obtain ⟨_, key, row, held, unit, shown⟩ := (mem_getUnitPolicies read).mp added
  by_cases same : key = call.policy.id
  · subst same
    obtain ⟨policy, first⟩ := latest_of_mem member
    rw [id] at first
    obtain ⟨_, old, before, place, _⟩ := (found.holds _ _ _ _).mp first
    obtain ⟨written, there, _, kept⟩ := addStep_row ran
    rw [before] at kept
    rw [there] at held
    cases held
    rw [← place, ← unit, kept]
    rfl
  · rw [addStep_other ran same] at held
    obtain ⟨policy, other, id'⟩ := found.keyed key row held
    rw [shown] at other
    cases other
    exact absurd id'.symm same

theorem Matches.empty (units : UnitTable) : Matches column (({ units } : PolicyStore Doc), []) := by
  constructor
  · intro id row held
    cases held
  · intro id row held
    cases held
  · intro tenantId unitId id policy
    constructor
    · intro absent
      cases absent
    · rintro ⟨_, row, held, _⟩
      cases held

/-- Exactly if no policy id is added to two units, the units are read with the latest versions of what was added to
them. -/
theorem getUnitPolicies_latest_iff {units : UnitTable} (ran : Lib.run (addStep column) { units } calls = some last) :
    Throughout (recorded (addStep column)) (ReadsLatest column) ({ units }, []) calls ↔ calls.Pairwise SameUnit := by
  let start : PolicyStore Doc × List AddUnitPolicy := ({ units }, [])
  have reads : Throughout (recorded (addStep column)) (ReadsLatest column) start calls ↔
      Along (recorded (addStep column))
        (fun state call => ∀ earlier ∈ state.2, SameUnit earlier call) start calls := by
    apply Lib.throughout_iff Matches.readsLatest
    · rintro ⟨s, made⟩ call next found same step
      obtain ⟨after, first, rfl⟩ := Lib.recorded_eq_some.mp step
      exact Matches.add found same first
    · rintro ⟨s, made⟩ call next found step reads
      obtain ⟨after, first, rfl⟩ := Lib.recorded_eq_some.mp step
      exact sameUnit_of_readsLatest found first reads
    · exact Matches.empty units
    · exact Lib.run_recorded ran
  rw [reads, Lib.along_recorded_iff ran]
  exact ⟨fun both => both.2, fun ordered => ⟨fun _ absent => absurd absent not_mem_nil, ordered⟩⟩

end

def plainColumn : PolicyColumn UnitPolicy where
  toValue := .ok
  fromValue := .ok
  readsBack := by
    intro policy doc written
    exact written.symm ▸ rfl

def sampleOrg (id tenantId : String) : String × OrgUnitRow :=
  (id, { name := id, kind := "organization", parentId := none, tenantId, createdAt := ⟨0, ""⟩, updatedAt := ⟨0, ""⟩ })

def sampleOrgs : UnitTable where
  rows := ⟨[sampleOrg "o1" "acme", sampleOrg "o2" "globex"], by decide⟩
  placesApart := by decide
  parentsHeld := by decide

def samplePolicy (id name : String) : UnitPolicy := { id, layer := .org, rules := [], name }

def sampleAdds (second : String) : List AddUnitPolicy :=
  [⟨"acme", "o1", samplePolicy "p" "first", 1, 1⟩, ⟨"globex", "o2", samplePolicy second "second", 2, 2⟩]

theorem getUnitPolicies_latest_sample : ∃ last,
    Lib.run (addStep plainColumn) { units := sampleOrgs } (sampleAdds "q") = some last ∧
    (Throughout (recorded (addStep plainColumn)) (ReadsLatest plainColumn) ({ units := sampleOrgs }, [])
      (sampleAdds "q") ↔
      (sampleAdds "q").Pairwise SameUnit) := by
  have ran : (Lib.run (addStep plainColumn) { units := sampleOrgs } (sampleAdds "q")).isSome := by decide +kernel
  obtain ⟨last, returned⟩ := isSome_iff_exists.mp ran
  exact ⟨last, returned, getUnitPolicies_latest_iff returned⟩

/-- The second tenant's policy takes the place of the first one's, and is not read for its own unit. -/
theorem getUnitPolicies_taken : ∃ last,
    Lib.run (addStep plainColumn) { units := sampleOrgs } (sampleAdds "p") = some last ∧
    ¬ ReadsLatest plainColumn (last, sampleAdds "p") := by
  have ran : (Lib.run (addStep plainColumn) { units := sampleOrgs } (sampleAdds "p")).isSome := by decide +kernel
  obtain ⟨last, returned⟩ := isSome_iff_exists.mp ran
  refine ⟨last, returned, fun reads => ?_⟩
  obtain ⟨policies, read, _, exactly⟩ := reads "globex" "o2"
  have added : latest (sampleAdds "p") "globex" "o2" "p" = some (samplePolicy "p" "second") := rfl
  have none_ : ((Lib.run (addStep plainColumn) { units := sampleOrgs } (sampleAdds "p")).map
      (fun s => (unitPolicyRows s "globex" "o2").length)) = some 0 := by decide +kernel
  rw [returned] at none_
  have empty := eq_nil_of_length_eq_zero (Option.some.inj none_)
  rw [getUnitPolicies, empty] at read
  cases read
  exact absurd ((exactly (samplePolicy "p" "second")).mpr added) not_mem_nil

end Aeterna.Tenancy
