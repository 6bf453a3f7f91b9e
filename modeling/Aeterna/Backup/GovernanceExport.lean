import Aeterna.Backup.Import
import Std.Data.String.ToInt

/-!
The export of a tenant's units, policies and role assignments (`cli/src/server/backup_api.rs`), and its import
into another database.
-/

namespace Aeterna.Backup
open Lib (JsonValue Table run run_cons run_append)
open List Lib.Table

/-- A database that writes its times into JSON, and reads them from there. -/
structure ExportSetup extends ImportSetup where
  timeJson : ImportPart → Int → JsonValue
  reads : ∀ part time, refuses part = none → ∃ text, timeJson part time = .string text ∧ timestamptz text = some time

/-- The rows of a tenant, in the order of their creation. Rows of one time come in any order. -/
structure GovernanceExport (tenantId : String) (t : ImportTables) where
  units : List (String × UnitRow)
  policies : List (String × PolicyRow)
  roles : List (RoleKey × Int)
  units_selected : units.Perm (t.organizationalUnits.rows.filter (fun e => e.2.tenantId = tenantId))
  policies_selected : policies.Perm (t.unitPolicies.rows.filter (fun e =>
    (t.organizationalUnits.get e.2.unitId).map UnitRow.tenantId = some tenantId))
  roles_selected : roles.Perm (t.userRoles.rows.filter (fun e => e.1.tenantId = tenantId))
  units_ordered : units.Pairwise (fun a b => a.2.createdAt ≤ b.2.createdAt)
  policies_ordered : policies.Pairwise (fun a b => a.2.createdAt ≤ b.2.createdAt)
  roles_ordered : roles.Pairwise (fun a b => a.2 ≤ b.2)

section
variable (setup : ExportSetup)

def unitRecord (e : String × UnitRow) : JsonValue := .object
  [("id", .string e.1), ("name", .string e.2.name), ("type", .string e.2.type),
    ("parent_id", match e.2.parentId with
      | some parentId => .string parentId
      | none => .null),
    ("tenant_id", .string e.2.tenantId), ("metadata", e.2.metadata),
      ("created_at", setup.timeJson .orgUnits e.2.createdAt)]

def policyRecord (e : String × PolicyRow) : JsonValue := .object
  [("id", .string e.1), ("unit_id", .string e.2.unitId), ("policy", e.2.policy),
    ("created_at", setup.timeJson .policies e.2.createdAt), ("updated_at", setup.timeJson .policies e.2.updatedAt)]

def roleRecord (e : RoleKey × Int) : JsonValue := .object
  [("user_id", .string e.1.userId), ("tenant_id", .string e.1.tenantId), ("unit_id", .string e.1.unitId),
    ("role", .string e.1.role), ("created_at", setup.timeJson .roleAssignments e.2)]

def writeFile (rows : List JsonValue) : Option (List JsonValue) := if 0 < rows.length then some rows else none

def exportGovernance {tenantId : String} {t : ImportTables} (exported : GovernanceExport tenantId t) :
    ImportArchive where
  entityCounts :=
    { orgUnits := exported.units.length, policies := exported.policies.length, roleAssignments := exported.roles.length }
  file
    | .orgUnits => writeFile (exported.units.map (unitRecord setup))
    | .policies => writeFile (exported.policies.map (policyRecord setup))
    | .roleAssignments => writeFile (exported.roles.map (roleRecord setup))
    | _ => none

variable {setup} {tenantId : String}

theorem castTime_exported {record : JsonValue} {key : String} {part : ImportPart} {time : Int}
    (accepts : setup.refuses part = none) (written : record.get key = setup.timeJson part time) :
    castTime setup.toImportSetup record key = .ok time := by
  obtain ⟨text, json, read⟩ := setup.reads part time accepts
  have field : textField record key = text := by
    rw [textField, written, json]
    rfl
  rw [castTime, field, read]

theorem unitRow_exported {e : String × UnitRow} (accepts : setup.refuses .orgUnits = none)
    (own : e.2.tenantId = tenantId) :
    unitRow setup.toImportSetup tenantId (unitRecord setup e) = .ok e.2 := by
  unfold unitRow
  rw [castTime_exported accepts rfl]
  obtain ⟨id, name, type, parentId, other, metadata, createdAt⟩ := e
  cases own
  cases parentId <;> rfl

theorem policyRow_exported {e : String × PolicyRow} (accepts : setup.refuses .policies = none) :
    policyRow setup.toImportSetup (policyRecord setup e) = .ok e.2 := by
  unfold policyRow
  rw [castTime_exported accepts rfl, castTime_exported accepts rfl]
  rfl

theorem roleKey_exported {e : RoleKey × Int} (own : e.1.tenantId = tenantId) :
    roleKey tenantId (roleRecord setup e) = .ok e.1 := by
  obtain ⟨⟨userId, other, unitId, role⟩, createdAt⟩ := e
  cases own
  rfl

end

def AllConsistent {α : Type} (add : ImportTables → α → ImportTables) (t : ImportTables) : List α → Prop
  | [] => True
  | a :: rest => Consistent (add t a) ∧ AllConsistent add (add t a) rest

structure Ready {κ ρ : Type} [DecidableEq κ] (rows : Table κ ρ) (own : κ × ρ → Prop) (items : List (κ × ρ)) :
    Prop where
  own : ∀ e ∈ items, own e
  unique : (items.map Prod.fst).Nodup
  absent : ∀ e ∈ items, rows.get e.1 = none

section
variable {setup : ImportSetup} {tenantId : String} {mode : ImportMode} {part : ImportPart}

theorem importStep_iff {db next : Database} {record : JsonValue} {tables : ImportTables}
    (written : setup.refuses part = none → writeRecord setup tenantId record mode part db.tables = .ok tables) :
    importStep setup tenantId mode db (part, record) = some next ↔
      setup.refuses part = none ∧ Consistent tables ∧ next.tables = tables := by
  obtain ⟨after, kept⟩ := next
  rw [importStep_eq_some, execute]
  cases accepts : setup.refuses part with
  | some message =>
    constructor
    · intro impossible
      cases impossible
    · rintro ⟨impossible, _⟩
      cases impossible
  | none =>
    rw [written accepts]
    show (if consistent : Consistent tables then pure ⟨tables, consistent⟩ else throw _ : Except String Database) =
      _ ↔ _
    split
    · rename_i consistent
      constructor
      · intro same
        cases same
        exact ⟨rfl, consistent, rfl⟩
      · rintro ⟨_, _, same⟩
        cases same
        rfl
    · rename_i broken
      constructor
      · intro impossible
        cases impossible
      · rintro ⟨_, consistent, _⟩
        exact absurd consistent broken

variable {κ ρ : Type} [DecidableEq κ] {rows : ImportTables → Table κ ρ} {own : κ × ρ → Prop}
  {record : κ × ρ → JsonValue}
  {add : ImportTables → κ × ρ → ImportTables} {t : ImportTables} {items : List (κ × ρ)}

theorem Ready.tail {e : κ × ρ} {table : Table κ ρ} (ready : Ready table own (e :: items)) :
    Ready (table.insertOrIgnore e.1 e.2) own items := by
  obtain ⟨fresh, unique⟩ := nodup_cons.mp ready.unique
  refine ⟨fun other member => ready.own other (mem_cons_of_mem _ member), unique, fun other member => ?_⟩
  have apart : other.1 ≠ e.1 := fun same => fresh (same ▸ mem_map_of_mem member)
  rw [get_insertOrIgnore, if_neg apart]
  exact ready.absent other (mem_cons_of_mem _ member)

theorem run_part (adds : ∀ t e, rows (add t e) = (rows t).insertOrIgnore e.1 e.2)
    (written : ∀ t e, own e → (rows t).get e.1 = none → setup.refuses part = none →
      writeRecord setup tenantId (record e) mode part t = .ok (add t e)) {db last : Database}
    (ready : Ready (rows db.tables) own items) :
    run (importStep setup tenantId mode) db (planOf part (items.map record)) = some last ↔
      (items ≠ [] → setup.refuses part = none) ∧ AllConsistent add db.tables items ∧
        last.tables = items.foldl add db.tables := by
  induction items generalizing db with
  | nil =>
    obtain ⟨tables, consistent⟩ := db
    obtain ⟨after, kept⟩ := last
    constructor
    · intro same
      cases same
      exact ⟨fun some_ => absurd rfl some_, trivial, rfl⟩
    · rintro ⟨_, _, same⟩
      cases same
      rfl
  | cons e rest ih =>
    have step : ∀ next, importStep setup tenantId mode db (part, record e) = some next ↔ _ :=
      fun next => importStep_iff (written db.tables e (ready.own e mem_cons_self)
        (ready.absent e mem_cons_self))
    have later : ∀ next : Database, next.tables = add db.tables e → Ready (rows next.tables) own rest := by
      intro next same
      rw [same, adds]
      exact ready.tail
    refine run_cons.trans ⟨?_, ?_⟩
    · rintro ⟨next, first, ran⟩
      obtain ⟨accepts, consistent, same⟩ := (step next).mp first
      obtain ⟨_, others, ended⟩ := (ih (later next same)).mp ran
      rw [same] at others ended
      exact ⟨fun _ => accepts, ⟨consistent, others⟩, ended⟩
    · rintro ⟨accepts, ⟨consistent, others⟩, ended⟩
      have accepts := accepts (cons_ne_nil _ _)
      refine ⟨⟨add db.tables e, consistent⟩, (step _).mpr ⟨accepts, consistent, rfl⟩, ?_⟩
      exact (ih (later ⟨add db.tables e, consistent⟩ rfl)).mpr ⟨fun _ => accepts, others, ended⟩

theorem AllConsistent.last {α : Type} {add : ImportTables → α → ImportTables} {t : ImportTables} {items : List α}
    (consistent : Consistent t) (all : AllConsistent add t items) : Consistent (items.foldl add t) := by
  induction items generalizing t with
  | nil => exact consistent
  | cons e rest ih => exact ih all.1 all.2

theorem foldl_rows (adds : ∀ t e, rows (add t e) = (rows t).insertOrIgnore e.1 e.2) :
    rows (items.foldl add t) = (rows t).insertOrIgnoreAll items := by
  induction items generalizing t with
  | nil => rfl
  | cons e rest ih =>
    rw [foldl_cons, ih, adds]
    rfl

theorem Ready.added {table : Table κ ρ} (ready : Ready table own items) {e : κ × ρ} (member : e ∈ items) :
    (table.insertOrIgnoreAll items).get e.1 = some e.2 := by
  rw [get_insertOrIgnoreAll, ready.absent e member, find_of_mem ready.unique member]
  rfl

end

theorem foldl_view {α ν : Type} (add : ImportTables → α → ImportTables) (view : ImportTables → ν)
    (same : ∀ t e, view (add t e) = view t) (items : List α) (t : ImportTables) :
      view (items.foldl add t) = view t := by
  induction items generalizing t with
  | nil => rfl
  | cons e rest ih => exact (ih (add t e)).trans (same t e)

def addUnit (t : ImportTables) (e : String × UnitRow) : ImportTables :=
  { t with organizationalUnits := t.organizationalUnits.insertOrIgnore e.1 e.2 }

def addPolicy (t : ImportTables) (e : String × PolicyRow) : ImportTables :=
  { t with unitPolicies := t.unitPolicies.insertOrIgnore e.1 e.2 }

def addRole (t : ImportTables) (e : RoleKey × Int) : ImportTables :=
  { t with userRoles := t.userRoles.insertOrIgnore e.1 e.2 }

section
variable (t : ImportTables) (units : List (String × UnitRow)) (policies : List (String × PolicyRow))
  (roles : List (RoleKey × Int))

@[simp] theorem addUnits_units :
    (units.foldl addUnit t).organizationalUnits = t.organizationalUnits.insertOrIgnoreAll units :=
      foldl_rows (fun _ _ => rfl)

@[simp] theorem addUnits_policies : (units.foldl addUnit t).unitPolicies = t.unitPolicies :=
  foldl_view addUnit ImportTables.unitPolicies (fun _ _ => rfl) _ _

@[simp] theorem addUnits_roles : (units.foldl addUnit t).userRoles = t.userRoles :=
  foldl_view addUnit ImportTables.userRoles (fun _ _ => rfl) _ _

@[simp] theorem addPolicies_units : (policies.foldl addPolicy t).organizationalUnits = t.organizationalUnits :=
  foldl_view addPolicy ImportTables.organizationalUnits (fun _ _ => rfl) _ _

@[simp] theorem addPolicies_policies :
    (policies.foldl addPolicy t).unitPolicies = t.unitPolicies.insertOrIgnoreAll policies :=
      foldl_rows (fun _ _ => rfl)

@[simp] theorem addPolicies_roles : (policies.foldl addPolicy t).userRoles = t.userRoles :=
  foldl_view addPolicy ImportTables.userRoles (fun _ _ => rfl) _ _

@[simp] theorem addRoles_units : (roles.foldl addRole t).organizationalUnits = t.organizationalUnits :=
  foldl_view addRole ImportTables.organizationalUnits (fun _ _ => rfl) _ _

@[simp] theorem addRoles_policies : (roles.foldl addRole t).unitPolicies = t.unitPolicies :=
  foldl_view addRole ImportTables.unitPolicies (fun _ _ => rfl) _ _

@[simp] theorem addRoles_roles : (roles.foldl addRole t).userRoles = t.userRoles.insertOrIgnoreAll roles :=
  foldl_rows (fun _ _ => rfl)

end

def ParentsFirst (known : String → Prop) : List (String × UnitRow) → Prop
  | [] => True
  | e :: rest => (∀ p ∈ e.2.parentId, known p ∨ p = e.1) ∧ ParentsFirst (fun p => known p ∨ p = e.1) rest

section
variable {t : ImportTables}

theorem isSome_insertOrIgnore {ρ : Type} {table : Table String ρ} {k p : String} {r : ρ} :
    ((table.insertOrIgnore k r).get p).isSome ↔ (table.get p).isSome ∨ p = k := by
  rw [get_insertOrIgnore]
  by_cases same : p = k <;> simp [same]

theorem consistent_addUnit (consistent : Consistent t) {e : String × UnitRow}
    (absent : t.organizationalUnits.get e.1 = none) :
    Consistent (addUnit t e) ↔ (∀ r ∈ t.organizationalUnits.rows, r.2.place ≠ e.2.place) ∧
      ∀ p ∈ e.2.parentId, (t.organizationalUnits.get p).isSome ∨ p = e.1 := by
  obtain ⟨places, parents, policies, roles⟩ := consistent
  unfold Consistent addUnit
  dsimp only
  rw [insertOrIgnore_rows absent, pairwise_append]
  simp only [isSome_insertOrIgnore, forall_mem_append, forall_mem_singleton]
  constructor
  · rintro ⟨⟨_, _, apart⟩, ⟨_, parent⟩, _⟩
    exact ⟨apart, parent⟩
  · rintro ⟨apart, parent⟩
    exact ⟨⟨places, pairwise_singleton _ _, apart⟩,
      ⟨fun r member p given => .inl (parents r member p given), parent⟩,
      fun r member => .inl (policies r member), fun r member => .inl (roles r member)⟩

theorem consistent_addPolicy (consistent : Consistent t) {e : String × PolicyRow}
    (absent : t.unitPolicies.get e.1 = none) :
    Consistent (addPolicy t e) ↔ (t.organizationalUnits.get e.2.unitId).isSome := by
  obtain ⟨places, parents, policies, roles⟩ := consistent
  unfold Consistent addPolicy
  dsimp only
  rw [insertOrIgnore_rows absent, forall_mem_append, forall_mem_singleton]
  exact ⟨fun ⟨_, _, ⟨_, unit⟩, _⟩ => unit, fun unit => ⟨places, parents, ⟨policies, unit⟩, roles⟩⟩

theorem consistent_addRole (consistent : Consistent t) {e : RoleKey × Int} (absent : t.userRoles.get e.1 = none) :
    Consistent (addRole t e) ↔ (t.organizationalUnits.get e.1.unitId).isSome := by
  obtain ⟨places, parents, policies, roles⟩ := consistent
  unfold Consistent addRole
  dsimp only
  rw [insertOrIgnore_rows absent, forall_mem_append, forall_mem_singleton]
  exact ⟨fun ⟨_, _, _, _, unit⟩ => unit, fun unit => ⟨places, parents, policies, roles, unit⟩⟩

theorem allConsistent_units {own : String × UnitRow → Prop} {items : List (String × UnitRow)}
    (consistent : Consistent t) (ready : Ready t.organizationalUnits own items)
    (apart : items.Pairwise (fun a b => a.2.place ≠ b.2.place)) :
    AllConsistent addUnit t items ↔ (∀ e ∈ items, ∀ r ∈ t.organizationalUnits.rows, r.2.place ≠ e.2.place) ∧
      ParentsFirst (fun p => (t.organizationalUnits.get p).isSome) items := by
  induction items generalizing t with
  | nil => exact ⟨fun _ => ⟨fun _ absent => absurd absent not_mem_nil, trivial⟩, fun _ => trivial⟩
  | cons e rest ih =>
    have absent := ready.absent e mem_cons_self
    obtain ⟨first, apart⟩ := pairwise_cons.mp apart
    unfold AllConsistent ParentsFirst
    rw [consistent_addUnit consistent absent, forall_mem_cons]
    have known : (fun p => ((addUnit t e).organizationalUnits.get p).isSome = true) =
        fun p => (t.organizationalUnits.get p).isSome = true ∨ p = e.1 :=
      funext (fun p => propext isSome_insertOrIgnore)
    have places : (∀ other ∈ rest, ∀ r ∈ (addUnit t e).organizationalUnits.rows, r.2.place ≠ other.2.place) ↔
        ∀ other ∈ rest, ∀ r ∈ t.organizationalUnits.rows, r.2.place ≠ other.2.place := by
      refine forall₂_congr (fun other member => ?_)
      show (∀ r ∈ (t.organizationalUnits.insertOrIgnore e.1 e.2).rows, _) ↔ _
      rw [insertOrIgnore_rows absent, forall_mem_append, forall_mem_singleton]
      exact and_iff_left (first other member)
    constructor
    · rintro ⟨⟨fits, parent⟩, others⟩
      obtain ⟨free, ordered⟩ := (ih ((consistent_addUnit consistent absent).mpr
          ⟨fits, parent⟩) ready.tail apart).mp others
      rw [known] at ordered
      exact ⟨⟨fits, places.mp free⟩, parent, ordered⟩
    · rintro ⟨⟨fits, free⟩, parent, ordered⟩
      refine ⟨⟨fits, parent⟩, (ih ((consistent_addUnit consistent absent).mpr
        ⟨fits, parent⟩) ready.tail apart).mpr ?_⟩
      rw [known]
      exact ⟨places.mpr free, ordered⟩

theorem allConsistent_children {κ ρ : Type} [DecidableEq κ] {rows : ImportTables → Table κ ρ}
    {add : ImportTables → κ × ρ → ImportTables} {unitId : κ × ρ → String} {own : κ × ρ → Prop} {items : List (κ × ρ)}
    (adds : ∀ t e, rows (add t e) = (rows t).insertOrIgnore e.1 e.2)
    (units : ∀ t e, (add t e).organizationalUnits = t.organizationalUnits)
    (one : ∀ {t e}, Consistent t → (rows t).get e.1 = none →
      (Consistent (add t e) ↔ (t.organizationalUnits.get (unitId e)).isSome))
    (consistent : Consistent t) (ready : Ready (rows t) own items) :
    AllConsistent add t items ↔ ∀ e ∈ items, (t.organizationalUnits.get (unitId e)).isSome := by
  induction items generalizing t with
  | nil => exact ⟨fun _ _ absent => absurd absent not_mem_nil, fun _ => trivial⟩
  | cons e rest ih =>
    have absent := ready.absent e mem_cons_self
    have later : Ready (rows (add t e)) own rest := by
      rw [adds]
      exact ready.tail
    unfold AllConsistent
    rw [one consistent absent, forall_mem_cons]
    constructor
    · rintro ⟨unit, others⟩
      have others := (ih ((one consistent absent).mpr unit) later).mp others
      rw [units] at others
      exact ⟨unit, others⟩
    · rintro ⟨unit, others⟩
      refine ⟨unit, (ih ((one consistent absent).mpr unit) later).mpr ?_⟩
      rw [units]
      exact others

end

section
variable {setup : ExportSetup} {tenantId : String} {mode : ImportMode} {source : Database}
  (exported : GovernanceExport tenantId source.tables)

/-- A database without the exported rows. -/
structure Lacks (target : ImportTables) : Prop where
  units : ∀ e ∈ exported.units, target.organizationalUnits.get e.1 = none
  policies : ∀ e ∈ exported.policies, target.unitPolicies.get e.1 = none
  roles : ∀ e ∈ exported.roles, target.userRoles.get e.1 = none

structure Recreated (after : ImportTables) : Prop where
  units : ∀ e ∈ exported.units, after.organizationalUnits.get e.1 = some e.2
  policies : ∀ e ∈ exported.policies, after.unitPolicies.get e.1 = some e.2
  roles : ∀ e ∈ exported.roles, after.userRoles.get e.1 = some e.2

variable (setup mode) in
/-- The import ends, reports the counts of the manifest, and recreates each row. -/
def Restores (target : Database) : Prop :=
  (∃ conflicts, (runImport setup.toImportSetup tenantId mode false (exportGovernance setup exported)
    { db := target }).1 =
    .ok ((exportGovernance setup exported).entityCounts, conflicts)) ∧
  Recreated exported (runImport setup.toImportSetup tenantId mode false (exportGovernance setup exported)
    { db := target }).2.db.tables

variable (setup) in
/-- There are role assignments only if there are policies, the database takes what there is, and each unit and
each role assignment finds its place. -/
structure Restorable (target : ImportTables) : Prop where
  units_accepted : exported.units ≠ [] → setup.refuses .orgUnits = none
  places : ∀ e ∈ exported.units, ∀ r ∈ target.organizationalUnits.rows, r.2.place ≠ e.2.place
  parents : ParentsFirst (fun p => (target.organizationalUnits.get p).isSome) exported.units
  policies_accepted : exported.policies ≠ [] → setup.refuses .policies = none
  roles_read : exported.policies = [] → exported.roles = []
  roles_accepted : exported.roles ≠ [] → setup.refuses .roleAssignments = none
  roles_units : ∀ e ∈ exported.roles, (target.organizationalUnits.get e.1.unitId).isSome ∨
    e.1.unitId ∈ exported.units.map Prod.fst

def readRoles : List (RoleKey × Int) := if exported.policies = [] then [] else exported.roles

variable {exported}

theorem units_unique : (exported.units.map Prod.fst).Nodup :=
  (exported.units_selected.map Prod.fst).nodup_iff.mpr (selected_unique _ _)

theorem mem_units {e : String × UnitRow} :
    e ∈ exported.units ↔ source.tables.organizationalUnits.get e.1 = some e.2 ∧ e.2.tenantId = tenantId := by
  rw [exported.units_selected.mem_iff, mem_filter, get_eq_some, decide_eq_true_eq]

theorem policy_unit {e : String × PolicyRow} (member : e ∈ exported.policies) :
    e.2.unitId ∈ exported.units.map Prod.fst := by
  have selected := (mem_filter.mp (exported.policies_selected.mem_iff.mp member)).2
  obtain ⟨unit, held, own⟩ := Option.map_eq_some_iff.mp (of_decide_eq_true selected)
  exact mem_map.mpr ⟨(e.2.unitId, unit), mem_units.mpr ⟨held, own⟩, rfl⟩

theorem no_policies (none_ : exported.units = []) : exported.policies = [] := by
  cases policies : exported.policies with
  | nil => rfl
  | cons e rest =>
    have member : e ∈ exported.policies := by
      rw [policies]
      exact mem_cons_self
    have unit := policy_unit member
    rw [none_] at unit
    cases unit

theorem units_apart : exported.units.Pairwise (fun a b => a.2.place ≠ b.2.place) := by
  have whole := source.consistent.1.filter (fun e => e.2.tenantId = tenantId)
  exact (exported.units_selected.pairwise_iff (fun apart => Ne.symm apart)).mpr whole

theorem governancePlan_exported : governancePlan (exportGovernance setup exported) =
    planOf .orgUnits (exported.units.map (unitRecord setup)) ++
      (planOf .policies (exported.policies.map (policyRecord setup)) ++
        planOf .roleAssignments ((readRoles exported).map (roleRecord setup))) := by
  unfold governancePlan exportGovernance readRoles
  dsimp only
  cases units : exported.units with
  | nil =>
    rw [no_policies units]
    rfl
  | cons unit others =>
    cases exported.policies with
    | nil => rfl
    | cons policy rest => cases exported.roles <;> rfl

theorem governanceCounts_exported : governanceCounts (exportGovernance setup exported) =
    (exported.units.length, exported.policies.length, (readRoles exported).length) := by
  unfold governanceCounts exportGovernance readRoles
  dsimp only
  cases units : exported.units with
  | nil =>
    rw [no_policies units]
    rfl
  | cons unit others =>
    cases exported.policies with
    | nil => simp [writeFile]
    | cons policy rest => cases exported.roles <;> simp [writeFile]

theorem importPlan_exported : importPlan (exportGovernance setup exported) = governancePlan
    (exportGovernance setup exported) := by
  have rest : importPlan (exportGovernance setup exported) =
      (if 0 < exported.units.length + exported.policies.length + exported.roles.length then
        governancePlan (exportGovernance setup exported) else []) ++ [] := rfl
  rw [rest, append_nil]
  split
  · rfl
  · rename_i empty
    have units : exported.units = [] := length_eq_zero_iff.mp (by omega)
    have roles : exported.roles = [] := length_eq_zero_iff.mp (by omega)
    rw [governancePlan_exported, units, no_policies units, readRoles, roles, ite_self]
    rfl

theorem importCounts_exported : importCounts (exportGovernance setup exported) =
    { orgUnits := exported.units.length, policies := exported.policies.length, roleAssignments := (readRoles exported).length } := by
  have rest : importCounts (exportGovernance setup exported) =
      let governance := if 0 < exported.units.length + exported.policies.length + exported.roles.length then
        governanceCounts (exportGovernance setup exported) else (0, 0, 0)
      { orgUnits := governance.1, policies := governance.2.1, roleAssignments := governance.2.2 } := rfl
  rw [rest]
  split
  · rw [governanceCounts_exported]
  · rename_i empty
    have units : exported.units = [] := length_eq_zero_iff.mp (by omega)
    have roles : exported.roles = [] := length_eq_zero_iff.mp (by omega)
    rw [units, no_policies units, readRoles, roles, ite_self]
    rfl

theorem readRoles_eq (read : exported.policies = [] → exported.roles = []) : readRoles exported = exported.roles := by
  unfold readRoles
  split
  · rename_i none_
    exact (read none_).symm
  · rfl

theorem readRoles_iff : (readRoles exported).length = exported.roles.length ↔
    (exported.policies = [] → exported.roles = []) := by
  unfold readRoles
  split
  · rename_i none_
    rw [length_nil, eq_comm, length_eq_zero_iff]
    exact ⟨fun roles _ => roles, fun roles => roles none_⟩
  · rename_i some_
    exact ⟨fun _ none_ => absurd none_ some_, fun _ => rfl⟩

theorem unit_written {t : ImportTables} {e : String × UnitRow} (own : e.2.tenantId = tenantId)
    (absent : t.organizationalUnits.get e.1 = none) (accepts : setup.refuses .orgUnits = none) :
    writeRecord setup.toImportSetup tenantId (unitRecord setup e) mode .orgUnits t = .ok (addUnit t e) := by
  have id : textField (unitRecord setup e) "id" = e.1 := rfl
  unfold writeRecord addUnit
  dsimp only
  rw [unitRow_exported accepts own, id, ← upsert_absent absent]
  rfl

theorem policy_written {t : ImportTables} {e : String × PolicyRow} (absent : t.unitPolicies.get e.1 = none)
    (accepts : setup.refuses .policies = none) :
    writeRecord setup.toImportSetup tenantId (policyRecord setup e) mode .policies t = .ok (addPolicy t e) := by
  have id : textField (policyRecord setup e) "id" = e.1 := rfl
  unfold writeRecord addPolicy
  dsimp only
  rw [policyRow_exported accepts, id, ← upsert_absent absent]
  rfl

theorem role_written {t : ImportTables} {e : RoleKey × Int} (own : e.1.tenantId = tenantId)
    (accepts : setup.refuses .roleAssignments = none) :
    writeRecord setup.toImportSetup tenantId (roleRecord setup e) mode .roleAssignments t = .ok (addRole t e) := by
  unfold writeRecord addRole
  dsimp only
  rw [roleKey_exported own, castTime_exported accepts rfl]
  rfl

theorem unit_there {t : ImportTables} {id : String} :
    ((t.organizationalUnits.insertOrIgnoreAll exported.units).get id).isSome ↔
    (t.organizationalUnits.get id).isSome ∨ id ∈ exported.units.map Prod.fst := by
  have held : ((find exported.units id).isSome ↔ id ∈ exported.units.map Prod.fst) := by
    let rows : Table String UnitRow := ⟨exported.units, units_unique⟩
    show (rows.get id).isSome ↔ id ∈ rows.rows.map Prod.fst
    rw [Option.isSome_iff_ne_none, Ne, get_eq_none, not_not]
  rw [get_insertOrIgnoreAll, Option.isSome_or, Bool.or_eq_true, held]

section
variable {target last : Database} (lacks : Lacks exported target.tables)
include lacks

theorem units_ready : Ready target.tables.organizationalUnits (fun e => e.2.tenantId = tenantId) exported.units where
  own _ member := (mem_units.mp member).2
  unique := units_unique
  absent := lacks.units

theorem policies_ready : Ready target.tables.unitPolicies (fun _ => True) exported.policies where
  own _ _ := trivial
  unique := (exported.policies_selected.map Prod.fst).nodup_iff.mpr (selected_unique _ _)
  absent := lacks.policies

theorem roles_ready : Ready target.tables.userRoles (fun e => e.1.tenantId = tenantId) (readRoles exported) := by
  have all : Ready target.tables.userRoles (fun e => e.1.tenantId = tenantId) exported.roles :=
    { own := fun _ member => of_decide_eq_true (mem_filter.mp (exported.roles_selected.mem_iff.mp member)).2
      unique := (exported.roles_selected.map Prod.fst).nodup_iff.mpr (selected_unique _ _)
      absent := lacks.roles }
  unfold readRoles
  split
  · exact ⟨fun _ absent => absurd absent not_mem_nil, nodup_nil, fun _ absent =>
      absurd absent not_mem_nil⟩
  · exact all

theorem recreated (same : last.tables = (readRoles exported).foldl addRole
      (exported.policies.foldl addPolicy (exported.units.foldl addUnit target.tables)))
    (read : readRoles exported = exported.roles) : Recreated exported last.tables := by
  rw [same]
  refine ⟨fun e member => ?_, fun e member => ?_, fun e member => ?_⟩
  · simpa using (units_ready lacks).added member
  · simpa using (policies_ready lacks).added member
  · simpa using (roles_ready lacks).added (read ▸ member)

theorem units_run : run (importStep setup.toImportSetup tenantId mode) target
      (planOf .orgUnits (exported.units.map (unitRecord setup))) = some last ↔
      (exported.units ≠ [] → setup.refuses .orgUnits = none) ∧ AllConsistent addUnit target.tables exported.units ∧
        last.tables = exported.units.foldl addUnit target.tables :=
  run_part (fun _ _ => rfl) (fun _ _ => unit_written) (units_ready lacks)

theorem policies_run {between : Database} (same : between.tables = exported.units.foldl addUnit target.tables) :
    run (importStep setup.toImportSetup tenantId mode) between
      (planOf .policies (exported.policies.map (policyRecord setup))) =
      some last ↔ (exported.policies ≠ [] → setup.refuses .policies = none) ∧
        AllConsistent addPolicy between.tables exported.policies ∧
        last.tables = exported.policies.foldl addPolicy between.tables := by
  have ready : Ready between.tables.unitPolicies (fun _ => True) exported.policies := by
    rw [same, addUnits_policies]
    exact policies_ready lacks
  exact run_part (fun _ _ => rfl) (fun _ _ _ => policy_written) ready

theorem roles_run {between : Database}
    (same : between.tables = exported.policies.foldl addPolicy (exported.units.foldl addUnit target.tables)) :
    run (importStep setup.toImportSetup tenantId mode) between
      (planOf .roleAssignments ((readRoles exported).map (roleRecord setup))) =
      some last ↔ (readRoles exported ≠ [] → setup.refuses .roleAssignments = none) ∧
        AllConsistent addRole between.tables (readRoles exported) ∧
          last.tables = (readRoles exported).foldl addRole between.tables := by
  have ready : Ready between.tables.userRoles (fun e => e.1.tenantId = tenantId) (readRoles exported) := by
    rw [same, addPolicies_roles, addUnits_roles]
    exact roles_ready lacks
  exact run_part (fun _ _ => rfl) (fun _ _ own _ => role_written own) ready

theorem run_exported :
    run (importStep setup.toImportSetup tenantId mode) target (governancePlan (exportGovernance setup exported)) =
      some last ↔
      (exported.units ≠ [] → setup.refuses .orgUnits = none) ∧ AllConsistent addUnit target.tables exported.units ∧
      (exported.policies ≠ [] → setup.refuses .policies = none) ∧
      AllConsistent addPolicy (exported.units.foldl addUnit target.tables) exported.policies ∧
      (readRoles exported ≠ [] → setup.refuses .roleAssignments = none) ∧
      AllConsistent addRole (exported.policies.foldl addPolicy (exported.units.foldl addUnit target.tables))
        (readRoles exported) ∧
      last.tables = (readRoles exported).foldl addRole
          (exported.policies.foldl addPolicy (exported.units.foldl addUnit target.tables)) := by
  rw [governancePlan_exported, run_append]
  constructor
  · rintro ⟨afterUnits, first, ran⟩
    obtain ⟨afterPolicies, second, third⟩ := run_append.mp ran
    obtain ⟨takesUnits, unitsFit, unitsSame⟩ := (units_run lacks).mp first
    obtain ⟨takesPolicies, policiesFit, policiesSame⟩ := (policies_run lacks unitsSame).mp second
    rw [unitsSame] at policiesFit policiesSame
    obtain ⟨takesRoles, rolesFit, rolesSame⟩ := (roles_run lacks policiesSame).mp third
    rw [policiesSame] at rolesFit rolesSame
    exact ⟨takesUnits, unitsFit, takesPolicies, policiesFit, takesRoles, rolesFit, rolesSame⟩
  · rintro ⟨takesUnits, unitsFit, takesPolicies, policiesFit, takesRoles, rolesFit, rolesSame⟩
    have afterUnits := unitsFit.last target.consistent
    have afterPolicies := policiesFit.last afterUnits
    refine ⟨⟨_, afterUnits⟩, (units_run lacks).mpr ⟨takesUnits, unitsFit, rfl⟩,
      run_append.mpr ⟨⟨_, afterPolicies⟩, ?_, ?_⟩⟩
    · exact (policies_run lacks rfl).mpr ⟨takesPolicies, policiesFit, rfl⟩
    · exact (roles_run lacks rfl).mpr ⟨takesRoles, rolesFit, rolesSame⟩

theorem policies_fit (consistent : Consistent (exported.units.foldl addUnit target.tables)) :
    AllConsistent addPolicy (exported.units.foldl addUnit target.tables) exported.policies := by
  have ready : Ready (exported.units.foldl addUnit target.tables).unitPolicies (fun _ => True) exported.policies := by
    rw [addUnits_policies]
    exact policies_ready lacks
  have fits : AllConsistent addPolicy (exported.units.foldl addUnit target.tables) exported.policies ↔
      ∀ e ∈ exported.policies, ((exported.units.foldl addUnit target.tables).organizationalUnits.get e.2.unitId).isSome :=
    allConsistent_children (fun _ _ => rfl) (fun _ _ => rfl)
      (fun met absent => consistent_addPolicy met absent) consistent ready
  refine fits.mpr (fun e member => ?_)
  rw [addUnits_units]
  exact unit_there.mpr (.inr (policy_unit member))

theorem roles_fit (consistent : Consistent
    (exported.policies.foldl addPolicy (exported.units.foldl addUnit target.tables))) :
    AllConsistent addRole (exported.policies.foldl addPolicy (exported.units.foldl addUnit target.tables))
      (readRoles exported) ↔
      ∀ e ∈ readRoles exported, (target.tables.organizationalUnits.get e.1.unitId).isSome ∨
        e.1.unitId ∈ exported.units.map Prod.fst := by
  have ready : Ready (exported.policies.foldl addPolicy (exported.units.foldl addUnit target.tables)).userRoles
      (fun e => e.1.tenantId = tenantId) (readRoles exported) := by
    rw [addPolicies_roles, addUnits_roles]
    exact roles_ready lacks
  have fits : AllConsistent addRole (exported.policies.foldl addPolicy (exported.units.foldl addUnit target.tables))
      (readRoles exported) ↔
      ∀ e ∈ readRoles exported, ((exported.policies.foldl addPolicy
        (exported.units.foldl addUnit target.tables)).organizationalUnits.get
        e.1.unitId).isSome :=
    allConsistent_children (fun _ _ => rfl) (fun _ _ => rfl)
      (fun met absent => consistent_addRole met absent) consistent ready
  rw [fits, addPolicies_units, addUnits_units]
  exact forall₂_congr (fun e member => unit_there)

end

end

/-- The import of an export restores the units, policies and role assignments exactly if they are restorable. -/
theorem governance_restored_iff (setup : ExportSetup) (tenantId : String) (mode : ImportMode)
    (source target : Database) (exported : GovernanceExport tenantId source.tables)
    (lacks : Lacks exported target.tables) :
    Restores setup mode exported target ↔ Restorable setup exported target.tables := by
  have units := allConsistent_units target.consistent (units_ready lacks) units_apart
  have ends : ∀ counts conflicts, (runImport setup.toImportSetup tenantId mode false (exportGovernance setup exported)
      { db := target }).1 = .ok (counts, conflicts) ↔ _ := fun _ _ => runImport_ends rfl
  unfold Restores
  simp only [ends, importPlan_exported, importCounts_exported]
  constructor
  · rintro ⟨⟨conflicts, ⟨last, ran⟩, counts, _⟩, _⟩
    obtain ⟨takesUnits, unitsFit, takesPolicies, policiesFit, takesRoles, rolesFit, same⟩ :=
        (run_exported lacks).mp ran
    have read := readRoles_iff.mp (congrArg EntityCounts.roleAssignments counts)
    obtain ⟨places, parents⟩ := units.mp unitsFit
    have afterUnits := unitsFit.last target.consistent
    have roles := (roles_fit lacks (policiesFit.last afterUnits)).mp rolesFit
    rw [readRoles_eq read] at takesRoles roles
    exact
      { units_accepted := takesUnits, places, parents, policies_accepted := takesPolicies, roles_read := read
        roles_accepted := takesRoles, roles_units := roles }
  · intro restorable
    have unitsFit := units.mpr ⟨restorable.places, restorable.parents⟩
    have afterUnits := unitsFit.last target.consistent
    have policiesFit := policies_fit lacks afterUnits
    have afterPolicies := policiesFit.last afterUnits
    have read := readRoles_eq restorable.roles_read
    have rolesFit := (roles_fit lacks afterPolicies).mpr (by rw [read]; exact restorable.roles_units)
    have ran : run (importStep setup.toImportSetup tenantId mode) target
        (governancePlan (exportGovernance setup exported)) =
        some ⟨_, rolesFit.last afterPolicies⟩ := (run_exported lacks).mpr
      ⟨restorable.units_accepted, unitsFit, restorable.policies_accepted, policiesFit,
        by rw [read]; exact restorable.roles_accepted, rolesFit, rfl⟩
    refine ⟨⟨[], ⟨_, ran⟩, ?_, rfl⟩, ?_⟩
    · rw [read]
      rfl
    · rw [runImport_last rfl (importPlan_exported ▸ ran)]
      exact recreated lacks rfl read

def storageText (time : Int) : String := if time = 1767225600000000 then "2026-01-01T00:00:00+00:00"
    else "@" ++ time.repr

theorem storageTimestamptz_text (time : Int) : storageTimestamptz (storageText time) = some time := by
  unfold storageText
  by_cases sample : time = 1767225600000000
  · rw [if_pos sample, sample]
    rfl
  · have list : ("@" ++ time.repr).toList = '@' :: time.repr.toList := by rw [String.toList_append]; rfl
    have other : "@" ++ time.repr ≠ "2026-01-01T00:00:00+00:00" := by
      intro same
      have chars := congrArg String.toList same
      rw [list] at chars
      have first : '@' = '2' := (List.cons.inj chars).1
      exact absurd first (by decide)
    rw [if_neg sample, storageTimestamptz, if_neg other, list]
    show (String.ofList time.repr.toList).toInt? = some time
    rw [String.ofList_toList, Int.toInt?_repr]

/-- The tables of `storage/src/postgres.rs`. -/
def storageExport : ExportSetup where
  toImportSetup := storageSetup
  timeJson
    | .orgUnits, time | .roleAssignments, time => .string (storageText time)
    | _, time => .number time.repr
  reads part time accepts := by
    cases part with
    | orgUnits => exact ⟨_, rfl, storageTimestamptz_text time⟩
    | roleAssignments => exact ⟨_, rfl, storageTimestamptz_text time⟩
    | _ => cases accepts

def emptyDatabase : Database := ⟨{}, by decide⟩

def aCompany : Table String UnitRow where
  rows := [("u",
    { name := "A", type := "company", parentId := none, tenantId := "a", metadata := .null, createdAt := 1767225600000000 })]
  unique := by decide

def companyDatabase : Database := ⟨{ organizationalUnits := aCompany }, by decide +kernel⟩

def companyExport : GovernanceExport "a" companyDatabase.tables where
  units := aCompany.rows
  policies := []
  roles := []
  units_selected := .refl _
  policies_selected := .refl _
  roles_selected := .refl _
  units_ordered := by decide
  policies_ordered := .nil
  roles_ordered := .nil

theorem governance_restored_company : Restores storageExport .merge companyExport emptyDatabase := by
  refine (governance_restored_iff storageExport "a" .merge companyDatabase emptyDatabase companyExport ?_).mpr ?_
  · exact ⟨fun _ _ => rfl, fun _ _ => rfl, fun _ _ => rfl⟩
  · exact
      { units_accepted := fun _ => rfl
        places := fun _ _ _ absent => absurd absent not_mem_nil
        parents := ⟨fun _ given => absurd given (Option.not_mem_none _), trivial⟩
        policies_accepted := fun some_ => absurd rfl some_
        roles_read := fun _ => rfl
        roles_accepted := fun some_ => absurd rfl some_
        roles_units := fun _ absent => absurd absent not_mem_nil }

def administeredDatabase : Database where
  tables :=
    { organizationalUnits := aCompany
      userRoles :=
        { rows := [({ userId := "x", tenantId := "a", unitId := "u", role := "admin" }, 1767225600000000)]
          unique := by decide } }
  consistent := by decide +kernel

def administeredExport : GovernanceExport "a" administeredDatabase.tables where
  units := aCompany.rows
  policies := []
  roles := administeredDatabase.tables.userRoles.rows
  units_selected := .refl _
  policies_selected := .refl _
  roles_selected := .refl _
  units_ordered := by decide
  policies_ordered := .nil
  roles_ordered := pairwise_singleton _ _

theorem administrator_lost : ¬ Restores storageExport .merge administeredExport emptyDatabase := by
  rintro ⟨_, recreated⟩
  have kept := recreated.roles _ (mem_singleton_self _)
  have present := congrArg Option.isSome kept
  revert present
  decide +kernel

end Aeterna.Backup
