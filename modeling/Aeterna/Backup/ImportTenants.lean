import Aeterna.Backup.Import

namespace Aeterna.Backup
open Lib (JsonValue Table Along Throughout throughout_iff_possible)
open Lib.Table

def MemoryRow.written (row : MemoryRow) : String × String × String × JsonValue × Int :=
  (row.content, row.memoryLayer, row.importanceScore, row.properties, row.updatedAt)

def KnowledgeRow.written (row : KnowledgeRow) : String × String × String × JsonValue × JsonValue × Int :=
  (row.type, row.title, row.content, row.tags, row.properties, row.updatedAt)

def UnitRow.written (row : UnitRow) : String × String × Option String × JsonValue :=
  (row.name, row.type, row.parentId, row.metadata)

def PolicyRow.written (row : PolicyRow) : JsonValue × Int := (row.policy, row.updatedAt)

def EventRow.written (row : EventRow) : String × JsonValue × Int := (row.eventType, row.payload, row.timestamp)

def Assigns {ρ γ : Type} (c : OnConflict ρ) (written : ρ → γ) : Prop := ∀ old new, c.assign old new = old ↔
    written new = written old

section
variable (mode : ImportMode)

theorem memory_assigns : Assigns (memoryConflict mode) MemoryRow.written := by
  intro old new
  cases old
  simp [memoryConflict, MemoryRow.written]

theorem knowledge_assigns : Assigns (knowledgeConflict mode) KnowledgeRow.written := by
  intro old new
  cases old
  simp [knowledgeConflict, KnowledgeRow.written]

theorem unit_assigns : Assigns (unitConflict mode) UnitRow.written := by
  intro old new
  cases old
  simp [unitConflict, UnitRow.written]

theorem policy_assigns : Assigns (policyConflict mode) PolicyRow.written := by
  intro old new
  cases old
  simp [policyConflict, PolicyRow.written]

theorem event_assigns : Assigns (eventConflict mode) EventRow.written := by
  intro old new
  cases old
  simp [eventConflict, EventRow.written]

end

theorem rewrite_eq_iff {ρ γ : Type} {c : OnConflict ρ} {written : ρ → γ} (assigns : Assigns c written) {old new : ρ} :
    c.rewrite new old = old ↔ (c.applies old new → written new = written old) := by
  unfold OnConflict.rewrite
  split
  · rename_i applies
    rw [assigns]
    exact ⟨fun same _ => same, fun same => same applies⟩
  · rename_i left
    exact ⟨fun _ applies => absurd applies left, fun _ => rfl⟩

section
variable (setup : ImportSetup) (tenantId : String) (mode : ImportMode) (start : ImportTables)

def ForeignPolicy (row : PolicyRow) : Prop :=
  ∃ unit, start.organizationalUnits.get row.unitId = some unit ∧ unit.tenantId ≠ tenantId

structure Isolated (now : ImportTables) : Prop where
  memoryEntries : start.memoryEntries.Kept (fun _ row => row.tenantId ≠ tenantId) now.memoryEntries
  knowledgeItems : start.knowledgeItems.Kept (fun _ row => row.tenantId ≠ tenantId) now.knowledgeItems
  organizationalUnits : start.organizationalUnits.Kept (fun _ row => row.tenantId ≠ tenantId) now.organizationalUnits
  unitPolicies : start.unitPolicies.Kept (fun _ row => ForeignPolicy tenantId start row) now.unitPolicies
  userRoles : start.userRoles.Kept (fun key _ => key.tenantId ≠ tenantId) now.userRoles
  governanceEvents : start.governanceEvents.Kept (fun _ row => row.tenantId ≠ tenantId) now.governanceEvents

def Leaves {ρ γ : Type} (rows : Table String ρ) (foreign : ρ → Prop) (c : OnConflict ρ) (written : ρ → γ)
    (id : String) (row : Except String ρ) : Prop :=
  ∀ old new, rows.get id = some old → foreign old → row = .ok new → c.applies old new → written new = written old

def Spares : Planned → Prop
  | (.memories, record) => Leaves start.memoryEntries (fun row => row.tenantId ≠ tenantId)
      (memoryConflict mode) MemoryRow.written
    (textField record "id") (memoryRow setup tenantId record)
  | (.knowledge, record) => Leaves start.knowledgeItems (fun row => row.tenantId ≠ tenantId) (knowledgeConflict mode)
    KnowledgeRow.written (textField record "id") (knowledgeRow setup tenantId record)
  | (.orgUnits, record) => Leaves start.organizationalUnits (fun row => row.tenantId ≠ tenantId)
      (unitConflict mode) UnitRow.written
    (textField record "id") (unitRow setup tenantId record)
  | (.policies, record) => Leaves start.unitPolicies (ForeignPolicy tenantId start)
      (policyConflict mode) PolicyRow.written
    (textField record "id") (policyRow setup record)
  | (.roleAssignments, _) => True
  | (.governanceEvents, record) => Leaves start.governanceEvents (fun row => row.tenantId ≠ tenantId)
      (eventConflict mode)
    EventRow.written (textField record "id") (eventRow setup tenantId record)

variable {setup tenantId mode start}

theorem Isolated.refl : Isolated tenantId start start where
  memoryEntries := kept_refl
  knowledgeItems := kept_refl
  organizationalUnits := kept_refl
  unitPolicies := kept_refl
  userRoles := kept_refl
  governanceEvents := kept_refl

theorem kept_statement {ρ γ : Type} {part other : ImportPart} {rows : ImportTables → Table String ρ}
    {read : JsonValue → Except String ρ} {c : OnConflict ρ} {foreign : ρ → Prop} {written : ρ → γ}
    {record : JsonValue} {t after : ImportTables} (upserts : Upserts setup tenantId mode part rows read c)
    (assigns : Assigns c written) (kept : (rows start).Kept (fun _ row => foreign row) (rows t))
    (done : writeRecord setup tenantId record mode other t = .ok after) :
    (rows start).Kept (fun _ row => foreign row) (rows after) ↔
      (other = part → Leaves (rows start) foreign c written (textField record "id") (read record)) := by
  by_cases own : other = part
  · subst own
    obtain ⟨new, same, tables⟩ := upserts.own done
    rw [tables, kept_upsert kept]
    constructor
    · intro left _ old another held foreign read
      cases same.symm.trans read
      exact (rewrite_eq_iff assigns).mp (left old held foreign)
    · intro leaves old held foreign
      exact (rewrite_eq_iff assigns).mpr (leaves rfl old new held foreign same)
  · rw [upserts.other (writeRecord_only done) own]
    exact ⟨fun _ same => absurd same own, fun _ => kept⟩

theorem isolated_step {db next : Database} {s : Planned} (isolated : Isolated tenantId start db.tables)
    (ran : importStep setup tenantId mode db s = some next) :
    Isolated tenantId start next.tables ↔ Spares setup tenantId mode start s := by
  obtain ⟨part, record⟩ := s
  have done := (execute_ok (importStep_eq_some.mp ran)).2
  have memories := kept_statement memories_upserts (memory_assigns mode) isolated.memoryEntries done
  have knowledge := kept_statement knowledge_upserts (knowledge_assigns mode) isolated.knowledgeItems done
  have units := kept_statement units_upserts (unit_assigns mode) isolated.organizationalUnits done
  have policies := kept_statement policies_upserts (policy_assigns mode) isolated.unitPolicies done
  have events := kept_statement events_upserts (event_assigns mode) isolated.governanceEvents done
  constructor
  · intro after
    cases part with
    | memories => exact memories.mp after.memoryEntries rfl
    | knowledge => exact knowledge.mp after.knowledgeItems rfl
    | orgUnits => exact units.mp after.organizationalUnits rfl
    | policies => exact policies.mp after.unitPolicies rfl
    | roleAssignments => trivial
    | governanceEvents => exact events.mp after.governanceEvents rfl
  · intro spares
    refine ⟨memories.mpr ?_, knowledge.mpr ?_, units.mpr ?_, policies.mpr ?_, ?_, events.mpr ?_⟩
    case refine_5 =>
      by_cases own : part = .roleAssignments
      · subst own
        obtain ⟨key, createdAt, _, _, roles⟩ := roles_written done
        rw [roles]
        exact kept_insertOrIgnore isolated.userRoles
      · rw [(writeRecord_only done).userRoles own]
        exact isolated.userRoles
    -- The statement is one of this table.
    all_goals
      intro own
      cases own
      exact spares

/-- An import leaves the rows of other tenants as they were, from its first statement on, exactly if each
statement that the database takes does. -/
theorem import_isolated (setup : ImportSetup) (tenantId : String) (mode : ImportMode) (dryRun : Bool)
    (archive : ImportArchive) (db : Database) :
    (∀ reached ∈ (runImport setup tenantId mode dryRun archive { db }).2.states,
      Isolated tenantId db.tables reached.tables) ↔
      (dryRun = false → archive.mismatches = [] → Along (importStep setup tenantId mode)
        (fun reached s => (importStep setup tenantId mode reached s).isSome →
          Spares setup tenantId mode db.tables s) db
        (importPlan archive)) := by
  by_cases written : dryRun = false ∧ archive.mismatches = []
  · obtain ⟨rfl, intact⟩ := written
    have spared : Throughout (importStep setup tenantId mode)
        (fun now : Database => Isolated tenantId db.tables now.tables) db
        (importPlan archive) ↔ _ := throughout_iff_possible (fun holds => holds)
      (fun isolated spares ran => (isolated_step isolated ran).mpr spares)
      (fun isolated ran after => (isolated_step isolated ran).mp after) Isolated.refl
    rw [runImport_states intact Isolated.refl, spared]
    exact ⟨fun along _ _ => along, fun along => along rfl intact⟩
  · rw [runImport_still written]
    refine ⟨fun _ real intact => absurd ⟨real, intact⟩ written, fun _ => ?_⟩
    exact List.forall_mem_cons.mpr ⟨.refl, fun _ absent => absurd absent List.not_mem_nil⟩

end

def companyOfB : Database where
  tables :=
    { organizationalUnits :=
        { rows := [("u", { name := "B", type := "company", parentId := none, tenantId := "b", metadata := .null, createdAt := 0 })]
          unique := by decide } }
  consistent := by decide +kernel

def companyOfA : ImportArchive where
  entityCounts := { orgUnits := 1 }
  file
    | .orgUnits => some [.object [("id", .string "u"), ("name", .string "A"), ("type", .string "company"),
      ("created_at", .string "2026-01-01T00:00:00+00:00")]]
    | _ => none

theorem import_renames : ¬ Isolated "a" companyOfB.tables
    (runImport storageSetup "a" .merge false companyOfA { db := companyOfB }).2.db.tables := by
  intro isolated
  have kept := isolated.organizationalUnits "u" _ rfl (by decide)
  have name := congrArg (Option.map UnitRow.name) kept
  revert name
  decide +kernel

end Aeterna.Backup
