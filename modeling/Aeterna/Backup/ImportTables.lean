import Aeterna.Lib.JsonValue
import Aeterna.Lib.Table
import Mathlib.Data.List.Pairwise

/-!
The tables that an import of a backup writes, and its statements (`cli/src/server/backup_api.rs`, with the tables of
`storage/src/postgres.rs`).
-/

namespace Aeterna.Backup
open Lib (JsonValue Table)

inductive ImportMode where
  | merge | replace | skipExisting
  deriving DecidableEq

inductive ImportPart where
  | memories | knowledge | orgUnits | policies | roleAssignments | governanceEvents
  deriving DecidableEq

structure MemoryRow where
  (tenantId content memoryLayer importanceScore : String)
  properties : JsonValue
  (createdAt updatedAt : Int)

structure KnowledgeRow where
  (tenantId type title content : String)
  (tags properties : JsonValue)
  (createdAt updatedAt : Int)

structure UnitRow where
  (name type : String)
  parentId : Option String
  tenantId : String
  metadata : JsonValue
  createdAt : Int

def UnitRow.place (row : UnitRow) : String × String × String := (row.tenantId, row.parentId.getD "", row.name)

structure PolicyRow where
  unitId : String
  policy : JsonValue
  (createdAt updatedAt : Int)

structure RoleKey where
  (userId tenantId unitId role : String)
  deriving DecidableEq

structure EventRow where
  (eventType tenantId : String)
  payload : JsonValue
  timestamp : Int

structure ImportTables where
  memoryEntries : Table String MemoryRow := {}
  knowledgeItems : Table String KnowledgeRow := {}
  organizationalUnits : Table String UnitRow := {}
  unitPolicies : Table String PolicyRow := {}
  userRoles : Table RoleKey Int := {}
  governanceEvents : Table String EventRow := {}

/-- The unique index on units and the foreign keys. -/
def Consistent (t : ImportTables) : Prop :=
  t.organizationalUnits.rows.Pairwise (fun a b => a.2.place ≠ b.2.place) ∧
  (∀ e ∈ t.organizationalUnits.rows, ∀ p ∈ e.2.parentId, (t.organizationalUnits.get p).isSome) ∧
  (∀ e ∈ t.unitPolicies.rows, (t.organizationalUnits.get e.2.unitId).isSome) ∧
  (∀ e ∈ t.userRoles.rows, (t.organizationalUnits.get e.1.unitId).isSome)

instance (t : ImportTables) : Decidable (Consistent t) := by
  unfold Consistent
  infer_instance

structure Database where
  tables : ImportTables
  consistent : Consistent tables

/-- The database: which statements its columns do not take at all, and how it reads and writes values. -/
structure ImportSetup where
  refuses : ImportPart → Option String
  timestamptz : String → Option Int
  timeText : ImportPart → Int → String
  real : String → String

/-- `ON CONFLICT (id) DO UPDATE SET … WHERE …`. -/
structure OnConflict (ρ : Type) where
  applies : ρ → ρ → Bool
  assign : ρ → ρ → ρ

def OnConflict.rewrite {ρ : Type} (c : OnConflict ρ) (new old : ρ) : ρ := if c.applies old new then c.assign old new
    else old

/-- Whether a record that was changed at the time `new` overwrites a row that was changed at the time `old`. -/
def ImportMode.overwrites : ImportMode → (old new : Int) → Bool
  | .merge, old, new => old < new
  | .replace, _, _ => true
  | .skipExisting, _, _ => false

section
variable (mode : ImportMode)

def memoryConflict : OnConflict MemoryRow where
  applies old new := mode.overwrites old.updatedAt new.updatedAt
  assign old new := { old with
    content := new.content, memoryLayer := new.memoryLayer, importanceScore := new.importanceScore,
    properties := new.properties, updatedAt := new.updatedAt }

def knowledgeConflict : OnConflict KnowledgeRow where
  applies old new := mode.overwrites old.updatedAt new.updatedAt
  assign old new := { old with
    type := new.type, title := new.title, content := new.content, tags := new.tags, properties := new.properties,
    updatedAt := new.updatedAt }

def unitConflict : OnConflict UnitRow where
  applies _ _ := mode ≠ .skipExisting
  assign old new := { old with name := new.name, type := new.type, parentId := new.parentId, metadata := new.metadata }

def policyConflict : OnConflict PolicyRow where
  applies old new := mode.overwrites old.updatedAt new.updatedAt
  assign old new := { old with policy := new.policy, updatedAt := new.updatedAt }

def eventConflict : OnConflict EventRow where
  applies _ _ := mode ≠ .skipExisting
  assign old new := { old with eventType := new.eventType, payload := new.payload, timestamp := new.timestamp }

end

section
variable (setup : ImportSetup) (tenantId : String) (record : JsonValue)

def textField (key : String) : String := (record.get key).asStr.getD ""

def castTime (key : String) : Except String Int :=
  match setup.timestamptz (textField record key) with
  | some t => .ok t
  | none => .error ("invalid input syntax for type timestamp with time zone: " ++
      JsonValue.quote (textField record key))

def memoryRow : Except String MemoryRow := do
  let createdAt ← castTime setup record "created_at"
  let updatedAt ← castTime setup record "updated_at"
  pure
    { tenantId, content := textField record "content"
      memoryLayer := (record.get "memory_layer").asStr.getD "episodic"
      importanceScore := setup.real (match record.get "importance_score" with
        | .number digits => digits
        | _ => "0.5")
      properties := record.get "properties", createdAt, updatedAt }

def knowledgeRow : Except String KnowledgeRow := do
  let createdAt ← castTime setup record "created_at"
  let updatedAt ← castTime setup record "updated_at"
  pure
    { tenantId, type := textField record "type", title := textField record "title", content := textField record "content"
      tags := record.get "tags", properties := record.get "properties", createdAt, updatedAt }

def unitRow : Except String UnitRow := do
  let createdAt ← castTime setup record "created_at"
  pure
    { name := textField record "name", type := textField record "type", parentId := (record.get "parent_id").asStr, tenantId
      metadata := record.get "metadata", createdAt }

def policyRow : Except String PolicyRow := do
  let createdAt ← castTime setup record "created_at"
  let updatedAt ← castTime setup record "updated_at"
  pure { unitId := textField record "unit_id", policy := record.get "policy", createdAt, updatedAt }

def roleKey : Except String RoleKey :=
  match (record.get "unit_id").asStr with
  | none => .error "null value in column \"unit_id\" of relation \"user_roles\" violates not-null constraint"
  | some unitId => .ok { userId := textField record "user_id", tenantId, unitId, role := textField record "role" }

def eventRow : Except String EventRow := do
  let timestamp ← castTime setup record "timestamp"
  pure { eventType := textField record "event_type", tenantId, payload := record.get "payload", timestamp }

variable (mode : ImportMode)

def writeRecord (part : ImportPart) (t : ImportTables) : Except String ImportTables :=
  let id := textField record "id"
  match part with
  | .memories => (memoryRow setup tenantId record).map (fun row =>
    { t with memoryEntries := t.memoryEntries.upsert id row ((memoryConflict mode).rewrite row) })
  | .knowledge => (knowledgeRow setup tenantId record).map (fun row =>
    { t with knowledgeItems := t.knowledgeItems.upsert id row ((knowledgeConflict mode).rewrite row) })
  | .orgUnits => (unitRow setup tenantId record).map (fun row =>
    { t with organizationalUnits := t.organizationalUnits.upsert id row ((unitConflict mode).rewrite row) })
  | .policies => (policyRow setup record).map (fun row =>
    { t with unitPolicies := t.unitPolicies.upsert id row ((policyConflict mode).rewrite row) })
  | .roleAssignments => do
    let key ← roleKey tenantId record
    let createdAt ← castTime setup record "created_at"
    pure { t with userRoles := t.userRoles.insertOrIgnore key createdAt }
  | .governanceEvents => (eventRow setup tenantId record).map (fun row =>
    { t with governanceEvents := t.governanceEvents.upsert id row ((eventConflict mode).rewrite row) })

def execute (part : ImportPart) (db : Database) : Except String Database :=
  match setup.refuses part with
  | some message => .error message
  | none => do
    let tables ← writeRecord setup tenantId record mode part db.tables
    if consistent : Consistent tables then pure ⟨tables, consistent⟩
    else throw "insert or update violates a constraint"

end

/-- The tables of `storage/src/postgres.rs`: most of their times are numbers, and events have no time of this name. -/
def storageRefuses : ImportPart → Option String
  | .memories | .knowledge | .policies =>
    some "column \"created_at\" is of type bigint but expression is of type timestamp with time zone"
  | .governanceEvents => some "column \"timestamp\" of relation \"governance_events\" does not exist"
  | .orgUnits | .roleAssignments => none

def storageTimestamptz (text : String) : Option Int :=
  if text = "2026-01-01T00:00:00+00:00" then some 1767225600000000
  else match text.toList with
    | '@' :: digits => (String.ofList digits).toInt?
    | _ => none

def storageSetup : ImportSetup where
  refuses := storageRefuses
  timestamptz := storageTimestamptz
  timeText _ time := toString time
  real digits := digits

end Aeterna.Backup
