import Aeterna.Lib.Runs
import Aeterna.Lib.Table
import Aeterna.Tenancy.Units
import Mathlib.Data.List.Pairwise

/-!
The table `organizational_units`, with the units of every tenant, and the calls that create and change a unit
(`storage/src/postgres.rs`).
-/

namespace Aeterna.Tenancy
open Lib (JsonValue Table)

structure OrgUnitRow where
  (name kind : String)
  parentId : Option String
  tenantId : String
  metadata : List (String × JsonValue) := []
  (createdAt updatedAt : DateTime)

def OrgUnitRow.place (row : OrgUnitRow) : String × String × String := (row.tenantId, row.parentId.getD "", row.name)

/-- `OrganizationalUnit`, as a caller passes it. -/
structure OrgUnit where
  (id name : String)
  unitType : UnitType
  parentId : Option String := none
  tenantId : String
  metadata : List (String × JsonValue) := []
  (createdAt updatedAt : DateTime)

def OrgUnit.toRow (unit : OrgUnit) : OrgUnitRow :=
  { name := unit.name, kind := unitKind unit.unitType, parentId := unit.parentId, tenantId := unit.tenantId,
    metadata := unit.metadata, createdAt := unit.createdAt, updatedAt := unit.updatedAt }

def PlacesApart (rows : Table String OrgUnitRow) : Prop := rows.rows.Pairwise (fun a b => a.2.place ≠ b.2.place)

def ParentsHeld (rows : Table String OrgUnitRow) : Prop :=
  ∀ e ∈ rows.rows, ∀ p ∈ e.2.parentId, (rows.get p).isSome

instance (rows : Table String OrgUnitRow) : Decidable (PlacesApart rows) :=
  inferInstanceAs (Decidable (List.Pairwise _ _))

instance (rows : Table String OrgUnitRow) : Decidable (ParentsHeld rows) :=
  inferInstanceAs (Decidable (∀ e ∈ rows.rows, _))

structure UnitTable where
  rows : Table String OrgUnitRow := {}
  placesApart : PlacesApart rows := by exact List.Pairwise.nil
  parentsHeld : ParentsHeld rows := by exact fun _ member => absurd member List.not_mem_nil

namespace UnitTable

def checked (rows : Table String OrgUnitRow) : Except PostgresError UnitTable :=
  if apart : PlacesApart rows then
    if held : ParentsHeld rows then .ok ⟨rows, apart, held⟩
    else .error (.database
      "insert or update on table \"organizational_units\" violates foreign key constraint \"organizational_units_parent_id_fkey\"")
  else .error (.database
    "duplicate key value violates unique constraint \"idx_organizational_units_tenant_parent_name_uniq\"")

variable (t : UnitTable)

def rowOf (tenantId id : String) : Option OrgUnitRow := (t.rows.get id).filter (fun row => row.tenantId = tenantId)

theorem rowOf_eq_some {t : UnitTable} {tenantId id : String} {row : OrgUnitRow} :
    t.rowOf tenantId id = some row ↔ t.rows.get id = some row ∧ row.tenantId = tenantId := by
  simp [rowOf, Option.filter_eq_some_iff]

def getUnitByIdTx (id tenantId : String) : Except PostgresError (Option UnitType) :=
  match t.rowOf tenantId id with
  | some row => (unitTypeOf row.kind).map some
  | none => .ok none

def ancestorRows (tenantId : String) : Nat → String → Option (List (String × OrgUnitRow))
  | 0, _ => none
  | fuel + 1, id =>
    match t.rowOf tenantId id with
    | none => some []
    | some row =>
      match row.parentId with
      | none => some [(id, row)]
      | some parentId => (ancestorRows tenantId fuel parentId).map ((id, row) :: ·)

def getAncestors (tenantId id : String) : Option (List String) :=
  (t.ancestorRows tenantId (t.rows.rows.length + 3) id).map (fun rows =>
    (rows.filter (fun e => e.1 ≠ id ∧ (unitTypeOf e.2.kind).isOk)).map Prod.fst)

variable (unit : OrgUnit)

def validatePlacement (existingId : Option String) : Except PostgresError Unit :=
  match unit.parentId with
  | none =>
    if unit.unitType ≠ .organization then
      .error (.database "error occurred while decoding: Only Organization units can be root units (no parent)")
    else .ok ()
  | some parentId =>
    if existingId = some parentId then
      .error (.database ("error occurred while decoding: Cycle detected: unit " ++ parentId.quote ++
        " cannot be its own parent"))
    else do
      match ← t.getUnitByIdTx parentId unit.tenantId with
      | none => .error (.notFound parentId)
      | some parentType => validateParentChildTypes parentType unit.unitType

def validateAncestors : Option (Except PostgresError Unit) :=
  match unit.parentId with
  | none => some (.ok ())
  | some parentId => (t.getAncestors unit.tenantId parentId).map (fun ancestors =>
    if unit.id ∈ ancestors then
      .error (.database ("error occurred while decoding: Cycle detected: cannot set parent of " ++
        unit.id.quote ++ " to " ++
        parentId.quote ++ " because " ++ unit.id.quote ++ " is already an ancestor of " ++ parentId.quote))
    else .ok ())

def insertUnit : Except PostgresError UnitTable :=
  let row := unit.toRow
  match t.rows.rows.find? (fun e => e.2.place = row.place) with
  | some (held, _) =>
    checked (t.rows.update (fun id old =>
      if id = held then { old with metadata := row.metadata, updatedAt := row.updatedAt } else old))
  | none =>
    if absent : t.rows.get unit.id = none then checked (t.rows.insert unit.id row absent)
    else .error (.database "duplicate key value violates unique constraint \"organizational_units_pkey\"")

def createUnit : Except PostgresError UnitTable := do
  t.validatePlacement unit none
  t.insertUnit unit

def storeUnit : Except PostgresError UnitTable :=
  checked (t.rows.update (fun id old =>
    if id = unit.id ∧ old.tenantId = unit.tenantId then
      { old with
        name := unit.name, kind := unitKind unit.unitType, parentId := unit.parentId, metadata := unit.metadata,
        updatedAt := unit.updatedAt }
    else old))

/-- The `tenant_id` argument is that of the unit. The call does not return if the walk over the ancestors does not. -/
def updateUnit : Option (Except PostgresError UnitTable) :=
  match t.validatePlacement unit (some unit.id) with
  | .error e => some (.error e)
  | .ok () => (t.validateAncestors unit).map (fun valid => valid.bind (fun _ => t.storeUnit unit))

end UnitTable

end Aeterna.Tenancy
