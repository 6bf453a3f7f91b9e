import Aeterna.Graph.Snapshots

namespace Aeterna.Graph
open Lib (Eff Table)
open Lib.Eff Lib.Table

/-- All columns of `memory_nodes` but the key. -/
structure NodeRecord where
  label : String
  properties : Option String
  tenantId : String
  (memoryId createdAt updatedAt : Option String)
  seq : Option Int
  deletedAt : Option String
  deriving DecidableEq

/-- All columns of `memory_edges` but the key. -/
structure EdgeRecord where
  (sourceId targetId relation : String)
  properties : Option String
  tenantId : String
  (weight createdAt : Option String)
  seq : Option Int
  deletedAt : Option String
  deriving DecidableEq

/-- A node as a `SELECT` gives it, with `TRY_CAST` done. -/
structure NodeColumns where
  (id label properties tenantId memoryId createdAt updatedAt : Option String)
  seq : Option Int
  deletedAt : Option String

structure EdgeColumns where
  (id sourceId targetId relation properties tenantId weight createdAt : Option String)
  seq : Option Int
  deletedAt : Option String

/-- The row of the table, unless a column that is `NOT NULL` is null. -/
def NodeColumns.row (columns : NodeColumns) : Option (String × NodeRecord) := do
  let id ← columns.id
  let label ← columns.label
  let tenantId ← columns.tenantId
  some (id, ⟨label, columns.properties, tenantId, columns.memoryId, columns.createdAt, columns.updatedAt, columns.seq,
    columns.deletedAt⟩)

def EdgeColumns.row (columns : EdgeColumns) : Option (String × EdgeRecord) := do
  let id ← columns.id
  let sourceId ← columns.sourceId
  let targetId ← columns.targetId
  let relation ← columns.relation
  let tenantId ← columns.tenantId
  some (id, ⟨sourceId, targetId, relation, columns.properties, tenantId, columns.weight,
    columns.createdAt, columns.seq,
    columns.deletedAt⟩)

/-- The rows of a snapshot file or of the two Iceberg tables. -/
structure GraphRows where
  nodes : List NodeColumns
  edges : List EdgeColumns

/-- The columns that `import_from_parquet` selects, with the tenant it is called for. -/
def GraphRows.imported (data : GraphRows) (tenantId : String) : GraphRows where
  nodes := data.nodes.map (fun columns => { columns with tenantId := some tenantId, deletedAt := none })
  edges := data.edges.map (fun columns => { columns with tenantId := some tenantId, deletedAt := none })

structure GraphRecords where
  memoryNodes : Table String NodeRecord := {}
  memoryEdges : Table String EdgeRecord := {}
  graphTenantSequences : Table String Int := {}

inductive ImportStep where
  | enableParquetSupport
  | writeFile
  | deleteEdges
  | deleteNodes
  | insertNodes
  | insertEdges
  | selectNodeMaxSeq
  | selectEdgeMaxSeq
  | upsertSequence
  deriving DecidableEq

inductive ImportError where
  | duckDb (reason : String)
  | io (reason : String)
  | iceberg (reason : String)

/-- What DuckDB and the file system report: a failure of a statement for a reason of their own, and the text for a
row that a table does not take. -/
structure ImportFaults where
  fails : ImportStep → Option String
  constraint : String

namespace GraphRecords

def deleteEdges (tenantId : String) (s : GraphRecords) : GraphRecords :=
  { s with memoryEdges := s.memoryEdges.keepOnly (fun _ row => row.tenantId ≠ tenantId) }

def deleteNodes (tenantId : String) (s : GraphRecords) : GraphRecords :=
  { s with memoryNodes := s.memoryNodes.keepOnly (fun _ row => row.tenantId ≠ tenantId) }

def insertNodes (rows : GraphRows) (s : GraphRecords) : Option GraphRecords := do
  let records ← rows.nodes.mapM NodeColumns.row
  let memoryNodes ← s.memoryNodes.insertAll records
  some { s with memoryNodes := memoryNodes }

def insertEdges (rows : GraphRows) (s : GraphRecords) : Option GraphRecords := do
  let records ← rows.edges.mapM EdgeColumns.row
  let memoryEdges ← s.memoryEdges.insertAll records
  some { s with memoryEdges := memoryEdges }

def nodeMaxSeq (s : GraphRecords) (tenantId : String) : Int :=
  maxSeq ((s.memoryNodes.rows.filter (fun e => e.2.tenantId = tenantId)).filterMap (fun e => e.2.seq))

def edgeMaxSeq (s : GraphRecords) (tenantId : String) : Int :=
  maxSeq ((s.memoryEdges.rows.filter (fun e => e.2.tenantId = tenantId)).filterMap (fun e => e.2.seq))

def upsertSequence (tenantId : String) (s : GraphRecords) : GraphRecords :=
  let lastSeq := max (s.nodeMaxSeq tenantId) (s.edgeMaxSeq tenantId)
  { s with graphTenantSequences := s.graphTenantSequences.upsert tenantId lastSeq (fun _ => lastSeq) }

variable (faults : ImportFaults) (tenantId : String)

def replaceRows (nodesError edgesError : String → ImportError) (rows : GraphRows) :
    Eff GraphRecords ImportError Unit := do
  statement ((faults.fails .deleteEdges).map .duckDb) (fun s => .ok (s.deleteEdges tenantId))
  statement ((faults.fails .deleteNodes).map .duckDb) (fun s => .ok (s.deleteNodes tenantId))
  statement ((faults.fails .insertNodes).map nodesError)
    (fun s => ((s.insertNodes rows).map .ok).getD (.error (nodesError faults.constraint)))
  statement ((faults.fails .insertEdges).map edgesError)
    (fun s => ((s.insertEdges rows).map .ok).getD (.error (edgesError faults.constraint)))

def importFromParquet (data : GraphRows) : Eff GraphRecords ImportError Unit := do
  statement ((faults.fails .enableParquetSupport).map .duckDb) .ok
  statement ((faults.fails .writeFile).map .io) .ok
  replaceRows faults tenantId .duckDb .duckDb (data.imported tenantId)
  statement ((faults.fails .selectNodeMaxSeq).map .duckDb) .ok
  statement ((faults.fails .selectEdgeMaxSeq).map .duckDb) .ok
  statement ((faults.fails .upsertSequence).map .duckDb) (fun s => .ok (s.upsertSequence tenantId))

def loadFromIceberg (tables : GraphRows) : Eff GraphRecords ImportError Unit :=
  replaceRows faults tenantId (fun reason => .iceberg ("Load nodes from iceberg: " ++ reason))
    (fun reason => .iceberg ("Load edges from iceberg: " ++ reason)) tables

def ownNode (s : GraphRecords) (id : String) : Option NodeRecord :=
  (s.memoryNodes.get id).filter (fun row => row.tenantId = tenantId)

def ownEdge (s : GraphRecords) (id : String) : Option EdgeRecord :=
  (s.memoryEdges.get id).filter (fun row => row.tenantId = tenantId)

structure Intact (s s' : GraphRecords) : Prop where
  nodes : ∀ id, s'.ownNode tenantId id = s.ownNode tenantId id
  edges : ∀ id, s'.ownEdge tenantId id = s.ownEdge tenantId id
  sequence : s'.graphTenantSequences.get tenantId = s.graphTenantSequences.get tenantId

end GraphRecords

section
variable {ρ : Type} (owner : ρ → String) (tenantId : String)

def Accepted (t : Table String ρ) (records : Option (List (String × ρ))) : Prop :=
  ∃ rows, records = some rows ∧ (rows.map Prod.fst).Nodup ∧
    ∀ e ∈ rows, ∀ row, t.get e.1 = some row → owner row = tenantId

def own (row : Option ρ) : Option ρ := row.filter (fun row => owner row = tenantId)

def given (records : Option (List (String × ρ))) (id : String) : Option ρ :=
  own owner tenantId (find (records.getD []) id)

def others (t : Table String ρ) : Table String ρ := t.keepOnly (fun _ row => owner row ≠ tenantId)

def refilled (t : Table String ρ) (records : Option (List (String × ρ))) : Option (Table String ρ) :=
  records.bind (fun rows => (others owner tenantId t).insertAll rows)

variable {owner tenantId} {t t' : Table String ρ} {records : Option (List (String × ρ))}

theorem own_kept (id : String) : own owner tenantId ((others owner tenantId t).get id) = none := by
  rw [others, get_keepOnly]
  cases t.get id with
  | none => rfl
  | some row => by_cases same : owner row = tenantId <;> simp [own, Option.filter, same]

theorem free_kept {id : String} : (others owner tenantId t).get id = none ↔
    ∀ row, t.get id = some row → owner row = tenantId := by
  rw [others, get_keepOnly]
  cases t.get id <;> simp [Option.filter]

theorem refilled_iff : (refilled owner tenantId t records).isSome = true ↔ Accepted owner tenantId t records := by
  cases records with
  | none => simp [refilled, Accepted]
  | some rows =>
    show ((others owner tenantId t).insertAll rows).isSome = true ↔ _
    constructor
    · intro inserted
      refine ⟨rows, rfl, ?_⟩
      by_contra clash
      rw [insertAll_fails] at inserted
      · cases inserted
      · rintro ⟨unique, apart⟩
        exact clash ⟨unique, fun e member => free_kept.mp (apart e member)⟩
    · rintro ⟨_, same, unique, apart⟩
      cases same
      rw [insertAll_eq unique (fun e member => free_kept.mpr (apart e member))]
      rfl

theorem own_refilled (filled : refilled owner tenantId t records = some t') (id : String) :
    own owner tenantId (t'.get id) = given owner tenantId records id := by
  obtain ⟨rows, rfl, unique, apart⟩ := refilled_iff.mp (by rw [filled]; rfl)
  have inserted : (others owner tenantId t).insertAll rows = some t' := filled
  rw [insertAll_eq unique (fun e member => free_kept.mpr (apart e member))] at inserted
  cases inserted
  rw [get_insertOrIgnoreAll]
  show _ = own owner tenantId (find rows id)
  cases held : (others owner tenantId t).get id with
  | none => rw [Option.none_or]
  | some row =>
    have absent : find rows id = none := by
      rw [find, Option.map_eq_none_iff, List.find?_eq_none]
      intro e member same
      have key : e.1 = id := by simpa using same
      have free := free_kept.mpr (apart e member)
      rw [key, held] at free
      cases free
    have nothing : own owner tenantId ((others owner tenantId t).get id) = none := own_kept id
    rw [held] at nothing
    rw [absent, Option.some_or, nothing]
    rfl

end

namespace GraphRecords
variable (faults : ImportFaults) (tenantId : String) (rows : GraphRows) (s : GraphRecords)

def nodeRecords : Option (List (String × NodeRecord)) := rows.nodes.mapM NodeColumns.row
def edgeRecords : Option (List (String × EdgeRecord)) := rows.edges.mapM EdgeColumns.row

/-- The surroundings let the statement fail, or a table does not take the rows. -/
def Fails (step : ImportStep) : Prop :=
  (faults.fails step).isSome = true ∨
    (step = .insertNodes ∧ ¬ Accepted NodeRecord.tenantId tenantId s.memoryNodes (nodeRecords rows)) ∨
    (step = .insertEdges ∧ ¬ Accepted EdgeRecord.tenantId tenantId s.memoryEdges (edgeRecords rows))

def NoNodes : Prop := ∀ id, s.ownNode tenantId id = none
def NoEdges : Prop := ∀ id, s.ownEdge tenantId id = none

def HasNodes : Prop := ∀ id, s.ownNode tenantId id = given NodeRecord.tenantId tenantId (nodeRecords rows) id
def HasEdges : Prop := ∀ id, s.ownEdge tenantId id = given EdgeRecord.tenantId tenantId (edgeRecords rows) id

/-- The statement may fail without harm: what was deleted before it was not there, or is imported again as it was. -/
def SafeAt : ImportStep → Prop
  | .enableParquetSupport | .writeFile | .deleteEdges => True
  | .deleteNodes => s.NoEdges tenantId
  | .insertNodes => s.NoEdges tenantId ∧ s.NoNodes tenantId
  | .insertEdges => s.NoEdges tenantId ∧ s.HasNodes tenantId rows
  | .selectNodeMaxSeq | .selectEdgeMaxSeq | .upsertSequence => s.HasNodes tenantId rows ∧ s.HasEdges tenantId rows

def icebergSteps : List ImportStep := [.deleteEdges, .deleteNodes, .insertNodes, .insertEdges]

def parquetSteps : List ImportStep :=
  .enableParquetSupport :: .writeFile :: (icebergSteps ++ [.selectNodeMaxSeq, .selectEdgeMaxSeq, .upsertSequence])

section
variable {faults : ImportFaults} {tenantId : String} {rows : GraphRows} {s : GraphRecords}

theorem insertNodes_eq : ((s.deleteEdges tenantId).deleteNodes tenantId).insertNodes rows =
    (refilled NodeRecord.tenantId tenantId s.memoryNodes (nodeRecords rows)).map
      (fun memoryNodes => { (s.deleteEdges tenantId) with memoryNodes := memoryNodes }) := by
  unfold refilled
  show (nodeRecords rows).bind (fun records => ((others _ _ _).insertAll records).bind _) = _
  cases nodeRecords rows with
  | none => rfl
  | some records => exact Option.map_eq_bind.symm

variable {memoryNodes : Table String NodeRecord} {error : String → ImportError}

theorem insertEdges_eq : insertEdges rows { (s.deleteEdges tenantId) with memoryNodes := memoryNodes } =
    (refilled EdgeRecord.tenantId tenantId s.memoryEdges (edgeRecords rows)).map
      (fun memoryEdges => { s with memoryNodes := memoryNodes, memoryEdges := memoryEdges }) := by
  unfold refilled
  show (edgeRecords rows).bind (fun records => ((others _ _ _).insertAll records).bind _) = _
  cases edgeRecords rows with
  | none => rfl
  | some records => exact Option.map_eq_bind.symm

theorem intact_deleteEdges : Intact tenantId s (s.deleteEdges tenantId) ↔ s.NoEdges tenantId := by
  constructor
  · intro intact id
    rw [← intact.edges id]
    exact own_kept id
  · intro none_there
    exact ⟨fun _ => rfl, fun id => (own_kept id).trans (none_there id).symm, rfl⟩

theorem intact_cleared : Intact tenantId s ((s.deleteEdges tenantId).deleteNodes tenantId) ↔
    s.NoEdges tenantId ∧ s.NoNodes tenantId := by
  constructor
  · intro intact
    refine ⟨fun id => ?_, fun id => ?_⟩
    · rw [← intact.edges id]
      exact own_kept id
    · rw [← intact.nodes id]
      exact own_kept id
  · rintro ⟨no_edges, no_nodes⟩
    exact ⟨fun id => (own_kept id).trans (no_nodes id).symm, fun id => (own_kept id).trans (no_edges id).symm, rfl⟩

theorem intact_nodes
    (filled : refilled NodeRecord.tenantId tenantId s.memoryNodes (nodeRecords rows) = some memoryNodes) :
    Intact tenantId s { (s.deleteEdges tenantId) with memoryNodes := memoryNodes } ↔
      s.NoEdges tenantId ∧ s.HasNodes tenantId rows := by
  constructor
  · intro intact
    refine ⟨fun id => ?_, fun id => ?_⟩
    · rw [← intact.edges id]
      exact own_kept id
    · rw [← intact.nodes id]
      exact own_refilled filled id
  · rintro ⟨no_edges, has_nodes⟩
    exact ⟨fun id => (own_refilled filled id).trans (has_nodes id).symm,
      fun id => (own_kept id).trans (no_edges id).symm, rfl⟩

theorem intact_loaded {memoryEdges : Table String EdgeRecord}
    (filled : refilled NodeRecord.tenantId tenantId s.memoryNodes (nodeRecords rows) = some memoryNodes)
    (filled' : refilled EdgeRecord.tenantId tenantId s.memoryEdges (edgeRecords rows) = some memoryEdges) :
    Intact tenantId s { s with memoryNodes := memoryNodes, memoryEdges := memoryEdges } ↔
      s.HasNodes tenantId rows ∧ s.HasEdges tenantId rows := by
  constructor
  · intro intact
    refine ⟨fun id => ?_, fun id => ?_⟩
    · rw [← intact.nodes id]
      exact own_refilled filled id
    · rw [← intact.edges id]
      exact own_refilled filled' id
  · rintro ⟨has_nodes, has_edges⟩
    exact ⟨fun id => (own_refilled filled id).trans (has_nodes id).symm,
      fun id => (own_refilled filled' id).trans (has_edges id).symm, rfl⟩

theorem fails_plain {step : ImportStep} {next : GraphRecords}
    (nodes : step ≠ .insertNodes) (edges : step ≠ .insertEdges) :
    s.Fails faults tenantId rows step ↔
      ((faults.fails step).map error).isSome = true ∨ ∃ e, (Except.ok next : Except ImportError GraphRecords) =
        .error e := by
  simp [Fails, nodes, edges]

theorem fails_insert {ρ : Type} {owner : ρ → String} {t : Table String ρ} {records : Option (List (String × ρ))}
    {fault : Option String} {result : Option GraphRecords} {reason : ImportError}
    {wrap : Table String ρ → GraphRecords} (inserts : result = (refilled owner tenantId t records).map wrap) :
    (fault.isSome = true ∨ ¬ Accepted owner tenantId t records) ↔
      (fault.map error).isSome = true ∨ ∃ e, (result.map Except.ok).getD (.error reason) = .error e := by
  rw [← refilled_iff, inserts]
  cases refilled owner tenantId t records <;> simp

theorem replaceRows_failsIn {nodesError edgesError : String → ImportError} {next : Eff GraphRecords ImportError Unit}
    {later : List ImportStep}
    (after : ∀ c, (Intact tenantId s c ↔ s.HasNodes tenantId rows ∧ s.HasEdges tenantId rows) →
      (FailsIn (Intact tenantId s) next c ↔
        ∀ step, StopsAt (s.Fails faults tenantId rows) later step → s.SafeAt tenantId rows step)) :
    FailsIn (Intact tenantId s) (replaceRows faults tenantId nodesError edgesError rows >>= fun _ => next) s ↔
      ∀ step, StopsAt (s.Fails faults tenantId rows) (icebergSteps ++ later) step → s.SafeAt tenantId rows step := by
  simp only [replaceRows, Eff.bind_assoc]
  refine failsIn_statement (fails_plain (by decide) (by decide))
    (iff_of_true ⟨fun _ => rfl, fun _ => rfl, rfl⟩ trivial) ?_
  rintro - c₁ ⟨⟩
  refine failsIn_statement (fails_plain (by decide) (by decide)) intact_deleteEdges ?_
  rintro - c₂ ⟨⟩
  refine failsIn_statement ?_ intact_cleared ?_
  · exact Iff.trans (by simp [Fails]) (fails_insert insertNodes_eq)
  intro _ c₃ inserted
  rw [insertNodes_eq] at inserted
  cases filled : refilled NodeRecord.tenantId tenantId s.memoryNodes (nodeRecords rows) with
  | none =>
    rw [filled] at inserted
    cases inserted
  | some memoryNodes =>
    rw [filled] at inserted
    cases inserted
    refine failsIn_statement ?_ (intact_nodes filled) ?_
    · exact Iff.trans (by simp [Fails]) (fails_insert insertEdges_eq)
    intro _ c₄ inserted'
    rw [insertEdges_eq] at inserted'
    cases filled' : refilled EdgeRecord.tenantId tenantId s.memoryEdges (edgeRecords rows) with
    | none =>
      rw [filled'] at inserted'
      cases inserted'
    | some memoryEdges =>
      rw [filled'] at inserted'
      cases inserted'
      exact after _ (intact_loaded filled filled')

theorem loadFromIceberg_failsIn (faults : ImportFaults) (tenantId : String) (tables : GraphRows) (s : GraphRecords) :
    FailsIn (Intact tenantId s) (loadFromIceberg faults tenantId tables) s ↔
      ∀ step, StopsAt (s.Fails faults tenantId tables) icebergSteps step → s.SafeAt tenantId tables step := by
  rw [loadFromIceberg, ← bind_pure_right (replaceRows faults tenantId _ _ tables), ← List.append_nil icebergSteps]
  exact replaceRows_failsIn (fun _ _ => failsIn_pure ())

theorem importFromParquet_failsIn (faults : ImportFaults) (tenantId : String) (data : GraphRows) (s : GraphRecords) :
    FailsIn (Intact tenantId s) (importFromParquet faults tenantId data) s ↔
      ∀ step, StopsAt (s.Fails faults tenantId (data.imported tenantId)) parquetSteps step →
        s.SafeAt tenantId (data.imported tenantId) step := by
  have start : Intact tenantId s s := ⟨fun _ => rfl, fun _ => rfl, rfl⟩
  unfold importFromParquet parquetSteps
  refine failsIn_statement (fails_plain (by decide) (by decide)) (iff_of_true start trivial) ?_
  rintro - c₁ ⟨⟩
  refine failsIn_statement (fails_plain (by decide) (by decide)) (iff_of_true start trivial) ?_
  rintro - c₂ ⟨⟩
  refine replaceRows_failsIn (fun c loaded => ?_)
  refine failsIn_statement (fails_plain (by decide) (by decide)) loaded ?_
  rintro - c₃ ⟨⟩
  refine failsIn_statement (fails_plain (by decide) (by decide)) loaded ?_
  rintro - c₄ ⟨⟩
  exact failsIn_last (fails_plain (by decide) (by decide)) loaded

end

end GraphRecords

/-- What an import that fails leaves of the tenant's graph: all of it exactly if the statement that fails first is
one of those where nothing was lost yet. -/
theorem failed_import_intact_iff (faults : ImportFaults) (tenantId : String) (rows : GraphRows) (s : GraphRecords) :
    ((∀ e, (GraphRecords.importFromParquet faults tenantId rows s).1 = .error e →
        s.Intact tenantId (GraphRecords.importFromParquet faults tenantId rows s).2) ↔
      ∀ step, StopsAt (s.Fails faults tenantId (rows.imported tenantId)) GraphRecords.parquetSteps step →
        s.SafeAt tenantId (rows.imported tenantId) step) ∧
    ((∀ e, (GraphRecords.loadFromIceberg faults tenantId rows s).1 = .error e →
        s.Intact tenantId (GraphRecords.loadFromIceberg faults tenantId rows s).2) ↔
      ∀ step, StopsAt (s.Fails faults tenantId rows) GraphRecords.icebergSteps step → s.SafeAt tenantId rows step) :=
  ⟨GraphRecords.importFromParquet_failsIn faults tenantId rows s,
    GraphRecords.loadFromIceberg_failsIn faults tenantId rows s⟩

section Samples

def noFaults : ImportFaults := ⟨fun _ => none, "Constraint Error: Duplicate key"⟩

def personRecord : NodeRecord := ⟨"Person", some "{}", "t1", none, none, none, some 1, none⟩

def personColumns (id : String) : NodeColumns :=
  ⟨some id, some "Person", some "{}", some "t1", none, none, none, some 1, none⟩

def onePerson : GraphRecords := { memoryNodes := ({} : Table String NodeRecord).insert "a" personRecord rfl }

def twiceListed : GraphRows := ⟨[personColumns "b", personColumns "b"], []⟩

theorem failed_import_loses_node :
    ¬ ((∀ e, (GraphRecords.importFromParquet noFaults "t1" twiceListed onePerson).1 = .error e →
      onePerson.Intact "t1" (GraphRecords.importFromParquet noFaults "t1" twiceListed onePerson).2)) := by
  intro intact
  have kept := (intact (.duckDb noFaults.constraint) (by rfl)).nodes "a"
  exact absurd kept (by decide +kernel)

end Samples

end Aeterna.Graph
