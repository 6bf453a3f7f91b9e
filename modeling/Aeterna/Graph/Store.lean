import Aeterna.Lib.Effect
import Aeterna.Lib.Table
import Aeterna.Lib.Tombstones
import Aeterna.Lib.JsonValue

namespace Aeterna.Graph
open Lib (Eff JsonValue Marked Table)

structure NodeRow where
  (label properties tenantId : String)
  seq : Int
  deriving DecidableEq

structure EdgeRow where
  (sourceId targetId relation properties tenantId : String)
  seq : Int
  deriving DecidableEq

structure GraphTables where
  memoryNodes : Table String (Marked NodeRow) := {}
  memoryEdges : Table String (Marked EdgeRow) := {}

namespace GraphTables

def liveNode (t : GraphTables) (id : String) : Option NodeRow := Marked.live (t.memoryNodes.get id)
def liveEdge (t : GraphTables) (id : String) : Option EdgeRow := Marked.live (t.memoryEdges.get id)

structure SameLive (s t : GraphTables) : Prop where
  nodes : ∀ id, s.liveNode id = t.liveNode id
  edges : ∀ id, s.liveEdge id = t.liveEdge id

end GraphTables

structure GraphNode where
  (id label : String)
  properties : JsonValue
  tenantId : String

structure GraphEdge where
  (id sourceId targetId relation : String)
  properties : JsonValue
  tenantId : String

inductive GraphError where
  | duckDb (reason : String)
  | nodeNotFound (id : String)
  | referentialIntegrity (reason : String)
  | tenantViolation (reason : String)
  | serialization (reason : String)
  | s3 (reason : String)
  | checksumMismatch (expected actual : String)
  | io (reason : String)
  deriving DecidableEq

def GraphError.text : GraphError → String
  | .duckDb reason => "DuckDB error: " ++ reason
  | .nodeNotFound id => "Node not found: " ++ id
  | .referentialIntegrity reason => "Referential integrity violation: " ++ reason
  | .tenantViolation reason => "Tenant isolation violation: " ++ reason
  | .serialization reason => "Serialization error: " ++ reason
  | .s3 reason => "S3 error: " ++ reason
  | .checksumMismatch expected actual => "Checksum mismatch: expected " ++ expected ++ ", got " ++ actual
  | .io reason => "IO error: " ++ reason

structure GraphStore where
  tables : GraphTables := {}
  graphTenantSequences : Table String Int := {}

structure JsonExtract where
  sourceMemoryId : String → Option String

namespace GraphStore

variable (s : GraphStore)

def lastSeq (tenantId : String) : Int := (s.graphTenantSequences.get tenantId).getD 0

def nextMutationSeq (tenantId : String) : Int × GraphStore :=
  match s.graphTenantSequences.get tenantId with
  | some lastSeq =>
    let advance := fun tenant seq => if tenant = tenantId then lastSeq + 1 else seq
    (lastSeq + 1, { s with graphTenantSequences := s.graphTenantSequences.update advance })
  | none => (1, { s with graphTenantSequences := s.graphTenantSequences.insertOrIgnore tenantId 1 })

def nodeExists (nodeId tenantId : String) : Bool :=
  match s.tables.liveNode nodeId with
  | some row => row.tenantId = tenantId
  | none => false

/-- A conflicting row keeps its tenant and its `deleted_at`. -/
def upsertNode (tenantId : String) (node : GraphNode) (seq : Int) : GraphStore :=
  let row : NodeRow := ⟨node.label, node.properties.text, tenantId, seq⟩
  let overwrite := fun old : Marked NodeRow =>
    { old with row := { old.row with label := row.label, properties := row.properties, seq := row.seq } }
  { s with tables := { s.tables with memoryNodes := s.tables.memoryNodes.upsert node.id ⟨row, false⟩ overwrite } }

def addNode (tenantId : String) (node : GraphNode) : Except GraphError Unit × GraphStore :=
  if node.tenantId ≠ tenantId then (.error (.tenantViolation "Node tenant_id does not match context"), s)
  else
    let (seq, s) := s.nextMutationSeq tenantId
    if node.id = "TRIGGER_SERIALIZATION_ERROR" ∨ node.label = "TRIGGER_SERIALIZATION_ERROR" then
      (.error (.serialization "Induced failure"), s)
    else (.ok (), s.upsertNode tenantId node seq)

/-- The first critical section of `add_edge`: a number is taken and the endpoints are checked. -/
def addEdgeCheck (tenantId : String) (edge : GraphEdge) : Except GraphError Int × GraphStore :=
  let (seq, s) := s.nextMutationSeq tenantId
  if ¬ s.nodeExists edge.sourceId tenantId then
    (.error (.referentialIntegrity ("Source node " ++ edge.sourceId ++ " does not exist")), s)
  else if ¬ s.nodeExists edge.targetId tenantId then
    (.error (.referentialIntegrity ("Target node " ++ edge.targetId ++ " does not exist")), s)
  else (.ok seq, s)

/-- The second critical section of `add_edge`: the row is written. A conflicting row keeps its endpoints. -/
def addEdgeWrite (tenantId : String) (edge : GraphEdge) (seq : Int) : GraphStore :=
  let row : EdgeRow := ⟨edge.sourceId, edge.targetId, edge.relation, edge.properties.text, tenantId, seq⟩
  let overwrite := fun old : Marked EdgeRow =>
    { old with row := { old.row with relation := row.relation, properties := row.properties, seq := row.seq } }
  { s with tables := { s.tables with memoryEdges := s.tables.memoryEdges.upsert edge.id ⟨row, false⟩ overwrite } }

def addEdge (tenantId : String) (edge : GraphEdge) : Except GraphError Unit × GraphStore :=
  if edge.tenantId ≠ tenantId then (.error (.tenantViolation "Edge tenant_id does not match context"), s)
  else
    match s.addEdgeCheck tenantId edge with
    | (.error e, s) => (.error e, s)
    | (.ok seq, s) => (.ok (), s.addEdgeWrite tenantId edge seq)

/-- `UPDATE ... SET deleted_at = ?, seq = ? WHERE ... AND deleted_at IS NULL`. -/
def deleteWhere {ρ : Type} (stamp : ρ → ρ) (p : String → ρ → Bool) (t : Table String (Marked ρ)) :
    Table String (Marked ρ) :=
  t.update (fun id m => if p id m.row ∧ m.deleted = false then ⟨stamp m.row, true⟩ else m)

def touches (nodeId tenantId : String) (row : EdgeRow) : Bool :=
  (row.sourceId = nodeId ∨ row.targetId = nodeId) ∧ row.tenantId = tenantId

def deleteEdgesAt (nodeId tenantId : String) (seq : Int) (t : Table String (Marked EdgeRow)) :
    Table String (Marked EdgeRow) :=
  deleteWhere (fun row => { row with seq := seq }) (fun _ row => touches nodeId tenantId row) t

def softDeleteNode (tenantId nodeId : String) : Except GraphError Unit × GraphStore :=
  let (seq, s) := s.nextMutationSeq tenantId
  if s.nodeExists nodeId tenantId then
    let memoryNodes := deleteWhere (fun row => { row with seq := seq })
      (fun id row => id = nodeId ∧ row.tenantId = tenantId) s.tables.memoryNodes
    (.ok (), { s with tables := ⟨memoryNodes, deleteEdgesAt nodeId tenantId seq s.tables.memoryEdges⟩ })
  else (.error (.nodeNotFound nodeId), s)

def fromMemory (extract : JsonExtract) (tenantId sourceMemoryId : String) (row : NodeRow) : Bool :=
  row.tenantId = tenantId ∧ extract.sourceMemoryId row.properties = some sourceMemoryId

def softDeleteNodesBySourceMemoryId (extract : JsonExtract) (s : GraphStore) (tenantId sourceMemoryId : String) :
    Except GraphError Nat × GraphStore :=
  let (seq, s) := s.nextMutationSeq tenantId
  let selected := fun row => fromMemory extract tenantId sourceMemoryId row
  let nodeIds := (s.tables.memoryNodes.rows.filter (fun e => !e.2.deleted && selected e.2.row)).map Prod.fst
  if nodeIds = [] then (.ok 0, s)
  else
    let memoryNodes := deleteWhere (fun row => { row with seq := seq })
        (fun _ row => selected row) s.tables.memoryNodes
    let memoryEdges := nodeIds.foldl
        (fun edges nodeId => deleteEdgesAt nodeId tenantId seq edges) s.tables.memoryEdges
    (.ok nodeIds.length, { s with tables := ⟨memoryNodes, memoryEdges⟩ })

end GraphStore

def sampleNode (id label : String) : GraphNode := ⟨id, label, .object [], "t1"⟩

def sampleEdge (id sourceId targetId : String) : GraphEdge := ⟨id, sourceId, targetId, "KNOWS", .object [], "t1"⟩

structure Entity where
  (id name entityType : String)
  properties : JsonValue
  tenantId : String

structure EntityEdge where
  (id sourceEntityId targetEntityId relation : String)
  properties : JsonValue
  tenantId : String

structure EntityRow where
  (name entityType properties tenantId : String)
  deriving DecidableEq

structure EntityEdgeRow where
  (sourceEntityId targetEntityId relation properties tenantId : String)
  deriving DecidableEq

structure EntityTables where
  entities : Table String (Marked EntityRow) := {}
  entityEdges : Table String (Marked EntityEdgeRow) := {}

namespace GraphStore

variable (tenantId : String)

def batchNode (node : GraphNode) : Eff GraphStore GraphError Unit := fun s =>
  if node.tenantId ≠ tenantId then (.error (.tenantViolation "Node tenant_id does not match context"), s)
  else
    let (seq, s) := s.nextMutationSeq tenantId
    (.ok (), s.upsertNode tenantId node seq)

def batchEdge (edge : GraphEdge) : Eff GraphStore GraphError Unit := fun s =>
  if edge.tenantId ≠ tenantId then (.error (.tenantViolation "Edge tenant_id does not match context"), s)
  else if ¬ s.nodeExists edge.sourceId tenantId then
    (.error (.referentialIntegrity ("Source node " ++ edge.sourceId ++ " does not exist")), s)
  else if ¬ s.nodeExists edge.targetId tenantId then
    (.error (.referentialIntegrity ("Target node " ++ edge.targetId ++ " does not exist")), s)
  else
    let (seq, s) := s.nextMutationSeq tenantId
    (.ok (), s.addEdgeWrite tenantId edge seq)

def addNodesAndEdgesAtomic (nodes : List GraphNode) (edges : List GraphEdge) : Eff GraphStore GraphError Unit :=
  Eff.transaction (do
    Eff.forEach (batchNode tenantId) nodes
    Eff.forEach (batchEdge tenantId) edges)

end GraphStore

namespace EntityTables

variable (tenantId : String)

/-- A conflicting row keeps its tenant and its `deleted_at`. -/
def batchEntity (entity : Entity) : Eff EntityTables GraphError Unit := fun t =>
  if entity.tenantId ≠ tenantId then (.error (.tenantViolation "Entity tenant_id does not match context"), t)
  else if entity.id = "TRIGGER_SERIALIZATION_ERROR" then (.error (.serialization "Induced failure"), t)
  else
    let row : EntityRow := ⟨entity.name, entity.entityType, entity.properties.text, tenantId⟩
    let overwrite := fun old : Marked EntityRow => { old with row := { row with tenantId := old.row.tenantId } }
    (.ok (), { t with entities := t.entities.upsert entity.id ⟨row, false⟩ overwrite })

/-- A conflicting row keeps its endpoints, its tenant and its `deleted_at`. -/
def batchEntityEdge (edge : EntityEdge) : Eff EntityTables GraphError Unit := fun t =>
  if edge.tenantId ≠ tenantId then (.error (.tenantViolation "EntityEdge tenant_id does not match context"), t)
  else
    let row : EntityEdgeRow :=
      ⟨edge.sourceEntityId, edge.targetEntityId, edge.relation, edge.properties.text, tenantId⟩
    let overwrite := fun old : Marked EntityEdgeRow =>
      { old with row := { old.row with relation := row.relation, properties := row.properties } }
    (.ok (), { t with entityEdges := t.entityEdges.upsert edge.id ⟨row, false⟩ overwrite })

def addEntitiesAtomic (entities : List Entity) (edges : List EntityEdge) : Eff EntityTables GraphError Unit :=
  Eff.transaction (do
    Eff.forEach (batchEntity tenantId) entities
    Eff.forEach (batchEntityEdge tenantId) edges)

end EntityTables

end Aeterna.Graph
