import Aeterna.Lib.Walks
import Aeterna.Graph.Live
import Mathlib.Data.List.Sort

namespace Aeterna.Graph
open Lib (JsonValue Marked Table recursive)

structure PgNode where
  label : String
  properties : JsonValue
  deleted : Bool := false

structure PgEdge where
  (sourceId targetId relation : String)
  properties : JsonValue
  deleted : Bool := false

structure JsonbExtract where
  sourceMemoryId : JsonValue → Option String

structure PostgresBackend where
  /-- Whether the tables have a column `deleted_at`; `initialize_schema` creates none. -/
  deletedAt : Bool := false
  /-- Both tables have the key `(id, tenant_id)`. -/
  graphNodes : Table (String × String) PgNode := {}
  graphEdges : Table (String × String) PgEdge := {}

def asI32 (n : Nat) : Int := (n : Int).bmod (2 ^ 32)

structure SearchPath where
  edge : String × PgEdge
  depth : Int
  path : List String

namespace PostgresBackend

def addNode (s : PostgresBackend) (tenantId : String) (node : GraphNode) : Except String Unit × PostgresBackend :=
  let overwrite := fun old : PgNode => { old with label := node.label, properties := node.properties }
  let nodes := s.graphNodes.upsert (node.id, tenantId)
      { label := node.label, properties := node.properties } overwrite
  (.ok (), { s with graphNodes := nodes })

def addEdge (s : PostgresBackend) (tenantId : String) (edge : GraphEdge) : Except String Unit × PostgresBackend :=
  let row : PgEdge :=
    { sourceId := edge.sourceId, targetId := edge.targetId, relation := edge.relation, properties := edge.properties }
  let overwrite := fun old : PgEdge => { old with relation := edge.relation, properties := edge.properties }
  let references := (s.graphNodes.get (edge.sourceId, tenantId)).isSome &&
      (s.graphNodes.get (edge.targetId, tenantId)).isSome
  if (s.graphEdges.get (edge.id, tenantId)).isNone && !references then
    (.error "insert or update on table \"graph_edges\" violates foreign key constraint", s)
  else (.ok (), { s with graphEdges := s.graphEdges.upsert (edge.id, tenantId) row overwrite })

def comesFrom (extract : JsonbExtract) (tenantId sourceMemoryId : String) (key : String × String) (node : PgNode) :
    Bool :=
  key.2 = tenantId ∧ extract.sourceMemoryId node.properties = some sourceMemoryId

def softDeleteNodesBySourceMemoryId (extract : JsonbExtract) (s : PostgresBackend)
    (tenantId sourceMemoryId : String) :
    Except String Nat × PostgresBackend :=
  if s.deletedAt = false then (.error "column \"deleted_at\" of relation \"graph_nodes\" does not exist", s)
  else
    let selected := comesFrom extract tenantId sourceMemoryId
    let nodeIds := (s.graphNodes.rows.filter (fun e => selected e.1 e.2)).map (fun e => e.1.1)
    let deleted := s.graphNodes.rows.countP (fun e => selected e.1 e.2 && !e.2.deleted)
    let nodes := s.graphNodes.update
        (fun key (node : PgNode) => if selected key node then { node with deleted := true } else node)
    let edges := s.graphEdges.update (fun key (edge : PgEdge) =>
      if key.2 = tenantId ∧ (edge.sourceId ∈ nodeIds ∨ edge.targetId ∈ nodeIds) then { edge with deleted := true }
        else edge)
    (.ok deleted, { s with graphNodes := nodes, graphEdges := edges })

def edges (s : PostgresBackend) (tenantId : String) : List (String × PgEdge) :=
  (s.graphEdges.rows.filter (fun e => e.1.2 = tenantId)).map (fun e => (e.1.1, e.2))

def toEdge (tenantId : String) (e : String × PgEdge) : GraphEdge :=
  ⟨e.1, e.2.sourceId, e.2.targetId, e.2.relation, e.2.properties, tenantId⟩

def toNode (tenantId id : String) (node : PgNode) : GraphNode := ⟨id, node.label, node.properties, tenantId⟩

def getNeighbors (s : PostgresBackend) (tenantId nodeId : String) : List (GraphEdge × GraphNode) :=
  ((s.edges tenantId).filter (fun e => e.2.sourceId = nodeId)).filterMap (fun e =>
    (s.graphNodes.get (e.2.targetId, tenantId)).map
      (fun node => (toEdge tenantId e, toNode tenantId e.2.targetId node)))

def searchStep (edges : List (String × PgEdge)) (maxDepth : Int) (row : SearchPath) : List SearchPath :=
  (edges.filter (fun e => e.2.sourceId = row.edge.2.targetId ∧ row.depth < maxDepth ∧ e.1 ∉ row.path)).map (fun e =>
    ⟨e, row.depth + 1, row.path ++ [e.1]⟩)

def searchPath (s : PostgresBackend) (tenantId startId : String) (maxDepth : Int) : List SearchPath :=
  recursive (searchStep (s.edges tenantId) maxDepth) (max 1 maxDepth.toNat)
    (((s.edges tenantId).filter (fun e => e.2.sourceId = startId)).map (fun e => ⟨e, 1, [e.1]⟩))

/-- `LIMIT 1`: the first row that is at the end, and of it the last edge only. -/
def findPath (s : PostgresBackend) (tenantId startId endId : String) (maxDepth : Nat) : List GraphEdge :=
  (((s.searchPath tenantId startId (asI32 maxDepth)).find? (fun row => row.edge.2.targetId = endId)).map
    (fun row => toEdge tenantId row.edge)).toList

end PostgresBackend

structure JsonReader where
  fromStr : String → Option JsonValue

def JsonReader.properties (reader : JsonReader) (text : String) : JsonValue := (reader.fromStr text).getD .null

def like : List Char → List Char → Bool
  | [], text => text.isEmpty
  | c :: pattern, text =>
    if c = '%' then text.tails.any (like pattern)
    else
      match text with
      | [] => false
      | d :: rest => (c = '_' || c = d) && like pattern rest

def holdsId (pathStr id : String) : Bool := like ("%" ++ id ++ "%").toList pathStr.toList

structure PathRow where
  edge : String × EdgeRow
  pathStr : String
  depth : Nat
  found : Bool

/-- The errors of `shortest_path`, where a query itself does not fail. -/
inductive PathError where
  | maxDepthExceeded (maxPathDepth : Nat)
  | edgeNotFound (id : String)

namespace GraphStore
variable (reader : JsonReader) (s : GraphStore) (tenantId : String)

def liveEdges : List (String × EdgeRow) :=
  (s.tables.memoryEdges.rows.filter (fun e => !e.2.deleted && decide (e.2.row.tenantId = tenantId))).map
    (fun e => (e.1, e.2.row))

def toEdge (e : String × EdgeRow) : GraphEdge :=
  ⟨e.1, e.2.sourceId, e.2.targetId, e.2.relation, reader.properties e.2.properties, tenantId⟩

def toNode (id : String) (row : NodeRow) : GraphNode := ⟨id, row.label, reader.properties row.properties, tenantId⟩

def ownNode (id : String) : Option NodeRow := (s.tables.liveNode id).filter (fun row => row.tenantId = tenantId)

def getNeighbors (nodeId : String) : List (GraphEdge × GraphNode) :=
  let candidateEdges := (s.liveEdges tenantId).filter (fun e => e.2.sourceId = nodeId) ++
    (s.liveEdges tenantId).filter (fun e => e.2.targetId = nodeId)
  candidateEdges.filterMap (fun e =>
    let other := if e.2.sourceId = nodeId then e.2.targetId else e.2.sourceId
    (s.ownNode tenantId other).map (fun row => (toEdge reader tenantId e, toNode reader tenantId other row)))

def pathStep (edges : List (String × EdgeRow)) (endId : String) (maxDepth : Nat) (row : PathRow) : List PathRow :=
  (edges.filter (fun e => e.2.sourceId = row.edge.2.targetId ∧ holdsId row.pathStr e.1 = false ∧ row.found = false ∧
    row.depth < maxDepth)).map
    (fun e => ⟨e, row.pathStr ++ "," ++ e.1, row.depth + 1, e.2.targetId = endId⟩)

/-- `paths`, in as many rounds as its depths allow. -/
def paths (startId endId : String) (maxDepth : Nat) : List PathRow :=
  recursive (pathStep (s.liveEdges tenantId) endId maxDepth) (max 1 maxDepth)
    (((s.liveEdges tenantId).filter (fun e => e.2.sourceId = startId)).map
      (fun e => ⟨e, e.1, 1, e.2.targetId = endId⟩))

/-- `WHERE found = true ORDER BY depth ASC LIMIT 1`. -/
def shortest (rows : List PathRow) : Option String :=
  (((rows.filter (fun row => row.found)).insertionSort (fun a b => a.depth ≤ b.depth)).head?).map PathRow.pathStr

def getEdgeById (edgeId : String) : Except PathError (String × EdgeRow) :=
  match (s.tables.memoryEdges.get edgeId).filter (fun e => e.row.tenantId = tenantId) with
  | some e => .ok (edgeId, e.row)
  | none => .error (.edgeNotFound edgeId)

def shortestPath (maxPathDepth : Nat) (startId endId : String) (maxDepth : Nat) :
    Except PathError (List (String × EdgeRow)) :=
  if maxDepth > maxPathDepth then .error (.maxDepthExceeded maxPathDepth)
  else
    match shortest (s.paths tenantId startId endId maxDepth) with
    | none => .ok []
    | some pathStr => ((pathStr.toList.splitOn ',').map String.ofList).mapM (s.getEdgeById tenantId)

def findPath (maxPathDepth : Nat) (startId endId : String) (maxDepth : Nat) : Except PathError (List GraphEdge) :=
  (s.shortestPath tenantId maxPathDepth startId endId maxDepth).map (List.map (toEdge reader tenantId))

end GraphStore

end Aeterna.Graph
