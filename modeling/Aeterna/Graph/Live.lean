import Aeterna.Graph.Evolution

namespace Aeterna.Graph
open Lib (Marked Table)
open GraphTables

section
variable {ρ : Type}

theorem live_upsert (t : Table String (Marked ρ)) (k : String) (row : ρ) (write : ρ → ρ) (id : String) :
    Marked.live ((t.upsert k ⟨row, false⟩ (fun m => { m with row := write m.row })).get id) =
      if id = k ∧ t.get k = none then some row
      else (Marked.live (t.get id)).map (fun old => if id = k then write old else old) := by
  rw [Table.get_upsert]
  by_cases same : id = k
  · subst same
    cases held : t.get id with
    | none => simp [Marked.live]
    | some m =>
      obtain ⟨old, deleted⟩ := m
      cases deleted <;> simp [Marked.live]
  · simp [same]

theorem live_deleteWhere (stamp : ρ → ρ) (p : String → ρ → Bool) (t : Table String (Marked ρ)) (id : String) :
    Marked.live ((GraphStore.deleteWhere stamp p t).get id) = (Marked.live (t.get id)).filter
      (fun row => !p id row) := by
  rw [GraphStore.deleteWhere, Table.get_update]
  cases t.get id with
  | none => rfl
  | some m =>
    obtain ⟨row, deleted⟩ := m
    cases deleted <;> cases hit : p id row <;> simp [Marked.live, Option.filter, hit]

end

def GraphNode.newRow (node : GraphNode) (tenantId : String) (seq : Int) : NodeRow :=
  ⟨node.label, node.properties.text, tenantId, seq⟩

def GraphNode.rewrite (node : GraphNode) (seq : Int) (old : NodeRow) : NodeRow :=
  { old with label := node.label, properties := node.properties.text, seq := seq }

def GraphEdge.newRow (edge : GraphEdge) (tenantId : String) (seq : Int) : EdgeRow :=
  ⟨edge.sourceId, edge.targetId, edge.relation, edge.properties.text, tenantId, seq⟩

def GraphEdge.rewrite (edge : GraphEdge) (seq : Int) (old : EdgeRow) : EdgeRow :=
  { old with relation := edge.relation, properties := edge.properties.text, seq := seq }

namespace GraphStore
variable (s : GraphStore) (tenantId : String)

theorem nodeExists_iff {s : GraphStore} {nodeId tenantId : String} :
    s.nodeExists nodeId tenantId = true ↔ ∃ row, s.tables.liveNode nodeId = some row ∧ row.tenantId = tenantId := by
  unfold nodeExists
  cases s.tables.liveNode nodeId <;> simp

theorem nodeExists_of_tables {s s' : GraphStore} (same : s'.tables.memoryNodes = s.tables.memoryNodes)
    (nodeId tenantId : String) : s'.nodeExists nodeId tenantId = s.nodeExists nodeId tenantId := by
  unfold nodeExists liveNode
  rw [same]

theorem nextMutationSeq_tables : (s.nextMutationSeq tenantId).2.tables = s.tables := by
  obtain ⟨next, taken, same, _⟩ := nextMutationSeq_spec s tenantId
  rw [taken]
  exact same

theorem upsertNode_memoryNodes (node : GraphNode) (seq : Int) :
    (s.upsertNode tenantId node seq).tables.memoryNodes = s.tables.memoryNodes.upsert node.id
      ⟨node.newRow tenantId seq, false⟩ (fun m => { m with row := node.rewrite seq m.row }) := rfl

theorem addEdgeWrite_memoryEdges (edge : GraphEdge) (seq : Int) :
    (s.addEdgeWrite tenantId edge seq).tables.memoryEdges = s.tables.memoryEdges.upsert edge.id
      ⟨edge.newRow tenantId seq, false⟩ (fun m => { m with row := edge.rewrite seq m.row }) := rfl

theorem upsertNode_liveNode (node : GraphNode) (seq : Int) (id : String) :
    (s.upsertNode tenantId node seq).tables.liveNode id =
      if id = node.id ∧ s.tables.memoryNodes.get node.id = none then some (node.newRow tenantId seq)
      else (s.tables.liveNode id).map (fun old => if id = node.id then node.rewrite seq old else old) := by
  rw [liveNode, upsertNode_memoryNodes, live_upsert]
  rfl

theorem addEdgeWrite_liveEdge (edge : GraphEdge) (seq : Int) (id : String) :
    (s.addEdgeWrite tenantId edge seq).tables.liveEdge id =
      if id = edge.id ∧ s.tables.memoryEdges.get edge.id = none then some (edge.newRow tenantId seq)
      else (s.tables.liveEdge id).map (fun old => if id = edge.id then edge.rewrite seq old else old) := by
  rw [GraphTables.liveEdge, addEdgeWrite_memoryEdges, live_upsert]
  rfl

theorem softDeleteNode_liveNode (nodeId id : String) : (s.softDeleteNode tenantId nodeId).2.tables.liveNode id =
      (s.tables.liveNode id).filter (fun row => !decide (id = nodeId ∧ row.tenantId = tenantId)) := by
  have same := nextMutationSeq_tables s tenantId
  simp only [softDeleteNode]
  split
  · rw [liveNode, live_deleteWhere, same]
    rfl
  · rename_i missing
    rw [same]
    cases live : s.tables.liveNode id with
    | none => rfl
    | some row =>
      rw [nodeExists_of_tables (congrArg memoryNodes same), nodeExists_iff] at missing
      have other : ¬ (id = nodeId ∧ row.tenantId = tenantId) := by
        rintro ⟨rfl, owner⟩
        exact missing ⟨row, live, owner⟩
      simp [Option.filter, other]

theorem softDeleteNode_liveEdge (nodeId id : String) : (s.softDeleteNode tenantId nodeId).2.tables.liveEdge id =
      (s.tables.liveEdge id).filter (fun row => !(s.nodeExists nodeId tenantId && touches nodeId tenantId row)) := by
  have same := nextMutationSeq_tables s tenantId
  have exists' := nodeExists_of_tables (congrArg memoryNodes same) nodeId tenantId
  simp only [softDeleteNode]
  split
  · rename_i found
    rw [GraphTables.liveEdge, deleteEdgesAt, live_deleteWhere, same, ← exists', found]
    simp only [Bool.true_and]
    rfl
  · rename_i missing
    rw [same, ← exists', Bool.not_eq_true _ |>.mp missing]
    cases s.tables.liveEdge id <;> simp [Option.filter]

theorem cascade_liveEdge (nodeIds : List String) (seq : Int) (t : Table String (Marked EdgeRow)) (id : String) :
    Marked.live ((nodeIds.foldl (fun edges nodeId => deleteEdgesAt nodeId tenantId seq edges) t).get id) =
      (Marked.live (t.get id)).filter (fun row => !nodeIds.any (fun nodeId => touches nodeId tenantId row)) := by
  induction nodeIds generalizing t with
  | nil => cases h : Marked.live (t.get id) <;> simp [h, Option.filter]
  | cons nodeId rest ih =>
    rw [List.foldl_cons, ih, deleteEdgesAt, live_deleteWhere, Option.filter_filter]
    congr 1
    funext row
    simp

variable (extract : JsonExtract)

def idsFromMemory (sourceMemoryId : String) : List String :=
  (s.tables.memoryNodes.rows.filter
    (fun e => !e.2.deleted && fromMemory extract tenantId sourceMemoryId e.2.row)).map Prod.fst

theorem mem_idsFromMemory {s : GraphStore} {tenantId : String} {extract : JsonExtract}
    {sourceMemoryId nodeId : String} :
    nodeId ∈ s.idsFromMemory tenantId extract sourceMemoryId ↔
      ∃ row, s.tables.liveNode nodeId = some row ∧ fromMemory extract tenantId sourceMemoryId row = true := by
  constructor
  · intro member
    obtain ⟨⟨id, row, deleted⟩, inside, rfl⟩ := List.mem_map.mp member
    obtain ⟨held, selected⟩ := List.mem_filter.mp inside
    cases deleted with
    | true => simp at selected
    | false =>
      refine ⟨row, ?_, by simpa using selected⟩
      rw [liveNode, Table.get_eq_some.mpr held]
      rfl
  · rintro ⟨row, live, selected⟩
    cases held : s.tables.memoryNodes.get nodeId with
    | none =>
      rw [liveNode, held] at live
      cases live
    | some m =>
      obtain ⟨old, deleted⟩ := m
      rw [liveNode, held] at live
      cases deleted with
      | true => cases live
      | false =>
        cases live
        exact List.mem_map.mpr ⟨(nodeId, ⟨row, false⟩),
          List.mem_filter.mpr ⟨Table.get_eq_some.mp held, by simpa using selected⟩, rfl⟩

theorem softDeleteNodesBySourceMemoryId_liveNode (sourceMemoryId id : String) :
    (s.softDeleteNodesBySourceMemoryId extract tenantId sourceMemoryId).2.tables.liveNode id =
      (s.tables.liveNode id).filter (fun row => !fromMemory extract tenantId sourceMemoryId row) := by
  have same := nextMutationSeq_tables s tenantId
  simp only [softDeleteNodesBySourceMemoryId]
  split
  · rename_i none_found
    rw [same] at none_found ⊢
    cases live : s.tables.liveNode id with
    | none => rfl
    | some row =>
      cases selected : fromMemory extract tenantId sourceMemoryId row with
      | false => simp [Option.filter, selected]
      | true =>
        have member : id ∈ s.idsFromMemory tenantId extract sourceMemoryId :=
          mem_idsFromMemory.mpr ⟨row, live, selected⟩
        rw [idsFromMemory, none_found] at member
        exact absurd member List.not_mem_nil
  · rw [liveNode, live_deleteWhere, same]
    rfl

theorem softDeleteNodesBySourceMemoryId_liveEdge (sourceMemoryId id : String) :
    (s.softDeleteNodesBySourceMemoryId extract tenantId sourceMemoryId).2.tables.liveEdge id =
      (s.tables.liveEdge id).filter (fun row =>
        !(s.idsFromMemory tenantId extract sourceMemoryId).any (fun nodeId => touches nodeId tenantId row)) := by
  have same := nextMutationSeq_tables s tenantId
  simp only [softDeleteNodesBySourceMemoryId]
  split
  · rename_i none_found
    rw [same] at none_found ⊢
    rw [idsFromMemory, none_found]
    cases s.tables.liveEdge id <;> simp [Option.filter]
  · rw [GraphTables.liveEdge, cascade_liveEdge, same]
    rfl

end GraphStore

/-- What `json_extract_string` finds in the properties of the sample nodes. -/
def noMemory : JsonExtract := ⟨fun _ => none⟩

end Aeterna.Graph
