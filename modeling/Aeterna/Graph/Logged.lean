import Mathlib.Data.List.Induction
import Aeterna.Graph.Backups
import Aeterna.Graph.Live
import Aeterna.Graph.Projector

namespace Aeterna.Graph
open Lib (JsonValue Marked Table)
open GraphStore GraphRow List

theorem le_maxSeq {seqs : List Int} {seq : Int} (member : seq ∈ seqs) : seq ≤ maxSeq seqs := by
  unfold maxSeq
  cases top : seqs.max? with
  | none =>
    rw [max?_eq_none_iff.mp top] at member
    cases member
  | some n =>
    exact (max?_le_iff top).mp (Int.le_refl n) seq member

/-- `append`: an event gets the number after the highest one. -/
def EventLog.append (log : EventLog) (tenantId kind : String) (payload : JsonValue) : EventLog where
  events := log.events ++ [⟨tenantId, maxSeq (log.events.map GraphEvent.seq) + 1, kind, payload⟩]
  ordered := by
    refine pairwise_append.mpr ⟨log.ordered, pairwise_singleton _ _, fun e member last inside => ?_⟩
    rw [mem_singleton.mp inside]
    exact Int.lt_add_one_of_le (le_maxSeq (mem_map.mpr ⟨e, member, rfl⟩))

structure LoggedStore where
  store : GraphStore := {}
  log : EventLog := ⟨[], List.Pairwise.nil⟩

/-- A call of a tenant, with the error of the event log if it cannot append. -/
inductive LoggedCall where
  | addNode (node : GraphNode) (append : Except String Unit)
  | addEdge (edge : GraphEdge) (append : Except String Unit)
  | softDeleteNode (nodeId : String)

namespace LoggedStore
variable (s : LoggedStore) (tenantId : String)

def nodePayload (node : GraphNode) : JsonValue :=
  .object [("id", .string node.id), ("label", .string node.label), ("properties", node.properties),
    ("tenant_id", .string tenantId)]

def edgePayload (edge : GraphEdge) : JsonValue :=
  .object [("id", .string edge.id), ("source_id", .string edge.sourceId), ("target_id", .string edge.targetId),
    ("relation", .string edge.relation), ("properties", edge.properties), ("tenant_id", .string tenantId)]

def addNode (node : GraphNode) (append : Except String Unit) : Except GraphError Unit × LoggedStore :=
  if node.tenantId ≠ tenantId then (.error (.tenantViolation "Node tenant_id does not match context"), s)
  else
    match append with
    | .error reason => (.error (.s3 reason), s)
    | .ok () =>
      let (outcome, store) := s.store.addNode tenantId node
      (outcome, ⟨store, s.log.append tenantId "add_node" (nodePayload tenantId node)⟩)

def addEdge (edge : GraphEdge) (append : Except String Unit) : Except GraphError Unit × LoggedStore :=
  if edge.tenantId ≠ tenantId then (.error (.tenantViolation "Edge tenant_id does not match context"), s)
  else
    match s.store.addEdgeCheck tenantId edge with
    | (.error e, store) => (.error e, { s with store := store })
    | (.ok seq, store) =>
      match append with
      | .error reason => (.error (.s3 reason), { s with store := store })
      | .ok () =>
        (.ok (), ⟨store.addEdgeWrite tenantId edge seq,
          s.log.append tenantId "add_edge" (edgePayload tenantId edge)⟩)

def softDeleteNode (nodeId : String) : Except GraphError Unit × LoggedStore :=
  let (outcome, store) := s.store.softDeleteNode tenantId nodeId
  (outcome, { s with store := store })

def exec (s : LoggedStore) : LoggedCall → LoggedStore
  | .addNode node append => (s.addNode tenantId node append).2
  | .addEdge edge append => (s.addEdge tenantId edge append).2
  | .softDeleteNode nodeId => (s.softDeleteNode tenantId nodeId).2

def run (calls : List LoggedCall) : LoggedStore := calls.foldl (exec tenantId) {}

/-- The log of the tenant, applied to an empty store. -/
def projected : GraphTables := applyEvents {} s.log.events

def Repeatable : LoggedCall → Prop
  | .addNode node append => node.tenantId = tenantId → append = .ok () →
    if node.id = "TRIGGER_SERIALIZATION_ERROR" ∨ node.label = "TRIGGER_SERIALIZATION_ERROR" then
      s.store.tables.liveNode node.id ≠ none
    else
      ∀ row, s.store.tables.liveNode node.id = some row →
        row.label = node.label ∧ row.properties = node.properties.text
  | .addEdge edge append => edge.tenantId = tenantId → s.store.nodeExists edge.sourceId tenantId = true →
    s.store.nodeExists edge.targetId tenantId = true → append = .ok () →
      ∀ row, s.store.tables.liveEdge edge.id = some row →
        row.relation = edge.relation ∧ row.properties = edge.properties.text
  | .softDeleteNode nodeId => s.store.nodeExists nodeId tenantId = false

end LoggedStore

section
variable {ρ : Type} [GraphRow ρ]

def Twins (m m' : Marked ρ) : Prop :=
  m.deleted = false ∧ m'.deleted = false ∧ content m.row = content m'.row

def Mirrored (t u : Table String (Marked ρ)) : Prop := ∀ id, Option.Rel Twins (t.get id) (u.get id)

def contentOf (t : Table String (Marked ρ)) (id : String) : Option (Content ρ) :=
  (Marked.live (t.get id)).map content

variable {t u : Table String (Marked ρ)}

theorem Mirrored.cases (mirrored : Mirrored t u) (id : String) : (t.get id = none ∧ u.get id = none) ∨
      ∃ row row', t.get id = some ⟨row, false⟩ ∧ u.get id = some ⟨row', false⟩ ∧ content row = content row' := by
  have related := mirrored id
  generalize t.get id = left at related
  generalize u.get id = right at related
  cases related with
  | none => exact .inl ⟨rfl, rfl⟩
  | @some m m' twins =>
    obtain ⟨row, deleted⟩ := m
    obtain ⟨row', deleted'⟩ := m'
    obtain ⟨live, live', same⟩ := twins
    cases live
    cases live'
    exact .inr ⟨row, row', rfl, rfl, same⟩

theorem Mirrored.same (mirrored : Mirrored t u) (id : String) : contentOf t id = contentOf u id := by
  unfold contentOf
  rcases mirrored.cases id with ⟨free, free'⟩ | ⟨row, row', held, held', same⟩
  · rw [free, free']
  · rw [held, held']
    exact congrArg some same

variable {id : String} {row : ρ}

theorem Mirrored.upsert (mirrored : Mirrored t u) {row' : ρ} (write : ρ → ρ) (new : content row = content row')
    (leaves : ∀ old, Marked.live (t.get id) = some old → content (write old) = content old) :
    Mirrored (t.upsert id ⟨row, false⟩ (fun m => { m with row := write m.row }))
      (u.insertOrIgnore id ⟨row', false⟩) := by
  intro key
  rw [Table.get_upsert, Table.get_insertOrIgnore]
  by_cases same : key = id
  · subst same
    rw [if_pos rfl, if_pos rfl]
    rcases mirrored.cases key with ⟨free, free'⟩ | ⟨old, old', held, held', equal⟩
    · rw [free, free']
      exact Option.Rel.some ⟨rfl, rfl, new⟩
    · rw [held] at leaves
      rw [held, held']
      exact Option.Rel.some ⟨rfl, rfl, (leaves old rfl).trans equal⟩
  · rw [if_neg same, if_neg same]
    exact mirrored key

theorem Mirrored.leaves_of_same (mirrored : Mirrored t u) {row' : ρ} {write : ρ → ρ}
    (same : contentOf (t.upsert id ⟨row, false⟩ (fun m => { m with row := write m.row })) id =
    contentOf (u.insertOrIgnore id ⟨row', false⟩) id) :
    ∀ old, Marked.live (t.get id) = some old → content (write old) = content old := by
  intro old live
  rcases mirrored.cases id with ⟨free, _⟩ | ⟨row, row', held, held', equal⟩
  · rw [free] at live
    cases live
  · rw [held] at live
    cases live
    unfold contentOf at same
    rw [Table.get_upsert, Table.get_insertOrIgnore, if_pos rfl, if_pos rfl, held, held'] at same
    exact (Option.some.inj same).trans equal.symm

theorem Mirrored.ignored (mirrored : Mirrored t u) (row : ρ) (held : Marked.live (t.get id) ≠ none) :
    Mirrored t (u.insertOrIgnore id ⟨row, false⟩) := by
  intro key
  have related := mirrored key
  rw [Table.get_insertOrIgnore]
  by_cases same : key = id
  · subst same
    rw [if_pos rfl]
    rcases mirrored.cases key with ⟨free, _⟩ | ⟨old, old', _, held', _⟩
    · rw [free] at held
      exact absurd rfl held
    · rw [held'] at related ⊢
      exact related
  · rw [if_neg same]
    exact related

theorem Mirrored.held_of_same
    (same : contentOf t id = contentOf (u.insertOrIgnore id ⟨row, false⟩) id) (mirrored : Mirrored t u) :
    Marked.live (t.get id) ≠ none := by
  rcases mirrored.cases id with ⟨free, free'⟩ | ⟨old, old', held, _, _⟩
  · unfold contentOf at same
    rw [Table.get_insertOrIgnore, if_pos rfl, free, free'] at same
    cases same
  · rw [held]
    exact Option.some_ne_none old

end

namespace LoggedStore
variable {tenantId : String} {s : LoggedStore}

theorem applyEvent_add_node (t : GraphTables) (seq : Int) (node : GraphNode) :
    applyEvent t ⟨tenantId, seq, "add_node", nodePayload tenantId node⟩ =
      { t with memoryNodes := t.memoryNodes.insertOrIgnore node.id ⟨node.newRow tenantId seq, false⟩ } := by
  simp [applyEvent, GraphEvent.eventKind, GraphEvent.nodeRow, GraphEvent.field, GraphEvent.tenant, nodePayload,
    JsonValue.get, JsonValue.asStr, GraphNode.newRow]

theorem applyEvent_add_edge (t : GraphTables) (seq : Int) (edge : GraphEdge) :
    applyEvent t ⟨tenantId, seq, "add_edge", edgePayload tenantId edge⟩ =
      { t with memoryEdges := t.memoryEdges.insertOrIgnore edge.id ⟨edge.newRow tenantId seq, false⟩ } := by
  simp [applyEvent, GraphEvent.eventKind, GraphEvent.edgeRow, GraphEvent.field, GraphEvent.tenant, edgePayload,
    JsonValue.get, JsonValue.asStr, GraphEdge.newRow]

theorem projected_append (s : LoggedStore) (tenantId : String) (store : GraphStore) (kind : String)
    (payload : JsonValue) :
    ∃ seq, (LoggedStore.mk store (s.log.append tenantId kind payload)).projected =
      applyEvent s.projected ⟨tenantId, seq, kind, payload⟩ :=
  ⟨_, foldl_append⟩

structure Mirrors (s : LoggedStore) : Prop where
  nodes : Mirrored s.store.tables.memoryNodes s.projected.memoryNodes
  edges : Mirrored s.store.tables.memoryEdges s.projected.memoryEdges

theorem Mirrors.sameGraph (mirrors : s.Mirrors) : SameGraph s.store.tables s.projected :=
  ⟨mirrors.nodes.same, mirrors.edges.same⟩

theorem Mirrors.of_tables (mirrors : s.Mirrors) {store : GraphStore} (same : store.tables = s.store.tables) :
    Mirrors { s with store := store } := by
  obtain ⟨nodes, edges⟩ := mirrors
  rw [← same] at nodes edges
  exact ⟨nodes, edges⟩

structure Step (tenantId : String) (s : LoggedStore) (call : LoggedCall) : Prop where
  keeps : s.Repeatable tenantId call → (exec tenantId s call).Mirrors
  only : SameGraph (exec tenantId s call).store.tables (exec tenantId s call).projected → s.Repeatable tenantId call

theorem Step.of_unchanged {call : LoggedCall} (mirrors : s.Mirrors)
    (tables : (exec tenantId s call).store.tables = s.store.tables) (log : (exec tenantId s call).log = s.log)
    (repeatable : s.Repeatable tenantId call) : Step tenantId s call := by
  refine ⟨fun _ => ?_, fun _ => repeatable⟩
  have next := mirrors.of_tables tables
  rw [← log] at next
  exact next

theorem rewrite_node_iff (node : GraphNode) (seq : Int) (old : NodeRow) :
    content (node.rewrite seq old) = content old ↔
      old.label = node.label ∧ old.properties = node.properties.text := by
  show (node.label, node.properties.text) = (old.label, old.properties) ↔ _
  simp [eq_comm]

theorem rewrite_edge_iff (edge : GraphEdge) (seq : Int) (old : EdgeRow) :
    content (edge.rewrite seq old) = content old ↔
      old.relation = edge.relation ∧ old.properties = edge.properties.text := by
  show (old.sourceId, old.targetId, edge.relation, edge.properties.text) =
    (old.sourceId, old.targetId, old.relation, old.properties) ↔ _
  simp [eq_comm]

section
variable {node : GraphNode} {edge : GraphEdge}

theorem exec_addNode (own : node.tenantId = tenantId) : exec tenantId s (.addNode node (.ok ())) =
    ⟨(s.store.addNode tenantId node).2, s.log.append tenantId "add_node" (nodePayload tenantId node)⟩ := by
  simp [exec, addNode, own]

theorem addNode_failing_step (mirrors : s.Mirrors) (own : node.tenantId = tenantId)
    (trigger : node.id = "TRIGGER_SERIALIZATION_ERROR" ∨ node.label = "TRIGGER_SERIALIZATION_ERROR") :
    Step tenantId s (.addNode node (.ok ())) := by
  have same := nextMutationSeq_tables s.store tenantId
  obtain ⟨seq, projected⟩ := projected_append s tenantId (s.store.addNode tenantId node).2
    "add_node" (nodePayload tenantId node)
  rw [applyEvent_add_node] at projected
  have tables : (s.store.addNode tenantId node).2.tables = s.store.tables := by
    simp [GraphStore.addNode, own, trigger, same]
  constructor
  · intro repeatable
    have held := repeatable own rfl
    rw [if_pos trigger] at held
    rw [exec_addNode own]
    constructor
    · rw [projected, tables]
      exact mirrors.nodes.ignored _ held
    · rw [projected, tables]
      exact mirrors.edges
  · intro graph _ _
    rw [if_pos trigger]
    rw [exec_addNode own, projected, tables] at graph
    exact Mirrored.held_of_same (graph.nodes node.id) mirrors.nodes

theorem addNode_writing_step (mirrors : s.Mirrors) (own : node.tenantId = tenantId)
    (fine : ¬ (node.id = "TRIGGER_SERIALIZATION_ERROR" ∨ node.label = "TRIGGER_SERIALIZATION_ERROR")) :
    Step tenantId s (.addNode node (.ok ())) := by
  obtain ⟨seq, projected⟩ := projected_append s tenantId (s.store.addNode tenantId node).2
    "add_node" (nodePayload tenantId node)
  rw [applyEvent_add_node] at projected
  have tables : (s.store.addNode tenantId node).2.tables = ⟨s.store.tables.memoryNodes.upsert node.id
      ⟨node.newRow tenantId (s.store.nextMutationSeq tenantId).1, false⟩
      (fun m => { m with row := node.rewrite (s.store.nextMutationSeq tenantId).1 m.row }),
      s.store.tables.memoryEdges⟩ := by
    rw [← nextMutationSeq_tables s.store tenantId]
    simp only [GraphStore.addNode, own, fine, ne_eq, not_true_eq_false, if_false]
    rfl
  constructor
  · intro repeatable
    have leaves := repeatable own rfl
    rw [if_neg fine] at leaves
    rw [exec_addNode own]
    constructor
    · rw [projected, tables]
      exact mirrors.nodes.upsert _ rfl (fun old live => (rewrite_node_iff node _ old).mpr (leaves old live))
    · rw [projected, tables]
      exact mirrors.edges
  · intro graph _ _
    rw [if_neg fine]
    rw [exec_addNode own, projected, tables] at graph
    intro old live
    exact (rewrite_node_iff node _ old).mp (mirrors.nodes.leaves_of_same (graph.nodes node.id) old live)

theorem addNode_step (mirrors : s.Mirrors) (node : GraphNode) (append : Except String Unit) :
    Step tenantId s (.addNode node append) := by
  by_cases own : node.tenantId = tenantId
  · cases append with
    | error reason =>
      have stays : exec tenantId s (.addNode node (.error reason)) = s := by simp [exec, addNode, own]
      exact .of_unchanged mirrors (by rw [stays]) (by rw [stays]) (fun _ appended => by cases appended)
    | ok _ =>
      by_cases trigger : node.id = "TRIGGER_SERIALIZATION_ERROR" ∨ node.label = "TRIGGER_SERIALIZATION_ERROR"
      · exact addNode_failing_step mirrors own trigger
      · exact addNode_writing_step mirrors own trigger
  · have stays : exec tenantId s (.addNode node append) = s := by simp [exec, addNode, own]
    exact .of_unchanged mirrors (by rw [stays]) (by rw [stays]) (fun same => absurd same own)

def EndsExist (s : LoggedStore) (tenantId : String) (edge : GraphEdge) : Prop :=
  s.store.nodeExists edge.sourceId tenantId = true ∧ s.store.nodeExists edge.targetId tenantId = true

theorem addEdgeCheck_passed (ends : s.EndsExist tenantId edge) : s.store.addEdgeCheck tenantId edge =
    (.ok (s.store.nextMutationSeq tenantId).1, (s.store.nextMutationSeq tenantId).2) := by
  have same := congrArg GraphTables.memoryNodes (nextMutationSeq_tables s.store tenantId)
  simp [addEdgeCheck, nodeExists_of_tables same, ends.1, ends.2]

theorem addEdgeCheck_rejected (missing : ¬ s.EndsExist tenantId edge) :
    ∃ e, s.store.addEdgeCheck tenantId edge = (.error e, (s.store.nextMutationSeq tenantId).2) := by
  have same := congrArg GraphTables.memoryNodes (nextMutationSeq_tables s.store tenantId)
  simp only [addEdgeCheck, nodeExists_of_tables same]
  split
  · exact ⟨_, rfl⟩
  split
  · exact ⟨_, rfl⟩
  · rename_i source target
    exact absurd ⟨not_not.mp source, not_not.mp target⟩ missing

theorem addEdge_writing_step (mirrors : s.Mirrors) (own : edge.tenantId = tenantId)
    (ends : s.EndsExist tenantId edge) :
    Step tenantId s (.addEdge edge (.ok ())) := by
  let seq := (s.store.nextMutationSeq tenantId).1
  let store := (s.store.nextMutationSeq tenantId).2.addEdgeWrite tenantId edge seq
  have next : exec tenantId s (.addEdge edge (.ok ())) =
      ⟨store, s.log.append tenantId "add_edge" (edgePayload tenantId edge)⟩ := by
    simp [exec, addEdge, own, addEdgeCheck_passed ends, store, seq]
  obtain ⟨number, projected⟩ := projected_append s tenantId store
    "add_edge" (edgePayload tenantId edge)
  rw [applyEvent_add_edge] at projected
  have tables : store.tables = ⟨s.store.tables.memoryNodes, s.store.tables.memoryEdges.upsert edge.id
      ⟨edge.newRow tenantId seq, false⟩ (fun m => { m with row := edge.rewrite seq m.row })⟩ := by
    rw [← nextMutationSeq_tables s.store tenantId]
    rfl
  constructor
  · intro repeatable
    have leaves := repeatable own ends.1 ends.2 rfl
    rw [next]
    constructor
    · rw [projected, tables]
      exact mirrors.nodes
    · rw [projected, tables]
      exact mirrors.edges.upsert _ rfl (fun old live => (rewrite_edge_iff edge _ old).mpr (leaves old live))
  · intro graph _ _ _ _ old live
    rw [next, projected, tables] at graph
    exact (rewrite_edge_iff edge _ old).mp (mirrors.edges.leaves_of_same (graph.edges edge.id) old live)

theorem addEdge_step (mirrors : s.Mirrors) (edge : GraphEdge) (append : Except String Unit) :
    Step tenantId s (.addEdge edge append) := by
  have same := nextMutationSeq_tables s.store tenantId
  by_cases own : edge.tenantId = tenantId
  · by_cases ends : s.EndsExist tenantId edge
    · cases append with
      | error reason =>
        have next : exec tenantId s (.addEdge edge (.error reason)) =
            { s with store := (s.store.nextMutationSeq tenantId).2 } := by
          simp [exec, addEdge, own, addEdgeCheck_passed ends]
        exact .of_unchanged mirrors (by rw [next]; exact same) (by rw [next])
          (fun _ _ _ appended => by cases appended)
      | ok _ => exact addEdge_writing_step mirrors own ends
    · obtain ⟨e, checked⟩ := addEdgeCheck_rejected ends
      have next : exec tenantId s (.addEdge edge append) =
          { s with store := (s.store.nextMutationSeq tenantId).2 } := by simp [exec, addEdge, own, checked]
      exact .of_unchanged mirrors (by rw [next]; exact same) (by rw [next])
        (fun _ source target => absurd ⟨source, target⟩ ends)
  · have stays : exec tenantId s (.addEdge edge append) = s := by simp [exec, addEdge, own]
    exact .of_unchanged mirrors (by rw [stays]) (by rw [stays]) (fun same => absurd same own)

end

theorem softDeleteNode_step (mirrors : s.Mirrors) (nodeId : String) : Step tenantId s (.softDeleteNode nodeId) := by
  have same := nextMutationSeq_tables s.store tenantId
  cases found : s.store.nodeExists nodeId tenantId with
  | false =>
    have tables : (s.store.softDeleteNode tenantId nodeId).2.tables = s.store.tables := by
      simp [GraphStore.softDeleteNode, nodeExists_of_tables (congrArg GraphTables.memoryNodes same), found,
        same]
    exact .of_unchanged mirrors tables rfl found
  | true =>
    refine ⟨fun repeatable => ?_, fun graph => ?_⟩
    · rw [Repeatable, found] at repeatable
      cases repeatable
    · obtain ⟨row, live, owner⟩ := nodeExists_iff.mp found
      have gone : (s.store.softDeleteNode tenantId nodeId).2.tables.liveNode nodeId = none := by
        rw [softDeleteNode_liveNode, live]
        simp [Option.filter, owner]
      have still := graph.nodes nodeId
      have kept := mirrors.nodes.same nodeId
      rw [show (exec tenantId s (.softDeleteNode nodeId)).store.tables.liveNode nodeId = none from gone] at still
      have there : contentOf s.store.tables.memoryNodes nodeId = some (content row) :=
        congrArg (Option.map _) live
      rw [there] at kept
      exact absurd (kept.trans still.symm) (Option.some_ne_none _)

theorem step_of_mirrors (mirrors : s.Mirrors) : ∀ call, Step tenantId s call
  | .addNode node append => addNode_step mirrors node append
  | .addEdge edge append => addEdge_step mirrors edge append
  | .softDeleteNode nodeId => softDeleteNode_step mirrors nodeId

theorem run_append (earlier : List LoggedCall) (call : LoggedCall) :
    run tenantId (earlier ++ [call]) = exec tenantId (run tenantId earlier) call := foldl_append

theorem start_mirrors : (run tenantId []).Mirrors := ⟨fun _ => Option.Rel.none, fun _ => Option.Rel.none⟩

theorem run_mirrors {calls : List LoggedCall} (repeatable : ∀ earlier call later, calls = earlier ++ call :: later →
    (run tenantId earlier).Repeatable tenantId call) :
    ∀ reached later, calls = reached ++ later → (run tenantId reached).Mirrors := by
  intro reached
  induction reached using reverseRecOn with
  | nil => exact fun _ _ => start_mirrors
  | append_singleton earlier call ih =>
    intro later split
    have split' : calls = earlier ++ call :: later := by rw [split]; simp
    rw [run_append]
    exact (step_of_mirrors (ih _ split') call).keeps (repeatable earlier call later split')

end LoggedStore

/-- The store and the projection of its log agree all along exactly in the runs whose calls are repeatable. -/
theorem projection_agrees_iff (tenantId : String) (calls : List LoggedCall) :
    (∀ reached later, calls = reached ++ later →
      SameGraph (LoggedStore.run tenantId reached).store.tables (LoggedStore.run tenantId reached).projected) ↔
    ∀ earlier call later, calls = earlier ++ call :: later →
      (LoggedStore.run tenantId earlier).Repeatable tenantId call := by
  constructor
  · intro agree
    have mirrors : ∀ reached later, calls = reached ++ later → (LoggedStore.run tenantId reached).Mirrors := by
      intro reached
      induction reached using reverseRecOn with
      | nil => exact fun _ _ => LoggedStore.start_mirrors
      | append_singleton earlier call ih =>
        intro later split
        have split' : calls = earlier ++ call :: later := by rw [split]; simp
        have after := agree _ later split
        rw [LoggedStore.run_append] at after ⊢
        have step : LoggedStore.Step tenantId (LoggedStore.run tenantId earlier) call :=
          LoggedStore.step_of_mirrors (ih _ split') call
        exact step.keeps (step.only after)
    intro earlier call later split
    have after := agree (earlier ++ [call]) later (by rw [split]; simp)
    rw [LoggedStore.run_append] at after
    exact (LoggedStore.step_of_mirrors (mirrors earlier _ split) call).only after
  · intro repeatable reached later split
    exact (LoggedStore.run_mirrors repeatable reached later split).sameGraph

section Samples

def addedAndDeleted : List LoggedCall := [.addNode (sampleNode "a" "Person") (.ok ()), .softDeleteNode "a"]

theorem deletion_not_projected : ¬ SameGraph (LoggedStore.run "t1" addedAndDeleted).store.tables
    (LoggedStore.run "t1" addedAndDeleted).projected := by
  intro same
  have node := congrArg Option.isSome (same.nodes "a")
  exact absurd node (by decide +kernel)

end Samples

end Aeterna.Graph
