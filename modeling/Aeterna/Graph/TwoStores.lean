import Aeterna.Graph.Integrity
import Aeterna.Graph.Traversal
import Mathlib.Data.Option.Defs

namespace Aeterna.Graph
open Lib (Marked Table Within WithinBy Leads)
open GraphStore List Option

structure Stores where
  postgres : PostgresBackend
  duckDb : GraphStore

/-- The two ways of looking up the memory that a node comes from. -/
structure Extracts where
  jsonb : JsonbExtract
  text : JsonExtract

inductive StoreCall where
  | addNode (node : GraphNode)
  | addEdge (edge : GraphEdge)
  | softDeleteNodesBySourceMemoryId (sourceMemoryId : String)

namespace StoreCall

def onPostgres (extracts : Extracts) (tenantId : String) (s : PostgresBackend) : StoreCall →
    Except String Unit × PostgresBackend
  | addNode node => s.addNode tenantId node
  | addEdge edge => s.addEdge tenantId edge
  | softDeleteNodesBySourceMemoryId sourceMemoryId =>
    let (deleted, next) := s.softDeleteNodesBySourceMemoryId extracts.jsonb tenantId sourceMemoryId
    (deleted.map (fun _ => ()), next)

def onDuckDb (extracts : Extracts) (tenantId : String) (s : GraphStore) : StoreCall →
    Except GraphError Unit × GraphStore
  | addNode node => s.addNode tenantId node
  | addEdge edge => s.addEdge tenantId edge
  | softDeleteNodesBySourceMemoryId sourceMemoryId =>
    let (deleted, next) := s.softDeleteNodesBySourceMemoryId extracts.text tenantId sourceMemoryId
    (deleted.map (fun _ => ()), next)

def Readable (reader : JsonReader) : StoreCall → Prop
  | addNode node => reader.fromStr node.properties.text = some node.properties
  | addEdge edge => reader.fromStr edge.properties.text = some edge.properties
  | softDeleteNodesBySourceMemoryId _ => True

end StoreCall

inductive AcceptedByBoth (extracts : Extracts) (tenantId : String) (deletedAt : Bool) : List StoreCall →
    Stores → Prop where
  | start : AcceptedByBoth extracts tenantId deletedAt [] ⟨{ deletedAt }, {}⟩
  | call {calls : List StoreCall} {s : Stores} {postgres : PostgresBackend} {duckDb : GraphStore}
      (before : AcceptedByBoth extracts tenantId deletedAt calls s)
      (call : StoreCall) (first : call.onPostgres extracts tenantId s.postgres = (.ok (), postgres))
      (second : call.onDuckDb extracts tenantId s.duckDb = (.ok (), duckDb)) :
      AcceptedByBoth extracts tenantId deletedAt (calls ++ [call]) ⟨postgres, duckDb⟩

section
variable {α β : Type} {R : α → β → Prop} {tenantId : String} {t : Table (String × String) α} {u : Table String β}

/-- Two tables have related rows under the ids of a tenant. -/
def Paired (R : α → β → Prop) (tenantId : String) (t : Table (String × String) α) (u : Table String β) : Prop :=
  ∀ id, Option.Rel R (t.get (id, tenantId)) (u.get id)

theorem Paired.upsert (twins : Paired R tenantId t u) {k : String} {a : α} {b : β} {f : α → α} {g : β → β}
    (new : R a b) (kept : ∀ a b, R a b → R (f a) (g b)) :
    Paired R tenantId (t.upsert (k, tenantId) a f) (u.upsert k b g) := by
  intro id
  rw [Table.get_upsert, Table.get_upsert]
  by_cases same : id = k
  · subst same
    rw [if_pos rfl, if_pos rfl]
    have here := twins id
    generalize t.get (id, tenantId) = left at here
    generalize u.get id = right at here
    cases here with
    | none => exact .some new
    | some related => exact .some (kept _ _ related)
  · rw [if_neg same, if_neg (fun equal => same (Prod.mk.inj equal).1)]
    exact twins id

theorem Paired.update_left (twins : Paired R tenantId t u) {f : String × String → α → α}
    (kept : ∀ key a b, R a b → R (f key a) b) :
    Paired R tenantId (t.update f) u := by
  intro id
  rw [Table.get_update]
  have here := twins id
  generalize t.get (id, tenantId) = left at here
  generalize u.get id = right at here ⊢
  cases here with
  | none => exact .none
  | some related => exact .some (kept _ _ _ related)

theorem Paired.update_right (twins : Paired R tenantId t u) {g : String → β → β}
    (kept : ∀ id a b, R a b → R a (g id b)) :
    Paired R tenantId t (u.update g) := by
  intro id
  rw [Table.get_update]
  have here := twins id
  generalize t.get (id, tenantId) = left at here ⊢
  generalize u.get id = right at here
  cases here with
  | none => exact .none
  | some related => exact .some (kept id _ _ related)

end

structure NodeTwin (reader : JsonReader) (tenantId : String) (node : PgNode) (m : Marked NodeRow) : Prop where
  label : m.row.label = node.label
  properties : m.row.properties = node.properties.text
  tenant : m.row.tenantId = tenantId
  readable : reader.fromStr node.properties.text = some node.properties

structure EdgeTwin (reader : JsonReader) (tenantId : String) (edge : PgEdge) (m : Marked EdgeRow) : Prop where
  source : m.row.sourceId = edge.sourceId
  target : m.row.targetId = edge.targetId
  relation : m.row.relation = edge.relation
  properties : m.row.properties = edge.properties.text
  tenant : m.row.tenantId = tenantId
  readable : reader.fromStr edge.properties.text = some edge.properties

structure Linked (reader : JsonReader) (tenantId : String) (s : Stores) : Prop where
  nodes : Paired (NodeTwin reader tenantId) tenantId s.postgres.graphNodes s.duckDb.tables.memoryNodes
  edges : Paired (EdgeTwin reader tenantId) tenantId s.postgres.graphEdges s.duckDb.tables.memoryEdges
  references : ∀ id edge, s.postgres.graphEdges.get (id, tenantId) = some edge →
    (s.postgres.graphNodes.get (edge.targetId, tenantId)).isSome
  referential : s.duckDb.Referential

section
variable {reader : JsonReader} {tenantId : String} {s : Stores} {postgres : PostgresBackend} {duckDb : GraphStore}

theorem Linked.start (deletedAt : Bool) : Linked reader tenantId ⟨{ deletedAt }, {}⟩ where
  nodes := fun _ => .none
  edges := fun _ => .none
  references := fun _ _ held => by cases held
  referential := fun _ _ live => by cases live

theorem Linked.addNode (linked : Linked reader tenantId s) {node : GraphNode}
    (readable : reader.fromStr node.properties.text = some node.properties)
    (first : s.postgres.addNode tenantId node = (.ok (), postgres))
    (second : s.duckDb.addNode tenantId node = (.ok (), duckDb)) :
    Linked reader tenantId ⟨postgres, duckDb⟩ := by
  have referential : (s.duckDb.addNode tenantId node).2.Referential := linked.referential.addNode node
  rw [second] at referential
  cases first
  unfold GraphStore.addNode at second
  split at second
  · cases second
  dsimp only at second
  split at second
  · cases second
  cases second
  have tables := nextMutationSeq_tables s.duckDb tenantId
  refine ⟨?_, ?_, ?_, referential⟩
  · show Paired _ _ _ ((s.duckDb.nextMutationSeq tenantId).2.tables.memoryNodes.upsert _ _ _)
    rw [tables]
    exact linked.nodes.upsert ⟨rfl, rfl, rfl, readable⟩ (fun _ _ twin => ⟨rfl, rfl, twin.tenant, readable⟩)
  · show Paired _ _ _ (s.duckDb.nextMutationSeq tenantId).2.tables.memoryEdges
    rw [tables]
    exact linked.edges
  · intro id edge held
    dsimp only
    rw [Table.get_upsert]
    split
    · rfl
    · exact linked.references id edge held

variable {edge : GraphEdge}

theorem addEdgeCheck_ends {s next : GraphStore} {seq : Int}
    (checked : s.addEdgeCheck tenantId edge = (.ok seq, next)) :
    s.nodeExists edge.sourceId tenantId = true ∧ s.nodeExists edge.targetId tenantId = true := by
  have same := congrArg GraphTables.memoryNodes (nextMutationSeq_tables s tenantId)
  unfold GraphStore.addEdgeCheck at checked
  dsimp only at checked
  rw [nodeExists_of_tables same, nodeExists_of_tables same] at checked
  split at checked
  · cases checked
  rename_i source
  split at checked
  · cases checked
  rename_i target
  exact ⟨Classical.not_not.mp source, Classical.not_not.mp target⟩

theorem addEdge_references {s : PostgresBackend} (ran : s.addEdge tenantId edge = (.ok (), postgres))
    (before : ∀ id row, s.graphEdges.get (id, tenantId) = some row →
    (s.graphNodes.get (row.targetId, tenantId)).isSome) :
    ∀ id row, postgres.graphEdges.get (id, tenantId) = some row →
      (postgres.graphNodes.get (row.targetId, tenantId)).isSome := by
  unfold PostgresBackend.addEdge at ran
  dsimp only at ran
  split at ran
  · cases ran
  rename_i accepted
  cases ran
  intro id row held
  dsimp only at held ⊢
  rw [Table.get_upsert] at held
  split at held
  · cases old : s.graphEdges.get (edge.id, tenantId) with
    | none =>
      rw [old] at held accepted
      cases held
      simp only [isNone_none, Bool.true_and, Bool.not_eq_true', Bool.not_eq_false,
        Bool.and_eq_true] at accepted
      exact accepted.2
    | some row' =>
      rw [old] at held
      cases held
      exact before edge.id row' old
  · exact before id row held

theorem Linked.addEdge (linked : Linked reader tenantId s)
    (readable : reader.fromStr edge.properties.text = some edge.properties)
    (first : s.postgres.addEdge tenantId edge = (.ok (), postgres))
    (second : s.duckDb.addEdge tenantId edge = (.ok (), duckDb)) :
    Linked reader tenantId ⟨postgres, duckDb⟩ := by
  have references := addEdge_references first linked.references
  unfold PostgresBackend.addEdge at first
  dsimp only at first
  split at first
  · cases first
  cases first
  unfold GraphStore.addEdge at second
  split at second
  · cases second
  cases found : s.duckDb.addEdgeCheck tenantId edge with
  | mk outcome mid =>
    have tables : mid.tables = s.duckDb.tables := by
      have same := (addEdgeCheck_spec s.duckDb tenantId edge).1
      rwa [found] at same
    rw [found] at second
    cases outcome with
    | error e => cases second
    | ok seq =>
      cases second
      refine ⟨?_, ?_, references, (linked.referential.of_tables tables).addEdgeWrite (fun _ => ?_)⟩
      · show Paired _ _ _ mid.tables.memoryNodes
        rw [tables]
        exact linked.nodes
      · show Paired _ _ _ (mid.tables.memoryEdges.upsert _ _ _)
        rw [tables]
        exact linked.edges.upsert ⟨rfl, rfl, rfl, rfl, rfl, readable⟩
          (fun _ _ twin => ⟨twin.source, twin.target, rfl, rfl, twin.tenant, readable⟩)
      · rw [nodeExists_of_tables (congrArg GraphTables.memoryNodes tables),
          nodeExists_of_tables (congrArg GraphTables.memoryNodes tables)]
        exact addEdgeCheck_ends found

theorem NodeTwin.stamped {node : PgNode} {m : Marked NodeRow} (twin : NodeTwin reader tenantId node m)
    (seq : Int) (deleted : Bool) :
    NodeTwin reader tenantId node ⟨{ m.row with seq }, deleted⟩ :=
      ⟨twin.label, twin.properties, twin.tenant, twin.readable⟩

theorem EdgeTwin.stamped {edge : PgEdge} {m : Marked EdgeRow} (twin : EdgeTwin reader tenantId edge m)
    (seq : Int) (deleted : Bool) :
    EdgeTwin reader tenantId edge ⟨{ m.row with seq }, deleted⟩ :=
  ⟨twin.source, twin.target, twin.relation, twin.properties, twin.tenant, twin.readable⟩

theorem deleteWhere_twins {α ρ : Type} {R : α → Marked ρ → Prop} {t : Table (String × String) α}
    {u : Table String (Marked ρ)} {stamp : ρ → ρ} (stamped : ∀ a m, R a m → R a ⟨stamp m.row, true⟩)
    (p : String → ρ → Bool) (twins : Paired R tenantId t u) :
    Paired R tenantId t (deleteWhere stamp p u) := by
  refine twins.update_right (fun id a m related => ?_)
  split
  · exact stamped a m related
  · exact related

theorem cascade_twins (nodeIds : List String) (seq : Int) {t : Table (String × String) PgEdge}
    {u : Table String (Marked EdgeRow)} (twins : Paired (EdgeTwin reader tenantId) tenantId t u) :
    Paired (EdgeTwin reader tenantId) tenantId t
      (nodeIds.foldl (fun edges nodeId => deleteEdgesAt nodeId tenantId seq edges) u) := by
  induction nodeIds generalizing u with
  | nil => exact twins
  | cons nodeId rest ih => exact ih (deleteWhere_twins (fun _ _ twin => twin.stamped seq true) _ twins)

theorem softDelete_twins {s : GraphStore} {extract : JsonExtract} {sourceMemoryId : String} {n : Nat}
    {nodes : Table (String × String) PgNode} {edges : Table (String × String) PgEdge}
    (ran : s.softDeleteNodesBySourceMemoryId extract tenantId sourceMemoryId = (.ok n, duckDb))
    (nodeTwins : Paired (NodeTwin reader tenantId) tenantId nodes s.tables.memoryNodes)
    (edgeTwins : Paired (EdgeTwin reader tenantId) tenantId edges s.tables.memoryEdges) :
    Paired (NodeTwin reader tenantId) tenantId nodes duckDb.tables.memoryNodes ∧
      Paired (EdgeTwin reader tenantId) tenantId edges duckDb.tables.memoryEdges := by
  have tables := nextMutationSeq_tables s tenantId
  unfold GraphStore.softDeleteNodesBySourceMemoryId at ran
  dsimp only at ran
  split at ran
  · cases ran
    rw [tables]
    exact ⟨nodeTwins, edgeTwins⟩
  · cases ran
    dsimp only
    rw [tables]
    exact ⟨deleteWhere_twins (fun _ _ twin => twin.stamped _ true) _ nodeTwins, cascade_twins _ _ edgeTwins⟩

theorem Linked.softDelete (linked : Linked reader tenantId s) {extracts : Extracts} {sourceMemoryId : String}
    {n m : Nat}
    (first : s.postgres.softDeleteNodesBySourceMemoryId extracts.jsonb tenantId sourceMemoryId = (.ok n, postgres))
    (second : s.duckDb.softDeleteNodesBySourceMemoryId extracts.text tenantId sourceMemoryId = (.ok m, duckDb)) :
    Linked reader tenantId ⟨postgres, duckDb⟩ := by
  have referential : (s.duckDb.softDeleteNodesBySourceMemoryId extracts.text tenantId sourceMemoryId).2.Referential :=
    linked.referential.softDeleteNodesBySourceMemoryId extracts.text sourceMemoryId
  rw [second] at referential
  obtain ⟨nodes, edges⟩ := softDelete_twins second linked.nodes linked.edges
  unfold PostgresBackend.softDeleteNodesBySourceMemoryId at first
  dsimp only at first
  split at first
  · cases first
  cases first
  refine ⟨nodes.update_left ?_, edges.update_left ?_, ?_, referential⟩
  · intro key a m twin
    split
    · exact ⟨twin.label, twin.properties, twin.tenant, twin.readable⟩
    · exact twin
  · intro key a m twin
    split
    · exact ⟨twin.source, twin.target, twin.relation, twin.properties, twin.tenant, twin.readable⟩
    · exact twin
  · intro id row held
    dsimp only at held ⊢
    rw [Table.get_update] at held ⊢
    obtain ⟨old, before, same⟩ := map_eq_some_iff.mp held
    have target : row.targetId = old.targetId := by
      rw [← same]
      split <;> rfl
    rw [target, isSome_map]
    exact linked.references id old before

theorem ok_of_dropped {ε σ α : Type} {ran : Except ε α × σ} {next : σ}
    (dropped : (ran.1.map (fun _ => ()), ran.2) = (.ok (), next)) :
    ∃ a, ran = (.ok a, next) := by
  obtain ⟨outcome, last⟩ := ran
  cases outcome with
  | ok a =>
    cases dropped
    exact ⟨a, rfl⟩
  | error e => cases dropped

theorem AcceptedByBoth.linked {extracts : Extracts} {deletedAt : Bool} {calls : List StoreCall}
    (accepted : AcceptedByBoth extracts tenantId deletedAt calls s)
    (readable : ∀ call ∈ calls, call.Readable reader) : Linked reader tenantId s := by
  induction accepted with
  | start => exact .start deletedAt
  | call before call first second ih =>
    have linked := ih (fun other member => readable other (mem_append_left _ member))
    have here := readable call (mem_append_right _ (mem_singleton_self _))
    cases call with
    | addNode node => exact linked.addNode here first second
    | addEdge edge => exact linked.addEdge here first second
    | softDeleteNodesBySourceMemoryId sourceMemoryId =>
      obtain ⟨_, first⟩ := ok_of_dropped first
      obtain ⟨_, second⟩ := ok_of_dropped second
      exact linked.softDelete first second

theorem EdgeTwin.toEdge {edge : PgEdge} {row : EdgeRow} {deleted : Bool}
    (twin : EdgeTwin reader tenantId edge ⟨row, deleted⟩) (id : String) :
    PostgresBackend.toEdge tenantId (id, edge) = toEdge reader tenantId (id, row) := by
  unfold PostgresBackend.toEdge GraphStore.toEdge JsonReader.properties
  obtain ⟨source, target, relation, properties, _, readable⟩ := twin
  dsimp only at source target relation properties ⊢
  rw [source, target, relation, properties, readable]
  rfl

theorem NodeTwin.toNode {node : PgNode} {row : NodeRow} {deleted : Bool}
    (twin : NodeTwin reader tenantId node ⟨row, deleted⟩) (id : String) :
    PostgresBackend.toNode tenantId id node = toNode reader tenantId id row := by
  unfold PostgresBackend.toNode GraphStore.toNode JsonReader.properties
  obtain ⟨label, properties, _, readable⟩ := twin
  dsimp only at label properties ⊢
  rw [label, properties, readable]
  rfl

theorem mem_edges {s : PostgresBackend} {e : String × PgEdge} : e ∈ s.edges tenantId ↔
    s.graphEdges.get (e.1, tenantId) = some e.2 := by
  obtain ⟨id, edge⟩ := e
  rw [Table.get_eq_some]
  unfold PostgresBackend.edges
  rw [List.mem_map]
  constructor
  · rintro ⟨⟨⟨other, owner⟩, row⟩, member, same⟩
    obtain ⟨here, own⟩ := mem_filter.mp member
    cases same
    obtain rfl : owner = tenantId := of_decide_eq_true own
    exact here
  · exact fun here => ⟨_, mem_filter.mpr ⟨here, decide_eq_true rfl⟩, rfl⟩

theorem Linked.live_edge (linked : Linked reader tenantId s) {e : String × EdgeRow}
    (live : e ∈ s.duckDb.liveEdges tenantId) :
    ∃ edge, (e.1, edge) ∈ s.postgres.edges tenantId ∧ EdgeTwin reader tenantId edge ⟨e.2, false⟩ := by
  have here := linked.edges e.1
  obtain ⟨live, _⟩ := mem_liveEdges.mp live
  unfold GraphTables.liveEdge at live
  generalize twinA : s.postgres.graphEdges.get (e.1, tenantId) = left at here
  generalize s.duckDb.tables.memoryEdges.get e.1 = right at here live
  cases here with
  | none => cases live
  | @some edge m twin =>
    obtain ⟨row, deleted⟩ := m
    cases deleted with
    | true => cases live
    | false =>
      cases live
      exact ⟨edge, mem_edges.mpr twinA, twin⟩

theorem Linked.own_node (linked : Linked reader tenantId s) {id : String} {row : NodeRow}
    (live : s.duckDb.ownNode tenantId id = some row) :
    ∃ node, s.postgres.graphNodes.get (id, tenantId) = some node ∧ NodeTwin reader tenantId node ⟨row, false⟩ := by
  have here := linked.nodes id
  obtain ⟨live, _⟩ := filter_eq_some_iff.mp live
  unfold GraphTables.liveNode at live
  generalize s.postgres.graphNodes.get (id, tenantId) = left at here
  generalize s.duckDb.tables.memoryNodes.get id = right at here live
  cases here with
  | none => cases live
  | @some node m twin =>
    obtain ⟨old, deleted⟩ := m
    cases deleted with
    | true => cases live
    | false =>
      cases live
      exact ⟨node, rfl, twin⟩

theorem Linked.ends (linked : Linked reader tenantId s) {e : String × EdgeRow}
    (live : e ∈ s.duckDb.liveEdges tenantId) :
    (∃ row, s.duckDb.ownNode tenantId e.2.sourceId = some row) ∧ ∃ row,
      s.duckDb.ownNode tenantId e.2.targetId = some row := by
  obtain ⟨live, own⟩ := mem_liveEdges.mp live
  obtain ⟨source, target⟩ := linked.referential e.1 e.2 live
  rw [own] at source target
  obtain ⟨first, firstLive, firstOwn⟩ := nodeExists_iff.mp source
  obtain ⟨second, secondLive, secondOwn⟩ := nodeExists_iff.mp target
  exact ⟨⟨first, filter_eq_some_iff.mpr ⟨firstLive, decide_eq_true firstOwn⟩⟩,
    ⟨second, filter_eq_some_iff.mpr ⟨secondLive, decide_eq_true secondOwn⟩⟩⟩

theorem mem_postgres_neighbors {s : PostgresBackend} {nodeId : String} {p : GraphEdge × GraphNode} :
    p ∈ s.getNeighbors tenantId nodeId ↔
    ∃ e ∈ s.edges tenantId, e.2.sourceId = nodeId ∧ ∃ node, s.graphNodes.get (e.2.targetId, tenantId) = some node ∧
      (PostgresBackend.toEdge tenantId e, PostgresBackend.toNode tenantId e.2.targetId node) = p := by
  unfold PostgresBackend.getNeighbors
  rw [mem_filterMap]
  simp only [mem_filter, decide_eq_true_eq, map_eq_some_iff, and_assoc]

theorem mem_duckDb_neighbors {s : GraphStore} {nodeId : String} {p : GraphEdge × GraphNode} :
    p ∈ s.getNeighbors reader tenantId nodeId ↔
    ∃ e ∈ s.liveEdges tenantId, (e.2.sourceId = nodeId ∨ e.2.targetId = nodeId) ∧
      ∃ row, s.ownNode tenantId (if e.2.sourceId = nodeId then e.2.targetId else e.2.sourceId) = some row ∧
        (toEdge reader tenantId e,
          toNode reader tenantId (if e.2.sourceId = nodeId then e.2.targetId else e.2.sourceId) row) = p := by
  unfold GraphStore.getNeighbors
  rw [mem_filterMap]
  simp only [mem_append, mem_filter, decide_eq_true_eq, map_eq_some_iff, ← and_or_left, and_assoc]

theorem same_neighbors_iff (linked : Linked reader tenantId s) (nodeId : String) :
    (∀ p, p ∈ s.postgres.getNeighbors tenantId nodeId ↔ p ∈ s.duckDb.getNeighbors reader tenantId nodeId) ↔
      (∀ e ∈ s.postgres.edges tenantId, e.2.sourceId = nodeId → ∃ row, (e.1, row) ∈ s.duckDb.liveEdges tenantId) ∧
        ∀ e ∈ s.duckDb.liveEdges tenantId, e.2.targetId = nodeId → e.2.sourceId = nodeId := by
  constructor
  · intro same
    refine ⟨fun e stored source => ?_, fun e live target => ?_⟩
    · obtain ⟨node, held⟩ := isSome_iff_exists.mp (linked.references e.1 e.2 (mem_edges.mp stored))
      have here := (same _).mp (mem_postgres_neighbors.mpr ⟨e, stored, source, node, held, rfl⟩)
      obtain ⟨other, live, _, _, _, equal⟩ := mem_duckDb_neighbors.mp here
      have id : other.1 = e.1 := congrArg (fun p : GraphEdge × GraphNode => p.1.id) equal
      exact ⟨other.2, id ▸ live⟩
    · refine Classical.byContradiction (fun foreign => ?_)
      obtain ⟨⟨row, held⟩, _⟩ := linked.ends live
      have other : (if e.2.sourceId = nodeId then e.2.targetId else e.2.sourceId) = e.2.sourceId := if_neg foreign
      have here := (same _).mpr (mem_duckDb_neighbors.mpr ⟨e, live, .inr target, row, other.symm ▸ held, rfl⟩)
      obtain ⟨stored, _, source, _, _, equal⟩ := mem_postgres_neighbors.mp here
      have sources : stored.2.sourceId = e.2.sourceId :=
        congrArg (fun p : GraphEdge × GraphNode => p.1.sourceId) equal
      exact foreign (sources.symm.trans source)
  · rintro ⟨outgoing, incoming⟩ p
    rw [mem_postgres_neighbors, mem_duckDb_neighbors]
    constructor
    · rintro ⟨e, stored, source, node, held, rfl⟩
      obtain ⟨row, live⟩ := outgoing e stored source
      obtain ⟨edge, stored', twin⟩ := linked.live_edge live
      obtain rfl : edge = e.2 := Option.some.inj ((mem_edges.mp stored').symm.trans (mem_edges.mp stored))
      obtain ⟨_, ⟨nodeRow, own⟩⟩ := linked.ends live
      obtain ⟨node', held', nodeTwin⟩ := linked.own_node own
      have target : row.targetId = e.2.targetId := twin.target
      dsimp only at own held' nodeTwin
      rw [target] at own held'
      obtain rfl : node' = node := Option.some.inj (held'.symm.trans held)
      have source' : row.sourceId = nodeId := twin.source.trans source
      refine ⟨(e.1, row), live, .inl source', nodeRow, ?_, ?_⟩
      · rw [if_pos source']
        exact target ▸ own
      · rw [if_pos source', ← twin.toEdge e.1, ← nodeTwin.toNode, target]
    · rintro ⟨e, live, touching, row, own, rfl⟩
      have source : e.2.sourceId = nodeId := touching.elim (fun here => here) (incoming e live)
      rw [if_pos source] at own ⊢
      obtain ⟨edge, stored, twin⟩ := linked.live_edge live
      obtain ⟨node, held, nodeTwin⟩ := linked.own_node own
      have target : e.2.targetId = edge.targetId := twin.target
      refine ⟨(e.1, edge), stored, twin.source.symm.trans source, node, target ▸ held, ?_⟩
      rw [twin.toEdge e.1, ← target, nodeTwin.toNode]

def LivePath (s : GraphStore) (tenantId startId endId : String) (n : Nat) : Prop :=
  Within (fun e => e.2.sourceId) (fun e => e.2.targetId) (s.liveEdges tenantId) startId endId n

def StoredPath (s : PostgresBackend) (tenantId startId endId : String) (n : Nat) : Prop :=
  Within (fun e => e.2.sourceId) (fun e => e.2.targetId) (s.edges tenantId) startId endId n

def MatchedPath (s : GraphStore) (tenantId startId endId : String) (n : Nat) : Prop :=
  WithinBy (fun e => e.2.sourceId) (fun e => e.2.targetId) (Passes endId n)
    (s.liveEdges tenantId) startId endId

/-- The answer to a path query: nothing if there is no path, and otherwise edges that lead from the start to
the end. -/
def Answers (s : GraphStore) (tenantId startId endId : String) (maxDepth : Nat) (result : List GraphEdge) : Prop :=
  (result = [] ↔ ¬ LivePath s tenantId startId endId maxDepth) ∧
    (result ≠ [] → Leads GraphEdge.sourceId GraphEdge.targetId startId result endId)

theorem postgres_answers_iff (s : Stores) (tenantId startId endId : String) (maxDepth : Nat) :
    Answers s.duckDb tenantId startId endId maxDepth (s.postgres.findPath tenantId startId endId maxDepth) ↔
      (LivePath s.duckDb tenantId startId endId maxDepth ↔
        StoredPath s.postgres tenantId startId endId (max 1 (asI32 maxDepth).toNat)) ∧
        (StoredPath s.postgres tenantId startId endId (max 1 (asI32 maxDepth).toNat) →
          ∃ direct ∈ s.postgres.edges tenantId, direct.2.sourceId = startId ∧ direct.2.targetId = endId) := by
  unfold Answers
  rcases PostgresBackend.findPath_cases s.postgres tenantId startId endId maxDepth with ⟨empty, unfound⟩ |
    ⟨e, inside, single, there, found, first⟩
  · have unfound : ¬ StoredPath s.postgres tenantId startId endId (max 1 (asI32 maxDepth).toNat) := unfound
    rw [empty]
    constructor
    · rintro ⟨none, _⟩
      exact ⟨⟨fun live => absurd live (none.mp rfl), fun stored => absurd stored unfound⟩, fun stored =>
        absurd stored unfound⟩
    · rintro ⟨same, _⟩
      exact ⟨⟨fun _ live => unfound (same.mp live), fun _ => rfl⟩, fun filled => absurd rfl filled⟩
  · have found : StoredPath s.postgres tenantId startId endId (max 1 (asI32 maxDepth).toNat) := found
    rw [single]
    constructor
    · rintro ⟨none, leads⟩
      obtain ⟨source, _⟩ := leads (by simp)
      exact ⟨⟨fun _ => found, fun _ => Classical.byContradiction (fun absent => by simpa using none.mpr absent)⟩,
        fun _ => ⟨e, inside, source, there⟩⟩
    · rintro ⟨same, direct⟩
      exact ⟨⟨fun empty => by simp at empty, fun absent => absurd (same.mpr found) absent⟩,
        fun _ => ⟨first (direct found), there⟩⟩

theorem leads_toEdge {reader : JsonReader} {tenantId startId endId : String} {walk : List (String × EdgeRow)} :
    Leads GraphEdge.sourceId GraphEdge.targetId startId (walk.map (toEdge reader tenantId)) endId ↔
      Leads (fun e => e.2.sourceId) (fun e => e.2.targetId) startId walk endId := by
  induction walk generalizing startId with
  | nil => exact Iff.rfl
  | cons e rest ih => exact and_congr_right (fun _ => ih)

theorem duckDb_answers_iff {s : GraphStore} (startId endId : String) (maxDepth maxPathDepth : Nat)
    (plain : ∀ e ∈ s.liveEdges tenantId, ',' ∉ e.1.toList) :
    (∃ result, s.findPath reader tenantId maxPathDepth startId endId maxDepth = .ok result ∧
      Answers s tenantId startId endId maxDepth result) ↔
      maxDepth ≤ maxPathDepth ∧ (LivePath s tenantId startId endId maxDepth ↔
        MatchedPath s tenantId startId endId maxDepth) := by
  unfold GraphStore.findPath
  by_cases allowed : maxDepth ≤ maxPathDepth
  swap
  · have refused : s.shortestPath tenantId maxPathDepth startId endId maxDepth = .error
        (.maxDepthExceeded maxPathDepth) :=
      if_pos (Nat.lt_of_not_le allowed)
    rw [refused]
    constructor
    · rintro ⟨_, answered, _⟩
      cases answered
    · rintro ⟨low, _⟩
      exact absurd low allowed
  rcases shortestPath_cases allowed plain with ⟨empty, unmatched⟩ |
    ⟨walk, filled, answered, leads, matched⟩
  · have unmatched : ¬ MatchedPath s tenantId startId endId maxDepth := unmatched
    rw [empty]
    constructor
    · rintro ⟨result, same, none, _⟩
      cases same
      exact ⟨allowed, fun live => absurd live (none.mp rfl), fun path => absurd path unmatched⟩
    · rintro ⟨_, same⟩
      exact ⟨[], rfl, ⟨fun _ live => unmatched (same.mp live), fun _ => rfl⟩, fun more => absurd rfl more⟩
  · have matched : MatchedPath s tenantId startId endId maxDepth := matched
    rw [answered]
    constructor
    · rintro ⟨result, same, none, _⟩
      cases same
      refine ⟨allowed, fun _ => matched, fun _ => Classical.byContradiction (fun absent => ?_)⟩
      exact filled (map_eq_nil_iff.mp (none.mpr absent))
    · rintro ⟨_, same⟩
      refine ⟨_, rfl, ⟨fun empty => absurd (map_eq_nil_iff.mp empty) filled, fun absent =>
        absurd (same.mpr matched) absent⟩, fun _ => ?_⟩
      exact leads_toEdge.mpr leads

structure Agree (reader : JsonReader) (tenantId : String) (s : Stores) (nodeId startId endId : String)
    (maxDepth maxPathDepth : Nat) : Prop where
  neighbors : ∀ p, p ∈ s.postgres.getNeighbors tenantId nodeId ↔ p ∈ s.duckDb.getNeighbors reader tenantId nodeId
  postgres : Answers s.duckDb tenantId startId endId maxDepth (s.postgres.findPath tenantId startId endId maxDepth)
  duckDb : ∃ result, s.duckDb.findPath reader tenantId maxPathDepth startId endId maxDepth = .ok result ∧
    Answers s.duckDb tenantId startId endId maxDepth result

/-- What the graph must be for that. -/
structure Fits (tenantId : String) (s : Stores) (nodeId startId endId : String) (maxDepth maxPathDepth : Nat) :
    Prop where
  outgoing : ∀ e ∈ s.postgres.edges tenantId, e.2.sourceId = nodeId → ∃ row, (e.1, row) ∈ s.duckDb.liveEdges tenantId
  incoming : ∀ e ∈ s.duckDb.liveEdges tenantId, e.2.targetId = nodeId → e.2.sourceId = nodeId
  stored : LivePath s.duckDb tenantId startId endId maxDepth ↔
    StoredPath s.postgres tenantId startId endId (max 1 (asI32 maxDepth).toNat)
  direct : StoredPath s.postgres tenantId startId endId (max 1 (asI32 maxDepth).toNat) →
    ∃ e ∈ s.postgres.edges tenantId, e.2.sourceId = startId ∧ e.2.targetId = endId
  allowed : maxDepth ≤ maxPathDepth
  matched : LivePath s.duckDb tenantId startId endId maxDepth ↔ MatchedPath s.duckDb tenantId startId endId maxDepth

end

def sampleReader : JsonReader := ⟨fun text => if text = "\x7b\x7d" then some (.object []) else none⟩

def noExtracts : Extracts := ⟨⟨fun _ => none⟩, noMemory⟩

def oneEdge : List StoreCall := [.addNode (sampleNode "a" "Person"), .addNode (sampleNode "b" "Person"),
    .addEdge (sampleEdge "e" "a" "b")]

def Stores.after (s : Stores) (call : StoreCall) : Stores :=
  ⟨(call.onPostgres noExtracts "t1" s.postgres).2, (call.onDuckDb noExtracts "t1" s.duckDb).2⟩

def oneEdgeStores : Stores := oneEdge.foldl Stores.after ⟨{ graphNodes := .empty, graphEdges := .empty }, {}⟩

theorem oneEdge_accepted : AcceptedByBoth noExtracts "t1" false oneEdge oneEdgeStores :=
  .call (.call (.call .start _ (Prod.ext (by rfl) rfl) (Prod.ext (by rfl) rfl)) _ (Prod.ext (by rfl) rfl)
    (Prod.ext (by rfl) rfl)) _
    (Prod.ext (by rfl) rfl) (Prod.ext (by rfl) rfl)

theorem oneEdge_readable : ∀ call ∈ oneEdge, call.Readable sampleReader := by
  intro call member
  simp only [oneEdge, mem_cons, not_mem_nil, or_false] at member
  rcases member with rfl | rfl | rfl <;> rfl

def storedEdge : String × PgEdge := ("e",
    { sourceId := "a", targetId := "b", relation := "KNOWS", properties := .object [] })

def liveEdge : String × EdgeRow :=
  ("e", { sourceId := "a", targetId := "b", relation := "KNOWS", properties := "\x7b\x7d", tenantId := "t1", seq := 3 })

theorem oneEdge_stored : oneEdgeStores.postgres.edges "t1" = [storedEdge] := by rfl

theorem oneEdge_live : oneEdgeStores.duckDb.liveEdges "t1" = [liveEdge] := by decide +kernel

theorem oneEdge_distinct : Distinct (oneEdgeStores.duckDb.liveEdges "t1") := by
  rw [oneEdge_live]
  refine ⟨by decide, by decide, fun a inA b inB _ => ?_⟩
  rw [mem_singleton.mp inA, mem_singleton.mp inB]

end Aeterna.Graph
