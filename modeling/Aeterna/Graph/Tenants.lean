import Mathlib.Data.List.Induction
import Aeterna.Graph.Live

namespace Aeterna.Graph
open Lib (Eff Marked Table)
open Lib.Eff GraphTables

class OwnedRow (ρ : Type) where
  tenantId : ρ → String
  Content : Type
  content : ρ → Content
  decidable : DecidableEq Content := by infer_instance

instance : OwnedRow NodeRow where
  tenantId := NodeRow.tenantId
  Content := String × String
  content row := (row.label, row.properties)

instance : OwnedRow EdgeRow where
  tenantId := EdgeRow.tenantId
  Content := String × String × String × String
  content row := (row.sourceId, row.targetId, row.relation, row.properties)

instance : OwnedRow EntityRow where
  tenantId := EntityRow.tenantId
  Content := String × String × String
  content row := (row.name, row.entityType, row.properties)

instance : OwnedRow EntityEdgeRow where
  tenantId := EntityEdgeRow.tenantId
  Content := String × String × String × String
  content row := (row.sourceEntityId, row.targetEntityId, row.relation, row.properties)

instance {ρ : Type} [OwnedRow ρ] : DecidableEq (OwnedRow.Content ρ) := OwnedRow.decidable

section
variable {ρ : Type} [OwnedRow ρ]

/-- `SELECT ... WHERE id = ? AND tenant_id = ? AND deleted_at IS NULL`. -/
def rowOf (tenantId : String) (t : Table String (Marked ρ)) (id : String) : Option (OwnedRow.Content ρ) :=
  ((Marked.live (t.get id)).filter (fun row => OwnedRow.tenantId row = tenantId)).map OwnedRow.content

/-- A write of `tenantId` under this id meets no live row of a tenant other than `ownTenant`, and makes none. -/
def Clear (ownTenant tenantId : String) (t : Table String (Marked ρ)) (id : String) : Prop :=
  (t.get id = none → tenantId = ownTenant) ∧
    ∀ row, Marked.live (t.get id) = some row → OwnedRow.tenantId row = ownTenant

structure Spares (ownTenant : String) (t t' : Table String (Marked ρ)) : Prop where
  others : ∀ other, other ≠ ownTenant → ∀ id, rowOf other t' id = rowOf other t id
  held : ∀ id, t'.get id = none → t.get id = none

variable {ownTenant tenantId : String} {t u : Table String (Marked ρ)}

variable {id : String}

theorem rowOf_eq_none {other : String} :
    rowOf other t id = none ↔ ∀ row, Marked.live (t.get id) = some row → OwnedRow.tenantId row ≠ other := by
  unfold rowOf
  cases Marked.live (t.get id) <;> simp [Option.filter]

theorem Spares.refl (ownTenant : String) (t : Table String (Marked ρ)) : Spares ownTenant t t :=
  ⟨fun _ _ _ => rfl, fun _ => id⟩

theorem Spares.trans {v : Table String (Marked ρ)} (first : Spares ownTenant t u) (second : Spares ownTenant u v) :
    Spares ownTenant t v where
  others := fun other foreign id => (second.others other foreign id).trans (first.others other foreign id)
  held := fun id free => first.held id (second.held id free)

theorem Spares.clear (spares : Spares ownTenant t u) (clear : Clear ownTenant tenantId t id) :
    Clear ownTenant tenantId u id := by
  refine ⟨fun free => clear.1 (spares.held id free), fun row live => ?_⟩
  by_contra foreign
  have nothing : rowOf (OwnedRow.tenantId row) t id = none := by
    refine rowOf_eq_none.mpr (fun old before same => ?_)
    exact foreign (same.symm.trans (clear.2 old before))
  rw [← spares.others _ foreign] at nothing
  exact rowOf_eq_none.mp nothing row live rfl

theorem Spares.upsert (spares : Spares ownTenant t u) (row : ρ) (write : ρ → ρ)
    (clear : Clear ownTenant (OwnedRow.tenantId row) u id)
    (keeps : ∀ old, OwnedRow.tenantId (write old) = OwnedRow.tenantId old) :
    Spares ownTenant t (u.upsert id ⟨row, false⟩ (fun m => { m with row := write m.row })) where
  others := by
    intro other foreign key
    rw [← spares.others other foreign key]
    by_cases same : key = id
    · subst same
      have before : rowOf other u key = none :=
        rowOf_eq_none.mpr (fun old live own => foreign (own.symm.trans (clear.2 old live)))
      rw [before]
      refine rowOf_eq_none.mpr (fun new live own => foreign (own.symm.trans ?_))
      rw [live_upsert] at live
      split at live
      · rename_i free
        cases live
        exact clear.1 free.2
      · obtain ⟨old, was, rfl⟩ := Option.map_eq_some_iff.mp live
        rw [if_pos rfl, keeps]
        exact clear.2 old was
    · unfold rowOf
      rw [live_upsert]
      simp [same]
  held := by
    intro key free
    rw [Table.get_upsert] at free
    split at free
    · cases free
    · exact spares.held key free

theorem Spares.deleteWhere (spares : Spares ownTenant t u) (stamp : ρ → ρ) {p : String → ρ → Bool}
    (own : ∀ id row, p id row = true → OwnedRow.tenantId row = ownTenant) :
    Spares ownTenant t (GraphStore.deleteWhere stamp p u) where
  others := by
    intro other foreign id
    rw [← spares.others other foreign id]
    unfold rowOf
    rw [live_deleteWhere, Option.filter_filter]
    congr 2
    funext row
    by_cases owner : OwnedRow.tenantId row = other
    · have kept : p id row = false := by
        by_contra hit
        exact foreign (owner.symm.trans (own id row (by simpa using hit)))
      simp [owner, kept]
    · simp [owner]
  held := by
    intro id free
    rw [GraphStore.deleteWhere, Table.get_update] at free
    exact spares.held id (Option.map_eq_none_iff.mp free)

end

theorem Spares.cascade {tenantId : String} {t u : Table String (Marked EdgeRow)} (spares : Spares tenantId t u)
    (nodeIds : List String) (seq : Int) :
    Spares tenantId t (nodeIds.foldl (fun edges nodeId => GraphStore.deleteEdgesAt nodeId tenantId seq edges) u) := by
  induction nodeIds generalizing u with
  | nil => exact spares
  | cons nodeId rest ih =>
    refine ih (spares.deleteWhere (fun row => { row with seq := seq }) (fun _ row hit => ?_))
    simp only [GraphStore.touches, decide_eq_true_eq] at hit
    exact hit.2

/-- The tables of one DuckDB file. -/
structure GraphDb where
  store : GraphStore := {}
  entityTables : EntityTables := {}

/-- A call with the context of a tenant. A batch names its tenant once more. -/
inductive TenantCall where
  | addNode (node : GraphNode)
  | addEdge (edge : GraphEdge)
  | addNodesAndEdgesAtomic (tenantId : String) (nodes : List GraphNode) (edges : List GraphEdge)
  | addEntitiesAtomic (tenantId : String) (entities : List Entity) (edges : List EntityEdge)
  | softDeleteNode (nodeId : String)
  | softDeleteNodesBySourceMemoryId (sourceMemoryId : String)

structure SameFor (tenantId : String) (db db' : GraphDb) : Prop where
  nodes : ∀ id, rowOf tenantId db'.store.tables.memoryNodes id = rowOf tenantId db.store.tables.memoryNodes id
  edges : ∀ id, rowOf tenantId db'.store.tables.memoryEdges id = rowOf tenantId db.store.tables.memoryEdges id
  entities : ∀ id, rowOf tenantId db'.entityTables.entities id = rowOf tenantId db.entityTables.entities id
  entityEdges : ∀ id,
    rowOf tenantId db'.entityTables.entityEdges id = rowOf tenantId db.entityTables.entityEdges id

namespace GraphStore
variable (s : GraphStore) (tenantId : String)

def EndAvailable (nodes : List GraphNode) (id : String) : Prop :=
  s.nodeExists id tenantId = true ∨ (id ∈ nodes.map GraphNode.id ∧ s.tables.memoryNodes.get id = none)

def AcceptsBatch (nodes : List GraphNode) (edges : List GraphEdge) : Prop :=
  (∀ node ∈ nodes, node.tenantId = tenantId) ∧
    ∀ edge ∈ edges, edge.tenantId = tenantId ∧ s.EndAvailable tenantId nodes edge.sourceId ∧
      s.EndAvailable tenantId nodes edge.targetId

end GraphStore

def AcceptsEntities (tenantId : String) (entities : List Entity) (edges : List EntityEdge) : Prop :=
  (∀ entity ∈ entities, entity.tenantId = tenantId ∧ entity.id ≠ "TRIGGER_SERIALIZATION_ERROR") ∧
    ∀ edge ∈ edges, edge.tenantId = tenantId

namespace TenantCall
variable (extract : JsonExtract) (ownTenant : String)

def exec (db : GraphDb) : TenantCall → GraphDb
  | .addNode node => { db with store := (db.store.addNode ownTenant node).2 }
  | .addEdge edge => { db with store := (db.store.addEdge ownTenant edge).2 }
  | .addNodesAndEdgesAtomic tenantId nodes edges =>
    { db with store := (GraphStore.addNodesAndEdgesAtomic tenantId nodes edges db.store).2 }
  | .addEntitiesAtomic tenantId entities edges =>
    { db with entityTables := (EntityTables.addEntitiesAtomic tenantId entities edges db.entityTables).2 }
  | .softDeleteNode nodeId => { db with store := (db.store.softDeleteNode ownTenant nodeId).2 }
  | .softDeleteNodesBySourceMemoryId sourceMemoryId =>
    { db with store := (db.store.softDeleteNodesBySourceMemoryId extract ownTenant sourceMemoryId).2 }

def run (db : GraphDb) (calls : List TenantCall) : GraphDb := calls.foldl (exec extract ownTenant) db

def WritesOwn (db : GraphDb) : TenantCall → Prop
  | .addNode node => node.tenantId = ownTenant →
    node.id ≠ "TRIGGER_SERIALIZATION_ERROR" → node.label ≠ "TRIGGER_SERIALIZATION_ERROR" →
      db.store.tables.memoryNodes.get node.id = none ∨ db.store.nodeExists node.id ownTenant = true
  | .addEdge edge => edge.tenantId = ownTenant → db.store.nodeExists edge.sourceId ownTenant = true →
    db.store.nodeExists edge.targetId ownTenant = true → Clear ownTenant ownTenant db.store.tables.memoryEdges edge.id
  | .addNodesAndEdgesAtomic tenantId nodes edges => db.store.AcceptsBatch tenantId nodes edges →
    (∀ node ∈ nodes, Clear ownTenant tenantId db.store.tables.memoryNodes node.id) ∧
      ∀ edge ∈ edges, Clear ownTenant tenantId db.store.tables.memoryEdges edge.id
  | .addEntitiesAtomic tenantId entities edges => AcceptsEntities tenantId entities edges →
    (∀ entity ∈ entities, Clear ownTenant tenantId db.entityTables.entities entity.id) ∧
      ∀ edge ∈ edges, Clear ownTenant tenantId db.entityTables.entityEdges edge.id
  | .softDeleteNode _ => True
  | .softDeleteNodesBySourceMemoryId _ => True

end TenantCall

structure GraphStore.SparesRows (ownTenant : String) (s s' : GraphStore) : Prop where
  nodes : Spares ownTenant s.tables.memoryNodes s'.tables.memoryNodes
  edges : Spares ownTenant s.tables.memoryEdges s'.tables.memoryEdges

structure EntityTables.SparesRows (ownTenant : String) (t t' : EntityTables) : Prop where
  entities : Spares ownTenant t.entities t'.entities
  entityEdges : Spares ownTenant t.entityEdges t'.entityEdges

namespace GraphStore
variable {ownTenant tenantId : String} {s s' : GraphStore}

theorem SparesRows.refl (ownTenant : String) (s : GraphStore) : SparesRows ownTenant s s :=
  ⟨Spares.refl .., Spares.refl ..⟩

theorem SparesRows.of_tables (spares : SparesRows ownTenant s s') {next : GraphStore}
    (same : next.tables = s'.tables) :
    SparesRows ownTenant s next := by
  obtain ⟨nodes, edges⟩ := spares
  rw [← same] at nodes edges
  exact ⟨nodes, edges⟩

variable {node : GraphNode} {nodes : List GraphNode}

theorem SparesRows.upsertNode (spares : SparesRows ownTenant s s') {seq : Int}
    (clear : Clear ownTenant tenantId s.tables.memoryNodes node.id) :
    SparesRows ownTenant s (s'.upsertNode tenantId node seq) where
  nodes := by
    rw [upsertNode_memoryNodes]
    exact spares.nodes.upsert (node.newRow tenantId seq) (node.rewrite seq) (spares.nodes.clear clear) (fun _ => rfl)
  edges := spares.edges

theorem SparesRows.addEdgeWrite (spares : SparesRows ownTenant s s') {edge : GraphEdge} {seq : Int}
    (clear : Clear ownTenant tenantId s.tables.memoryEdges edge.id) :
    SparesRows ownTenant s (s'.addEdgeWrite tenantId edge seq) where
  nodes := spares.nodes
  edges := by
    rw [addEdgeWrite_memoryEdges]
    exact spares.edges.upsert (edge.newRow tenantId seq) (edge.rewrite seq) (spares.edges.clear clear) (fun _ => rfl)

theorem addNode_spares (clear : node.tenantId = ownTenant → node.id ≠ "TRIGGER_SERIALIZATION_ERROR" →
    node.label ≠ "TRIGGER_SERIALIZATION_ERROR" → Clear ownTenant ownTenant s.tables.memoryNodes node.id) :
    SparesRows ownTenant s (s.addNode ownTenant node).2 := by
  have counted := (SparesRows.refl ownTenant s).of_tables (nextMutationSeq_tables s ownTenant)
  simp only [addNode]
  split
  · exact SparesRows.refl ..
  split
  · exact counted
  · rename_i own fine
    rw [not_or] at fine
    exact counted.upsertNode (clear (not_not.mp own) fine.1 fine.2)

theorem addEdge_spares {edge : GraphEdge}
    (clear : edge.tenantId = ownTenant → s.nodeExists edge.sourceId ownTenant = true →
      s.nodeExists edge.targetId ownTenant = true → Clear ownTenant ownTenant s.tables.memoryEdges edge.id) :
    SparesRows ownTenant s (s.addEdge ownTenant edge).2 := by
  have same := nextMutationSeq_tables s ownTenant
  have counted := (SparesRows.refl ownTenant s).of_tables same
  simp only [addEdge, addEdgeCheck, nodeExists_of_tables (congrArg memoryNodes same)]
  split
  · exact SparesRows.refl ..
  split
  · rename_i outcome
    split at outcome
    · cases outcome
      exact counted
    split at outcome
    · cases outcome
      exact counted
    · cases outcome
  · rename_i own _ seq next outcome
    split at outcome
    · cases outcome
    split at outcome
    · cases outcome
    · rename_i source target
      cases outcome
      exact counted.addEdgeWrite (clear (not_not.mp own) (not_not.mp source) (not_not.mp target))

theorem SparesRows.deleted (spares : SparesRows ownTenant s s') {p : String → NodeRow → Bool} {seq : Int}
    (own : ∀ id row, p id row = true → row.tenantId = ownTenant) (nodeIds : List String) :
    SparesRows ownTenant s { s' with tables := ⟨
      deleteWhere (fun row => { row with seq := seq }) p s'.tables.memoryNodes,
      nodeIds.foldl (fun edges nodeId => deleteEdgesAt nodeId ownTenant seq edges) s'.tables.memoryEdges⟩ } :=
  ⟨spares.nodes.deleteWhere (fun row => { row with seq := seq }) own, spares.edges.cascade nodeIds seq⟩

theorem softDeleteNode_spares (nodeId : String) : SparesRows ownTenant s (s.softDeleteNode ownTenant nodeId).2 := by
  have counted := (SparesRows.refl ownTenant s).of_tables (nextMutationSeq_tables s ownTenant)
  simp only [softDeleteNode]
  split
  · refine counted.deleted (fun _ row hit => ?_) [nodeId]
    simp only [decide_eq_true_eq] at hit
    exact hit.2
  · exact counted

theorem softDeleteNodesBySourceMemoryId_spares (extract : JsonExtract) (sourceMemoryId : String) :
    SparesRows ownTenant s (s.softDeleteNodesBySourceMemoryId extract ownTenant sourceMemoryId).2 := by
  have counted := (SparesRows.refl ownTenant s).of_tables (nextMutationSeq_tables s ownTenant)
  simp only [softDeleteNodesBySourceMemoryId]
  split
  · exact counted
  · refine counted.deleted (fun _ row hit => ?_) _
    simp only [fromMemory, decide_eq_true_eq] at hit
    exact hit.1

structure WithinBatch (tenantId : String) (nodes : List GraphNode) (s s' : GraphStore) : Prop where
  available : ∀ id, s'.nodeExists id tenantId = true → s.EndAvailable tenantId nodes id
  held : ∀ id, s'.tables.memoryNodes.get id = none → s.tables.memoryNodes.get id = none

theorem batchNode_within (member : node ∈ nodes) :
    Keeps (WithinBatch tenantId nodes s) (batchNode tenantId node) := by
  intro s' within
  have same := nextMutationSeq_tables s' tenantId
  simp only [batchNode]
  split
  · exact within
  · refine ⟨fun id found => ?_, fun id free => ?_⟩
    · obtain ⟨row, live, owner⟩ := nodeExists_iff.mp found
      rw [upsertNode_liveNode, same] at live
      split at live
      · rename_i fresh
        refine .inr ⟨?_, within.held id (fresh.1 ▸ fresh.2)⟩
        rw [fresh.1]
        exact List.mem_map.mpr ⟨node, member, rfl⟩
      · obtain ⟨old, before, rfl⟩ := Option.map_eq_some_iff.mp live
        refine within.available id (nodeExists_iff.mpr ⟨old, before, ?_⟩)
        split at owner <;> exact owner
    · have upserted : (Table.get (upsertNode _ tenantId node _).tables.memoryNodes id) = none := free
      simp only [upsertNode, Table.get_upsert, same] at upserted
      split at upserted
      · cases upserted
      · exact within.held id upserted

theorem batchEdge_within (edge : GraphEdge) : Keeps (WithinBatch tenantId nodes s) (batchEdge tenantId edge) := by
  intro s' within
  have same := congrArg memoryNodes (nextMutationSeq_tables s' tenantId)
  simp only [batchEdge]
  split
  · exact within
  split
  · exact within
  split
  · exact within
  · have kept : ∀ s'' : GraphStore, s''.tables.memoryNodes = s'.tables.memoryNodes →
        WithinBatch tenantId nodes s s'' := by
      intro s'' equal
      refine ⟨fun id found => within.available id ?_, fun id free => within.held id ?_⟩
      · rw [← nodeExists_of_tables equal]
        exact found
      · rw [← equal]
        exact free
    exact kept _ same

theorem accepted_of_ok {edges : List GraphEdge}
    (ok : ∃ u, ((do forEach (batchNode tenantId) nodes; forEach (batchEdge tenantId) edges :
    Eff GraphStore GraphError Unit) s).1 = .ok u) : s.AcceptsBatch tenantId nodes edges := by
  obtain ⟨u, ok⟩ := ok
  obtain ⟨_, middle, first, second⟩ := bind_ok (Prod.ext ok rfl)
  have start : WithinBatch tenantId nodes s s := ⟨fun _ found => .inl found, fun _ free => free⟩
  have keeps : Keeps (WithinBatch tenantId nodes s) (forEach (batchNode tenantId) nodes) :=
    Keeps.forEach (fun _ member => batchNode_within member)
  have reached := keeps s start
  rw [first] at reached
  refine ⟨?_, ?_⟩
  · refine forEach_ok start (fun _ member => batchNode_within member) (fun node _ c _ done => ?_)
      (congrArg Prod.fst first)
    by_contra foreign
    simp [batchNode, foreign] at done
  · refine forEach_ok reached (fun edge _ => batchEdge_within edge) (fun edge _ c within done => ?_)
      (congrArg Prod.fst second)
    unfold batchEdge at done
    split at done
    · cases done
    split at done
    · cases done
    split at done
    · cases done
    · rename_i own source target
      exact ⟨not_not.mp own, within.available _ (not_not.mp source), within.available _ (not_not.mp target)⟩

theorem addNodesAndEdgesAtomic_spares {edges : List GraphEdge} (clear : s.AcceptsBatch tenantId nodes edges →
    (∀ node ∈ nodes, Clear ownTenant tenantId s.tables.memoryNodes node.id) ∧
    ∀ edge ∈ edges, Clear ownTenant tenantId s.tables.memoryEdges edge.id) :
    SparesRows ownTenant s (addNodesAndEdgesAtomic tenantId nodes edges s).2 := by
  rcases transaction_cases
      (do forEach (batchNode tenantId) nodes; forEach (batchEdge tenantId) edges) s with
    ⟨u, ok, committed⟩ | rolled_back
  · obtain ⟨clear_nodes, clear_edges⟩ := clear (accepted_of_ok ⟨u, ok⟩)
    have keeps : Keeps (SparesRows ownTenant s)
        (do forEach (batchNode tenantId) nodes; forEach (batchEdge tenantId) edges) := by
      apply Keeps.bind
      · refine Keeps.forEach (fun node member s' spares => ?_)
        simp only [batchNode]
        split
        · exact spares
        · exact (spares.of_tables (nextMutationSeq_tables s' tenantId)).upsertNode (clear_nodes node member)
      · refine fun _ => Keeps.forEach (fun edge member s' spares => ?_)
        simp only [batchEdge]
        split
        · exact spares
        split
        · exact spares
        split
        · exact spares
        · exact (spares.of_tables (nextMutationSeq_tables s' tenantId)).addEdgeWrite (clear_edges edge member)
    rw [addNodesAndEdgesAtomic, committed]
    exact keeps s (SparesRows.refl ..)
  · rw [addNodesAndEdgesAtomic, rolled_back]
    exact SparesRows.refl ..

end GraphStore

namespace EntityTables
variable {ownTenant tenantId : String} {t : EntityTables}

theorem SparesRows.refl (ownTenant : String) (t : EntityTables) : SparesRows ownTenant t t :=
  ⟨Spares.refl .., Spares.refl ..⟩

theorem batchEntity_spares {entity : Entity} (clear : Clear ownTenant tenantId t.entities entity.id) :
    Keeps (SparesRows ownTenant t) (batchEntity tenantId entity) := by
  intro t' spares
  simp only [batchEntity]
  split
  · exact spares
  split
  · exact spares
  · let row : EntityRow := ⟨entity.name, entity.entityType, entity.properties.text, tenantId⟩
    exact ⟨spares.entities.upsert row (fun old => { row with tenantId := old.tenantId }) (spares.entities.clear clear)
      (fun _ => rfl), spares.entityEdges⟩

theorem batchEntityEdge_spares {edge : EntityEdge} (clear : Clear ownTenant tenantId t.entityEdges edge.id) :
    Keeps (SparesRows ownTenant t) (batchEntityEdge tenantId edge) := by
  intro t' spares
  simp only [batchEntityEdge]
  split
  · exact spares
  · let row : EntityEdgeRow :=
      ⟨edge.sourceEntityId, edge.targetEntityId, edge.relation, edge.properties.text, tenantId⟩
    exact ⟨spares.entities, spares.entityEdges.upsert row
      (fun old => { old with relation := row.relation, properties := row.properties })
      (spares.entityEdges.clear clear) (fun _ => rfl)⟩

theorem accepted_of_ok {entities : List Entity} {edges : List EntityEdge}
    (ok : ∃ u, ((do forEach (batchEntity tenantId) entities; forEach (batchEntityEdge tenantId) edges :
      Eff EntityTables GraphError Unit) t).1 = .ok u) : AcceptsEntities tenantId entities edges := by
  obtain ⟨u, ok⟩ := ok
  obtain ⟨_, middle, first, second⟩ := bind_ok (Prod.ext ok rfl)
  refine ⟨?_, ?_⟩
  · refine forEach_ok trivial (I := fun _ => True) (fun _ _ _ _ => trivial) (fun entity _ c _ done => ?_)
      (congrArg Prod.fst first)
    unfold batchEntity at done
    split at done
    · cases done
    split at done
    · cases done
    · rename_i own fine
      exact ⟨not_not.mp own, fine⟩
  · refine forEach_ok trivial (I := fun _ => True) (fun _ _ _ _ => trivial) (fun edge _ c _ done => ?_)
      (congrArg Prod.fst second)
    by_contra foreign
    simp [batchEntityEdge, foreign] at done

theorem addEntitiesAtomic_spares {entities : List Entity} {edges : List EntityEdge}
    (clear : AcceptsEntities tenantId entities edges →
      (∀ entity ∈ entities, Clear ownTenant tenantId t.entities entity.id) ∧
        ∀ edge ∈ edges, Clear ownTenant tenantId t.entityEdges edge.id) :
    SparesRows ownTenant t (addEntitiesAtomic tenantId entities edges t).2 := by
  rcases transaction_cases
      (do forEach (batchEntity tenantId) entities; forEach (batchEntityEdge tenantId) edges) t with
    ⟨u, ok, committed⟩ | rolled_back
  · obtain ⟨clear_entities, clear_edges⟩ := clear (accepted_of_ok ⟨u, ok⟩)
    have keeps : Keeps (SparesRows ownTenant t)
        (do forEach (batchEntity tenantId) entities; forEach (batchEntityEdge tenantId) edges) := by
      apply Keeps.bind
      · exact Keeps.forEach (fun entity member => batchEntity_spares (clear_entities entity member))
      · exact fun _ => Keeps.forEach (fun edge member => batchEntityEdge_spares (clear_edges edge member))
    rw [addEntitiesAtomic, committed]
    exact keeps t (SparesRows.refl ..)
  · rw [addEntitiesAtomic, rolled_back]
    exact SparesRows.refl ..

end EntityTables

structure GraphDb.SparesRows (ownTenant : String) (db db' : GraphDb) : Prop where
  store : db.store.SparesRows ownTenant db'.store
  entityTables : db.entityTables.SparesRows ownTenant db'.entityTables

namespace TenantCall
variable {extract : JsonExtract} {ownTenant : String} {db db' db'' : GraphDb}

theorem trans (first : db.SparesRows ownTenant db') (second : db'.SparesRows ownTenant db'') :
    db.SparesRows ownTenant db'' where
  store := ⟨first.store.nodes.trans second.store.nodes, first.store.edges.trans second.store.edges⟩
  entityTables := ⟨first.entityTables.entities.trans second.entityTables.entities,
    first.entityTables.entityEdges.trans second.entityTables.entityEdges⟩

theorem sameFor (spares : db.SparesRows ownTenant db') {other : String} (foreign : other ≠ ownTenant) :
    SameFor other db db' where
  nodes := spares.store.nodes.others other foreign
  edges := spares.store.edges.others other foreign
  entities := spares.entityTables.entities.others other foreign
  entityEdges := spares.entityTables.entityEdges.others other foreign

theorem clear_of_nodeExists {id : String} (own : db.store.tables.memoryNodes.get id = none ∨
    db.store.nodeExists id ownTenant = true) : Clear ownTenant ownTenant db.store.tables.memoryNodes id := by
  refine ⟨fun _ => rfl, fun row live => ?_⟩
  rcases own with free | found
  · rw [free] at live
    cases live
  · obtain ⟨old, before, owner⟩ := GraphStore.nodeExists_iff.mp found
    obtain rfl : row = old := Option.some.inj (live.symm.trans before)
    exact owner

theorem exec_spares {call : TenantCall} (writes : call.WritesOwn ownTenant db) :
    db.SparesRows ownTenant (call.exec extract ownTenant db) := by
  have stays : db.entityTables.SparesRows ownTenant db.entityTables := EntityTables.SparesRows.refl ..
  cases call with
  | addNode node =>
    exact ⟨GraphStore.addNode_spares (fun own id label => clear_of_nodeExists (writes own id label)), stays⟩
  | addEdge edge => exact ⟨GraphStore.addEdge_spares writes, stays⟩
  | addNodesAndEdgesAtomic tenantId nodes edges => exact ⟨GraphStore.addNodesAndEdgesAtomic_spares writes, stays⟩
  | addEntitiesAtomic tenantId entities edges =>
    exact ⟨GraphStore.SparesRows.refl .., EntityTables.addEntitiesAtomic_spares writes⟩
  | softDeleteNode nodeId => exact ⟨GraphStore.softDeleteNode_spares nodeId, stays⟩
  | softDeleteNodesBySourceMemoryId sourceMemoryId =>
    exact ⟨GraphStore.softDeleteNodesBySourceMemoryId_spares extract sourceMemoryId, stays⟩

theorem addNode_read {node : GraphNode} (writes : (TenantCall.addNode node).WritesOwn ownTenant db)
    (accepted : (db.store.addNode ownTenant node).1 = .ok ()) :
    rowOf ownTenant (db.store.addNode ownTenant node).2.tables.memoryNodes node.id =
      some (node.label, node.properties.text) := by
  have same := GraphStore.nextMutationSeq_tables db.store ownTenant
  simp only [GraphStore.addNode] at accepted ⊢
  split at accepted
  · cases accepted
  split at accepted
  · cases accepted
  · rename_i own fine
    rw [if_neg own, if_neg fine]
    rw [not_or] at fine
    have live := GraphStore.upsertNode_liveNode (db.store.nextMutationSeq ownTenant).2 ownTenant node
      (db.store.nextMutationSeq ownTenant).1 node.id
    unfold liveNode at live
    unfold rowOf
    rw [live]
    rcases writes (not_not.mp own) fine.1 fine.2 with free | found
    · rw [same, if_pos ⟨rfl, free⟩]
      simp [Option.filter, GraphNode.newRow, OwnedRow.tenantId, OwnedRow.content]
    · obtain ⟨row, before, owner⟩ := GraphStore.nodeExists_iff.mp found
      have held : ¬ db.store.tables.memoryNodes.get node.id = none := by
        intro free
        rw [liveNode, free] at before
        cases before
      unfold liveNode at before
      rw [same, if_neg (fun both => held both.2), before]
      simp [Option.filter, GraphNode.rewrite, OwnedRow.tenantId, owner, OwnedRow.content]

theorem run_append (db : GraphDb) (earlier : List TenantCall) (call : TenantCall) :
    run extract ownTenant db (earlier ++ [call]) = call.exec extract ownTenant (run extract ownTenant db earlier) :=
  List.foldl_append

theorem run_spares {calls : List TenantCall} (writes : ∀ earlier call later, calls = earlier ++ call :: later →
    call.WritesOwn ownTenant (run extract ownTenant db earlier)) :
    ∀ reached later, calls = reached ++ later → db.SparesRows ownTenant (run extract ownTenant db reached) := by
  intro reached
  induction reached using List.reverseRecOn with
  | nil => exact fun _ _ => ⟨GraphStore.SparesRows.refl .., EntityTables.SparesRows.refl ..⟩
  | append_singleton earlier call ih =>
    intro later split
    have split' : calls = earlier ++ call :: later := by rw [split]; simp
    rw [run_append]
    exact trans (ih _ split') (exec_spares (writes earlier call later split'))

end TenantCall

/-- A tenant whose calls write rows of its own only, or soft-deleted ones, changes nothing that another tenant
reads, and reads every node it adds. -/
theorem tenants_isolated (extract : JsonExtract) (ownTenant : String) (db : GraphDb) (calls : List TenantCall)
    (writes : ∀ earlier call later, calls = earlier ++ call :: later →
      call.WritesOwn ownTenant (TenantCall.run extract ownTenant db earlier)) :
    (∀ reached later, calls = reached ++ later → ∀ other, other ≠ ownTenant →
      SameFor other db (TenantCall.run extract ownTenant db reached)) ∧
    ∀ earlier node later, calls = earlier ++ .addNode node :: later →
      ((TenantCall.run extract ownTenant db earlier).store.addNode ownTenant node).1 = .ok () →
        rowOf ownTenant (TenantCall.run extract ownTenant db (earlier ++ [.addNode node])).store.tables.memoryNodes
          node.id = some (node.label, node.properties.text) := by
  refine ⟨fun reached later split other foreign => ?_, fun earlier node later split accepted => ?_⟩
  · exact TenantCall.sameFor (TenantCall.run_spares writes reached later split) foreign
  · rw [TenantCall.run_append]
    exact TenantCall.addNode_read (writes earlier _ later split) accepted

section Samples

def ownedDb : GraphDb := { store := (GraphStore.addNode {} "t1" (sampleNode "a" "Person")).2 }

def intruder : GraphNode := { sampleNode "a" "Robot" with tenantId := "t2" }

theorem foreign_node_overwritten : ¬ SameFor "t1" ownedDb
    (TenantCall.run noMemory "t2" ownedDb [.addNode intruder]) := by
  intro same
  have read := same.nodes "a"
  exact absurd read (by decide +kernel)

def neighbour : GraphNode := { sampleNode "b" "Robot" with tenantId := "t2" }

theorem neighbour_isolated : SameFor "t1" ownedDb (TenantCall.run noMemory "t2" ownedDb [.addNode neighbour]) ∧
      rowOf "t2" (TenantCall.run noMemory "t2" ownedDb [.addNode neighbour]).store.tables.memoryNodes "b" =
        some ("Robot", "{}") := by
  have isolated := tenants_isolated noMemory "t2" ownedDb [.addNode neighbour] (by
    rintro (_ | ⟨first, rest⟩) call later split
    · cases split
      exact fun _ _ _ => .inl (by decide +kernel)
    · simp at split)
  exact ⟨isolated.1 _ [] rfl "t1" (by decide), isolated.2 [] neighbour [] rfl (by decide +kernel)⟩

end Samples

end Aeterna.Graph
