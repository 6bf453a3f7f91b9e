import Aeterna.Graph.Store

namespace Aeterna.Graph
open Lib (Marked Table)
open GraphStore

class GraphRow (ρ : Type) where
  tenantId : ρ → String
  seq : ρ → Int
  Content : Type
  content : ρ → Content

instance : GraphRow NodeRow where
  tenantId := NodeRow.tenantId
  seq := NodeRow.seq
  Content := String × String
  content row := (row.label, row.properties)

instance : GraphRow EdgeRow where
  tenantId := EdgeRow.tenantId
  seq := EdgeRow.seq
  Content := String × String × String × String
  content row := (row.sourceId, row.targetId, row.relation, row.properties)

/-- A table after calls of a tenant: what they wrote has numbers above `low` and up to `high`. -/
structure RowsEvolve {ρ : Type} [GraphRow ρ] (tenantId : String) (low high : Int) (t t' : Table String (Marked ρ)) :
    Prop where
  written : ∀ id, t'.get id = t.get id ∨
    ∃ m, t'.get id = some m ∧ low < GraphRow.seq m.row ∧ GraphRow.seq m.row ≤ high
  owned : (∀ id m, t.get id = some m → GraphRow.tenantId m.row = tenantId) →
    ∀ id m, t'.get id = some m → GraphRow.tenantId m.row = tenantId
  buried : ∀ id m, t.get id = some m → m.deleted = true → ∃ m', t'.get id = some m' ∧ m'.deleted = true

namespace RowsEvolve
variable {ρ : Type} [GraphRow ρ] {tenantId : String} {low middle high : Int} {t u v : Table String (Marked ρ)}

theorem refl (tenantId : String) (low high : Int) (t : Table String (Marked ρ)) : RowsEvolve tenantId low high t t :=
  ⟨fun _ => .inl rfl, id, fun _ m held deleted => ⟨m, held, deleted⟩⟩

theorem trans (first : RowsEvolve tenantId low middle t u) (second : RowsEvolve tenantId middle high u v)
    (up : low ≤ middle) (down : middle ≤ high) : RowsEvolve tenantId low high t v where
  written := by
    intro id
    rcases second.written id with same | ⟨m, held, above, below⟩
    · rcases first.written id with before | ⟨m, held, above, below⟩
      · exact .inl (same.trans before)
      · exact .inr ⟨m, same.trans held, above, Int.le_trans below down⟩
    · exact .inr ⟨m, held, Int.lt_of_le_of_lt up above, below⟩
  owned := fun start => second.owned (first.owned start)
  buried := by
    intro id m held deleted
    obtain ⟨m', held', deleted'⟩ := first.buried id m held deleted
    exact second.buried id m' held' deleted'

theorem upsert (evolves : RowsEvolve tenantId low high t u) (id : String) {row : ρ} {overwrite : Marked ρ → Marked ρ}
    (fresh : low < GraphRow.seq row ∧ GraphRow.seq row ≤ high) (own : GraphRow.tenantId row = tenantId)
    (stamps : ∀ m, GraphRow.seq (overwrite m).row = GraphRow.seq row)
    (keeps : ∀ m, GraphRow.tenantId (overwrite m).row = GraphRow.tenantId m.row)
    (marks : ∀ m, (overwrite m).deleted = m.deleted) :
    RowsEvolve tenantId low high t (u.upsert id ⟨row, false⟩ overwrite) where
  written := by
    intro other
    rw [Table.get_upsert]
    by_cases same : other = id
    · rw [if_pos same]
      refine .inr ⟨_, rfl, ?_⟩
      cases u.get id with
      | none => exact fresh
      | some m =>
        show low < GraphRow.seq (overwrite m).row ∧ GraphRow.seq (overwrite m).row ≤ high
        rw [stamps m]
        exact fresh
    · rw [if_neg same]
      exact evolves.written other
  owned := by
    intro start other m held
    rw [Table.get_upsert] at held
    by_cases same : other = id
    · rw [if_pos same] at held
      cases old : u.get id with
      | none =>
        rw [old] at held
        cases held
        exact own
      | some before =>
        rw [old] at held
        cases held
        exact (keeps before).trans (evolves.owned start id before old)
    · rw [if_neg same] at held
      exact evolves.owned start other m held
  buried := by
    intro other m held deleted
    obtain ⟨m', held', deleted'⟩ := evolves.buried other m held deleted
    rw [Table.get_upsert]
    by_cases same : other = id
    · subst same
      rw [if_pos rfl, held']
      exact ⟨overwrite m', rfl, (marks m').trans deleted'⟩
    · rw [if_neg same]
      exact ⟨m', held', deleted'⟩

theorem deleteWhere (evolves : RowsEvolve tenantId low high t u) {stamp : ρ → ρ} (p : String → ρ → Bool)
    (stamps : ∀ row, low < GraphRow.seq (stamp row) ∧ GraphRow.seq (stamp row) ≤ high)
    (keeps : ∀ row, GraphRow.tenantId (stamp row) = GraphRow.tenantId row) :
    RowsEvolve tenantId low high t (GraphStore.deleteWhere stamp p u) where
  written := by
    intro id
    rw [GraphStore.deleteWhere, Table.get_update]
    cases held : u.get id with
    | none =>
      rw [Option.map_none, ← held]
      exact evolves.written id
    | some m =>
      rw [Option.map_some]
      by_cases hit : p id m.row = true ∧ m.deleted = false
      · rw [if_pos hit]
        exact .inr ⟨_, rfl, stamps m.row⟩
      · rw [if_neg hit, ← held]
        exact evolves.written id
  owned := by
    intro start id m held
    rw [GraphStore.deleteWhere, Table.get_update] at held
    obtain ⟨before, old, rfl⟩ := Option.map_eq_some_iff.mp held
    have owner := evolves.owned start id before old
    by_cases hit : p id before.row = true ∧ before.deleted = false
    · rw [if_pos hit]
      exact (keeps before.row).trans owner
    · rw [if_neg hit]
      exact owner
  buried := by
    intro id m held deleted
    obtain ⟨m', held', deleted'⟩ := evolves.buried id m held deleted
    rw [GraphStore.deleteWhere, Table.get_update, held']
    refine ⟨_, rfl, ?_⟩
    simp [deleted']

end RowsEvolve

structure Evolves (tenantId : String) (s s' : GraphStore) : Prop where
  counter : s.lastSeq tenantId ≤ s'.lastSeq tenantId
  nodes : RowsEvolve tenantId (s.lastSeq tenantId) (s'.lastSeq tenantId) s.tables.memoryNodes s'.tables.memoryNodes
  edges : RowsEvolve tenantId (s.lastSeq tenantId) (s'.lastSeq tenantId) s.tables.memoryEdges s'.tables.memoryEdges

section
variable {tenantId : String} {s s' s'' : GraphStore}

theorem Evolves.refl (tenantId : String) (s : GraphStore) : Evolves tenantId s s :=
  ⟨Int.le_refl _, RowsEvolve.refl .., RowsEvolve.refl ..⟩

theorem Evolves.trans (first : Evolves tenantId s s') (second : Evolves tenantId s' s'') :
    Evolves tenantId s s'' where
  counter := Int.le_trans first.counter second.counter
  nodes := first.nodes.trans second.nodes first.counter second.counter
  edges := first.edges.trans second.edges first.counter second.counter

theorem nextMutationSeq_spec (s : GraphStore) (tenantId : String) :
    ∃ next, s.nextMutationSeq tenantId = (s.lastSeq tenantId + 1, next) ∧ next.tables = s.tables ∧
      next.lastSeq tenantId = s.lastSeq tenantId + 1 := by
  unfold nextMutationSeq
  cases held : s.graphTenantSequences.get tenantId with
  | none => exact ⟨_, Prod.ext (by simp [lastSeq, held]) rfl, rfl, by simp [lastSeq, held]⟩
  | some last => exact ⟨_, Prod.ext (by simp [lastSeq, held]) rfl, rfl, by simp [lastSeq, held]⟩

theorem Evolves.of_counter (same : s'.tables = s.tables) (up : s'.lastSeq tenantId = s.lastSeq tenantId + 1) :
    Evolves tenantId s s' := by
  refine ⟨by omega, ?_, ?_⟩
  · rw [same]
    exact RowsEvolve.refl ..
  · rw [same]
    exact RowsEvolve.refl ..

theorem Evolves.of_rows {next : GraphStore} {tables : GraphTables}
    (up : next.lastSeq tenantId = s.lastSeq tenantId + 1)
    (nodes : RowsEvolve tenantId (s.lastSeq tenantId)
      (s.lastSeq tenantId + 1) s.tables.memoryNodes tables.memoryNodes)
    (edges : RowsEvolve tenantId (s.lastSeq tenantId)
      (s.lastSeq tenantId + 1) s.tables.memoryEdges tables.memoryEdges) :
    Evolves tenantId s { next with tables := tables } := by
  have counter : lastSeq { next with tables := tables } tenantId = s.lastSeq tenantId + 1 := up
  refine ⟨by omega, ?_, ?_⟩
  · rw [counter]
    exact nodes
  · rw [counter]
    exact edges

theorem addNode_evolves (s : GraphStore) (tenantId : String) (node : GraphNode) :
    Evolves tenantId s (s.addNode tenantId node).2 := by
  obtain ⟨next, taken, same, up⟩ := nextMutationSeq_spec s tenantId
  simp only [addNode, taken]
  split
  · exact Evolves.refl tenantId s
  split
  · exact Evolves.of_counter same up
  · refine Evolves.of_rows up ?_ ?_
    · rw [same]
      exact (RowsEvolve.refl ..).upsert node.id ⟨Int.lt_add_one_of_le (Int.le_refl _), Int.le_refl _⟩ rfl
        (fun _ => rfl) (fun _ => rfl) (fun _ => rfl)
    · rw [same]
      exact RowsEvolve.refl ..

theorem addEdgeCheck_spec (s : GraphStore) (tenantId : String) (edge : GraphEdge) :
    (s.addEdgeCheck tenantId edge).2.tables = s.tables ∧
      (s.addEdgeCheck tenantId edge).2.lastSeq tenantId = s.lastSeq tenantId + 1 ∧
      ∀ seq, (s.addEdgeCheck tenantId edge).1 = .ok seq → seq = s.lastSeq tenantId + 1 := by
  obtain ⟨next, taken, same, up⟩ := nextMutationSeq_spec s tenantId
  simp only [addEdgeCheck, taken]
  split
  · exact ⟨same, up, fun _ checked => by cases checked⟩
  split
  · exact ⟨same, up, fun _ checked => by cases checked⟩
  · exact ⟨same, up, fun _ checked => by cases checked; rfl⟩

theorem addEdge_evolves (s : GraphStore) (tenantId : String) (edge : GraphEdge) :
    Evolves tenantId s (s.addEdge tenantId edge).2 := by
  unfold addEdge
  split
  · exact Evolves.refl tenantId s
  · obtain ⟨same, up, number⟩ := addEdgeCheck_spec s tenantId edge
    rcases checked : s.addEdgeCheck tenantId edge with ⟨answer, next⟩
    rw [checked] at same up number
    dsimp only at same up number
    cases answer with
    | error e => exact Evolves.of_counter same up
    | ok seq =>
      have numbered : seq = s.lastSeq tenantId + 1 := number seq rfl
      refine Evolves.of_rows up ?_ ?_
      · rw [same]
        exact RowsEvolve.refl ..
      · rw [same]
        exact (RowsEvolve.refl ..).upsert edge.id ⟨by show _ < seq; omega, by show seq ≤ _; omega⟩ rfl
          (fun _ => rfl) (fun _ => rfl) (fun _ => rfl)

theorem deleteEdgesAt_evolves {low high seq : Int} {t u : Table String (Marked EdgeRow)}
    (evolves : RowsEvolve tenantId low high t u) (above : low < seq) (below : seq ≤ high) (nodeId : String) :
    RowsEvolve tenantId low high t (deleteEdgesAt nodeId tenantId seq u) :=
  evolves.deleteWhere _ (fun _ => ⟨above, below⟩) (fun _ => rfl)

theorem deleteNodes_evolves {low high seq : Int} (above : low < seq) (below : seq ≤ high)
    (p : String → NodeRow → Bool) (t : Table String (Marked NodeRow)) :
    RowsEvolve tenantId low high t (GraphStore.deleteWhere (fun row : NodeRow => { row with seq := seq }) p t) :=
  (RowsEvolve.refl tenantId low high t).deleteWhere p (fun _ => ⟨above, below⟩) (fun _ => rfl)

theorem softDeleteNode_evolves (s : GraphStore) (tenantId nodeId : String) :
    Evolves tenantId s (s.softDeleteNode tenantId nodeId).2 := by
  obtain ⟨next, taken, same, up⟩ := nextMutationSeq_spec s tenantId
  have above : s.lastSeq tenantId < s.lastSeq tenantId + 1 := by omega
  simp only [softDeleteNode, taken]
  split
  · refine Evolves.of_rows up ?_ ?_
    · rw [same]
      exact deleteNodes_evolves above (Int.le_refl _) (fun id row => id = nodeId ∧ row.tenantId = tenantId)
        s.tables.memoryNodes
    · rw [same]
      exact deleteEdgesAt_evolves (RowsEvolve.refl ..) above (Int.le_refl _) nodeId
  · exact Evolves.of_counter same up

theorem cascade_evolves {low high seq : Int} {t u : Table String (Marked EdgeRow)}
    (evolves : RowsEvolve tenantId low high t u) (above : low < seq) (below : seq ≤ high) (nodeIds : List String) :
    RowsEvolve tenantId low high t
      (nodeIds.foldl (fun edges nodeId => deleteEdgesAt nodeId tenantId seq edges) u) := by
  induction nodeIds generalizing u with
  | nil => exact evolves
  | cons nodeId rest ih => exact ih (deleteEdgesAt_evolves evolves above below nodeId)

theorem softDeleteNodesBySourceMemoryId_evolves (extract : JsonExtract) (s : GraphStore)
    (tenantId sourceMemoryId : String) :
    Evolves tenantId s (s.softDeleteNodesBySourceMemoryId extract tenantId sourceMemoryId).2 := by
  obtain ⟨next, taken, same, up⟩ := nextMutationSeq_spec s tenantId
  have above : s.lastSeq tenantId < s.lastSeq tenantId + 1 := by omega
  simp only [softDeleteNodesBySourceMemoryId, taken]
  split
  · exact Evolves.of_counter same up
  · refine Evolves.of_rows up ?_ ?_
    · rw [same]
      exact deleteNodes_evolves above (Int.le_refl _)
        (fun _ row => fromMemory extract tenantId sourceMemoryId row) s.tables.memoryNodes
    · rw [same]
      exact cascade_evolves (RowsEvolve.refl ..) above (Int.le_refl _) _

end

end Aeterna.Graph
