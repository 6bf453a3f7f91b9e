import Mathlib.Data.List.Induction
import Aeterna.Graph.Parts

namespace Aeterna.Graph
open Lib (Marked Table)
open List

/-- One critical section of a call. -/
inductive Section where
  | addNode (node : GraphNode)
  | checkEdge (edge : GraphEdge)
  /-- The second section of the `k`-th `add_edge` that waits for it. -/
  | writeEdge (k : Nat)
  | softDeleteNode (nodeId : String)
  | snapshotDelta

/-- The store, the calls between their sections, and the deltas so far with the last `to_seq`. -/
structure Concurrent where
  store : GraphStore := {}
  pending : List (GraphEdge × Int) := []
  deltas : List Parquet := []
  toSeq : Int := 0

namespace Concurrent
variable (tenantId : String)

def step (c : Concurrent) : Section → Concurrent
  | .addNode node => { c with store := (c.store.addNode tenantId node).2 }
  | .checkEdge edge =>
    if edge.tenantId ≠ tenantId then c
    else
      match c.store.addEdgeCheck tenantId edge with
      | (.error _, store) => { c with store := store }
      | (.ok seq, store) => { c with store := store, pending := c.pending ++ [(edge, seq)] }
  | .writeEdge k =>
    match c.pending[k]? with
    | none => c
    | some (edge, seq) =>
      { c with store := c.store.addEdgeWrite tenantId edge seq, pending := c.pending.eraseIdx k }
  | .softDeleteNode nodeId => { c with store := (c.store.softDeleteNode tenantId nodeId).2 }
  | .snapshotDelta =>
    let (data, toSeq) := c.store.exportDeltaToParquet tenantId c.toSeq
    { c with deltas := c.deltas ++ [data], toSeq := toSeq }

def run (sections : List Section) : Concurrent := sections.foldl (step tenantId) {}

structure Complete (c : Concurrent) : Prop where
  nodes : ∀ id m, c.store.tables.memoryNodes.get id = some m → ∃ data ∈ c.deltas, (id, m.row.parquet) ∈ data.nodes
  edges : ∀ id m, c.store.tables.memoryEdges.get id = some m → ∃ data ∈ c.deltas, (id, m.row.parquet) ∈ data.edges

/-- No edge is written with a number that a delta has already reached. -/
def Timely (c : Concurrent) (s : Section) : Prop :=
  ∀ k edge seq, s = .writeEdge k → c.pending[k]? = some (edge, seq) → c.toSeq < seq

end Concurrent

/-- The rows of a table up to the last `to_seq` are in some delta as they are now. -/
def Part.CoveredBy {ρ σ : Type} [GraphRow ρ] (part : Part ρ σ) (t : GraphTables) (deltas : List Parquet)
    (toSeq : Int) :
    Prop :=
  ∀ id m, (part.table t).get id = some m → GraphRow.seq m.row ≤ toSeq →
    ∃ data ∈ deltas, (id, part.file m.row) ∈ part.rows data

section
variable {ρ σ : Type} [GraphRow ρ] {part : Part ρ σ} {tenantId : String} {s s' : GraphStore} {low : Int}

theorem Part.CoveredBy.step {deltas : List Parquet} {toSeq high : Int}
    (covered : part.CoveredBy s.tables deltas toSeq)
    (rows : RowsEvolve tenantId low high (part.table s.tables) (part.table s'.tables)) (above : toSeq ≤ low) :
    part.CoveredBy s'.tables deltas toSeq := by
  intro id m held low'
  rcases rows.written id with same | ⟨m', held', high', _⟩
  · rw [held] at same
    exact covered id m same.symm low'
  · rw [held] at held'
    cases held'
    omega

theorem Part.CoveredBy.delta {deltas : List Parquet} {toSeq : Int} (covered : part.CoveredBy s.tables deltas toSeq)
    (numbered : part.Numbered tenantId s) :
    ∀ id m, (part.table s.tables).get id = some m →
      ∃ data ∈ deltas ++ [(s.exportDeltaToParquet tenantId toSeq).1], (id, part.file m.row) ∈ part.rows data := by
  intro id m held
  by_cases old : GraphRow.seq m.row ≤ toSeq
  · obtain ⟨data, member, inside⟩ := covered id m held old
    exact ⟨data, mem_append_left _ member, inside⟩
  · refine ⟨_, mem_append_right _ (mem_singleton.mpr rfl), ?_⟩
    rw [part.delta]
    refine mem_map.mpr ⟨(id, m), mem_filter.mpr ⟨Table.get_eq_some.mp held, ?_⟩, rfl⟩
    have owner := (numbered id m held).1
    have high : toSeq < GraphRow.seq m.row := by omega
    simp [owner, high]

end

namespace Concurrent
variable {tenantId : String}

/-- What every step keeps. -/
structure Kept (tenantId : String) (c : Concurrent) : Prop where
  nodes : nodesPart.Numbered tenantId c.store
  edges : edgesPart.Numbered tenantId c.store
  pending : ∀ edge seq, (edge, seq) ∈ c.pending → seq ≤ c.store.lastSeq tenantId
  reached : c.toSeq ≤ c.store.lastSeq tenantId
  started : 0 ≤ c.store.lastSeq tenantId
  nodesCovered : nodesPart.CoveredBy c.store.tables c.deltas c.toSeq
  edgesCovered : edgesPart.CoveredBy c.store.tables c.deltas c.toSeq

variable {c : Concurrent}

theorem Kept.evolves (kept : c.Kept tenantId) {store : GraphStore} (evolves : Evolves tenantId c.store store) :
    Kept tenantId { c with store := store } where
  nodes := kept.nodes.step evolves.counter evolves.nodes
  edges := kept.edges.step evolves.counter evolves.edges
  pending := fun edge seq member => Int.le_trans (kept.pending edge seq member) evolves.counter
  reached := Int.le_trans kept.reached evolves.counter
  started := Int.le_trans kept.started evolves.counter
  nodesCovered := kept.nodesCovered.step evolves.nodes kept.reached
  edgesCovered := kept.edgesCovered.step evolves.edges kept.reached

theorem Kept.writeEdge (kept : c.Kept tenantId) {k : Nat} {edge : GraphEdge} {seq : Int}
    (waiting : c.pending[k]? = some (edge, seq)) (timely : c.toSeq < seq) :
    Kept tenantId { c with store := c.store.addEdgeWrite tenantId edge seq, pending := c.pending.eraseIdx k } := by
  have numbered : seq ≤ c.store.lastSeq tenantId := kept.pending edge seq (mem_of_getElem? waiting)
  have rows : RowsEvolve tenantId c.toSeq (c.store.lastSeq tenantId) c.store.tables.memoryEdges
      (c.store.addEdgeWrite tenantId edge seq).tables.memoryEdges :=
    (RowsEvolve.refl ..).upsert edge.id ⟨timely, numbered⟩ rfl (fun _ => rfl) (fun _ => rfl) (fun _ => rfl)
  exact {
    nodes := kept.nodes
    edges := kept.edges.step (Int.le_refl _) rows
    pending := fun other number member => kept.pending other number (mem_of_mem_eraseIdx member)
    reached := kept.reached
    started := kept.started
    nodesCovered := kept.nodesCovered
    edgesCovered := kept.edgesCovered.step rows (Int.le_refl _) }

theorem Kept.complete (kept : c.Kept tenantId) : (c.step tenantId .snapshotDelta).Complete where
  nodes := kept.nodesCovered.delta kept.nodes
  edges := kept.edgesCovered.delta kept.edges

theorem Kept.step (kept : c.Kept tenantId) {s : Section} (timely : c.Timely s) :
    (c.step tenantId s).Kept tenantId := by
  cases s with
  | addNode node => exact kept.evolves (addNode_evolves c.store tenantId node)
  | softDeleteNode nodeId => exact kept.evolves (softDeleteNode_evolves c.store tenantId nodeId)
  | checkEdge edge =>
    simp only [Concurrent.step]
    split
    · exact kept
    · obtain ⟨same, up, number⟩ := addEdgeCheck_spec c.store tenantId edge
      rcases checked : c.store.addEdgeCheck tenantId edge with ⟨answer, store⟩
      rw [checked] at same up number
      have next := kept.evolves (Evolves.of_counter same up)
      cases answer with
      | error e => exact next
      | ok seq =>
        refine ⟨next.nodes, next.edges, fun other number' member => ?_, next.reached, next.started,
          next.nodesCovered, next.edgesCovered⟩
        rcases mem_append.mp member with old | new
        · exact next.pending other number' old
        · cases mem_singleton.mp new
          exact Int.le_of_eq ((number seq rfl).trans up.symm)
  | writeEdge k =>
    simp only [Concurrent.step]
    cases waiting : c.pending[k]? with
    | none => exact kept
    | some call => exact kept.writeEdge waiting (timely k call.1 call.2 rfl waiting)
  | snapshotDelta =>
    have complete := kept.complete
    exact {
      nodes := kept.nodes
      edges := kept.edges
      pending := kept.pending
      reached := currentMaxSeq_le kept.nodes kept.edges kept.started
      started := kept.started
      nodesCovered := fun id m held _ => complete.nodes id m held
      edgesCovered := fun id m held _ => complete.edges id m held }

theorem run_kept (sections : List Section)
    (timely : ∀ earlier s later, sections = earlier ++ s :: later → (run tenantId earlier).Timely s) :
    (run tenantId sections).Kept tenantId := by
  induction sections using reverseRecOn with
  | nil =>
    have blank : ∀ {ρ σ : Type} [GraphRow ρ] (part : Part ρ σ) id (m : Marked ρ),
        (part.table {}).get id = some m → False := by
      intro ρ σ _ part id m held
      rw [part.blank] at held
      cases held
    exact ⟨fun id m held => (blank nodesPart id m held).elim, fun id m held => (blank edgesPart id m held).elim,
      fun _ _ member => absurd member not_mem_nil, Int.le_refl _, Int.le_refl _,
      fun id m held => (blank nodesPart id m held).elim, fun id m held => (blank edgesPart id m held).elim⟩
  | append_singleton earlier s ih =>
    have before := ih (fun start next rest split => timely start next (rest ++ [s]) (by rw [split]; simp))
    rw [run, foldl_append]
    exact before.step (timely earlier s [] rfl)

end Concurrent

/-- If no edge is written with a number that a delta has already reached, then every delta leaves every row in
some delta as it is. -/
theorem deltas_complete (tenantId : String) (sections : List Section)
    (timely : ∀ earlier s later, sections = earlier ++ s :: later → (Concurrent.run tenantId earlier).Timely s) :
    ∀ earlier later, sections = earlier ++ .snapshotDelta :: later →
      (Concurrent.run tenantId (earlier ++ [.snapshotDelta])).Complete := by
  intro earlier later split
  have kept := Concurrent.run_kept earlier (fun start next rest inside =>
    timely start next (rest ++ .snapshotDelta :: later) (by rw [split, inside]; simp))
  rw [Concurrent.run, foldl_append]
  exact kept.complete

section Samples

def edgeThenDelta : List Section :=
  [.addNode (sampleNode "a" "Person"), .addNode (sampleNode "b" "Person"), .checkEdge (sampleEdge "e" "a" "b"),
    .writeEdge 0, .snapshotDelta]

theorem edge_then_delta_complete : (Concurrent.run "t1" edgeThenDelta).Complete := by
  refine deltas_complete "t1" edgeThenDelta ?_ (edgeThenDelta.take 4) [] rfl
  rintro (_ | ⟨_, _ | ⟨_, _ | ⟨_, _ | ⟨_, _ | ⟨_, rest⟩⟩⟩⟩⟩) s later split k edge seq writes waiting <;>
    subst writes
  · cases split
  · cases split
  · cases split
  · cases split
    cases waiting
    decide +kernel
  · cases split
  · simp [edgeThenDelta] at split

/-- A delta between the sections of an `add_edge`, and a node that gets the next number. -/
def deltaBetween : List Section :=
  [.addNode (sampleNode "a" "Person"), .addNode (sampleNode "b" "Person"), .checkEdge (sampleEdge "e" "a" "b"),
    .addNode (sampleNode "c" "Person"), .snapshotDelta, .writeEdge 0, .snapshotDelta]

theorem edge_in_no_delta : ¬ (Concurrent.run "t1" deltaBetween).Complete := by
  intro complete
  obtain ⟨data, member, inside⟩ := complete.edges "e" ⟨⟨"a", "b", "KNOWS", "\x7b\x7d", "t1", 3⟩, false⟩
      (by decide +kernel)
  have nothing : ∀ data ∈ (Concurrent.run "t1" deltaBetween).deltas, data.edges = [] := by decide +kernel
  rw [nothing data member] at inside
  cases inside

end Samples

end Aeterna.Graph
