import Mathlib.Data.List.Induction
import Aeterna.Graph.Live

namespace Aeterna.Graph
open Lib (Eff Marked Table)
open GraphTables

def GraphStore.Referential (s : GraphStore) : Prop :=
  ∀ id row, s.tables.liveEdge id = some row →
    s.nodeExists row.sourceId row.tenantId = true ∧ s.nodeExists row.targetId row.tenantId = true

/-- What a call does between two releases of the writer lock. -/
inductive LockedStep where
  | addNode (tenantId : String) (node : GraphNode)
  | checkEdge (tenantId : String) (edge : GraphEdge)
  /-- The second part of the `k`-th `add_edge` that waits for it. -/
  | writeEdge (k : Nat)
  | addNodesAndEdgesAtomic (tenantId : String) (nodes : List GraphNode) (edges : List GraphEdge)
  | softDeleteNode (tenantId nodeId : String)
  | softDeleteNodesBySourceMemoryId (tenantId sourceMemoryId : String)

/-- An `add_edge` that has checked its endpoints and taken its number. -/
structure WaitingEdge where
  tenantId : String
  edge : GraphEdge
  seq : Int

structure Writers where
  store : GraphStore := {}
  waiting : List WaitingEdge := []

namespace Writers
variable (extract : JsonExtract)

def step (w : Writers) : LockedStep → Writers
  | .addNode tenantId node => { w with store := (w.store.addNode tenantId node).2 }
  | .checkEdge tenantId edge =>
    if edge.tenantId ≠ tenantId then w
    else
      match w.store.addEdgeCheck tenantId edge with
      | (.error _, store) => { w with store := store }
      | (.ok seq, store) => { store := store, waiting := w.waiting ++ [⟨tenantId, edge, seq⟩] }
  | .writeEdge k =>
    match w.waiting[k]? with
    | none => w
    | some call =>
      { store := w.store.addEdgeWrite call.tenantId call.edge call.seq, waiting := w.waiting.eraseIdx k }
  | .addNodesAndEdgesAtomic tenantId nodes edges =>
    { w with store := (GraphStore.addNodesAndEdgesAtomic tenantId nodes edges w.store).2 }
  | .softDeleteNode tenantId nodeId => { w with store := (w.store.softDeleteNode tenantId nodeId).2 }
  | .softDeleteNodesBySourceMemoryId tenantId sourceMemoryId =>
    { w with store := (w.store.softDeleteNodesBySourceMemoryId extract tenantId sourceMemoryId).2 }

def run (steps : List LockedStep) : Writers := steps.foldl (step extract) {}

def EndpointsKept (w : Writers) (step : LockedStep) : Prop :=
  ∀ k call, step = .writeEdge k → w.waiting[k]? = some call → w.store.tables.memoryEdges.get call.edge.id = none →
    w.store.nodeExists call.edge.sourceId call.tenantId = true ∧
      w.store.nodeExists call.edge.targetId call.tenantId = true

end Writers

namespace GraphStore

def SameEnds (row old : EdgeRow) : Prop :=
  row.tenantId = old.tenantId ∧ row.sourceId = old.sourceId ∧ row.targetId = old.targetId

section
variable {s s' : GraphStore} (referential : s.Referential)
include referential

theorem Referential.of_gone (gone : String → String → Prop)
    (nodes : ∀ nodeId tenantId, s.nodeExists nodeId tenantId = true → ¬ gone nodeId tenantId →
      s'.nodeExists nodeId tenantId = true)
    (edges : ∀ id row, s'.tables.liveEdge id = some row → ∃ old, s.tables.liveEdge id = some old ∧ SameEnds row old ∧
      ¬ gone old.sourceId old.tenantId ∧ ¬ gone old.targetId old.tenantId) : s'.Referential := by
  intro id row live
  obtain ⟨old, before, ⟨tenant, source, target⟩, source_kept, target_kept⟩ := edges id row live
  obtain ⟨source_exists, target_exists⟩ := referential id old before
  rw [tenant, source, target]
  exact ⟨nodes _ _ source_exists source_kept, nodes _ _ target_exists target_kept⟩

theorem Referential.of_kept (nodes : ∀ nodeId tenantId, s.nodeExists nodeId tenantId = true → s'.nodeExists nodeId tenantId = true)
    (edges : ∀ id row, s'.tables.liveEdge id = some row → ∃ old, s.tables.liveEdge id = some old ∧ SameEnds row old) :
    s'.Referential := by
  refine referential.of_gone (fun _ _ => False) (fun nodeId tenantId before _ => nodes nodeId tenantId before) ?_
  intro id row live
  obtain ⟨old, before, same⟩ := edges id row live
  exact ⟨old, before, same, not_false, not_false⟩

theorem Referential.of_tables (same : s'.tables = s.tables) : s'.Referential := by
  refine referential.of_kept ?_ ?_
  · intro nodeId tenantId before
    rw [nodeExists_of_tables (congrArg memoryNodes same)]
    exact before
  · intro id row live
    rw [same] at live
    exact ⟨row, live, rfl, rfl, rfl⟩

end

variable {s : GraphStore} {tenantId : String}

theorem upsertNode_nodeExists {node : GraphNode} {seq : Int} {nodeId owner : String}
    (before : s.nodeExists nodeId owner = true) :
      (s.upsertNode tenantId node seq).nodeExists nodeId owner = true := by
  obtain ⟨row, live, rfl⟩ := nodeExists_iff.mp before
  refine nodeExists_iff.mpr ?_
  rw [upsertNode_liveNode]
  split
  · rename_i free
    rw [free.1, liveNode, free.2] at live
    cases live
  · rw [live]
    refine ⟨_, rfl, ?_⟩
    split <;> rfl

section
variable (referential : s.Referential)
include referential

theorem Referential.upsertNode (node : GraphNode) (seq : Int) : (s.upsertNode tenantId node seq).Referential :=
  referential.of_kept (fun _ _ before => upsertNode_nodeExists before) (fun _ row live => ⟨row, live, rfl, rfl, rfl⟩)

theorem Referential.addNode (node : GraphNode) : (s.addNode tenantId node).2.Referential := by
  have counted := referential.of_tables (nextMutationSeq_tables s tenantId)
  simp only [GraphStore.addNode]
  split
  · exact referential
  split
  · exact counted
  · exact counted.upsertNode node _

theorem Referential.addEdgeWrite {edge : GraphEdge} {seq : Int} (ends : s.tables.memoryEdges.get edge.id = none →
      s.nodeExists edge.sourceId tenantId = true ∧ s.nodeExists edge.targetId tenantId = true) :
    (s.addEdgeWrite tenantId edge seq).Referential := by
  have same : (s.addEdgeWrite tenantId edge seq).tables.memoryNodes = s.tables.memoryNodes := rfl
  intro id row live
  rw [nodeExists_of_tables same, nodeExists_of_tables same]
  rw [addEdgeWrite_liveEdge] at live
  split at live
  · rename_i free
    cases live
    exact ends free.2
  · obtain ⟨old, before, rfl⟩ := Option.map_eq_some_iff.mp live
    split <;> exact referential id old before

theorem Referential.addEdgeCheck (edge : GraphEdge) : (s.addEdgeCheck tenantId edge).2.Referential :=
  referential.of_tables (addEdgeCheck_spec s tenantId edge).1

theorem Referential.softDeleteNode (nodeId : String) : (s.softDeleteNode tenantId nodeId).2.Referential := by
  refine referential.of_gone (fun id owner => id = nodeId ∧ owner = tenantId) ?_ ?_
  · intro id owner before kept
    obtain ⟨row, live, rfl⟩ := nodeExists_iff.mp before
    refine nodeExists_iff.mpr ⟨row, ?_, rfl⟩
    rw [softDeleteNode_liveNode, live]
    simp [Option.filter, kept]
  · intro id row live
    rw [softDeleteNode_liveEdge, Option.filter_eq_some_iff] at live
    obtain ⟨before, kept⟩ := live
    refine ⟨row, before, ⟨rfl, rfl, rfl⟩, ?_, ?_⟩
    · rintro ⟨source, owner⟩
      have found := (referential id row before).1
      rw [source, owner] at found
      simp [found, touches, source, owner] at kept
    · rintro ⟨target, owner⟩
      have found := (referential id row before).2
      rw [target, owner] at found
      simp [found, touches, target, owner] at kept

theorem Referential.softDeleteNodesBySourceMemoryId (extract : JsonExtract) (sourceMemoryId : String) :
    (s.softDeleteNodesBySourceMemoryId extract tenantId sourceMemoryId).2.Referential := by
  refine referential.of_gone
    (fun id owner => id ∈ s.idsFromMemory tenantId extract sourceMemoryId ∧ owner = tenantId) ?_ ?_
  · intro id owner before kept
    obtain ⟨row, live, rfl⟩ := nodeExists_iff.mp before
    refine nodeExists_iff.mpr ⟨row, ?_, rfl⟩
    rw [softDeleteNodesBySourceMemoryId_liveNode, live]
    cases selected : fromMemory extract tenantId sourceMemoryId row with
    | false => simp [Option.filter, selected]
    | true =>
      have owner : row.tenantId = tenantId := by
        unfold fromMemory at selected
        simp only [decide_eq_true_eq] at selected
        exact selected.1
      exact absurd ⟨mem_idsFromMemory.mpr ⟨row, live, selected⟩, owner⟩ kept
  · intro id row live
    rw [softDeleteNodesBySourceMemoryId_liveEdge, Option.filter_eq_some_iff] at live
    obtain ⟨before, kept⟩ := live
    have spared : ∀ nodeId ∈ s.idsFromMemory tenantId extract sourceMemoryId,
        touches nodeId tenantId row = false := by
      simpa using kept
    refine ⟨row, before, ⟨rfl, rfl, rfl⟩, ?_, ?_⟩
    · rintro ⟨member, owner⟩
      have apart := spared _ member
      simp [touches, owner] at apart
    · rintro ⟨member, owner⟩
      have apart := spared _ member
      simp [touches, owner] at apart

end

theorem batchNode_referential (node : GraphNode) (referential : s.Referential) :
    (batchNode tenantId node s).2.Referential := by
  have counted := referential.of_tables (nextMutationSeq_tables s tenantId)
  simp only [batchNode]
  split
  · exact referential
  · exact counted.upsertNode node _

theorem batchEdge_referential (edge : GraphEdge) (referential : s.Referential) :
    (batchEdge tenantId edge s).2.Referential := by
  have same := nextMutationSeq_tables s tenantId
  have counted := referential.of_tables same
  simp only [batchEdge]
  split
  · exact referential
  split
  · exact referential
  split
  · exact referential
  · rename_i source target
    refine counted.addEdgeWrite (fun _ => ?_)
    rw [nodeExists_of_tables (congrArg memoryNodes same),
      nodeExists_of_tables (congrArg memoryNodes same)]
    exact ⟨not_not.mp source, not_not.mp target⟩

theorem Referential.addNodesAndEdgesAtomic (referential : s.Referential) (nodes : List GraphNode)
    (edges : List GraphEdge) : (addNodesAndEdgesAtomic tenantId nodes edges s).2.Referential := by
  have keeps : Eff.Keeps GraphStore.Referential (GraphStore.addNodesAndEdgesAtomic tenantId nodes edges) := by
    apply Eff.Keeps.transaction
    apply Eff.Keeps.bind
    · exact Eff.Keeps.forEach (fun node _ _ before => batchNode_referential node before)
    · exact fun _ => Eff.Keeps.forEach (fun edge _ _ before => batchEdge_referential edge before)
  exact keeps s referential

end GraphStore

namespace Writers
variable {extract : JsonExtract} {w : Writers}

theorem step_referential (referential : w.store.Referential) (step : LockedStep) :
    (w.step extract step).store.Referential ↔ w.EndpointsKept step := by
  have other : ∀ {s : GraphStore}, s.Referential → (∀ k, step ≠ .writeEdge k) →
      (s.Referential ↔ w.EndpointsKept step) :=
    fun holds apart => iff_of_true holds (fun k _ same => absurd same (apart k))
  cases step with
  | addNode tenantId node => exact other (referential.addNode node) (fun _ => by simp)
  | checkEdge tenantId edge =>
    refine other ?_ (fun _ => by simp)
    have checked : (w.store.addEdgeCheck tenantId edge).2.Referential := referential.addEdgeCheck edge
    simp only [Writers.step]
    split
    · exact referential
    split
    · rename_i outcome
      rw [outcome] at checked
      exact checked
    · rename_i outcome
      rw [outcome] at checked
      exact checked
  | addNodesAndEdgesAtomic tenantId nodes edges =>
    exact other (referential.addNodesAndEdgesAtomic nodes edges) (fun _ => by simp)
  | softDeleteNode tenantId nodeId => exact other (referential.softDeleteNode nodeId) (fun _ => by simp)
  | softDeleteNodesBySourceMemoryId tenantId sourceMemoryId =>
    exact other (referential.softDeleteNodesBySourceMemoryId extract sourceMemoryId) (fun _ => by simp)
  | writeEdge k =>
    simp only [Writers.step]
    cases waits : w.waiting[k]? with
    | none =>
      refine iff_of_true referential (fun k' call same waiting => ?_)
      cases same
      rw [waits] at waiting
      cases waiting
    | some call =>
      constructor
      · intro after k' call' same waiting free
        cases same
        rw [waits] at waiting
        cases waiting
        have written := GraphStore.addEdgeWrite_liveEdge w.store call.tenantId call.edge call.seq call.edge.id
        rw [if_pos ⟨rfl, free⟩] at written
        exact after call.edge.id _ written
      · intro kept
        exact referential.addEdgeWrite (kept k call rfl waits)

theorem run_append (earlier : List LockedStep) (step : LockedStep) :
    run extract (earlier ++ [step]) = (run extract earlier).step extract step := List.foldl_append

theorem start_referential : (run extract []).store.Referential := by
  intro id row live
  cases live

end Writers

/-- In the interleavings where no edge loses an endpoint between its check and its write, and in no others, the
live graph is referential all along. -/
theorem live_graph_referential_iff (extract : JsonExtract) (steps : List LockedStep) :
    (∀ reached later, steps = reached ++ later → (Writers.run extract reached).store.Referential) ↔
      ∀ earlier step later, steps = earlier ++ step :: later → (Writers.run extract earlier).EndpointsKept step := by
  constructor
  · intro holds earlier step later split
    have before := holds earlier (step :: later) split
    have after := holds (earlier ++ [step]) later (by rw [split]; simp)
    rw [Writers.run_append] at after
    exact (Writers.step_referential before step).mp after
  · intro kept reached
    induction reached using List.reverseRecOn with
    | nil => exact fun _ _ => Writers.start_referential
    | append_singleton earlier step ih =>
      intro later split
      have split' : steps = earlier ++ step :: later := by rw [split]; simp
      rw [Writers.run_append]
      exact (Writers.step_referential (ih _ split') step).mpr (kept earlier step later split')

section Samples

def deletedBetween : List LockedStep :=
  [.addNode "t1" (sampleNode "a" "Person"), .addNode "t1" (sampleNode "b" "Person"),
    .checkEdge "t1" (sampleEdge "e" "a" "b"), .softDeleteNode "t1" "a", .writeEdge 0]

theorem edge_outlives_its_source : ¬ (Writers.run noMemory deletedBetween).store.Referential := by
  intro referential
  obtain ⟨source, _⟩ := referential "e" ⟨"a", "b", "KNOWS", "\x7b\x7d", "t1", 3⟩ (by decide +kernel)
  exact absurd source (by decide +kernel)

end Samples

end Aeterna.Graph
