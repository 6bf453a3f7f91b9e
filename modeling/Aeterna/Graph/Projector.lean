import Aeterna.Graph.Store

open List

namespace Aeterna.Graph
open Lib (JsonValue Marked Table)

structure GraphEvent where
  tenantId : String
  seq : Int
  kind : String
  payload : JsonValue

inductive EventKind where
  | addNode | addEdge | softDeleteNode | softDeleteEdge | other
  deriving DecidableEq

namespace GraphEvent
variable (e : GraphEvent)

def eventKind : EventKind :=
  if e.kind = "add_node" then .addNode
  else if e.kind = "add_edge" then .addEdge
  else if e.kind = "soft_delete_node" then .softDeleteNode
  else if e.kind = "soft_delete_edge" then .softDeleteEdge
  else .other

def field (key : String) : String := (e.payload.get key).asStr.getD ""

def tenant : String := (e.payload.get "tenant_id").asStr.getD e.tenantId

def nodeRow : NodeRow := ⟨e.field "label", (e.payload.get "properties").text, e.tenant, e.seq⟩

def edgeRow : EdgeRow :=
  ⟨e.field "source_id", e.field "target_id", e.field "relation", (e.payload.get "properties").text, e.tenant, e.seq⟩

/-- Whether `soft_delete_node` of the event covers an edge. -/
def cascadesTo (row : EdgeRow) : Bool :=
  (row.sourceId = e.field "node_id" ∨ row.targetId = e.field "node_id") ∧ row.tenantId = e.tenant

end GraphEvent

def markWhere {ρ : Type} (p : String → ρ → Bool) (t : Table String (Marked ρ)) : Table String (Marked ρ) :=
  t.update (fun id m => if p id m.row ∧ m.deleted = false then { m with deleted := true } else m)

variable (t : GraphTables)

def applyEvent (e : GraphEvent) : GraphTables :=
  match e.eventKind with
  | .addNode => { t with memoryNodes := t.memoryNodes.insertOrIgnore (e.field "id") ⟨e.nodeRow, false⟩ }
  | .addEdge => { t with memoryEdges := t.memoryEdges.insertOrIgnore (e.field "id") ⟨e.edgeRow, false⟩ }
  | .softDeleteNode =>
    { memoryNodes := markWhere (fun id row => id = e.field "node_id" ∧ row.tenantId = e.tenant) t.memoryNodes
      memoryEdges := markWhere (fun _ row => e.cascadesTo row) t.memoryEdges }
  | .softDeleteEdge =>
    { t with memoryEdges := markWhere (fun id row => id = e.field "edge_id" ∧ row.tenantId = e.tenant) t.memoryEdges }
  | .other => t

def applyEvents (events : List GraphEvent) : GraphTables := events.foldl applyEvent t

/-- The events of a tenant, in the order of their sequence numbers. -/
structure EventLog where
  events : List GraphEvent
  ordered : events.Pairwise (fun a b => a.seq < b.seq)

namespace EventLog
variable (log : EventLog)

def upTo (n : Int) : List GraphEvent := log.events.filter (fun e => e.seq ≤ n)

def tail (n : Int) : List GraphEvent := log.events.filter (fun e => n < e.seq)

def between (m n : Int) : List GraphEvent := log.events.filter (fun e => m < e.seq ∧ e.seq ≤ n)

/-- The projector has applied the log up to `n` and starts again after `m`. -/
def restarted (base : GraphTables) (m n : Int) : GraphTables :=
  applyEvents (applyEvents base (log.upTo n)) (log.tail m)

end EventLog

namespace GraphEvent
variable (e : GraphEvent)

variable (id : String)

def putsNode : Option NodeRow :=
  if e.eventKind = .addNode ∧ e.field "id" = id then some e.nodeRow else none

def putsEdge : Option EdgeRow :=
  if e.eventKind = .addEdge ∧ e.field "id" = id then some e.edgeRow else none

def removesNode (row : NodeRow) : Bool :=
  e.eventKind = .softDeleteNode ∧ id = e.field "node_id" ∧ row.tenantId = e.tenant

def removesEdge (row : EdgeRow) : Bool :=
  (e.eventKind = .softDeleteNode ∧ e.cascadesTo row) ∨
    (e.eventKind = .softDeleteEdge ∧ id = e.field "edge_id" ∧ row.tenantId = e.tenant)

end GraphEvent

theorem get_markWhere {ρ : Type} (p : String → ρ → Bool) (t : Table String (Marked ρ)) (id : String) :
    (markWhere p t).get id = (t.get id).map (fun m => ⟨m.row, m.deleted || p id m.row⟩) := by
  rw [markWhere, Table.get_update]
  cases t.get id with
  | none => rfl
  | some m =>
    obtain ⟨row, deleted⟩ := m
    cases deleted <;> cases hit : p id row <;> simp [hit]

theorem applyEvent_node (e : GraphEvent) (id : String) : (applyEvent t e).memoryNodes.get id =
      Marked.step (fun e => e.putsNode id) (fun e => e.removesNode id) (t.memoryNodes.get id) e := by
  unfold applyEvent
  cases kind : e.eventKind with
  | addNode =>
    by_cases own : id = e.field "id"
    · subst own
      cases found : t.memoryNodes.get (e.field "id") <;>
        simp [Marked.step, GraphEvent.putsNode, GraphEvent.removesNode, kind, found]
    · have apart : ¬ e.field "id" = id := Ne.symm own
      cases found : t.memoryNodes.get id <;>
        simp [Marked.step, GraphEvent.putsNode, GraphEvent.removesNode, kind, own, apart, found]
  | softDeleteNode =>
    rw [get_markWhere]
    cases found : t.memoryNodes.get id <;>
      simp [Marked.step, GraphEvent.putsNode, GraphEvent.removesNode, kind]
  | addEdge | softDeleteEdge | other =>
    cases found : t.memoryNodes.get id <;>
      simp [Marked.step, GraphEvent.putsNode, GraphEvent.removesNode, kind]

theorem applyEvent_edge (e : GraphEvent) (id : String) : (applyEvent t e).memoryEdges.get id =
      Marked.step (fun e => e.putsEdge id) (fun e => e.removesEdge id) (t.memoryEdges.get id) e := by
  unfold applyEvent
  cases kind : e.eventKind with
  | addEdge =>
    by_cases own : id = e.field "id"
    · subst own
      cases found : t.memoryEdges.get (e.field "id") <;>
        simp [Marked.step, GraphEvent.putsEdge, GraphEvent.removesEdge, kind, found]
    · have apart : ¬ e.field "id" = id := Ne.symm own
      cases found : t.memoryEdges.get id <;>
        simp [Marked.step, GraphEvent.putsEdge, GraphEvent.removesEdge, kind, own, apart, found]
  | softDeleteNode | softDeleteEdge =>
    rw [get_markWhere]
    cases found : t.memoryEdges.get id <;>
      simp [Marked.step, GraphEvent.putsEdge, GraphEvent.removesEdge, kind]
  | addNode | other =>
    cases found : t.memoryEdges.get id <;>
      simp [Marked.step, GraphEvent.putsEdge, GraphEvent.removesEdge, kind]

end Aeterna.Graph

namespace Aeterna.Graph
open Lib (Marked)

/-- No deletion between the checkpoint and the last applied event takes a row that is first added after it,
up to there, and that the log keeps. -/
def ReplaySafe (base : GraphTables) (first middle rest : List GraphEvent) : Prop :=
  (∀ id, base.memoryNodes.get id = none →
    Marked.Replayable (fun e => e.putsNode id) (fun e => e.removesNode id) first middle rest) ∧
  (∀ id, base.memoryEdges.get id = none →
    Marked.Replayable (fun e => e.putsEdge id) (fun e => e.removesEdge id) first middle rest)

theorem applyEvents_view {ρ : Type} (view : GraphTables → Option (Marked ρ)) {puts : GraphEvent → Option ρ}
    {removes : GraphEvent → ρ → Bool} (each : ∀ t e, view (applyEvent t e) = Marked.step puts removes (view t) e)
    (t : GraphTables) (events : List GraphEvent) :
    view (applyEvents t events) = Marked.run puts removes (view t) events := by
  induction events generalizing t with
  | nil => rfl
  | cons e rest ih =>
    show view (applyEvents (applyEvent t e) rest) = _
    rw [ih, each]
    rfl

theorem applyEvents_node (t : GraphTables) (events : List GraphEvent) (id : String) :
    (applyEvents t events).memoryNodes.get id =
      Marked.run (fun e => e.putsNode id) (fun e => e.removesNode id) (t.memoryNodes.get id) events :=
  applyEvents_view (fun t => t.memoryNodes.get id) (fun t e => applyEvent_node t e id) t events

theorem applyEvents_edge (t : GraphTables) (events : List GraphEvent) (id : String) :
    (applyEvents t events).memoryEdges.get id =
      Marked.run (fun e => e.putsEdge id) (fun e => e.removesEdge id) (t.memoryEdges.get id) events :=
  applyEvents_view (fun t => t.memoryEdges.get id) (fun t e => applyEvent_edge t e id) t events

theorem putsNode_spares (e : GraphEvent) (id : String) (row other : NodeRow) (put : e.putsNode id = some row) :
    e.removesNode id other = false := by
  unfold GraphEvent.putsNode at put
  split at put
  · rename_i adds
    simp [GraphEvent.removesNode, adds.1]
  · cases put

theorem putsEdge_spares (e : GraphEvent) (id : String) (row other : EdgeRow) (put : e.putsEdge id = some row) :
    e.removesEdge id other = false := by
  unfold GraphEvent.putsEdge at put
  split at put
  · rename_i adds
    simp [GraphEvent.removesEdge, adds.1]
  · cases put

namespace EventLog

theorem filter_split {events : List GraphEvent} (ordered : events.Pairwise (fun a b => a.seq < b.seq)) (n : Int) :
    events = events.filter (fun e => e.seq ≤ n) ++ events.filter (fun e => n < e.seq) := by
  induction ordered with
  | nil => rfl
  | @cons e rest first _ ih =>
    by_cases early : e.seq ≤ n
    · have late : ¬ n < e.seq := by omega
      rw [filter_cons_of_pos (by simpa using early), filter_cons_of_neg (by simpa using late),
        cons_append, ← ih]
    · have none_early : rest.filter (fun e => e.seq ≤ n) = [] := by
        refine filter_eq_nil_iff.mpr (fun other member => ?_)
        have after := first other member
        simp only [decide_eq_true_eq]
        omega
      have all_late : rest.filter (fun e => n < e.seq) = rest := by
        rw [none_early, nil_append] at ih
        exact ih.symm
      have late : n < e.seq := by omega
      rw [filter_cons_of_neg (by simpa using early), filter_cons_of_pos (by simpa using late), none_early,
        all_late, nil_append]

variable (log : EventLog)

theorem upTo_tail (n : Int) : log.events = log.upTo n ++ log.tail n := filter_split log.ordered n

variable (m : Int)

variable (k : Nat)

theorem upTo_between : log.upTo (m + k) = log.upTo m ++ log.between m (m + k) := by
  have split := filter_split (log.ordered.filter (fun e => e.seq ≤ m + k)) m
  rw [filter_filter, filter_filter] at split
  refine split.trans ?_
  unfold upTo between
  congr 2
  · funext e
    by_cases early : e.seq ≤ m
    · have below : e.seq ≤ m + k := by omega
      simp [early, below]
    · simp [early]
  · funext e
    simp

theorem tail_between : log.tail m = log.between m (m + k) ++ log.tail (m + k) := by
  have split := filter_split (log.ordered.filter (fun e => m < e.seq)) (m + k)
  rw [filter_filter, filter_filter] at split
  refine split.trans ?_
  unfold tail between
  congr 2
  · funext e
    rw [Bool.decide_and, Bool.and_comm]
  · funext e
    by_cases late : m + k < e.seq
    · have above : m < e.seq := by omega
      simp [late, above]
    · simp [late]

theorem restarted_eq (base : GraphTables) (m : Int) (k : Nat) : log.restarted base m (m + k) =
      applyEvents base (log.upTo m ++ log.between m (m + k) ++ (log.between m (m + k) ++ log.tail (m + k))) := by
  rw [restarted, upTo_between, tail_between, applyEvents, applyEvents, applyEvents, ← foldl_append]

theorem events_eq : log.events = log.upTo m ++ log.between m (m + k) ++ log.tail (m + k) := by
  rw [← upTo_between, ← upTo_tail]

end EventLog

section
variable {base : GraphTables} {first middle rest : List GraphEvent}

theorem replay_node_iff (id : String) : (applyEvents base (first ++ middle ++ (middle ++ rest))).liveNode id =
        (applyEvents base (first ++ middle ++ rest)).liveNode id ↔
      (base.memoryNodes.get id = none →
        Marked.Replayable (fun e => e.putsNode id) (fun e => e.removesNode id) first middle rest) := by
  unfold GraphTables.liveNode
  rw [applyEvents_node, applyEvents_node]
  exact Marked.replay_live (fun e row other => putsNode_spares e id row other) ..

theorem replay_edge_iff (id : String) : (applyEvents base (first ++ middle ++ (middle ++ rest))).liveEdge id =
        (applyEvents base (first ++ middle ++ rest)).liveEdge id ↔
      (base.memoryEdges.get id = none →
        Marked.Replayable (fun e => e.putsEdge id) (fun e => e.removesEdge id) first middle rest) := by
  unfold GraphTables.liveEdge
  rw [applyEvents_edge, applyEvents_edge]
  exact Marked.replay_live (fun e row other => putsEdge_spares e id row other) ..

end

/-- A restart after `m` of a projector that has applied the log up to `m + k` ends with the live graph of one
pass exactly if no deletion in between takes, on its second pass, a row that the log keeps. -/
theorem restart_agrees_iff (log : EventLog) (base : GraphTables) (m : Int) (k : Nat) :
    (log.restarted base m (m + k)).SameLive (applyEvents base log.events) ↔
      ReplaySafe base (log.upTo m) (log.between m (m + k)) (log.tail (m + k)) := by
  rw [log.restarted_eq, log.events_eq m k]
  constructor
  · intro same
    exact ⟨fun id => (replay_node_iff id).mp (same.nodes id), fun id => (replay_edge_iff id).mp (same.edges id)⟩
  · intro safe
    exact ⟨fun id => (replay_node_iff id).mpr (safe.1 id), fun id => (replay_edge_iff id).mpr (safe.2 id)⟩

section Samples

def sampleEvent (seq : Int) (kind : String) (fields : List (String × String)) : GraphEvent where
  tenantId := "t1"
  seq := seq
  kind := kind
  payload := .object (fields.map (fun field => (field.1, .string field.2)) ++ [("properties", .object [])])

def crossedLog : EventLog where
  events := [
    sampleEvent 1 "add_node" [("id", "a"), ("label", "Person")],
    sampleEvent 2 "add_node" [("id", "b"), ("label", "Person")],
    sampleEvent 3 "soft_delete_node" [("node_id", "a")],
    sampleEvent 4 "add_edge" [("id", "e"), ("source_id", "a"), ("target_id", "b"), ("relation", "KNOWS")]]
  ordered := by decide

theorem restart_loses_edge : ¬ (crossedLog.restarted {} 2 4).SameLive (applyEvents {} crossedLog.events) := by
  intro same
  exact absurd (same.edges "e") (by decide +kernel)

end Samples

end Aeterna.Graph
