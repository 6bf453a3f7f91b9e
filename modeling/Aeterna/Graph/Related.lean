import Aeterna.Graph.TwoStores
import Mathlib.Combinatorics.SimpleGraph.Metric

namespace Aeterna.Graph
open Lib (recursive)
open List Option

structure RelatedRow where
  edge : String × EdgeRow
  node : String × NodeRow
  depth : Nat
  deriving DecidableEq

def otherEnd (id : String) (e : EdgeRow) : String := if e.sourceId = id then e.targetId else e.sourceId

namespace GraphStore
variable (reader : JsonReader) (s : GraphStore) (tenantId : String)

def joined (id : String) (depth : Nat) : List RelatedRow :=
  ((s.liveEdges tenantId).filter (fun e => e.2.sourceId = id ∨ e.2.targetId = id)).filterMap (fun e =>
    (s.ownNode tenantId (otherEnd id e.2)).map (fun row => ⟨e, (otherEnd id e.2, row), depth⟩))

def relatedStep (nodeId : String) (maxHops : Nat) (r : RelatedRow) : List RelatedRow :=
  (s.joined tenantId r.node.1 (r.depth + 1)).filter (fun next => next.node.1 ≠ nodeId ∧ r.depth < maxHops)

/-- `related`, in as many rounds as its depths allow. -/
def related (nodeId : String) (maxHops : Nat) : List RelatedRow :=
  recursive (s.relatedStep tenantId nodeId maxHops) (max 1 maxHops) (s.joined tenantId nodeId 1)

def findRelated (createdAt : String → String) (maxPathDepth : Nat) (nodeId : String) (maxHops : Nat) :
    List (GraphEdge × GraphNode) :=
  let effectiveMaxHops := min maxHops maxPathDepth
  ((s.related tenantId nodeId effectiveMaxHops).eraseDups.insertionSort (fun a b =>
    a.depth < b.depth ∨ a.depth = b.depth ∧ createdAt a.edge.1 ≤ createdAt b.edge.1)).map
      (fun r => (toEdge reader tenantId r.edge, toNode reader tenantId r.node.1 r.node.2))

def liveGraph (start : String) : SimpleGraph String where
  Adj a b := a ≠ b ∧ (a = start ∨ s.nodeExists a tenantId = true) ∧ (b = start ∨ s.nodeExists b tenantId = true) ∧
    ∃ e ∈ s.liveEdges tenantId, e.2.sourceId = a ∧ e.2.targetId = b ∨ e.2.sourceId = b ∧ e.2.targetId = a
  symm := ⟨fun _ _ ⟨apart, here, there, e, live, ends⟩ => ⟨apart.symm, there, here, e, live, ends.symm⟩⟩
  loopless := ⟨fun _ same => same.1 rfl⟩

variable {reader s tenantId} {createdAt : String → String} {nodeId id : String} {maxPathDepth maxHops : Nat}

theorem ownNode_isSome : (s.ownNode tenantId id).isSome = true ↔ s.nodeExists id tenantId = true := by
  rw [nodeExists_iff, isSome_iff_exists]
  unfold ownNode
  constructor
  · rintro ⟨row, own⟩
    obtain ⟨live, here⟩ := filter_eq_some_iff.mp own
    exact ⟨row, live, of_decide_eq_true here⟩
  · rintro ⟨row, live, here⟩
    exact ⟨row, filter_eq_some_iff.mpr ⟨live, decide_eq_true here⟩⟩

variable {r : RelatedRow} {pair : GraphEdge × GraphNode} {a b : String}

theorem mem_joined {depth : Nat} : r ∈ s.joined tenantId id depth ↔
    r.edge ∈ s.liveEdges tenantId ∧ (r.edge.2.sourceId = id ∨ r.edge.2.targetId = id) ∧
      r.node.1 = otherEnd id r.edge.2 ∧
      s.ownNode tenantId r.node.1 = some r.node.2 ∧ r.depth = depth := by
  obtain ⟨e, ⟨other, row⟩, deep⟩ := r
  unfold joined
  rw [mem_filterMap]
  constructor
  · rintro ⟨e', member, here⟩
    obtain ⟨live, at_node⟩ := mem_filter.mp member
    obtain ⟨row', own, same⟩ := map_eq_some_iff.mp here
    cases same
    exact ⟨live, of_decide_eq_true at_node, rfl, own, rfl⟩
  · rintro ⟨live, at_node, same, own, deep⟩
    dsimp only at same own deep
    subst same deep
    refine ⟨e, mem_filter.mpr ⟨live, decide_eq_true at_node⟩, ?_⟩
    rw [own]
    rfl

theorem mem_relatedStep {next : RelatedRow} : next ∈ s.relatedStep tenantId nodeId maxHops r ↔
    next ∈ s.joined tenantId r.node.1 (r.depth + 1) ∧ next.node.1 ≠ nodeId ∧ r.depth < maxHops := by
  unfold relatedStep
  rw [mem_filter, decide_eq_true_iff]

theorem related_enough (more : Nat) : recursive (s.relatedStep tenantId nodeId maxHops) (max 1 maxHops + more)
    (s.joined tenantId nodeId 1) =
    s.related tenantId nodeId maxHops := by
  refine Lib.recursive_enough RelatedRow.depth (fun r next member => ?_) (fun r deep => ?_)
    (fun r member => (mem_joined.mp member).2.2.2.2) (k := 1) (show maxHops < 1 + max 1 maxHops by omega)
      (by omega) more
  · exact (mem_joined.mp (mem_relatedStep.mp member).1).2.2.2.2
  · apply eq_nil_iff_forall_not_mem.mpr
    intro next member
    have below := (mem_relatedStep.mp member).2.2
    exact absurd below (Nat.not_lt.mpr deep)

theorem mem_findRelated : pair ∈ s.findRelated reader tenantId createdAt maxPathDepth nodeId maxHops ↔
    ∃ r ∈ s.related tenantId nodeId (min maxHops maxPathDepth),
      (toEdge reader tenantId r.edge, toNode reader tenantId r.node.1 r.node.2) = pair := by
  unfold findRelated
  simp only [List.mem_map, mem_insertionSort, mem_eraseDups]

theorem other_ends {e : EdgeRow} (at_node : e.sourceId = id ∨ e.targetId = id) :
    e.sourceId = id ∧ e.targetId = otherEnd id e ∨ e.sourceId = otherEnd id e ∧ e.targetId = id := by
  unfold otherEnd
  split
  · rename_i here
    exact .inl ⟨here, rfl⟩
  · rename_i elsewhere
    exact .inr ⟨rfl, at_node.resolve_left elsewhere⟩

theorem joined_near {depth n : Nat} (member : r ∈ s.joined tenantId id depth)
    (stands : id = nodeId ∨ s.nodeExists id tenantId = true)
    (near : (s.liveGraph tenantId nodeId).edist nodeId id ≤ n) :
      (s.liveGraph tenantId nodeId).edist nodeId r.node.1 ≤ (n + 1 : Nat) := by
  obtain ⟨live, at_node, other, own, _⟩ := mem_joined.mp member
  have here : s.nodeExists r.node.1 tenantId = true := ownNode_isSome.mp (isSome_iff_exists.mpr ⟨_, own⟩)
  by_cases same : id = r.node.1
  · rw [← same]
    exact near.trans (by exact_mod_cast Nat.le_succ n)
  · have adjacent : (s.liveGraph tenantId nodeId).Adj id r.node.1 := by
      refine ⟨same, stands, .inr here, r.edge, live, ?_⟩
      rw [other]
      exact other_ends at_node
    calc (s.liveGraph tenantId nodeId).edist nodeId r.node.1
        ≤ (s.liveGraph tenantId nodeId).edist nodeId id + (s.liveGraph tenantId nodeId).edist id r.node.1 :=
          SimpleGraph.edist_triangle
      _ ≤ n + 1 := add_le_add near (SimpleGraph.edist_eq_one_iff_adj.mpr adjacent).le
      _ = (n + 1 : Nat) := by push_cast; rfl

theorem round_sound {k : Nat}
    (member : r ∈ (flatMap (s.relatedStep tenantId nodeId maxHops))^[k] (s.joined tenantId nodeId 1)) :
    k < max 1 maxHops ∧ (∃ start, r ∈ s.joined tenantId start (k + 1)) ∧
      (s.liveGraph tenantId nodeId).edist nodeId r.node.1 ≤ (k + 1 : Nat) := by
  induction k generalizing r with
  | zero =>
    refine ⟨by omega, ⟨nodeId, member⟩, joined_near (n := 0) member (.inl rfl) ?_⟩
    rw [SimpleGraph.edist_self]
    exact bot_le
  | succ k ih =>
    rw [Function.iterate_succ_apply'] at member
    obtain ⟨before, there, here⟩ := mem_flatMap.mp member
    obtain ⟨below, ⟨start, arrived⟩, near⟩ := ih there
    obtain ⟨joins, _, less⟩ := mem_relatedStep.mp here
    obtain ⟨_, _, _, own, deep⟩ := mem_joined.mp arrived
    rw [deep] at joins less
    exact ⟨by omega, ⟨_, joins⟩, joined_near joins
      (.inr (ownNode_isSome.mp (isSome_iff_exists.mpr ⟨_, own⟩))) near⟩

theorem joined_of_adj (adjacent : (s.liveGraph tenantId nodeId).Adj a b) (apart : b ≠ nodeId) (depth : Nat) :
    ∃ r ∈ s.joined tenantId a depth, r.node.1 = b := by
  obtain ⟨differ, _, stands, e, live, ends⟩ := adjacent
  obtain ⟨row, own⟩ := isSome_iff_exists.mp (ownNode_isSome.mpr (stands.resolve_left apart))
  have other : otherEnd a e.2 = b := by
    unfold otherEnd
    rcases ends with ⟨source, target⟩ | ⟨source, target⟩
    · rw [if_pos source, target]
    · rw [if_neg (fun same => differ (same.symm.trans source)), source]
  exact ⟨⟨e, (b, row), depth⟩, mem_joined.mpr ⟨live, ends.imp And.left And.right, other.symm, own, rfl⟩, rfl⟩

theorem exists_nearer {G : SimpleGraph String} {n : Nat} (far : G.edist a b = (n + 1 : Nat)) :
    ∃ c, G.Adj c b ∧ G.edist a c = n := by
  obtain ⟨walk, length⟩ := G.exists_walk_of_edist_eq_coe far
  have more : ¬ walk.Nil := by
    intro empty
    rw [SimpleGraph.Walk.length_eq_zero_iff.mpr empty] at length
    omega
  have last := SimpleGraph.Walk.adj_penultimate more
  refine ⟨walk.penultimate, last, le_antisymm ?_ ?_⟩
  · have front := SimpleGraph.edist_le walk.dropLast
    have shorter : walk.dropLast.length = n := by simp [length]
    rwa [shorter] at front
  · have around : G.edist a b ≤ G.edist a walk.penultimate + 1 :=
      SimpleGraph.edist_triangle.trans (add_le_add_right (SimpleGraph.edist_eq_one_iff_adj.mpr last).le _)
    rw [far] at around
    push_cast at around
    exact (ENat.add_le_add_iff_right ENat.one_ne_top).mp around

theorem round_complete {k : Nat} (far : (s.liveGraph tenantId nodeId).edist nodeId id = (k + 1 : Nat))
    (below : k < max 1 maxHops) :
    ∃ r ∈ (flatMap (s.relatedStep tenantId nodeId maxHops))^[k] (s.joined tenantId nodeId 1), r.node.1 = id := by
  induction k generalizing id with
  | zero => exact joined_of_adj (SimpleGraph.edist_eq_one_iff_adj.mp far) (by rintro rfl; simp at far) 1
  | succ k ih =>
    obtain ⟨nearer, adjacent, near⟩ := exists_nearer far
    obtain ⟨r, member, rfl⟩ := ih near (by omega)
    have apart : id ≠ nodeId := by
      rintro rfl
      rw [SimpleGraph.edist_self] at far
      exact absurd far (by exact_mod_cast (Nat.succ_ne_zero (k + 1)).symm)
    obtain ⟨next, joins, rfl⟩ := joined_of_adj adjacent apart (k + 2)
    obtain ⟨_, ⟨_, arrived⟩, _⟩ := round_sound member
    refine ⟨next, ?_, rfl⟩
    rw [Function.iterate_succ_apply']
    refine mem_flatMap.mpr ⟨r, member, mem_relatedStep.mpr ⟨?_, apart, ?_⟩⟩
    · rw [(mem_joined.mp arrived).2.2.2.2]
      exact joins
    · rw [(mem_joined.mp arrived).2.2.2.2]
      omega

theorem mem_related_ids (apart : id ≠ nodeId) : (∃ r ∈ s.related tenantId nodeId maxHops, r.node.1 = id) ↔
    (s.liveGraph tenantId nodeId).edist nodeId id ≤ (max 1 maxHops : Nat) := by
  unfold related
  simp only [Lib.mem_recursive_iff_iterate]
  constructor
  · rintro ⟨r, ⟨k, below, member⟩, rfl⟩
    exact (round_sound member).2.2.trans (by exact_mod_cast below)
  · intro near
    obtain ⟨n, steps⟩ := ENat.ne_top_iff_exists.mp (ne_top_of_le_ne_top (ENat.natCast_ne_top _) near)
    rw [← steps] at near
    cases n with
    | zero => exact absurd (SimpleGraph.edist_eq_zero_iff.mp steps.symm) apart.symm
    | succ k =>
      have below : k < max 1 maxHops := by exact_mod_cast near
      obtain ⟨r, member, here⟩ := round_complete steps.symm below
      exact ⟨r, ⟨k, below, member⟩, here⟩

theorem liveGraph_adj_iff (referential : s.Referential) : (s.liveGraph tenantId nodeId).Adj a b ↔
    a ≠ b ∧ ∃ e ∈ s.liveEdges tenantId, e.2.sourceId = a ∧ e.2.targetId = b ∨ e.2.sourceId = b ∧
      e.2.targetId = a := by
  constructor
  · rintro ⟨apart, _, _, joins⟩
    exact ⟨apart, joins⟩
  · rintro ⟨apart, e, member, ends⟩
    obtain ⟨live, own⟩ := mem_liveEdges.mp member
    obtain ⟨source, target⟩ := referential e.1 e.2 live
    rw [own] at source target
    rcases ends with ⟨rfl, rfl⟩ | ⟨rfl, rfl⟩
    · exact ⟨apart, .inr source, .inr target, e, member, .inl ⟨rfl, rfl⟩⟩
    · exact ⟨apart, .inr target, .inr source, e, member, .inr ⟨rfl, rfl⟩⟩

theorem mem_foundIds : id ∈ (s.findRelated reader tenantId createdAt maxPathDepth nodeId maxHops).map
    (fun pair => pair.2.id) ↔
    ∃ r ∈ s.related tenantId nodeId (min maxHops maxPathDepth), r.node.1 = id := by
  simp only [List.mem_map, mem_findRelated]
  constructor
  · rintro ⟨_, ⟨r, member, rfl⟩, rfl⟩
    exact ⟨r, member, rfl⟩
  · rintro ⟨r, member, rfl⟩
    exact ⟨_, ⟨r, member, rfl⟩, rfl⟩

theorem related_live (member : r ∈ s.related tenantId nodeId maxHops) : ∃ start depth,
    r ∈ s.joined tenantId start depth := by
  obtain ⟨k, _, here⟩ := (Lib.mem_recursive_iff_iterate _ _).mp member
  obtain ⟨_, ⟨start, arrived⟩, _⟩ := round_sound here
  exact ⟨start, k + 1, arrived⟩

/-- What is promised: each pair is a live edge with a live node at one of its ends, and the nodes other than
the start are those within so many hops. -/
structure FindsReachable (reader : JsonReader) (s : GraphStore) (tenantId : String) (maxPathDepth : Nat)
    (nodeId : String) (maxHops : Nat)
    (found : List (GraphEdge × GraphNode)) : Prop where
  pairs : ∀ pair ∈ found, (∃ row, s.tables.liveEdge pair.1.id = some row ∧ row.tenantId = tenantId ∧
    pair.1 = toEdge reader tenantId (pair.1.id, row)) ∧
    (pair.2.id = pair.1.sourceId ∨ pair.2.id = pair.1.targetId) ∧ ∃ row, s.ownNode tenantId pair.2.id = some row ∧
      pair.2 = toNode reader tenantId pair.2.id row
  ids : ∀ id, id ≠ nodeId → (id ∈ found.map (fun pair => pair.2.id) ↔ s.nodeExists id tenantId = true ∧
    1 ≤ (s.liveGraph tenantId nodeId).edist nodeId id ∧
      (s.liveGraph tenantId nodeId).edist nodeId id ≤ (min maxHops maxPathDepth : Nat))

theorem related_pairs (member : pair ∈ s.findRelated reader tenantId createdAt maxPathDepth nodeId maxHops) :
    (∃ row, s.tables.liveEdge pair.1.id = some row ∧ row.tenantId = tenantId ∧
      pair.1 = toEdge reader tenantId (pair.1.id, row)) ∧
      (pair.2.id = pair.1.sourceId ∨ pair.2.id = pair.1.targetId) ∧
      ∃ row, s.ownNode tenantId pair.2.id = some row ∧ pair.2 = toNode reader tenantId pair.2.id row := by
  obtain ⟨r, found, rfl⟩ := mem_findRelated.mp member
  obtain ⟨start, depth, arrived⟩ := related_live found
  obtain ⟨inside, at_node, other, own, _⟩ := mem_joined.mp arrived
  obtain ⟨live, tenant⟩ := mem_liveEdges.mp inside
  refine ⟨⟨_, live, tenant, rfl⟩, ?_, _, own, rfl⟩
  rcases other_ends at_node with ⟨_, target⟩ | ⟨source, _⟩
  · exact .inr (other.trans target.symm)
  · exact .inl (other.trans source.symm)

theorem related_exists (member : id ∈ (s.findRelated reader tenantId createdAt maxPathDepth nodeId maxHops).map
    (fun pair => pair.2.id)) :
    s.nodeExists id tenantId = true := by
  obtain ⟨pair, found, rfl⟩ := List.mem_map.mp member
  obtain ⟨_, _, row, own, _⟩ := related_pairs found
  exact ownNode_isSome.mp (isSome_iff_exists.mpr ⟨row, own⟩)

end GraphStore

open GraphStore

/-- The query finds what is within reach exactly if some depth is allowed, or there is nothing next to the start. -/
theorem finds_reachable_iff (reader : JsonReader) (s : GraphStore) (tenantId : String)
    (createdAt : String → String) (maxPathDepth : Nat) (nodeId : String) (maxHops : Nat) (some : 1 ≤ maxHops) :
    FindsReachable reader s tenantId maxPathDepth nodeId maxHops
      (s.findRelated reader tenantId createdAt maxPathDepth nodeId maxHops) ↔
      1 ≤ maxPathDepth ∨ ∀ id, ¬ (s.liveGraph tenantId nodeId).Adj nodeId id := by
  constructor
  · intro finds
    by_contra refused
    obtain ⟨none, neighbours⟩ := not_or.mp refused
    obtain ⟨id, adjacent⟩ := not_forall_not.mp neighbours
    have apart : id ≠ nodeId := adjacent.ne'
    have near := SimpleGraph.edist_eq_one_iff_adj.mpr adjacent
    have row := (mem_related_ids apart).mpr
        (near.le.trans (show (1 : ℕ∞) ≤
        (max 1 (min maxHops maxPathDepth) : Nat) by exact_mod_cast Nat.le_max_left 1 _))
    have within := ((finds.ids id apart).mp (mem_foundIds.mpr row)).2.2
    rw [near] at within
    have : 1 ≤ min maxHops maxPathDepth := by exact_mod_cast within
    omega
  · intro either
    refine ⟨fun pair member => related_pairs member, fun id apart => ?_⟩
    have far : 1 ≤ (s.liveGraph tenantId nodeId).edist nodeId id :=
      Order.one_le_iff_pos.mpr (SimpleGraph.edist_pos_of_ne apart.symm)
    constructor
    · intro found
      refine ⟨related_exists found, far, ?_⟩
      have near := (mem_related_ids apart).mp (mem_foundIds.mp found)
      rcases either with deep | alone
      · rwa [Nat.max_eq_right (by omega)] at near
      · obtain ⟨walk⟩ := SimpleGraph.reachable_of_edist_ne_top (ne_top_of_le_ne_top (ENat.natCast_ne_top _) near)
        cases walk with
        | nil => exact absurd rfl apart
        | cons first _ => exact absurd first (alone _)
    · rintro ⟨_, _, near⟩
      exact mem_foundIds.mpr ((mem_related_ids apart).mpr (near.trans (by exact_mod_cast Nat.le_max_right 1 _)))

theorem finds_reachable_iff_sample : FindsReachable sampleReader oneEdgeStores.duckDb "t1" 10 "b" 2
      (oneEdgeStores.duckDb.findRelated sampleReader "t1" (fun _ => "") 10 "b" 2) :=
  (finds_reachable_iff sampleReader oneEdgeStores.duckDb "t1" (fun _ => "") 10 "b" 2 (by decide)).mpr
    (.inl (by decide))

theorem finds_reachable_unguarded : ¬ ∀ (reader : JsonReader) (s : GraphStore) (tenantId : String)
    (createdAt : String → String) (maxPathDepth : Nat)
    (nodeId : String) (maxHops : Nat), 1 ≤ maxHops → FindsReachable reader s tenantId maxPathDepth nodeId maxHops
        (s.findRelated reader tenantId createdAt maxPathDepth nodeId maxHops) := by
  intro all
  have finds := all sampleReader oneEdgeStores.duckDb "t1" (fun _ => "") 0 "a" 1 (Nat.le_refl 1)
  have found : "b" ∈ (oneEdgeStores.duckDb.findRelated sampleReader "t1" (fun _ => "") 0 "a" 1).map
      (fun pair => pair.2.id) := by decide +kernel
  obtain ⟨_, far, near⟩ := (finds.ids "b" (by decide)).mp found
  exact absurd (far.trans near) (by decide)

end Aeterna.Graph
