import Aeterna.CodeSearch.Shards
import Aeterna.Lib.HashRing

namespace Aeterna.CodeSearch
open List

/-- The shard is active, and its load is below its capacity. -/
def Shards.Available (now : Int) (w : Shards) (shardId : String) : Prop :=
  ∃ e ∈ w.getActiveShards now, e.1 = shardId ∧ e.2.currentLoad < e.2.capacity

namespace ShardRouter
variable (router : ShardRouter)

/-- No two shards of the ring have a point in common. -/
def CollisionFree (available : String → Prop) : Prop :=
  ∀ a b, available a → available b → ∀ i < router.virtualNodes, ∀ j < router.virtualNodes,
    router.hashKey (a ++ ":" ++ toString i) = router.hashKey (b ++ ":" ++ toString j) → a = b

def nodes (call : AssignCall) (w : Shards) : List (Nat × String) :=
  router.ring (call.order.shards (w.getActiveShards call.now))

variable {router} {call call' : AssignCall} {w fewer more : Shards} {shardId : String}

theorem mem_nodes {node : Nat × String} : node ∈ router.nodes call w ↔ w.Available call.now node.2 ∧
    ∃ i < router.virtualNodes, router.hashKey (node.2 ++ ":" ++ toString i) = node.1 := by
  unfold nodes ring Shards.Available
  rw [mem_insertionSort, mem_flatMap]
  simp only [(call.order.shardsPerm _).mem_iff]
  constructor
  · rintro ⟨e, member, inside⟩
    split at inside
    · cases inside
    · rename_i capacity
      obtain ⟨i, below, rfl⟩ := mem_map.mp inside
      exact ⟨⟨e, member, rfl, lt_of_not_ge capacity⟩, i, mem_range.mp below, rfl⟩
  · rintro ⟨⟨e, member, same, capacity⟩, i, below, point⟩
    refine ⟨e, member, ?_⟩
    rw [if_neg (not_le.mpr capacity)]
    apply mem_map.mpr
    refine ⟨i, mem_range.mpr below, ?_⟩
    rw [same, point]

theorem nodes_sorted (router : ShardRouter) (call : AssignCall) (w : Shards) : (router.nodes call w).Pairwise (fun a b => a.1 ≤ b.1) := by
  have total : Std.Total (fun a b : Nat × String => a.1 ≤ b.1) := ⟨fun a b => Nat.le_total a.1 b.1⟩
  have trans : IsTrans (Nat × String) (fun a b => a.1 ≤ b.1) := ⟨fun _ _ _ first second => first.trans second⟩
  exact pairwise_insertionSort _ _

theorem targetShard_successor (repoId : String) (filled : router.nodes call w ≠ []) :
    ∃ node, Lib.IsSuccessor (router.hashKey repoId) (router.nodes call w) node ∧
      router.targetShard call repoId w = .ok node.2 := by
  have sorted := nodes_sorted router call w
  unfold targetShard
  unfold nodes at filled sorted ⊢
  have active : (call.order.shards (w.getActiveShards call.now)).isEmpty = false := by
    by_contra none
    have empty := List.isEmpty_iff.mp (Bool.of_not_eq_false none)
    exact filled (by rw [empty]; rfl)
  dsimp only
  rw [active, if_neg Bool.false_ne_true]
  cases split : router.ring (call.order.shards (w.getActiveShards call.now)) with
  | nil => exact absurd split filled
  | cons first rest =>
    rw [split] at sorted
    exact ⟨_, Lib.isSuccessor_find sorted, rfl⟩

theorem nodes_ne_nil (positive : 0 < router.virtualNodes) (available : ∃ id, w.Available call.now id) :
    router.nodes call w ≠ [] := by
  obtain ⟨id, held⟩ := available
  have first : (router.hashKey (id ++ ":" ++ toString 0), id) ∈ router.nodes call w :=
    mem_nodes.mpr ⟨held, 0, positive, rfl⟩
  exact ne_nil_of_mem first

theorem targetShard_available (repoId : String) (positive : 0 < router.virtualNodes) (available : ∃ id, w.Available call.now id) :
    ∃ id, w.Available call.now id ∧ router.targetShard call repoId w = .ok id := by
  obtain ⟨node, successor, found⟩ := targetShard_successor repoId (nodes_ne_nil positive available)
  exact ⟨node.2, (mem_nodes.mp successor.1).1, found⟩

/-- With one shard more or less, a lookup changes only from or to that shard. -/
theorem ring_moves_little (positive : 0 < router.virtualNodes)
    (added : ∀ id, more.Available call'.now id ↔ fewer.Available call.now id ∨ id = shardId)
    (collisionFree : router.CollisionFree (more.Available call'.now)) (repoId : String) :
    (router.targetShard call' repoId more = .ok shardId ∨
      router.targetShard call' repoId more = router.targetShard call repoId fewer) ∧
    ∀ w call, (∃ id, w.Available call.now id) →
      ∃ id, w.Available call.now id ∧ router.targetShard call repoId w = .ok id := by
  refine ⟨?_, fun w call available => targetShard_available repoId positive available⟩
  obtain ⟨node, successor, found⟩ := targetShard_successor repoId
    (nodes_ne_nil positive ⟨shardId, (added shardId).mpr (Or.inr rfl)⟩)
  obtain ⟨held, i, below, point⟩ := mem_nodes.mp successor.1
  rcases (added node.2).mp held with old | new
  · right
    have subset : router.nodes call fewer ⊆ router.nodes call' more := by
      intro other inside
      obtain ⟨available, placed⟩ := mem_nodes.mp inside
      exact mem_nodes.mpr ⟨(added other.2).mpr (Or.inl available), placed⟩
    have kept := successor.among subset (mem_nodes.mpr ⟨old, i, below, point⟩)
    obtain ⟨before, first, lookup⟩ := targetShard_successor repoId (nodes_ne_nil positive ⟨node.2, old⟩)
    obtain ⟨available, j, within, place⟩ := mem_nodes.mp first.1
    have same : node.2 = before.2 := by
      apply collisionFree node.2 before.2 held ((added _).mpr (Or.inl available)) i below j within
      rw [point, place]
      exact kept.point first
    rw [found, lookup, same]
  · left
    rw [found, new]

end ShardRouter

def ringRouter : ShardRouter where
  hashKey key := key.toList.foldl (fun n c => 256 * n + c.toNat) 0
  virtualNodes := 2

def oneShard : Shards := Shards.register "a" "pod-a" "10.0.0.1" 100 0 {}

def twoShards : Shards := oneShard.register "b" "pod-b" "10.0.0.2" 100 0

def lookupCall : AssignCall := { now := 1, order := tableOrder }

theorem ring_moves_little_sample : ringRouter.targetShard lookupCall "r" twoShards = .ok "b" ∨
    ringRouter.targetShard lookupCall "r" twoShards = ringRouter.targetShard lookupCall "r" oneShard := by
  have one : ∀ id, oneShard.Available lookupCall.now id ↔ "a" = id := by
    intro id
    constructor
    · rintro ⟨e, member, named, _⟩
      cases mem_singleton.mp member
      exact named
    · exact fun named => ⟨_, mem_singleton_self _, named, by decide⟩
  have two : ∀ id, twoShards.Available lookupCall.now id ↔ "a" = id ∨ "b" = id := by
    intro id
    constructor
    · rintro ⟨e, member, named, _⟩
      rcases mem_pair.mp member with rfl | rfl
      · exact Or.inl named
      · exact Or.inr named
    · rintro (named | named)
      · exact ⟨_, mem_cons_self, named, by decide⟩
      · exact ⟨_, mem_cons_of_mem _ mem_cons_self, named, by decide⟩
  have added : ∀ id, twoShards.Available lookupCall.now id ↔ oneShard.Available lookupCall.now id ∨ id = "b" := by
    intro id
    rw [one, two, eq_comm (a := "b")]
  refine (ShardRouter.ring_moves_little (by decide) added ?_ "r").1
  intro a b heldA heldB i below j within same
  rcases (two a).mp heldA with rfl | rfl
  · rcases (two b).mp heldB with rfl | rfl
    · rfl
    · revert i j
      decide +kernel
  · rcases (two b).mp heldB with rfl | rfl
    · revert i j
      decide +kernel
    · rfl

end Aeterna.CodeSearch
