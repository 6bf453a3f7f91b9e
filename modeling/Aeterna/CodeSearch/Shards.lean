import Aeterna.Lib.Programs
import Aeterna.Lib.Runs
import Aeterna.Lib.Table
import Mathlib.Data.List.Sort

namespace Aeterna.CodeSearch
open Lib (CallFault Table Along Throughout run)
open Lib.CallFault Option List Lib.Table

inductive ShardStatus where
  | active | draining | offline | maintenance
  deriving DecidableEq

/-- Times are in milliseconds. -/
structure IndexerShard where
  (podName podIp : String)
  (capacity currentLoad : Int)
  status : ShardStatus
  (lastHeartbeat registeredAt : Int)

inductive ShardRoutingError where
  | noShardsAvailable
  | allShardsAtCapacity
  | databaseError (reason : String)
  | shardNotFound (shardId : String)
  deriving DecidableEq

/-- `codesearch_indexer_shards`, and the column `shard_id` of `codesearch_repositories`. -/
structure Shards where
  shards : Table String IndexerShard := {}
  repositories : Table String (Option String) := {}

structure ShardRouter where
  hashKey : String → Nat
  virtualNodes : Nat := 150

/-- The order in which a query without `ORDER BY` puts its rows: any. -/
structure RowOrder where
  shards : List (String × IndexerShard) → List (String × IndexerShard)
  ids : List String → List String
  shardsPerm : ∀ found, (shards found).Perm found
  idsPerm : ∀ found, (ids found).Perm found

/-- What may fail in `assign_shard`. A transaction that fails before its commit is rolled back. -/
structure AssignCall where
  now : Int
  order : RowOrder
  select : Option String := none
  start : Option String := none
  updateRepository : Option String := none
  updateShard : Option String := none
  commit : Option CallFault := none

/-- What may fail in `rebalance_from_shard`. -/
structure RebalanceCall where
  order : RowOrder
  select : Option String := none
  clear : String → Option CallFault := fun _ => none
  assign : String → AssignCall
  finish : Option CallFault := none

namespace Shards

def getActiveShards (now : Int) (w : Shards) : List (String × IndexerShard) :=
  w.shards.rows.filter (fun e => e.2.status = .active ∧ e.2.lastHeartbeat > now - 30000)

def assignedTo (shardId : String) (w : Shards) : List String :=
  (w.repositories.rows.filter (fun e => e.2 = some shardId)).map Prod.fst

def updateShard (shardId : String) (f : IndexerShard → IndexerShard) (w : Shards) : Shards :=
  { w with shards := w.shards.update (fun key shard => if key = shardId then f shard else shard) }

def setShardId (repoId : String) (shardId : Option String) (w : Shards) : Shards :=
  { w with repositories := w.repositories.update (fun key old => if key = repoId then shardId else old) }

/-- The transaction of `assign_shard`. -/
def place (repoId target : String) (w : Shards) : Shards :=
  (w.setShardId repoId (some target)).updateShard target
    (fun shard => { shard with currentLoad := shard.currentLoad + 1 })

def register (shardId podName podIp : String) (capacity now : Int) (w : Shards) : Shards :=
  { w with
    shards := w.shards.upsert shardId ⟨podName, podIp, capacity, 0, .active, now, now⟩
      (fun shard => { shard with podName, podIp, capacity, status := .active, lastHeartbeat := now }) }

def drain (shardId : String) (w : Shards) : Shards :=
  w.updateShard shardId (fun shard => { shard with status := .draining })

def setOffline (shardId : String) (w : Shards) : Shards :=
  w.updateShard shardId (fun shard => { shard with status := .offline, currentLoad := 0 })

end Shards

namespace ShardRouter
variable (router : ShardRouter)

def ring (shards : List (String × IndexerShard)) : List (Nat × String) :=
  (shards.flatMap (fun e =>
    if e.2.currentLoad ≥ e.2.capacity then []
    else (range router.virtualNodes).map
      (fun i => (router.hashKey (e.1 ++ ":" ++ toString i), e.1)))).insertionSort
      (fun a b => a.1 ≤ b.1)

def targetShard (call : AssignCall) (repoId : String) (w : Shards) : Except ShardRoutingError String :=
  let shards := call.order.shards (w.getActiveShards call.now)
  if shards.isEmpty then .error .noShardsAvailable
  else
    match router.ring shards with
    | [] => .error .allShardsAtCapacity
    | first :: rest => .ok (((first :: rest).find? (fun node => node.1 ≥ router.hashKey repoId)).getD first).2

def assignShard (call : AssignCall) (repoId : String) (w : Shards) : Except ShardRoutingError String × Shards :=
  match call.select with
  | some error => (.error (.databaseError error), w)
  | none =>
    match router.targetShard call repoId w with
    | .error error => (.error error, w)
    | .ok target =>
      match (call.start.or call.updateRepository).or call.updateShard with
      | some error => (.error (.databaseError error), w)
      | none =>
        let (answer, left) := settle target w (w.place repoId target) call.commit
        (answer.mapError .databaseError, left)

def migrate (call : RebalanceCall) : List String → Shards → Except ShardRoutingError Nat × Shards
  | [], w => (.ok 0, w)
  | repoId :: rest, w =>
    match settle () w (w.setShardId repoId none) (call.clear repoId) with
    | (.error error, left) => (.error (.databaseError error), left)
    | (.ok (), cleared) =>
      match router.assignShard (call.assign repoId) repoId cleared with
      | (.error error, left) => (.error error, left)
      | (.ok _, assigned) =>
        let (answer, left) := migrate call rest assigned
        (answer.map (· + 1), left)

def rebalanceFromShard (call : RebalanceCall) (drainingShardId : String) (w : Shards) :
    Except ShardRoutingError Nat × Shards :=
  match call.select with
  | some error => (.error (.databaseError error), w)
  | none =>
    match router.migrate call (call.order.ids (w.assignedTo drainingShardId)) w with
    | (.error error, left) => (.error error, left)
    | (.ok migrated, moved) =>
      let (answer, left) := settle migrated moved (moved.setOffline drainingShardId) call.finish
      (answer.mapError .databaseError, left)

end ShardRouter

inductive ShardCall where
  | registerShard (shardId podName podIp : String) (capacity now : Int) (fault : Option CallFault)
  | drainShard (shardId : String) (fault : Option CallFault)
  | assignShard (repoId : String) (call : AssignCall)
  | rebalanceFromShard (drainingShardId : String) (call : RebalanceCall)

def ShardRouter.after (router : ShardRouter) (w : Shards) : ShardCall → Shards
  | .registerShard shardId podName podIp capacity now fault =>
      (settle () w (w.register shardId podName podIp capacity now) fault).2
  | .drainShard shardId fault => (settle () w (w.drain shardId) fault).2
  | .assignShard repoId call => (router.assignShard call repoId w).2
  | .rebalanceFromShard drainingShardId call => (router.rebalanceFromShard call drainingShardId w).2

def ShardRouter.step (router : ShardRouter) (w : Shards) (call : ShardCall) : Option Shards :=
  some (router.after w call)

def LoadsMatch (w : Shards) : Prop :=
  ∀ shardId shard, w.shards.get shardId = some shard → shard.currentLoad = (w.assignedTo shardId).length

def Registered (w : Shards) : Prop :=
  ∀ repoId shardId, w.repositories.get repoId = some (some shardId) → (w.shards.get shardId).isSome

def ReassignsNothing (router : ShardRouter) (w : Shards) : ShardCall → Prop
  | .assignShard repoId call => ∀ shardId, w.repositories.get repoId = some (some shardId) →
      (router.assignShard call repoId w).2.repositories = w.repositories ∧
        ∀ other, ((router.assignShard call repoId w).2.shards.get other).map IndexerShard.currentLoad =
          (w.shards.get other).map IndexerShard.currentLoad
  | _ => True

def Places (router : ShardRouter) (call : AssignCall) (repoId target : String) (w : Shards) : Prop :=
  call.select = none ∧ router.targetShard call repoId w = .ok target ∧
    (call.start.or call.updateRepository).or call.updateShard = none ∧
    CarriedOut call.commit

def MovesAll (router : ShardRouter) (call : RebalanceCall) (drainingShardId : String) : List String → Shards → Prop
  | [], _ => True
  | repoId :: rest, w => call.clear repoId = none ∧ (call.assign repoId).commit = none ∧
      ∃ target, Places router (call.assign repoId) repoId target (w.setShardId repoId none) ∧
        target ≠ drainingShardId ∧
        MovesAll router call drainingShardId rest ((w.setShardId repoId none).place repoId target)

def ClearsNone (call : RebalanceCall) : List String → Prop
  | [] => True
  | repoId :: _ => ¬ CarriedOut (call.clear repoId)

/-- What a call must meet for the loads to stay right. -/
def KeepsLoads (router : ShardRouter) (w : Shards) : ShardCall → Prop
  | .registerShard .. => True
  | .drainShard .. => True
  | .assignShard repoId call => ∀ target, Places router call repoId target w → w.repositories.get repoId = some none
  | .rebalanceFromShard drainingShardId call => call.select = none →
      ClearsNone call (call.order.ids (w.assignedTo drainingShardId)) ∨
        (MovesAll router call drainingShardId (call.order.ids (w.assignedTo drainingShardId)) w ∧
          CarriedOut call.finish)

section
variable {w : Shards} {repoId shardId target draining : String}

theorem mem_assignedTo : repoId ∈ w.assignedTo shardId ↔ w.repositories.get repoId = some (some shardId) := by
  unfold Shards.assignedTo
  rw [List.mem_map, get_eq_some]
  constructor
  · rintro ⟨e, member, rfl⟩
    obtain ⟨inside, own⟩ := mem_filter.mp member
    have held : e.2 = some shardId := of_decide_eq_true own
    rw [← held]
    exact inside
  · intro inside
    exact ⟨_, mem_filter.mpr ⟨inside, decide_eq_true rfl⟩, rfl⟩

theorem length_assignedTo (w : Shards) (shardId : String) :
    (w.assignedTo shardId).length = w.repositories.total (fun held => if held = some shardId then 1 else 0) := by
  unfold Shards.assignedTo total
  rw [length_map]
  induction w.repositories.rows with
  | nil => rfl
  | cons e rest ih =>
    rw [map_cons, sum_cons, ← ih, filter_cons]
    by_cases own : e.2 = some shardId
    · simp [own, Nat.add_comm]
    · simp [own]

theorem length_setShardId {old : Option String} (held : w.repositories.get repoId = some old)
    (shard : Option String) (shardId : String) :
    ((w.setShardId repoId shard).assignedTo shardId).length + (if old = some shardId then 1 else 0) =
      (w.assignedTo shardId).length + (if shard = some shardId then 1 else 0) := by
  rw [length_assignedTo, length_assignedTo]
  have before := total_split (fun held => if held = some shardId then 1 else 0) w.repositories repoId
  have after : (w.setShardId repoId shard).repositories.total (fun held => if held = some shardId then 1 else 0) =
      _ :=
    total_update (fun held => if held = some shardId then 1 else 0) (fun _ => shard) w.repositories repoId
  rw [held] at before after
  simp only [map_some, getD_some, Function.comp_apply] at before after
  omega

@[simp] theorem get_setShardId (shard : Option String) (other : String) :
  (w.setShardId repoId shard).repositories.get other =
    if other = repoId then (w.repositories.get other).map (fun _ => shard) else w.repositories.get other := by
  show (w.repositories.update _).get other = _
  rw [get_update]
  split <;> simp [*]

@[simp] theorem get_updateShard (f : IndexerShard → IndexerShard) (other : String) :
  (w.updateShard shardId f).shards.get other =
    (w.shards.get other).map (fun shard => if other = shardId then f shard else shard) :=
  get_update _ _ _

def Exceeds (draining : String) (excess : Int) (w : Shards) : Prop :=
  ∀ shardId shard, w.shards.get shardId = some shard →
    shard.currentLoad = (w.assignedTo shardId).length + if shardId = draining then excess else 0

theorem exceeds_zero : Exceeds draining 0 w ↔ LoadsMatch w := by
  unfold Exceeds LoadsMatch
  simp

theorem Exceeds.place {excess : Int} (exceeds : Exceeds draining excess w)
    (unassigned : w.repositories.get repoId = some none) :
    Exceeds draining excess (w.place repoId target) := by
  intro shardId shard held
  have count : ((w.place repoId target).assignedTo shardId).length = (w.assignedTo shardId).length + if some target =
      some shardId then 1 else 0 :=
    length_setShardId unassigned (some target) shardId
  unfold Shards.place at held
  rw [get_updateShard] at held
  obtain ⟨before, found, rfl⟩ := map_eq_some_iff.mp held
  have load := exceeds shardId before found
  rw [count]
  by_cases here : shardId = target
  · subst here
    simp only [if_pos]
    push_cast
    omega
  · rw [if_neg here, if_neg (fun same => here (Option.some.inj same).symm)]
    exact load

theorem Exceeds.clear {excess : Int} (exceeds : Exceeds draining excess w)
    (assigned : w.repositories.get repoId = some (some draining)) :
    Exceeds draining (excess + 1) (w.setShardId repoId none) := by
  intro shardId shard held
  have count := length_setShardId assigned none shardId
  have load := exceeds shardId shard held
  by_cases here : shardId = draining
  · subst here
    simp only [if_pos] at count load ⊢
    simp at count
    omega
  · rw [if_neg (fun same => here (Option.some.inj same).symm)] at count
    rw [if_neg here] at load ⊢
    simp at count
    omega

theorem Shards.place_repositories (w : Shards) :
    (w.place repoId target).repositories = (w.setShardId repoId (some target)).repositories := rfl

theorem place_registered (other : String) :
    ((w.place repoId target).shards.get other).isSome = (w.shards.get other).isSome := by
  unfold Shards.place
  rw [get_updateShard, isSome_map]
  rfl

variable {router : ShardRouter}

theorem targetShard_registered {call : AssignCall} (found : router.targetShard call repoId w = .ok target) :
    (w.shards.get target).isSome := by
  unfold ShardRouter.targetShard at found
  dsimp only at found
  split at found
  · cases found
  · have nodes : ∀ node ∈ router.ring (call.order.shards (w.getActiveShards call.now)),
        (w.shards.get node.2).isSome := by
      intro node member
      obtain ⟨e, inside, here⟩ := mem_flatMap.mp ((mem_insertionSort _).mp member)
      have held : (w.shards.get e.1).isSome := by
        have row := mem_of_mem_filter ((call.order.shardsPerm _).mem_iff.mp inside)
        rw [get_eq_some.mpr row]
        rfl
      split at here
      · exact absurd here not_mem_nil
      · obtain ⟨i, _, rfl⟩ := List.mem_map.mp here
        exact held
    cases split : router.ring (call.order.shards (w.getActiveShards call.now)) with
    | nil =>
      rw [split] at found
      cases found
    | cons first rest =>
      rw [split] at found nodes
      cases found
      cases hit : (first :: rest).find? (fun node => node.1 ≥ router.hashKey repoId) with
      | none => exact nodes first mem_cons_self
      | some node => exact nodes node (mem_of_find?_eq_some hit)

theorem assignShard_cases (router : ShardRouter) (call : AssignCall) (repoId : String) (w : Shards) :
    (∃ target, Places router call repoId target w ∧ (router.assignShard call repoId w).2 = w.place repoId target ∧
        ((call.commit = none ∧ (router.assignShard call repoId w).1 = .ok target) ∨
          (call.commit ≠ none ∧ ∃ error, (router.assignShard call repoId w).1 = .error error))) ∨
      ((∀ target, ¬ Places router call repoId target w) ∧ (router.assignShard call repoId w).2 = w ∧
        ∃ error, (router.assignShard call repoId w).1 = .error error) := by
  unfold ShardRouter.assignShard Places
  cases select : call.select with
  | some error =>
    right
    exact ⟨fun _ placed => absurd placed.1 (some_ne_none _), rfl, _, rfl⟩
  | none =>
    cases found : router.targetShard call repoId w with
    | error error =>
      right
      exact ⟨fun _ placed => absurd placed.2.1 (by simp), rfl, _, rfl⟩
    | ok target =>
      cases transaction : (call.start.or call.updateRepository).or call.updateShard with
      | some error =>
        right
        exact ⟨fun _ placed => absurd placed.2.2.1 (some_ne_none _), rfl, _, rfl⟩
      | none =>
        cases commit : call.commit with
        | none =>
          left
          exact ⟨target, ⟨rfl, rfl, rfl, carriedOut_none⟩, rfl, .inl ⟨rfl, rfl⟩⟩
        | some fault =>
          cases fault with
          | refused error =>
            right
            exact ⟨fun _ placed => placed.2.2.2 error rfl, rfl, _, rfl⟩
          | unanswered error =>
            left
            exact ⟨target, ⟨rfl, rfl, rfl, carriedOut_unanswered error⟩, rfl,
              .inr ⟨some_ne_none _, _, rfl⟩⟩

theorem Registered.setShardId_none (registered : Registered w) : Registered (w.setShardId repoId none) := by
  intro other shardId held
  rw [get_setShardId] at held
  split at held
  · obtain ⟨_, _, absent⟩ := map_eq_some_iff.mp held
    cases absent
  · exact registered other shardId held

theorem Registered.place (registered : Registered w) (present : (w.shards.get target).isSome) :
    Registered (w.place repoId target) := by
  intro other shardId held
  rw [place_registered]
  rw [Shards.place_repositories, get_setShardId] at held
  split at held
  · obtain ⟨_, _, same⟩ := map_eq_some_iff.mp held
    cases same
    exact present
  · exact registered other shardId held

theorem Registered.assignShard (registered : Registered w) (call : AssignCall) (repoId : String) :
    Registered (router.assignShard call repoId w).2 := by
  rcases assignShard_cases router call repoId w with ⟨target, placed, left, _⟩ | ⟨_, left, _⟩
  · rw [left]
    exact registered.place (targetShard_registered placed.2.1)
  · rw [left]
    exact registered

section
variable {call : RebalanceCall}

theorem migrate_cons (router : ShardRouter) (call : RebalanceCall) (repoId : String) (rest : List String)
    (w : Shards) :
    (¬ CarriedOut (call.clear repoId) ∧ (router.migrate call (repoId :: rest) w).2 = w ∧
        ∃ error, (router.migrate call (repoId :: rest) w).1 = .error error) ∨
      (CarriedOut (call.clear repoId) ∧
        (call.clear repoId = none → ∀ target, ¬ Places router (call.assign repoId) repoId target
          (w.setShardId repoId none)) ∧
        (router.migrate call (repoId :: rest) w).2 = w.setShardId repoId none ∧
        ∃ error, (router.migrate call (repoId :: rest) w).1 = .error error) ∨
      (∃ target, call.clear repoId = none ∧ Places router (call.assign repoId) repoId target
        (w.setShardId repoId none) ∧
        (((call.assign repoId).commit ≠ none ∧ (router.migrate call (repoId :: rest) w).2 =
          (w.setShardId repoId none).place repoId target ∧
            ∃ error, (router.migrate call (repoId :: rest) w).1 = .error error) ∨
          ((call.assign repoId).commit = none ∧ (router.migrate call (repoId :: rest) w).2 =
              (router.migrate call rest ((w.setShardId repoId none).place repoId target)).2 ∧
            (router.migrate call (repoId :: rest) w).1 =
              (router.migrate call rest ((w.setShardId repoId none).place repoId target)).1.map (· + 1)))) := by
  rw [ShardRouter.migrate]
  cases cleared : call.clear repoId with
  | some fault =>
    cases fault with
    | refused error =>
      left
      exact ⟨fun carried => carried error rfl, rfl, _, rfl⟩
    | unanswered error =>
      right
      left
      exact ⟨carriedOut_unanswered error, fun same => absurd same (some_ne_none _), rfl, _, rfl⟩
  | none =>
    right
    dsimp only [settle]
    have cases := assignShard_cases router (call.assign repoId) repoId (w.setShardId repoId none)
    cases assigned : router.assignShard (call.assign repoId) repoId (w.setShardId repoId none) with
    | mk answer left =>
      rw [assigned] at cases
      rcases cases with ⟨target, placed, rfl, ⟨commit, rfl⟩ | ⟨commit, error, rfl⟩⟩ | ⟨unplaced, rfl, error, rfl⟩
      · exact .inr ⟨target, rfl, placed, .inr ⟨commit, rfl, rfl⟩⟩
      · exact .inr ⟨target, rfl, placed, .inl ⟨commit, rfl, error, rfl⟩⟩
      · exact .inl ⟨carriedOut_none, fun _ => unplaced, rfl, error, rfl⟩

theorem map_ok {ε α β : Type} {f : α → β} {x : Except ε α} {b : β} (mapped : x.map f = .ok b) : ∃ a, x = .ok a ∧
    f a = b := by
  cases x with
  | error e => cases mapped
  | ok a => exact ⟨a, rfl, Except.ok.inj mapped⟩

variable {ids : List String}

theorem migrate_exceeds (nodup : ids.Nodup) {excess : Int}
    (assigned : ∀ id ∈ ids, w.repositories.get id = some (some draining)) (exceeds : Exceeds draining excess w) :
    ∃ cleared : Nat, Exceeds draining (excess + cleared) (router.migrate call ids w).2 ∧
      (cleared = 0 ↔ ClearsNone call ids) := by
  induction ids generalizing w excess with
  | nil => exact ⟨0, by simpa [ShardRouter.migrate] using exceeds, fun _ => trivial, fun _ => rfl⟩
  | cons repoId rest ih =>
    obtain ⟨fresh, nodup⟩ := nodup_cons.mp nodup
    have own := assigned repoId mem_cons_self
    have cleared := exceeds.clear own
    have clears : call.clear repoId = none → ¬ ClearsNone call (repoId :: rest) := by
      intro carried none
      apply none
      rw [carried]
      exact carriedOut_none
    rcases migrate_cons router call repoId rest w with ⟨stays, left, _⟩ | ⟨carried, _, left, _⟩ |
      ⟨target, carried, placed, ⟨_, left, _⟩ | ⟨_, left, _⟩⟩
    · rw [left]
      exact ⟨0, by simpa using exceeds, fun _ => stays, fun _ => rfl⟩
    · rw [left]
      exact ⟨1, by simpa using cleared, fun zero => absurd zero Nat.one_ne_zero, fun none => absurd carried none⟩
    · rw [left]
      have unassigned : (w.setShardId repoId none).repositories.get repoId = some none := by simp [own]
      exact ⟨1, by simpa using cleared.place unassigned, fun zero => absurd zero Nat.one_ne_zero,
        fun none => absurd none (clears carried)⟩
    · have unassigned : (w.setShardId repoId none).repositories.get repoId = some none := by simp [own]
      have later : ∀ id ∈ rest, ((w.setShardId repoId none).place repoId target).repositories.get id = some
          (some draining) := by
        intro id member
        have other : id ≠ repoId := fun same => fresh (same ▸ member)
        rw [Shards.place_repositories, get_setShardId, if_neg other, get_setShardId, if_neg other]
        exact assigned id (mem_cons_of_mem _ member)
      obtain ⟨more, after, _⟩ := ih nodup later (cleared.place unassigned)
      have sum : excess + 1 + (more : Int) = excess + ((more + 1 : Nat) : Int) := by omega
      rw [sum, ← left] at after
      exact ⟨more + 1, after, fun zero => absurd zero (Nat.succ_ne_zero more),
        fun none => absurd none (clears carried)⟩

theorem migrate_other {other : String} (absent : other ∉ ids) :
    (router.migrate call ids w).2.repositories.get other = w.repositories.get other := by
  induction ids generalizing w with
  | nil => rfl
  | cons repoId rest ih =>
    obtain ⟨apart, absent⟩ := not_or.mp (mem_cons.not.mp absent)
    have cleared : (w.setShardId repoId none).repositories.get other = w.repositories.get other :=
      by rw [get_setShardId, if_neg apart]
    have placed : ∀ target, ((w.setShardId repoId none).place repoId target).repositories.get other =
        w.repositories.get other := by
      intro target
      rw [Shards.place_repositories, get_setShardId, if_neg apart, cleared]
    rcases migrate_cons router call repoId rest w with ⟨_, left, _⟩ | ⟨_, _, left, _⟩ |
      ⟨target, _, _, ⟨_, left, _⟩ | ⟨_, left, _⟩⟩
    · rw [left]
    · rw [left, cleared]
    · rw [left, placed]
    · rw [left, ih absent, placed]

theorem Registered.migrate (registered : Registered w) (ids : List String) :
    Registered (router.migrate call ids w).2 := by
  induction ids generalizing w with
  | nil => exact registered
  | cons repoId rest ih =>
    have cleared : Registered (w.setShardId repoId none) := registered.setShardId_none
    rcases migrate_cons router call repoId rest w with ⟨_, left, _⟩ | ⟨_, _, left, _⟩ |
      ⟨target, _, placed, ⟨_, left, _⟩ | ⟨_, left, _⟩⟩
    · rw [left]
      exact registered
    · rw [left]
      exact cleared
    · rw [left]
      exact cleared.place (targetShard_registered placed.2.1)
    · rw [left]
      exact ih (cleared.place (targetShard_registered placed.2.1))

theorem migrate_registered (ids : List String) (shardId : String) :
    ((router.migrate call ids w).2.shards.get shardId).isSome = (w.shards.get shardId).isSome := by
  induction ids generalizing w with
  | nil => rfl
  | cons repoId rest ih =>
    rcases migrate_cons router call repoId rest w with ⟨_, left, _⟩ | ⟨_, _, left, _⟩ |
      ⟨target, _, _, ⟨_, left, _⟩ | ⟨_, left, _⟩⟩
    · rw [left]
    · rw [left]
      rfl
    · rw [left, place_registered]
      rfl
    · rw [left, ih, place_registered]
      rfl

theorem movesAll_iff (nodup : ids.Nodup) (known : ∀ id ∈ ids, (w.repositories.get id).isSome) :
    MovesAll router call draining ids w ↔ (∃ n, (router.migrate call ids w).1 = .ok n) ∧
      ∀ id ∈ ids, (router.migrate call ids w).2.repositories.get id ≠ some (some draining) := by
  induction ids generalizing w with
  | nil => exact ⟨fun _ => ⟨⟨0, rfl⟩, fun _ absent => absurd absent not_mem_nil⟩, fun _ => trivial⟩
  | cons repoId rest ih =>
    obtain ⟨fresh, nodup⟩ := nodup_cons.mp nodup
    have stopped : ∀ error, (router.migrate call (repoId :: rest) w).1 = .error error →
        ¬ ∃ n, (router.migrate call (repoId :: rest) w).1 = .ok n := by
      rintro error answer ⟨n, other⟩
      rw [answer] at other
      cases other
    unfold MovesAll
    rcases migrate_cons router call repoId rest w with ⟨stays, _, error, answer⟩ | ⟨_, unplaced, _, error, answer⟩ |
      ⟨target, carried, placed, ⟨commit, _, error, answer⟩ | ⟨commit, left, answer⟩⟩
    · refine iff_of_false (fun moves => stays ?_) (fun ended => stopped error answer ended.1)
      rw [moves.1]
      exact carriedOut_none
    · refine iff_of_false (fun moves => ?_) (fun ended => stopped error answer ended.1)
      obtain ⟨cleared, _, target, placed, _⟩ := moves
      exact unplaced cleared target placed
    · exact iff_of_false (fun moves => commit moves.2.1) (fun ended => stopped error answer ended.1)
    · obtain ⟨old, held⟩ := isSome_iff_exists.mp (known repoId mem_cons_self)
      have here : ((w.setShardId repoId none).place repoId target).repositories.get repoId = some (some target) := by
        rw [Shards.place_repositories, get_setShardId, if_pos rfl, get_setShardId, if_pos rfl, held]
        rfl
      have later : ∀ id ∈ rest, (((w.setShardId repoId none).place repoId target).repositories.get id).isSome := by
        intro id member
        have other : id ≠ repoId := fun same => fresh (same ▸ member)
        rw [Shards.place_repositories, get_setShardId, if_neg other, get_setShardId, if_neg other]
        exact known id (mem_cons_of_mem _ member)
      have next := ih nodup later
      have final : (router.migrate call (repoId :: rest) w).2.repositories.get repoId = some (some target) := by
        rw [left, migrate_other fresh, here]
      have ends : (∃ n, (router.migrate call (repoId :: rest) w).1 = .ok n) ↔
          ∃ n, (router.migrate call rest ((w.setShardId repoId none).place repoId target)).1 = .ok n := by
        rw [answer]
        constructor
        · rintro ⟨n, mapped⟩
          obtain ⟨m, ended, _⟩ := map_ok mapped
          exact ⟨m, ended⟩
        · rintro ⟨m, ended⟩
          rw [ended]
          exact ⟨m + 1, rfl⟩
      rw [ends, forall_mem_cons, final, left]
      constructor
      · rintro ⟨_, _, other, there, apart, moves⟩
        obtain rfl : target = other := Except.ok.inj (placed.2.1.symm.trans there.2.1)
        obtain ⟨ended, away⟩ := next.mp moves
        exact ⟨ended, fun same => apart (Option.some.inj (Option.some.inj same)), away⟩
      · rintro ⟨ended, apart, away⟩
        exact ⟨carried, commit, target, placed, fun same => apart (by rw [same]), next.mpr ⟨ended, away⟩⟩

/-- What holds between the calls of a run with right loads. -/
structure Sound (w : Shards) : Prop where
  loads : LoadsMatch w
  registered : Registered w

theorem Exceeds.loads_iff {cleared : Nat} (exceeds : Exceeds draining cleared w)
    (present : (w.shards.get draining).isSome) :
    LoadsMatch w ↔ cleared = 0 := by
  constructor
  · intro loads
    obtain ⟨shard, held⟩ := isSome_iff_exists.mp present
    have load := exceeds draining shard held
    rw [loads draining shard held, if_pos rfl] at load
    omega
  · rintro rfl
    exact exceeds_zero.mp exceeds

theorem Exceeds.offline_iff {excess : Int} (exceeds : Exceeds draining excess w)
    (present : (w.shards.get draining).isSome) :
    LoadsMatch (w.setOffline draining) ↔ ∀ id, w.repositories.get id ≠ some (some draining) := by
  have same : ∀ shardId, (w.setOffline draining).assignedTo shardId = w.assignedTo shardId := fun _ => rfl
  constructor
  · intro loads id held
    obtain ⟨shard, found⟩ := isSome_iff_exists.mp present
    have load := loads draining { shard with status := .offline, currentLoad := 0 } (by
      unfold Shards.setOffline
      rw [get_updateShard, found, map_some, if_pos rfl])
    have some := length_pos_of_mem (mem_assignedTo.mpr held)
    rw [same] at load
    dsimp only at load
    omega
  · intro none shardId shard found
    unfold Shards.setOffline at found
    rw [get_updateShard] at found
    obtain ⟨before, held, rfl⟩ := map_eq_some_iff.mp found
    rw [same]
    by_cases here : shardId = draining
    · subst here
      have empty : w.assignedTo shardId = [] :=
        eq_nil_iff_forall_not_mem.mpr (fun id member => none id (mem_assignedTo.mp member))
      rw [if_pos rfl, empty]
      rfl
    · have load := exceeds shardId before held
      rw [if_neg here] at load ⊢
      omega

theorem setOffline_absent (absent : w.shards.get draining = none) (loads : LoadsMatch w) :
    LoadsMatch (w.setOffline draining) := by
  intro shardId shard found
  unfold Shards.setOffline at found
  rw [get_updateShard] at found
  obtain ⟨before, held, rfl⟩ := map_eq_some_iff.mp found
  have other : shardId ≠ draining := by
    rintro rfl
    rw [absent] at held
    cases held
  rw [if_neg other]
  exact loads shardId before held

theorem clears_of_ok (filled : ids ≠ []) {n : Nat} (ended : (router.migrate call ids w).1 = .ok n) :
    ¬ ClearsNone call ids := by
  obtain ⟨repoId, rest, rfl⟩ := exists_cons_of_ne_nil filled
  intro stays
  rcases migrate_cons router call repoId rest w with ⟨_, _, error, stopped⟩ | ⟨carried, _⟩ | ⟨_, carried, _⟩
  · rw [stopped] at ended
    cases ended
  · exact stays carried
  · apply stays
    rw [carried]
    exact carriedOut_none

theorem rebalance_loads_iff (sound : Sound w) (selected : call.select = none) :
    LoadsMatch (router.rebalanceFromShard call draining w).2 ↔
      ClearsNone call (call.order.ids (w.assignedTo draining)) ∨
      (MovesAll router call draining (call.order.ids (w.assignedTo draining)) w ∧ CarriedOut call.finish) := by
  have nodup : (call.order.ids (w.assignedTo draining)).Nodup :=
    (call.order.idsPerm _).nodup_iff.mpr (selected_unique w.repositories (fun e => e.2 = some draining))
  have assigned : ∀ id, id ∈ call.order.ids (w.assignedTo draining) ↔ w.repositories.get id = some (some draining) :=
    fun id => (call.order.idsPerm _).mem_iff.trans mem_assignedTo
  have present : call.order.ids (w.assignedTo draining) ≠ [] → (w.shards.get draining).isSome := by
    intro filled
    obtain ⟨id, rest, split⟩ := exists_cons_of_ne_nil filled
    exact sound.registered id draining ((assigned id).mp (by rw [split]; exact mem_cons_self))
  unfold ShardRouter.rebalanceFromShard
  rw [selected]
  dsimp only
  generalize call.order.ids (w.assignedTo draining) = ids at *
  have moves : MovesAll router call draining ids w ↔ (∃ n, (router.migrate call ids w).1 = .ok n) ∧
      ∀ id ∈ ids, (router.migrate call ids w).2.repositories.get id ≠ some (some draining) :=
    movesAll_iff nodup (fun id member => by rw [(assigned id).mp member]; rfl)
  have surplus : ∃ cleared : Nat, Exceeds draining (0 + cleared) (router.migrate call ids w).2 ∧
      (cleared = 0 ↔ ClearsNone call ids) :=
    migrate_exceeds nodup (fun id member => (assigned id).mp member) (exceeds_zero.mpr sound.loads)
  obtain ⟨cleared, exceeds, few⟩ := surplus
  rw [Int.zero_add] at exceeds
  have kept : ((router.migrate call ids w).2.shards.get draining).isSome = (w.shards.get draining).isSome :=
    migrate_registered ids draining
  have others : ∀ id, id ∉ ids → (router.migrate call ids w).2.repositories.get id ≠ some (some draining) := by
    intro id absent
    rw [migrate_other absent]
    exact fun held => absent ((assigned id).mpr held)
  cases moved : router.migrate call ids w with
  | mk answer left =>
    have clears : ids ≠ [] → ∀ n, (router.migrate call ids w).1 = .ok n → ¬ ClearsNone call ids :=
      fun filled _ ended => clears_of_ok filled ended
    rw [moved] at moves exceeds kept others clears
    dsimp only at moves exceeds kept others clears
    by_cases empty : ids = []
    · subst empty
      obtain ⟨rfl, rfl⟩ := Prod.mk.inj moved
      refine iff_of_true ?_ (.inl trivial)
      show LoadsMatch (settle 0 w (w.setOffline draining) call.finish).2
      apply settle_keeps sound.loads
      intro _
      cases found : w.shards.get draining with
      | none => exact setOffline_absent found sound.loads
      | some shard => exact (exceeds.offline_iff (by rw [found]; rfl)).mpr (fun id => others id not_mem_nil)
    · have there := kept.trans (present empty)
      cases answer with
      | error error =>
        have unmoved : ¬ MovesAll router call draining ids w := by
          intro all
          obtain ⟨_, ended⟩ := (moves.mp all).1
          cases ended
        rw [exceeds.loads_iff there, few]
        exact ⟨.inl, fun either => either.resolve_right (fun both => unmoved both.1)⟩
      | ok n =>
        have moves : MovesAll router call draining ids w ↔ ∀ id, left.repositories.get id ≠ some (some draining) := by
          rw [moves]
          constructor
          · rintro ⟨_, away⟩ id
            by_cases member : id ∈ ids
            · exact away id member
            · exact others id member
          · exact fun away => ⟨⟨n, rfl⟩, fun id _ => away id⟩
        have filled := clears empty n rfl
        show LoadsMatch (settle n left (left.setOffline draining) call.finish).2 ↔ _
        cases finish : call.finish with
        | none =>
          show LoadsMatch (left.setOffline draining) ↔ _
          rw [exceeds.offline_iff there, ← moves]
          exact ⟨fun all => .inr ⟨all, carriedOut_none⟩, fun either => (either.resolve_left filled).1⟩
        | some fault =>
          cases fault with
          | refused error =>
            show LoadsMatch left ↔ _
            rw [exceeds.loads_iff there, few]
            exact ⟨fun none => absurd none filled, fun either => either.resolve_right (fun both => both.2 error rfl)⟩
          | unanswered error =>
            show LoadsMatch (left.setOffline draining) ↔ _
            rw [exceeds.offline_iff there, ← moves]
            exact ⟨fun all => .inr ⟨all, carriedOut_unanswered error⟩, fun either =>
              (either.resolve_left filled).1⟩

theorem assign_loads_iff (sound : Sound w) (call : AssignCall) (repoId : String) :
    LoadsMatch (router.assignShard call repoId w).2 ↔ ∀ target, Places router call repoId target w →
      w.repositories.get repoId = some none := by
  rcases assignShard_cases router call repoId w with ⟨target, placed, left, _⟩ | ⟨unplaced, left, _⟩
  · rw [left]
    constructor
    · intro loads _ _
      obtain ⟨shard, found⟩ := isSome_iff_exists.mp (targetShard_registered placed.2.1)
      have after : (w.place repoId target).shards.get target =
          some { shard with currentLoad := shard.currentLoad + 1 } := by
        unfold Shards.place
        rw [get_updateShard]
        show (w.shards.get target).map _ = _
        rw [found, map_some, if_pos rfl]
      have raised : shard.currentLoad + 1 = ((w.setShardId repoId (some target)).assignedTo target).length :=
        loads target _ after
      have load := sound.loads target shard found
      cases held : w.repositories.get repoId with
      | none =>
        -- no row is updated, but the load is raised
        have count : ((w.setShardId repoId (some target)).assignedTo target).length =
            (w.assignedTo target).length := by
          have before := total_split (fun held => if held = some target then 1 else 0) w.repositories repoId
          have after : (w.setShardId repoId (some target)).repositories.total
              (fun held => if held = some target then 1 else 0) = _ :=
            total_update (fun held => if held = some target then 1 else 0)
              (fun _ => some target) w.repositories repoId
          rw [held] at before after
          rw [length_assignedTo, length_assignedTo, before, after]
          rfl
        omega
      | some old =>
        cases old with
        | none => rfl
        | some other =>
          by_cases same : other = target
          · subst same
            have count := length_setShardId held (some other) other
            omega
          · -- the shard that had it keeps its load
            obtain ⟨before, present⟩ := isSome_iff_exists.mp (sound.registered repoId other held)
            have unchanged : (w.place repoId target).shards.get other = some before := by
              unfold Shards.place
              rw [get_updateShard]
              show (w.shards.get other).map _ = _
              rw [present, map_some, if_neg same]
            have count := length_setShardId held (some target) other
            rw [if_pos rfl, if_neg (fun equal => same (Option.some.inj equal).symm)] at count
            have low : before.currentLoad = ((w.setShardId repoId (some target)).assignedTo other).length :=
              loads other before unchanged
            have high := sound.loads other before present
            omega
    · intro unassigned
      have balanced : Exceeds target 0 w := exceeds_zero.mpr sound.loads
      exact exceeds_zero.mp (balanced.place (unassigned target placed))
  · rw [left]
    exact iff_of_true sound.loads (fun target placed => absurd placed (unplaced target))

theorem Registered.register (registered : Registered w) {shardId podName podIp : String} {capacity now : Int} :
    Registered (w.register shardId podName podIp capacity now) := by
  intro repoId other held
  have present := registered repoId other held
  change ((w.shards.upsert _ _ _).get other).isSome
  rw [get_upsert]
  split
  · rfl
  · exact present

theorem Registered.drain (registered : Registered w) {shardId : String} : Registered (w.drain shardId) := by
  intro repoId other held
  unfold Shards.drain
  rw [get_updateShard, isSome_map]
  exact registered repoId other held

theorem Sound.register (sound : Sound w) (shardId podName podIp : String) (capacity now : Int) :
    Sound (w.register shardId podName podIp capacity now) := by
  constructor
  · intro other shard held
    have same : (w.register shardId podName podIp capacity now).assignedTo other = w.assignedTo other := rfl
    rw [same]
    change (w.shards.upsert _ _ _).get other = some shard at held
    rw [get_upsert] at held
    split at held
    · subst other
      cases found : w.shards.get shardId with
      | none =>
        -- nothing is assigned to a shard that is not there
        have empty : w.assignedTo shardId = [] := by
          apply eq_nil_iff_forall_not_mem.mpr
          intro id member
          have present := sound.registered id shardId (mem_assignedTo.mp member)
          rw [found] at present
          cases present
        rw [found] at held
        cases held
        rw [empty]
        rfl
      | some before =>
        rw [found] at held
        cases held
        exact sound.loads shardId before found
    · exact sound.loads other shard held
  · exact sound.registered.register

theorem Sound.drain (sound : Sound w) (shardId : String) : Sound (w.drain shardId) := by
  constructor
  · intro other shard held
    unfold Shards.drain at held
    rw [get_updateShard] at held
    obtain ⟨before, found, rfl⟩ := map_eq_some_iff.mp held
    have load := sound.loads other before found
    split <;> exact load
  · exact sound.registered.drain

theorem Registered.rebalance (registered : Registered w) :
    Registered (router.rebalanceFromShard call draining w).2 := by
  have moved : Registered (router.migrate call (call.order.ids (w.assignedTo draining)) w).2 := registered.migrate _
  unfold ShardRouter.rebalanceFromShard
  cases call.select with
  | some error => exact registered
  | none =>
    dsimp only
    cases result : router.migrate call (call.order.ids (w.assignedTo draining)) w with
    | mk answer left =>
      rw [result] at moved
      cases answer with
      | error error => exact moved
      | ok n =>
        show Registered (settle n left (left.setOffline draining) call.finish).2
        apply settle_keeps moved
        intro _ repoId shardId held
        unfold Shards.setOffline
        rw [get_updateShard, isSome_map]
        exact moved repoId shardId held

theorem loads_iff (sound : Sound w) (label : ShardCall) : LoadsMatch (router.after w label) ↔
    KeepsLoads router w label := by
  cases label with
  | registerShard shardId podName podIp capacity now fault =>
    exact iff_of_true (settle_keeps sound.loads
      (fun _ => (sound.register shardId podName podIp capacity now).loads)) trivial
  | drainShard shardId fault =>
    exact iff_of_true
      (settle_keeps sound.loads (fun _ => (sound.drain shardId).loads)) trivial
  | assignShard repoId call => exact assign_loads_iff sound call repoId
  | rebalanceFromShard drainingShardId call =>
    cases selected : call.select with
    | none => exact (rebalance_loads_iff sound selected).trans ⟨fun keeps _ => keeps, fun keeps => keeps selected⟩
    | some error =>
      refine iff_of_true ?_ (fun none => absurd (selected.symm.trans none) (some_ne_none _))
      show LoadsMatch (router.rebalanceFromShard call drainingShardId w).2
      unfold ShardRouter.rebalanceFromShard
      rw [selected]
      exact sound.loads

theorem Registered.after (registered : Registered w) (label : ShardCall) : Registered (router.after w label) := by
  cases label with
  | registerShard => exact settle_keeps registered (fun _ => registered.register)
  | drainShard => exact settle_keeps registered (fun _ => registered.drain)
  | assignShard repoId call => exact registered.assignShard call repoId
  | rebalanceFromShard => exact registered.rebalance

theorem registered_after (sound : Sound w) (label : ShardCall) : Registered (router.after w label) :=
  sound.registered.after label

def Assigned (repoId : String) (w : Shards) : Prop := ∃ shardId, w.repositories.get repoId = some (some shardId)

def Answers (router : ShardRouter) (w : Shards) : ShardCall → Prop
  | .rebalanceFromShard drainingShardId call => ∃ migrated,
      (router.rebalanceFromShard call drainingShardId w).1 = .ok migrated
  | _ => True

theorem Assigned.set (held : Assigned repoId w) (other target : String) :
    Assigned repoId (w.setShardId other (some target)) ∧
      Assigned repoId ((w.setShardId other none).setShardId other (some target)) := by
  obtain ⟨shardId, held⟩ := held
  by_cases same : repoId = other
  · subst same
    exact ⟨⟨target, by simp [held]⟩, target, by simp [held]⟩
  · exact ⟨⟨shardId, by simp [same, held]⟩, shardId, by simp [same, held]⟩

theorem Assigned.migrate {migrated : Nat} (held : Assigned repoId w)
    (answered : (router.migrate call ids w).1 = .ok migrated) : Assigned repoId (router.migrate call ids w).2 := by
  induction ids generalizing w migrated with
  | nil => exact held
  | cons other rest ih =>
    rcases migrate_cons router call other rest w with ⟨_, _, _, failed⟩ | ⟨_, _, _, _, failed⟩ |
      ⟨target, _, _, ⟨_, _, _, failed⟩ | ⟨_, left, answer⟩⟩
    · cases failed.symm.trans answered
    · cases failed.symm.trans answered
    · cases failed.symm.trans answered
    · obtain ⟨_, answered, -⟩ := map_ok (answer.symm.trans answered)
      rw [left]
      exact ih (held.set other target).2 answered

theorem KeepsLoads.reassigns {label : ShardCall} (keeps : KeepsLoads router w label) :
    ReassignsNothing router w label := by
  cases label with
  | assignShard repoId call =>
    intro shardId held
    rcases assignShard_cases router call repoId w with ⟨target, placed, _⟩ | ⟨_, left, _⟩
    · have unassigned := keeps target placed
      rw [held] at unassigned
      cases unassigned
    · rw [left]
      exact ⟨rfl, fun _ => rfl⟩
  | registerShard => trivial
  | drainShard => trivial
  | rebalanceFromShard => trivial

end

end

/-- The loads are right throughout a run, and what is assigned is not assigned again, exactly if each call of
it keeps the loads. -/
theorem shard_loads_iff (router : ShardRouter) (w : Shards) (calls : List ShardCall) (sound : Sound w) :
    (Throughout router.step LoadsMatch w calls ∧ Along router.step (ReassignsNothing router) w calls) ↔
      Along router.step (KeepsLoads router) w calls := by
  have ran : run router.step w calls = some (calls.foldl router.after w) := Lib.run_total
  have kept : Throughout router.step LoadsMatch w calls ↔ Along router.step (KeepsLoads router) w calls := by
    refine Lib.throughout_iff (J := Sound) Sound.loads ?_ ?_ sound ran
    · rintro s label next sound keeps ⟨⟩
      exact ⟨(loads_iff sound label).mpr keeps, registered_after sound label⟩
    · rintro s label next sound ⟨⟩ loads
      exact (loads_iff sound label).mp loads
  rw [kept]
  exact ⟨And.left, fun keeps => ⟨keeps, Lib.along_mono (fun _ _ => KeepsLoads.reassigns) keeps⟩⟩

/-- Whatever fails, and wherever, no repository is left with a shard that is not there. -/
theorem assignments_registered (router : ShardRouter) {w : Shards} (calls : List ShardCall)
    (registered : Registered w) : Registered (calls.foldl router.after w) := by
  induction calls generalizing w with
  | nil => exact registered
  | cons label rest ih => exact ih (registered.after label)

/-- No repository loses its shard while every rebalance comes to its end. -/
theorem assigned_kept (router : ShardRouter) {w : Shards} {calls : List ShardCall} {repoId : String}
    (held : Assigned repoId w)
    (answers : Along router.step (Answers router) w calls) : Assigned repoId (calls.foldl router.after w) := by
  induction calls generalizing w with
  | nil => exact held
  | cons label rest ih =>
    refine ih ?_ (answers.2 _ rfl)
    cases label with
    | registerShard => exact settle_keeps held (fun _ => held)
    | drainShard => exact settle_keeps held (fun _ => held)
    | assignShard other call =>
      show Assigned repoId (router.assignShard call other w).2
      rcases assignShard_cases router call other w with ⟨target, _, left, _⟩ | ⟨_, left, _⟩
      · rw [left]
        exact (held.set other target).1
      · rw [left]
        exact held
    | rebalanceFromShard draining call =>
      obtain ⟨migrated, answered⟩ := answers.1
      show Assigned repoId (router.rebalanceFromShard call draining w).2
      unfold ShardRouter.rebalanceFromShard at answered ⊢
      cases selected : call.select with
      | some error => exact held
      | none =>
        rw [selected] at answered
        dsimp only at answered ⊢
        cases result : router.migrate call (call.order.ids (w.assignedTo draining)) w with
        | mk answer left =>
          rw [result] at answered
          cases answer with
          | error error => cases answered
          | ok n =>
            have moved : Assigned repoId left := by simpa [result] using held.migrate (congrArg Prod.fst result)
            exact settle_keeps moved (fun _ => moved)

def tableOrder : RowOrder := ⟨fun found => found, fun found => found, List.Perm.refl, List.Perm.refl⟩

def sampleRouter : ShardRouter := ⟨fun _ => 0, 150⟩

def unassigned : Shards := { shards := .empty, repositories := insertOrIgnore "r1" none .empty }

def registerOne : ShardCall := .registerShard "s1" "pod-1" "10.0.0.1" 100 0 none

def assignOne : ShardCall := .assignShard "r1" { now := 1, order := tableOrder }

theorem unassigned_sound : Sound unassigned := by
  have nowhere : ∀ id shardId, unassigned.repositories.get id ≠ some (some shardId) := by
    intro id shardId held
    rw [show unassigned.repositories = insertOrIgnore "r1" none .empty from rfl,
      get_insertOrIgnore] at held
    split at held <;> cases held
  constructor
  · intro shardId shard held
    cases held
  · intro id shardId held
    exact absurd held (nowhere id shardId)

theorem shard_loads_iff_sample : Throughout sampleRouter.step LoadsMatch unassigned [registerOne, assignOne] ∧
    Along sampleRouter.step (ReassignsNothing sampleRouter) unassigned [registerOne, assignOne] := by
  apply (shard_loads_iff sampleRouter unassigned [registerOne, assignOne] unassigned_sound).mpr
  refine ⟨trivial, ?_⟩
  rintro next ⟨⟩
  exact ⟨fun _ _ => rfl, fun _ _ => trivial⟩

theorem assignOne_registered : Registered ([registerOne, assignOne].foldl sampleRouter.after unassigned) :=
  assignments_registered sampleRouter _ unassigned_sound.registered

theorem rebalanced_kept : Assigned "r1" ([.rebalanceFromShard "s1" { order := tableOrder, assign := fun _ =>
    { now := 1, order := tableOrder } }].foldl sampleRouter.after
      ([registerOne, assignOne].foldl sampleRouter.after unassigned)) := by
  refine assigned_kept sampleRouter ⟨"s1", by decide +kernel⟩ ⟨⟨1, ?_⟩, fun _ _ => trivial⟩
  decide +kernel

theorem assigned_twice : ¬ ∀ (router : ShardRouter) (w : Shards) (calls : List ShardCall), Sound w →
    Throughout router.step LoadsMatch w calls ∧ Along router.step (ReassignsNothing router) w calls := by
  intro all
  obtain ⟨loads, _⟩ := all sampleRouter unassigned [registerOne, assignOne, assignOne] unassigned_sound
  have final := loads [registerOne, assignOne, assignOne] [] _ rfl Lib.run_total
  have load : (([registerOne, assignOne,
      assignOne].foldl sampleRouter.after unassigned).shards.get "s1").map IndexerShard.currentLoad = some 2 := by
    decide +kernel
  have count : (([registerOne, assignOne, assignOne].foldl sampleRouter.after unassigned).assignedTo "s1").length =
      1 := by decide +kernel
  obtain ⟨shard, held, two⟩ := map_eq_some_iff.mp load
  have matched := final "s1" shard held
  rw [two, count] at matched
  exact absurd matched (by decide)

end Aeterna.CodeSearch
