import Aeterna.Device.Entries
import Aeterna.Device.Manager
import Aeterna.Lib.Runs

/-!
The engine that pushes the queue of a device (`packages/opencode-plugin/src/local/sync.ts`).
-/

namespace Aeterna.Device
open Lib

/-- `Date` of JavaScript, on milliseconds. -/
structure JsDate where
  toISOString : Int → String
  parse : String → Option Int

def sampleDate : JsDate where
  toISOString t := (deviceTimes.find? (fun known => known.2.toInt = t)).elim "" (·.1)
  parse s := (knownTimes.find? (fun known => known.1 = s)).map (·.2.toInt)

structure Pushed where
  queueId : Nat
  memoryId : String
  row : MemoryRow

/-- The entry that `getSyncMemorySnapshot` and `pushCycle` make of it. -/
def Pushed.entry (date : JsDate) (item : Pushed) : SyncPushEntry where
  id := item.memoryId
  content := item.row.content
  layer := item.row.layer
  tags := item.row.tags.getD []
  metadata := item.row.metadata
  importance := item.row.importanceScore
  createdAt := date.toISOString item.row.createdAt
  updatedAt := date.toISOString item.row.updatedAt
  deletedAt := item.row.deletedAt.map date.toISOString

structure SyncEngine where
  db : LocalDb := {}
  (deviceId serverUrl : String)
  consecutivePushFailures : Nat := 0
  nextPushAllowedAt : Int := 0
  serverConnectivity : Bool := false
  cycles : NumberedRows (List Pushed) := {}

namespace SyncEngine

def getBackoffDelayMs (failures : Nat) : Int :=
  if failures ≤ 1 then 30000
  else if failures = 2 then 60000
  else if failures = 3 then 120000
  else 300000

def snapshots (db : LocalDb) (queueItems : List (Nat × SyncQueueRow)) : List Pushed :=
  queueItems.filterMap (fun item => (db.memories.get item.2.memoryId).map (⟨item.1, item.2.memoryId, ·⟩))

def pushBegin (now : Int) (engine : SyncEngine) : SyncEngine :=
  if now < engine.nextPushAllowedAt then engine
  else
    let queueItems := engine.db.listSyncQueue 100
    if queueItems.isEmpty then
      { engine with serverConnectivity := true, consecutivePushFailures := 0, nextPushAllowedAt := 0 }
    else
      let items := snapshots engine.db queueItems
      if items.isEmpty then engine else { engine with cycles := engine.cycles.push items }

def answered (serverUrl : String) (now : Int) (response : SyncPushResponse) (items : List Pushed) (db : LocalDb) :
    LocalDb :=
  let marked := if response.cursor = "" then db else db.setSyncCursor serverUrl "push" response.cursor now
  let removed := marked.removeSyncQueueItems (items.map (·.queueId))
  (response.embeddings.filter (fun e => !e.2.isEmpty)).foldl (fun db e => db.updateEmbedding now e.1 e.2) removed

def pushDone (cycle : Nat) (now : Int) (response : SyncPushResponse) (engine : SyncEngine) : Option SyncEngine :=
  (engine.cycles.get cycle).map (fun items =>
    { engine with
      db := answered engine.serverUrl now response items engine.db
      serverConnectivity := true
      consecutivePushFailures := 0
      nextPushAllowedAt := 0
      cycles := engine.cycles.keepOnly (fun other _ => other ≠ cycle) })

def pushFailed (cycle : Nat) (now : Int) (engine : SyncEngine) : Option SyncEngine :=
  (engine.cycles.get cycle).map (fun _ =>
    { engine with
      serverConnectivity := false
      consecutivePushFailures := engine.consecutivePushFailures + 1
      nextPushAllowedAt := now + getBackoffDelayMs (engine.consecutivePushFailures + 1)
      cycles := engine.cycles.keepOnly (fun other _ => other ≠ cycle) })

end SyncEngine

/-- What can happen on a device. -/
inductive Act where
  | add (now : Int) (id : String) (params : LocalMemoryAddParams)
  | update (now : Int) (id : String) (params : LocalMemoryUpdateParams)
  | delete (now : Int) (id : String)
  | upsertCached (now : Int) (params : CachedMemoryUpsertParams)
  | evictOldCached
  | expireSessionMemories (now : Int)
  | updateEmbedding (now : Int) (id : String) (embedding : List Float32)
  | pushBegin (now : Int)
  | pushDone (cycle : Nat) (now : Int) (response : SyncPushResponse)
  | pushFailed (cycle : Nat) (now : Int)

namespace SyncEngine

/-- A call that throws leaves everything as it is. -/
def call (engine : SyncEngine) (result : Except String LocalDb) : SyncEngine :=
  match result with
  | .ok db => { engine with db }
  | .error _ => engine

def step (config : LocalConfig) (date : JsDate) (engine : SyncEngine) : Act → Option SyncEngine
  | .add now id params => some (engine.call (engine.db.add now id params))
  | .update now id params => some (engine.call (engine.db.update now id params))
  | .delete now id => some { engine with db := engine.db.delete now id }
  | .upsertCached now params => some { engine with db := engine.db.upsertCached date.parse now params }
  | .evictOldCached => some { engine with db := engine.db.evictOldCached config }
  | .expireSessionMemories now => some { engine with db := engine.db.expireSessionMemories config now }
  | .updateEmbedding now id embedding => some { engine with db := engine.db.updateEmbedding now id embedding }
  | .pushBegin now => some (engine.pushBegin now)
  | .pushDone cycle now response => engine.pushDone cycle now response
  | .pushFailed cycle now => engine.pushFailed cycle now

variable (engine : SyncEngine) (now : Int)

theorem pushBegin_db : (engine.pushBegin now).db = engine.db := by
  unfold pushBegin
  dsimp only
  split
  · rfl
  · split
    · rfl
    · split <;> rfl

theorem answered_queue {serverUrl : String} {now : Int} {response : SyncPushResponse} {items : List Pushed}
    {db : LocalDb} :
    (answered serverUrl now response items db).syncQueue =
      db.syncQueue.keepOnly (fun id _ => id ∉ items.map (·.queueId)) := by
  have embedded : ∀ (embeddings : List (String × List Float32)) (db : LocalDb),
      (embeddings.foldl (fun db e => db.updateEmbedding now e.1 e.2) db).syncQueue = db.syncQueue := by
    intro embeddings
    induction embeddings with
    | nil => exact fun _ => rfl
    | cons e rest ih => exact fun db => ih (db.updateEmbedding now e.1 e.2)
  refine (embedded _ _).trans ?_
  split <;> rfl

theorem pushBegin_cycles : ((engine.pushBegin now).cycles = engine.cycles ∧
      (engine.nextPushAllowedAt ≤ now → snapshots engine.db (engine.db.listSyncQueue 100) = [])) ∨
    (engine.pushBegin now).cycles = engine.cycles.push (snapshots engine.db (engine.db.listSyncQueue 100)) := by
  unfold pushBegin
  dsimp only
  split
  · exact Or.inl ⟨rfl, fun elapsed => by omega⟩
  · split
    · rename_i empty
      refine Or.inl ⟨rfl, fun _ => ?_⟩
      rw [List.isEmpty_iff.mp empty]
      rfl
    · split
      · rename_i empty
        exact Or.inl ⟨rfl, fun _ => List.isEmpty_iff.mp empty⟩
      · exact Or.inr rfl

end SyncEngine

end Aeterna.Device
