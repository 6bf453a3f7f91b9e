import Aeterna.Lib.JsonValue
import Aeterna.Lib.Numbered
import Aeterna.Lib.Table

/-!
The database of a device (`packages/opencode-plugin/src/local/manager.ts`): its own memories next to copies of those
that it pulled, and the queue of changes that are yet to be pushed.
-/

namespace Aeterna.Device
open Lib Table

inductive Ownership where
  | own | cached
  deriving DecidableEq, Repr

inductive SyncOperation where
  | upsert | delete
  deriving DecidableEq, Repr

structure MemoryRow where
  (content layer : String)
  ownership : Ownership
  embedding : Option (List Float32) := none
  tags : Option (List String)
  metadata : Option JsonValue
  importanceScore : Float
  (createdAt updatedAt : Int)
  syncedAt : Option Int := none
  deletedAt : Option Int := none

structure SyncQueueRow where
  memoryId : String
  operation : SyncOperation
  queuedAt : Int

structure SyncCursor where
  cursor : String
  updatedAt : Int

structure LocalDb where
  memories : Table String MemoryRow := {}
  syncQueue : NumberedRows SyncQueueRow := {}
  syncCursors : Table (String × String) SyncCursor := {}

structure LocalConfig where
  maxCachedEntries : Int := 50000
  sessionStorageTtlHours : Int := 24

def localLayers : List String := ["agent", "user", "session"]

structure LocalMemoryAddParams where
  content : String
  layer : Option String := none
  tags : Option (List String) := none
  metadata : Option JsonValue := none
  importance : Option Float := none
  embedding : Option (List Float32) := none

structure LocalMemoryUpdateParams where
  content : Option String := none
  tags : Option (List String) := none
  importance : Option Float := none
  metadata : Option JsonValue := none
  embedding : Option (List Float32) := none

structure CachedMemoryUpsertParams where
  (id content layer : String)
  embedding : Option (List Float32) := none
  tags : Option (List String) := none
  metadata : Option JsonValue := none
  importance : Option Float := none
  updatedAt : String
  createdAt : Option String := none

namespace LocalDb

def enqueueSync (id : String) (operation : SyncOperation) (queuedAt : Int) (db : LocalDb) : LocalDb :=
  { db with syncQueue := db.syncQueue.push ⟨id, operation, queuedAt⟩ }

def add (now : Int) (id : String) (params : LocalMemoryAddParams) (db : LocalDb) : Except String LocalDb :=
  let layer := params.layer.getD "session"
  if layer ∉ localLayers then .error ("Layer " ++ layer ++ " is not local-owned")
  else if absent : db.memories.get id = none then
    let row : MemoryRow :=
      { content := params.content, layer, ownership := .own, embedding := params.embedding,
        tags := some (params.tags.getD []), metadata := params.metadata, importanceScore := params.importance.getD 0,
        createdAt := now, updatedAt := now }
    .ok ({ db with memories := db.memories.insert id row absent }.enqueueSync id .upsert now)
  else .error "UNIQUE constraint failed: memories.id"

def fetchLocalRowById (id : String) (db : LocalDb) : Option MemoryRow :=
  (db.memories.get id).filter (fun row => row.ownership = .own ∧ row.deletedAt = none)

def updateLocal (id : String) (set : MemoryRow → MemoryRow) (db : LocalDb) : LocalDb :=
  { db with
    memories := db.memories.update (fun key row =>
      if key = id ∧ row.ownership = .own ∧ row.deletedAt = none then set row else row) }

def update (now : Int) (id : String) (params : LocalMemoryUpdateParams) (db : LocalDb) : Except String LocalDb :=
  match db.fetchLocalRowById id with
  | none => .error ("Memory not found: " ++ id)
  | some existing =>
    let nextTags := params.tags.or existing.tags
    let nextMetadata := params.metadata.or existing.metadata
    let nextEmbedding := params.embedding.or existing.embedding
    let nextContent := params.content.getD existing.content
    let nextImportance := params.importance.getD existing.importanceScore
    .ok ((db.updateLocal id (fun row =>
      { row with
        content := nextContent, tags := nextTags, metadata := nextMetadata, embedding := nextEmbedding,
        importanceScore := nextImportance, updatedAt := now })).enqueueSync id .upsert now)

def delete (now : Int) (id : String) (db : LocalDb) : LocalDb :=
  match db.fetchLocalRowById id with
  | none => db
  | some _ =>
    (db.updateLocal id (fun row => { row with deletedAt := some now, updatedAt := now })).enqueueSync id .delete now

/-- `upsertCached`: `INSERT OR REPLACE`, whatever the row under the id is. `dateParse` is `Date.parse`. -/
def upsertCached (dateParse : String → Option Int) (now : Int) (params : CachedMemoryUpsertParams) (db : LocalDb) :
    LocalDb :=
  let updatedAt := dateParse params.updatedAt
  let createdAt := (params.createdAt.filter (· ≠ "")).elim updatedAt dateParse
  let row : MemoryRow :=
    { content := params.content, layer := params.layer, ownership := .cached, embedding := params.embedding,
      tags := some (params.tags.getD []), metadata := params.metadata, importanceScore := params.importance.getD 0,
      createdAt := createdAt.getD now, updatedAt := updatedAt.getD now, syncedAt := some now }
  { db with memories := (db.memories.keepOnly (fun key _ => key ≠ params.id)).insertOrIgnore params.id row }

def cachedRows (db : LocalDb) : List (String × MemoryRow) :=
  (db.memories.rows.filter (fun e => e.2.ownership = .cached)).mergeSort
    (fun a b => a.2.syncedAt.getD 0 ≤ b.2.syncedAt.getD 0)

def evictOldCached (config : LocalConfig) (db : LocalDb) : LocalDb :=
  let currentCached := db.cachedRows.length
  if currentCached ≤ config.maxCachedEntries then db
  else
    let toDelete := currentCached - config.maxCachedEntries
    let victims := (db.cachedRows.take toDelete.toNat).map Prod.fst
    { db with memories := db.memories.keepOnly (fun key _ => key ∉ victims) }

def expireSessionMemories (config : LocalConfig) (now : Int) (db : LocalDb) : LocalDb :=
  let cutoff := now - config.sessionStorageTtlHours * 3600 * 1000
  let expired := (db.memories.rows.filter
    (fun e => e.2.ownership = .own ∧ e.2.layer = "session" ∧ e.2.createdAt < cutoff)).map Prod.fst
  { db with
    syncQueue := db.syncQueue.keepOnly (fun _ row => row.memoryId ∉ expired)
    memories := db.memories.keepOnly (fun key _ => key ∉ expired) }

def updateEmbedding (now : Int) (id : String) (embedding : List Float32) (db : LocalDb) : LocalDb :=
  { db with
    memories := db.memories.update (fun key row =>
      if key = id ∧ row.deletedAt = none then { row with embedding := some embedding, updatedAt := now } else row) }

def listSyncQueue (limit : Nat) (db : LocalDb) : List (Nat × SyncQueueRow) :=
  (db.syncQueue.rows.mergeSort (fun a b => a.2.queuedAt ≤ b.2.queuedAt)).take limit

def removeSyncQueueItems (queueIds : List Nat) (db : LocalDb) : LocalDb :=
  { db with syncQueue := db.syncQueue.keepOnly (fun id _ => id ∉ queueIds) }

def setSyncCursor (serverUrl direction cursor : String) (updatedAt : Int) (db : LocalDb) : LocalDb :=
  { db with
    syncCursors := db.syncCursors.upsert (serverUrl, direction) ⟨cursor, updatedAt⟩ (fun _ => ⟨cursor, updatedAt⟩) }

def Queued (db : LocalDb) (id : String) : Prop := ∃ e ∈ db.syncQueue.rows, e.2.memoryId = id

variable {db db' : LocalDb} {now : Int} {id key : String} {row : MemoryRow}

theorem fetchLocalRowById_eq_some : db.fetchLocalRowById id = some row ↔
    db.memories.get id = some row ∧ row.ownership = .own ∧ row.deletedAt = none := by
  simp [fetchLocalRowById, Option.filter_eq_some_iff]

structure Edits (db : LocalDb) (id : String) (db' : LocalDb) : Prop where
  own : ∃ row, db'.memories.get id = some row ∧ row.ownership = .own
  other : ∀ key, key ≠ id → db'.memories.get key = db.memories.get key
  queued : ∃ row, row.memoryId = id ∧ db'.syncQueue = db.syncQueue.push row

theorem add_edits {params : LocalMemoryAddParams} (added : db.add now id params = .ok db') : db.Edits id db' := by
  unfold add at added
  dsimp only at added
  by_cases layer : params.layer.getD "session" ∉ localLayers
  · rw [if_pos layer] at added
    cases added
  · rw [if_neg layer] at added
    by_cases absent : db.memories.get id = none
    · rw [dif_pos absent] at added
      cases added
      refine ⟨⟨_, (get_insert absent id).trans (if_pos rfl), rfl⟩, ?_, ⟨_, rfl, rfl⟩⟩
      exact fun key apart => (get_insert absent key).trans (if_neg apart)
    · rw [dif_neg absent] at added
      cases added

variable {set : MemoryRow → MemoryRow} {config : LocalConfig}

theorem updateLocal_get (found : db.fetchLocalRowById id = some row) :
    (db.updateLocal id set).memories.get key = if key = id then some (set row) else db.memories.get key := by
  obtain ⟨held, own, live⟩ := fetchLocalRowById_eq_some.mp found
  show (Table.update _ db.memories).get key = _
  rw [get_update]
  by_cases same : key = id
  · subst same
    simp [held, own, live]
  · simp [same]

theorem updateLocal_edits {operation : SyncOperation}
    (found : db.fetchLocalRowById id = some row) (own : (set row).ownership = .own) :
    db.Edits id ((db.updateLocal id set).enqueueSync id operation now) := by
  refine ⟨⟨set row, (updateLocal_get found).trans (if_pos rfl), own⟩, ?_, ⟨_, rfl, rfl⟩⟩
  exact fun key apart => (updateLocal_get found).trans (if_neg apart)

theorem update_edits {params : LocalMemoryUpdateParams} (updated : db.update now id params = .ok db') :
    db.Edits id db' := by
  unfold update at updated
  split at updated
  · cases updated
  · rename_i existing found
    cases updated
    exact updateLocal_edits found (fetchLocalRowById_eq_some.mp found).2.1

theorem delete_edits (found : db.fetchLocalRowById id = some row) : db.Edits id (db.delete now id) := by
  unfold delete
  rw [found]
  exact updateLocal_edits found (fetchLocalRowById_eq_some.mp found).2.1

theorem upsertCached_get {dateParse : String → Option Int} {params : CachedMemoryUpsertParams}
    (apart : key ≠ params.id) :
    (db.upsertCached dateParse now params).memories.get key = db.memories.get key := by
  show (insertOrIgnore _ _ _).get key = _
  rw [get_insertOrIgnore, if_neg apart, get_keepOnly]
  cases db.memories.get key <;> simp [apart, Option.filter]

theorem evictOldCached_queue : (db.evictOldCached config).syncQueue = db.syncQueue := by
  unfold evictOldCached
  dsimp only
  split <;> rfl

theorem evictOldCached_get (held : db.memories.get id = some row) (own : row.ownership = .own) :
    (db.evictOldCached config).memories.get id = some row := by
  unfold evictOldCached
  dsimp only
  split
  · exact held
  · rw [get_keepOnly, held]
    have spared : id ∉ (db.cachedRows.take (db.cachedRows.length - config.maxCachedEntries).toNat).map Prod.fst := by
      intro victim
      obtain ⟨e, taken, rfl⟩ := List.mem_map.mp victim
      obtain ⟨member, cached⟩ := List.mem_filter.mp (List.mem_mergeSort.mp (List.mem_of_mem_take taken))
      rw [get_eq_some.mpr member] at held
      cases held
      simp [own] at cached
    simp only [Option.filter, spared, not_false_eq_true, decide_true, if_true]

theorem updateEmbedding_get {embedding : List Float32} : (db.updateEmbedding now id embedding).memories.get key =
    (db.memories.get key).map (fun row =>
      if key = id ∧ row.deletedAt = none then { row with embedding := some embedding, updatedAt := now } else row) :=
  get_update _ _ _

theorem expireSessionMemories_get (queued : (db.expireSessionMemories config now).Queued id) :
    (db.expireSessionMemories config now).memories.get id = db.memories.get id := by
  obtain ⟨e, member, rfl⟩ := queued
  obtain ⟨-, spared⟩ := NumberedRows.mem_keepOnly.mp member
  show (keepOnly _ db.memories).get e.2.memoryId = _
  rw [get_keepOnly]
  cases db.memories.get e.2.memoryId with
  | none => rfl
  | some row => simp only [Option.filter, spared, if_true]

theorem mem_listSyncQueue {e : Nat × SyncQueueRow} {limit : Nat} (listed : e ∈ db.listSyncQueue limit) :
    e ∈ db.syncQueue.rows :=
  List.mem_mergeSort.mp (List.mem_of_mem_take listed)

end LocalDb

end Aeterna.Device
