import Aeterna.Device.Engine

namespace Aeterna.Device
open Lib List LocalDb Option

namespace SyncEngine

def pushCycle (date : JsDate) (now : Int) (respond : SyncPushRequest → SyncPushResponse) (engine : SyncEngine) :
    SyncEngine :=
  let started := engine.pushBegin now
  let cycle := engine.cycles.next
  let entries := ((started.cycles.get cycle).getD []).map (·.entry date)
  (started.pushDone cycle now (respond ⟨entries, engine.deviceId⟩)).getD started

def pushCycles (date : JsDate) (clock : Nat → Int) (respond : Nat → SyncPushRequest → SyncPushResponse)
    (engine : SyncEngine) : Nat → SyncEngine
  | 0 => engine
  | n + 1 => (pushCycles date clock respond engine n).pushCycle date (clock n) (respond n)

variable {date : JsDate} {now : Int} {respond : SyncPushRequest → SyncPushResponse} {engine : SyncEngine}

theorem answered_get {serverUrl : String} {response : SyncPushResponse} {items : List Pushed} {db : LocalDb}
    (id : String) :
    ((answered serverUrl now response items db).memories.get id).isSome = (db.memories.get id).isSome := by
  have embedded : ∀ (embeddings : List (String × List Float32)) (db : LocalDb),
      ((embeddings.foldl (fun db e => db.updateEmbedding now e.1 e.2) db).memories.get id).isSome =
        (db.memories.get id).isSome := by
    intro embeddings
    induction embeddings with
    | nil => exact fun db => rfl
    | cons e rest ih =>
      intro db
      refine (ih (db.updateEmbedding now e.1 e.2)).trans ?_
      rw [updateEmbedding_get, isSome_map]
  refine (embedded _ _).trans ?_
  split <;> rfl

theorem pushCycle_queue (elapsed : engine.nextPushAllowedAt ≤ now) :
    (engine.pushCycle date now respond).db.syncQueue.rows = engine.db.syncQueue.rows.filter
        (fun e => e.1 ∉ (snapshots engine.db (engine.db.listSyncQueue 100)).map (·.queueId)) ∧
      ∀ id, ((engine.pushCycle date now respond).db.memories.get id).isSome = (engine.db.memories.get id).isSome := by
  unfold pushCycle
  dsimp only
  rcases pushBegin_cycles engine now with ⟨same, nothing⟩ | waits
  · have missing : engine.cycles.get engine.cycles.next = none := NumberedRows.get_next
    rw [pushDone, same, missing, nothing elapsed]
    dsimp only [map_none, getD_none]
    rw [pushBegin_db]
    exact ⟨(filter_eq_self.mpr (by simp)).symm, fun _ => rfl⟩
  · have found := NumberedRows.get_push (t := engine.cycles) (a := snapshots engine.db (engine.db.listSyncQueue 100))
    rw [pushDone, waits, found]
    dsimp only [map_some, getD_some]
    rw [pushBegin_db]
    exact ⟨congrArg NumberedRows.rows answered_queue, answered_get⟩

theorem mem_snapshots {db : LocalDb} {listed : List (Nat × SyncQueueRow)} {n : Nat} :
    n ∈ (snapshots db listed).map (·.queueId) ↔ ∃ row, (n, row) ∈ listed ∧ (db.memories.get row.memoryId).isSome := by
  constructor
  · intro member
    obtain ⟨item, found, rfl⟩ := List.mem_map.mp member
    obtain ⟨⟨id, row⟩, inside, made⟩ := mem_filterMap.mp found
    obtain ⟨m, held, rfl⟩ := map_eq_some_iff.mp made
    exact ⟨row, inside, by simp [held]⟩
  · rintro ⟨row, inside, present⟩
    obtain ⟨m, held⟩ := isSome_iff_exists.mp present
    exact List.mem_map.mpr ⟨⟨n, row.memoryId, m⟩, mem_filterMap.mpr ⟨(n, row), inside, by simp [held]⟩, rfl⟩

theorem pushCycle_orphan (elapsed : engine.nextPushAllowedAt ≤ now) {e : Nat × SyncQueueRow}
    (member : e ∈ engine.db.syncQueue.rows) (gone : (engine.db.memories.get e.2.memoryId).isSome = false) :
    e ∈ (engine.pushCycle date now respond).db.syncQueue.rows := by
  rw [(pushCycle_queue elapsed).1, mem_filter]
  refine ⟨member, ?_⟩
  rw [decide_eq_true_eq, mem_snapshots]
  rintro ⟨row, listed, present⟩
  have same : row = e.2 := NumberedRows.row_unique (mem_listSyncQueue listed) member
  rw [same, gone] at present
  cases present

theorem pushCycle_shortens (date : JsDate) (respond : SyncPushRequest → SyncPushResponse)
    (elapsed : engine.nextPushAllowedAt ≤ now) (waiting : engine.db.syncQueue.rows ≠ [])
    (present : ∀ e ∈ engine.db.syncQueue.rows, (engine.db.memories.get e.2.memoryId).isSome) :
    (engine.pushCycle date now respond).db.syncQueue.rows.length < engine.db.syncQueue.rows.length := by
  rw [(pushCycle_queue elapsed).1]
  apply length_filter_lt_length_iff_exists.mpr
  obtain ⟨e, rest, first⟩ : ∃ e rest, engine.db.listSyncQueue 100 = e :: rest := by
    apply exists_cons_of_ne_nil
    intro empty
    rw [listSyncQueue, take_eq_nil_iff] at empty
    rcases empty with never | empty
    · cases never
    · exact waiting (length_eq_zero_iff.mp (by rw [← length_mergeSort, empty]; rfl))
  have listed : e ∈ engine.db.listSyncQueue 100 := by rw [first]; exact mem_cons_self
  have member := mem_listSyncQueue listed
  refine ⟨e, member, ?_⟩
  simp only [decide_eq_true_eq, not_not]
  exact mem_snapshots.mpr ⟨e.2, listed, present e member⟩

variable {clock : Nat → Int} {responds : Nat → SyncPushRequest → SyncPushResponse}

section
variable (elapsed : ∀ n, (engine.pushCycles date clock responds n).nextPushAllowedAt ≤ clock n)
include elapsed

theorem pushCycles_get (n : Nat) (id : String) : ((engine.pushCycles date clock responds n).db.memories.get id).isSome =
      (engine.db.memories.get id).isSome := by
  induction n with
  | zero => rfl
  | succ n ih => exact ((pushCycle_queue (elapsed n)).2 id).trans ih

theorem orphan_stays {e : Nat × SyncQueueRow} (member : e ∈ engine.db.syncQueue.rows)
    (gone : (engine.db.memories.get e.2.memoryId).isSome = false) (n : Nat) :
    e ∈ (engine.pushCycles date clock responds n).db.syncQueue.rows := by
  induction n with
  | zero => exact member
  | succ n ih => exact pushCycle_orphan (elapsed n) ih (by rw [pushCycles_get elapsed]; exact gone)

end

/-- The queue empties if and only if the memory of each of its rows is there. -/
theorem queue_drains_iff (elapsed : ∀ n, (engine.pushCycles date clock responds n).nextPushAllowedAt ≤ clock n) :
    (∃ n, (engine.pushCycles date clock responds n).db.syncQueue.rows = []) ↔
      ∀ e ∈ engine.db.syncQueue.rows, (engine.db.memories.get e.2.memoryId).isSome := by
  constructor
  · rintro ⟨n, drained⟩ e member
    by_contra gone
    have left := orphan_stays elapsed member (by simpa using gone) n
    rw [drained] at left
    cases left
  · intro present
    by_contra waiting
    have kept : ∀ n, ∀ e ∈ (engine.pushCycles date clock responds n).db.syncQueue.rows,
        e ∈ engine.db.syncQueue.rows := by
      intro n
      induction n with
      | zero => exact fun _ member => member
      | succ n ih =>
        intro e member
        rw [pushCycles, (pushCycle_queue (elapsed n)).1] at member
        exact ih e (mem_of_mem_filter member)
    -- each cycle takes a row, so that there cannot be more cycles than rows
    have shrinks : ∀ n, (engine.pushCycles date clock responds n).db.syncQueue.rows.length + n ≤
        engine.db.syncQueue.rows.length := by
      intro n
      induction n with
      | zero => exact Nat.le_refl _
      | succ n ih =>
        have shorter := pushCycle_shortens date (responds n) (elapsed n)
          (fun empty => waiting ⟨n, empty⟩)
            (fun e member => by rw [pushCycles_get elapsed]; exact present e (kept n e member))
        rw [pushCycles]
        omega
    have most := shrinks (engine.db.syncQueue.rows.length + 1)
    omega

theorem pushCycles_elapsed (date : JsDate) (responds : Nat → SyncPushRequest → SyncPushResponse)
    (start : engine.nextPushAllowedAt = 0) (clocked : ∀ n, 0 ≤ clock n) (n : Nat) :
    (engine.pushCycles date clock responds n).nextPushAllowedAt ≤ clock n := by
  have begun : ∀ (engine : SyncEngine) (now : Int), engine.nextPushAllowedAt = 0 →
      (engine.pushBegin now).nextPushAllowedAt = 0 := by
    intro engine now start
    unfold pushBegin
    dsimp only
    split
    · exact start
    · split
      · rfl
      · split <;> exact start
  have zero : (engine.pushCycles date clock responds n).nextPushAllowedAt = 0 := by
    induction n with
    | zero => exact start
    | succ n ih =>
      show ((pushDone _ _ _ _).getD _).nextPushAllowedAt = 0
      unfold pushDone
      cases NumberedRows.get _ _ with
      | none => exact begun _ _ ih
      | some items => rfl
  rw [zero]
  exact clocked n

end SyncEngine

def noted : Act := .add 5 "note" { content := "draft" }

def echoed : Act :=
  .upsertCached 7 { id := "note", content := "final", layer := "team", updatedAt := "1970-01-01T00:00:00.005+00:00" }

def accepted : SyncPushRequest → SyncPushResponse := fun _ => ⟨"9", [], []⟩

theorem noted_drains : ∃ engine, run (SyncEngine.step {} sampleDate) { deviceId := "laptop", serverUrl := "" }
    [noted] =
      some engine ∧
    ((∃ n, (engine.pushCycles sampleDate (fun _ => 9) (fun _ => accepted) n).db.syncQueue.rows = []) ↔
      ∀ e ∈ engine.db.syncQueue.rows, (engine.db.memories.get e.2.memoryId).isSome) :=
  ⟨_, rfl, SyncEngine.queue_drains_iff (SyncEngine.pushCycles_elapsed _ _ rfl (fun _ => by decide))⟩

theorem evicted_single {db : LocalDb} {config : LocalConfig} {id : String} {row : MemoryRow}
    (single : db.memories.rows = [(id, row)]) (cached : row.ownership = .cached)
    (full : config.maxCachedEntries = 0) :
    (db.evictOldCached config).memories.get id = none := by
  have rows : db.cachedRows = [(id, row)] := by
    rw [cachedRows, single, filter_cons_of_pos (by simpa using cached)]
    exact mergeSort_singleton _
  unfold evictOldCached
  rw [rows, full]
  show (Table.keepOnly _ db.memories).get id = none
  rw [Table.get_keepOnly]
  cases db.memories.get id <;> simp [Option.filter]

/-- The device keeps no copies, so that the pulled row is evicted and its place in the queue is left. -/
theorem evicted_stays : ∃ engine, run (SyncEngine.step { maxCachedEntries := 0 } sampleDate)
      { deviceId := "laptop", serverUrl := "" } [noted, echoed, .evictOldCached] = some engine ∧
    (∀ n, (engine.pushCycles sampleDate (fun _ => 9) (fun _ => accepted) n).nextPushAllowedAt ≤ 9) ∧
    ¬ ∃ n, (engine.pushCycles sampleDate (fun _ => 9) (fun _ => accepted) n).db.syncQueue.rows = [] := by
  have never : ∀ {engine : SyncEngine} (e : Nat × SyncQueueRow), engine.nextPushAllowedAt = 0 →
      e ∈ engine.db.syncQueue.rows → (engine.db.memories.get e.2.memoryId).isSome = false →
      (∀ n, (engine.pushCycles sampleDate (fun _ => 9) (fun _ => accepted) n).nextPushAllowedAt ≤ 9) ∧
        ¬ ∃ n, (engine.pushCycles sampleDate (fun _ => 9) (fun _ => accepted) n).db.syncQueue.rows = [] := by
    intro engine e start member gone
    have elapsed := SyncEngine.pushCycles_elapsed sampleDate (fun _ => accepted) start
      (show ∀ _ : Nat, (0 : Int) ≤ 9 from fun _ => by decide)
    refine ⟨elapsed, ?_⟩
    rintro ⟨n, drained⟩
    have left := SyncEngine.orphan_stays elapsed member gone n
    rw [drained] at left
    cases left
  refine ⟨_, rfl, never (0, ⟨"note", .upsert, 5⟩) rfl ?_ ?_⟩
  · show _ ∈ (evictOldCached _ _).syncQueue.rows
    rw [evictOldCached_queue]
    exact mem_singleton.mpr rfl
  · rw [evicted_single rfl rfl rfl]
    rfl

end Aeterna.Device
