import Aeterna.Device.Engine

open Option

namespace Aeterna.Device
open Lib

def LocalDb.edited (db : LocalDb) : Act → Option String
  | .add now id params => (db.add now id params).toOption.map (fun _ => id)
  | .update now id params => (db.update now id params).toOption.map (fun _ => id)
  | .delete _ id => (db.fetchLocalRowById id).map (fun _ => id)
  | _ => none

structure MemoryRow.Shows (m row : MemoryRow) : Prop where
  own : m.ownership = .own
  content : m.content = row.content
  tags : m.tags = row.tags
  metadata : m.metadata = row.metadata
  importanceScore : m.importanceScore = row.importanceScore
  deletedAt : m.deletedAt = row.deletedAt

namespace MemoryRow.Shows
variable {m m' row : MemoryRow}

theorem refl (own : m.ownership = .own) : m.Shows m := ⟨own, rfl, rfl, rfl, rfl, rfl⟩

theorem trans (later : m'.Shows m) (before : m.Shows row) : m'.Shows row :=
  ⟨later.own, later.content.trans before.content, later.tags.trans before.tags, later.metadata.trans before.metadata,
    later.importanceScore.trans before.importanceScore, later.deletedAt.trans before.deletedAt⟩

end MemoryRow.Shows

structure LocalDb.Spared (db db' : LocalDb) : Prop where
  next : db'.syncQueue.next = db.syncQueue.next
  rows : db'.syncQueue.rows ⊆ db.syncQueue.rows
  shows : ∀ id m, db'.Queued id → db.memories.get id = some m → m.ownership = .own →
    ∃ m', db'.memories.get id = some m' ∧ m'.Shows m

namespace LocalDb
variable {db db' db'' : LocalDb} {now : Int} {id : String}

theorem Spared.queued (spared : db.Spared db') (queued : db'.Queued id) : db.Queued id := by
  obtain ⟨e, member, name⟩ := queued
  exact ⟨e, spared.rows member, name⟩

theorem spared_of_queue (next : db'.syncQueue.next = db.syncQueue.next)
    (rows : db'.syncQueue.rows ⊆ db.syncQueue.rows)
    (memories : ∀ id m, db'.Queued id → db.memories.get id = some m → m.ownership = .own →
      db'.memories.get id = some m) :
    db.Spared db' :=
  ⟨next, rows, fun id m queued held own => ⟨m, memories id m queued held own, .refl own⟩⟩

theorem Spared.refl : db.Spared db :=
  spared_of_queue rfl (fun _ member => member) (fun _ _ _ held _ => held)

theorem Spared.trans (first : db.Spared db') (second : db'.Spared db'') : db.Spared db'' := by
  refine ⟨second.next.trans first.next, fun _ member => first.rows (second.rows member), ?_⟩
  intro id m queued held own
  obtain ⟨m', held', shows⟩ := first.shows id m (second.queued queued) held own
  obtain ⟨m'', held'', shows'⟩ := second.shows id m' queued held' shows.own
  exact ⟨m'', held'', shows'.trans shows⟩

theorem updateEmbedding_spared {embedding : List Float32} : db.Spared (db.updateEmbedding now id embedding) := by
  refine ⟨rfl, fun _ member => member, ?_⟩
  intro key m _ held own
  rw [updateEmbedding_get, held]
  refine ⟨_, rfl, ?_⟩
  dsimp only
  split <;> exact ⟨own, rfl, rfl, rfl, rfl, rfl⟩

theorem evictOldCached_spared {config : LocalConfig} : db.Spared (db.evictOldCached config) := by
  refine spared_of_queue ?_ ?_ (fun _ _ _ held own => evictOldCached_get held own) <;> rw [evictOldCached_queue]
  exact fun _ member => member

theorem expireSessionMemories_spared {config : LocalConfig} : db.Spared (db.expireSessionMemories config now) := by
  refine spared_of_queue rfl ?_ (fun _ _ queued held _ => (expireSessionMemories_get queued).trans held)
  exact fun _ member => (NumberedRows.mem_keepOnly.mp member).1

theorem removeSyncQueueItems_spared {queueIds : List Nat} : db.Spared (db.removeSyncQueueItems queueIds) := by
  refine spared_of_queue rfl ?_ (fun _ _ _ held _ => held)
  exact fun _ member => (NumberedRows.mem_keepOnly.mp member).1

theorem answered_spared {serverUrl : String} {response : SyncPushResponse} {items : List Pushed} :
    db.Spared (SyncEngine.answered serverUrl now response items db) := by
  have embedded : ∀ (embeddings : List (String × List Float32)) (db : LocalDb),
      db.Spared (embeddings.foldl (fun db e => db.updateEmbedding now e.1 e.2) db) := by
    intro embeddings
    induction embeddings with
    | nil => exact fun db => Spared.refl
    | cons e rest ih => exact fun db => updateEmbedding_spared.trans (ih _)
  have cursor : db.Spared (if response.cursor = "" then db
      else db.setSyncCursor serverUrl "push" response.cursor now) := by
    split
    · exact Spared.refl
    · exact spared_of_queue rfl (fun _ member => member) (fun _ _ _ held _ => held)
  exact (cursor.trans removeSyncQueueItems_spared).trans (embedded _ _)

end LocalDb

namespace SyncEngine
variable {engine engine' : SyncEngine} {config : LocalConfig} {date : JsDate} {act : Act}

theorem step_db (stepped : engine.step config date act = some engine') :
    (∃ id, engine.db.edited act = some id ∧ engine.db.Edits id engine'.db) ∨ engine.db.edited act = none ∧
      ((∃ now params, act = .upsertCached now params ∧ engine'.db = engine.db.upsertCached date.parse now params) ∨
        engine.db.Spared engine'.db) := by
  cases act with
  | add now id params =>
    cases added : engine.db.add now id params with
    | ok db =>
      refine Or.inl ⟨id, by simp [LocalDb.edited, added, Except.toOption], ?_⟩
      cases stepped
      rw [added]
      exact LocalDb.add_edits added
    | error message =>
      refine Or.inr ⟨by simp [LocalDb.edited, added, Except.toOption], Or.inr ?_⟩
      cases stepped
      rw [added]
      exact LocalDb.Spared.refl
  | update now id params =>
    cases updated : engine.db.update now id params with
    | ok db =>
      refine Or.inl ⟨id, by simp [LocalDb.edited, updated, Except.toOption], ?_⟩
      cases stepped
      rw [updated]
      exact LocalDb.update_edits updated
    | error message =>
      refine Or.inr ⟨by simp [LocalDb.edited, updated, Except.toOption], Or.inr ?_⟩
      cases stepped
      rw [updated]
      exact LocalDb.Spared.refl
  | delete now id =>
    cases stepped
    cases found : engine.db.fetchLocalRowById id with
    | some row => exact Or.inl ⟨id, by simp [LocalDb.edited, found], LocalDb.delete_edits found⟩
    | none =>
      refine Or.inr ⟨by simp [LocalDb.edited, found], Or.inr ?_⟩
      dsimp only
      rw [LocalDb.delete, found]
      exact LocalDb.Spared.refl
  | upsertCached now params =>
    cases stepped
    exact Or.inr ⟨rfl, Or.inl ⟨now, params, rfl, rfl⟩⟩
  | evictOldCached =>
    cases stepped
    exact Or.inr ⟨rfl, Or.inr LocalDb.evictOldCached_spared⟩
  | expireSessionMemories now =>
    cases stepped
    exact Or.inr ⟨rfl, Or.inr LocalDb.expireSessionMemories_spared⟩
  | updateEmbedding now id embedding =>
    cases stepped
    exact Or.inr ⟨rfl, Or.inr LocalDb.updateEmbedding_spared⟩
  | pushBegin now =>
    cases stepped
    refine Or.inr ⟨rfl, Or.inr ?_⟩
    rw [pushBegin_db]
    exact LocalDb.Spared.refl
  | pushDone cycle now response =>
    obtain ⟨items, -, rfl⟩ := map_eq_some_iff.mp stepped
    exact Or.inr ⟨rfl, Or.inr LocalDb.answered_spared⟩
  | pushFailed cycle now =>
    obtain ⟨items, -, rfl⟩ := map_eq_some_iff.mp stepped
    exact Or.inr ⟨rfl, Or.inr LocalDb.Spared.refl⟩

theorem step_later (stepped : engine.step config date act = some engine') :
    engine.db.syncQueue.Later engine'.db.syncQueue := by
  obtain ⟨id, -, edits⟩ | ⟨-, ⟨now, params, -, cached⟩ | spared⟩ := step_db stepped
  · obtain ⟨row, -, queue⟩ := edits.queued
    rw [queue]
    exact NumberedRows.later_push
  · rw [cached]
    exact NumberedRows.later_refl
  · exact ⟨Nat.le_of_eq spared.next.symm, fun _ member => Or.inl (spared.rows member)⟩

theorem snapshots_agree {db : LocalDb} {queueItems : List (Nat × SyncQueueRow)} {item other : Pushed}
    (inside : item ∈ snapshots db queueItems) (again : other ∈ snapshots db queueItems)
    (same : item.memoryId = other.memoryId) : item.row = other.row := by
  have held : ∀ item ∈ snapshots db queueItems, db.memories.get item.memoryId = some item.row := by
    intro item member
    obtain ⟨e, -, made⟩ := List.mem_filterMap.mp member
    obtain ⟨m, found, rfl⟩ := map_eq_some_iff.mp made
    exact found
  have first := held item inside
  rw [same, held other again] at first
  exact (Option.some.inj first).symm

theorem step_cycles (stepped : engine.step config date act = some engine') (begins : ∀ now, act ≠ .pushBegin now) :
    engine'.cycles.next = engine.cycles.next ∧
      ∀ cycle items, engine'.cycles.get cycle = some items → engine.cycles.get cycle = some items := by
  have called : ∀ result, (engine.call result).cycles = engine.cycles := fun result => by cases result <;> rfl
  cases act with
  | add now id params =>
    cases stepped
    rw [called]
    exact ⟨rfl, fun _ _ found => found⟩
  | update now id params =>
    cases stepped
    rw [called]
    exact ⟨rfl, fun _ _ found => found⟩
  | pushBegin now => exact absurd rfl (begins now)
  | pushDone cycle now response =>
    obtain ⟨items, -, rfl⟩ := map_eq_some_iff.mp stepped
    exact ⟨rfl, fun _ _ => NumberedRows.get_keepOnly⟩
  | pushFailed cycle now =>
    obtain ⟨items, -, rfl⟩ := map_eq_some_iff.mp stepped
    exact ⟨rfl, fun _ _ => NumberedRows.get_keepOnly⟩
  | _ =>
    cases stepped
    exact ⟨rfl, fun _ _ found => found⟩

end SyncEngine

structure Watched where
  engine : SyncEngine
  edits : String → Option MemoryRow := fun _ => none
  covers : Nat → List String := fun _ => []

namespace Watched

/-- What is left to be pushed after a step that ends at `engine`. -/
def after (w : Watched) (engine : SyncEngine) (act : Act) : Watched :=
  match w.engine.db.edited act with
  | some id =>
    { engine
      edits := Function.update w.edits id (engine.db.memories.get id)
      covers := fun cycle => (w.covers cycle).filter (· ≠ id) }
  | none =>
    match act with
    | .pushBegin _ =>
      let started := w.engine.cycles.next
      { w with
        engine
        covers := Function.update w.covers started (((engine.cycles.get started).getD []).map (·.memoryId)) }
    | .pushDone cycle _ _ => { w with engine, edits := fun id => if id ∈ w.covers cycle then none else w.edits id }
    | _ => { w with engine }

def step (config : LocalConfig) (date : JsDate) (w : Watched) (act : Act) : Option Watched :=
  (w.engine.step config date act).map (fun engine => w.after engine act)

def Pending (w : Watched) (id : String) : Prop := w.edits id ≠ none ∧ w.engine.db.Queued id

def Undisturbed (w : Watched) : Prop := ∀ id row, w.edits id = some row → w.engine.db.Queued id →
  ∃ m, w.engine.db.memories.get id = some m ∧ m.Shows row

/-- The pull does not bring a pending memory. -/
def Spares (w : Watched) (act : Act) : Prop := ∀ now params, act = .upsertCached now params → ¬ w.Pending params.id

end Watched

namespace Watched
variable {w w' : Watched} {config : LocalConfig} {date : JsDate} {act : Act} {id : String}

theorem after_edit (engine : SyncEngine) (edited : w.engine.db.edited act = some id) :
    (w.after engine act).engine = engine ∧ (w.after engine act).edits =
      Function.update w.edits id (engine.db.memories.get id) := by
  unfold after
  rw [edited]
  exact ⟨rfl, rfl⟩

theorem after_spared (engine : SyncEngine) (unedited : w.engine.db.edited act = none) :
    (w.after engine act).engine = engine ∧
    ∀ id row, (w.after engine act).edits id = some row → w.edits id = some row := by
  unfold after
  rw [unedited]
  cases act with
  | pushDone cycle now response =>
    refine ⟨rfl, fun id row found => ?_⟩
    dsimp only at found
    split at found
    · cases found
    · exact found
  | _ => exact ⟨rfl, fun _ _ found => found⟩

theorem undisturbed_edit (undisturbed : w.Undisturbed) (edits : w.engine.db.Edits id w'.engine.db)
    (noted : w'.edits = Function.update w.edits id (w'.engine.db.memories.get id)) : w'.Undisturbed := by
  obtain ⟨⟨row, held, own⟩, other, queueRow, name, queue⟩ := edits
  intro key edit found pending
  rw [noted] at found
  by_cases same : key = id
  · subst same
    rw [Function.update_self, held] at found
    cases found
    exact ⟨row, held, .refl own⟩
  · rw [Function.update_of_ne same] at found
    -- the row that the edit queued is for another memory
    obtain ⟨e, member, names⟩ := pending
    have old : e ∈ w.engine.db.syncQueue.rows := by
      rw [queue, NumberedRows.mem_push] at member
      rcases member with old | new
      · exact old
      · subst new
        exact absurd (names.symm.trans name) same
    obtain ⟨m, before, shows⟩ := undisturbed key edit found ⟨e, old, names⟩
    exact ⟨m, (other key same).trans before, shows⟩

theorem undisturbed_step (undisturbed : w.Undisturbed) (spares : w.Spares act)
    (stepped : w.step config date act = some w') : w'.Undisturbed := by
  obtain ⟨engine, moved, rfl⟩ := map_eq_some_iff.mp stepped
  obtain ⟨id, edited, edits⟩ | ⟨unedited, effect⟩ := SyncEngine.step_db moved
  · obtain ⟨same, noted⟩ := after_edit engine edited
    refine undisturbed_edit undisturbed ?_ (by rw [same]; exact noted)
    rw [same]
    exact edits
  · obtain ⟨same, kept⟩ := after_spared engine unedited
    intro id row edit queued
    rw [same] at queued ⊢
    have before := kept id row edit
    obtain ⟨now, params, rfl, cached⟩ | spared := effect
    · rw [cached] at queued ⊢
      obtain ⟨m, held, shows⟩ := undisturbed id row before queued
      have apart : id ≠ params.id := by
        rintro rfl
        exact spares now params rfl ⟨by simp [before], queued⟩
      exact ⟨m, (LocalDb.upsertCached_get apart).trans held, shows⟩
    · obtain ⟨m, held, shows⟩ := undisturbed id row before (spared.queued queued)
      obtain ⟨m', held', shows'⟩ := spared.shows id m queued held shows.own
      exact ⟨m', held', shows'.trans shows⟩

/-- While pulls bring no pending memory, every pending memory stays as its last edit has left it. -/
theorem undisturbed_run (config : LocalConfig) (date : JsDate) (deviceId serverUrl : String) (acts : List Act)
    (along : Along (step config date) Spares { engine := { deviceId, serverUrl } } acts)
    (ran : run (step config date) { engine := { deviceId, serverUrl } } acts = some w) : w.Undisturbed :=
  run_keeps (fun _ _ _ undisturbed spares stepped => undisturbed_step undisturbed spares stepped)
    (fun _ _ none => by cases none) along ran

end Watched

def draft : Act := .add 5 "note" { content := "draft" }

def pulled (id : String) : Act :=
  .upsertCached 7 { id, content := "final", layer := "team", updatedAt := "1970-01-01T00:00:00.005+00:00" }

theorem other_pull_spares : ∃ w, run (Watched.step {} sampleDate)
    { engine := { deviceId := "laptop", serverUrl := "" } }
    [draft, pulled "minutes"] = some w ∧ w.Undisturbed := by
  refine ⟨_, rfl, Watched.undisturbed_run {} sampleDate "laptop" "" [draft, pulled "minutes"] ⟨?_, ?_⟩ rfl⟩
  · intro now params pulls
    cases pulls
  · intro w stepped
    cases stepped
    refine ⟨?_, fun _ _ => trivial⟩
    intro now params pulls pending
    cases pulls
    exact pending.1 rfl

theorem pull_takes_draft : ∃ w, run (Watched.step {} sampleDate)
    { engine := { deviceId := "laptop", serverUrl := "" } }
    [draft, pulled "note"] = some w ∧ ¬ w.Undisturbed := by
  refine ⟨_, rfl, fun undisturbed => ?_⟩
  obtain ⟨m, held, shows⟩ := undisturbed "note" _ rfl ⟨_, List.mem_singleton.mpr rfl, rfl⟩
  cases held
  cases shows.own

end Aeterna.Device
