import Aeterna.Device.Steps

namespace Aeterna.Device
open Lib Function List NumberedRows SyncEngine Option

structure Net where
  engine : SyncEngine
  table : MemoryEntries
  requests : Nat → Option (List Pushed) := fun _ => none
  answers : Nat → Option (Option SyncPushResponse) := fun _ => none

/-- What can happen next. A request may be served after the device has given it up. -/
inductive NetStep where
  | device (act : Act)
  | serve (cycle : Nat) (now : Int64) (faults : Faults)
  | other (tenant : String) (now : Int64) (faults : Faults) (req : SyncPushRequest)
  | receive (cycle : Nat) (now : Int)

section
variable (config : LocalConfig) (date : JsDate) (chrono : Chrono) (tenant : String)

/-- The request that `pushCycle` makes of what it found in the queue. -/
def requestOf (deviceId : String) (items : List Pushed) : SyncPushRequest := ⟨items.map (·.entry date), deviceId⟩

namespace Net

def receive (net : Net) (cycle : Nat) (now : Int) : Option Net :=
  match net.answers cycle with
  | some (some response) => (net.engine.pushDone cycle now response).map (fun engine => { net with engine })
  | _ => none

def step (net : Net) : NetStep → Option Net
  | .device (.pushDone _ _ _) => none
  | .device (.pushBegin now) =>
    let engine := net.engine.pushBegin now
    let cycle := net.engine.cycles.next
    some { net with engine, requests := update net.requests cycle (engine.cycles.get cycle) }
  | .device act => (net.engine.step config date act).map (fun engine => { net with engine })
  | .serve cycle now faults =>
    (net.requests cycle).map (fun items =>
      let served := pushHandler chrono tenant now faults (requestOf date net.engine.deviceId items) net.table
      { net with
        table := served.1
        requests := update net.requests cycle none
        answers := update net.answers cycle (some served.2) })
  | .other tenant now faults req => some { net with table := (pushHandler chrono tenant now faults req net.table).1 }
  | .receive cycle now => net.receive cycle now

end Net

structure EntryRow.Copies (row : EntryRow) (m : MemoryRow) : Prop where
  content : row.content = m.content
  layer : row.memoryLayer = m.layer
  properties : row.properties =
    some (mergeTagsIntoProperties (m.metadata.getD (.object [])) (.array ((m.tags.getD []).map .string)))
  importanceScore : row.importanceScore = some m.importanceScore.toFloat32

structure EntryRow.Holds (row : EntryRow) (m : MemoryRow) : Prop where
  copies : row.Copies m
  updatedAt : row.updatedAt.toInt = m.updatedAt
  deletedAt : row.deletedAt.map Int64.toInt = m.deletedAt

def Delivered (item : Pushed) (found : Option EntryRow) : Prop :=
  ∃ row ∈ found, row.tenantId = tenant ∧ (row.Holds item.row ∨ item.row.updatedAt < row.updatedAt.toInt)

structure EntryRow.SameState (row row' : EntryRow) : Prop where
  content : row.content = row'.content
  layer : row.memoryLayer = row'.memoryLayer
  properties : row.properties = row'.properties
  importanceScore : row.importanceScore = row'.importanceScore
  deletedAt : row.deletedAt = row'.deletedAt

def SyncPushEntry.Restates (entry : SyncPushEntry) (row : EntryRow) : Prop :=
  match entry.deletedAtMillis chrono with
  | some deletedAt => row.deletedAt = some deletedAt
  | none => row.content = entry.content ∧ row.memoryLayer = entry.layer ∧
      row.properties = some entry.mergedProperties ∧
      row.importanceScore = some entry.importance.toFloat32 ∧ row.deletedAt = none

def SyncPushEntry.WritesTo (pusher : String) (entry : SyncPushEntry) (row : EntryRow) : Prop :=
  if row.tenantId = pusher then ¬ entry.updatedAtMillis chrono < row.updatedAt
    else entry.deletedAtMillis chrono = none

def Orderly (pusher : String) (entry : SyncPushEntry) (found : Option EntryRow) : Prop :=
  ∀ row ∈ found, row.tenantId = tenant → entry.WritesTo chrono pusher row →
    row.updatedAt < entry.updatedAtMillis chrono ∨
      row.updatedAt = entry.updatedAtMillis chrono ∧ entry.Restates chrono row

/-- A time that the server reads from the text that the device makes of it. -/
def Readable (t : Int) : Prop := ∃ millis : Int64, chrono.parseTimestamp (date.toISOString t) = some millis ∧
    millis.toInt = t

structure Lands (item : Pushed) (found : Option EntryRow) : Prop where
  own : ∀ row ∈ found, row.tenantId = tenant
  updated : Readable date chrono item.row.updatedAt
  deleted : ∀ t ∈ item.row.deletedAt, Readable date chrono t
  marks : item.row.deletedAt ≠ none → ∃ row ∈ found, item.row.updatedAt < row.updatedAt.toInt ∨ row.Copies item.row

variable {chrono tenant} {pusher device : String} {entry : SyncPushEntry} {found : Option EntryRow} {row : EntryRow}
  {item : Pushed}

theorem arrive_cases (chrono : Chrono) (device : String) (entry : SyncPushEntry) (own : row.tenantId = pusher) :
    (entry.updatedAtMillis chrono < row.updatedAt ∧ entry.arrive chrono pusher device (some row) = some row) ∨
      (¬ entry.updatedAtMillis chrono < row.updatedAt ∧ entry.arrive chrono pusher device (some row) =
        some (match entry.deletedAtMillis chrono with
          | some deletedAt => entry.marked chrono pusher device deletedAt row
          | none => entry.overwritten chrono device row)) := by
  unfold SyncPushEntry.arrive
  by_cases older : entry.updatedAtMillis chrono < row.updatedAt
  · exact Or.inl ⟨older, by simp [own, older]⟩
  · refine Or.inr ⟨older, ?_⟩
    simp only [any_some, own, older, and_false, decide_false, Bool.false_eq_true, if_false]
    cases entry.deletedAtMillis chrono <;> rfl

theorem overwritten_sameState (device : String) (upsert : entry.deletedAtMillis chrono = none)
    (restates : entry.Restates chrono row) : (entry.overwritten chrono device row).SameState row := by
  rw [SyncPushEntry.Restates, upsert] at restates
  obtain ⟨content, layer, properties, importance, deleted⟩ := restates
  exact ⟨content.symm, layer.symm, properties.symm, importance.symm, deleted.symm⟩

theorem arrive_some (chrono : Chrono) (pusher device : String) (entry : SyncPushEntry) (row : EntryRow) :
    ∃ row', entry.arrive chrono pusher device (some row) = some row' ∧ row'.tenantId = row.tenantId ∧
      (row' = row ∨ entry.WritesTo chrono pusher row ∧ row'.updatedAt = entry.updatedAtMillis chrono ∧
        (entry.Restates chrono row → row'.SameState row)) := by
  by_cases own : row.tenantId = pusher
  · rcases arrive_cases chrono device entry own with ⟨-, stays⟩ | ⟨newer, writes⟩
    · exact ⟨row, stays, rfl, Or.inl rfl⟩
    · have written : entry.WritesTo chrono pusher row := by
        rw [SyncPushEntry.WritesTo, if_pos own]
        exact newer
      refine ⟨_, writes, ?_⟩
      cases deletion : entry.deletedAtMillis chrono with
      | none => exact ⟨rfl, Or.inr ⟨written, rfl, overwritten_sameState device deletion⟩⟩
      | some deletedAt =>
        simp only [SyncPushEntry.Restates, deletion, SyncPushEntry.marked, if_pos own, true_and]
        exact Or.inr ⟨written, fun restated => ⟨rfl, rfl, rfl, rfl, restated.symm⟩⟩
  · -- the row of another tenant: an upsert overwrites it whatever its time, and a deletion does not reach it
    cases deletion : entry.deletedAtMillis chrono with
    | none =>
      have writes : entry.arrive chrono pusher device (some row) = some (entry.overwritten chrono device row) := by
        simp [SyncPushEntry.arrive, own, deletion]
      refine ⟨_, writes, rfl, Or.inr ⟨?_, rfl, overwritten_sameState device deletion⟩⟩
      rw [SyncPushEntry.WritesTo, if_neg own]
      exact deletion
    | some deletedAt =>
      exact ⟨row, by simp [SyncPushEntry.arrive, SyncPushEntry.marked, own, deletion], rfl, Or.inl rfl⟩

theorem holds_of_sameState {row' : EntryRow} {m : MemoryRow} (same : row'.SameState row)
    (time : row'.updatedAt = row.updatedAt) (holds : row.Holds m) : row'.Holds m where
  copies :=
    { content := same.content.trans holds.copies.content
      layer := same.layer.trans holds.copies.layer
      properties := same.properties.trans holds.copies.properties
      importanceScore := same.importanceScore.trans holds.copies.importanceScore }
  updatedAt := by rw [time, holds.updatedAt]
  deletedAt := by rw [same.deletedAt, holds.deletedAt]

theorem delivered_arrive (orderly : Orderly chrono tenant pusher entry found)
    (delivered : Delivered tenant item found) :
    Delivered tenant item (entry.arrive chrono pusher device found) := by
  obtain ⟨row, here, own, state⟩ := delivered
  cases here
  obtain ⟨row', arrived, tenancy, stays | ⟨writes, time, restates⟩⟩ := arrive_some chrono pusher device entry row
  · subst stays
    exact ⟨row', arrived, own, state⟩
  · -- a later time is later than what was delivered, and the same time comes with the same state
    refine ⟨row', arrived, tenancy.trans own, ?_⟩
    rcases orderly row rfl own writes with newer | ⟨tied, restated⟩
    · rw [Int64.lt_iff_toInt_lt, ← time] at newer
      refine Or.inr ?_
      rcases state with holds | later
      · have start := holds.updatedAt
        omega
      · omega
    · rw [← tied] at time
      refine state.imp (holds_of_sameState (restates restated) time) (fun later => ?_)
      rw [time]
      exact later

namespace Lands
variable {date : JsDate} (lands : Lands date chrono tenant item found)
include lands

theorem time_eq : ((item.entry date).updatedAtMillis chrono).toInt = item.row.updatedAt := by
  obtain ⟨millis, read, value⟩ := lands.updated
  show ((chrono.parseTimestamp (date.toISOString item.row.updatedAt)).getD 0).toInt = _
  rw [read]
  exact value

theorem conflict (own : row.tenantId = tenant) (newer : (item.entry date).updatedAtMillis chrono < row.updatedAt) :
    Delivered tenant item (some row) := by
  rw [Int64.lt_iff_toInt_lt, lands.time_eq] at newer
  exact ⟨row, rfl, own, Or.inr newer⟩

theorem upsert (live : item.row.deletedAt = none) :
    Delivered tenant item ((item.entry date).arrive chrono tenant device found) := by
  have upsert : (item.entry date).deletedAtMillis chrono = none := by
    simp [SyncPushEntry.deletedAtMillis, Pushed.entry, live]
  cases found with
  | none =>
    have puts : (item.entry date).arrive chrono tenant device none = some
        ((item.entry date).inserted chrono tenant device) := by
      simp [SyncPushEntry.arrive, upsert]
    rw [puts]
    exact ⟨_, rfl, rfl, Or.inl ⟨⟨rfl, rfl, rfl, rfl⟩, lands.time_eq, by rw [live]; rfl⟩⟩
  | some row =>
    have own := lands.own row rfl
    rcases arrive_cases chrono device (item.entry date) own with ⟨newer, stays⟩ | ⟨-, writes⟩
    · rw [stays]
      exact lands.conflict own newer
    · rw [writes, upsert]
      exact ⟨_, rfl, own, Or.inl ⟨⟨rfl, rfl, rfl, rfl⟩, lands.time_eq, by rw [live]; rfl⟩⟩

theorem deletion {t : Int} (deleted : item.row.deletedAt = some t) :
    Delivered tenant item ((item.entry date).arrive chrono tenant device found) := by
  obtain ⟨d, read, value⟩ := lands.deleted t deleted
  have deletion : (item.entry date).deletedAtMillis chrono = some d := by
    simp [SyncPushEntry.deletedAtMillis, Pushed.entry, deleted, read]
  obtain ⟨row, here, state⟩ := lands.marks (by simp [deleted])
  cases here
  have own := lands.own row rfl
  rcases arrive_cases chrono device (item.entry date) own with ⟨newer, stays⟩ | ⟨older, writes⟩
  · rw [stays]
    exact lands.conflict own newer
  · rw [writes, deletion]
    rw [Int64.lt_iff_toInt_lt, lands.time_eq] at older
    -- the mark is put on a row that has the contents already
    have copies := state.resolve_left older
    refine ⟨_, rfl, by simp [SyncPushEntry.marked, own], Or.inl ?_⟩
    simp only [SyncPushEntry.marked, own, if_true]
    refine ⟨⟨copies.content, copies.layer, copies.properties, copies.importanceScore⟩, lands.time_eq, ?_⟩
    rw [deleted, ← value]
    rfl

theorem delivered : Delivered tenant item ((item.entry date).arrive chrono tenant device found) := by
  cases deleted : item.row.deletedAt with
  | none => exact lands.upsert deleted
  | some t => exact lands.deletion deleted

end Lands

variable (chrono tenant)

def OrderlyRequest (awaited : String → Prop) (pusher : String) (req : SyncPushRequest)
    (rows : String → Option EntryRow) :
    Prop :=
  Along (fun rows entry => some (arriveRows chrono pusher req.deviceId rows entry))
    (fun rows entry => awaited entry.id → Orderly chrono tenant pusher entry (rows entry.id)) rows req.entries

def LandingRequest (device : String) (items : List Pushed) (rows : String → Option EntryRow) : Prop :=
  Along (fun rows item => some (arriveRows chrono tenant device rows (item.entry date)))
    (fun rows item => Lands date chrono tenant item (rows item.memoryId)) rows items

variable {chrono tenant} {rows : String → Option EntryRow} {req : SyncPushRequest} {items : List Pushed}

theorem delivered_request {awaited : String → Prop} (orderly : OrderlyRequest chrono tenant awaited pusher req rows)
    (waits : awaited item.memoryId) (delivered : Delivered tenant item (rows item.memoryId)) :
    Delivered tenant item (req.entries.foldl (arriveRows chrono pusher req.deviceId) rows item.memoryId) := by
  refine run_keeps (I := fun rows : String → Option EntryRow =>
    Delivered tenant item (rows item.memoryId)) ?_ delivered
    orderly run_total
  intro rows entry next delivered orderly stepped
  cases stepped
  by_cases same : item.memoryId = entry.id
  · rw [same] at delivered ⊢
    rw [arriveRows, update_self]
    exact delivered_arrive (orderly (same ▸ waits)) delivered
  · rw [arriveRows, update_of_ne same]
    exact delivered

theorem delivered_first (lands : Lands date chrono tenant item (rows item.memoryId)) :
    Delivered tenant item (arriveRows chrono tenant device rows (item.entry date) item.memoryId) := by
  rw [arriveRows, show (item.entry date).id = item.memoryId from rfl, update_self]
  exact lands.delivered

theorem delivered_again (agree : ∀ other ∈ items, other.memoryId = item.memoryId → other.row = item.row)
    (landing : LandingRequest date chrono tenant device items rows)
    (delivered : Delivered tenant item (rows item.memoryId)) :
    Delivered tenant item ((items.map (·.entry date)).foldl
      (arriveRows chrono tenant device) rows item.memoryId) := by
  induction items generalizing rows with
  | nil => exact delivered
  | cons first rest ih =>
    obtain ⟨lands, along⟩ := landing
    refine ih (fun other member => agree other (mem_cons_of_mem _ member)) (along _ rfl) ?_
    by_cases same : first.memoryId = item.memoryId
    · -- the state that lands is the one that was delivered
      have arrived : Delivered tenant first (arriveRows chrono tenant device rows _ _) := delivered_first date lands
      rw [Delivered, agree first mem_cons_self same, same] at arrived
      exact arrived
    · show Delivered tenant item (update rows first.memoryId _ item.memoryId)
      rw [update_of_ne (Ne.symm same)]
      exact delivered

theorem delivered_landing
    (agree : ∀ item ∈ items, ∀ other ∈ items, other.memoryId = item.memoryId → other.row = item.row)
    (landing : LandingRequest date chrono tenant device items rows) :
    ∀ item ∈ items, Delivered tenant item
      ((items.map (·.entry date)).foldl (arriveRows chrono tenant device) rows item.memoryId) := by
  induction items generalizing rows with
  | nil => exact fun _ member => absurd member not_mem_nil
  | cons first rest ih =>
    obtain ⟨lands, along⟩ := landing
    intro item member
    rcases mem_cons.mp member with rfl | later
    · have others : ∀ other ∈ rest, other.memoryId = item.memoryId → other.row = item.row :=
        fun other inside => agree item mem_cons_self other (mem_cons_of_mem _ inside)
      have kept := delivered_again date others (along _ rfl) (delivered_first date lands)
      exact kept
    · exact ih (fun item inside other again => agree item (mem_cons_of_mem _ inside) other
        (mem_cons_of_mem _ again))
        (along _ rfl) item later

variable (chrono tenant)

namespace Net

def Awaited (net : Net) (id : String) : Prop := ∃ cycle items response, net.engine.cycles.get cycle = some items ∧
  net.answers cycle = some (some response) ∧ ∃ item ∈ items, item.memoryId = id

/-- What is served to a push cycle that waits for it fails as a whole, or lands without an error. What arrives
from anyone for a memory that is awaited is orderly. -/
def Clean (net : Net) : NetStep → Prop
  | .serve cycle _ faults => ∀ items ∈ net.requests cycle, faults.transaction = true ∨
      OrderlyRequest chrono tenant net.Awaited tenant (requestOf date net.engine.deviceId items) net.table.get ∧
        (net.engine.cycles.get cycle ≠ none → (∀ n < items.length, faults.entries n = {}) ∧
          LandingRequest date chrono tenant net.engine.deviceId items net.table.get)
  | .other pusher _ faults req =>
    faults.transaction = true ∨ OrderlyRequest chrono tenant net.Awaited pusher req net.table.get
  | _ => True

structure Waits (net : Net) (cycle : Nat) (items : List Pushed) : Prop where
  request : ∀ sent, net.requests cycle = some sent → sent = items
  answer : ∀ response, net.answers cycle = some (some response) →
    ∀ item ∈ items, Delivered tenant item (net.table.get item.memoryId)
  queue : ∀ item ∈ items, item.queueId < net.engine.db.syncQueue.next ∧
    ∀ row, (item.queueId, row) ∈ net.engine.db.syncQueue.rows → row.memoryId = item.memoryId
  agree : ∀ item ∈ items, ∀ other ∈ items, other.memoryId = item.memoryId → other.row = item.row

structure Sound (net : Net) : Prop where
  waits : ∀ cycle items, net.engine.cycles.get cycle = some items → net.Waits tenant cycle items
  fresh : ∀ cycle ≥ net.engine.cycles.next, net.requests cycle = none ∧ net.answers cycle = none

end Net

end

namespace Net
variable {config : LocalConfig} {date : JsDate} {chrono : Chrono} {tenant pusher : String} {net net' : Net}
  {engine : SyncEngine}
  {cycle : Nat} {items : List Pushed} {now : Int64} {faults : Faults} {response : SyncPushResponse}

theorem Waits.after (waits : net.Waits tenant cycle items)
    (request : ∀ sent, net'.requests cycle = some sent → net.requests cycle = some sent)
    (answer : ∀ response, net'.answers cycle = some (some response) →
      ∀ item ∈ items, Delivered tenant item (net'.table.get item.memoryId))
    (queue : net.engine.db.syncQueue.Later net'.engine.db.syncQueue) : net'.Waits tenant cycle items where
  request sent left := waits.request sent (request sent left)
  answer := answer
  queue item member := by
    obtain ⟨below, names⟩ := waits.queue item member
    have grows := queue.next
    refine ⟨by omega, fun row inside => ?_⟩
    rcases queue.rows _ inside with old | new
    · exact names row old
    · omega
  agree := waits.agree

theorem Sound.device (sound : net.Sound tenant) (next : engine.cycles.next = net.engine.cycles.next)
    (cycles : ∀ cycle items, engine.cycles.get cycle = some items → net.engine.cycles.get cycle = some items)
    (queue : net.engine.db.syncQueue.Later engine.db.syncQueue) : Sound tenant { net with engine } where
  waits cycle items found := by
    have waits := sound.waits cycle items (cycles cycle items found)
    exact waits.after (fun _ left => left) waits.answer queue
  fresh cycle later := sound.fresh cycle (next ▸ later)

theorem Sound.act (sound : net.Sound tenant) {act : Act} (begins : ∀ now, act ≠ .pushBegin now)
    (stepped : net.engine.step config date act = some engine) : Sound tenant { net with engine } := by
  obtain ⟨next, cycles⟩ := step_cycles stepped begins
  exact sound.device next cycles (step_later stepped)

theorem waits_snapshots (request : ∀ sent, net.requests cycle = some sent →
      sent = snapshots net.engine.db (net.engine.db.listSyncQueue 100))
    (unanswered : net.answers cycle = none) :
    net.Waits tenant cycle (snapshots net.engine.db (net.engine.db.listSyncQueue 100)) where
  request := request
  answer response answer := by
    rw [unanswered] at answer
    cases answer
  queue item member := by
    obtain ⟨⟨id, row⟩, listed, made⟩ := mem_filterMap.mp member
    obtain ⟨m, -, rfl⟩ := map_eq_some_iff.mp made
    have inside := LocalDb.mem_listSyncQueue listed
    refine ⟨net.engine.db.syncQueue.below _ inside, fun other again => ?_⟩
    rw [row_unique again inside]
  agree item inside other again same := snapshots_agree again inside same

theorem Sound.pushBegin (sound : net.Sound tenant) (now : Int) : Sound tenant { net with
      engine := net.engine.pushBegin now
      requests := update net.requests net.engine.cycles.next
        ((net.engine.pushBegin now).cycles.get net.engine.cycles.next) } := by
  have queue := pushBegin_db net.engine now
  obtain ⟨unsent, unanswered⟩ := sound.fresh _ (Nat.le_refl _)
  rcases pushBegin_cycles net.engine now with ⟨same, -⟩ | started
  · -- nothing is sent, and there is no request under the number of the cycle that would come next
    have unused : update net.requests net.engine.cycles.next
        ((net.engine.pushBegin now).cycles.get net.engine.cycles.next) = net.requests := by
      rw [same, get_next, ← unsent, update_eq_self]
    rw [unused]
    exact sound.device (by rw [same]) (fun _ _ found => by rwa [same] at found)
      (by rw [queue]; exact later_refl)
  · refine ⟨fun cycle items found => ?_, fun cycle later => ?_⟩
    · dsimp only at found
      rw [started] at found
      by_cases new : cycle = net.engine.cycles.next
      · subst new
        rw [get_push] at found
        cases found
        rw [← queue]
        refine waits_snapshots (fun sent request => ?_) unanswered
        dsimp only at request ⊢
        rw [update_self, started, get_push, ← queue] at request
        exact (Option.some.inj request).symm
      · rw [get_push_of_ne new] at found
        have waits := sound.waits cycle items found
        refine waits.after (fun sent left => ?_) waits.answer (by rw [queue]; exact later_refl)
        dsimp only at left
        rwa [update_of_ne new] at left
    · have next : (net.engine.pushBegin now).cycles.next = net.engine.cycles.next + 1 := by rw [started]; rfl
      have above : net.engine.cycles.next + 1 ≤ cycle := next ▸ later
      obtain ⟨request, answer⟩ := sound.fresh cycle (by omega)
      exact ⟨(update_of_ne (by omega) _ _).trans request, answer⟩

theorem Sound.kept (sound : net.Sound tenant) {req : SyncPushRequest}
    (clean : faults.transaction = true ∨ OrderlyRequest chrono tenant net.Awaited pusher req net.table.get)
    (found : net.engine.cycles.get cycle = some items) (answer : net.answers cycle = some (some response)) :
    ∀ item ∈ items, Delivered tenant item
      ((pushHandler chrono pusher now faults req net.table).1.get item.memoryId) := by
  intro item member
  have delivered := (sound.waits cycle items found).answer response answer item member
  rcases clean with failed | orderly
  · rw [pushHandler, if_pos failed]
    exact delivered
  · rcases pushHandler_rows chrono pusher now faults req net.table with same | rows
    · rw [same]
      exact delivered
    · rw [rows]
      exact delivered_request orderly ⟨cycle, items, response, found, answer, item, member, rfl⟩ delivered

theorem delivered_answer {table : MemoryEntries} {device : String}
    (agree : ∀ item ∈ items, ∀ other ∈ items, other.memoryId = item.memoryId → other.row = item.row)
    (clean : faults.transaction = true ∨
      (∀ n < items.length, faults.entries n = {}) ∧ LandingRequest date chrono tenant device items table.get)
    (answer : (pushHandler chrono tenant now faults (requestOf date device items) table).2 = some response) :
    ∀ item ∈ items, Delivered tenant item
      ((pushHandler chrono tenant now faults (requestOf date device items) table).1.get item.memoryId) := by
  cases begun : faults.transaction with
  | true =>
    rw [pushHandler, if_pos begun] at answer
    cases answer
  | false =>
    obtain ⟨clean, landing⟩ := clean.resolve_left (by simp [begun])
    have entries : ∀ n < (requestOf date device items).entries.length, faults.entries n = {} :=
      fun n small => clean n (by simpa [requestOf] using small)
    rw [pushHandler_clean chrono tenant now table begun entries]
    exact delivered_landing date agree landing

theorem Sound.serve (sound : net.Sound tenant) (request : net.requests cycle = some items)
    (clean : faults.transaction = true ∨
      OrderlyRequest chrono tenant net.Awaited tenant (requestOf date net.engine.deviceId items) net.table.get ∧
        (net.engine.cycles.get cycle ≠ none → (∀ n < items.length, faults.entries n = {}) ∧
          LandingRequest date chrono tenant net.engine.deviceId items net.table.get)) :
    Sound tenant { net with
      table := (pushHandler chrono tenant now faults (requestOf date net.engine.deviceId items) net.table).1
      requests := update net.requests cycle none
      answers := update net.answers cycle
        (some (pushHandler chrono tenant now faults (requestOf date net.engine.deviceId items) net.table).2) } := by
  refine ⟨fun other waiting found => ?_, fun other later => ?_⟩
  · have waits := sound.waits other waiting found
    by_cases same : other = cycle
    · -- the answer is to a push cycle that still waits
      subst same
      have sent := waits.request items request
      subst sent
      refine waits.after (fun _ left => ?_) (fun response answer => ?_) later_refl
      · dsimp only at left
        rw [update_self] at left
        cases left
      · dsimp only at answer
        rw [update_self] at answer
        exact delivered_answer waits.agree (clean.imp_right (fun served => served.2 (by simp [found])))
          (Option.some.inj answer)
    · refine waits.after (fun sent left => ?_) (fun response answer => ?_) later_refl
      · dsimp only at left
        rwa [update_of_ne same] at left
      · dsimp only at answer
        rw [update_of_ne same] at answer
        exact sound.kept (clean.imp_right And.left) found answer
  · obtain ⟨unsent, unanswered⟩ := sound.fresh other later
    have apart : other ≠ cycle := by
      rintro rfl
      rw [request] at unsent
      cases unsent
    exact ⟨(update_of_ne apart _ _).trans unsent, (update_of_ne apart _ _).trans unanswered⟩

theorem Sound.other (sound : net.Sound tenant) {req : SyncPushRequest}
    (clean : faults.transaction = true ∨ OrderlyRequest chrono tenant net.Awaited pusher req net.table.get) :
    Sound tenant { net with table := (pushHandler chrono pusher now faults req net.table).1 } where
  waits _ items found := (sound.waits _ items found).after (fun _ left => left)
    (fun _ answer => sound.kept clean found answer) later_refl
  fresh := sound.fresh

theorem receive_eq_some {now : Int} (received : net.receive cycle now = some net') : ∃ response engine,
    net.answers cycle = some (some response) ∧ net.engine.pushDone cycle now response = some engine ∧
      net' = { net with engine } := by
  unfold receive at received
  split at received
  · rename_i response answer
    obtain ⟨engine, moved, rfl⟩ := map_eq_some_iff.mp received
    exact ⟨response, engine, answer, moved, rfl⟩
  · cases received

theorem step_act {act : Act} (begins : ∀ now, act ≠ .pushBegin now)
    (ends : ∀ cycle now response, act ≠ .pushDone cycle now response) :
    net.step config date chrono tenant (.device act) =
      (net.engine.step config date act).map (fun engine => { net with engine }) := by
  cases act with
  | pushBegin now => exact absurd rfl (begins now)
  | pushDone cycle now response => exact absurd rfl (ends cycle now response)
  | _ => rfl

theorem sound_step {label : NetStep} (sound : net.Sound tenant) (clean : net.Clean date chrono tenant label)
    (stepped : net.step config date chrono tenant label = some net') : net'.Sound tenant := by
  cases label with
  | device act =>
    cases act with
    | pushDone cycle now response => cases stepped
    | pushBegin now =>
      cases stepped
      exact sound.pushBegin now
    | _ =>
      rw [step_act (fun _ same => by cases same) (fun _ _ _ same => by cases same)] at stepped
      obtain ⟨engine, moved, rfl⟩ := map_eq_some_iff.mp stepped
      exact sound.act (fun _ same => by cases same) moved
  | serve cycle now faults =>
    obtain ⟨items, request, rfl⟩ := map_eq_some_iff.mp stepped
    exact sound.serve request (clean items request)
  | other pusher now faults req =>
    cases stepped
    exact sound.other clean
  | receive cycle now =>
    obtain ⟨response, engine, -, moved, rfl⟩ := receive_eq_some stepped
    have acted : net.engine.step config date (.pushDone cycle now response) = some engine := moved
    exact sound.act (fun _ same => by cases same) acted

/-- What a push takes from the queue, the server has. -/
def Delivers (tenant : String) (net : Net) : Prop := ∀ cycle now net', net.receive cycle now = some net' →
  ∀ e ∈ net.engine.db.syncQueue.rows, e ∉ net'.engine.db.syncQueue.rows →
    ∃ items, net.engine.cycles.get cycle = some items ∧ ∃ item ∈ items, item.queueId = e.1 ∧
      item.memoryId = e.2.memoryId ∧ Delivered tenant item (net.table.get e.2.memoryId)

theorem Sound.delivers (sound : net.Sound tenant) : net.Delivers tenant := by
  intro cycle now net' received e member removed
  obtain ⟨response, engine, answer, moved, rfl⟩ := receive_eq_some received
  obtain ⟨items, found, rfl⟩ := map_eq_some_iff.mp moved
  have pushed : e.1 ∈ items.map (·.queueId) := by
    by_contra kept
    refine removed ?_
    show e ∈ (answered _ _ _ _ _).syncQueue.rows
    rw [answered_queue, mem_keepOnly]
    exact ⟨member, by simpa using kept⟩
  obtain ⟨item, inside, number⟩ := List.mem_map.mp pushed
  have waits := sound.waits cycle items found
  -- the number of the row was not given out again, so that it still belongs to the memory that was pushed
  have name : e.2.memoryId = item.memoryId := (waits.queue item inside).2 e.2 (number ▸ member)
  refine ⟨items, found, item, inside, number, name.symm, ?_⟩
  rw [name]
  exact waits.answer response answer item inside

/-- While all steps are clean, the server has what pushes take from the queue. -/
theorem delivers_run (config : LocalConfig) (date : JsDate) (chrono : Chrono) (tenant deviceId serverUrl : String)
    (table : MemoryEntries) (labels : List NetStep)
    (along : Along (step config date chrono tenant) (Clean date chrono tenant)
      { engine := { deviceId, serverUrl }, table }
      labels)
    (ran : run (step config date chrono tenant) { engine := { deviceId, serverUrl }, table } labels = some net) :
    net.Delivers tenant := by
  have start : Sound tenant { engine := { deviceId, serverUrl }, table } := by
    refine ⟨fun cycle items found => ?_, fun _ _ => ⟨rfl, rfl⟩⟩
    cases found
  exact (run_keeps (fun _ _ _ sound clean stepped => sound_step sound clean stepped) start along ran).delivers

theorem begin_single {config : LocalConfig} {date : JsDate} {now : Int} {e : Nat × SyncQueueRow} {m : MemoryRow}
    (elapsed : ¬ now < net.engine.nextPushAllowedAt) (single : net.engine.db.syncQueue.rows = [e])
    (held : net.engine.db.memories.get e.2.memoryId = some m) :
    net.step config date chrono tenant (.device (.pushBegin now)) = some { net with
        engine := { net.engine with cycles := net.engine.cycles.push [⟨e.1, e.2.memoryId, m⟩] }
        requests := update net.requests net.engine.cycles.next (some [⟨e.1, e.2.memoryId, m⟩]) } := by
  have listed : net.engine.db.listSyncQueue 100 = [e] := by
    rw [LocalDb.listSyncQueue, single, mergeSort_singleton]
    rfl
  have found : snapshots net.engine.db [e] = [⟨e.1, e.2.memoryId, m⟩] := by
    simp [snapshots, held]
  have begun : net.engine.pushBegin now =
      { net.engine with cycles := net.engine.cycles.push [⟨e.1, e.2.memoryId, m⟩] } := by
    rw [SyncEngine.pushBegin, if_neg elapsed, listed]
    dsimp only
    rw [found]
    rfl
  show some _ = some _
  rw [begun]
  dsimp only
  rw [get_push]

end Net

def laptop : Net where
  engine := { deviceId := "laptop", serverUrl := "" }
  table := {}

def pushesDraft (faults : Faults) : List NetStep :=
  [.device (.add 5 "note" { content := "draft" }), .device (.pushBegin 7), .serve 0 9 faults]

theorem draft_is_delivered : ∃ net, run (Net.step {} sampleDate sampleChrono "acme") laptop
    (pushesDraft {}) = some net ∧
    net.Delivers "acme" := by
  have read : Readable sampleDate sampleChrono 5 := ⟨5, by decide, by decide⟩
  have landing : ∀ m : MemoryRow, m.updatedAt = 5 → m.deletedAt = none →
      Lands sampleDate sampleChrono "acme" ⟨0, "note", m⟩ none := by
    intro m updated kept
    refine ⟨fun _ found => ?_, updated ▸ read, fun t deleted => ?_, fun deleted => absurd kept deleted⟩
    · cases found
    · rw [kept] at deleted
      cases deleted
  have ran : run (Net.step {} sampleDate sampleChrono "acme") laptop (pushesDraft {}) = some _ :=
    run_cons.mpr ⟨_, rfl, run_cons.mpr ⟨_, Net.begin_single (by decide) rfl rfl, run_cons.mpr ⟨_, rfl, rfl⟩⟩⟩
  refine ⟨_, ran, Net.delivers_run {} sampleDate sampleChrono "acme" "laptop" "" {} (pushesDraft {}) ?_ ran⟩
  refine ⟨trivial, fun noted added => ⟨trivial, fun begun pushed => ⟨?_, fun _ _ => trivial⟩⟩⟩
  cases added
  rw [Net.begin_single (by decide) rfl rfl] at pushed
  cases pushed
  intro items request
  cases request
  exact Or.inr ⟨⟨fun _ _ found => (by cases found), fun _ _ => trivial⟩,
    fun _ => ⟨fun _ _ => rfl, landing _ rfl rfl, fun _ _ => trivial⟩⟩

theorem failed_insert_loses_draft : ∃ net, run (Net.step {} sampleDate sampleChrono "acme") laptop
    (pushesDraft { entries := fun _ => { write := true } }) = some net ∧ ¬ net.Delivers "acme" := by
  refine ⟨_, run_cons.mpr ⟨_, rfl, run_cons.mpr ⟨_, Net.begin_single (by decide) rfl rfl,
    run_cons.mpr ⟨_, rfl, rfl⟩⟩⟩, fun delivers => ?_⟩
  obtain ⟨items, -, item, -, -, -, row, found, -⟩ := delivers 0 9 _ rfl (0, ⟨"note", .upsert, 5⟩)
    (mem_singleton.mpr rfl) (fun left => by cases left)
  cases found

end Aeterna.Device
