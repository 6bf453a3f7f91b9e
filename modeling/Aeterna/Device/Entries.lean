import Aeterna.Access.Identity
import Aeterna.Core.Redaction
import Aeterna.Lib.JsonValue
import Aeterna.Lib.Table
import Mathlib.Algebra.Order.Ring.Int
import Mathlib.Logic.Function.Basic

/-!
The server's end of the synchronisation with a device (`cli/src/server/sync.rs`): the `memory_entries` table
and the two handlers that devices push to and pull from.
-/

namespace Aeterna.Device
open Lib List

def splitSign : List Char → Bool × List Char
  | '-' :: digits => (true, digits)
  | '+' :: digits => (false, digits)
  | digits => (false, digits)

def parseI64 (s : String) : Option Int64 :=
  let signed := splitSign s.toList
  let magnitude : Int := Nat.ofDigitChars 10 signed.2 0
  let value : Int := if signed.1 then -magnitude else magnitude
  if signed.2 ≠ [] ∧ signed.2.all Char.isDigit ∧ -2 ^ 63 ≤ value ∧ value < 2 ^ 63 then some (Int64.ofInt value)
    else none

structure Chrono where
  /-- `DateTime::from_timestamp_millis`, where the time is within its range, and `to_rfc3339`. -/
  toRfc3339 : Int64 → Option String
  /-- `DateTime::parse_from_rfc3339` and `timestamp_millis`. -/
  parseFromRfc3339 : String → Option Int64
  /-- The text of a time is read back, unless its year has more than four digits. -/
  parse_own : ∀ t s, toRfc3339 t = some s → parseFromRfc3339 s = some t ∨ parseFromRfc3339 s = none
  own_not_number : ∀ t s, toRfc3339 t = some s → parseI64 s = none
  number_not_own : ∀ s n, parseI64 s = some n → parseFromRfc3339 s = none

namespace Chrono
variable (chrono : Chrono)

def parseTimestamp (s : String) : Option Int64 := (chrono.parseFromRfc3339 s).or (parseI64 s)

def formatTimestamp (millis : Int64) : String := (chrono.toRfc3339 millis).getD (toString millis)

end Chrono

def deviceTimes : List (String × Int64) :=
  [("1970-01-01T00:00:00.005Z", 5), ("1970-01-01T00:00:00.007Z", 7), ("1970-01-01T00:00:00.009Z", 9)]

def serverTimes : List (String × Int64) :=
  [("1970-01-01T00:00:00.005+00:00", 5), ("1970-01-01T00:00:00.007+00:00", 7), ("1970-01-01T00:00:00.009+00:00", 9)]

def knownTimes : List (String × Int64) := serverTimes ++ deviceTimes

def sampleChrono : Chrono where
  toRfc3339 t := (knownTimes.find? (fun known => known.2 = t)).map (·.1)
  parseFromRfc3339 s := (knownTimes.find? (fun known => known.1 = s)).map (·.2)
  parse_own := by
    intro t s shown
    obtain ⟨known, found, rfl⟩ := Option.map_eq_some_iff.mp shown
    have same : known.2 = t := by simpa using find?_some found
    have all : ∀ known ∈ knownTimes, (knownTimes.find? (fun other => other.1 = known.1)).map (·.2) =
        some known.2 := by
      decide
    rw [← same]
    exact Or.inl (all known (mem_of_find?_eq_some found))
  own_not_number := by
    intro t s shown
    obtain ⟨known, found, rfl⟩ := Option.map_eq_some_iff.mp shown
    have all : ∀ known ∈ knownTimes, parseI64 known.1 = none := by decide
    exact all known (mem_of_find?_eq_some found)
  number_not_own := by
    intro s n number
    rw [Option.map_eq_none_iff, find?_eq_none]
    intro known member same
    have all : ∀ known ∈ knownTimes, parseI64 known.1 = none := by decide
    have text : known.1 = s := by simpa using same
    rw [← text, all known member] at number
    cases number

structure EntryRow where
  (tenantId content memoryLayer : String)
  properties : Option JsonValue
  importanceScore : Option Float32
  deviceId : Option String
  (createdAt updatedAt : Int64)
  deletedAt : Option Int64

abbrev MemoryEntries := Table String EntryRow

structure SyncPushEntry where
  (id content layer : String)
  tags : List String := []
  metadata : Option JsonValue := none
  importance : Float := 0
  (createdAt updatedAt : String)
  deletedAt : Option String := none

structure SyncPushRequest where
  entries : List SyncPushEntry
  deviceId : String

structure SyncConflictEntry where
  (id remoteContent remoteUpdatedAt : String)

structure SyncPullQuery where
  (sinceCursor layers : Option String)
  limit : Int64 := 100

structure SyncPullEntry where
  (id content layer : String)
  embedding : Option (List Float32) := none
  tags : List String
  metadata : Option JsonValue
  importance : Float
  (createdAt updatedAt : String)

structure SyncPullResponse where
  entries : List SyncPullEntry
  cursor : String
  hasMore : Bool

def mergeTagsIntoProperties (properties tags : JsonValue) : JsonValue :=
  match properties with
  | .object fields => .object (fields.filter (fun field => field.1 ≠ "tags") ++ [("tags", tags)])
  | other => other

namespace SyncPushEntry
variable (chrono : Chrono) (entry : SyncPushEntry)

def createdAtMillis : Int64 := (chrono.parseTimestamp entry.createdAt).getD 0

def updatedAtMillis : Int64 := (chrono.parseTimestamp entry.updatedAt).getD 0

def deletedAtMillis : Option Int64 := entry.deletedAt.bind chrono.parseTimestamp

def mergedProperties : JsonValue :=
  mergeTagsIntoProperties (entry.metadata.getD (.object [])) (.array (entry.tags.map .string))

def inserted (tenant device : String) : EntryRow where
  tenantId := tenant
  content := entry.content
  memoryLayer := entry.layer
  properties := some entry.mergedProperties
  importanceScore := some entry.importance.toFloat32
  deviceId := some device
  createdAt := entry.createdAtMillis chrono
  updatedAt := entry.updatedAtMillis chrono
  deletedAt := none

def overwritten (device : String) (row : EntryRow) : EntryRow :=
  { row with
    content := entry.content
    memoryLayer := entry.layer
    properties := some entry.mergedProperties
    importanceScore := some entry.importance.toFloat32
    deviceId := some device
    updatedAt := entry.updatedAtMillis chrono
    deletedAt := none }

def marked (tenant device : String) (deletedAt : Int64) (row : EntryRow) : EntryRow :=
  if row.tenantId = tenant then
    { row with deletedAt := some deletedAt, updatedAt := entry.updatedAtMillis chrono, deviceId := some device }
  else row

end SyncPushEntry

structure SyncPushResponse where
  cursor : String
  conflicts : List SyncConflictEntry
  embeddings : List (String × List Float32) := []

structure Transaction where
  table : MemoryEntries
  aborted : Bool := false
  conflicts : List SyncConflictEntry := []

structure Fault where
  select : Bool := false
  write : Bool := false

def Transaction.push (chrono : Chrono) (tenant device : String) (fault : Fault) (entry : SyncPushEntry)
    (tx : Transaction) : Transaction :=
  let aborted := tx.aborted || fault.select
  -- a `SELECT` that fails is taken for one that finds nothing
  let existing : Option EntryRow := if aborted then none else (tx.table.get entry.id).filter (·.tenantId = tenant)
  match existing.filter (fun row => entry.updatedAtMillis chrono < row.updatedAt) with
  | some row =>
    { tx with aborted, conflicts := tx.conflicts ++ [⟨entry.id, row.content, chrono.formatTimestamp row.updatedAt⟩] }
  | none =>
    -- the error of a write is dropped
    if aborted || fault.write then { tx with aborted := true }
    else
      match entry.deletedAtMillis chrono with
      | some deletedAt =>
        { tx with
          table := tx.table.update (fun id row =>
            if id = entry.id then entry.marked chrono tenant device deletedAt row else row) }
      | none =>
        { tx with
          table := tx.table.upsert entry.id (entry.inserted chrono tenant device) (entry.overwritten chrono device) }

structure Faults where
  entries : Nat → Fault := fun _ => {}
  transaction : Bool := false

/-- `push_handler` for a tenant. The `COMMIT` of a transaction in which a statement has failed takes
everything back, and is answered like any other. -/
def pushHandler (chrono : Chrono) (tenant : String) (now : Int64) (faults : Faults) (req : SyncPushRequest)
    (table : MemoryEntries) : MemoryEntries × Option SyncPushResponse :=
  if faults.transaction then (table, none)
  else
    let tx : Transaction := req.entries.zipIdx.foldl
      (fun tx e => tx.push chrono tenant req.deviceId (faults.entries e.2) e.1) { table }
    (if tx.aborted then table else tx.table, some ⟨toString now, tx.conflicts, []⟩)

def SyncPushEntry.arrive (chrono : Chrono) (tenant device : String) (entry : SyncPushEntry) (row : Option EntryRow) :
    Option EntryRow :=
  if row.any (fun row => row.tenantId = tenant ∧ entry.updatedAtMillis chrono < row.updatedAt) then row
  else
    match entry.deletedAtMillis chrono with
    | some deletedAt => row.map (entry.marked chrono tenant device deletedAt)
    | none => some ((row.map (entry.overwritten chrono device)).getD (entry.inserted chrono tenant device))

def arriveRows (chrono : Chrono) (tenant device : String) (rows : String → Option EntryRow) (entry : SyncPushEntry) :
    String → Option EntryRow :=
  Function.update rows entry.id (entry.arrive chrono tenant device (rows entry.id))

namespace Transaction
variable (chrono : Chrono) (tenant device : String) (fault : Fault) (entry : SyncPushEntry) {tx : Transaction}

theorem push_clean (sound : tx.aborted = false) : (tx.push chrono tenant device {} entry).aborted = false ∧
    (tx.push chrono tenant device {} entry).table.get = arriveRows chrono tenant device tx.table.get entry := by
  have skips : (tx.table.get entry.id).any
      (fun row => row.tenantId = tenant ∧ entry.updatedAtMillis chrono < row.updatedAt) =
      (((tx.table.get entry.id).filter (·.tenantId = tenant)).filter
        (fun row => entry.updatedAtMillis chrono < row.updatedAt)).isSome := by
    cases tx.table.get entry.id with
    | none => rfl
    | some row => by_cases own : row.tenantId = tenant <;> by_cases newer :
        entry.updatedAtMillis chrono < row.updatedAt <;>
        simp [own, newer, Option.filter]
  unfold push
  simp only [sound, Bool.or_self, Bool.false_eq_true, if_false]
  split
  · rename_i row found
    rw [found] at skips
    refine ⟨rfl, ?_⟩
    have stays : entry.arrive chrono tenant device (tx.table.get entry.id) = tx.table.get entry.id := if_pos skips
    rw [arriveRows, stays, Function.update_eq_self]
  · rename_i found
    rw [found] at skips
    have arrives : entry.arrive chrono tenant device (tx.table.get entry.id) = match entry.deletedAtMillis chrono with
        | some deletedAt => (tx.table.get entry.id).map (entry.marked chrono tenant device deletedAt)
        | none => some (((tx.table.get entry.id).map (entry.overwritten chrono device)).getD
            (entry.inserted chrono tenant device)) := by
      unfold SyncPushEntry.arrive
      rw [skips]
      rfl
    cases deletion : entry.deletedAtMillis chrono with
    | some deletedAt =>
      rw [deletion] at arrives
      refine ⟨rfl, funext fun id => ?_⟩
      show (Table.update _ tx.table).get id = _
      rw [Table.get_update, arriveRows, Function.update_apply, arrives]
      by_cases same : id = entry.id
      · subst same
        simp
      · simp [same]
    | none =>
      rw [deletion] at arrives
      refine ⟨rfl, funext fun id => ?_⟩
      show (tx.table.upsert _ _ _).get id = _
      rw [Table.get_upsert, arriveRows, Function.update_apply, arrives]

theorem push_aborted (aborted : tx.aborted = true) : (tx.push chrono tenant device fault entry).aborted = true := by
  unfold push
  simp [aborted]

theorem push_fault (sound : tx.aborted = false) : (tx.push chrono tenant device fault entry).aborted = true ∨
    tx.push chrono tenant device fault entry = tx.push chrono tenant device {} entry := by
  obtain ⟨select, write⟩ := fault
  cases select with
  | true =>
    refine Or.inl ?_
    unfold push
    simp
  | false =>
    cases write with
    | false => exact Or.inr rfl
    | true =>
      unfold push
      simp only [sound, Bool.or_self, Bool.false_eq_true, if_false, Bool.or_true, if_true]
      split
      · exact Or.inr rfl
      · exact Or.inl rfl

def pushAll (entries : List (SyncPushEntry × Nat)) (tx : Transaction) : Transaction :=
  entries.foldl (fun tx e => tx.push chrono tenant device {} e.1) tx

theorem pushAll_clean (entries : List (SyncPushEntry × Nat)) (tx : Transaction) (sound : tx.aborted = false) :
    (pushAll chrono tenant device entries tx).aborted = false ∧ (pushAll chrono tenant device entries tx).table.get =
      (entries.map Prod.fst).foldl (arriveRows chrono tenant device) tx.table.get := by
  induction entries generalizing tx with
  | nil => exact ⟨sound, rfl⟩
  | cons e rest ih =>
    obtain ⟨still, rows⟩ := push_clean chrono tenant device e.1 sound
    obtain ⟨ends, all⟩ := ih _ still
    exact ⟨ends, all.trans (by rw [rows]; rfl)⟩

theorem foldl_fault (faults : Nat → Fault) (entries : List (SyncPushEntry × Nat)) (tx : Transaction) :
    (entries.foldl (fun tx e => tx.push chrono tenant device (faults e.2) e.1) tx).aborted = true ∨
      entries.foldl (fun tx e => tx.push chrono tenant device (faults e.2) e.1) tx =
        pushAll chrono tenant device entries tx := by
  have aborts : ∀ (entries : List (SyncPushEntry × Nat)) (tx : Transaction), tx.aborted = true →
      (entries.foldl (fun tx e => tx.push chrono tenant device (faults e.2) e.1) tx).aborted = true := by
    intro entries
    induction entries with
    | nil => exact fun _ aborted => aborted
    | cons e rest ih => exact fun tx aborted => ih _ (push_aborted chrono tenant device _ _ aborted)
  induction entries generalizing tx with
  | nil => exact Or.inr rfl
  | cons e rest ih =>
    cases sound : tx.aborted with
    | true => exact Or.inl (aborts (e :: rest) tx sound)
    | false =>
      rcases push_fault chrono tenant device (faults e.2) e.1 sound with aborted | same
      · exact Or.inl (aborts rest _ aborted)
      · rw [foldl_cons, same]
        exact ih _

end Transaction

section
variable (chrono : Chrono) (tenant : String) (now : Int64) (faults : Faults) (req : SyncPushRequest)
  (table : MemoryEntries)

theorem pushHandler_rows : (pushHandler chrono tenant now faults req table).1 = table ∨
    (pushHandler chrono tenant now faults req table).1.get =
      req.entries.foldl (arriveRows chrono tenant req.deviceId) table.get := by
  unfold pushHandler
  split
  · exact Or.inl rfl
  · dsimp only
    split
    · exact Or.inl rfl
    · rename_i committed
      refine Or.inr ?_
      rcases Transaction.foldl_fault chrono tenant req.deviceId faults.entries req.entries.zipIdx { table } with aborted | same
      · exact absurd aborted committed
      · rw [same, (Transaction.pushAll_clean chrono tenant req.deviceId req.entries.zipIdx { table } rfl).2,
          zipIdx_map_fst]

variable {faults req}

theorem pushHandler_clean (begun : faults.transaction = false)
    (clean : ∀ n < req.entries.length, faults.entries n = {}) :
    (pushHandler chrono tenant now faults req table).1.get =
      req.entries.foldl (arriveRows chrono tenant req.deviceId) table.get := by
  have same : req.entries.zipIdx.foldl (fun tx e => tx.push chrono tenant req.deviceId (faults.entries e.2) e.1)
      { table } =
      Transaction.pushAll chrono tenant req.deviceId req.entries.zipIdx { table } := by
    refine foldl_ext _ _ _ (fun tx e member => ?_)
    have inside := snd_lt_of_mem_zipIdx member
    rw [clean e.2 (by omega)]
  obtain ⟨sound, rows⟩ := Transaction.pushAll_clean chrono tenant req.deviceId req.entries.zipIdx { table } rfl
  unfold pushHandler
  rw [begun]
  simp only [Bool.false_eq_true, if_false, same, sound]
  rw [rows, zipIdx_map_fst]

end

/-- How the database orders texts. -/
structure Collation where
  le : String → String → Bool
  total : ∀ a b, le a b || le b a
  trans : ∀ a b c, le a b → le b c → le a c
  antisymm : ∀ a b, le a b → le b a → a = b

/-- `ORDER BY updated_at ASC, id ASC`. -/
def Collation.rowLe (collation : Collation) (a b : String × EntryRow) : Bool :=
  a.2.updatedAt < b.2.updatedAt || (a.2.updatedAt = b.2.updatedAt && collation.le a.1 b.1)

/-- `LIMIT`; a negative one is an error of the statement. -/
def sqlLimit {α : Type} (limit : Int64) (rows : List α) : Option (List α) :=
  if limit < 0 then none else some (rows.take limit.toInt.toNat)

def defaultLayers : List String := ["project", "team", "org", "tenant"]

namespace SyncPullQuery
variable (query : SyncPullQuery)

def since : Int64 := (query.sinceCursor.bind parseI64).getD 0

def layerSet : List String :=
  query.layers.elim defaultLayers (fun s => (s.toList.splitOn ',').map (fun l => trimText (String.ofList l)))

def pageLimit : Int64 := max query.limit 1

end SyncPullQuery

def tagsOf (properties : Option JsonValue) : List String :=
  match properties.map (JsonValue.get "tags") with
  | some (.array items) => (items.mapM JsonValue.asStr).getD []
  | _ => []

def pullEntry (chrono : Chrono) (decimalDigit : Char → Bool) (row : String × EntryRow) : SyncPullEntry where
  id := row.1
  content := redactPii decimalDigit row.2.content
  layer := row.2.memoryLayer
  tags := tagsOf row.2.properties
  metadata := row.2.properties
  importance := (row.2.importanceScore.getD 0).toFloat
  createdAt := chrono.formatTimestamp row.2.createdAt
  updatedAt := chrono.formatTimestamp row.2.updatedAt

/-- The rows that the query of `pull_handler` selects, before its `LIMIT`. -/
def selected (collation : Collation) (tenant : String) (since : Int64) (table : MemoryEntries) :
    List (String × EntryRow) :=
  (table.rows.filter (fun row => row.2.tenantId = tenant ∧ since < row.2.updatedAt ∧
    row.2.deletedAt = none)).mergeSort
    collation.rowLe

def pullHandler (chrono : Chrono) (collation : Collation) (decimalDigit : Char → Bool) (tenant : String)
    (table : MemoryEntries) (query : SyncPullQuery) : SyncPullResponse :=
  let limit := query.pageLimit
  let fetchLimit := limit + 1
  let rows := (sqlLimit (fetchLimit * 2) (selected collation tenant query.since table)).getD []
  let allMatching := rows.filter (fun row => row.2.memoryLayer ∈ query.layerSet)
  let entries := (allMatching.take limit.toInt.toNat).map (pullEntry chrono decimalDigit)
  { entries
    cursor := toString (entries.getLast?.elim query.since
      (fun entry => (chrono.parseTimestamp entry.updatedAt).getD 0))
    hasMore := limit.toInt.toNat < allMatching.length }

end Aeterna.Device
