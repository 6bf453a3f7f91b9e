import Aeterna.Device.Entries
import Aeterna.Lib.KeyedFold
import Aeterna.Lib.LateDeletes

namespace Aeterna.Device
open Lib EntryRow List

/-- What a row shows of a memory. -/
structure Face where
  (content layer : String)
  updatedAt : Int64
  deletedAt : Option Int64
  deriving DecidableEq

def EntryRow.face (row : EntryRow) : Face where
  content := row.content
  layer := row.memoryLayer
  updatedAt := row.updatedAt
  deletedAt := row.deletedAt

section
variable (chrono : Chrono) (tenant : String)

variable (arrivals : List (Int64 × SyncPushRequest)) (device : String)

def pushAll (table : MemoryEntries) : MemoryEntries :=
  arrivals.foldl (fun table arrival => (pushHandler chrono tenant arrival.1 {} arrival.2 table).1) table

def Carries (entries : List SyncPushEntry) : Prop :=
  (arrivals.flatMap (·.2.entries)).Perm entries

def PushesConverge (table : MemoryEntries) (entries : List SyncPushEntry) : Prop :=
  ∀ arrivals arrivals', Carries arrivals entries → Carries arrivals' entries → ∀ id,
    ((pushAll chrono tenant arrivals table).get id).map face =
      ((pushAll chrono tenant arrivals' table).get id).map face

def pushWrites : Writes SyncPushEntry (String × String) Int Int64 where
  time entry := (entry.updatedAtMillis chrono).toInt
  deletion entry := entry.deletedAtMillis chrono
  value entry := (entry.content, entry.layer)

def EntryRow.held (row : EntryRow) : Held (String × String) Int Int64 where
  value := (row.content, row.memoryLayer)
  time := row.updatedAt.toInt
  deleted := row.deletedAt

def Foreign (row : Option EntryRow) : Prop := ∃ r ∈ row, r.tenantId ≠ tenant

instance (row : Option EntryRow) : Decidable (Foreign tenant row) :=
  decidable_of_iff (row.any (·.tenantId ≠ tenant) = true) (by cases row <;> simp [Foreign])

def rowStep (row : Option EntryRow) : Option (Held (String × String) Int Int64) → SyncPushEntry →
    Option (Held (String × String) Int Int64) :=
  if Foreign tenant row then (pushWrites chrono).overwrite else (pushWrites chrono).arrive

variable {id : String} {row : Option EntryRow} {table : MemoryEntries}
  {entries : List SyncPushEntry}

@[simp] theorem foreign_some {r : EntryRow} : Foreign tenant (some r) ↔ r.tenantId ≠ tenant := by simp [Foreign]

@[simp] theorem foreign_none : ¬ Foreign tenant none := by simp [Foreign]

variable (entry : SyncPushEntry)

theorem arrive_own (own : ¬ Foreign tenant row) : ¬ Foreign tenant (entry.arrive chrono tenant device row) ∧
    (entry.arrive chrono tenant device row).map EntryRow.held =
      (pushWrites chrono).arrive (row.map EntryRow.held) entry := by
  have deletion : (pushWrites chrono).deletion entry = entry.deletedAtMillis chrono := rfl
  unfold SyncPushEntry.arrive Writes.arrive
  rw [deletion]
  cases row with
  | none =>
    cases entry.deletedAtMillis chrono with
    | none => exact ⟨by simp [SyncPushEntry.inserted], rfl⟩
    | some d => exact ⟨by simp, rfl⟩
  | some r =>
    have tenancy : r.tenantId = tenant := by simpa using own
    by_cases older : entry.updatedAtMillis chrono < r.updatedAt
    · have older' : (pushWrites chrono).time entry < r.held.time := Int64.lt_iff_toInt_lt.mp older
      simp [tenancy, older, older']
    · have newer : ¬ (pushWrites chrono).time entry < r.held.time :=
        fun less => older (Int64.lt_iff_toInt_lt.mpr less)
      simp only [Option.any_some, tenancy, older, Option.map_some, newer, and_false, decide_false, Bool.false_eq_true,
        if_false]
      cases entry.deletedAtMillis chrono with
      | none => exact ⟨by simp [SyncPushEntry.overwritten, tenancy], rfl⟩
      | some d => exact ⟨by simp [SyncPushEntry.marked, tenancy], by simp [SyncPushEntry.marked, tenancy]; rfl⟩

theorem arrive_foreign (foreign : Foreign tenant row) : Foreign tenant (entry.arrive chrono tenant device row) ∧
    (entry.arrive chrono tenant device row).map EntryRow.held =
      (pushWrites chrono).overwrite (row.map EntryRow.held) entry := by
  obtain ⟨r, found, tenancy⟩ := foreign
  cases found
  have deletion : (pushWrites chrono).deletion entry = entry.deletedAtMillis chrono := rfl
  unfold SyncPushEntry.arrive Writes.overwrite
  rw [deletion]
  simp only [Option.any_some, tenancy, false_and, decide_false, Bool.false_eq_true, if_false]
  cases entry.deletedAtMillis chrono with
  | none => exact ⟨by simpa [SyncPushEntry.overwritten] using tenancy, rfl⟩
  | some d => exact ⟨by simp [SyncPushEntry.marked, tenancy], by simp [SyncPushEntry.marked, tenancy]⟩

theorem arrive_step (row : Option EntryRow) :
    (Foreign tenant (entry.arrive chrono tenant device row) ↔ Foreign tenant row) ∧
    (entry.arrive chrono tenant device row).map EntryRow.held =
      rowStep chrono tenant row (row.map EntryRow.held) entry := by
  unfold rowStep
  by_cases foreign : Foreign tenant row
  · rw [if_pos foreign]
    obtain ⟨still, held⟩ := arrive_foreign chrono tenant device entry foreign
    exact ⟨iff_of_true still foreign, held⟩
  · rw [if_neg foreign]
    obtain ⟨still, held⟩ := arrive_own chrono tenant device entry foreign
    exact ⟨iff_of_false still foreign, held⟩

theorem pushHandler_get (now : Int64) (req : SyncPushRequest) (id : String) :
    (pushHandler chrono tenant now {} req table).1.get id =
      (req.entries.filter (·.id = id)).foldl (fun row entry => entry.arrive chrono tenant req.deviceId row)
        (table.get id) := by
  have keyed : Keyed (fun _ => True) (fun (rows : String → Option EntryRow) id => rows id) SyncPushEntry.id
      (arriveRows chrono tenant req.deviceId) (fun row entry => entry.arrive chrono tenant req.deviceId row) :=
    { same := fun rows entry _ => Function.update_self _ _ _
      other := fun rows entry id _ apart => Function.update_of_ne apart _ _ }
  rw [pushHandler_clean chrono tenant now table rfl (fun _ _ => rfl)]
  exact keyed.foldl (fun _ _ => trivial) table.get id

theorem arrive_all (row : Option EntryRow) (own : List SyncPushEntry) :
    (Foreign tenant (own.foldl (fun row entry => entry.arrive chrono tenant device row) row) ↔ Foreign tenant row) ∧
      (own.foldl (fun row entry => entry.arrive chrono tenant device row) row).map EntryRow.held =
        own.foldl (rowStep chrono tenant row) (row.map EntryRow.held) := by
  induction own generalizing row with
  | nil => exact ⟨Iff.rfl, rfl⟩
  | cons entry rest ih =>
    obtain ⟨same, held⟩ := arrive_step chrono tenant device entry row
    obtain ⟨later, ends⟩ := ih (entry.arrive chrono tenant device row)
    rw [foldl_cons, foldl_cons, ← held]
    refine ⟨later.trans same, ends.trans ?_⟩
    unfold rowStep
    simp only [same]

variable {chrono tenant}

theorem pushAll_held : ((pushAll chrono tenant arrivals table).get id).map EntryRow.held =
      ((arrivals.flatMap (·.2.entries)).filter (·.id = id)).foldl (rowStep chrono tenant (table.get id))
        ((table.get id).map EntryRow.held) := by
  induction arrivals generalizing table with
  | nil => rfl
  | cons arrival rest ih =>
    obtain ⟨same, held⟩ := arrive_all chrono tenant arrival.2.deviceId (table.get id)
      (arrival.2.entries.filter (·.id = id))
    rw [← pushHandler_get chrono tenant arrival.1] at same held
    show ((pushAll chrono tenant rest _).get id).map EntryRow.held = _
    rw [ih, flatMap_cons, filter_append, foldl_append, held]
    unfold rowStep
    simp only [same]

theorem face_eq_iff {row row' : Option EntryRow} :
    row.map face = row'.map face ↔ row.map EntryRow.held = row'.map EntryRow.held := by
  cases row <;> cases row' <;>
    simp [face, EntryRow.held, Int64.toInt_inj, and_assoc]

theorem pushesConverge_iff : PushesConverge chrono tenant table entries ↔ ∀ id,
    OneOutcome (rowStep chrono tenant (table.get id)) ((table.get id).map EntryRow.held)
      (entries.filter (·.id = id)) := by
  constructor
  · intro converges id l l' perm perm'
    -- one request that holds the entries for the id in this order, and then all others
    have arranged : ∀ l : List SyncPushEntry, l.Perm (entries.filter (·.id = id)) →
        Carries [(0, ⟨l ++ entries.filter (fun entry => !decide (entry.id = id)), ""⟩)] entries ∧
          (l ++ entries.filter (fun entry => !decide (entry.id = id))).filter (·.id = id) = l := by
      intro l perm
      refine ⟨?_, ?_⟩
      · show ([_].flatMap _).Perm entries
        rw [flatMap_singleton]
        exact (perm.append_right _).trans (filter_append_perm _ _)
      · have all : l.filter (·.id = id) = l :=
          filter_eq_self.mpr (fun entry member => (mem_filter.mp (perm.subset member)).2)
        rw [filter_append, all, filter_filter]
        simp
    obtain ⟨carries, sees⟩ := arranged l perm
    obtain ⟨carries', sees'⟩ := arranged l' perm'
    have same := face_eq_iff.mp (converges _ _ carries carries' id)
    rw [pushAll_held, pushAll_held, flatMap_singleton, flatMap_singleton, sees, sees'] at same
    exact same
  · intro converges arrivals arrivals' carries carries' id
    rw [face_eq_iff, pushAll_held, pushAll_held]
    exact converges id _ _ (carries.filter _) (carries'.filter _)

variable (chrono tenant table entries)

/-- The entries of an id leave the same in every order. Where the id is another tenant's, each upsert
overwrites the row and no deletion reaches it; elsewhere the latest entry must not be a deletion that marks
now one content, now another. -/
def Settles (id : String) : Prop :=
  if Foreign tenant (table.get id) then ((entries.filter (·.id = id)).filter (pushWrites chrono).puts).length ≤ 1
  else (pushWrites chrono).Settled ((table.get id).map EntryRow.held) (entries.filter (·.id = id))

def DistinctTimes : Prop :=
  entries.Pairwise (fun a b => a.id = b.id → a.updatedAtMillis chrono ≠ b.updatedAtMillis chrono)

variable {chrono tenant table entries}

theorem settles_iff (distinct : DistinctTimes chrono entries) : Settles chrono tenant table entries id ↔
    OneOutcome (rowStep chrono tenant (table.get id)) ((table.get id).map EntryRow.held)
      (entries.filter (·.id = id)) := by
  have apart : (entries.filter (·.id = id)).Pairwise
      (fun a b => (pushWrites chrono).time a ≠ (pushWrites chrono).time b) := by
    refine List.Pairwise.imp_of_mem ?_ (distinct.sublist filter_sublist)
    intro a b first second differ same
    have ids : a.id = b.id := by
      have left := (mem_filter.mp first).2
      have right := (mem_filter.mp second).2
      simp only [decide_eq_true_eq] at left right
      rw [left, right]
    exact differ ids (Int64.toInt_inj.mp same)
  unfold Settles rowStep
  split
  · exact (Writes.overwrite_converges_iff apart).symm
  · exact (Writes.converges_iff apart).symm

/-- Pushed entries end up the same in every order of arrival if and only if the entries of each id do. -/
theorem pushes_converge_iff (distinct : DistinctTimes chrono entries) :
    PushesConverge chrono tenant table entries ↔ ∀ id, Settles chrono tenant table entries id := by
  rw [pushesConverge_iff]
  exact forall_congr' fun id => (settles_iff distinct).symm

end

def written : SyncPushEntry where
  id := "note"
  content := "one"
  layer := "team"
  createdAt := "1970-01-01T00:00:00.005Z"
  updatedAt := "1970-01-01T00:00:00.005Z"

def revised : SyncPushEntry :=
  { written with content := "two", updatedAt := "1970-01-01T00:00:00.007Z" }

def dropped : SyncPushEntry :=
  { written with updatedAt := "1970-01-01T00:00:00.007Z", deletedAt := some "1970-01-01T00:00:00.007Z" }

theorem two_writes_converge_iff : PushesConverge sampleChrono "acme" {} [written, revised] ↔
    ∀ id, Settles sampleChrono "acme" {} [written, revised] id :=
  pushes_converge_iff (by unfold DistinctTimes; decide)

theorem written_and_dropped_diverge : ¬ PushesConverge sampleChrono "acme" {} [written, dropped] := by
  intro converges
  have settles := (settles_iff (by unfold DistinctTimes; decide)).mpr (pushesConverge_iff.mp converges "note")
  rw [Settles, if_neg (by decide)] at settles
  have first : written ∈ [written, dropped].filter (·.id = "note") := mem_filter.mpr ⟨by simp, by decide⟩
  have second : dropped ∈ [written, dropped].filter (·.id = "note") := mem_filter.mpr ⟨by simp, by decide⟩
  have latest : ∀ entry ∈ [written, dropped].filter (·.id = "note"),
      (pushWrites sampleChrono).time entry ≤ (pushWrites sampleChrono).time dropped := by decide
  have marks := settles dropped second Writes.counts_none latest (by decide) written first Writes.counts_none
      (by decide)
  cases marks

end Aeterna.Device
