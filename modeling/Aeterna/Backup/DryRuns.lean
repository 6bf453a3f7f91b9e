import Aeterna.Backup.ImportTenants
import Aeterna.Lib.KeyedFold

namespace Aeterna.Backup
open Lib (JsonValue Table run run_cons taken Raises Overwrites)
open List

def OnConflict.cell {ρ : Type} (c : OnConflict ρ) (row : Option ρ) (new : ρ) : ρ := (row.map (c.rewrite new)).getD new

section
variable {setup : ImportSetup} {tenantId : String} {mode : ImportMode}

def newRows {ρ : Type} (part : ImportPart) (read : JsonValue → Except String ρ) (id : String) (plan : List Planned) :
    List ρ :=
  (recordsOf part plan).filterMap (fun record => if textField record "id" = id then (read record).toOption else none)

theorem rows_after {ρ : Type} {part : ImportPart} {rows : ImportTables → Table String ρ}
    {read : JsonValue → Except String ρ} {c : OnConflict ρ}
    (upserts : Upserts setup tenantId mode part rows read c) {plan : List Planned} {db last : Database}
    (ran : run (importStep setup tenantId mode) db plan = some last) (id : String) :
    (rows last.tables).get id = Lib.rewrite c.cell (newRows part read id plan) ((rows db.tables).get id) := by
  induction plan generalizing db with
  | nil =>
    cases ran
    rfl
  | cons s rest ih =>
    obtain ⟨other, record⟩ := s
    obtain ⟨next, first, ran⟩ := run_cons.mp ran
    have done := (execute_ok (importStep_eq_some.mp first)).2
    have split : newRows part read id ((other, record) :: rest) =
        newRows part read id [(other, record)] ++ newRows part read id rest := by
      unfold newRows
      rw [← filterMap_append, ← recordsOf_append]
      rfl
    rw [ih ran, split, Lib.rewrite, Lib.rewrite, foldl_append]
    congr 1
    by_cases own : other = part
    · subst own
      obtain ⟨new, same, tables⟩ := upserts.own done
      have held : newRows other read id [(other, record)] = if textField record "id" = id then [new] else [] := by
        by_cases here : textField record "id" = id <;> simp [newRows, recordsOf, here, same, Except.toOption]
      rw [tables, Table.get_upsert, held]
      by_cases here : textField record "id" = id
      · subst here
        rw [if_pos rfl, if_pos rfl]
        rfl
      · rw [if_neg (Ne.symm here), if_neg here]
        rfl
    · have held : newRows part read id [(other, record)] = [] := by simp [newRows, recordsOf, own]
      rw [upserts.other (writeRecord_only done) own, held]
      rfl

end

section
variable {ρ γ : Type} {c : OnConflict ρ} {written : ρ → γ} {news : List ρ} {old : ρ}

theorem cells_some : Lib.rewrite c.cell news (some old) = some
    (news.foldl (fun row new => c.rewrite new row) old) := by
  induction news generalizing old with
  | nil => rfl
  | cons new rest ih => exact ih

theorem kept_by_all (never : ∀ old new, c.applies old new = false) :
    Lib.rewrite c.cell news (some old) = some old := by
  rw [cells_some]
  induction news with
  | nil => rfl
  | cons new rest ih =>
    have kept : c.rewrite new old = old := by rw [OnConflict.rewrite, never]; rfl
    rw [foldl_cons, kept]
    exact ih

theorem overwritten_iff (assigns : Assigns c written) (always : ∀ old new, c.applies old new = true)
    (last : ∀ old first second, c.assign (c.assign old first) second = c.assign old second) :
    Lib.rewrite c.cell news (some old) = some old ↔ ∀ new ∈ news.getLast?, written new = written old := by
  have assigned : ∀ old new, c.cell (some old) new = c.assign old new := fun old new => if_pos (always old new)
  have overwrites : Overwrites c.cell c.cell :=
    { kept := fun _ _ => rfl
      last := fun row first second => by rw [assigned, assigned, assigned, last]
      same := fun row content => by
        cases row with
        | none =>
          show c.cell (some content) content = content
          rw [assigned, assigns]
        | some row => rw [assigned, assigned, last] }
  rcases eq_nil_or_concat news with rfl | ⟨before, new, rfl⟩
  · exact ⟨fun _ _ absent => absurd absent (by simp), fun _ => rfl⟩
  · rw [concat_eq_append, overwrites.rewrite_some, assigned, Option.some.injEq, assigns]
    simp

theorem merged_iff {updatedAt : ρ → Int}
    (applies : ∀ old new, c.applies old new = decide (updatedAt old < updatedAt new))
    (updated : ∀ old new, updatedAt (c.assign old new) = updatedAt new) :
    Lib.rewrite c.cell news (some old) = some old ↔ ∀ new ∈ news, ¬ updatedAt old < updatedAt new := by
  have raises : Raises (fun row new => c.rewrite new row) updatedAt updatedAt :=
    { kept := fun row new earlier => by
        rw [OnConflict.rewrite, applies, decide_eq_false earlier]
        rfl
      raised := fun row new later => by
        rw [OnConflict.rewrite, applies, decide_eq_true later, if_pos rfl, updated] }
  rw [cells_some, Option.some.injEq]
  exact raises.same_iff

structure Timed (c : ImportMode → OnConflict ρ) (written : ρ → γ) (updatedAt : ρ → Int) : Prop where
  assigns : ∀ mode, Assigns (c mode) written
  applies : ∀ mode old new, (c mode).applies old new = mode.overwrites (updatedAt old) (updatedAt new)
  last : ∀ mode old first second, (c mode).assign ((c mode).assign old first) second = (c mode).assign old second
  updated : ∀ mode old new, updatedAt ((c mode).assign old new) = updatedAt new

def TimedChange (mode : ImportMode) (written : ρ → γ) (updatedAt : ρ → Int) (old : ρ) (news : List ρ) : Prop :=
  match mode with
  | .merge => ∃ new ∈ news, updatedAt old < updatedAt new
  | .replace => ∃ new ∈ news.getLast?, written new ≠ written old
  | .skipExisting => False

def UnitChange (mode : ImportMode) (old : UnitRow) (news : List UnitRow) : Prop :=
  mode ≠ .skipExisting ∧ ∃ new ∈ news.getLast?, new.written ≠ old.written

theorem timed_changes {c : ImportMode → OnConflict ρ} {updatedAt : ρ → Int} (timed : Timed c written updatedAt)
    (mode : ImportMode) :
    Lib.rewrite (c mode).cell news (some old) ≠ some old ↔ TimedChange mode written updatedAt old news := by
  cases mode with
  | merge =>
    rw [Ne, merged_iff (timed.applies .merge) (timed.updated .merge)]
    simp [TimedChange]
  | replace =>
    rw [Ne, overwritten_iff (timed.assigns .replace) (timed.applies .replace) (timed.last .replace)]
    simp [TimedChange]
  | skipExisting =>
    refine ⟨fun changed => changed ?_, False.elim⟩
    exact kept_by_all (timed.applies .skipExisting)

theorem memory_timed : Timed memoryConflict MemoryRow.written MemoryRow.updatedAt where
  assigns := memory_assigns
  applies _ _ _ := rfl
  last _ _ _ _ := rfl
  updated _ _ _ := rfl

theorem knowledge_timed : Timed knowledgeConflict KnowledgeRow.written KnowledgeRow.updatedAt where
  assigns := knowledge_assigns
  applies _ _ _ := rfl
  last _ _ _ _ := rfl
  updated _ _ _ := rfl

theorem unit_changes (mode : ImportMode) {old : UnitRow} {news : List UnitRow} :
    Lib.rewrite (unitConflict mode).cell news (some old) ≠ some old ↔ UnitChange mode old news := by
  by_cases skips : mode = .skipExisting
  · subst skips
    refine ⟨fun changed => absurd ?_ changed, fun change => absurd rfl change.1⟩
    exact kept_by_all (fun _ _ => rfl)
  · have always : ∀ old new, (unitConflict mode).applies old new = true := fun _ _ => decide_eq_true skips
    rw [Ne, overwritten_iff (unit_assigns mode) always (fun _ _ _ => rfl)]
    simp [UnitChange, skips]

end

section
variable {ρ : Type} {tenantId : String} {records : List JsonValue} {t : ImportTables} {c : ImportConflict}

theorem mem_recordIds {id : String} : id ∈ recordIds records ↔ ∃ record ∈ records,
    (record.get "id").asStr = some id :=
  mem_filterMap

theorem mem_existingRows {tenant updated : ρ → String} {rows : Table String ρ} {existing : String × String} :
    existing ∈ existingRows tenantId tenant updated rows records ↔
      ∃ id row, rows.get id = some row ∧ id ∈ recordIds records ∧ tenant row = tenantId ∧
        existing = (id, updated row) := by
  unfold existingRows
  rw [mem_map]
  constructor
  · rintro ⟨⟨id, row⟩, member, same⟩
    obtain ⟨inside, matching⟩ := mem_filter.mp member
    obtain ⟨among, own⟩ := of_decide_eq_true matching
    exact ⟨id, row, Table.get_eq_some.mpr inside, among, own, same.symm⟩
  · rintro ⟨id, row, held, among, own, same⟩
    exact ⟨(id, row), mem_filter.mpr ⟨Table.get_eq_some.mp held, decide_eq_true ⟨among, own⟩⟩, same.symm⟩

def FoundIn (tenantId : String) (rows : Table String ρ) (tenant : ρ → String) (records : List JsonValue)
    (entityType : String) (resolution : String → ρ → String) (c : ImportConflict) : Prop :=
  ∃ id row, rows.get id = some row ∧ id ∈ recordIds records ∧ tenant row = tenantId ∧
    c = existsConflict entityType id (resolution id row)

theorem mem_found {tenant updated : ρ → String} {rows : Table String ρ} {entityType : String}
    {resolve : String × String → String} :
    c ∈ (existingRows tenantId tenant updated rows records).map
      (fun existing => existsConflict entityType existing.1 (resolve existing)) ↔
      FoundIn tenantId rows tenant records entityType (fun id row => resolve (id, updated row)) c := by
  rw [mem_map]
  constructor
  · rintro ⟨existing, member, rfl⟩
    obtain ⟨id, row, held, among, own, rfl⟩ := mem_existingRows.mp member
    exact ⟨id, row, held, among, own, rfl⟩
  · rintro ⟨id, row, held, among, own, rfl⟩
    exact ⟨_, mem_existingRows.mpr ⟨id, row, held, among, own, rfl⟩, rfl⟩

end

inductive ImportRow where
  | memory (row : MemoryRow)
  | knowledge (row : KnowledgeRow)
  | unit (row : UnitRow)
  | policy (row : PolicyRow)
  | role (createdAt : Int)
  | event (row : EventRow)

def rowById {ρ : Type} (rows : Table String ρ) (record : JsonValue) : Option ρ :=
  (record.get "id").asStr.bind rows.get

def existingRow (tenantId : String) (part : ImportPart) (record : JsonValue) (t : ImportTables) : Option ImportRow :=
  match part with
  | .memories => (rowById t.memoryEntries record).map .memory
  | .knowledge => (rowById t.knowledgeItems record).map .knowledge
  | .orgUnits => (rowById t.organizationalUnits record).map .unit
  | .policies => (rowById t.unitPolicies record).map .policy
  | .roleAssignments => ((roleKey tenantId record).toOption.bind t.userRoles.get).map .role
  | .governanceEvents => (rowById t.governanceEvents record).map .event

def ImportPart.entityType : ImportPart → String
  | .memories => "memory"
  | .knowledge => "knowledge"
  | .orgUnits => "org_unit"
  | .policies => "policy"
  | .roleAssignments => "role_assignment"
  | .governanceEvents => "governance_event"

def Names (c : ImportConflict) (part : ImportPart) (record : JsonValue) : Prop :=
  c.entityType = part.entityType ∧ (part = .roleAssignments ∨ (record.get "id").asStr = some c.entityId)

section
variable (tenantId : String) (archive : ImportArchive) (conflicts : List ImportConflict) (before after : ImportTables)

structure PartPredicted (part : ImportPart) : Prop where
  listed : ∀ record ∈ importedRecords archive part, (existingRow tenantId part record before).isSome →
    ∃ c ∈ conflicts, Names c part record
  resolved : ∀ c ∈ conflicts, ∀ record ∈ importedRecords archive part, Names c part record →
    (c.resolution = "overwritten" ↔ existingRow tenantId part record after ≠ existingRow tenantId part record before)

structure Predicts : Prop where
  existing : ∀ c ∈ conflicts, ∃ part record, part ≠ .governanceEvents ∧ record ∈ importedRecords archive part ∧
    Names c part record ∧ (existingRow tenantId part record before).isSome
  parts : ∀ part, part ≠ .governanceEvents → PartPredicted tenantId archive conflicts before after part

variable {tenantId archive conflicts before after}

theorem FoundIn.entityType {ρ : Type} {rows : Table String ρ} {tenant : ρ → String} {records : List JsonValue}
    {entityType : String} {resolution : String → ρ → String} {c : ImportConflict}
    (found : FoundIn tenantId rows tenant records entityType resolution c) :
    c.entityType = entityType := by
  obtain ⟨id, row, _, _, _, rfl⟩ := found
  rfl

theorem table_predicted {ρ : Type} {part : ImportPart} {rows final : Table String ρ} {tenant : ρ → String}
    {row : ρ → ImportRow}
    {resolution : String → ρ → String} (injective : Function.Injective row) (identified : part ≠ .roleAssignments)
    (held : ∀ record, existingRow tenantId part record before = (rowById rows record).map row)
    (left : ∀ record, existingRow tenantId part record after = (rowById final record).map row)
    (found : ∀ c, (c ∈ conflicts ∧ c.entityType = part.entityType) ↔
      FoundIn tenantId rows tenant (importedRecords archive part) part.entityType resolution c) :
    PartPredicted tenantId archive conflicts before after part ↔
      ∀ record ∈ importedRecords archive part, ∀ id old, (record.get "id").asStr = some id → rows.get id = some old →
        tenant old = tenantId ∧ (resolution id old = "overwritten" ↔ final.get id ≠ some old) := by
  have changed : ∀ record id old, (record.get "id").asStr = some id → rows.get id = some old →
      (existingRow tenantId part record after ≠ existingRow tenantId part record before ↔
        final.get id ≠ some old) := by
    intro record id old named there
    have first : rowById rows record = some old := by rw [rowById, named, Option.bind_some, there]
    have second : rowById final record = final.get id := by rw [rowById, named, Option.bind_some]
    rw [held, left, first, second, Ne, (Option.map_injective injective).eq_iff]
  constructor
  · intro predicted record member id old named there
    have present : (existingRow tenantId part record before).isSome := by
      rw [held, rowById, named, Option.bind_some, there]
      rfl
    obtain ⟨c, listed, names⟩ := predicted.listed record member present
    obtain ⟨id', old', there', _, own, same⟩ := (found c).mp ⟨listed, names.1⟩
    have sameId : c.entityId = id := Option.some.inj ((names.2.resolve_left identified).symm.trans named)
    have resolved := predicted.resolved c listed record member names
    rw [changed record id old named there] at resolved
    subst same
    obtain rfl : id' = id := sameId
    obtain rfl := Option.some.inj (there.symm.trans there')
    exact ⟨own, resolved⟩
  · intro each
    refine ⟨fun record member present => ?_, fun c listed record member names => ?_⟩
    · rw [held, Option.isSome_map] at present
      obtain ⟨old, present⟩ := Option.isSome_iff_exists.mp present
      obtain ⟨id, named, there⟩ := Option.bind_eq_some_iff.mp present
      have own := (each record member id old named there).1
      obtain ⟨listed, type⟩ := (found _).mpr ⟨id, old, there, mem_recordIds.mpr ⟨record, member, named⟩, own, rfl⟩
      exact ⟨_, listed, type, .inr named⟩
    · obtain ⟨id, old, there, _, _, rfl⟩ := (found c).mp ⟨listed, names.1⟩
      have named : (record.get "id").asStr = some id := names.2.resolve_left identified
      rw [changed record id old named there]
      exact (each record member id old named there).2

theorem unlisted_predicted {part : ImportPart} (unlisted : ∀ c ∈ conflicts, c.entityType ≠ part.entityType) :
    PartPredicted tenantId archive conflicts before after part ↔
      ∀ record ∈ importedRecords archive part, existingRow tenantId part record before = none := by
  constructor
  · intro predicted record member
    by_contra present
    obtain ⟨c, listed, names⟩ := predicted.listed record member (Option.isSome_iff_ne_none.mpr present)
    exact unlisted c listed names.1
  · intro none_
    refine ⟨fun record member present => ?_, fun c listed _ _ names => absurd names.1 (unlisted c listed)⟩
    rw [none_ record member] at present
    cases present

end

section
variable (setup : ImportSetup) (tenantId : String) (mode : ImportMode) (archive : ImportArchive) (db : Database)

def writtenRows {ρ : Type} (part : ImportPart) (read : JsonValue → Except String ρ) (id : String) : List ρ :=
  newRows part read id (taken (importStep setup tenantId mode) db (importPlan archive))

def TimedForetold {ρ γ : Type} (later : Bool) (written : ρ → γ) (updatedAt : ρ → Int) (old : ρ) (news : List ρ) :
    Prop :=
  match mode with
  | .merge => later ↔ ∃ new ∈ news, updatedAt old < updatedAt new
  | .replace => ∃ new ∈ news.getLast?, written new ≠ written old
  | .skipExisting => True

/-- Every record that has a row is a memory, a knowledge item or a unit, its row is of the tenant, and the
records that are said to overwrite it do. -/
structure Foreseeable : Prop where
  memories : ∀ record ∈ importedRecords archive .memories, ∀ id old, (record.get "id").asStr = some id →
    db.tables.memoryEntries.get id = some old → old.tenantId = tenantId ∧
      TimedForetold mode
        (laterText (incomingUpdated (importedRecords archive .memories) id) (setup.timeText .memories old.updatedAt))
        MemoryRow.written MemoryRow.updatedAt old
        (writtenRows setup tenantId mode archive db .memories (memoryRow setup tenantId) id)
  knowledge : ∀ record ∈ importedRecords archive .knowledge, ∀ id old, (record.get "id").asStr = some id →
    db.tables.knowledgeItems.get id = some old → old.tenantId = tenantId ∧
      TimedForetold mode
        (laterText (incomingUpdated (importedRecords archive .knowledge) id)
          (setup.timeText .knowledge old.updatedAt))
        KnowledgeRow.written KnowledgeRow.updatedAt old
        (writtenRows setup tenantId mode archive db .knowledge (knowledgeRow setup tenantId) id)
  units : ∀ record ∈ importedRecords archive .orgUnits, ∀ id old, (record.get "id").asStr = some id →
    db.tables.organizationalUnits.get id = some old → old.tenantId = tenantId ∧
      (mode ≠ .skipExisting → ∃ new ∈
        (writtenRows setup tenantId mode archive db .orgUnits (unitRow setup tenantId) id).getLast?,
        new.written ≠ old.written)
  policies : ∀ record ∈ importedRecords archive .policies, existingRow tenantId .policies record db.tables = none
  roles : ∀ record ∈ importedRecords archive .roleAssignments,
    existingRow tenantId .roleAssignments record db.tables = none

variable {setup tenantId mode archive db}

theorem timed_foretold {ρ γ : Type} {records : List JsonValue} {id text : String} {written : ρ → γ}
    {updatedAt : ρ → Int} {old : ρ} {news : List ρ} : (timedResolution mode records (id, text) = "overwritten" ↔
      TimedChange mode written updatedAt old news) ↔
      TimedForetold mode (laterText (incomingUpdated records id) text) written updatedAt old news := by
  cases mode with
  | merge =>
    unfold timedResolution TimedChange TimedForetold
    cases laterText (incomingUpdated records id) text <;> simp
  | replace => simp [timedResolution, TimedChange, TimedForetold]
  | skipExisting => simp [timedResolution, TimedChange, TimedForetold]

theorem unit_foretold {old : UnitRow} {news : List UnitRow} :
    (unitResolution mode = "overwritten" ↔ UnitChange mode old news) ↔
    (mode ≠ .skipExisting → ∃ new ∈ news.getLast?, new.written ≠ old.written) := by
  by_cases skips : mode = .skipExisting <;> simp [unitResolution, UnitChange, skips]

theorem mem_dryConflicts {t : ImportTables} {c : ImportConflict} : c ∈ dryConflicts setup tenantId mode archive t ↔
    FoundIn tenantId t.memoryEntries MemoryRow.tenantId (importedRecords archive .memories) "memory"
      (fun id row => timedResolution mode (importedRecords archive .memories)
        (id, setup.timeText .memories row.updatedAt)) c ∨
    FoundIn tenantId t.knowledgeItems KnowledgeRow.tenantId (importedRecords archive .knowledge) "knowledge"
      (fun id row => timedResolution mode (importedRecords archive .knowledge)
        (id, setup.timeText .knowledge row.updatedAt)) c ∨
    FoundIn tenantId t.organizationalUnits UnitRow.tenantId (importedRecords archive .orgUnits) "org_unit"
      (fun _ _ => unitResolution mode) c := by
  rw [dryConflicts, mem_append, mem_append, or_assoc]
  exact or_congr mem_found (or_congr mem_found mem_found)

theorem dryConflicts_type {t : ImportTables} {c : ImportConflict}
    (member : c ∈ dryConflicts setup tenantId mode archive t) :
    c.entityType = "memory" ∨ c.entityType = "knowledge" ∨ c.entityType = "org_unit" := by
  rcases mem_dryConflicts.mp member with found | found | found
  · exact .inl found.entityType
  · exact .inr (.inl found.entityType)
  · exact .inr (.inr found.entityType)

section
variable {t : ImportTables} {c : ImportConflict}

theorem memories_found : c ∈ dryConflicts setup tenantId mode archive t ∧
    c.entityType = ImportPart.memories.entityType ↔
    FoundIn tenantId t.memoryEntries MemoryRow.tenantId (importedRecords archive .memories) "memory"
      (fun id row => timedResolution mode (importedRecords archive .memories)
        (id, setup.timeText .memories row.updatedAt)) c := by
  constructor
  · rintro ⟨member, type⟩
    rcases mem_dryConflicts.mp member with found | found | found
    · exact found
    · exact absurd (found.entityType.symm.trans type) (by decide)
    · exact absurd (found.entityType.symm.trans type) (by decide)
  · exact fun found => ⟨mem_dryConflicts.mpr (.inl found), found.entityType⟩

theorem knowledge_found : c ∈ dryConflicts setup tenantId mode archive t ∧
    c.entityType = ImportPart.knowledge.entityType ↔
    FoundIn tenantId t.knowledgeItems KnowledgeRow.tenantId (importedRecords archive .knowledge) "knowledge"
      (fun id row => timedResolution mode (importedRecords archive .knowledge)
        (id, setup.timeText .knowledge row.updatedAt)) c := by
  constructor
  · rintro ⟨member, type⟩
    rcases mem_dryConflicts.mp member with found | found | found
    · exact absurd (found.entityType.symm.trans type) (by decide)
    · exact found
    · exact absurd (found.entityType.symm.trans type) (by decide)
  · exact fun found => ⟨mem_dryConflicts.mpr (.inr (.inl found)), found.entityType⟩

theorem units_found : c ∈ dryConflicts setup tenantId mode archive t ∧ c.entityType = ImportPart.orgUnits.entityType ↔
    FoundIn tenantId t.organizationalUnits UnitRow.tenantId (importedRecords archive .orgUnits) "org_unit"
      (fun _ _ => unitResolution mode) c := by
  constructor
  · rintro ⟨member, type⟩
    rcases mem_dryConflicts.mp member with found | found | found
    · exact absurd (found.entityType.symm.trans type) (by decide)
    · exact absurd (found.entityType.symm.trans type) (by decide)
    · exact found
  · exact fun found => ⟨mem_dryConflicts.mpr (.inr (.inr found)), found.entityType⟩

end

section
variable {last : Database}
  (ran : run (importStep setup tenantId mode) db (taken (importStep setup tenantId mode) db (importPlan archive)) =
    some last)
include ran

theorem memories_predicted :
    PartPredicted tenantId archive (dryConflicts setup tenantId mode archive db.tables) db.tables last.tables .memories ↔
      ∀ record ∈ importedRecords archive .memories, ∀ id old, (record.get "id").asStr = some id →
        db.tables.memoryEntries.get id = some old → old.tenantId = tenantId ∧ TimedForetold mode
            (laterText (incomingUpdated (importedRecords archive .memories) id)
              (setup.timeText .memories old.updatedAt))
            MemoryRow.written MemoryRow.updatedAt old
            (writtenRows setup tenantId mode archive db .memories (memoryRow setup tenantId) id) := by
  refine (table_predicted (fun _ _ same => ImportRow.memory.inj same) (by decide) (fun _ => rfl) (fun _ => rfl)
    (fun _ => memories_found)).trans ?_
  refine forall₂_congr (fun record member => forall₄_congr (fun id old named held => and_congr_right (fun _ => ?_)))
  rw [rows_after memories_upserts ran, held, timed_changes memory_timed, timed_foretold]
  rfl

theorem knowledge_predicted :
    PartPredicted tenantId archive (dryConflicts setup tenantId mode archive db.tables) db.tables last.tables .knowledge ↔
      ∀ record ∈ importedRecords archive .knowledge, ∀ id old, (record.get "id").asStr = some id →
        db.tables.knowledgeItems.get id = some old → old.tenantId = tenantId ∧ TimedForetold mode
            (laterText (incomingUpdated (importedRecords archive .knowledge) id)
              (setup.timeText .knowledge old.updatedAt))
            KnowledgeRow.written KnowledgeRow.updatedAt old
            (writtenRows setup tenantId mode archive db .knowledge (knowledgeRow setup tenantId) id) := by
  refine (table_predicted (fun _ _ same => ImportRow.knowledge.inj same) (by decide) (fun _ => rfl) (fun _ => rfl)
    (fun _ => knowledge_found)).trans ?_
  refine forall₂_congr (fun record member => forall₄_congr (fun id old named held => and_congr_right (fun _ => ?_)))
  rw [rows_after knowledge_upserts ran, held, timed_changes knowledge_timed, timed_foretold]
  rfl

theorem units_predicted :
    PartPredicted tenantId archive (dryConflicts setup tenantId mode archive db.tables) db.tables last.tables .orgUnits ↔
      ∀ record ∈ importedRecords archive .orgUnits, ∀ id old, (record.get "id").asStr = some id →
        db.tables.organizationalUnits.get id = some old → old.tenantId = tenantId ∧ (mode ≠ .skipExisting → ∃ new ∈
            (writtenRows setup tenantId mode archive db .orgUnits (unitRow setup tenantId) id).getLast?,
            new.written ≠ old.written) := by
  refine (table_predicted (fun _ _ same => ImportRow.unit.inj same) (by decide) (fun _ => rfl) (fun _ => rfl)
    (fun _ => units_found)).trans ?_
  refine forall₂_congr (fun record member => forall₄_congr (fun id old named held => and_congr_right (fun _ => ?_)))
  rw [rows_after units_upserts ran, held, unit_changes, unit_foretold]
  rfl

end

theorem unlisted_part {last : Database} {part : ImportPart} (memory : part ≠ .memories)
    (knowledge : part ≠ .knowledge) (unit : part ≠ .orgUnits) :
    PartPredicted tenantId archive (dryConflicts setup tenantId mode archive db.tables) db.tables last.tables part ↔
      ∀ record ∈ importedRecords archive part, existingRow tenantId part record db.tables = none := by
  refine unlisted_predicted (fun c member type => ?_)
  have types := dryConflicts_type member
  rw [type] at types
  revert types memory knowledge unit
  cases part <;> decide

theorem dryConflicts_existing {c : ImportConflict} (member : c ∈ dryConflicts setup tenantId mode archive db.tables) :
    ∃ part record, part ≠ .governanceEvents ∧ record ∈ importedRecords archive part ∧ Names c part record ∧
      (existingRow tenantId part record db.tables).isSome := by
  rcases mem_dryConflicts.mp member with ⟨id, old, held, among, _, rfl⟩ | ⟨id, old, held, among, _, rfl⟩ |
    ⟨id, old, held, among, _, rfl⟩
  · obtain ⟨record, inside, named⟩ := mem_recordIds.mp among
    refine ⟨.memories, record, by decide, inside, ⟨rfl, .inr named⟩, ?_⟩
    rw [existingRow, rowById, named, Option.bind_some, held]
    rfl
  · obtain ⟨record, inside, named⟩ := mem_recordIds.mp among
    refine ⟨.knowledge, record, by decide, inside, ⟨rfl, .inr named⟩, ?_⟩
    rw [existingRow, rowById, named, Option.bind_some, held]
    rfl
  · obtain ⟨record, inside, named⟩ := mem_recordIds.mp among
    refine ⟨.orgUnits, record, by decide, inside, ⟨rfl, .inr named⟩, ?_⟩
    rw [existingRow, rowById, named, Option.bind_some, held]
    rfl

theorem dryConflicts_predict (intact : archive.mismatches = []) :
    Predicts tenantId archive (dryConflicts setup tenantId mode archive db.tables) db.tables
      (runImport setup tenantId mode false archive { db }).2.db.tables ↔
        Foreseeable setup tenantId mode archive db := by
  have ran : run (importStep setup tenantId mode) db
      (taken (importStep setup tenantId mode) db (importPlan archive)) = _ :=
    runImport_taken intact db
  constructor
  · intro predicts
    exact
      { memories := (memories_predicted ran).mp (predicts.parts .memories (by decide))
        knowledge := (knowledge_predicted ran).mp (predicts.parts .knowledge (by decide))
        units := (units_predicted ran).mp (predicts.parts .orgUnits (by decide))
        policies := (unlisted_part (by decide) (by decide) (by decide)).mp (predicts.parts .policies (by decide))
        roles := (unlisted_part (by decide) (by decide) (by decide)).mp
          (predicts.parts .roleAssignments (by decide)) }
  · intro foreseeable
    refine ⟨fun c member => dryConflicts_existing member, fun part counted => ?_⟩
    cases part with
    | memories => exact (memories_predicted ran).mpr foreseeable.memories
    | knowledge => exact (knowledge_predicted ran).mpr foreseeable.knowledge
    | orgUnits => exact (units_predicted ran).mpr foreseeable.units
    | policies => exact (unlisted_part (by decide) (by decide) (by decide)).mpr foreseeable.policies
    | roleAssignments => exact (unlisted_part (by decide) (by decide) (by decide)).mpr foreseeable.roles
    | governanceEvents => exact absurd rfl counted

end

/-- A dry run writes nothing; and where it reports, it predicts the import exactly if this can be foreseen. -/
theorem dryRun_predicts (setup : ImportSetup) (tenantId : String) (mode : ImportMode) (archive : ImportArchive)
    (db : Database) :
    ((∀ reached ∈ (runImport setup tenantId mode true archive { db }).2.states, reached = db) ∧
      ∀ counts conflicts, (runImport setup tenantId mode true archive { db }).1 = .ok (counts, conflicts) →
        Predicts tenantId archive conflicts db.tables
          (runImport setup tenantId mode false archive { db }).2.db.tables) ↔
      (archive.mismatches = [] → Foreseeable setup tenantId mode archive db) := by
  have still : (runImport setup tenantId mode true archive { db }).2 = { db } :=
    runImport_still (fun real => by cases real.1) _
  have unwritten : ∀ reached ∈ (runImport setup tenantId mode true archive { db }).2.states, reached = db := by
    rw [still]
    exact forall_mem_cons.mpr ⟨rfl, fun _ absent => absurd absent not_mem_nil⟩
  by_cases intact : archive.mismatches = []
  · have reports : (runImport setup tenantId mode true archive { db }).1 = _ :=
      congrArg Prod.fst (runImport_dry intact { db })
    constructor
    · rintro ⟨_, predicts⟩ _
      exact (dryConflicts_predict intact).mp (predicts _ _ reports)
    · intro foreseeable
      refine ⟨unwritten, fun counts conflicts reported => ?_⟩
      cases reported.symm.trans reports
      exact (dryConflicts_predict intact).mpr (foreseeable intact)
  · refine ⟨fun _ same => absurd same intact, fun _ => ⟨unwritten, fun counts conflicts reported => ?_⟩⟩
    rw [runImport_mismatched intact, Lib.Eff.fail_run] at reported
    cases reported

def companyWithPolicy : Database where
  tables :=
    { organizationalUnits :=
        { rows := [("u", { name := "A", type := "company", parentId := none, tenantId := "a", metadata := .null, createdAt := 0 })]
          unique := by decide }
      unitPolicies :=
        { rows := [("p", { unitId := "u", policy := .null, createdAt := 0, updatedAt := 0 })]
          unique := by decide } }
  consistent := by decide +kernel

def policyAgain : JsonValue := .object [("id", .string "p"), ("unit_id", .string "u")]

def policyArchive : ImportArchive where
  entityCounts := { orgUnits := 1, policies := 1 }
  file
    | .orgUnits => some [.object [("id", .string "u"), ("name", .string "A"), ("type", .string "company")]]
    | .policies => some [policyAgain]
    | _ => none

theorem dryRun_misses_policy :
    ¬ ((∀ reached ∈ (runImport storageSetup "a" .merge true policyArchive { db := companyWithPolicy }).2.states,
        reached = companyWithPolicy) ∧
      ∀ counts conflicts, (runImport storageSetup "a" .merge true policyArchive { db := companyWithPolicy }).1 = .ok
        (counts, conflicts) →
        Predicts "a" policyArchive conflicts companyWithPolicy.tables
          (runImport storageSetup "a" .merge false policyArchive { db := companyWithPolicy }).2.db.tables) := by
  rintro ⟨_, predicts⟩
  have predicted := predicts _ _ (congrArg Prod.fst (runImport_dry rfl { db := companyWithPolicy }))
  have unlisted := (unlisted_part (by decide) (by decide) (by decide)).mp (predicted.parts .policies (by decide))
  have absent := unlisted policyAgain (mem_singleton_self policyAgain)
  have present : (existingRow "a" .policies policyAgain companyWithPolicy.tables).isSome := by decide +kernel
  rw [absent] at present
  cases present

end Aeterna.Backup
