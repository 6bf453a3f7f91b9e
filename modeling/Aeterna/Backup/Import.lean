import Aeterna.Backup.Archive
import Aeterna.Backup.ImportTables
import Aeterna.Backup.Jobs
import Aeterna.Lib.Effect

/-!
The import of a backup into a tenant (`cli/src/server/backup_api.rs`).
-/

namespace Aeterna.Backup
open Lib (JsonValue Table Eff except_bind_ok except_map_ok run run_cons taken taken_of_run Throughout visited throughout_iff_visited)
open Lib.Eff
open List hiding get

theorem execute_ok {setup : ImportSetup} {tenantId : String} {record : JsonValue} {mode : ImportMode}
    {part : ImportPart} {db next : Database} (done : execute setup tenantId record mode part db = .ok next) :
    setup.refuses part = none ∧ writeRecord setup tenantId record mode part db.tables = .ok next.tables := by
  unfold execute at done
  split at done
  · cases done
  · rename_i accepted
    obtain ⟨tables, written, done⟩ := except_bind_ok.mp done
    split at done
    · cases done
      exact ⟨accepted, written⟩
    · cases done

structure WritesOnly (part : ImportPart) (before after : ImportTables) : Prop where
  memoryEntries : part ≠ .memories → after.memoryEntries = before.memoryEntries
  knowledgeItems : part ≠ .knowledge → after.knowledgeItems = before.knowledgeItems
  organizationalUnits : part ≠ .orgUnits → after.organizationalUnits = before.organizationalUnits
  unitPolicies : part ≠ .policies → after.unitPolicies = before.unitPolicies
  userRoles : part ≠ .roleAssignments → after.userRoles = before.userRoles
  governanceEvents : part ≠ .governanceEvents → after.governanceEvents = before.governanceEvents

structure Upserts {ρ : Type} (setup : ImportSetup) (tenantId : String) (mode : ImportMode) (part : ImportPart)
    (rows : ImportTables → Table String ρ) (read : JsonValue → Except String ρ) (c : OnConflict ρ) : Prop where
  own : ∀ {record t after}, writeRecord setup tenantId record mode part t = .ok after →
    ∃ new, read record = .ok new ∧ rows after = (rows t).upsert (textField record "id") new (c.rewrite new)
  other : ∀ {other t after}, WritesOnly other t after → other ≠ part → rows after = rows t

section
variable {setup : ImportSetup} {tenantId : String} {mode : ImportMode}

theorem writeRecord_only {part : ImportPart} {record : JsonValue} {t after : ImportTables}
    (written : writeRecord setup tenantId record mode part t = .ok after) : WritesOnly part t after := by
  cases part with
  | roleAssignments =>
    obtain ⟨_, _, written⟩ := except_bind_ok.mp written
    obtain ⟨_, _, written⟩ := except_bind_ok.mp written
    cases written
    constructor <;> first | exact fun _ => rfl | exact fun apart => absurd rfl apart
  | _ =>
    obtain ⟨_, _, rfl⟩ := except_map_ok.mp written
    constructor <;> first | exact fun _ => rfl | exact fun apart => absurd rfl apart

theorem memories_upserts : Upserts setup tenantId mode .memories ImportTables.memoryEntries (memoryRow setup tenantId)
      (memoryConflict mode) where
  own written := by
    obtain ⟨new, read, rfl⟩ := except_map_ok.mp written
    exact ⟨new, read, rfl⟩
  other := WritesOnly.memoryEntries

theorem knowledge_upserts :
    Upserts setup tenantId mode .knowledge ImportTables.knowledgeItems (knowledgeRow setup tenantId)
      (knowledgeConflict mode) where
  own written := by
    obtain ⟨new, read, rfl⟩ := except_map_ok.mp written
    exact ⟨new, read, rfl⟩
  other := WritesOnly.knowledgeItems

theorem units_upserts :
    Upserts setup tenantId mode .orgUnits ImportTables.organizationalUnits (unitRow setup tenantId)
      (unitConflict mode) where
  own written := by
    obtain ⟨new, read, rfl⟩ := except_map_ok.mp written
    exact ⟨new, read, rfl⟩
  other := WritesOnly.organizationalUnits

theorem policies_upserts :
    Upserts setup tenantId mode .policies ImportTables.unitPolicies (policyRow setup) (policyConflict mode) where
  own written := by
    obtain ⟨new, read, rfl⟩ := except_map_ok.mp written
    exact ⟨new, read, rfl⟩
  other := WritesOnly.unitPolicies

theorem events_upserts :
    Upserts setup tenantId mode .governanceEvents ImportTables.governanceEvents (eventRow setup tenantId)
      (eventConflict mode) where
  own written := by
    obtain ⟨new, read, rfl⟩ := except_map_ok.mp written
    exact ⟨new, read, rfl⟩
  other := WritesOnly.governanceEvents

theorem roles_written {record : JsonValue} {t after : ImportTables}
    (written : writeRecord setup tenantId record mode .roleAssignments t = .ok after) :
    ∃ key createdAt, roleKey tenantId record = .ok key ∧ castTime setup record "created_at" = .ok createdAt ∧
      after.userRoles = t.userRoles.insertOrIgnore key createdAt := by
  obtain ⟨key, read, written⟩ := except_bind_ok.mp written
  obtain ⟨createdAt, time, written⟩ := except_bind_ok.mp written
  cases written
  exact ⟨key, createdAt, read, time, rfl⟩

end

/-- An archive that was opened, with the lines of its files that are JSON. -/
structure ImportArchive where
  mismatches : List ChecksumMismatch := []
  entityCounts : EntityCounts
  file : ImportPart → Option (List JsonValue)

structure ImportConflict where
  (entityType entityId reason resolution : String)
  deriving DecidableEq

def checksumsFailed (mismatches : List ChecksumMismatch) : String :=
  "Checksum validation failed for " ++ mismatches.length.repr ++ " file(s): " ++
    ", ".intercalate (mismatches.map (fun m =>
    m.filename.text ++ ": expected=" ++ m.expected ++ " actual=" ++ m.actual))

structure ImportWorld where
  db : Database
  past : List Database := []

def ImportWorld.states (w : ImportWorld) : List Database := w.db :: w.past

abbrev ImportM := Eff ImportWorld String

section
variable (setup : ImportSetup) (tenantId : String) (mode : ImportMode)

def recordIds (records : List JsonValue) : List String := records.filterMap (fun r => (r.get "id").asStr)

def existingRows {ρ : Type} (tenant : ρ → String) (updated : ρ → String) (rows : Table String ρ)
    (records : List JsonValue) :
    List (String × String) :=
  (rows.rows.filter (fun e => e.1 ∈ recordIds records ∧ tenant e.2 = tenantId)).map (fun e => (e.1, updated e.2))

def incomingUpdated (records : List JsonValue) (id : String) : Option String :=
  (records.find? (fun r => (r.get "id").asStr = some id)).bind (fun r => (r.get "updated_at").asStr)

def laterText (incoming : Option String) (existing : String) : Bool :=
  match incoming with
  | some text => existing < text
  | none => false

def timedResolution (records : List JsonValue) (existing : String × String) : String :=
  match mode with
  | .merge => if laterText (incomingUpdated records existing.1) existing.2 then "overwritten" else "kept_newer"
  | .replace => "overwritten"
  | .skipExisting => "skipped"

def unitResolution : String := if mode = .skipExisting then "skipped" else "overwritten"

def existsConflict (entityType : String) (id resolution : String) : ImportConflict :=
  { entityType, entityId := id, reason := "Record already exists", resolution }

def memoryConflicts (records : List JsonValue) (t : ImportTables) : List ImportConflict :=
  (existingRows tenantId MemoryRow.tenantId
    (fun row => setup.timeText .memories row.updatedAt) t.memoryEntries records).map
    (fun existing => existsConflict "memory" existing.1 (timedResolution mode records existing))

def knowledgeConflicts (records : List JsonValue) (t : ImportTables) : List ImportConflict :=
  (existingRows tenantId KnowledgeRow.tenantId
    (fun row => setup.timeText .knowledge row.updatedAt) t.knowledgeItems records).map
    (fun existing => existsConflict "knowledge" existing.1 (timedResolution mode records existing))

def unitConflicts (records : List JsonValue) (t : ImportTables) : List ImportConflict :=
  (existingRows tenantId UnitRow.tenantId (fun _ => "") t.organizationalUnits records).map
    (fun existing => existsConflict "org_unit" existing.1 (unitResolution mode))

variable (dryRun : Bool) (archive : ImportArchive)

def runStatement (part : ImportPart) (record : JsonValue) : ImportM Unit := fun w =>
  match execute setup tenantId record mode part w.db with
  | .ok db => (.ok (), { db, past := w.past ++ [db] })
  | .error e => (.error e, w)

def runStatements (part : ImportPart) (records : List JsonValue) : ImportM Unit :=
  forEach (runStatement setup tenantId mode part) records

def importRecords (part : ImportPart) (find : ImportTables → List ImportConflict) (records : List JsonValue) :
    ImportM (Nat × List ImportConflict) :=
  if dryRun then do
    let w ← get
    pure (records.length, find w.db.tables)
  else do
    runStatements setup tenantId mode part records
    pure (records.length, [])

def importFile (part : ImportPart) (find : List JsonValue → ImportTables → List ImportConflict) :
    ImportM (Nat × List ImportConflict) :=
  match archive.file part with
  | none | some [] => pure (0, [])
  | some records => importRecords setup tenantId mode dryRun part (find records) records

def importMemories : ImportM (Nat × List ImportConflict) :=
  importFile setup tenantId mode dryRun archive .memories (memoryConflicts setup tenantId mode)

def importKnowledge : ImportM (Nat × List ImportConflict) :=
  importFile setup tenantId mode dryRun archive .knowledge (knowledgeConflicts setup tenantId mode)

def importGovernanceEvents : ImportM (Nat × List ImportConflict) :=
  importFile setup tenantId mode dryRun archive .governanceEvents (fun _ _ => [])

def importGovernance : ImportM ((Nat × Nat × Nat) × List ImportConflict) :=
  match archive.file .orgUnits with
  | none => pure ((0, 0, 0), [])
  | some units => do
    let (orgCount, conflicts) ← importRecords setup tenantId mode dryRun .orgUnits
        (unitConflicts tenantId mode units) units
    match archive.file .policies with
    -- the role assignments are not looked for
    | none => pure ((orgCount, 0, 0), conflicts)
    | some policies =>
      let (policyCount, _) ← importRecords setup tenantId mode dryRun .policies (fun _ => []) policies
      match archive.file .roleAssignments with
      | none => pure ((orgCount, policyCount, 0), conflicts)
      | some roles =>
        let (roleCount, _) ← importRecords setup tenantId mode dryRun .roleAssignments (fun _ => []) roles
        pure ((orgCount, policyCount, roleCount), conflicts)

def whenCounted {α : Type} (count : Nat) (missing : α) (part : ImportM α) : ImportM α := if 0 < count then part
    else pure missing

def runImport : ImportM (EntityCounts × List ImportConflict) := do
  let counted := archive.entityCounts
  if archive.mismatches ≠ [] then fail (checksumsFailed archive.mismatches)
  else do
    let (memories, memoryConflicts) ← whenCounted counted.memories (0, [])
      (importMemories setup tenantId mode dryRun archive)
    let (knowledgeItems, knowledgeConflicts) ← whenCounted counted.knowledgeItems (0, [])
      (importKnowledge setup tenantId mode dryRun archive)
    let ((orgUnits, policies, roleAssignments), governanceConflicts) ←
      whenCounted (counted.orgUnits + counted.policies + counted.roleAssignments) ((0, 0, 0), [])
        (importGovernance setup tenantId mode dryRun archive)
    let (governanceEvents, eventConflicts) ← whenCounted counted.governanceEvents (0, [])
      (importGovernanceEvents setup tenantId mode dryRun archive)
    pure ({ memories, knowledgeItems, policies, orgUnits, roleAssignments, governanceEvents },
      memoryConflicts ++ knowledgeConflicts ++ governanceConflicts ++ eventConflicts)

abbrev Planned : Type := ImportPart × JsonValue

def runPlan (plan : List Planned) : ImportM Unit := forEach (fun s => runStatement setup tenantId mode s.1 s.2) plan

def planOf (part : ImportPart) (records : List JsonValue) : List Planned := records.map (fun record => (part, record))

def filePlan (part : ImportPart) : List Planned := planOf part ((archive.file part).getD [])

def governancePlan : List Planned :=
  match archive.file .orgUnits with
  | none => []
  | some units => planOf .orgUnits units ++
    match archive.file .policies with
    | none => []
    | some policies => planOf .policies policies ++
      match archive.file .roleAssignments with
      | none => []
      | some roles => planOf .roleAssignments roles

def governanceCounts : Nat × Nat × Nat :=
  match archive.file .orgUnits with
  | none => (0, 0, 0)
  | some units =>
    match archive.file .policies with
    | none => (units.length, 0, 0)
    | some policies =>
      match archive.file .roleAssignments with
      | none => (units.length, policies.length, 0)
      | some roles => (units.length, policies.length, roles.length)

/-- The statements of an import, of which it makes those up to the first one that fails. -/
def importPlan : List Planned :=
  let counted := archive.entityCounts
  (if 0 < counted.memories then filePlan archive .memories else []) ++
    ((if 0 < counted.knowledgeItems then filePlan archive .knowledge else []) ++
      ((if 0 < counted.orgUnits + counted.policies + counted.roleAssignments then governancePlan archive else []) ++
        (if 0 < counted.governanceEvents then filePlan archive .governanceEvents else [])))

def fileCount (count : Nat) (part : ImportPart) : Nat := if 0 < count then ((archive.file part).getD []).length else 0

def importCounts : EntityCounts :=
  let counted := archive.entityCounts
  let governance :=
    if 0 < counted.orgUnits + counted.policies + counted.roleAssignments then governanceCounts archive else (0, 0, 0)
  { memories := fileCount archive counted.memories .memories
    knowledgeItems := fileCount archive counted.knowledgeItems .knowledge
    orgUnits := governance.1, policies := governance.2.1, roleAssignments := governance.2.2
    governanceEvents := fileCount archive counted.governanceEvents .governanceEvents }

def Performs {α : Type} (plan : List Planned) (a : α) (x : ImportM α) : Prop :=
  x = (runPlan setup tenantId mode plan >>= fun _ => pure a)

variable {setup tenantId mode archive}

variable {α : Type} {plan : List Planned} {db : Database} {s : Planned} {w : ImportWorld}

theorem Performs.nothing (a : α) : Performs setup tenantId mode [] a (pure a) := rfl

variable {a : α} {x : ImportM α}

theorem Performs.bind {β : Type} {later : List Planned} {b : β} {f : α → ImportM β}
    (first : Performs setup tenantId mode plan a x) (second : Performs setup tenantId mode later b (f a)) :
    Performs setup tenantId mode (plan ++ later) b (x >>= f) :=
  calc x >>= f = (runPlan setup tenantId mode plan >>= fun _ => pure a) >>= f := by rw [first]
    _ = runPlan setup tenantId mode plan >>= fun _ => f a := bind_assoc _ _ _
    _ = runPlan setup tenantId mode plan >>= fun _ => runPlan setup tenantId mode later >>= fun _ => pure b :=
      by rw [second]
    _ = runPlan setup tenantId mode (plan ++ later) >>= fun _ => pure b := by
      rw [← bind_assoc]
      exact congrArg (· >>= _) (forEach_append _ _ _).symm

theorem Performs.returning {β : Type} {b : β} {f : α → ImportM β}
    (first : Performs setup tenantId mode plan a x) (same : f a = pure b) :
      Performs setup tenantId mode plan b (x >>= f) := by
  have ended : Performs setup tenantId mode [] b (f a) := same
  have whole := first.bind ended
  rwa [append_nil] at whole

theorem performs_records (part : ImportPart) (find : ImportTables → List ImportConflict) (records : List JsonValue) :
    Performs setup tenantId mode (planOf part records) (records.length, [])
      (importRecords setup tenantId mode false part find records) := by
  unfold Performs importRecords runStatements runPlan planOf
  rw [forEach_map]
  rfl

theorem performs_file (part : ImportPart) (find : List JsonValue → ImportTables → List ImportConflict) :
    Performs setup tenantId mode (filePlan archive part) (((archive.file part).getD []).length, [])
      (importFile setup tenantId mode false archive part find) := by
  unfold importFile filePlan
  cases archive.file part with
  | none => exact Performs.nothing _
  | some records =>
    cases records with
    | nil => exact Performs.nothing _
    | cons first rest => exact performs_records part _ _

theorem performs_governance : Performs setup tenantId mode (governancePlan archive) (governanceCounts archive, [])
    (importGovernance setup tenantId mode false archive) := by
  unfold importGovernance governancePlan governanceCounts
  cases archive.file .orgUnits with
  | none => exact Performs.nothing _
  | some units =>
    refine Performs.bind (performs_records _ _ _) ?_
    dsimp only
    cases archive.file .policies with
    | none => exact Performs.nothing _
    | some policies =>
      refine Performs.bind (performs_records _ _ _) ?_
      dsimp only
      cases archive.file .roleAssignments with
      | none => exact Performs.nothing _
      | some roles =>
        exact Performs.returning (performs_records _ _ _) rfl

theorem performs_counted {count : Nat} {missing : α} (performs : Performs setup tenantId mode plan a x) :
    Performs setup tenantId mode (if 0 < count then plan else []) (if 0 < count then a else missing)
      (whenCounted count missing x) := by
  unfold whenCounted
  split
  · exact performs
  · exact Performs.nothing _

theorem runImport_parts (intact : archive.mismatches = []) (dryRun : Bool) :
    runImport setup tenantId mode dryRun archive =
    whenCounted archive.entityCounts.memories (0, [])
      (importMemories setup tenantId mode dryRun archive) >>= fun memories =>
      whenCounted archive.entityCounts.knowledgeItems (0, [])
        (importKnowledge setup tenantId mode dryRun archive) >>= fun knowledge =>
        whenCounted (archive.entityCounts.orgUnits + archive.entityCounts.policies +
          archive.entityCounts.roleAssignments)
          ((0, 0, 0), []) (importGovernance setup tenantId mode dryRun archive) >>= fun governance =>
          whenCounted archive.entityCounts.governanceEvents (0, [])
            (importGovernanceEvents setup tenantId mode dryRun archive) >>=
            fun events => pure
              ({ memories := memories.1, knowledgeItems := knowledge.1, policies := governance.1.2.1, orgUnits := governance.1.1
                 roleAssignments := governance.1.2.2, governanceEvents := events.1 },
                memories.2 ++ knowledge.2 ++ governance.2 ++ events.2) := by
  unfold runImport
  rw [if_neg (fun mismatched => mismatched intact)]

theorem runImport_real (intact : archive.mismatches = []) :
    Performs setup tenantId mode (importPlan archive) (importCounts archive, [])
      (runImport setup tenantId mode false archive) := by
  rw [runImport_parts intact]
  refine Performs.bind (performs_counted (performs_file _ _))
    (Performs.bind (performs_counted (performs_file _ _)) ?_)
  refine Performs.bind (performs_counted performs_governance)
    (Performs.returning (performs_counted (performs_file _ _)) ?_)
  unfold importCounts fileCount
  simp only [apply_ite Prod.fst, apply_ite Prod.snd, ite_self, append_nil]

theorem runImport_mismatched (mismatched : archive.mismatches ≠ []) (dryRun : Bool) :
    runImport setup tenantId mode dryRun archive = fail (checksumsFailed archive.mismatches) := by
  unfold runImport
  rw [if_pos mismatched]

variable (setup tenantId mode) in
def importStep (db : Database) (s : Planned) : Option Database :=
  match execute setup tenantId s.2 mode s.1 db with
  | .ok next => some next
  | .error _ => none

theorem importStep_eq_some {next : Database} :
    importStep setup tenantId mode db s = some next ↔ execute setup tenantId s.2 mode s.1 db = .ok next := by
  unfold importStep
  split
  · rename_i other done
    rw [done, Option.some.injEq, Except.ok.injEq]
  · rename_i failed
    rw [failed]
    constructor
    · intro impossible
      cases impossible
    · intro impossible
      cases impossible

theorem runPlan_cons {rest : List Planned} {next : Database}
    (first : importStep setup tenantId mode w.db s = some next) :
    runPlan setup tenantId mode (s :: rest) w =
      runPlan setup tenantId mode rest { db := next, past := w.past ++ [next] } := by
  have made : runStatement setup tenantId mode s.1 s.2 w = (.ok (), { db := next, past := w.past ++ [next] }) := by
    rw [runStatement, importStep_eq_some.mp first]
  exact bind_of_ok made

theorem runPlan_stops {rest : List Planned} (stuck : importStep setup tenantId mode w.db s = none) :
      ∃ e, runPlan setup tenantId mode (s :: rest) w = (.error e, w) := by
  unfold importStep at stuck
  split at stuck
  · cases stuck
  · rename_i e failed
    have made : runStatement setup tenantId mode s.1 s.2 w = (.error e, w) := by rw [runStatement, failed]
    exact ⟨e, bind_of_error made⟩

theorem runPlan_past (plan : List Planned) (w : ImportWorld) :
    (runPlan setup tenantId mode plan w).2.past = w.past ++ visited (importStep setup tenantId mode) w.db plan := by
  induction plan generalizing w with
  | nil => exact (append_nil _).symm
  | cons s rest ih =>
    unfold visited
    cases first : importStep setup tenantId mode w.db s with
    | none =>
      obtain ⟨e, stopped⟩ : ∃ e, runPlan setup tenantId mode (s :: rest) w = (.error e, w) := runPlan_stops first
      rw [stopped]
      exact (append_nil _).symm
    | some next =>
      rw [runPlan_cons first, ih, append_assoc]
      rfl

theorem runPlan_taken (plan : List Planned) (w : ImportWorld) :
    run (importStep setup tenantId mode) w.db (taken (importStep setup tenantId mode) w.db plan) =
      some (runPlan setup tenantId mode plan w).2.db := by
  induction plan generalizing w with
  | nil => rfl
  | cons s rest ih =>
    unfold taken
    cases first : importStep setup tenantId mode w.db s with
    | none =>
      obtain ⟨e, stopped⟩ : ∃ e, runPlan setup tenantId mode (s :: rest) w = (.error e, w) := runPlan_stops first
      rw [stopped]
      rfl
    | some next =>
      rw [runPlan_cons first]
      exact run_cons.mpr ⟨next, first, ih { db := next, past := w.past ++ [next] }⟩

theorem runPlan_ok : (runPlan setup tenantId mode plan w).1 = .ok () ↔
    ∃ last, run (importStep setup tenantId mode) w.db plan = some last := by
  induction plan generalizing w with
  | nil => exact ⟨fun _ => ⟨w.db, rfl⟩, fun _ => rfl⟩
  | cons s rest ih =>
    cases first : importStep setup tenantId mode w.db s with
    | some next =>
      rw [runPlan_cons first, ih]
      refine exists_congr (fun last => ⟨fun ran => run_cons.mpr ⟨next, first, ran⟩, fun ran => ?_⟩)
      obtain ⟨other, same, ran⟩ := run_cons.mp ran
      cases first.symm.trans same
      exact ran
    | none =>
      obtain ⟨e, stopped⟩ : ∃ e, runPlan setup tenantId mode (s :: rest) w = (.error e, w) := runPlan_stops first
      rw [stopped]
      constructor
      · intro impossible
        cases impossible
      · rintro ⟨last, ran⟩
        obtain ⟨next, same, _⟩ := run_cons.mp ran
        cases first.symm.trans same

section
variable (intact : archive.mismatches = [])
include intact

theorem runImport_past (db : Database) :
    (runImport setup tenantId mode false archive { db }).2.past = visited (importStep setup tenantId mode) db
      (importPlan archive) := by
  have performs : Performs setup tenantId mode (importPlan archive) _ _ := runImport_real intact
  have past : (runPlan setup tenantId mode (importPlan archive) { db }).2.past = _ := runPlan_past _ _
  rw [performs, bind_run]
  split
  · rename_i done reached ran
    rw [ran] at past
    exact past
  · rename_i e reached ran
    rw [ran] at past
    exact past

theorem runImport_taken (db : Database) :
    run (importStep setup tenantId mode) db (taken (importStep setup tenantId mode) db (importPlan archive)) =
      some (runImport setup tenantId mode false archive { db }).2.db := by
  have performs : Performs setup tenantId mode (importPlan archive) _ _ := runImport_real intact
  have ran : run (importStep setup tenantId mode) db
      (taken (importStep setup tenantId mode) db (importPlan archive)) =
      some (runPlan setup tenantId mode (importPlan archive) { db }).2.db := runPlan_taken (importPlan archive) { db }
  rw [ran, performs, bind_run]
  split
  · rename_i done reached ended
    rw [ended]
    rfl
  · rename_i e reached ended
    rw [ended]

theorem runImport_ends {counts : EntityCounts} {conflicts : List ImportConflict} :
    (runImport setup tenantId mode false archive { db }).1 = .ok (counts, conflicts) ↔
      (∃ last, run (importStep setup tenantId mode) db (importPlan archive) = some last) ∧
        importCounts archive = counts ∧ [] = conflicts := by
  have performs : Performs setup tenantId mode (importPlan archive) _ _ := runImport_real intact
  have ends : (runPlan setup tenantId mode (importPlan archive) { db }).1 = .ok () ↔ _ := runPlan_ok
  rw [performs, bind_run, ← ends]
  split
  · rename_i done reached ended
    rw [ended]
    simp
  · rename_i e reached ended
    rw [ended]
    simp

theorem runImport_last {last : Database}
    (ran : run (importStep setup tenantId mode) db (importPlan archive) = some last) :
    (runImport setup tenantId mode false archive { db }).2.db = last := by
  have ended : run (importStep setup tenantId mode) db
      (taken (importStep setup tenantId mode) db (importPlan archive)) = _ :=
    runImport_taken intact db
  rw [taken_of_run ran, ran] at ended
  exact (Option.some.inj ended).symm

end

theorem runStatement_reaches (db : Database) (part : ImportPart) (record : JsonValue) :
    Keeps (fun w : ImportWorld => w.db ∈ db :: w.past) (runStatement setup tenantId mode part record) := by
  intro w holds
  unfold runStatement
  cases execute setup tenantId record mode part w.db with
  | error e => exact holds
  | ok next => exact mem_cons_of_mem _ (mem_append_right _ (mem_singleton_self _))

theorem runImport_states {I : Database → Prop} (intact : archive.mismatches = []) (holds : I db) :
    (∀ reached ∈ (runImport setup tenantId mode false archive { db }).2.states, I reached) ↔
      Throughout (importStep setup tenantId mode) I db (importPlan archive) := by
  have performs : Performs setup tenantId mode (importPlan archive) _ _ := runImport_real intact
  have planned : Keeps (fun w : ImportWorld => w.db ∈ db :: w.past)
      (runPlan setup tenantId mode (importPlan archive)) :=
    Keeps.forEach (fun (s : Planned) _ => runStatement_reaches db s.1 s.2)
  have whole : Keeps (fun w : ImportWorld => w.db ∈ db :: w.past) (runImport setup tenantId mode false archive) := by
    rw [performs]
    exact Keeps.bind planned (fun _ => Keeps.pure _)
  have reaches := whole { db } mem_cons_self
  rw [throughout_iff_visited, ← runImport_past intact, ImportWorld.states, forall_mem_cons]
  constructor
  · exact fun ⟨_, later⟩ => ⟨holds, later⟩
  · intro each
    exact ⟨forall_mem_cons.mpr each _ reaches, each.2⟩

def recordsOf (part : ImportPart) (plan : List Planned) : List JsonValue :=
  (plan.filter (fun s => s.1 = part)).map Prod.snd

variable (archive) in
def importedRecords (part : ImportPart) : List JsonValue := recordsOf part (importPlan archive)

@[simp] theorem recordsOf_nil (part : ImportPart) : recordsOf part [] = [] := rfl

@[simp] theorem recordsOf_append (part : ImportPart) (plan later : List Planned) :
    recordsOf part (plan ++ later) = recordsOf part plan ++ recordsOf part later := by
  rw [recordsOf, filter_append, map_append]
  rfl

@[simp] theorem recordsOf_planOf (part other : ImportPart) (records : List JsonValue) :
    recordsOf part (planOf other records) = if other = part then records else [] := by
  induction records with
  | nil => rw [ite_self]; rfl
  | cons record rest ih =>
    have step : recordsOf part (planOf other (record :: rest)) =
        recordsOf part [(other, record)] ++ recordsOf part (planOf other rest) :=
          recordsOf_append _ [(other, record)] _
    rw [step, ih]
    by_cases same : other = part
    · simp [recordsOf, same]
    · simp [recordsOf, same]

theorem recordsOf_governance {part : ImportPart} (others : part ≠ .policies) (roles : part ≠ .roleAssignments) :
    recordsOf part (governancePlan archive) = if part = .orgUnits then (archive.file .orgUnits).getD [] else [] := by
  unfold governancePlan
  cases archive.file .orgUnits with
  | none => simp
  | some units =>
    cases archive.file .policies with
    | none => simp [eq_comm]
    | some policies => cases archive.file .roleAssignments <;> simp [others.symm, roles.symm, eq_comm]

theorem importedRecords_memories :
    importedRecords archive .memories = if 0 < archive.entityCounts.memories then (archive.file .memories).getD []
      else [] := by
  simp [importedRecords, importPlan, filePlan, apply_ite (recordsOf .memories), recordsOf_governance]

theorem importedRecords_knowledge : importedRecords archive .knowledge =
    if 0 < archive.entityCounts.knowledgeItems then (archive.file .knowledge).getD [] else [] := by
  simp [importedRecords, importPlan, filePlan, apply_ite (recordsOf .knowledge), recordsOf_governance]

theorem importedRecords_units : importedRecords archive .orgUnits =
    if 0 < archive.entityCounts.orgUnits + archive.entityCounts.policies + archive.entityCounts.roleAssignments then
      (archive.file .orgUnits).getD [] else [] := by
  simp only [importedRecords, importPlan, filePlan, recordsOf_append, apply_ite (recordsOf .orgUnits),
    recordsOf_planOf]
  simp [recordsOf_governance]

theorem existingRows_nil {ρ : Type} (tenant updated : ρ → String) (rows : Table String ρ) :
    existingRows tenantId tenant updated rows [] = [] := by
  simp [existingRows, recordIds]

variable (setup tenantId mode archive) in
def dryConflicts (t : ImportTables) : List ImportConflict :=
  memoryConflicts setup tenantId mode (importedRecords archive .memories) t ++
    knowledgeConflicts setup tenantId mode (importedRecords archive .knowledge) t ++
      unitConflicts tenantId mode (importedRecords archive .orgUnits) t

theorem dry_importFile {part : ImportPart} {find : List JsonValue → ImportTables → List ImportConflict}
    (w : ImportWorld) (nothing : find [] w.db.tables = []) : importFile setup tenantId mode true archive part find w =
      (.ok (((archive.file part).getD []).length, find ((archive.file part).getD []) w.db.tables), w) := by
  unfold importFile
  cases archive.file part with
  | none =>
    rw [Option.getD_none, nothing]
    rfl
  | some records =>
    cases records with
    | nil =>
      rw [Option.getD_some, nothing]
      rfl
    | cons first rest => rfl

theorem dry_importGovernance (w : ImportWorld) : importGovernance setup tenantId mode true archive w =
    (.ok (governanceCounts archive, unitConflicts tenantId mode ((archive.file .orgUnits).getD []) w.db.tables),
      w) := by
  unfold importGovernance governanceCounts
  cases archive.file .orgUnits with
  | none =>
    rw [Option.getD_none, unitConflicts, existingRows_nil]
    rfl
  | some units =>
    cases archive.file .policies with
    | none => rfl
    | some policies => cases archive.file .roleAssignments <;> rfl

theorem dry_whenCounted {count : Nat} {missing : α} (ran : x w = (.ok a, w)) :
    whenCounted count missing x w = (.ok (if 0 < count then a else missing), w) := by
  unfold whenCounted
  split
  · exact ran
  · rfl

theorem runImport_dry (intact : archive.mismatches = []) (w : ImportWorld) :
    runImport setup tenantId mode true archive w =
    (.ok (importCounts archive, dryConflicts setup tenantId mode archive w.db.tables), w) := by
  have memories : memoryConflicts setup tenantId mode [] w.db.tables = [] :=
    by rw [memoryConflicts, existingRows_nil, map_nil]
  have knowledge : knowledgeConflicts setup tenantId mode [] w.db.tables = [] := by
    rw [knowledgeConflicts, existingRows_nil, map_nil]
  have units : unitConflicts tenantId mode [] w.db.tables = [] :=
    by rw [unitConflicts, existingRows_nil, map_nil]
  rw [runImport_parts intact]
  refine (bind_of_ok (dry_whenCounted (dry_importFile w memories))).trans ?_
  refine (bind_of_ok (dry_whenCounted (dry_importFile w knowledge))).trans ?_
  refine (bind_of_ok (dry_whenCounted (dry_importGovernance w))).trans ?_
  refine (bind_of_ok (dry_whenCounted (dry_importFile w rfl))).trans ?_
  rw [pure_run]
  unfold dryConflicts importCounts fileCount
  rw [importedRecords_memories, importedRecords_knowledge, importedRecords_units]
  simp only [apply_ite Prod.fst, apply_ite Prod.snd, ite_self, append_nil,
    apply_ite (memoryConflicts setup tenantId mode),
    apply_ite (knowledgeConflicts setup tenantId mode), apply_ite (unitConflicts tenantId mode), ite_apply, memories,
      knowledge, units]

theorem runImport_still {dryRun : Bool} (still : ¬ (dryRun = false ∧ archive.mismatches = [])) (w : ImportWorld) :
    (runImport setup tenantId mode dryRun archive w).2 = w := by
  cases dryRun with
  | true =>
    by_cases intact : archive.mismatches = []
    · rw [runImport_dry intact]
    · rw [runImport_mismatched intact, fail_run]
  | false => rw [runImport_mismatched (fun intact => still ⟨rfl, intact⟩), fail_run]

end

section
variable {κ ρ : Type} [DecidableEq κ] {t : Table κ ρ} {k other : κ} {row : ρ} {f : ρ → ρ}

theorem upsert_kept (row : ρ) (present : (t.get k).isSome) (same : ∀ old, f old = old) : t.upsert k row f = t := by
  obtain ⟨old, held⟩ := Option.isSome_iff_exists.mp present
  simp [Table.upsert, held, same, Table.update]

theorem upsert_isSome (present : other = k ∨ (t.get other).isSome) : ((t.upsert k row f).get other).isSome := by
  rw [Table.get_upsert]
  grind

theorem insertOrIgnore_isSome (present : other = k ∨ (t.get other).isSome) :
    ((t.insertOrIgnore k row).get other).isSome := by
  rw [Table.get_insertOrIgnore]
  grind

end

section
variable {setup : ImportSetup} {tenantId : String} {t t' after : ImportTables} {part other : ImportPart}
  {record held : JsonValue}

/-- The key of a record has a row. -/
def KeyTaken (tenantId : String) (record : JsonValue) (t : ImportTables) : ImportPart → Prop
  | .memories => (t.memoryEntries.get (textField record "id")).isSome
  | .knowledge => (t.knowledgeItems.get (textField record "id")).isSome
  | .orgUnits => (t.organizationalUnits.get (textField record "id")).isSome
  | .policies => (t.unitPolicies.get (textField record "id")).isSome
  | .roleAssignments => ∀ key, roleKey tenantId record = .ok key → (t.userRoles.get key).isSome
  | .governanceEvents => (t.governanceEvents.get (textField record "id")).isSome

theorem write_again (written : writeRecord setup tenantId record .skipExisting part t = .ok after)
    (present : KeyTaken tenantId record t' part) : writeRecord setup tenantId record .skipExisting part t' = .ok t' := by
  cases part with
  | roleAssignments =>
    obtain ⟨key, createdAt, read, cast, -⟩ := roles_written written
    obtain ⟨old, taken⟩ := Option.isSome_iff_exists.mp (present key read)
    refine except_bind_ok.mpr ⟨key, read, except_bind_ok.mpr ⟨createdAt, cast, ?_⟩⟩
    simp [Table.insertOrIgnore, taken, pure, Except.pure]
  | _ =>
    obtain ⟨row, read, -⟩ := except_map_ok.mp written
    refine except_map_ok.mpr ⟨row, read, ?_⟩
    rw [upsert_kept row present]
    exact fun _ => rfl

theorem write_keeps (written : writeRecord setup tenantId record .skipExisting part t = .ok after)
    (present : other = part ∧ held = record ∨ KeyTaken tenantId held t other) : KeyTaken tenantId held after other := by
  cases part with
  | roleAssignments =>
    obtain ⟨key, read, written⟩ := except_bind_ok.mp written
    obtain ⟨_, _, ⟨⟩⟩ := except_bind_ok.mp written
    rcases present with ⟨rfl, rfl⟩ | present
    · intro named same
      cases read.symm.trans same
      exact insertOrIgnore_isSome (.inl rfl)
    · cases other with
      | roleAssignments => exact fun named same => insertOrIgnore_isSome (.inr (present named same))
      | _ => exact present
  | _ =>
    obtain ⟨row, _, rfl⟩ := except_map_ok.mp written
    rcases present with ⟨rfl, rfl⟩ | present
    · exact upsert_isSome (.inl rfl)
    · cases other <;> first | exact present | exact upsert_isSome (.inr present)

variable {db next last : Database} {s : Planned}

theorem step_again (stepped : importStep setup tenantId .skipExisting db s = some next)
    (present : KeyTaken tenantId s.2 last.tables s.1) :
    importStep setup tenantId .skipExisting last s = some last := by
  obtain ⟨accepted, written⟩ := execute_ok (importStep_eq_some.mp stepped)
  apply importStep_eq_some.mpr
  unfold execute
  simp [accepted, write_again written present, last.consistent, bind, Except.bind, pure, Except.pure]

theorem step_keeps (stepped : importStep setup tenantId .skipExisting db s = some next)
    (present : (other, held) = s ∨ KeyTaken tenantId held db.tables other) :
    KeyTaken tenantId held next.tables other := by
  obtain ⟨_, written⟩ := execute_ok (importStep_eq_some.mp stepped)
  refine write_keeps written (present.imp_left ?_)
  rintro rfl
  exact ⟨rfl, rfl⟩

theorem plan_again {plan : List Planned} (ran : run (importStep setup tenantId .skipExisting) db plan = some last) :
    ∀ s ∈ plan, importStep setup tenantId .skipExisting last s = some last := by
  induction plan generalizing db with
  | nil => exact fun s member => absurd member List.not_mem_nil
  | cons s rest ih =>
    obtain ⟨next, stepped, ran⟩ := run_cons.mp ran
    have kept : KeyTaken tenantId s.2 next.tables s.1 → KeyTaken tenantId s.2 last.tables s.1 := by
      refine Lib.run_relates (R := fun a b => KeyTaken tenantId s.2 a.tables s.1 → KeyTaken tenantId s.2 b.tables s.1)
        (fun _ => id) ?_ ?_ ran
      · exact fun one two present => two (one present)
      · exact fun stepped present => step_keeps stepped (.inr present)
    exact List.forall_mem_cons.mpr ⟨step_again stepped (kept (step_keeps stepped (.inl rfl))), ih ran⟩

variable (setup tenantId db) in
/-- An import that skips what exists, made again, changes nothing, also when a statement stopped it. -/
theorem skipping_import_again (archive : ImportArchive) :
    let imported := (runImport setup tenantId .skipExisting false archive { db }).2.db
    (runImport setup tenantId .skipExisting false archive { db := imported }).2.db = imported := by
  intro imported
  by_cases intact : archive.mismatches = []
  · have first : run (importStep setup tenantId .skipExisting) db _ = some imported := runImport_taken intact db
    have second : run (importStep setup tenantId .skipExisting) imported _ = _ := runImport_taken intact imported
    exact Option.some.inj (second.symm.trans (Lib.taken_again (plan_again first) first))
  · rw [runImport_still (fun both => intact both.2)]

end

end Aeterna.Backup
