import Aeterna.Graph.Evolution
import Aeterna.Graph.Snapshots

namespace Aeterna.Graph
open Lib (Marked Table)
open GraphRow

inductive GraphCall where
  | addNode (node : GraphNode)
  | addEdge (edge : GraphEdge)
  | softDeleteNode (nodeId : String)
  | softDeleteNodesBySourceMemoryId (sourceMemoryId : String)

def GraphCall.run (extract : JsonExtract) (tenantId : String) (s : GraphStore) : GraphCall → GraphStore
  | addNode node => (s.addNode tenantId node).2
  | addEdge edge => (s.addEdge tenantId edge).2
  | softDeleteNode nodeId => (s.softDeleteNode tenantId nodeId).2
  | softDeleteNodesBySourceMemoryId id => (s.softDeleteNodesBySourceMemoryId extract tenantId id).2

def runCalls (extract : JsonExtract) (tenantId : String) (s : GraphStore) (calls : List GraphCall) : GraphStore :=
  calls.foldl (GraphCall.run extract tenantId) s

structure BackupPlan where
  before : List GraphCall
  fullAt : String
  deltas : List (List GraphCall × String)
  increasing : (fullAt :: deltas.map Prod.snd).Pairwise (· < ·)

/-- What the code around the plan is given. -/
structure BackupEnv where
  extract : JsonExtract
  sha : Sha256
  (s3Prefix tenantId : String)

structure Progress where
  store : GraphStore
  bucket : List S3Object
  lastSeq : Int

namespace BackupPlan
variable (env : BackupEnv) (plan : BackupPlan)

def fullStore : GraphStore := runCalls env.extract env.tenantId {} plan.before

def start : Progress where
  store := plan.fullStore env
  bucket := ((plan.fullStore env).snapshotFull env.sha env.tenantId plan.fullAt []).2
  lastSeq := GraphStore.nodeMaxSeq (plan.fullStore env).tables env.tenantId

def takeDelta (p : Progress) (delta : List GraphCall × String) : Progress :=
  let store := runCalls env.extract env.tenantId p.store delta.1
  let (result, bucket) := store.snapshotDelta env.sha env.tenantId p.lastSeq delta.2 p.bucket
  ⟨store, bucket, result.toSeq⟩

def finish : Progress := plan.deltas.foldl (takeDelta env) (plan.start env)

end BackupPlan

structure SameGraph (s t : GraphTables) : Prop where
  nodes : ∀ id, (s.liveNode id).map content = (t.liveNode id).map content
  edges : ∀ id, (s.liveEdge id).map content = (t.liveEdge id).map content

/-- A restore into an empty store succeeds and gives the graph as it was at the last snapshot. -/
def BackupPlan.Restores (env : BackupEnv) (plan : BackupPlan) : Prop :=
  ∃ restored, GraphStore.restoreFromS3 env.sha env.s3Prefix (plan.finish env).bucket env.tenantId {} =
    (.ok (), restored) ∧
    SameGraph restored.tables (plan.finish env).store.tables

structure DeltaTaken where
  sinceSeq : Int
  timestamp : String
  tables : GraphTables

def deltasTaken (env : BackupEnv) (s : GraphStore) (sinceSeq : Int) : List (List GraphCall × String) → List DeltaTaken
  | [] => []
  | delta :: rest =>
    let store := runCalls env.extract env.tenantId s delta.1
    ⟨sinceSeq, delta.2, store.tables⟩ ::
      deltasTaken env store (GraphStore.currentMaxSeq store.tables env.tenantId) rest

def DeltaTaken.key (d : DeltaTaken) : ObjectKey := .delta d.sinceSeq d.timestamp

def importOrder (folder : String) (deltas : List DeltaTaken) : List DeltaTaken :=
  deltas.insertionSort (fun a b => a.key.text folder ≤ b.key.text folder)

/-- The row that a delta holds under an id, if its number is high enough. -/
def DeltaTaken.carried {ρ : Type} [GraphRow ρ] (d : DeltaTaken) (table : GraphTables → Table String (Marked ρ))
    (id : String) : Option ρ :=
  (((table d.tables).get id).filter (fun m => d.sinceSeq < seq m.row)).map Marked.row

/-- How a row must go from the full snapshot to the last delta, given what the deltas carry of it in the
order of their import. -/
structure Settled {ρ : Type} [GraphRow ρ] (full last : Option (Marked ρ)) (imports : List (Option ρ)) : Prop where
  /-- A row in the full snapshot is not deleted later, and keeps its contents. -/
  kept : ∀ row, full = some ⟨row, false⟩ → (Marked.live last).map content = some (content row)
  /-- A row deleted before the full snapshot is not written again. -/
  buried : ∀ row, full = some ⟨row, true⟩ → ∀ c ∈ imports, c = none
  /-- A row made later is not deleted, and has its last contents in the first delta imported with it. -/
  final : full = none → ∀ row, imports.findSome? id = some row →
    (Marked.live last).map content = some (content row)

namespace BackupPlan
variable (env : BackupEnv) (plan : BackupPlan)

def taken : List DeltaTaken :=
  deltasTaken env (plan.fullStore env) (GraphStore.nodeMaxSeq (plan.fullStore env).tables env.tenantId) plan.deltas

def imports : List DeltaTaken := importOrder (GraphStore.folder env.s3Prefix env.tenantId) (plan.taken env)

def lastTables : GraphTables := ((plan.taken env).getLast?.map DeltaTaken.tables).getD (plan.fullStore env).tables

def SettledIn {ρ : Type} [GraphRow ρ] (table : GraphTables → Table String (Marked ρ)) : Prop :=
  ∀ id, Settled ((table (plan.fullStore env).tables).get id) ((table (plan.lastTables env)).get id)
    ((plan.imports env).map (fun d => d.carried table id))

/-- The objects fit one page of a listing, the tenant is none of those whose snapshots fail, and every row
settles. -/
structure Restorable : Prop where
  page : plan.deltas.length < 1000
  tenant : env.tenantId ∉ ["TRIGGER_IO_ERROR", "TRIGGER_S3_COMMIT_ERROR", "TRIGGER_CHECKSUM_ERROR"]
  nodes : plan.SettledIn env GraphTables.memoryNodes
  edges : plan.SettledIn env GraphTables.memoryEdges

end BackupPlan

theorem restored_iff {ρ : Type} [GraphRow ρ] {full last : Option (Marked ρ)} {imports : List (Option ρ)}
    (dead : ∀ row, full = some ⟨row, true⟩ → Marked.live last = none)
    (absent : full = none → (∀ c ∈ imports, c = none) → Marked.live last = none) :
    ((Marked.live full).or (imports.findSome? id)).map content = (Marked.live last).map content ↔
      Settled full last imports := by
  cases full with
  | none =>
    constructor
    · intro same
      refine ⟨fun _ held => (by cases held), fun _ held => (by cases held), fun _ row found => ?_⟩
      rw [found] at same
      exact same.symm
    · intro settled
      cases found : imports.findSome? id with
      | none =>
        have empty : ∀ c ∈ imports, c = none := List.findSome?_eq_none_iff.mp found
        rw [absent rfl empty]
        rfl
      | some row => exact (settled.final rfl row found).symm
  | some m =>
    obtain ⟨row, deleted⟩ := m
    cases deleted with
    | false =>
      constructor
      · intro same
        refine ⟨fun other held => ?_, fun _ held => (by cases held), fun held => (by cases held)⟩
        cases held
        exact same.symm
      · intro settled
        exact (settled.kept row rfl).symm
    | true =>
      have gone := dead row rfl
      constructor
      · intro same
        refine ⟨fun _ held => (by cases held), fun _ _ c member => ?_, fun held => (by cases held)⟩
        rw [gone] at same
        have nothing : imports.findSome? id = none := Option.map_eq_none_iff.mp same
        exact List.findSome?_eq_none_iff.mp nothing c member
      · intro settled
        have nothing : imports.findSome? id = none := List.findSome?_eq_none_iff.mpr (settled.buried row rfl)
        rw [gone, nothing]
        rfl

end Aeterna.Graph
