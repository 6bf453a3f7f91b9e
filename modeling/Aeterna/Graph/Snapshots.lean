import Mathlib.Data.List.Sort
import Aeterna.Graph.Store

namespace Aeterna.Graph
open Lib (Marked Table)

structure ParquetNode where
  (label properties : String)
  seq : Int
  deriving DecidableEq

structure ParquetEdge where
  (sourceId targetId relation properties : String)
  seq : Int
  deriving DecidableEq

/-- A snapshot file. It has no column for `tenant_id` and none for `deleted_at`. -/
structure Parquet where
  nodes : List (String × ParquetNode)
  edges : List (String × ParquetEdge)
  deriving DecidableEq

def select {ρ σ : Type} (p : Marked ρ → Bool) (f : ρ → σ) (t : Table String (Marked ρ)) : List (String × σ) :=
  (t.rows.filter (fun e => p e.2)).map (fun e => (e.1, f e.2.row))

def NodeRow.parquet (row : NodeRow) : ParquetNode := ⟨row.label, row.properties, row.seq⟩
def EdgeRow.parquet (row : EdgeRow) : ParquetEdge :=
  ⟨row.sourceId, row.targetId, row.relation, row.properties, row.seq⟩

def ParquetNode.row (tenantId : String) (node : ParquetNode) : Marked NodeRow :=
  ⟨⟨node.label, node.properties, tenantId, node.seq⟩, false⟩
def ParquetEdge.row (tenantId : String) (edge : ParquetEdge) : Marked EdgeRow :=
  ⟨⟨edge.sourceId, edge.targetId, edge.relation, edge.properties, tenantId, edge.seq⟩, false⟩

def maxSeq (seqs : List Int) : Int := seqs.max?.getD 0

structure Sha256 where
  hex : Parquet → String
  digits : ∀ data, hex data ≠ "invalid_checksum"

/-- The key of a snapshot, below the folder of its tenant. Timestamps are `%Y%m%d_%H%M%S`. -/
inductive ObjectKey where
  | full (timestamp : String)
  | delta (sinceSeq : Int) (timestamp : String)
  deriving DecidableEq

namespace ObjectKey

def timestamp : ObjectKey → String
  | full timestamp => timestamp
  | delta _ timestamp => timestamp

def text (folder : String) : ObjectKey → String
  | full timestamp => folder ++ "full_" ++ timestamp ++ ".parquet"
  | delta sinceSeq timestamp => folder ++ "delta_" ++ toString sinceSeq ++ "_" ++ timestamp ++ ".parquet"

def isFull : ObjectKey → Bool
  | full _ => true
  | delta .. => false

end ObjectKey

/-- An object with its metadata; `lastSeq` is `snapshot_seq` of a full snapshot, `to_seq` of a delta. -/
structure S3Object where
  key : ObjectKey
  data : Parquet
  checksum : String
  lastSeq : Int

def putObject (bucket : List S3Object) (o : S3Object) : List S3Object :=
  bucket.filter (fun old => old.key ≠ o.key) ++ [o]

def KeyOrder (folder : String) (a b : S3Object) : Prop := a.key.text folder ≤ b.key.text folder

instance (folder : String) : DecidableRel (KeyOrder folder) := fun a b =>
  inferInstanceAs (Decidable (a.key.text folder ≤ b.key.text folder))

def listObjects (folder : String) (bucket : List S3Object) : List S3Object :=
  (bucket.insertionSort (KeyOrder folder)).take 1000

namespace GraphStore
variable (sha : Sha256) (s3Prefix : String)

def folder (tenantId : String) : String := s3Prefix ++ "/" ++ tenantId ++ "/"

variable (t : GraphTables) (s : GraphStore)

def nodeMaxSeq (tenantId : String) : Int :=
  maxSeq ((t.memoryNodes.rows.filter (fun e => e.2.row.tenantId = tenantId)).map (fun e => e.2.row.seq))

def edgeMaxSeq (tenantId : String) : Int :=
  maxSeq ((t.memoryEdges.rows.filter (fun e => e.2.row.tenantId = tenantId)).map (fun e => e.2.row.seq))

def currentMaxSeq (tenantId : String) : Int := max (nodeMaxSeq t tenantId) (edgeMaxSeq t tenantId)

def exportToParquet (tenantId : String) : Except GraphError Parquet :=
  if tenantId = "TRIGGER_IO_ERROR" then .error (.io "Induced IO error")
  else .ok {
    nodes := select (fun m => m.row.tenantId = tenantId ∧ m.deleted = false) NodeRow.parquet s.tables.memoryNodes
    edges := select (fun m => m.row.tenantId = tenantId ∧ m.deleted = false) EdgeRow.parquet s.tables.memoryEdges }

/-- `export_delta_to_parquet`: the rows above `sinceSeq`, deleted or not, and the highest number. -/
def exportDeltaToParquet (tenantId : String) (sinceSeq : Int) : Parquet × Int :=
  ({ nodes := select (fun m => m.row.tenantId = tenantId ∧ sinceSeq < m.row.seq) NodeRow.parquet s.tables.memoryNodes
     edges := select (fun m => m.row.tenantId = tenantId ∧
       sinceSeq < m.row.seq) EdgeRow.parquet s.tables.memoryEdges },
    currentMaxSeq s.tables tenantId)

def snapshotFull (tenantId timestamp : String) (bucket : List S3Object) :
    Except GraphError ObjectKey × List S3Object :=
  match s.exportToParquet tenantId with
  | .error e => (.error e, bucket)
  | .ok data =>
    if tenantId = "TRIGGER_S3_COMMIT_ERROR" then (.error (.s3 "Induced commit failure"), bucket)
    else
      (.ok (.full timestamp),
        putObject bucket ⟨.full timestamp, data, sha.hex data, nodeMaxSeq s.tables tenantId⟩)

structure DeltaSnapshotResult where
  key : ObjectKey
  (sinceSeq toSeq : Int)

def snapshotDelta (tenantId : String) (sinceSeq : Int) (timestamp : String) (bucket : List S3Object) :
    DeltaSnapshotResult × List S3Object :=
  let (data, toSeq) := s.exportDeltaToParquet tenantId sinceSeq
  (⟨.delta sinceSeq timestamp, sinceSeq, toSeq⟩,
    putObject bucket ⟨.delta sinceSeq timestamp, data, sha.hex data, toSeq⟩)

/-- `import_from_parquet`: the rows of the tenant are replaced, and its counter set to the highest number. -/
def importFromParquet (tenantId : String) (data : Parquet) : Except GraphError Unit × GraphStore :=
  let memoryNodes := s.tables.memoryNodes.keepOnly (fun _ m => m.row.tenantId ≠ tenantId)
  let memoryEdges := s.tables.memoryEdges.keepOnly (fun _ m => m.row.tenantId ≠ tenantId)
  let emptied := { s with tables := ⟨memoryNodes, memoryEdges⟩ }
  match memoryNodes.insertAll (data.nodes.map (fun e => (e.1, e.2.row tenantId))) with
  | none => (.error (.duckDb "Constraint Error"), emptied)
  | some memoryNodes =>
    let filled := { s with tables := ⟨memoryNodes, memoryEdges⟩ }
    match memoryEdges.insertAll (data.edges.map (fun e => (e.1, e.2.row tenantId))) with
    | none => (.error (.duckDb "Constraint Error"), filled)
    | some memoryEdges =>
      let tables : GraphTables := ⟨memoryNodes, memoryEdges⟩
      let last := currentMaxSeq tables tenantId
      (.ok (), ⟨tables, s.graphTenantSequences.upsert tenantId last (fun _ => last)⟩)

/-- `import_delta_from_parquet`: rows are added where their id is free, and the counter never falls. -/
def importDeltaFromParquet (tenantId : String) (data : Parquet) : GraphStore :=
  let tables : GraphTables := {
    memoryNodes := s.tables.memoryNodes.insertOrIgnoreAll (data.nodes.map (fun e => (e.1, e.2.row tenantId)))
    memoryEdges := s.tables.memoryEdges.insertOrIgnoreAll (data.edges.map (fun e => (e.1, e.2.row tenantId))) }
  let last := currentMaxSeq tables tenantId
  ⟨tables, s.graphTenantSequences.upsert tenantId last (fun old => if last > old then last else old)⟩

def loadFromS3 (tenantId : String) (o : S3Object) : Except GraphError Unit × GraphStore :=
  let expected := if tenantId = "TRIGGER_CHECKSUM_ERROR" then "invalid_checksum" else o.checksum
  if sha.hex o.data ≠ expected then (.error (.checksumMismatch expected (sha.hex o.data)), s)
  else s.importFromParquet tenantId o.data

def applyDeltas (tenantId : String) : List S3Object → GraphStore → Except GraphError Unit × GraphStore
  | [], s => (.ok (), s)
  | o :: rest, s =>
    if sha.hex o.data ≠ o.checksum then (.error (.checksumMismatch o.checksum (sha.hex o.data)), s)
    else applyDeltas tenantId rest (s.importDeltaFromParquet tenantId o.data)

def restoreFromS3 (bucket : List S3Object) (tenantId : String) (s : GraphStore) :
    Except GraphError Unit × GraphStore :=
  let objects := listObjects (folder s3Prefix tenantId) bucket
  let fullKeys := (objects.filter (fun o => o.key.isFull)).insertionSort (KeyOrder (folder s3Prefix tenantId))
  match fullKeys.getLast? with
  | none => (.error (.s3 "No full snapshot found in S3"), s)
  | some latestFull =>
    match s.loadFromS3 sha tenantId latestFull with
    | (.error e, s) => (.error e, s)
    | (.ok (), s) =>
      let deltaKeys := (objects.filter
          (fun o => !o.key.isFull && decide (latestFull.key.timestamp < o.key.timestamp)))
        |>.insertionSort (KeyOrder (folder s3Prefix tenantId))
      applyDeltas sha tenantId deltaKeys s

end GraphStore

end Aeterna.Graph
