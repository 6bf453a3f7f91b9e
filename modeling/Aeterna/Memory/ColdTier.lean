import Aeterna.Core.Types
import Aeterna.Lib.Sequences
import Aeterna.Lib.Table

/-!
The cold tier (`memory/src/cold_tier.rs`): archives of memories, as objects in a bucket that all tenants
share, and the index of the archives.
-/

namespace Aeterna.Memory
open Lib (Table)

/-- `DateTime<Utc>`. -/
structure UtcTime where
  (nanos year : Int)
  month : Nat
  deriving DecidableEq

def twoDigits (n : Nat) : String := if n < 10 then "0" ++ n.repr else n.repr

def tenantPrefix (tenantId : String) : String := tenantId ++ "/memories/"

def makeS3Key (tenantId : String) (now : UtcTime) (batchId : String) : String :=
  tenantPrefix tenantId ++ now.year.repr ++ "/" ++ twoDigits now.month ++ "/" ++ batchId ++ ".json"

def leads (lead key : String) : Bool := lead.toList.isPrefixOf key.toList

structure ArchiveBatch (Entry : Type) where
  schemaVersion : Nat := 1
  tenantId : String
  archivedAt : UtcTime
  entries : List Entry

structure ColdArchiveMetadata where
  (s3Key tenantId : String)
  (entryCount sizeBytes : Nat)
  archivedAt : UtcTime
  (oldestEntryTs newestEntryTs : Int)

structure ColdArchiveIndex where
  byTenant : Table String (List ColdArchiveMetadata) := {}
  totalArchivedEntries : Nat := 0
  totalArchivedBytes : Nat := 0

inductive ColdTierError where
  | downloadFailed (key reason : String)
  | serialization (message : String)
  deriving DecidableEq

structure ColdTierSetup (Entry Data : Type) where
  enabled : Bool := true
  batchSize : Nat
  positive : 1 ≤ batchSize
  createdAt : Entry → Int
  toVec : ArchiveBatch Entry → Data
  fromSlice : Data → Except ColdTierError (ArchiveBatch Entry)
  carried : Entry → Prop
  readsBack : ∀ batch, (∀ entry ∈ batch.entries, carried entry) → fromSlice (toVec batch) = .ok batch
  size : Data → Nat
  batchId : Nat → String
  fresh : ∀ {m n}, batchId m = batchId n → m = n
  unsplit : ∀ n, '/' ∉ (batchId n).toList
  order : List String → List String
  reorders : ∀ keys, (order keys).Perm keys

/-- The bucket, the index, and the number of batch ids drawn so far. -/
structure ColdTier (Data : Type) where
  objects : Table String Data := {}
  index : ColdArchiveIndex := {}
  drawn : Nat := 0

def chunks {α : Type} (size : Nat) : Nat → List α → List (List α)
  | 0, _ => []
  | fuel + 1, items => if items.isEmpty then [] else items.take size :: chunks size fuel (items.drop size)

section
variable {Entry Data : Type} (setup : ColdTierSetup Entry Data) (s : ColdTier Data)

def listObjects (lead : String) : List String := setup.order ((s.objects.rows.map Prod.fst).filter (leads lead))

def downloadObject (key : String) : Except ColdTierError Data :=
  match s.objects.get key with
  | some data => .ok data
  | none => .error (.downloadFailed key "not found")

def describe (tenantId key : String) (data : Data) (batch : ArchiveBatch Entry) : ColdArchiveMetadata :=
  { s3Key := key, tenantId, entryCount := batch.entries.length, sizeBytes := setup.size data,
    archivedAt := batch.archivedAt, oldestEntryTs := ((batch.entries.map setup.createdAt).min?).getD 0,
    newestEntryTs := ((batch.entries.map setup.createdAt).max?).getD 0 }

variable (idx : ColdArchiveIndex) (tenantId : TenantId)

def ColdArchiveIndex.push (tenantId : String) (archive : ColdArchiveMetadata) : ColdArchiveIndex :=
  { byTenant := idx.byTenant.upsert tenantId [archive] (· ++ [archive])
    totalArchivedEntries := idx.totalArchivedEntries + archive.entryCount
    totalArchivedBytes := idx.totalArchivedBytes + archive.sizeBytes }

def archiveChunk (tenantId : String) (now : UtcTime) (chunk : List Entry) : ColdTier Data × String :=
  let key := makeS3Key tenantId now (setup.batchId s.drawn)
  let batch : ArchiveBatch Entry := { tenantId, archivedAt := now, entries := chunk }
  let data := setup.toVec batch
  ({ objects := s.objects.upsert key data (fun _ => data)
     index := s.index.push tenantId (describe setup tenantId key data batch)
     drawn := s.drawn + 1 }, key)

def archiveChunks (tenantId : String) (now : UtcTime) : List (List Entry) → ColdTier Data →
    ColdTier Data × List String
  | [], s => (s, [])
  | chunk :: rest, s =>
    let (s, key) := archiveChunk setup s tenantId now chunk
    let (s, keys) := archiveChunks tenantId now rest s
    (s, key :: keys)

def archiveEntries (now : UtcTime) (entries : List Entry) : ColdTier Data × List String :=
  if !setup.enabled then (s, [])
  else archiveChunks setup tenantId.text now (chunks setup.batchSize entries.length entries) s

def restoreEntries : Except ColdTierError (List Entry) := do
  let batches ← (listObjects setup s (tenantPrefix tenantId.text)).mapM (fun key => do
    setup.fromSlice (← downloadObject s key))
  pure (batches.flatMap (·.entries))

def archivedEntries (archives : List ColdArchiveMetadata) : Nat := (archives.map (·.entryCount)).sum

def archivedBytes (archives : List ColdArchiveMetadata) : Nat := (archives.map (·.sizeBytes)).sum

def ColdArchiveIndex.remove (tenantId : String) : ColdArchiveIndex :=
  match idx.byTenant.get tenantId with
  | none => idx
  | some archives =>
    { byTenant := idx.byTenant.keepOnly (fun other _ => other ≠ tenantId)
      totalArchivedEntries := idx.totalArchivedEntries - archivedEntries archives
      totalArchivedBytes := idx.totalArchivedBytes - archivedBytes archives }

def deleteTenantArchives : ColdTier Data × Nat :=
  let keys := listObjects setup s (tenantPrefix tenantId.text)
  ({ s with
      objects := s.objects.keepOnly (fun key _ => key ∉ keys)
      index := s.index.remove tenantId.text }, keys.length)

def ColdArchiveIndex.replace (tenantId : String) (archives : List ColdArchiveMetadata) : ColdArchiveIndex :=
  let old := (idx.byTenant.get tenantId).getD []
  { byTenant := idx.byTenant.upsert tenantId archives (fun _ => archives)
    totalArchivedEntries := idx.totalArchivedEntries - archivedEntries old + archivedEntries archives
    totalArchivedBytes := idx.totalArchivedBytes - archivedBytes old + archivedBytes archives }

def rebuildIndexForTenant : Except ColdTierError (ColdTier Data) := do
  let archives ← (listObjects setup s (tenantPrefix tenantId.text)).mapM (fun key => do
    let data ← downloadObject s key
    pure (describe setup tenantId.text key data (← setup.fromSlice data)))
  pure { s with index := s.index.replace tenantId.text archives }

end

end Aeterna.Memory
