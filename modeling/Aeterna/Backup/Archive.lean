import Aeterna.Lib.Table
import Mathlib.Data.List.Sort

/-!
Backup archives: how they are written and read (`backup/src/archive.rs`, `checksum.rs`), and how they are validated
(`validate.rs`).
-/

namespace Aeterna.Backup
open Lib (Table)

abbrev Bytes : Type := List UInt8

def plainName (text : String) : Bool := text ≠ "" ∧ text ≠ "." ∧ text ≠ ".." ∧ '/' ∉ text.toList

structure FileName where
  text : String
  plain : plainName text = true
  deriving DecidableEq

def manifestName : FileName := ⟨"manifest.json", by decide +kernel⟩

def checksumsName : FileName := ⟨"SHA256SUMS", by decide +kernel⟩

abbrev Directory : Type := Table FileName Bytes

namespace Directory

/-- `File::create` and what is then written. -/
def put (name : FileName) (bytes : Bytes) (dir : Directory) : Directory :=
  Table.upsert name bytes (fun _ => bytes) dir

@[simp] theorem get_put (name : FileName) (bytes : Bytes) (dir : Directory) (other : FileName) :
    Table.get (dir.put name bytes) other = if other = name then some bytes else Table.get dir other := by
  rw [put, Table.get_upsert]
  split
  · rename_i same
    cases Table.get dir name <;> rfl
  · rfl

end Directory

def CURRENT_SCHEMA_VERSION : String := "1.0.0"

structure BackupManifest where
  schemaVersion : String := CURRENT_SCHEMA_VERSION
  fileChecksums : Table FileName String := {}

def majorVersion (version : String) : List Char := version.toList.takeWhile (· ≠ '.')

def BackupManifest.isSchemaCompatible (m : BackupManifest) : Bool :=
  majorVersion m.schemaVersion = majorVersion CURRENT_SCHEMA_VERSION

/-- The JSON form of manifests, which `serde` derives. -/
structure ManifestFormat where
  write : BackupManifest → Bytes
  read : Bytes → Except String BackupManifest
  read_write : ∀ m, read (write m) = .ok m

section
variable (format : ManifestFormat) (sha256 : Bytes → String)

structure ChecksumMismatch where
  filename : FileName
  (expected actual : String)

def verifyChecksums (dir : Directory) (checksums : Table FileName String) : List ChecksumMismatch :=
  checksums.rows.filterMap (fun entry =>
    match dir.get entry.1 with
    | none => some ⟨entry.1, entry.2, "<missing>"⟩
    | some bytes => if sha256 bytes ≠ entry.2 then some ⟨entry.1, entry.2, sha256 bytes⟩ else none)

/-- The lines of `SHA256SUMS`, by the names of the files. -/
def checksumsFile (checksums : Table FileName String) : Bytes :=
  let entries := checksums.rows.insertionSort (fun a b => a.1.text ≤ b.1.text)
  (String.join (entries.map (fun entry => entry.2 ++ "  " ++ entry.1.text ++ "\n"))).toUTF8.toList

structure ArchiveWriter where
  staged : Directory := {}
  dataFiles : List FileName := []
  created : ∀ name ∈ dataFiles, ∃ bytes, staged.get name = some bytes := by exact fun _ member => by cases member

namespace ArchiveWriter

theorem still_created {w : ArchiveWriter} {name : FileName} {bytes : Bytes} :
    ∀ other ∈ w.dataFiles, ∃ content, Table.get (w.staged.put name bytes) other = some content := by
  intro other member
  rw [Directory.get_put]
  split
  · exact ⟨_, rfl⟩
  · exact w.created other member

def addManifest (m : BackupManifest) (w : ArchiveWriter) : ArchiveWriter where
  staged := w.staged.put manifestName (format.write m)
  dataFiles := w.dataFiles
  created := still_created

def createNdjsonWriter (name : FileName) (w : ArchiveWriter) : ArchiveWriter where
  staged := w.staged.put name []
  dataFiles := w.dataFiles ++ [name]
  created other member := by
    rcases List.mem_append.mp member with before | here
    · exact still_created other before
    · obtain rfl := List.mem_singleton.mp here
      exact ⟨[], by rw [Directory.get_put, if_pos rfl]⟩

def write (name : FileName) (bytes : Bytes) (w : ArchiveWriter) : ArchiveWriter where
  staged := w.staged.put name bytes
  dataFiles := w.dataFiles
  created := still_created

def recordChecksum (staged : Directory) (sums : Table FileName String) (name : FileName) : Table FileName String :=
  match staged.get name with
  | some bytes => sums.upsert name (sha256 bytes) (fun _ => sha256 bytes)
  | none => sums

def checksums (w : ArchiveWriter) : Table FileName String := w.dataFiles.foldl (recordChecksum sha256 w.staged) {}

def finalize (w : ArchiveWriter) : Except String Directory :=
  let checksums := w.checksums sha256
  let dir := w.staged.put checksumsName (checksumsFile checksums)
  match dir.get manifestName with
  | none => .ok dir
  | some raw => do
    let m ← format.read raw
    pure (dir.put manifestName (format.write { m with fileChecksums := checksums }))

end ArchiveWriter

structure ArchiveReader where
  extractDir : Directory
  manifest : BackupManifest

namespace ArchiveReader

def opened (archive : Directory) : Except String ArchiveReader :=
  match archive.get manifestName with
  | none => .error "Archive does not contain manifest.json"
  | some raw => (format.read raw).map (⟨archive, ·⟩)

def validateChecksums (reader : ArchiveReader) : List ChecksumMismatch :=
  verifyChecksums sha256 reader.extractDir reader.manifest.fileChecksums

def openNdjson (reader : ArchiveReader) (name : FileName) : Except String Bytes :=
  match reader.extractDir.get name with
  | none => .error ("Data file not found in archive: " ++ name.text)
  | some bytes => .ok bytes

end ArchiveReader

structure ValidationReport where
  (valid manifestOk schemaCompatible : Bool)
  checksumMismatches : List ChecksumMismatch
  errors : List String

def ChecksumMismatch.message (m : ChecksumMismatch) : String :=
  "Checksum mismatch for " ++ m.filename.text ++ ": expected=" ++ m.expected ++ ", actual=" ++ m.actual

def validateArchive (archive : Directory) : ValidationReport :=
  match ArchiveReader.opened format archive with
  | .error e => ⟨false, false, false, [], ["Failed to open archive: " ++ e]⟩
  | .ok reader =>
    let compatible := reader.manifest.isSchemaCompatible
    let mismatches := reader.validateChecksums sha256
    let errors :=
      (if compatible then [] else
        ["Schema version incompatible: archive=" ++ reader.manifest.schemaVersion ++ ", system=" ++
          CURRENT_SCHEMA_VERSION]) ++ mismatches.map (·.message)
    ⟨true && compatible && mismatches.isEmpty && errors.isEmpty, true, compatible, mismatches, errors⟩

end

end Aeterna.Backup
