import Aeterna.Backup.Archive
import Mathlib.Logic.Equiv.List

namespace Aeterna.Backup
open Lib (Table)
open List Function

variable {format : ManifestFormat} {sha256 : Bytes → String}

theorem verifyChecksums_eq_nil {dir : Directory} {checksums : Table FileName String} :
    verifyChecksums sha256 dir checksums = [] ↔
    ∀ name digest, checksums.get name = some digest → ∃ bytes, dir.get name = some bytes ∧ sha256 bytes = digest := by
  rw [verifyChecksums, filterMap_eq_nil_iff]
  constructor
  · intro each name digest recorded
    have fine := each _ (Table.get_eq_some.mp recorded)
    cases found : dir.get name with
    | none => simp [found] at fine
    | some bytes =>
      refine ⟨bytes, rfl, ?_⟩
      by_contra differs
      simp [found, differs] at fine
  · rintro each ⟨name, digest⟩ member
    obtain ⟨bytes, found, same⟩ := each name digest (Table.get_eq_some.mpr member)
    simp [found, same]

theorem validateArchive_valid_iff {archive : Directory} : (validateArchive format sha256 archive).valid = true ↔
    ∃ reader, ArchiveReader.opened format archive = .ok reader ∧ reader.manifest.isSchemaCompatible = true ∧
      reader.validateChecksums sha256 = [] := by
  unfold validateArchive
  cases opened : ArchiveReader.opened format archive with
  | error e => simp
  | ok reader =>
    by_cases compatible : reader.manifest.isSchemaCompatible = true
    · cases reader.validateChecksums sha256 <;> simp [compatible]
    · simp [compatible]

theorem opened_eq_ok {archive : Directory} {reader : ArchiveReader} :
    ArchiveReader.opened format archive = .ok reader ↔
    reader.extractDir = archive ∧ ∃ raw, archive.get manifestName = some raw ∧
      format.read raw = .ok reader.manifest := by
  unfold ArchiveReader.opened
  cases found : archive.get manifestName with
  | none => simp
  | some raw =>
    obtain ⟨dir, manifest⟩ := reader
    cases read : format.read raw with
    | error e => simp [read, Except.map]
    | ok m =>
      simp only [read, Except.map, Except.ok.injEq, ArchiveReader.mk.injEq]
      constructor
      · rintro ⟨rfl, rfl⟩
        exact ⟨rfl, raw, rfl, read⟩
      · rintro ⟨rfl, raw', same, read'⟩
        cases same
        exact ⟨rfl, Except.ok.inj (read.symm.trans read')⟩

theorem openNdjson_eq_ok {reader : ArchiveReader} {name : FileName} {bytes : Bytes} :
    reader.openNdjson name = .ok bytes ↔ reader.extractDir.get name = some bytes := by
  unfold ArchiveReader.openNdjson
  cases reader.extractDir.get name <;> simp

namespace ArchiveWriter
variable {w : ArchiveWriter} {archive : Directory}

theorem recordChecksum_foldl {staged : Directory} (names : List FileName) (sums : Table FileName String)
    (created : ∀ n ∈ names, ∃ bytes, staged.get n = some bytes) (name : FileName) :
    (names.foldl (recordChecksum sha256 staged) sums).get name =
      if name ∈ names then (staged.get name).map sha256 else sums.get name := by
  induction names generalizing sums with
  | nil => rfl
  | cons first rest ih =>
    obtain ⟨bytes, found⟩ := created first mem_cons_self
    rw [foldl_cons, ih _ (fun n member => created n (mem_cons_of_mem _ member)), recordChecksum, found]
    dsimp only
    rw [Table.get_upsert]
    by_cases later : name ∈ rest
    · simp [later]
    · by_cases same : name = first
      · subst same
        cases sums.get name <;> simp [later, found]
      · simp [later, same]

theorem checksums_get (name : FileName) (digest : String) : (w.checksums sha256).get name = some digest ↔
    name ∈ w.dataFiles ∧ ∃ bytes, w.staged.get name = some bytes ∧ sha256 bytes = digest := by
  rw [checksums, recordChecksum_foldl _ _ w.created]
  by_cases member : name ∈ w.dataFiles
  · simp [member]
  · simp [member]

theorem finalize_manifest (written : w.finalize format sha256 = .ok archive) {raw : Bytes}
    (found : archive.get manifestName = some raw) :
    ∃ m, format.read raw = .ok m ∧ m.fileChecksums = w.checksums sha256 := by
  unfold finalize at written
  dsimp only at written
  split at written
  · rename_i missing
    cases written
    rw [missing] at found
    cases found
  · rename_i staged _
    cases read : format.read staged with
    | error e =>
      rw [read] at written
      cases written
    | ok m =>
      rw [read] at written
      cases written
      rw [Directory.get_put, if_pos rfl] at found
      cases found
      exact ⟨_, format.read_write _, rfl⟩

end ArchiveWriter

/-- The data files of the writer, and whatever else lies beside the manifest and `SHA256SUMS`. -/
def ArchiveWriter.IsNdjson (w : ArchiveWriter) (name : FileName) : Prop :=
  name ∈ w.dataFiles ∨ name ≠ manifestName ∧ name ≠ checksumsName

structure Untampered (w : ArchiveWriter) (reader : ArchiveReader) : Prop where
  same : ∀ name bytes, w.IsNdjson name → reader.openNdjson name = .ok bytes →
    name ∈ w.dataFiles ∧ w.staged.get name = some bytes
  there : ∀ name ∈ w.dataFiles, ∃ bytes, reader.openNdjson name = .ok bytes

def ManifestFormat.Readable (format : ManifestFormat) (archive : Directory) : Prop :=
  ∃ raw m, archive.get manifestName = some raw ∧ format.read raw = .ok m ∧ m.isSchemaCompatible = true

section
variable {w : ArchiveWriter} {archive after : Directory}

theorem valid_iff_kept (collisionFree : Injective sha256) (written : w.finalize format sha256 = .ok archive)
    (kept : after.get manifestName = archive.get manifestName) :
    (validateArchive format sha256 after).valid = true ↔
    format.Readable archive ∧ ∀ name ∈ w.dataFiles, after.get name = w.staged.get name := by
  rw [validateArchive_valid_iff]
  constructor
  · rintro ⟨reader, opened, compatible, matching⟩
    obtain ⟨same, raw, found, read⟩ := opened_eq_ok.mp opened
    obtain ⟨m, readAgain, sums⟩ := w.finalize_manifest written (kept ▸ found)
    have known : m = reader.manifest := Except.ok.inj (readAgain.symm.trans read)
    refine ⟨⟨raw, m, kept ▸ found, readAgain, known ▸ compatible⟩, fun name member => ?_⟩
    obtain ⟨bytes, staged⟩ := w.created name member
    have recorded : reader.manifest.fileChecksums.get name = some (sha256 bytes) := by
      rw [← known, sums]
      exact (w.checksums_get name _).mpr ⟨member, bytes, staged, rfl⟩
    obtain ⟨now, there, digest⟩ := verifyChecksums_eq_nil.mp matching name _ recorded
    rw [← same, there, staged, collisionFree digest]
  · rintro ⟨⟨raw, m, found, read, compatible⟩, each⟩
    obtain ⟨m', readAgain, sums⟩ := w.finalize_manifest written found
    have known : m' = m := Except.ok.inj (readAgain.symm.trans read)
    refine ⟨⟨after, m⟩, opened_eq_ok.mpr ⟨rfl, raw, kept.trans found, read⟩, compatible, ?_⟩
    refine verifyChecksums_eq_nil.mpr (fun name digest recorded => ?_)
    rw [← known, sums] at recorded
    obtain ⟨member, bytes, staged, same⟩ := (w.checksums_get name digest).mp recorded
    exact ⟨bytes, (each name member).trans staged, same⟩

/-- A valid report means an untampered archive exactly if no file was added, unless a data file was changed or removed
or the manifest does not do, so that the report is not valid anyway. -/
theorem valid_untampered_iff (collisionFree : Injective sha256) (written : w.finalize format sha256 = .ok archive)
    (kept : after.get manifestName = archive.get manifestName) :
    ((validateArchive format sha256 after).valid = true →
      ∃ reader, ArchiveReader.opened format after = .ok reader ∧ Untampered w reader) ↔
    (∀ name, name ∉ w.dataFiles → name ≠ manifestName → name ≠ checksumsName → after.get name = none) ∨
    (∃ name ∈ w.dataFiles, after.get name ≠ w.staged.get name) ∨ ¬ format.Readable archive := by
  rw [valid_iff_kept collisionFree written kept]
  constructor
  · intro sound
    by_contra none_
    push Not at none_
    obtain ⟨⟨name, outside, notManifest, notChecksums, added⟩, each, readable⟩ := none_
    obtain ⟨reader, opened, untampered⟩ := sound ⟨readable, each⟩
    obtain ⟨same, -⟩ := opened_eq_ok.mp opened
    obtain ⟨bytes, found⟩ := Option.ne_none_iff_exists'.mp added
    have shown : reader.openNdjson name = .ok bytes := openNdjson_eq_ok.mpr (same ▸ found)
    exact outside (untampered.same name bytes (.inr ⟨notManifest, notChecksums⟩) shown).1
  · rintro cases_ ⟨⟨raw, m, found, read, compatible⟩, each⟩
    refine ⟨⟨after, m⟩, opened_eq_ok.mpr ⟨rfl, raw, kept.trans found, read⟩, ?_, ?_⟩
    · intro name bytes ndjson shown
      have shown := openNdjson_eq_ok.mp shown
      by_cases member : name ∈ w.dataFiles
      · exact ⟨member, (each name member).symm.trans shown⟩
      · obtain ⟨notManifest, notChecksums⟩ := ndjson.resolve_left member
        rcases cases_ with none_ | ⟨changed, inside, differs⟩ | unreadable
        · have absent := none_ name member notManifest notChecksums
          rw [absent] at shown
          cases shown
        · exact absurd (each changed inside) differs
        · exact absurd ⟨raw, m, found, read, compatible⟩ unreadable
    · intro name member
      obtain ⟨bytes, staged⟩ := w.created name member
      exact ⟨bytes, openNdjson_eq_ok.mpr ((each name member).trans staged)⟩

end

def memoriesName : FileName := ⟨"memories.ndjson", by decide +kernel⟩

def policiesName : FileName := ⟨"policies.ndjson", by decide +kernel⟩

def emptyDigest : String := "e3b0c44298fc1c149afbf4c8996fb92427ae41e4649b934ca495991b7852b855"

variable (bytes : Bytes) (m : BackupManifest)

def sampleSha256 : String :=
  if bytes = [] then emptyDigest else String.ofList ('#' :: bytes.map (fun b => Char.ofNat b.toNat))

theorem sampleSha256_injective : Injective sampleSha256 := by
  have chars : Injective (fun b : UInt8 => Char.ofNat b.toNat) := by
    intro a b same
    have number : ∀ n < 256, (Char.ofNat n).toNat = n := by decide +kernel
    have same := congrArg Char.toNat same
    rw [number _ a.toNat_lt, number _ b.toNat_lt] at same
    exact UInt8.toNat_inj.mp same
  have marked : ∀ bytes : Bytes, String.ofList ('#' :: bytes.map (fun b => Char.ofNat b.toNat)) ≠ emptyDigest := by
    intro bytes same
    have first := congrArg (fun text => text.toList.head?) same
    simp [emptyDigest] at first
  intro a b same
  unfold sampleSha256 at same
  split at same
  · split at same
    · simp_all
    · exact absurd same.symm (marked b)
  · split at same
    · exact absurd same (marked a)
    · have same := String.ofList_injective same
      exact map_injective_iff.mpr chars (List.cons.inj same).2

def manifestText (fileChecksums : List String) : List String :=
  ["\x7b\n  \"schema_version\": \"1.0.0\",\n  \"created_at\": \"2026-04-11T12:00:00+00:00\",\n",
    "  \"source_instance\": \"host\",\n  \"scope\": \x7b\n    \"type\": \"full_instance\"\n  \x7d,\n",
    "  \"incremental\": false,\n  \"since_timestamp\": null,\n  \"entity_counts\": \x7b\n    \"memories\": 0,\n",
    "    \"knowledge_items\": 0,\n    \"knowledge_relations\": 0,\n    \"graph_nodes\": 0,\n    \"graph_edges\": 0,\n",
    "    \"policies\": 0,\n    \"org_units\": 0,\n    \"role_assignments\": 0,\n    \"promotion_requests\": 0,\n",
    "    \"governance_events\": 0\n  \x7d,\n  \"file_checksums\": "] ++ fileChecksums ++
  [",\n  \"backend_snapshots\": \x7b\n    \"postgres_txn_start\": null,\n    \"qdrant_snapshot_id\": null,\n",
    "    \"duckdb_read_at\": null\n  \x7d,\n  \"embedding_model\": null\n\x7d"]

def asciiBytes (pieces : List String) : Bytes :=
  pieces.flatMap (fun text => text.toList.map (fun c => c.toNat.toUInt8))

def newManifestBytes : Bytes := asciiBytes (manifestText ["\x7b\x7d"])

def finalManifestBytes : Bytes :=
  asciiBytes (manifestText ["\x7b\n    \"memories.ndjson\": \"", emptyDigest, "\"\n  \x7d"])

def codeText (text : String) : List Nat := text.toList.map Char.toNat

def textOf (code : List Nat) : String := String.ofList (code.map Char.ofNat)

theorem textOf_codeText (text : String) : textOf (codeText text) = text := by
  simp [textOf, codeText, comp_def]

def codeEntry (entry : FileName × String) : List Nat × List Nat := (codeText entry.1.text, codeText entry.2)

def entryOf (code : List Nat × List Nat) : Option (FileName × String) :=
  if plain : plainName (textOf code.1) = true then some (⟨textOf code.1, plain⟩, textOf code.2) else none

theorem entryOf_codeEntry (entry : FileName × String) : entryOf (codeEntry entry) = some entry := by
  obtain ⟨⟨text, plain⟩, digest⟩ := entry
  simp only [entryOf, codeEntry, textOf_codeText]
  exact dif_pos plain

theorem entriesOf_codeEntries (entries : List (FileName × String)) :
    (entries.map codeEntry).mapM entryOf = some entries := by
  induction entries with
  | nil => rfl
  | cons entry rest ih => simp [entryOf_codeEntry, ih]

def otherBytes : Bytes :=
  0 :: replicate (Encodable.encode (codeText m.schemaVersion, m.fileChecksums.rows.map codeEntry)) 0

def otherManifest : Option BackupManifest := do
  let (version, entries) ← (Encodable.decode (bytes.length - 1) : Option (List Nat × List (List Nat × List Nat)))
  let rows ← entries.mapM entryOf
  if unique : (rows.map Prod.fst).Nodup then some ⟨textOf version, ⟨rows, unique⟩⟩ else none

theorem otherManifest_otherBytes : otherManifest (otherBytes m) = some m := by
  obtain ⟨version, ⟨rows, unique⟩⟩ := m
  simp only [otherManifest, otherBytes, length_cons, length_replicate, Nat.add_sub_cancel,
    Encodable.encodek,
    Option.bind_eq_bind, Option.bind_some, entriesOf_codeEntries, textOf_codeText]
  exact dif_pos unique

def oneChecksum : List (FileName × String) := [(memoriesName, emptyDigest)]

def sampleWrite : Bytes :=
  if m.schemaVersion = CURRENT_SCHEMA_VERSION ∧ m.fileChecksums.rows = [] then newManifestBytes
  else if m.schemaVersion = CURRENT_SCHEMA_VERSION ∧ m.fileChecksums.rows = oneChecksum then finalManifestBytes
  else otherBytes m

def sampleRead : Except String BackupManifest :=
  if bytes = newManifestBytes then .ok {}
  else if bytes = finalManifestBytes then .ok { fileChecksums := { rows := oneChecksum, unique := nodup_singleton _ } }
  else ((otherManifest bytes).map Except.ok).getD (.error "expected value at line 1 column 1")

theorem finalManifestBytes_ne : finalManifestBytes ≠ newManifestBytes := by
  intro same
  simp only [finalManifestBytes, newManifestBytes, asciiBytes, manifestText, flatMap_append,
    append_assoc, append_cancel_left_eq] at same
  exact absurd (congrArg (fun bytes => bytes[1]?) same) (by decide +kernel)

theorem otherBytes_ne {bytes : Bytes} (brace : bytes.head? = some 123) : otherBytes m ≠ bytes := by
  rintro rfl
  cases brace

/-- The JSON form on the manifests of that archive, and some other form elsewhere. -/
def ManifestFormat.sample : ManifestFormat where
  write := sampleWrite
  read := sampleRead
  read_write m := by
    unfold sampleWrite
    by_cases new : m.schemaVersion = CURRENT_SCHEMA_VERSION ∧ m.fileChecksums.rows = []
    · rw [if_pos new, sampleRead, if_pos rfl]
      obtain ⟨version, ⟨rows, unique⟩⟩ := m
      obtain ⟨rfl, rfl⟩ := new
      rfl
    · rw [if_neg new]
      by_cases final : m.schemaVersion = CURRENT_SCHEMA_VERSION ∧ m.fileChecksums.rows = oneChecksum
      · rw [if_pos final, sampleRead, if_neg finalManifestBytes_ne, if_pos rfl]
        obtain ⟨version, ⟨rows, unique⟩⟩ := m
        obtain ⟨rfl, rfl⟩ := final
        rfl
      · rw [if_neg final, sampleRead, if_neg (otherBytes_ne m (by decide +kernel)),
          if_neg (otherBytes_ne m (by decide +kernel)), otherManifest_otherBytes]
        rfl

def memoriesWriter : ArchiveWriter :=
  (({} : ArchiveWriter).createNdjsonWriter memoriesName).addManifest ManifestFormat.sample {}

theorem memoriesWriter_get (name : FileName) : Table.get memoriesWriter.staged name =
    if name = manifestName then some (ManifestFormat.sample.write {}) else if name = memoriesName then some []
      else none := by
  simp [memoriesWriter, ArchiveWriter.addManifest, ArchiveWriter.createNdjsonWriter]

theorem memoriesWriter_finalize : ∃ archive, memoriesWriter.finalize .sample sampleSha256 = .ok archive ∧
    ManifestFormat.sample.Readable archive ∧ Table.get archive memoriesName = some [] ∧
    ∀ name, name ≠ memoriesName → name ≠ manifestName → name ≠ checksumsName → Table.get archive name = none := by
  have apart : manifestName ≠ checksumsName ∧ memoriesName ≠ checksumsName ∧ memoriesName ≠ manifestName := by decide
  have manifest : Table.get memoriesWriter.staged manifestName = some (ManifestFormat.sample.write {}) :=
    memoriesWriter_get _
  refine ⟨(memoriesWriter.staged.put checksumsName
    (checksumsFile (memoriesWriter.checksums sampleSha256))).put manifestName
    (ManifestFormat.sample.write { fileChecksums := memoriesWriter.checksums sampleSha256 }), ?_, ?_, ?_, ?_⟩
  · simp only [ArchiveWriter.finalize, Directory.get_put, if_neg apart.1, manifest, ManifestFormat.sample.read_write]
    rfl
  · exact ⟨_, _, by rw [Directory.get_put, if_pos rfl], ManifestFormat.sample.read_write _, by decide⟩
  · simp [apart, memoriesWriter_get]
  · intro name other notManifest notChecksums
    simp [other, notManifest, notChecksums, memoriesWriter_get]

theorem memories_untampered : ∃ archive, memoriesWriter.finalize .sample sampleSha256 = .ok archive ∧
    ((validateArchive .sample sampleSha256 archive).valid = true →
      ∃ reader, ArchiveReader.opened .sample archive = .ok reader ∧ Untampered memoriesWriter reader) := by
  obtain ⟨archive, written, -, -, others⟩ := memoriesWriter_finalize
  refine ⟨archive, written, (valid_untampered_iff sampleSha256_injective written rfl).mpr (.inl ?_)⟩
  intro name outside notManifest notChecksums
  exact others name (fun same => outside (same ▸ mem_singleton_self memoriesName)) notManifest notChecksums

theorem added_file_is_valid : ∃ archive, memoriesWriter.finalize .sample sampleSha256 = .ok archive ∧
    (validateArchive .sample sampleSha256 (archive.put policiesName [123, 125, 10])).valid = true ∧
    ¬ ∃ reader, ArchiveReader.opened .sample (archive.put policiesName [123, 125, 10]) = .ok reader ∧
      Untampered memoriesWriter reader := by
  obtain ⟨archive, written, readable, memories, -⟩ := memoriesWriter_finalize
  have apart : manifestName ≠ policiesName ∧ memoriesName ≠ policiesName ∧ memoriesName ≠ manifestName ∧
      policiesName ≠ manifestName ∧ policiesName ≠ checksumsName := by decide
  refine ⟨archive, written, ?_, ?_⟩
  · refine (valid_iff_kept sampleSha256_injective written (by simp [apart])).mpr ⟨readable, ?_⟩
    intro name member
    obtain rfl := mem_singleton.mp member
    simp [apart, memories, memoriesWriter_get]
  · rintro ⟨reader, opened, untampered⟩
    have found : reader.openNdjson policiesName = .ok [123, 125, 10] :=
      openNdjson_eq_ok.mpr (by rw [(opened_eq_ok.mp opened).1, Directory.get_put, if_pos rfl])
    have inside := (untampered.same _ _ (.inr apart.2.2.2) found).1
    exact apart.2.1 (mem_singleton.mp inside).symm

end Aeterna.Backup
