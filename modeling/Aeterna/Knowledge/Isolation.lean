import Aeterna.Knowledge.SidecarText

namespace Aeterna
open Lib List

namespace Files
variable {files next : Files} {location other : Location} {text : String}

theorem isDirectory_iff : files.isDirectory location = true ↔
    ∃ key ∈ files.contents, location <+: key ∧ location ≠ key := by
  simp [isDirectory, AList.mem_keys]

/-- A write that succeeds. -/
structure Wrote (files : Files) (location : Location) (text : String) (next : Files) : Prop where
  directory : files.isDirectory location = false
  free : ∀ key ∈ files.contents, key <+: location → key = location
  lookup : ∀ other, next.contents.lookup other = if other = location then some text else files.contents.lookup other
  keys : next.contents.keys = (files.contents.insert location "").keys

variable {plain : PlainLocation location}

theorem write_wrote (written : files.write location plain text = .ok next) : Wrote files location text next := by
  unfold Files.write at written
  split at written
  · cases written
  split at written
  · cases written
  rename_i directory free
  cases written
  refine ⟨by simpa using directory, ?_, ?_, by rw [AList.keys_insert, AList.keys_insert]⟩
  · intro key member below
    by_contra different
    apply free
    simp only [any_eq_true, decide_eq_true_eq]
    exact ⟨key, AList.mem_keys.mp member, below, different⟩
  · intro other
    by_cases same : other = location
    · rw [if_pos same, same]
      exact AList.lookup_insert files.contents
    · rw [if_neg same]
      exact AList.lookup_insert_ne same

theorem Wrote.mem (wrote : Wrote files location text next) :
    other ∈ next.contents ↔ other = location ∨ other ∈ files.contents := by
  rw [← AList.lookup_isSome, ← AList.lookup_isSome, wrote.lookup]
  split
  · rename_i same
    simp [same]
  · rename_i different
    simp [different]

theorem Wrote.isDirectory (wrote : Wrote files location text next) : next.isDirectory other = true ↔
    files.isDirectory other = true ∨ other <+: location ∧ other ≠ location := by
  rw [isDirectory_iff, isDirectory_iff]
  constructor
  · rintro ⟨key, member, below, different⟩
    rcases wrote.mem.mp member with rfl | earlier
    · exact Or.inr ⟨below, different⟩
    · exact Or.inl ⟨key, earlier, below, different⟩
  · rintro (⟨key, member, below, different⟩ | ⟨below, different⟩)
    · exact ⟨key, wrote.mem.mpr (Or.inr member), below, different⟩
    · exact ⟨location, wrote.mem.mpr (Or.inl rfl), below, different⟩

theorem lookup_of_read (read : files.read location = .ok none) : files.contents.lookup location = none := by
  unfold Files.read at read
  cases found : files.contents.lookup location with
  | none => rfl
  | some content => simp [found] at read

theorem write_succeeds (directory : files.isDirectory location = false)
    (free : ∀ key ∈ files.contents, key <+: location → key = location) (plain : PlainLocation location)
    (text : String) :
    ∃ next, files.write location plain text = .ok next := by
  unfold Files.write
  rw [if_neg (by simp [directory]), if_neg]
  · exact ⟨_, rfl⟩
  · simp only [any_eq_true, decide_eq_true_eq, not_exists, not_and, not_not]
    exact fun key member below => free key (AList.mem_keys.mpr member) below

theorem write_of_keys {others : Files} (keys : others.contents.keys = files.contents.keys)
    (written : files.write location plain text = .ok next) (text' : String) :
    ∃ next', others.write location plain text' = .ok next' := by
  have wrote := write_wrote written
  refine write_succeeds ?_ ?_ plain text'
  · unfold Files.isDirectory
    rw [keys]
    exact wrote.directory
  · intro key member below
    rw [AList.mem_keys, keys, ← AList.mem_keys] at member
    exact wrote.free key member below

end Files

/-- Two entries agree in everything that is stored. -/
structure KnowledgeEntry.Same (entry other : KnowledgeEntry) : Prop where
  path : entry.path = other.path
  content : entry.content = other.content
  layer : entry.layer = other.layer
  kind : entry.kind = other.kind
  status : entry.status = other.status
  summaries : ∀ depth, entry.summaries.lookup depth = other.summaries.lookup depth
  metadata : ∀ name, entry.metadata.lookup name = other.metadata.lookup name
  author : entry.author = other.author
  updatedAt : entry.updatedAt = other.updatedAt

def KnowledgeEntry.sidecar (entry : KnowledgeEntry) : Sidecar :=
  ⟨entry.kind, entry.status, entry.summaries, entry.metadata, entry.author, entry.updatedAt⟩

section
variable (config : RepositoryConfig)

/-- A sidecar that was written is read back. -/
def RepositoryConfig.Faithful : Prop :=
  ∀ sidecar, ∃ fields, config.parseSidecar (config.renderSidecar sidecar) = .ok fields ∧ fields.Tell sidecar

namespace GitRepository
variable (repo : GitRepository)

def Shows (entry : KnowledgeEntry) : Prop :=
  (∃ found, repo.getInner config entry.layer entry.path = .ok (some found) ∧ found.Same entry) ∧
    ∃ listed, repo.listInner config entry.layer "" = .ok listed ∧ ∃ found ∈ listed, found.Same entry

def StoresTwo (layer : KnowledgeLayer) (p q : String) (a b : KnowledgeEntry) (last : GitRepository) : Prop :=
  a.path = p ∧ a.layer = layer ∧ b.path = q ∧ b.layer = layer ∧
    ∃ first second id id' next, repo.storeInner config a first = .ok (id, next) ∧
      next.storeInner config b second = .ok (id', last)

def ShowsBoth (layer : KnowledgeLayer) (a b : KnowledgeEntry) : Prop :=
  repo.Shows config a ∧ repo.Shows config b ∧
    (∀ message id next, repo.deleteInner config layer b.path message = .ok (id, next) → next.Shows config a) ∧
    ∀ message id next, repo.deleteInner config layer a.path message = .ok (id, next) → next.Shows config b

/-- A sidecar is missing or can be read. -/
def Legible (location : Location) : Prop :=
  (∃ text fields, repo.files.contents.lookup location = some text ∧ config.parseSidecar text = .ok fields) ∨
    repo.files.contents.lookup location = none ∧ repo.files.isDirectory location = false

/-- No other file of the layer keeps a listing from succeeding. -/
def Undamaged (layer : KnowledgeLayer) (p q : String) : Prop :=
  ∀ file ∈ repo.layerFiles config layer, file ≠ pathNames p → file ≠ pathNames q →
    metadataPath file = metadataPath (pathNames p) ∨ metadataPath file = metadataPath (pathNames q) ∨
      repo.Legible config (config.layerPath layer ++ metadataPath file) ∧
        ¬ metadataPath file <+: pathNames p ∧ ¬ metadataPath file <+: pathNames q

end GitRepository
end

/-- A path as `list` writes it, of a file that it does not pass over. -/
def Listable (path : String) : Prop := PlainLocation (pathNames path) ∧ isMetadataPath (pathNames path) = false

structure Separate (p q : String) : Prop where
  first : Listable p
  second : Listable q
  sidecars : metadataPath (pathNames p) ≠ metadataPath (pathNames q)

section
variable {config : RepositoryConfig} {repo next : GitRepository} {layer : KnowledgeLayer}

theorem pathNames_ne_nil (path : String) : pathNames path ≠ [] := by
  simp [pathNames, splitOn_ne_nil]

theorem joinNames_pathNames (path : String) : joinNames (pathNames path) = path := by
  simp [joinNames, pathNames, intercalate_splitOn]

variable {file : Location} {path message id : String} {entry : KnowledgeEntry}

theorem metadataPath_append (directory : Location) (present : file ≠ []) :
    metadataPath (directory ++ file) = directory ++ metadataPath file := by
  unfold metadataPath
  rw [getLast?_append_of_ne_nil _ present, dropLast_append_of_ne_nil present]
  cases file.getLast? with
  | none => rfl
  | some name => exact append_assoc _ _ _

theorem metadataPath_length (location : Location) : (metadataPath location).length = location.length := by
  rcases eq_nil_or_concat location with rfl | ⟨parent, name, rfl⟩
  · rfl
  · simp [metadataPath]

theorem isMetadataPath_metadataPath (present : file ≠ []) : isMetadataPath (metadataPath file) = true := by
  obtain ⟨parent, name, rfl⟩ := eq_nil_or_concat file |>.resolve_left present
  simp [metadataPath, isMetadataPath, String.toList_append]

theorem Listable.resolvePath (listable : Listable path) :
    config.resolvePath layer path = config.layerPath layer ++ pathNames path := by
  conv_lhs => rw [← joinNames_pathNames path]
  exact resolvePath_joinNames (pathNames_ne_nil path) listable.1

theorem above_metadataPath {location : Location} (present : file ≠ []) :
    location <+: metadataPath file ∧ location ≠ metadataPath file ↔ location <+: file ∧ location ≠ file := by
  obtain ⟨parent, name, rfl⟩ := eq_nil_or_concat file |>.resolve_left present
  have strict : ∀ last : String, location <+: parent ++ [last] ∧ location ≠ parent ++ [last] ↔
      location <+: parent := by
    intro last
    rw [prefix_concat_iff]
    constructor
    · rintro ⟨same | below, different⟩
      · exact absurd same different
      · exact below
    · intro below
      refine ⟨Or.inr below, ?_⟩
      rintro rfl
      have long := below.length_le
      simp at long
  have shape : metadataPath (parent ++ [name]) = parent ++ [fileStem name ++ ".metadata.json"] := by
    simp [metadataPath]
  rw [concat_eq_append, shape, strict, strict]

variable (config repo next) in
/-- A store that succeeds. -/
structure Stored (entry : KnowledgeEntry) (location : Location) : Prop where
  free : ∀ key ∈ repo.files.contents, key <+: location → key = location
  directory : repo.files.isDirectory location = false
  beside : repo.files.isDirectory (metadataPath location) = false
  lookup : ∀ other, next.files.contents.lookup other =
    if other = metadataPath location then some (config.renderSidecar entry.sidecar)
    else if other = location then some entry.content else repo.files.contents.lookup other
  isDirectory : ∀ other, next.files.isDirectory other = true ↔
    repo.files.isDirectory other = true ∨ other <+: location ∧ other ≠ location

theorem storeInner_stored (present : config.resolvePath entry.layer entry.path ≠ [])
    (stored : repo.storeInner config entry message = .ok (id, next)) :
    Stored config repo next entry (config.resolvePath entry.layer entry.path) := by
  unfold GitRepository.storeInner at stored
  simp only [bind, Except.bind] at stored
  split at stored
  · cases stored
  rename_i written first
  split at stored
  · cases stored
  rename_i files second
  cases stored
  have content := Files.write_wrote first
  have sidecar := Files.write_wrote second
  have beside : repo.files.isDirectory (metadataPath (config.resolvePath entry.layer entry.path)) = false := by
    by_contra directory
    have still := content.isDirectory.mpr (Or.inl (by simpa using directory))
    rw [sidecar.directory] at still
    cases still
  refine ⟨content.free, content.directory, beside, ?_, ?_⟩
  · intro other
    refine (sidecar.lookup other).trans ?_
    rw [content.lookup]
    rfl
  · intro other
    refine sidecar.isDirectory.trans ?_
    rw [content.isDirectory, above_metadataPath present]
    tauto

theorem storeInner_again (status : KnowledgeStatus) (stored : repo.storeInner config entry message = .ok (id, next)) :
    ∃ id' next', repo.storeInner config { entry with status := status } message = .ok (id', next') := by
  unfold GitRepository.storeInner at stored ⊢
  simp only [bind, Except.bind] at stored ⊢
  split at stored
  · cases stored
  rename_i written first
  split at stored
  · cases stored
  rename_i files second
  obtain ⟨files', second'⟩ := Files.write_of_keys rfl second
    (config.renderSidecar ⟨entry.kind, status, entry.summaries, entry.metadata, entry.author, entry.updatedAt⟩)
  simp only [first, second']
  exact ⟨_, _, rfl⟩

variable (repo next) in
def Deleted (location : Location) : Prop :=
  ∀ other, next.files.contents.lookup other =
    if other = location ∨ other = metadataPath location then none else repo.files.contents.lookup other

theorem remove_lookup (files : Files) (location other : Location) :
    (files.remove location).contents.lookup other = if other = location then none
      else files.contents.lookup other := by
  by_cases same : other = location
  · rw [if_pos same, same]
    exact AList.lookup_erase _ _
  · rw [if_neg same]
    exact AList.lookup_erase_ne same

theorem deleteInner_deleted {content : String}
    (there : repo.files.contents.lookup (config.resolvePath layer path) = some content)
    (deleted : repo.deleteInner config layer path message = .ok (id, next)) :
    Deleted repo next (config.resolvePath layer path) := by
  unfold GitRepository.deleteInner at deleted
  simp only [Files.read_eq_some.mpr there, bind, Except.bind] at deleted
  intro other
  by_cases first : other = metadataPath (config.resolvePath layer path)
  · rw [if_pos (Or.inr first), first]
    cases beside : (repo.files.remove (config.resolvePath layer path)).read
      (metadataPath (config.resolvePath layer path)) with
    | error message => simp [beside] at deleted
    | ok answer =>
      cases answer with
      | some text =>
        simp only [beside, pure, Except.pure, GitRepository.commit, Except.ok.injEq, Prod.mk.injEq] at deleted
        rw [← deleted.2]
        exact (remove_lookup _ _ _).trans (if_pos rfl)
      | none =>
        simp only [beside, pure, Except.pure, GitRepository.commit, Except.ok.injEq, Prod.mk.injEq] at deleted
        rw [← deleted.2]
        exact Files.lookup_of_read beside
  · have kept : next.files.contents.lookup other =
        (repo.files.remove (config.resolvePath layer path)).contents.lookup other := by
      cases beside : (repo.files.remove (config.resolvePath layer path)).read
        (metadataPath (config.resolvePath layer path)) with
      | error message => simp [beside] at deleted
      | ok answer =>
        cases answer with
        | some text =>
          simp only [beside, pure, Except.pure, GitRepository.commit, Except.ok.injEq, Prod.mk.injEq] at deleted
          rw [← deleted.2]
          exact (remove_lookup _ _ _).trans (if_neg first)
        | none =>
          simp only [beside, pure, Except.pure, GitRepository.commit, Except.ok.injEq, Prod.mk.injEq] at deleted
          rw [← deleted.2]
    rw [kept, remove_lookup]
    by_cases second : other = config.resolvePath layer path
    · rw [if_pos second, if_pos (Or.inl second)]
    · rw [if_neg second, if_neg (not_or.mpr ⟨second, first⟩)]

theorem mapM_succeeds {α β : Type} {f : α → Except String β} {items : List α} :
    (∃ answers, items.mapM f = .ok answers) ↔ ∀ item ∈ items, ∃ answer, f item = .ok answer := by
  induction items with
  | nil => exact ⟨fun _ _ member => absurd member not_mem_nil, fun _ => ⟨[], rfl⟩⟩
  | cons item rest ih =>
    rw [forall_mem_cons, ← ih, mapM_cons]
    cases first : f item with
    | error message => simp [bind, Except.bind]
    | ok answer =>
      cases others : rest.mapM f with
      | error message => simp [bind, Except.bind]
      | ok answers => simp [bind, Except.bind, pure, Except.pure]

theorem getInner_legible {content : String}
    (stored : repo.files.contents.lookup (config.resolvePath layer path) = some content) :
    (∃ answer, repo.getInner config layer path = .ok answer) ↔
      repo.Legible config (metadataPath (config.resolvePath layer path)) := by
  simp only [GitRepository.getInner, Files.read_eq_some.mpr stored, bind, Except.bind, GitRepository.Legible]
  unfold Files.read
  cases beside : repo.files.contents.lookup (metadataPath (config.resolvePath layer path)) with
  | none =>
    cases directory : repo.files.isDirectory (metadataPath (config.resolvePath layer path)) with
    | true => simp
    | false => simp [pure, Except.pure]
  | some text =>
    cases parsed : config.parseSidecar text with
    | error message => simp [parsed]
    | ok fields => simp [parsed, pure, Except.pure]

theorem listInner_succeeds : (∃ listed, repo.listInner config layer "" = .ok listed) ↔
    ∀ file ∈ repo.layerFiles config layer, repo.Legible config (config.layerPath layer ++ metadataPath file) := by
  have all : (repo.layerFiles config layer).filter (fun file => "".toList <+: (joinNames file).toList) =
      repo.layerFiles config layer := by
    simp
  have each : ∀ file ∈ repo.layerFiles config layer,
      ((∃ answer, repo.getInner config layer (joinNames file) = .ok answer) ↔
        repo.Legible config (config.layerPath layer ++ metadataPath file)) := by
    intro file listed
    obtain ⟨present, stored, -⟩ := mem_layerFiles.mp listed
    have resolved : config.resolvePath layer (joinNames file) = config.layerPath layer ++ file :=
      resolvePath_joinNames present (layerFiles_plain listed)
    obtain ⟨content, found⟩ := Option.isSome_iff_exists.mp (AList.lookup_isSome.mpr stored)
    rw [← resolved] at found
    rw [getInner_legible found, resolved, metadataPath_append _ present]
  rw [← forall₂_congr each, ← mapM_succeeds]
  unfold GitRepository.listInner
  rw [all]
  cases (repo.layerFiles config layer).mapM (fun file => repo.getInner config layer (joinNames file)) with
  | error message => simp [bind, Except.bind]
  | ok answers => simp [bind, Except.bind, pure, Except.pure]

theorem getInner_same (faithful : config.Faithful)
    (content : repo.files.contents.lookup (config.resolvePath entry.layer entry.path) = some entry.content)
    (sidecar : repo.files.contents.lookup (metadataPath (config.resolvePath entry.layer entry.path)) =
    some (config.renderSidecar entry.sidecar)) :
    ∃ found, repo.getInner config entry.layer entry.path = .ok (some found) ∧ found.Same entry := by
  obtain ⟨fields, parsed, tell⟩ := faithful entry.sidecar
  obtain ⟨summaries, someSummaries, sameSummaries⟩ := tell.summaries
  obtain ⟨metadata, someMetadata, sameMetadata⟩ := tell.metadata
  simp only [GitRepository.getInner, Files.read_eq_some.mpr content, Files.read_eq_some.mpr sidecar, parsed, bind,
    Except.bind, pure, Except.pure]
  refine ⟨_, rfl, rfl, rfl, rfl, ?_, ?_, ?_, ?_, ?_, ?_⟩
  · simp [tell.kind, KnowledgeEntry.sidecar]
  · simp [tell.status, KnowledgeEntry.sidecar]
  · intro depth
    simpa [someSummaries, KnowledgeEntry.sidecar] using sameSummaries depth
  · intro name
    simpa [someMetadata, KnowledgeEntry.sidecar] using sameMetadata name
  · simp [tell.author, KnowledgeEntry.sidecar]
  · simp [tell.updatedAt, KnowledgeEntry.sidecar]

theorem shows_of_files (faithful : config.Faithful) (listable : Listable entry.path)
    (content : repo.files.contents.lookup (config.resolvePath entry.layer entry.path) = some entry.content)
    (sidecar : repo.files.contents.lookup (metadataPath (config.resolvePath entry.layer entry.path)) =
    some (config.renderSidecar entry.sidecar)) (legible : ∀ file ∈ repo.layerFiles config entry.layer,
    repo.Legible config (config.layerPath entry.layer ++ metadataPath file)) : repo.Shows config entry := by
  obtain ⟨found, read, same⟩ := getInner_same faithful content sidecar
  obtain ⟨listed, lists⟩ := listInner_succeeds.mpr legible
  refine ⟨⟨found, read, same⟩, listed, lists, found, ?_, same⟩
  rw [listInner_view lists]
  refine mem_filterMap.mpr ⟨pathNames entry.path, mem_layerFiles.mpr ⟨pathNames_ne_nil _, ?_, listable.2⟩, ?_⟩
  · rw [← listable.resolvePath]
    exact AList.lookup_isSome.mp (Option.isSome_of_eq_some content)
  · rw [joinNames_pathNames, toOption_join_eq_some]
    exact read

theorem GitRepository.Shows.listable (shows : repo.Shows config entry) : Listable entry.path := by
  obtain ⟨-, listed, lists, found, member, same⟩ := shows
  rw [listInner_view lists] at member
  obtain ⟨file, inLayer, read⟩ := mem_filterMap.mp member
  obtain ⟨named, -, -⟩ := getInner_sound (toOption_join_eq_some.mp read)
  obtain ⟨present, -, unhidden⟩ := mem_layerFiles.mp inLayer
  have plain := layerFiles_plain inLayer
  have names : pathNames entry.path = file := by
    rw [← same.path, named, pathNames_joinNames present plain]
  exact ⟨names ▸ plain, names ▸ unhidden⟩

theorem GitRepository.Shows.legible (shows : repo.Shows config entry) : ∀ file ∈ repo.layerFiles config entry.layer,
      repo.Legible config (config.layerPath entry.layer ++ metadataPath file) :=
  listInner_succeeds.mp ⟨_, shows.2.choose_spec.1⟩

theorem Listable.ne_metadataPath (listable : Listable path) (present : file ≠ []) :
    pathNames path ≠ metadataPath file := by
  intro same
  have hidden := isMetadataPath_metadataPath present
  rw [← same, listable.2] at hidden
  cases hidden

theorem legible_of_sidecar (faithful : config.Faithful) {location : Location}
    (sidecar : repo.files.contents.lookup location = some (config.renderSidecar entry.sidecar)) :
    repo.Legible config location := by
  obtain ⟨fields, parsed, -⟩ := faithful entry.sidecar
  exact Or.inl ⟨_, fields, sidecar, parsed⟩

theorem Stored.legible {location place : Location}
    (stored : Stored config repo next entry location) (content : place ≠ location)
    (sidecar : place ≠ metadataPath location) :
    next.Legible config place ↔ repo.Legible config place ∧ ¬ place <+: location := by
  have lookup : next.files.contents.lookup place = repo.files.contents.lookup place := by
    rw [stored.lookup, if_neg sidecar, if_neg content]
  have directory : next.files.isDirectory place = false ↔
      repo.files.isDirectory place = false ∧ ¬ place <+: location := by
    rw [← Bool.not_eq_true, stored.isDirectory, not_or, Bool.not_eq_true]
    simp [content]
  have above : repo.files.contents.lookup place ≠ none → ¬ place <+: location := by
    intro there below
    have member := AList.lookup_isSome.mp (Option.isSome_iff_ne_none.mpr there)
    exact content (stored.free place member below)
  unfold GitRepository.Legible
  rw [lookup, directory]
  constructor
  · rintro (⟨text, fields, there, parsed⟩ | ⟨missing, fine, free⟩)
    · exact ⟨Or.inl ⟨text, fields, there, parsed⟩, above (by rw [there]; exact nofun)⟩
    · exact ⟨Or.inr ⟨missing, fine⟩, free⟩
  · rintro ⟨⟨text, fields, there, parsed⟩ | ⟨missing, fine⟩, free⟩
    · exact Or.inl ⟨text, fields, there, parsed⟩
    · exact Or.inr ⟨missing, fine, free⟩

theorem Stored.mem_layerFiles (listable : Listable path)
    (stored : Stored config repo next entry (config.layerPath layer ++ pathNames path)) :
    file ∈ next.layerFiles config layer ↔ file = pathNames path ∨ file ∈ repo.layerFiles config layer := by
  rw [Aeterna.mem_layerFiles, Aeterna.mem_layerFiles, ← AList.lookup_isSome, stored.lookup,
    metadataPath_append _ (pathNames_ne_nil path)]
  simp only [append_cancel_left_eq]
  by_cases sidecar : file = metadataPath (pathNames path)
  · have hidden : isMetadataPath file = true := by
      rw [sidecar]
      exact isMetadataPath_metadataPath (pathNames_ne_nil path)
    have other : file ≠ pathNames path := by
      rw [sidecar]
      exact (listable.ne_metadataPath (pathNames_ne_nil path)).symm
    simp [hidden, other]
  · rw [if_neg sidecar]
    by_cases content : file = pathNames path
    · simp [content, pathNames_ne_nil, listable.2]
    · rw [if_neg content, AList.lookup_isSome]
      simp [content]

section
variable {p q : String} {a b : KnowledgeEntry} {last : GitRepository}

theorem stores_legible (faithful : config.Faithful) (listableP : Listable p) (listableQ : Listable q)
    (first : Stored config repo next a (config.layerPath layer ++ pathNames p))
    (second : Stored config next last b (config.layerPath layer ++ pathNames q)) :
    (∀ file ∈ last.layerFiles config layer, last.Legible config (config.layerPath layer ++ metadataPath file)) ↔
      repo.Undamaged config layer p q := by
  have each : ∀ file ≠ [], last.Legible config (config.layerPath layer ++ metadataPath file) ↔
      metadataPath file = metadataPath (pathNames p) ∨ metadataPath file = metadataPath (pathNames q) ∨
        repo.Legible config (config.layerPath layer ++ metadataPath file) ∧
          ¬ metadataPath file <+: pathNames p ∧ ¬ metadataPath file <+: pathNames q := by
    intro file present
    have notP : config.layerPath layer ++ metadataPath file ≠ config.layerPath layer ++ pathNames p :=
      fun same => listableP.ne_metadataPath present (append_cancel_left same).symm
    have notQ : config.layerPath layer ++ metadataPath file ≠ config.layerPath layer ++ pathNames q :=
      fun same => listableQ.ne_metadataPath present (append_cancel_left same).symm
    by_cases sideQ : metadataPath file = metadataPath (pathNames q)
    · have written := second.lookup (config.layerPath layer ++ metadataPath file)
      rw [metadataPath_append _ (pathNames_ne_nil q), if_pos (by rw [sideQ])] at written
      simp [sideQ, legible_of_sidecar faithful (sideQ ▸ written)]
    have otherQ : config.layerPath layer ++ metadataPath file ≠ metadataPath
        (config.layerPath layer ++ pathNames q) := by
      rw [metadataPath_append _ (pathNames_ne_nil q)]
      exact fun same => sideQ (append_cancel_left same)
    by_cases sideP : metadataPath file = metadataPath (pathNames p)
    · have written := first.lookup (config.layerPath layer ++ metadataPath file)
      rw [metadataPath_append _ (pathNames_ne_nil p), if_pos (by rw [sideP])] at written
      have kept := second.lookup (config.layerPath layer ++ metadataPath file)
      rw [if_neg otherQ, if_neg notQ, written] at kept
      simp [sideP, legible_of_sidecar faithful (sideP ▸ kept)]
    have otherP : config.layerPath layer ++ metadataPath file ≠ metadataPath
        (config.layerPath layer ++ pathNames p) := by
      rw [metadataPath_append _ (pathNames_ne_nil p)]
      exact fun same => sideP (append_cancel_left same)
    rw [second.legible notQ otherQ, first.legible notP otherP, prefix_append_right_inj,
      prefix_append_right_inj]
    tauto
  constructor
  · intro legible file listed _ _
    have still := (second.mem_layerFiles listableQ).mpr
        (Or.inr ((first.mem_layerFiles listableP).mpr (Or.inr listed)))
    exact (each file (Aeterna.mem_layerFiles.mp listed).1).mp (legible file still)
  · intro undamaged file listed
    refine (each file (Aeterna.mem_layerFiles.mp listed).1).mpr ?_
    rcases (second.mem_layerFiles listableQ).mp listed with rfl | earlier
    · exact Or.inr (Or.inl rfl)
    rcases (first.mem_layerFiles listableP).mp earlier with rfl | before
    · exact Or.inl rfl
    by_cases isP : file = pathNames p
    · exact Or.inl (by rw [isP])
    by_cases isQ : file = pathNames q
    · exact Or.inr (Or.inl (by rw [isQ]))
    · exact undamaged file before isP isQ

theorem Deleted.legible (listable : Listable q) (deleted : Deleted repo next (config.layerPath layer ++ pathNames q))
    (beside : repo.files.isDirectory (config.layerPath layer ++ metadataPath (pathNames q)) = false)
    (legible : ∀ file ∈ repo.layerFiles config layer,
      repo.Legible config (config.layerPath layer ++ metadataPath file)) :
    ∀ file ∈ next.layerFiles config layer, next.Legible config (config.layerPath layer ++ metadataPath file) := by
  have fewer : ∀ key ∈ next.files.contents, key ∈ repo.files.contents := by
    intro key member
    have there := AList.lookup_isSome.mpr member
    rw [deleted] at there
    split at there
    · cases there
    · exact AList.lookup_isSome.mp there
  have directory : ∀ place, repo.files.isDirectory place = false → next.files.isDirectory place = false := by
    intro place none
    by_contra some
    obtain ⟨key, member, below⟩ := Files.isDirectory_iff.mp (Bool.not_eq_false _ ▸ some)
    have before := Files.isDirectory_iff.mpr ⟨key, fewer key member, below⟩
    rw [none] at before
    cases before
  intro file listed
  obtain ⟨present, member, unhidden⟩ := Aeterna.mem_layerFiles.mp listed
  have read := deleted (config.layerPath layer ++ metadataPath file)
  rw [metadataPath_append _ (pathNames_ne_nil q)] at read
  by_cases side : metadataPath file = metadataPath (pathNames q)
  · rw [if_pos (Or.inr (by rw [side]))] at read
    exact Or.inr ⟨read, directory _ (by rw [side]; exact beside)⟩
  · rw [if_neg] at read
    · rcases legible file (Aeterna.mem_layerFiles.mpr ⟨present, fewer _ member, unhidden⟩) with
        ⟨text, fields, there, parsed⟩ | ⟨missing, fine⟩
      · exact Or.inl ⟨text, fields, read.trans there, parsed⟩
      · exact Or.inr ⟨read.trans missing, directory _ fine⟩
    · rintro (same | same)
      · exact listable.ne_metadataPath present (append_cancel_left same).symm
      · exact side (append_cancel_left same)

variable (config repo) in
structure Kept (entry : KnowledgeEntry) : Prop where
  content : repo.files.contents.lookup (config.layerPath entry.layer ++ pathNames entry.path) = some entry.content
  sidecar : repo.files.contents.lookup (config.layerPath entry.layer ++ metadataPath (pathNames entry.path)) =
    some (config.renderSidecar entry.sidecar)
  beside : repo.files.isDirectory (config.layerPath entry.layer ++ metadataPath (pathNames entry.path)) = false

theorem Kept.shows (kept : Kept config repo a) (faithful : config.Faithful) (listable : Listable a.path)
    (legible : ∀ file ∈ repo.layerFiles config a.layer,
      repo.Legible config (config.layerPath a.layer ++ metadataPath file)) : repo.Shows config a := by
  refine shows_of_files faithful listable ?_ ?_ legible
  · rw [listable.resolvePath]
    exact kept.content
  · rw [listable.resolvePath, metadataPath_append _ (pathNames_ne_nil _)]
    exact kept.sidecar

variable {id : String}

theorem storeInner_keeps {message : String} (listable : Listable a.path)
    (stored : repo.storeInner config a message = .ok (id, next)) :
    Stored config repo next a (config.layerPath a.layer ++ pathNames a.path) ∧ Kept config next a := by
  have place : config.resolvePath a.layer a.path = config.layerPath a.layer ++ pathNames a.path :=
    listable.resolvePath
  have written := storeInner_stored (by rw [place]; simp [pathNames_ne_nil]) stored
  rw [place] at written
  have shape := metadataPath_append (config.layerPath a.layer) (pathNames_ne_nil a.path)
  have apart : config.layerPath a.layer ++ pathNames a.path ≠ config.layerPath a.layer ++
      metadataPath (pathNames a.path) :=
    fun same => listable.ne_metadataPath (pathNames_ne_nil _) (append_cancel_left same)
  refine ⟨written, ?_, ?_, ?_⟩
  · rw [written.lookup, shape, if_neg apart, if_pos rfl]
  · rw [written.lookup, shape, if_pos rfl]
  · have before := written.beside
    rw [shape] at before
    by_contra directory
    rcases (written.isDirectory _).mp (Bool.not_eq_false _ ▸ directory) with earlier | above
    · rw [before] at earlier
      cases earlier
    · rw [← shape] at above
      exact ((above_metadataPath (by simp [pathNames_ne_nil])).mpr above).2 rfl

theorem Kept.stored (kept : Kept config repo a) (listable : Listable a.path) (listableQ : Listable q)
    (apart : pathNames a.path ≠ pathNames q ∧ metadataPath (pathNames a.path) ≠ metadataPath (pathNames q))
    (stored : Stored config repo next b (config.layerPath a.layer ++ pathNames q)) : Kept config next a := by
  have shape := metadataPath_append (config.layerPath a.layer) (pathNames_ne_nil q)
  have other : config.layerPath a.layer ++ metadataPath (pathNames a.path) ≠ config.layerPath a.layer ++
      pathNames q :=
    fun same => listableQ.ne_metadataPath (pathNames_ne_nil _) (append_cancel_left same).symm
  refine ⟨?_, ?_, ?_⟩
  · rw [stored.lookup, shape, if_neg, if_neg, kept.content]
    · exact fun same => apart.1 (append_cancel_left same)
    · exact fun same => listable.ne_metadataPath (pathNames_ne_nil q) (append_cancel_left same)
  · rw [stored.lookup, shape, if_neg, if_neg other, kept.sidecar]
    exact fun same => apart.2 (append_cancel_left same)
  · by_contra directory
    rcases (stored.isDirectory _).mp (Bool.not_eq_false _ ▸ directory) with earlier | ⟨above, -⟩
    · rw [kept.beside] at earlier
      cases earlier
    · have member := AList.lookup_isSome.mp (Option.isSome_of_eq_some kept.sidecar)
      exact other (stored.free _ member above)

theorem Kept.deleted_shows (kept : Kept config repo a) (faithful : config.Faithful) (listableA : Listable a.path)
    (listableB : Listable b.path) (home : b.layer = a.layer) (keptB : Kept config repo b)
    (apart : pathNames a.path ≠ pathNames b.path ∧ metadataPath (pathNames a.path) ≠ metadataPath (pathNames b.path))
    (legible : ∀ file ∈ repo.layerFiles config a.layer,
    repo.Legible config (config.layerPath a.layer ++ metadataPath file)) {message : String}
    (deleted : repo.deleteInner config a.layer b.path message = .ok (id, next)) : next.Shows config a := by
  have place : config.resolvePath a.layer b.path = config.layerPath a.layer ++ pathNames b.path :=
    listableB.resolvePath
  have there := keptB.content
  have beside := keptB.beside
  rw [home] at there beside
  have gone := deleteInner_deleted (by rw [place]; exact there) deleted
  rw [place] at gone
  have shape := metadataPath_append (config.layerPath a.layer) (pathNames_ne_nil b.path)
  refine shows_of_files faithful listableA ?_ ?_ (Deleted.legible listableB gone beside legible)
  · rw [listableA.resolvePath, gone, shape, if_neg, kept.content]
    rintro (same | same)
    · exact apart.1 (append_cancel_left same)
    · exact listableA.ne_metadataPath (pathNames_ne_nil _) (append_cancel_left same)
  · rw [listableA.resolvePath, metadataPath_append _ (pathNames_ne_nil _), gone, shape, if_neg, kept.sidecar]
    rintro (same | same)
    · exact listableB.ne_metadataPath (pathNames_ne_nil _) (append_cancel_left same).symm
    · exact apart.2 (append_cancel_left same)

theorem shared_sidecar_hides {first second id' : String} (faithful : config.Faithful) (listableA : Listable a.path)
    (listableB : Listable b.path) (home : b.layer = a.layer) (different : pathNames a.path ≠ pathNames b.path)
    (shared : metadataPath (pathNames a.path) = metadataPath (pathNames b.path)) (other : b.status ≠ a.status)
    (storedA : repo.storeInner config a first = .ok (id, next))
    (storedB : next.storeInner config b second = .ok (id', last)) : ¬ last.Shows config a := by
  rintro ⟨⟨found, read, same⟩, -⟩
  obtain ⟨written, kept⟩ := storeInner_keeps listableB storedB
  have content : last.files.contents.lookup (config.layerPath a.layer ++ pathNames a.path) = some a.content := by
    rw [written.lookup, home, metadataPath_append _ (pathNames_ne_nil _), if_neg, if_neg]
    · exact (storeInner_keeps listableA storedA).2.content
    · exact fun same => different (append_cancel_left same)
    · exact fun same => listableA.ne_metadataPath (pathNames_ne_nil _) (append_cancel_left same)
  have sidecar := kept.sidecar
  rw [home, ← shared] at sidecar
  -- what is read is the content of the first entry with the rest of the second
  let blend : KnowledgeEntry := { b with path := a.path, content := a.content, layer := a.layer }
  have mixture : ∃ mixed, last.getInner config blend.layer blend.path = .ok (some mixed) ∧ mixed.Same blend := by
    refine getInner_same faithful ?_ ?_
    · rw [show config.resolvePath blend.layer blend.path = _ from listableA.resolvePath]
      exact content
    · rw [show config.resolvePath blend.layer blend.path = _ from listableA.resolvePath,
        metadataPath_append _ (pathNames_ne_nil _)]
      exact sidecar
  obtain ⟨mixed, mixedRead, mixedSame⟩ := mixture
  cases mixedRead.symm.trans read
  exact other (mixedSame.status.symm.trans same.status)

/-- Two entries stored one after the other are both returned by `get` and `list`, also when one of them is deleted,
just for paths that are listed as they are written and have sidecars of their own, in a layer that could be listed. -/
theorem stores_kept_apart (faithful : config.Faithful) (different : p ≠ q)
    (accepted : ∃ a b last, repo.StoresTwo config layer p q a b last) :
    (∀ a b last, repo.StoresTwo config layer p q a b last → last.ShowsBoth config layer a b) ↔
      Separate p q ∧ repo.Undamaged config layer p q := by
  have names : pathNames p ≠ pathNames q := by
    intro same
    apply different
    rw [← joinNames_pathNames p, same, joinNames_pathNames]
  constructor
  · intro both
    obtain ⟨a, b, last, two⟩ := accepted
    have shown := both a b last two
    obtain ⟨rfl, rfl, rfl, home, first, second, id, id', next, storedA, storedB⟩ := two
    have listableA := shown.1.listable
    have listableB := shown.2.1.listable
    have writtenA := (storeInner_keeps listableA storedA).1
    have writtenB := (storeInner_keeps listableB storedB).1
    rw [home] at writtenB
    refine ⟨⟨listableA, listableB, fun shared => ?_⟩,
      (stores_legible faithful listableA listableB writtenA writtenB).mp shown.1.legible⟩
    obtain ⟨status, other⟩ : ∃ status : KnowledgeStatus, status ≠ a.status := by
      cases a.status
      · exact ⟨.accepted, nofun⟩
      all_goals exact ⟨.draft, nofun⟩
    obtain ⟨id'', last', again⟩ := storeInner_again status storedB
    have shown' := both a { b with status := status } last'
      ⟨rfl, rfl, rfl, home, first, second, id, id'', next, storedA, again⟩
    exact shared_sidecar_hides (b := { b with status := status }) faithful listableA listableB home names shared other
      storedA again shown'.1
  · rintro ⟨separate, undamaged⟩ a b last ⟨rfl, rfl, rfl, home, first, second, id, id', next, storedA, storedB⟩
    obtain ⟨writtenA, keptA⟩ := storeInner_keeps separate.first storedA
    obtain ⟨writtenB, keptB⟩ := storeInner_keeps separate.second storedB
    rw [home] at writtenB
    have legible := (stores_legible faithful separate.first separate.second writtenA writtenB).mpr undamaged
    have stillA : Kept config last a :=
      keptA.stored separate.first separate.second ⟨names, separate.sidecars⟩ writtenB
    have legibleB := legible
    rw [← home] at legibleB
    refine ⟨stillA.shows faithful separate.first legible, keptB.shows faithful separate.second legibleB, ?_, ?_⟩
    · intro message id next deleted
      exact stillA.deleted_shows faithful separate.first separate.second home keptB ⟨names, separate.sidecars⟩ legible
        deleted
    · intro message id next deleted
      rw [← home] at deleted
      exact keptB.deleted_shows faithful separate.second separate.first home.symm stillA
        ⟨names.symm, separate.sidecars.symm⟩ legibleB deleted

end

end

/-- A repository that writes its sidecars as `store_inner` does. -/
def guideConfig : RepositoryConfig where
  root := ["srv"]
  root_plain := srv_plain
  tenantId := "acme"
  renderSidecar := renderSidecar
  parseSidecar := parseSidecar
  commitId n := String.ofList ('c' :: replicate n '0')
  commitId_injective := commitIds_injective

theorem guideConfig_faithful : guideConfig.Faithful := parseSidecar_renderSidecar

def guideEntry (path : String) (status : KnowledgeStatus) : KnowledgeEntry where
  path := path
  content := "plain"
  layer := .project
  kind := .spec
  status := status

instance (name : String) : Decidable (PlainName name) :=
  decidable_of_iff (name ≠ "" ∧ name ≠ "." ∧ name ≠ ".." ∧ '/' ∉ name.toList)
    ⟨fun ⟨a, b, c, d⟩ => ⟨a, b, c, d⟩, fun ⟨a, b, c, d⟩ => ⟨a, b, c, d⟩⟩

instance (path : String) : Decidable (Listable path) := inferInstanceAs (Decidable ((∀ name ∈ _, PlainName name) ∧ _))

theorem guides_stored (p q : String) (status status' : KnowledgeStatus)
    (both : ((GitRepository.storeInner guideConfig {} (guideEntry p status) "first").toOption.bind (fun stored =>
      (stored.2.storeInner guideConfig (guideEntry q status') "second").toOption)).isSome) :
    ∃ id id' next last, GitRepository.storeInner guideConfig {} (guideEntry p status) "first" = .ok (id, next) ∧
      next.storeInner guideConfig (guideEntry q status') "second" = .ok (id', last) := by
  cases first : GitRepository.storeInner guideConfig {} (guideEntry p status) "first" with
  | error message => simp [first, Except.toOption] at both
  | ok stored =>
    cases second : stored.2.storeInner guideConfig (guideEntry q status') "second" with
    | error message => simp [first, second, Except.toOption] at both
    | ok again => exact ⟨_, _, _, _, rfl, second⟩

theorem guides_kept_apart : Separate "guide.md" "note.md" ∧
    ∃ last, GitRepository.StoresTwo guideConfig {} .project "guide.md" "note.md" (guideEntry "guide.md" .accepted)
      (guideEntry "note.md" .draft) last ∧
      last.ShowsBoth guideConfig .project (guideEntry "guide.md" .accepted) (guideEntry "note.md" .draft) := by
  have separate : Separate "guide.md" "note.md" := ⟨by decide +kernel, by decide +kernel, by decide +kernel⟩
  obtain ⟨id, id', next, last, first, second⟩ := guides_stored "guide.md" "note.md" .accepted .draft
    (by decide +kernel)
  have two : GitRepository.StoresTwo guideConfig {} .project "guide.md" "note.md" (guideEntry "guide.md" .accepted)
      (guideEntry "note.md" .draft) last := ⟨rfl, rfl, rfl, rfl, _, _, id, id', next, first, second⟩
  have undamaged : GitRepository.Undamaged guideConfig {} .project "guide.md" "note.md" :=
    fun file listed => absurd listed (by simp [GitRepository.layerFiles])
  exact ⟨separate, last, two, (stores_kept_apart guideConfig_faithful (by decide) ⟨_, _, _, two⟩).mpr
    ⟨separate, undamaged⟩ _ _ _ two⟩

theorem guides_share_sidecar : ∃ last, GitRepository.StoresTwo guideConfig {} .project "guide.md" "guide.txt"
    (guideEntry "guide.md" .accepted) (guideEntry "guide.txt" .draft) last ∧
    ¬ last.ShowsBoth guideConfig .project (guideEntry "guide.md" .accepted) (guideEntry "guide.txt" .draft) := by
  obtain ⟨id, id', next, last, first, second⟩ := guides_stored "guide.md" "guide.txt" .accepted .draft
    (by decide +kernel)
  refine ⟨last, ⟨rfl, rfl, rfl, rfl, _, _, id, id', next, first, second⟩, fun both => ?_⟩
  have listableA : Listable "guide.md" := by decide +kernel
  have listableB : Listable "guide.txt" := by decide +kernel
  exact shared_sidecar_hides (a := guideEntry "guide.md" .accepted) (b := guideEntry "guide.txt" .draft)
    guideConfig_faithful listableA listableB rfl (by decide +kernel) (by decide +kernel) nofun first second both.1

end Aeterna
