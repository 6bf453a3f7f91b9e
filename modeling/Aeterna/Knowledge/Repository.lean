import Aeterna.Knowledge.View
import Aeterna.Lib.Paths
import Mathlib.Data.List.ReduceOption
import Mathlib.Data.List.Sort
import Mathlib.Data.List.TakeWhile

/-!
`GitRepository` (`knowledge/src/repository.rs`) on a local repository: a working tree, committed whole after each
write, in which the entries of a tenant lie under `tenant/layer/path`.
-/

namespace Aeterna
open Lib
open List hiding get

def KnowledgeLayer.layerDir : KnowledgeLayer → String
  | .tenant => "tenant"
  | .org => "org"
  | .team => "team"
  | .project => "project"

theorem KnowledgeLayer.layerDir_plain (layer : KnowledgeLayer) : PlainName layer.layerDir := by
  cases layer <;> exact ⟨by decide, by decide, by decide, by decide⟩

/-- What `store_inner` writes beside the content of an entry. -/
structure Sidecar where
  kind : KnowledgeType
  status : KnowledgeStatus
  summaries : HashMap SummaryDepth LayerSummary
  metadata : HashMap String Json
  author : Option String
  updatedAt : Int

/-- A sidecar as `get_inner` reads it, with the fields that cannot be read missing. -/
structure SidecarFields where
  kind : Option KnowledgeType := none
  status : Option KnowledgeStatus := none
  summaries : Option (HashMap SummaryDepth LayerSummary) := none
  metadata : Option (HashMap String Json) := none
  author : Option String := none
  updatedAt : Option Int := none

/-- Where a repository is and for which tenant it is used; its JSON codec and its commit ids. -/
structure RepositoryConfig where
  root : Location
  root_plain : PlainLocation root
  tenantId : String
  renderSidecar : Sidecar → String
  parseSidecar : String → Except String SidecarFields
  commitId : Nat → String
  commitId_injective : Function.Injective commitId
  now : Int := 0

theorem srv_plain : PlainLocation ["srv"] := by
  intro name member
  rw [mem_singleton.mp member]
  exact ⟨by decide, by decide, by decide, by decide⟩

theorem padded_injective (letter : Char) :
    Function.Injective (fun n => String.ofList (letter :: replicate n '0')) := by
  intro a b same
  simpa using congrArg String.length same

theorem commitIds_injective : Function.Injective (fun n => String.ofList ('c' :: replicate n '0')) :=
  padded_injective 'c'

structure Files where
  contents : HashMap Location String := ∅
  plain : ∀ location ∈ contents, PlainLocation location := by simp

structure Commit where
  (id message : String)
  files : Files

/-- The working tree and the history, newest commit first. -/
structure GitRepository where
  files : Files := {}
  commits : List Commit := []

def GitRepository.empty : GitRepository := {}

namespace Files

variable (files : Files)

variable (location : Location)

def isDirectory : Bool :=
  files.contents.keys.any (fun key => decide (location <+: key ∧ location ≠ key))

def read : Except String (Option String) :=
  match files.contents.lookup location with
  | some content => .ok (some content)
  | none => if files.isDirectory location then .error "IO error: Is a directory (os error 21)" else .ok none

/-- `create_dir_all` of the parent and then `write`. -/
def write (plain : PlainLocation location) (content : String) : Except String Files :=
  if files.isDirectory location then .error "IO error: Is a directory (os error 21)"
  else if files.contents.keys.any (fun key => decide (key <+: location ∧ key ≠ location)) then
    .error "IO error: Not a directory (os error 20)"
  else .ok {
    contents := files.contents.insert location content
    plain := by
      intro other member
      rcases AList.mem_insert files.contents |>.mp member with rfl | member
      · exact plain
      · exact files.plain other member }

def remove : Files where
  contents := files.contents.erase location
  plain other member := files.plain other (AList.mem_erase.mp member).2

end Files

def fileStem (name : String) : String :=
  let before := ((name.toList.reverse.dropWhile (· ≠ '.')).drop 1).reverse
  if before = [] then name else String.ofList before

def metadataPath (location : Location) : Location :=
  match location.getLast? with
  | none => location
  | some name => location.dropLast ++ [fileStem name ++ ".metadata.json"]

def isMetadataPath (location : Location) : Bool :=
  (location.getLast?.map (fun name => decide (".metadata.json".toList <:+ name.toList))).getD false

theorem fileStem_unsplit {name : String} (unsplit : '/' ∉ name.toList) : '/' ∉ (fileStem name).toList := by
  unfold fileStem
  simp only
  split
  · exact unsplit
  · simp only [String.toList_ofList, mem_reverse]
    intro member
    exact unsplit (mem_reverse.mp ((dropWhile_suffix _).subset (mem_of_mem_drop member)))

theorem plain_extended {stem : String} (unsplit : '/' ∉ stem.toList) : PlainName (stem ++ ".metadata.json") := by
  have long : 14 ≤ (stem ++ ".metadata.json").length := by
    have extension : ".metadata.json".length = 14 := by decide
    rw [String.length_append, extension]
    omega
  refine ⟨?_, ?_, ?_, ?_⟩
  · intro same
    rw [same] at long
    exact absurd long (by decide)
  · intro same
    rw [same] at long
    exact absurd long (by decide)
  · intro same
    rw [same] at long
    exact absurd long (by decide)
  · rw [String.toList_append, mem_append]
    exact not_or.mpr ⟨unsplit, by decide⟩

theorem metadataPath_plain {location : Location} (plain : PlainLocation location) :
    PlainLocation (metadataPath location) := by
  unfold metadataPath
  cases last : location.getLast? with
  | none => exact plain
  | some name =>
    intro other member
    rcases mem_append.mp member with earlier | added
    · exact plain other (dropLast_subset _ earlier)
    · rw [mem_singleton.mp added]
      exact plain_extended (fileStem_unsplit (plain name (mem_of_getLast? last)).unsplit)

section
variable (config : RepositoryConfig)

def RepositoryConfig.layerPath (layer : KnowledgeLayer) : Location :=
  enter (locate config.root config.tenantId) layer.layerDir

def RepositoryConfig.resolvePath (layer : KnowledgeLayer) (path : String) : Location :=
  locate (config.layerPath layer) path

def fileCommit (file : Location) : List Commit → Option String
  | [] => none
  | commit :: older =>
    match commit.files.contents.lookup file with
    | none => fileCommit file older
    | some content =>
      if (older.head?.bind (fun parent => parent.files.contents.lookup file)) = some content then
        fileCommit file older
      else some commit.id

namespace GitRepository
variable (repo : GitRepository)

def getInner (layer : KnowledgeLayer) (path : String) : Except String (Option KnowledgeEntry) := do
  let fullPath := config.resolvePath layer path
  match ← repo.files.read fullPath with
  | none => pure none
  | some content =>
    let commitHash := if config.root <+: fullPath then fileCommit fullPath repo.commits else none
    let fields ← match ← repo.files.read (metadataPath fullPath) with
      | some text => config.parseSidecar text
      | none => pure {}
    pure (some {
      path := path
      content := content
      layer := layer
      kind := fields.kind.getD .spec
      status := fields.status.getD .accepted
      summaries := fields.summaries.getD ∅
      metadata := fields.metadata.getD ∅
      commitHash := commitHash
      author := fields.author
      updatedAt := fields.updatedAt.getD config.now })

def layerFiles (layer : KnowledgeLayer) : List Location :=
  ((repo.files.contents.keys.filter (fun key =>
    config.layerPath layer <+: key ∧ key ≠ config.layerPath layer ∧ isMetadataPath key = false)).map
      (fun key => key.drop (config.layerPath layer).length))

def listInner (layer : KnowledgeLayer) (start : String) : Except String (List KnowledgeEntry) := do
  let found ← ((repo.layerFiles config layer).filter (fun file => start.toList <+: (joinNames file).toList)).mapM
    (fun file => repo.getInner config layer (joinNames file))
  pure found.reduceOption

def headCommit : Option String := repo.commits.head?.map (·.id)

def diffPaths (before after : Files) : List String :=
  (((before.contents.keys ++ after.contents.keys).dedup.filter (fun key =>
    config.root <+: key ∧ before.contents.lookup key ≠ after.contents.lookup key)).map
      (fun key => joinNames (key.drop config.root.length))).insertionSort (· ≤ ·)

def affectedItem (path : String) : Option (KnowledgeLayer × String) :=
  match pathNames path with
  | first :: second :: rest =>
    match first with
    | "tenant" => some (.tenant, joinNames (second :: rest))
    | "org" => some (.org, joinNames (second :: rest))
    | "team" => some (.team, joinNames (second :: rest))
    | "project" => some (.project, joinNames (second :: rest))
    | _ => none
  | _ => none

def getAffectedItems (sinceCommit : String) : Except String (List (KnowledgeLayer × String)) :=
  match repo.commits.find? (fun commit => commit.id = sinceCommit), repo.commits.head? with
  | some old, some head => .ok ((diffPaths config old.files head.files).filterMap affectedItem)
  | none, _ => .error ("Git error: revspec '" ++ sinceCommit ++ "' not found")
  | _, none => .error "Git error: reference 'refs/heads/main' not found"

def commit (message : String) : String × GitRepository :=
  let id := config.commitId repo.commits.length
  (id, { repo with commits := ⟨id, message, repo.files⟩ :: repo.commits })

def storeInner (entry : KnowledgeEntry) (message : String) : Except String (String × GitRepository) := do
  let fullPath := config.resolvePath entry.layer entry.path
  let plain := locate_plain (enter_plain (locate_plain config.root_plain _) entry.layer.layerDir_plain.unsplit) _
  let written ← repo.files.write fullPath plain entry.content
  let files ← written.write (metadataPath fullPath) (metadataPath_plain plain)
    (config.renderSidecar ⟨entry.kind, entry.status, entry.summaries, entry.metadata, entry.author, entry.updatedAt⟩)
  pure (({ repo with files := files } : GitRepository).commit config message)

def deleteInner (layer : KnowledgeLayer) (path message : String) : Except String (String × GitRepository) := do
  let fullPath := config.resolvePath layer path
  match ← repo.files.read fullPath with
  | none => pure ("", repo)
  | some _ =>
    let removed := repo.files.remove fullPath
    let files ← match ← removed.read (metadataPath fullPath) with
      | some _ => pure (removed.remove (metadataPath fullPath))
      | none => pure removed
    pure (({ repo with files := files } : GitRepository).commit config message)

end GitRepository
end

section
variable {config : RepositoryConfig} {repo : GitRepository}

variable {file : Location} {layer : KnowledgeLayer} {path : String}

theorem isMetadataPath_append {directory : Location} (present : file ≠ []) :
    isMetadataPath (directory ++ file) = isMetadataPath file := by
  unfold isMetadataPath
  rw [getLast?_append_of_ne_nil _ present]

theorem mem_layerFiles : file ∈ repo.layerFiles config layer ↔
    file ≠ [] ∧ config.layerPath layer ++ file ∈ repo.files.contents ∧ isMetadataPath file = false := by
  simp only [GitRepository.layerFiles, mem_map, mem_filter, decide_eq_true_eq]
  constructor
  · rintro ⟨key, ⟨member, ⟨below, shape⟩, different, listed⟩, rfl⟩
    rw [← shape, drop_left]
    have present : below ≠ [] := by
      intro empty
      apply different
      rw [← shape, empty, append_nil]
    refine ⟨present, by rw [shape]; exact AList.mem_keys.mp member, ?_⟩
    rwa [← shape, isMetadataPath_append present] at listed
  · rintro ⟨present, member, listed⟩
    refine ⟨config.layerPath layer ++ file, ⟨AList.mem_keys.mpr member, prefix_append _ _, ?_, ?_⟩,
      drop_left⟩
    · intro same
      exact present (by simpa using same)
    · rwa [isMetadataPath_append present]

theorem layerFiles_plain (listed : file ∈ repo.layerFiles config layer) : PlainLocation file := by
  intro name member
  exact repo.files.plain _ (mem_layerFiles.mp listed).2.1 name (mem_append_right _ member)

theorem layerFiles_nodup (layer : KnowledgeLayer) : (repo.layerFiles config layer).Nodup := by
  refine (repo.files.contents.keys_nodup.filter _).map_on ?_
  intro a inA b inB same
  obtain ⟨-, holdsA⟩ := mem_filter.mp inA
  obtain ⟨-, holdsB⟩ := mem_filter.mp inB
  simp only [decide_eq_true_eq] at holdsA holdsB
  rw [prefix_iff_eq_append.mp holdsA.1 |>.symm, same, prefix_iff_eq_append.mp holdsB.1]

theorem resolvePath_joinNames (present : file ≠ []) (plain : PlainLocation file) :
    config.resolvePath layer (joinNames file) = config.layerPath layer ++ file :=
  locate_joinNames present plain

theorem Files.read_eq_some {files : Files} {location : Location} {content : String} :
    files.read location = .ok (some content) ↔ files.contents.lookup location = some content := by
  unfold Files.read
  cases files.contents.lookup location with
  | some other => simp
  | none =>
    simp only [reduceCtorEq, iff_false]
    split <;> simp

theorem getInner_sound {entry : KnowledgeEntry} (read : repo.getInner config layer path = .ok (some entry)) :
    entry.path = path ∧ entry.layer = layer ∧
      repo.files.contents.lookup (config.resolvePath layer path) = some entry.content := by
  unfold GitRepository.getInner at read
  cases found : repo.files.read (config.resolvePath layer path) with
  | error message => simp [found, bind, Except.bind] at read
  | ok answer =>
    cases answer with
    | none => simp [found, bind, Except.bind, pure, Except.pure] at read
    | some content =>
      simp only [found, bind, Except.bind] at read
      split at read
      · cases read
      · split at read
        · split at read
          · cases read
          · cases read
            exact ⟨rfl, rfl, Files.read_eq_some.mp found⟩
        · cases read
          exact ⟨rfl, rfl, Files.read_eq_some.mp found⟩

theorem toOption_join_eq_some {α : Type} {answer : Except String (Option α)} {a : α} :
    answer.toOption.join = some a ↔ answer = .ok (some a) := by
  cases answer with
  | error message => simp [Except.toOption]
  | ok value => simp [Except.toOption]

variable (config repo) in
/-- The repository as the sync bridge sees it while no call fails. -/
def GitRepository.view : Knowledge where
  list layer := (repo.layerFiles config layer).filterMap (fun file =>
    (repo.getInner config layer (joinNames file)).toOption.join)
  get layer path := (repo.getInner config layer path).toOption.join
  headCommit := repo.headCommit
  affectedItems sinceCommit := (repo.getAffectedItems config sinceCommit).toOption.getD []
  get_sound := by
    intro layer path entry read
    obtain ⟨named, home, -⟩ := getInner_sound (toOption_join_eq_some.mp read)
    exact ⟨named, home⟩
  get_of_list := by
    intro layer entry listed
    obtain ⟨file, _, read⟩ := mem_filterMap.mp listed
    obtain ⟨named, -, -⟩ := getInner_sound (toOption_join_eq_some.mp read)
    rw [named]
    exact read
  list_of_get := by
    intro layer other entry found listed read
    obtain ⟨file, inOther, readOther⟩ := mem_filterMap.mp listed
    obtain ⟨named, -, -⟩ := getInner_sound (toOption_join_eq_some.mp readOther)
    rw [named] at read
    obtain ⟨present, -, plainEnd⟩ := mem_layerFiles.mp inOther
    obtain ⟨-, -, stored⟩ := getInner_sound (toOption_join_eq_some.mp read)
    rw [resolvePath_joinNames present (layerFiles_plain inOther)] at stored
    have inLayer : file ∈ repo.layerFiles config layer :=
      mem_layerFiles.mpr ⟨present, AList.lookup_isSome.mp (by rw [stored]; rfl), plainEnd⟩
    exact mem_filterMap.mpr ⟨file, inLayer, read⟩
  list_nodup := by
    intro layer
    apply pairwise_map.mpr
    apply pairwise_filterMap.mpr
    refine (layerFiles_nodup layer).imp_of_mem ?_
    intro a b inA inB different first readA second readB same
    obtain ⟨namedA, -, -⟩ := getInner_sound (toOption_join_eq_some.mp readA)
    obtain ⟨namedB, -, -⟩ := getInner_sound (toOption_join_eq_some.mp readB)
    rw [namedA, namedB] at same
    exact different (joinNames_injective (mem_layerFiles.mp inA).1 (mem_layerFiles.mp inB).1
      (layerFiles_plain inA) (layerFiles_plain inB) same)

theorem mapM_reduceOption {α β : Type} {f : α → Except String (Option β)} {items : List α}
    {answers : List (Option β)} (succeeds : items.mapM f = .ok answers) :
    answers.reduceOption = items.filterMap (fun item => (f item).toOption.join) := by
  induction items generalizing answers with
  | nil =>
    cases succeeds
    rfl
  | cons item rest ih =>
    rw [mapM_cons] at succeeds
    cases first : f item with
    | error message => simp [first, bind, Except.bind] at succeeds
    | ok answer =>
      cases others : rest.mapM f with
      | error message => simp [first, others, bind, Except.bind] at succeeds
      | ok collected =>
        simp only [first, others, bind, Except.bind, pure, Except.pure, Except.ok.injEq] at succeeds
        subst succeeds
        cases answer with
        | none => simp [first, ih others, Except.toOption]
        | some value => simp [first, ih others, Except.toOption]

theorem listInner_view {entries : List KnowledgeEntry} (listed : repo.listInner config layer "" = .ok entries) :
    entries = (repo.view config).list layer := by
  unfold GitRepository.listInner at listed
  have all : (repo.layerFiles config layer).filter (fun file => "".toList <+: (joinNames file).toList) =
      repo.layerFiles config layer := by
    simp
  rw [all] at listed
  cases found : (repo.layerFiles config layer).mapM (fun file => repo.getInner config layer (joinNames file)) with
  | error message => simp [found, bind, Except.bind] at listed
  | ok answers =>
    simp only [found, bind, Except.bind, pure, Except.pure, Except.ok.injEq] at listed
    rw [← listed]
    exact mapM_reduceOption found

theorem getInner_view {answer : Option KnowledgeEntry} (read : repo.getInner config layer path = .ok answer) :
    answer = (repo.view config).get layer path := by
  change answer = (repo.getInner config layer path).toOption.join
  rw [read]
  rfl

theorem view_get_of_missing (missing : repo.files.contents.lookup (config.resolvePath layer path) = none) :
    (repo.view config).get layer path = none := by
  refine Option.eq_none_iff_forall_ne_some.mpr (fun entry read => ?_)
  obtain ⟨-, -, stored⟩ := getInner_sound (toOption_join_eq_some.mp read)
  rw [missing] at stored
  cases stored

theorem view_get_of_stored {content : String} {beside : Option String}
    (stored : repo.files.contents.lookup (config.resolvePath layer path) = some content)
    (sidecar : repo.files.read (metadataPath (config.resolvePath layer path)) = .ok beside)
    (parses : ∀ text, beside = some text → ∃ fields, config.parseSidecar text = .ok fields) :
    (repo.view config).get layer path ≠ none := by
  have found : ∃ entry, repo.getInner config layer path = .ok (some entry) := by
    simp only [GitRepository.getInner, Files.read_eq_some.mpr stored, sidecar, bind, Except.bind]
    cases beside with
    | none => exact ⟨_, rfl⟩
    | some text =>
      obtain ⟨fields, parsed⟩ := parses text rfl
      simp only [parsed]
      exact ⟨_, rfl⟩
  obtain ⟨entry, read⟩ := found
  rw [← getInner_view read]
  exact nofun

end

section
variable {config : RepositoryConfig} {repo next : GitRepository}

variable (config) in
def Numbered : List Commit → Prop
  | [] => True
  | commit :: older => commit.id = config.commitId older.length ∧ Numbered older

variable (config repo) in
structure GitRepository.Committed : Prop where
  numbered : Numbered config repo.commits
  head : ∀ commit, repo.commits.head? = some commit → commit.files = repo.files
  empty : repo.commits = [] → repo.files.contents = ∅

variable (config repo next) in
def GitRepository.Commits : Prop :=
  ∃ message, next.commits = ⟨config.commitId repo.commits.length, message, next.files⟩ :: repo.commits

def GitRepository.checkout (repo : GitRepository) (id : String) : GitRepository :=
  match repo.commits.dropWhile (fun commit => commit.id ≠ id) with
  | [] => repo
  | commit :: older => ⟨commit.files, commit :: older⟩

theorem storeInner_commits {entry : KnowledgeEntry} {message id : String}
    (stored : repo.storeInner config entry message = .ok (id, next)) : repo.Commits config next := by
  unfold GitRepository.storeInner at stored
  simp only [bind, Except.bind] at stored
  split at stored
  · cases stored
  · split at stored
    · cases stored
    · cases stored
      exact ⟨message, rfl⟩

theorem deleteInner_commits {layer : KnowledgeLayer} {path message id : String}
    (deleted : repo.deleteInner config layer path message = .ok (id, next)) :
    next = repo ∨ repo.Commits config next := by
  unfold GitRepository.deleteInner at deleted
  simp only [bind, Except.bind] at deleted
  split at deleted
  · cases deleted
  · split at deleted
    · cases deleted
      exact Or.inl rfl
    · split at deleted
      · cases deleted
      · split at deleted
        · cases deleted
          exact Or.inr ⟨message, rfl⟩
        · cases deleted
          exact Or.inr ⟨message, rfl⟩

variable {commit : Commit}

theorem Numbered.id_of_mem {commits : List Commit} (numbered : Numbered config commits)
    (member : commit ∈ commits) : ∃ n < commits.length, commit.id = config.commitId n := by
  induction commits with
  | nil => cases member
  | cons newest older ih =>
    rcases mem_cons.mp member with rfl | earlier
    · exact ⟨older.length, by simp, numbered.1⟩
    · obtain ⟨n, below, same⟩ := ih numbered.2 earlier
      exact ⟨n, by simp; omega, same⟩

theorem GitRepository.Committed.commits (committed : repo.Committed config) (step : repo.Commits config next) :
    next.Committed config := by
  obtain ⟨message, shape⟩ := step
  refine ⟨?_, ?_, ?_⟩
  · rw [shape]
    exact ⟨rfl, committed.numbered⟩
  · intro commit newest
    rw [shape] at newest
    cases newest
    rfl
  · intro none
    rw [shape] at none
    cases none

theorem checkout_commits (committed : repo.Committed config) (step : repo.Commits config next)
    (known : commit ∈ repo.commits) : next.checkout commit.id = repo.checkout commit.id := by
  obtain ⟨message, shape⟩ := step
  obtain ⟨n, below, same⟩ := committed.numbered.id_of_mem known
  have different : config.commitId repo.commits.length ≠ commit.id := by
    intro equal
    rw [same] at equal
    have number := config.commitId_injective equal
    omega
  have found : repo.commits.dropWhile (fun other => other.id ≠ commit.id) ≠ [] := by
    intro empty
    have passed := dropWhile_eq_nil_iff.mp empty commit known
    simp at passed
  unfold GitRepository.checkout
  rw [shape, dropWhile_cons_of_pos (by simpa using different)]
  obtain ⟨first, older, rest⟩ := exists_cons_of_ne_nil found
  rw [rest]

theorem checkout_head (committed : repo.Committed config) (newest : repo.commits.head? = some commit) :
    repo.checkout commit.id = repo := by
  obtain ⟨older, shape⟩ := head?_eq_some_iff.mp newest
  unfold GitRepository.checkout
  rw [shape, dropWhile_cons_of_neg (by simp)]
  simp only
  rw [committed.head commit newest, ← shape]

end

end Aeterna
