import Aeterna.Knowledge.Isolation

namespace Aeterna
open Lib Files GitRepository
open List hiding get

def RepositoryConfig.tenant (config : RepositoryConfig) (tenant : TenantId) : RepositoryConfig :=
  { config with tenantId := tenant.text }

def Inside (directory location : Location) : Prop := directory <+: location ∧ directory ≠ location

def ascend (walk : Nat × Location) (name : String) : Nat × Location :=
  if name = "" ∨ name = "." then walk
  else if name = ".." then
    match walk.2 with
    | [] => (walk.1 + 1, [])
    | down => (walk.1, down.dropLast)
  else (walk.1, walk.2 ++ [name])

/-- A path that comes back down through every name it climbs over, and goes further. -/
def StaysBelow (directory : Location) (path : String) : Prop :=
  let walk := (pathNames path).foldl ascend (0, [])
  if path.toList.head? = some '/' then Inside directory walk.2
  else Inside (directory.drop (directory.length - walk.1)) walk.2

instance (directory location : Location) : Decidable (Inside directory location) :=
  inferInstanceAs (Decidable (_ ∧ _))

instance (directory : Location) (path : String) : Decidable (StaysBelow directory path) :=
  inferInstanceAs (Decidable (if path.toList.head? = some '/' then Inside _ _ else Inside _ _))

section
variable (config : RepositoryConfig)

/-- `get`, `store` and `delete` keep to the files below the directory of the layer. -/
structure Confines (layer : KnowledgeLayer) (path : String) : Prop where
  get : ∀ repo other : GitRepository, repo.commits = other.commits →
    (∀ location, Inside (config.layerPath layer) location →
      repo.files.contents.lookup location = other.files.contents.lookup location) →
    repo.getInner config layer path = other.getInner config layer path
  store : ∀ (repo : GitRepository) entry message id next, entry.layer = layer → entry.path = path →
    repo.storeInner config entry message = .ok (id, next) →
    ∀ location, next.files.contents.lookup location ≠ repo.files.contents.lookup location →
      Inside (config.layerPath layer) location
  delete : ∀ (repo : GitRepository) message id next, repo.deleteInner config layer path message = .ok (id, next) →
    ∀ location, next.files.contents.lookup location ≠ repo.files.contents.lookup location →
      Inside (config.layerPath layer) location

/-- What one tenant stores or deletes is never what the other one reads, as long as both keep below their
directories. -/
def Separated (tenant other : TenantId) : Prop :=
  ∀ layer path layer' path', StaysBelow ((config.tenant tenant).layerPath layer) path →
    StaysBelow ((config.tenant other).layerPath layer') path' →
    ∀ location ∈ [(config.tenant tenant).resolvePath layer path,
      metadataPath ((config.tenant tenant).resolvePath layer path)],
    (∀ (repo : GitRepository) entry message id next, entry.layer = layer' → entry.path = path' →
      repo.storeInner (config.tenant other) entry message = .ok (id, next) →
      next.files.contents.lookup location = repo.files.contents.lookup location) ∧
    ∀ (repo : GitRepository) message id next,
      repo.deleteInner (config.tenant other) layer' path' message = .ok (id, next) →
      next.files.contents.lookup location = repo.files.contents.lookup location

/-- The ids lead to two directories, none of which is in a layer of the other. -/
def Apart (tenant other : TenantId) : Prop :=
  locate config.root tenant.text ≠ locate config.root other.text ∧ ∀ layer : KnowledgeLayer,
    ¬ locate config.root tenant.text ++ [layer.layerDir] <+: locate config.root other.text ∧
    ¬ locate config.root other.text ++ [layer.layerDir] <+: locate config.root tenant.text

end

section
variable {config : RepositoryConfig} {repo next : GitRepository} {layer : KnowledgeLayer} {path : String}

theorem foldl_ascend (names : List String) (directory : Location) (walk : Nat × Location) :
    names.foldl enter (directory.take (directory.length - walk.1) ++ walk.2) =
      directory.take (directory.length - (names.foldl ascend walk).1) ++ (names.foldl ascend walk).2 := by
  induction names generalizing walk with
  | nil => rfl
  | cons name rest ih =>
    rw [foldl_cons, foldl_cons, ← ih]
    congr 1
    unfold enter ascend
    split
    · rfl
    split
    · obtain ⟨up, down⟩ := walk
      cases down with
      | nil =>
        have shorter : (directory.take (directory.length - up)).dropLast =
            directory.take (directory.length - (up + 1)) := by
          rw [dropLast_eq_take, length_take, take_take]
          congr 1
          omega
        simp only [append_nil, shorter]
      | cons first others => exact dropLast_append_of_ne_nil (cons_ne_nil _ _)
    · rw [append_assoc]

theorem inside_append (front directory location : Location) :
    Inside (front ++ directory) (front ++ location) ↔ Inside directory location := by
  unfold Inside
  rw [prefix_append_right_inj, ne_eq, ne_eq, append_cancel_left_eq]

theorem inside_iff : Inside (config.layerPath layer) (config.resolvePath layer path) ↔
    StaysBelow (config.layerPath layer) path := by
  unfold StaysBelow RepositoryConfig.resolvePath locate
  split
  · have walked := foldl_ascend (pathNames path) [] (0, [])
    simp only [take_nil, nil_append] at walked
    rw [walked]
  · have walked := foldl_ascend (pathNames path) (config.layerPath layer) (0, [])
    simp only [Nat.sub_zero, take_length, append_nil] at walked
    rw [walked]
    generalize (pathNames path).foldl ascend (0, []) = walk
    obtain ⟨up, down⟩ := walk
    have parts := take_append_drop ((config.layerPath layer).length - up) (config.layerPath layer)
    have back := inside_append ((config.layerPath layer).take ((config.layerPath layer).length - up))
      ((config.layerPath layer).drop ((config.layerPath layer).length - up)) down
    rw [parts] at back
    exact back

variable {directory location : Location}

theorem Inside.below {other : Location} (inside : Inside directory location) (below : location <+: other) :
    Inside directory other := by
  refine ⟨inside.1.trans below, ?_⟩
  rintro rfl
  exact inside.2 (inside.1.eq_of_length_le below.length_le)

theorem Inside.ne_nil (inside : Inside directory location) : location ≠ [] := by
  rintro rfl
  exact inside.2 (prefix_nil.mp inside.1)

theorem Inside.metadataPath (inside : Inside directory location) : Inside directory (metadataPath location) :=
  (above_metadataPath inside.ne_nil).mpr inside

theorem deleteInner_changes {message id : String}
    (deleted : repo.deleteInner config layer path message = .ok (id, next))
    (content : location ≠ config.resolvePath layer path)
    (sidecar : location ≠ metadataPath (config.resolvePath layer path)) :
    next.files.contents.lookup location = repo.files.contents.lookup location := by
  cases there : repo.files.contents.lookup (config.resolvePath layer path) with
  | some text =>
    rw [deleteInner_deleted there deleted, if_neg (not_or.mpr ⟨content, sidecar⟩)]
  | none =>
    unfold deleteInner at deleted
    simp only [Files.read, there, bind, Except.bind] at deleted
    cases directory : repo.files.isDirectory (config.resolvePath layer path) with
    | true => simp [directory] at deleted
    | false =>
      simp only [directory, pure, Except.pure, Bool.false_eq_true, if_false, Except.ok.injEq,
        Prod.mk.injEq] at deleted
      rw [deleted.2]

theorem read_agree {files others : Files} (inside : Inside directory location)
    (agree : ∀ place, Inside directory place → files.contents.lookup place = others.contents.lookup place) :
    files.read location = others.read location := by
  have kinds : files.isDirectory location = others.isDirectory location := by
    rw [Bool.eq_iff_iff, isDirectory_iff, isDirectory_iff]
    refine exists_congr (fun key => ?_)
    by_cases below : location <+: key
    · rw [← AList.lookup_isSome, ← AList.lookup_isSome, agree key (inside.below below)]
    · simp [below]
  unfold Files.read
  rw [agree location inside, kinds]

theorem storeInner_empty (config : RepositoryConfig) (entry : KnowledgeEntry) (message : String) :
    ∃ id next, storeInner config {} entry message = .ok (id, next) ∧
      next.files.contents.lookup (config.resolvePath entry.layer entry.path) ≠ none := by
  generalize location : config.resolvePath entry.layer entry.path = place
  have plain : PlainLocation place := location ▸
    locate_plain (enter_plain (locate_plain config.root_plain _) entry.layer.layerDir_plain.unsplit) _
  have long : (metadataPath place).length = place.length := metadataPath_length place
  obtain ⟨written, first⟩ : ∃ written, write {} place plain entry.content = .ok written :=
    write_succeeds rfl (fun key member => absurd member (AList.notMem_empty _)) _ _
  have content := write_wrote first
  have only : ∀ {key}, key ∈ written.contents → key = place := by
    intro key member
    exact (content.mem.mp member).resolve_right (AList.notMem_empty _)
  obtain ⟨files, second⟩ : ∃ files, written.write (metadataPath place) (metadataPath_plain plain)
      (config.renderSidecar ⟨entry.kind, entry.status, entry.summaries, entry.metadata, entry.author,
        entry.updatedAt⟩) = .ok files := by
    refine write_succeeds ?_ ?_ _ _
    · by_contra directory
      obtain ⟨key, member, below, different⟩ := isDirectory_iff.mp (Bool.not_eq_false _ ▸ directory)
      rw [only member] at below different
      exact different (below.eq_of_length long)
    · intro key member below
      rw [only member] at below ⊢
      exact below.eq_of_length long.symm
  subst location
  have sidecar := write_wrote second
  refine ⟨config.commitId 0, { files := files, commits := [⟨config.commitId 0, message, files⟩] }, ?_, ?_⟩
  · unfold storeInner
    simp only [bind, Except.bind]
    simp only [first, second]
    rfl
  · rw [sidecar.lookup, content.lookup]
    split
    · exact Option.some_ne_none _
    · rw [if_pos rfl]
      exact Option.some_ne_none _

theorem confines_iff : Confines config layer path ↔ StaysBelow (config.layerPath layer) path := by
  rw [← inside_iff]
  constructor
  · intro confines
    let entry : KnowledgeEntry := { path := path, content := "", layer := layer, kind := .spec, status := .accepted }
    obtain ⟨id, next, stored, there⟩ := storeInner_empty config entry ""
    exact confines.store {} entry "" id next rfl rfl stored _ there
  · intro inside
    refine ⟨?_, ?_, ?_⟩
    · intro repo other commits agree
      simp only [getInner, read_agree inside agree, read_agree inside.metadataPath agree, commits]
    · rintro repo entry message id next rfl rfl stored location changed
      have written := storeInner_stored inside.ne_nil stored
      rw [written.lookup] at changed
      split at changed
      · rename_i here
        rw [here]
        exact inside.metadataPath
      split at changed
      · rename_i here
        rw [here]
        exact inside
      · exact absurd rfl changed
    · intro repo message id next deleted location changed
      by_contra outside
      apply changed
      refine deleteInner_changes deleted ?_ ?_
      · rintro rfl
        exact outside inside
      · rintro rfl
        exact outside inside.metadataPath

variable {tenant other : TenantId}

theorem tenant_layerPath (config : RepositoryConfig) (tenant : TenantId) (layer : KnowledgeLayer) :
    (config.tenant tenant).layerPath layer = locate config.root tenant.text ++ [layer.layerDir] :=
  enter_of_plain layer.layerDir_plain

theorem staysBelow_names {names : Location} (present : names ≠ []) (plain : PlainLocation names) :
    StaysBelow (config.layerPath layer) (joinNames names) := by
  rw [← inside_iff, resolvePath_joinNames present plain]
  refine ⟨prefix_append _ _, fun same => present ?_⟩
  exact self_eq_append_right.mp same

theorem not_separated (layer layer' : KnowledgeLayer) {names names' : Location} (present : names ≠ [])
    (present' : names' ≠ [])
    (plain : PlainLocation names) (plain' : PlainLocation names')
    (meet : (config.tenant tenant).layerPath layer ++ names =
      (config.tenant other).layerPath layer' ++ names') : ¬ Separated config tenant other := by
  intro separated
  let entry : KnowledgeEntry :=
    { path := joinNames names', content := "", layer := layer', kind := .spec, status := .accepted }
  obtain ⟨id, next, stored, there⟩ := storeInner_empty (config.tenant other) entry ""
  have kept := (separated layer (joinNames names) layer' (joinNames names') (staysBelow_names present plain)
    (staysBelow_names present' plain') _ mem_cons_self).1 {} entry "" id next rfl rfl stored
  rw [resolvePath_joinNames present plain, meet, ← resolvePath_joinNames present' plain'] at kept
  exact there (kept.trans (AList.lookup_empty _))

theorem plain_below {rest : Location} (plain : PlainLocation (directory ++ rest)) (last : KnowledgeLayer) :
    PlainLocation (rest ++ [last.layerDir, "file"]) := by
  intro name member
  rcases mem_append.mp member with earlier | later
  · exact plain name (mem_append_right _ earlier)
  · simp only [mem_cons, not_mem_nil, or_false] at later
    rcases later with rfl | rfl
    · exact last.layerDir_plain
    · exact ⟨by decide, by decide, by decide, by decide⟩

theorem nested_meet {top top' : Location} (nested : top ++ [layer.layerDir] <+: top') (plain : PlainLocation top') :
    ∃ names, names ≠ [] ∧ PlainLocation names ∧
      top ++ [layer.layerDir] ++ names = top' ++ [KnowledgeLayer.project.layerDir] ++ ["file"] := by
  obtain ⟨rest, shape⟩ := nested
  refine ⟨rest ++ [KnowledgeLayer.project.layerDir, "file"], by simp, ?_, ?_⟩
  · exact plain_below (by rw [shape]; exact plain) _
  · rw [← append_assoc, shape, append_assoc]
    rfl

theorem file_plain : PlainLocation ["file"] := by
  intro name member
  rw [mem_singleton.mp member]
  exact ⟨by decide, by decide, by decide, by decide⟩

theorem separated_iff : Separated config tenant other ↔ Apart config tenant other := by
  constructor
  · intro separated
    refine ⟨fun same => ?_, fun layer => ⟨fun nested => ?_, fun nested => ?_⟩⟩
    · refine not_separated .project .project (by simp) (by simp) file_plain file_plain ?_ separated
      rw [tenant_layerPath, tenant_layerPath, same]
    · obtain ⟨names, present, plain, meet⟩ := nested_meet nested (locate_plain config.root_plain _)
      refine not_separated layer .project present (by simp) plain file_plain ?_ separated
      rw [tenant_layerPath, tenant_layerPath, meet]
    · obtain ⟨names, present, plain, meet⟩ := nested_meet nested (locate_plain config.root_plain _)
      refine not_separated .project layer (by simp) present file_plain plain ?_ separated
      rw [tenant_layerPath, tenant_layerPath, meet]
  · intro apart layer path layer' path' stays stays' location here
    have inside : Inside ((config.tenant tenant).layerPath layer) location := by
      simp only [mem_cons, not_mem_nil, or_false] at here
      rcases here with rfl | rfl
      · exact inside_iff.mpr stays
      · exact (inside_iff.mpr stays).metadataPath
    have outside : ¬ Inside ((config.tenant other).layerPath layer') location := by
      intro both
      rw [tenant_layerPath] at inside both
      rcases prefix_or_prefix_of_prefix inside.1 both.1 with nested | nested
      · rcases prefix_concat_iff.mp nested with same | within
        · exact apart.1 (append_inj' same rfl).1
        · exact (apart.2 layer).1 within
      · rcases prefix_concat_iff.mp nested with same | within
        · exact apart.1 (append_inj' same rfl).1.symm
        · exact (apart.2 layer').2 within
    have confines := confines_iff.mpr stays'
    constructor
    · intro repo entry message id next home named stored
      by_contra changed
      exact outside (confines.store repo entry message id next home named stored location changed)
    · intro repo message id next deleted
      by_contra changed
      exact outside (confines.delete repo message id next deleted location changed)

end

/-- Where the calls of a tenant stay below its directory, and which tenants then keep apart. -/
theorem confined_exactly_when (config : RepositoryConfig) :
    (∀ (tenant : TenantId) layer path, Confines (config.tenant tenant) layer path ↔
      StaysBelow ((config.tenant tenant).layerPath layer) path) ∧
    ∀ tenant other : TenantId, Separated config tenant other ↔ Apart config tenant other :=
  ⟨fun _ _ _ => confines_iff, fun _ _ => separated_iff⟩

theorem guide_of_other_tenant : ∃ acme globex, TenantId.new "acme" = some acme ∧ TenantId.new "globex" = some globex ∧
    (guideConfig.tenant acme).resolvePath .project "../../globex/project/guide.md" =
      (guideConfig.tenant globex).resolvePath .project "guide.md" ∧
    ¬ Confines (guideConfig.tenant acme) .project "../../globex/project/guide.md" := by
  refine ⟨⟨"acme", by decide, by decide⟩, ⟨"globex", by decide, by decide⟩, rfl, rfl, by decide +kernel, ?_⟩
  rw [confines_iff]
  decide +kernel

end Aeterna
