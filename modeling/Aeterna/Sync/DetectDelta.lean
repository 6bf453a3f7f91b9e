import Aeterna.Sync.History

namespace Aeterna.Sync
open List

structure DeltaResult where
  added : List KnowledgeEntry := []
  updated : List KnowledgeEntry := []
  deleted : List String := []
  unchanged : List String := []

namespace DeltaResult

def ids (delta : DeltaResult) : List String :=
  delta.added.map (·.path) ++ (delta.updated.map (·.path) ++ (delta.unchanged ++ delta.deleted))

end DeltaResult

section
variable (config : RepositoryConfig) (env : Env) (s : SyncState)

def classify (delta : DeltaResult) (entry : KnowledgeEntry) : DeltaResult :=
  match s.knowledgeHashes.lookup entry.path with
  | some prevHash =>
    if prevHash = syncedHash env entry then { delta with unchanged := delta.unchanged ++ [entry.path] }
    else { delta with updated := delta.updated ++ [entry] }
  | none => { delta with added := delta.added ++ [entry] }

def missing (delta : DeltaResult) : List String :=
  s.knowledgeHashes.keys.filter (fun id => id ∉ delta.unchanged ∧ id ∉ delta.updated.map (·.path))

def classifyLayer (repo : GitRepository) (delta : DeltaResult) (layer : KnowledgeLayer) :
    Except String DeltaResult := do
  let entries ← repo.listInner config layer ""
  pure (entries.foldl (classify env s) delta)

def detectDelta (repo : GitRepository) : Except String DeltaResult := do
  let delta ← KnowledgeLayer.walk.foldlM (classifyLayer config env s repo) {}
  pure { delta with deleted := missing s delta }

structure Partitions (knowledge : Knowledge) (delta : DeltaResult) : Prop where
  once : delta.ids.Nodup
  recorded : ∀ id ∈ s.knowledgeHashes,
    (id ∈ delta.updated.map (·.path) ∧ id ∉ delta.unchanged ∧ id ∉ delta.deleted) ∨
    (id ∉ delta.updated.map (·.path) ∧ id ∈ delta.unchanged ∧ id ∉ delta.deleted) ∨
    (id ∉ delta.updated.map (·.path) ∧ id ∉ delta.unchanged ∧ id ∈ delta.deleted)
  gone : ∀ id ∈ delta.deleted, ∀ layer, ∀ entry ∈ knowledge.list layer, entry.path ≠ id

def DeltaPartitions (repo : GitRepository) : Prop :=
  ∀ delta, detectDelta config env s repo = .ok delta → Partitions s (repo.view config) delta

end

section
variable (env : Env) (s : SyncState)

def isAdded (entry : KnowledgeEntry) : Bool := (s.knowledgeHashes.lookup entry.path).isNone

def isUnchanged (entry : KnowledgeEntry) : Bool := s.knowledgeHashes.lookup entry.path = some (syncedHash env entry)

def classified (entries : List KnowledgeEntry) : DeltaResult where
  added := entries.filter (isAdded s)
  updated := (entries.filter (fun entry => !isAdded s entry)).filter (fun entry => !isUnchanged env s entry)
  unchanged := ((entries.filter (fun entry => !isAdded s entry)).filter (isUnchanged env s)).map (·.path)

end

section
variable {config : RepositoryConfig} {env : Env} {s : SyncState}

theorem classify_classified (seen : List KnowledgeEntry) (entry : KnowledgeEntry) :
    classify env s (classified env s seen) entry = classified env s (seen ++ [entry]) := by
  unfold classify
  cases recorded : s.knowledgeHashes.lookup entry.path with
  | none => simp [classified, isAdded, recorded, filter_append]
  | some prevHash =>
    by_cases same : prevHash = syncedHash env entry
    · simp [classified, isAdded, isUnchanged, recorded, same, filter_append]
    · simp [classified, isAdded, isUnchanged, recorded, same, filter_append]

theorem foldl_classify (seen entries : List KnowledgeEntry) :
    entries.foldl (classify env s) (classified env s seen) = classified env s (seen ++ entries) := by
  induction entries generalizing seen with
  | nil => rw [append_nil, foldl_nil]
  | cons entry rest ih => rw [foldl_cons, classify_classified, ih, ← append_cons]

variable {repo : GitRepository} {id : String}

theorem foldlM_listed
    (lists : ∀ layer, ∃ entries, repo.listInner config layer "" = .ok entries) (layers : List KnowledgeLayer)
    (seen : List KnowledgeEntry) :
    layers.foldlM (classifyLayer config env s repo) (classified env s seen) =
      .ok (classified env s (seen ++ layers.flatMap (repo.view config).list)) := by
  induction layers generalizing seen with
  | nil =>
    rw [flatMap_nil, append_nil]
    rfl
  | cons layer rest ih =>
    obtain ⟨entries, listed⟩ := lists layer
    have first : classifyLayer config env s repo (classified env s seen) layer = .ok
        (classified env s (seen ++ entries)) := by
      rw [classifyLayer, listed, ← foldl_classify]
      rfl
    rw [foldlM_cons, first, flatMap_cons, ← listInner_view listed, ← append_assoc]
    exact ih (seen ++ entries)

theorem foldlM_unlisted {layers : List KnowledgeLayer} {layer : KnowledgeLayer}
    (member : layer ∈ layers) (unlisted : ∀ entries, repo.listInner config layer "" ≠ .ok entries)
    (start delta : DeltaResult) :
    layers.foldlM (classifyLayer config env s repo) start ≠ .ok delta := by
  induction layers generalizing start with
  | nil => cases member
  | cons first rest ih =>
    intro succeeds
    rw [foldlM_cons] at succeeds
    cases next : classifyLayer config env s repo start first with
    | error message =>
      rw [next] at succeeds
      cases succeeds
    | ok after =>
      rw [next] at succeeds
      rcases mem_cons.mp member with rfl | later
      · cases listed : repo.listInner config layer "" with
        | error message =>
          rw [classifyLayer, listed] at next
          cases next
        | ok entries => exact unlisted entries listed
      · exact ih later after succeeds

theorem detectDelta_listed (lists : ∀ layer, ∃ entries, repo.listInner config layer "" = .ok entries) :
    detectDelta config env s repo = .ok { classified env s (repo.view config).visited with
      deleted := missing s (classified env s (repo.view config).visited) } := by
  have walked := @foldlM_listed config env s repo lists KnowledgeLayer.walk []
  rw [nil_append] at walked
  have start : classified env s [] = {} := rfl
  rw [start] at walked
  rw [detectDelta, walked]
  rfl

theorem detectDelta_unlisted {layer : KnowledgeLayer}
    (unlisted : ∀ entries, repo.listInner config layer "" ≠ .ok entries) (delta : DeltaResult) :
    detectDelta config env s repo ≠ .ok delta := by
  intro succeeds
  cases walked : KnowledgeLayer.walk.foldlM (classifyLayer config env s repo) {} with
  | error message =>
    rw [detectDelta, walked] at succeeds
    cases succeeds
  | ok result => exact foldlM_unlisted layer.mem_walk unlisted {} result walked

variable {entries : List KnowledgeEntry}

theorem classified_perm : (((classified env s entries).added.map (·.path)) ++
    ((classified env s entries).updated.map (·.path) ++
    (classified env s entries).unchanged)).Perm (entries.map (·.path)) := by
  have recorded : ((classified env s entries).updated.map (·.path) ++ (classified env s entries).unchanged).Perm
      ((entries.filter (fun entry => !isAdded s entry)).map (·.path)) := by
    rw [classified, ← map_append]
    exact (perm_append_comm.trans (filter_append_perm _ _)).map _
  refine (recorded.append_left _).trans ?_
  rw [classified, ← map_append]
  exact (filter_append_perm _ _).map _

theorem met_recorded (listed : id ∈ entries.map (·.path)) (recorded : id ∈ s.knowledgeHashes) :
    id ∈ (classified env s entries).updated.map (·.path) ∨ id ∈ (classified env s entries).unchanged := by
  have among := (@classified_perm env s entries).mem_iff.mpr listed
  rcases mem_append.mp among with new | old
  · obtain ⟨entry, member, rfl⟩ := mem_map.mp new
    have none := (mem_filter.mp member).2
    rw [isAdded, Option.isNone_iff_eq_none] at none
    have some := AList.lookup_isSome.mpr recorded
    rw [none] at some
    cases some
  · exact mem_append.mp old

theorem mem_missing {delta : DeltaResult} : id ∈ missing s delta ↔
    id ∈ s.knowledgeHashes ∧ id ∉ delta.unchanged ∧ id ∉ delta.updated.map (·.path) := by
  rw [missing, mem_filter, decide_eq_true_iff, AList.mem_keys]

theorem not_met_of_missing (absent : id ∈ missing s (classified env s entries)) : id ∉ entries.map (·.path) := by
  intro listed
  obtain ⟨recorded, notUnchanged, notUpdated⟩ := mem_missing.mp absent
  rcases met_recorded listed recorded with updated | unchanged
  · exact notUpdated updated
  · exact notUnchanged unchanged

theorem ids_nodup : ({ classified env s entries with deleted := missing s (classified env s entries) } :
    DeltaResult).ids.Nodup ↔
    (entries.map (·.path)).Nodup := by
  have shape : ({ classified env s entries with deleted := missing s (classified env s entries) } : DeltaResult).ids =
      ((classified env s entries).added.map (·.path) ++ ((classified env s entries).updated.map (·.path) ++
        (classified env s entries).unchanged)) ++ missing s (classified env s entries) := by
    simp only [DeltaResult.ids, append_assoc]
  rw [shape, (classified_perm.append_right _).nodup_iff, nodup_append]
  constructor
  · intro apart
    exact apart.1
  · intro distinct
    refine ⟨distinct, s.knowledgeHashes.keys_nodup.filter _, ?_⟩
    intro id listed other absent same
    rw [same] at listed
    exact not_met_of_missing absent listed

theorem partitions_iff {knowledge : Knowledge} : Partitions s knowledge { classified env s knowledge.visited with
      deleted := missing s (classified env s knowledge.visited) } ↔ knowledge.DistinctPaths := by
  constructor
  · intro parts
    exact ids_nodup.mp parts.once
  · intro distinct
    have once := (@ids_nodup env s knowledge.visited).mpr distinct
    refine ⟨once, ?_, ?_⟩
    · intro id recorded
      have apart : id ∈ (classified env s knowledge.visited).updated.map (·.path) →
          id ∉ (classified env s knowledge.visited).unchanged := by
        intro updated unchanged
        have both := (nodup_append.mp (nodup_append.mp once).2.1).2.2
        exact both id updated id (mem_append_left _ unchanged) rfl
      have absent : id ∈ missing s (classified env s knowledge.visited) ↔
          id ∉ (classified env s knowledge.visited).unchanged ∧ id ∉ (classified env s knowledge.visited).updated.map
            (·.path) := by
        rw [mem_missing, and_iff_right recorded]
      dsimp only
      tauto
    · intro id gone layer entry listed same
      apply not_met_of_missing gone
      have visited : entry ∈ knowledge.visited := by
        rw [Knowledge.mem_visited, Knowledge.list_layer listed]
        exact listed
      exact same ▸ mem_map_of_mem visited

end

/-- A delta partitions the ids exactly when a layer cannot be listed, so that there is none, or no path lies in two
layers. -/
theorem deltaPartitions_iff (config : RepositoryConfig) (env : Env) (s : SyncState) (repo : GitRepository) :
    DeltaPartitions config env s repo ↔
      (∃ layer, ∀ entries, repo.listInner config layer "" ≠ .ok entries) ∨ (repo.view config).DistinctPaths := by
  by_cases unlisted : ∃ layer, ∀ entries, repo.listInner config layer "" ≠ .ok entries
  · obtain ⟨layer, fails⟩ := unlisted
    exact iff_of_true (fun delta succeeds => absurd succeeds (detectDelta_unlisted fails delta))
      (Or.inl ⟨layer, fails⟩)
  · rw [or_iff_right unlisted, ← @partitions_iff env s]
    have lists : ∀ layer, ∃ entries, repo.listInner config layer "" = .ok entries := by
      intro layer
      by_contra none
      exact unlisted ⟨layer, fun entries listed => none ⟨entries, listed⟩⟩
    rw [DeltaPartitions, detectDelta_listed lists]
    simp only [Except.ok.injEq, forall_eq']

def guideTwice : GitRepository := (thenStored "acme" { sampleEntry "revised" .accepted with layer := .org }).repository

theorem guide_listed_twice : ¬ DeltaPartitions (sampleConfig "acme") (sampleEnv "plain" .accepted)
    { knowledgeHashes := .singleton "guide.md" (sampleDigest "plain") } guideTwice := by
  intro parts
  have read : (detectDelta (sampleConfig "acme") (sampleEnv "plain" .accepted)
      { knowledgeHashes := .singleton "guide.md" (sampleDigest "plain") } guideTwice).toOption.map (·.ids) =
        some ["guide.md", "guide.md"] := by decide +kernel
  cases succeeds : detectDelta (sampleConfig "acme") (sampleEnv "plain" .accepted)
      { knowledgeHashes := .singleton "guide.md" (sampleDigest "plain") } guideTwice with
  | error message =>
    rw [succeeds] at read
    cases read
  | ok delta =>
    rw [succeeds] at read
    have twice : delta.ids = ["guide.md", "guide.md"] := Option.some.inj read
    have once := (parts delta succeeds).once
    rw [twice] at once
    exact absurd once (by decide)

end Aeterna.Sync
