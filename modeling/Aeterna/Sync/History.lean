import Aeterna.Knowledge.Repository
import Aeterna.Sync.Incremental

namespace Aeterna.Sync
open Lib List Option

variable (env : Env)

/-- Every live entry has a pointer and the hash of its redacted content on record, and no path
without an entry has a pointer. -/
structure Reflects (knowledge : Knowledge) (s : SyncState) : Prop where
  live : ∀ entry ∈ knowledge.visited, s.pointerMapping.lookup (pointerId entry.path) = some entry.path ∧
    s.knowledgeHashes.lookup entry.path = some (syncedHash env entry)
  gone : ∀ path, (∀ layer, knowledge.get layer path = none) →
    ∀ memoryId, s.pointerMapping.lookup memoryId ≠ some path

def Agreeing (knowledge : Knowledge) : Prop :=
  ∀ entry ∈ knowledge.visited, ∀ other ∈ knowledge.visited, entry.path = other.path →
    syncedHash env entry = syncedHash env other

structure Accounted (before now : Knowledge) (items : List (KnowledgeLayer × String)) : Prop where
  affected : ∀ pair, (items.filter (fun other => other.2 = pair.2)).getLast? = some pair →
    ∀ entry ∈ versions now.visited pair.2,
      (now.get pair.1 pair.2).map (syncedHash env) = some (syncedHash env entry)
  unaffected : ∀ path, path ∉ items.map (·.2) →
    (∀ entry ∈ versions now.visited path, ∃ old ∈ versions before.visited path,
      syncedHash env old = syncedHash env entry) ∧
    ((∀ layer, now.get layer path = none) → ∀ layer, before.get layer path = none)

variable {env}

def Footprint.Whole (path : String) (f : Footprint) : Prop := f.hash.isSome → f.pointer = some path

theorem SyncState.Tidy.whole {s : SyncState} (tidy : s.Tidy) (path : String) : (s.footprint path).Whole path := by
  intro recorded
  have bound : (s.pointerMapping.lookup (pointerId path)).isSome := by
    rw [← (tidy.2 path).1]
    exact recorded
  obtain ⟨target, found⟩ := isSome_iff_exists.mp bound
  rw [← pointerId_injective (tidy.1 _ _ found).1] at found
  exact found

section
variable {path : String} {f : Footprint} (whole : f.Whole path)
include whole

theorem settle_whole {entry : KnowledgeEntry}
    (own : entry.path = path) : (f.settle env entry).hash = some (syncedHash env entry) ∧
      (f.settle env entry).pointer = some path := by
  unfold Footprint.settle
  split
  · rename_i same
    exact ⟨same, whole (by rw [same]; rfl)⟩
  · exact ⟨rfl, by rw [← own]; rfl⟩

theorem read_whole {read : Option KnowledgeEntry}
    (own : ∀ entry, read = some entry → entry.path = path) : (Footprint.read env path f read).Whole path := by
  cases read with
  | some entry => exact fun _ => (settle_whole whole (own entry rfl)).2
  | none =>
    unfold Footprint.read
    intro recorded
    by_cases bound : f.pointer = some path
    · simp [bound] at recorded
    · rw [if_neg bound] at recorded ⊢
      exact whole recorded

theorem reads_whole {reads : List (Option KnowledgeEntry)} (own : ∀ entry, some entry ∈ reads → entry.path = path) :
    (reads.foldl (Footprint.read env path) f).Whole path := by
  induction reads generalizing f with
  | nil => exact whole
  | cons read rest ih =>
    refine ih (read_whole whole ?_) (fun entry member => own entry (mem_cons_of_mem _ member))
    intro entry same
    exact own entry (by rw [same]; exact mem_cons_self)

end

variable (env) in
def Footprint.Shows (path : String) (f : Footprint) : Option KnowledgeEntry → Prop
  | some entry => f.pointer = some path ∧ f.hash = some (syncedHash env entry)
  | none => f.pointer ≠ some path

theorem reads_concat {path : String} {f : Footprint} (whole : f.Whole path) {reads : List (Option KnowledgeEntry)}
    {last : Option KnowledgeEntry} (own : ∀ entry, some entry ∈ reads ++ [last] → entry.path = path) :
    ((reads ++ [last]).foldl (Footprint.read env path) f).Shows env path last := by
  rw [foldl_append]
  cases last with
  | some entry =>
    have before : (reads.foldl (Footprint.read env path) f).Whole path :=
      reads_whole whole (fun other member => own other (mem_append_left _ member))
    obtain ⟨hash, pointer⟩ := @settle_whole env path _ before entry (own entry (by simp))
    exact ⟨pointer, hash⟩
  | none =>
    simp only [foldl_cons, foldl_nil, Footprint.read, Footprint.Shows]
    by_cases bound : (reads.foldl (Footprint.read env path) f).pointer = some path
    · rw [if_pos bound]
      exact (some_ne_none path).symm
    · rwa [if_neg bound]

variable {before now : Knowledge} {s next : SyncState}

theorem reflects_of_footprints (named : next.Named)
    (live : ∀ entry ∈ now.visited, (next.footprint entry.path).pointer = some entry.path ∧
      (next.footprint entry.path).hash = some (syncedHash env entry))
    (gone : ∀ path, (∀ layer, now.get layer path = none) → (next.footprint path).pointer ≠ some path) :
    Reflects env now next := by
  refine ⟨live, ?_⟩
  intro path absent memoryId bound
  obtain ⟨rfl, -⟩ := named memoryId path bound
  exact gone path absent bound

theorem versions_path {entries : List KnowledgeEntry} {path : String} {entry : KnowledgeEntry}
    (member : entry ∈ versions entries path) : entry.path = path := by
  simpa using (mem_filter.mp member).2

theorem versions_gone {path : String} (absent : ∀ layer, now.get layer path = none) :
    versions now.visited path = [] := by
  refine versions_of_absent (fun entry visited same => ?_)
  have read := Knowledge.visited_get visited
  rw [same, absent] at read
  cases read

theorem settled_reflects (tidy : s.Tidy) (fresh : ∀ memoryId, s.pointerMapping.lookup memoryId = none)
    (named : next.Named) (agreeing : Agreeing env now)
    (settled : ∀ path, next.footprint path =
      (versions now.visited path).foldl (Footprint.settle env) (s.footprint path)) :
    Reflects env now next := by
  refine reflects_of_footprints named ?_ ?_
  · intro entry visited
    have member : entry ∈ versions now.visited entry.path := mem_filter.mpr ⟨visited, by simp⟩
    obtain ⟨last, found⟩ := isSome_iff_exists.mp (getLast?_isSome.mpr (ne_nil_of_mem member))
    obtain ⟨earlier, shape⟩ := getLast?_eq_some_iff.mp found
    have lastMember : last ∈ versions now.visited entry.path := mem_of_getLast? found
    have own : ∀ version, some version ∈ earlier.map some ++ [some last] → version.path = entry.path := by
      intro version listed
      apply @versions_path now.visited
      rw [shape]
      simpa using listed
    have decided := @reads_concat env entry.path _ (tidy.whole entry.path) _ _ own
    have same : next.footprint entry.path =
        (earlier.map some ++ [some last]).foldl (Footprint.read env entry.path) (s.footprint entry.path) := by
      rw [settled, shape, foldl_append, foldl_append, foldl_map]
      rfl
    rw [same]
    refine ⟨decided.1, decided.2.trans ?_⟩
    rw [agreeing last (mem_filter.mp lastMember).1 entry visited (versions_path lastMember)]
  · intro path absent bound
    rw [settled, versions_gone absent, foldl_nil] at bound
    have free := fresh (pointerId path)
    exact absurd (free.symm.trans bound) (by simp)

theorem affectedReads_unlisted {last path : String} (moved : now.headCommit ≠ some last)
    (absent : path ∉ (now.affectedItems last).map (·.2)) : affectedReads now last path = [] := by
  rw [affectedReads, if_neg moved, map_eq_nil_iff, filter_eq_nil_iff]
  intro pair member same
  exact absent (List.mem_map.mpr ⟨pair, member, by simpa using same⟩)

theorem affectedReads_listed {last path : String} (moved : now.headCommit ≠ some last)
    (listed : path ∈ (now.affectedItems last).map (·.2)) : ∃ layer earlier,
      ((now.affectedItems last).filter (fun other => other.2 = path)).getLast? = some (layer, path) ∧
      affectedReads now last path = earlier ++ [now.get layer path] := by
  obtain ⟨pair, member, rfl⟩ := List.mem_map.mp listed
  have several : (now.affectedItems last).filter (fun other => other.2 = pair.2) ≠ [] :=
    ne_nil_of_mem (mem_filter.mpr ⟨member, by simp⟩)
  obtain ⟨⟨layer, path⟩, found⟩ := isSome_iff_exists.mp (getLast?_isSome.mpr several)
  have own : path = pair.2 := by simpa using (mem_filter.mp (mem_of_getLast? found)).2
  subst own
  obtain ⟨earlier, shape⟩ := getLast?_eq_some_iff.mp found
  refine ⟨layer, earlier.map (fun other => now.get other.1 other.2), found, ?_⟩
  rw [affectedReads, if_neg moved, shape, map_append, map_singleton]

theorem replayed_reflects (tidy : s.Tidy) (reflects : Reflects env before s) (named : next.Named) {last : String}
    (moved : now.headCommit ≠ some last) (accounted : Accounted env before now (now.affectedItems last))
    (replayed : ∀ path, next.footprint path =
      (affectedReads now last path).foldl (Footprint.read env path) (s.footprint path)) :
    Reflects env now next := by
  have unread : ∀ path, path ∉ (now.affectedItems last).map (·.2) → next.footprint path = s.footprint path := by
    intro path absent
    rw [replayed, affectedReads_unlisted moved absent, foldl_nil]
  have decided : ∀ path, path ∈ (now.affectedItems last).map (·.2) → ∃ layer,
      ((now.affectedItems last).filter (fun other => other.2 = path)).getLast? = some (layer, path) ∧
      (next.footprint path).Shows env path (now.get layer path) := by
    intro path listed
    obtain ⟨layer, earlier, found, reads⟩ := affectedReads_listed moved listed
    refine ⟨layer, found, ?_⟩
    rw [replayed, reads]
    apply reads_concat (tidy.whole path)
    intro entry inside
    rw [← reads] at inside
    exact affectedReads_path inside
  refine reflects_of_footprints named ?_ ?_
  · intro entry visited
    have member : entry ∈ versions now.visited entry.path := mem_filter.mpr ⟨visited, by simp⟩
    by_cases listed : entry.path ∈ (now.affectedItems last).map (·.2)
    · obtain ⟨layer, found, result⟩ := decided entry.path listed
      have agrees := accounted.affected (layer, entry.path) found entry member
      cases read : now.get layer entry.path with
      | none => simp [read] at agrees
      | some current =>
        rw [read] at agrees result
        exact ⟨result.1, result.2.trans agrees⟩
    · obtain ⟨old, oldMember, same⟩ := (accounted.unaffected entry.path listed).1 entry member
      obtain ⟨pointer, hash⟩ := reflects.live old (mem_filter.mp oldMember).1
      rw [versions_path oldMember] at pointer hash
      rw [unread entry.path listed, ← same]
      exact ⟨pointer, hash⟩
  · intro path absent
    by_cases listed : path ∈ (now.affectedItems last).map (·.2)
    · obtain ⟨layer, -, result⟩ := decided path listed
      rw [absent] at result
      exact result
    · rw [unread path listed]
      exact reflects.gone path ((accounted.unaffected path listed).2 absent) (pointerId path)

structure Site where
  repository : GitRepository
  world : World

section
variable (config : RepositoryConfig) (env : Env)

/-- The environment of a sync over a repository. -/
def Env.over (repo : GitRepository) : Env := { env with knowledge := fun _ => repo.view config }

def Site.sync (site : Site) : Site :=
  { site with world := (syncIncremental (env.over config site.repository) site.world).2 }

/-- No call into the repository fails in the next sync, and the test hook fails no entry. -/
structure Site.Quiet (site : Site) : Prop where
  full : site.world.current.lastKnowledgeCommit = none →
    (∀ layer, ∃ entries, site.repository.listInner config layer "" = .ok entries) ∧
    ∀ entry ∈ (site.repository.view config).visited, simulatesFailure entry.path = false
  incremental : ∀ last, site.world.current.lastKnowledgeCommit = some last →
    site.repository.headCommit ≠ some last →
    ∃ items, site.repository.getAffectedItems config last = .ok items ∧ ∀ pair ∈ items,
      ∃ answer, site.repository.getInner config pair.1 pair.2 = .ok answer ∧
        (answer.isSome → simulatesFailure pair.2 = false)

/-- What the next sync has to find: entries of one path that agree, if it is a full one, and otherwise
affected pairs that account for every change since the last synced commit. -/
structure Site.Covered (site : Site) : Prop where
  full : site.world.current.lastKnowledgeCommit = none → Agreeing env (site.repository.view config)
  incremental : ∀ last, site.world.current.lastKnowledgeCommit = some last →
    site.repository.headCommit ≠ some last →
    Accounted env ((site.repository.checkout last).view config) (site.repository.view config)
      ((site.repository.view config).affectedItems last)

/-- The sites reached by stores, deletes and quiet syncs, each sync from a site that meets a condition. -/
inductive Run (condition : Site → Prop) : Site → Prop where
  | start (memory : MemoryStore) : Run condition ⟨{}, { memory := memory }⟩
  | store {site : Site} {entry : KnowledgeEntry} {message id : String} {next : GitRepository} :
    Run condition site → site.repository.storeInner config entry message = .ok (id, next) →
    Run condition { site with repository := next }
  | delete {site : Site} {layer : KnowledgeLayer} {path message id : String} {next : GitRepository} :
    Run condition site → site.repository.deleteInner config layer path message = .ok (id, next) →
    Run condition { site with repository := next }
  | sync {site : Site} : Run condition site → site.Quiet config → condition site →
    Run condition (site.sync config env)

structure Site.UpToLastSync (site : Site) : Prop where
  committed : site.repository.Committed config
  synced : Synced site.world
  fresh : site.world.current.lastKnowledgeCommit = none →
    ∀ memoryId, site.world.current.pointerMapping.lookup memoryId = none
  reflects : ∀ last, site.world.current.lastKnowledgeCommit = some last →
    (∃ commit ∈ site.repository.commits, commit.id = last) ∧
    Reflects env ((site.repository.checkout last).view config) site.world.current

end

section
variable {config : RepositoryConfig} {env : Env} {site : Site}

theorem Site.UpToLastSync.commits (kept : site.UpToLastSync config env) {next : GitRepository}
    (step : site.repository.Commits config next) :
    Site.UpToLastSync config env { site with repository := next } := by
  refine ⟨kept.committed.commits step, kept.synced, kept.fresh, ?_⟩
  intro last synced
  obtain ⟨⟨commit, known, rfl⟩, reflects⟩ := kept.reflects last synced
  have same : next.checkout commit.id = site.repository.checkout commit.id :=
    checkout_commits kept.committed step known
  obtain ⟨message, shape⟩ := step
  refine ⟨⟨commit, by rw [shape]; exact mem_cons_of_mem _ known, rfl⟩, ?_⟩
  rw [same]
  exact reflects

theorem Site.UpToLastSync.sync_reflects (clean : env.Clean) (kept : site.UpToLastSync config env)
    (quiet : site.Quiet config) (covered : site.Covered config env) :
    (syncIncremental (env.over config site.repository) site.world).1 = .ok () ∧
      (site.sync config env).world.current.lastKnowledgeCommit = site.repository.headCommit ∧
      Reflects env (site.repository.view config) (site.sync config env).world.current := by
  have tidy : site.world.current.Tidy := (synced_tidy kept.synced).current SyncState.tidy_default
  have named : (site.sync config env).world.current.Named :=
    ((synced_tidy (.incremental (env.over config site.repository) kept.synced)).current SyncState.tidy_default).1
  have clean : (env.over config site.repository).Clean := ⟨clean.faultless, clean.remotePasses, clean.localPasses⟩
  obtain ⟨next, run, links, head⟩ := syncIncremental_clean clean
    (show (env.over config site.repository).Steady (site.repository.view config) from fun _ => rfl) site.world
  have reached : (site.sync config env).world = next := by
    rw [Site.sync, run]
  rw [reached] at named ⊢
  refine ⟨by rw [run], head, ?_⟩
  have footprint : ∀ path, next.current.footprint path = (((linksOf site.world.current site.world.memory).increment
      (env.over config site.repository) (site.repository.view config)
      site.world.current.lastKnowledgeCommit).cell path).footprint := by
    intro path
    rw [← links, linksOf_footprint]
  cases synced : site.world.current.lastKnowledgeCommit with
  | none =>
    refine settled_reflects tidy (kept.fresh synced) named (covered.full synced) ?_
    intro path
    rw [footprint, synced]
    exact settled_footprint (quiet.full synced).2 _ _ path
  | some last =>
    obtain ⟨⟨commit, known, rfl⟩, before⟩ := kept.reflects last synced
    by_cases same : site.repository.headCommit = some commit.id
    · have unmoved : ∀ path, next.current.footprint path = site.world.current.footprint path := by
        intro path
        have unmovedHead : (site.repository.view config).headCommit = some commit.id := same
        rw [footprint, synced, Links.increment, if_pos unmovedHead, linksOf_footprint]
      obtain ⟨newest, found, sameId⟩ := map_eq_some_iff.mp same
      rw [← sameId, checkout_head kept.committed found] at before
      refine reflects_of_footprints named ?_ ?_
      · intro entry visited
        rw [unmoved]
        exact before.live entry visited
      · intro path absent
        rw [unmoved]
        exact before.gone path absent (pointerId path)
    · obtain ⟨items, listed, readable⟩ := quiet.incremental commit.id synced same
      have sameItems : (site.repository.view config).affectedItems commit.id = items := by
        change (site.repository.getAffectedItems config commit.id).toOption.getD [] = items
        rw [listed]
        rfl
      refine replayed_reflects tidy before named same (covered.incremental commit.id synced same) ?_
      intro path
      rw [footprint, synced]
      refine increment_footprint tidy.1 ?_ _ path
      intro pair member found
      rw [sameItems] at member
      obtain ⟨answer, read, real⟩ := readable pair member
      rw [← getInner_view read] at found
      exact real found

theorem run_upToLastSync (clean : env.Clean) (run : Run config env (Site.Covered config env) site) :
    site.UpToLastSync config env := by
  induction run with
  | start memory =>
    refine ⟨⟨trivial, nofun, fun _ => rfl⟩, .initial memory, fun _ memoryId => rfl, nofun⟩
  | store _ stored kept => exact kept.commits (storeInner_commits stored)
  | delete _ deleted kept =>
    rcases deleteInner_commits deleted with rfl | step
    · exact kept
    · exact kept.commits step
  | @sync site _ quiet covered kept =>
    obtain ⟨-, head, reflects⟩ := kept.sync_reflects clean quiet covered
    refine ⟨kept.committed, .incremental _ kept.synced, ?_, ?_⟩
    · intro unsynced memoryId
      rw [head] at unsynced
      have history : site.repository.commits = [] := by
        simpa [GitRepository.headCommit] using unsynced
      have empty := kept.committed.empty history
      refine eq_none_iff_forall_ne_some.mpr (fun path => ?_)
      refine reflects.gone path (fun layer => view_get_of_missing ?_) memoryId
      rw [empty]
      rfl
    · intro last synced
      rw [head] at synced
      obtain ⟨newest, found, rfl⟩ := map_eq_some_iff.mp synced
      refine ⟨⟨newest, mem_of_head? found, rfl⟩, ?_⟩
      rw [show (site.sync config env).repository = site.repository from rfl, checkout_head kept.committed found]
      exact reflects

/-- In a run in which every sync finds its changes covered, each sync ends with a state that reflects
the repository. -/
theorem covered_run_reflects (clean : env.Clean) (run : Run config env (Site.Covered config env) site)
    (quiet : site.Quiet config) (covered : site.Covered config env) :
    (syncIncremental (env.over config site.repository) site.world).1 = .ok () ∧
      Reflects env (site.repository.view config) (site.sync config env).world.current := by
  obtain ⟨finished, -, reflects⟩ := (run_upToLastSync clean run).sync_reflects clean quiet covered
  exact ⟨finished, reflects⟩

end

def sampleSidecar : String :=
  "\x7b\"author\":null,\"kind\":\"Spec\",\"metadata\":\x7b\x7d,\"status\":\"Accepted\"," ++
    "\"summaries\":\x7b\x7d,\"updated_at\":0\x7d"

section
variable (tenantId : String)

def sampleConfig : RepositoryConfig where
  root := ["srv"]
  root_plain := srv_plain
  tenantId := tenantId
  renderSidecar _ := sampleSidecar
  parseSidecar text :=
    if text = sampleSidecar then .ok ⟨some .spec, some .accepted, some ∅, some ∅, none, some 0⟩
    else .error "Serialization error: expected value at line 1 column 1"
  commitId n := String.ofList ('c' :: replicate n '0')
  commitId_injective := commitIds_injective

def storedIn (repo : GitRepository) (entry : KnowledgeEntry) : GitRepository :=
  ((repo.storeInner (sampleConfig tenantId) entry "store").toOption.map (·.2)).getD repo

def guideStored : Site := ⟨storedIn tenantId .empty (sampleEntry "plain" .accepted), {}⟩

def thenStored (entry : KnowledgeEntry) : Site where
  repository := storedIn tenantId (guideStored tenantId).repository entry
  world := ((guideStored tenantId).sync (sampleConfig tenantId) (sampleEnv "plain" .accepted)).world

end

theorem storedIn_ok {tenantId : String} {repo : GitRepository} {entry : KnowledgeEntry}
    (succeeds : (repo.storeInner (sampleConfig tenantId) entry "store").toOption.isSome) :
    ∃ id, repo.storeInner (sampleConfig tenantId) entry "store" = .ok (id, storedIn tenantId repo entry) := by
  unfold storedIn
  cases stored : repo.storeInner (sampleConfig tenantId) entry "store" with
  | error message => rw [stored] at succeeds; cases succeeds
  | ok result => exact ⟨result.1, rfl⟩

theorem Site.quiet_of_checks {config : RepositoryConfig} {site : Site}
    (lists : ∀ layer, (site.repository.listInner config layer "").toOption.isSome)
    (real : ((site.repository.view config).visited.all (fun entry => !simulatesFailure entry.path)))
    (reads : ∀ last, site.world.current.lastKnowledgeCommit = some last →
      ((site.repository.getAffectedItems config last).toOption.any (fun items => items.all (fun pair =>
        (site.repository.getInner config pair.1 pair.2).toOption.isSome && !simulatesFailure pair.2)))) :
    site.Quiet config := by
  constructor
  · intro _
    refine ⟨fun layer => ?_, fun entry visited => by simpa using List.all_eq_true.mp real entry visited⟩
    cases listed : site.repository.listInner config layer "" with
    | error message =>
      have succeeds := lists layer
      rw [listed] at succeeds
      cases succeeds
    | ok entries => exact ⟨entries, rfl⟩
  · intro last synced _
    have succeeds := reads last synced
    cases affected : site.repository.getAffectedItems config last with
    | error message => rw [affected] at succeeds; cases succeeds
    | ok items =>
      rw [affected] at succeeds
      refine ⟨items, rfl, fun pair member => ?_⟩
      have answers := List.all_eq_true.mp succeeds pair member
      simp only [Bool.and_eq_true, Bool.not_eq_true'] at answers
      cases read : site.repository.getInner config pair.1 pair.2 with
      | error message => rw [read] at answers; cases answers.1
      | ok answer => exact ⟨answer, rfl, fun _ => answers.2⟩

def noteEntry : KnowledgeEntry := { sampleEntry "more" .accepted with path := "notes.md" }

/-- The tenant `acme` stores a guide, syncs, stores a note and syncs again: the note is never seen. -/
theorem run_misses_note : (sampleEnv "plain" .accepted).Clean ∧
      Run (sampleConfig "acme") (sampleEnv "plain" .accepted) (fun _ => True) (thenStored "acme" noteEntry) ∧
      (thenStored "acme" noteEntry).Quiet (sampleConfig "acme") ∧
      (syncIncremental ((sampleEnv "plain" .accepted).over (sampleConfig "acme")
        (thenStored "acme" noteEntry).repository) (thenStored "acme" noteEntry).world).1 = .ok () ∧
      ¬ Reflects (sampleEnv "plain" .accepted) ((thenStored "acme" noteEntry).repository.view (sampleConfig "acme"))
        ((thenStored "acme" noteEntry).sync (sampleConfig "acme") (sampleEnv "plain" .accepted)).world.current := by
  obtain ⟨first, storedGuide⟩ : ∃ id, GitRepository.storeInner (sampleConfig "acme") {}
      (sampleEntry "plain" .accepted)
      "store" = .ok (id, (guideStored "acme").repository) := storedIn_ok (by decide +kernel)
  obtain ⟨second, storedNote⟩ : ∃ id, (guideStored "acme").repository.storeInner (sampleConfig "acme") noteEntry
      "store" = .ok (id, (thenStored "acme" noteEntry).repository) := storedIn_ok (by decide +kernel)
  have quietGuide : (guideStored "acme").Quiet (sampleConfig "acme") :=
    Site.quiet_of_checks (fun layer => by cases layer <;> decide +kernel) (by decide +kernel) nofun
  have synced : Run (sampleConfig "acme") (sampleEnv "plain" .accepted) (fun _ => True)
      ((guideStored "acme").sync (sampleConfig "acme") (sampleEnv "plain" .accepted)) :=
    .sync (.store (.start (fun _ => none)) storedGuide) quietGuide trivial
  refine ⟨sampleEnv_clean _ _, .store synced storedNote, ?_, by decide +kernel, fun reflects => ?_⟩
  · refine Site.quiet_of_checks (fun layer => by cases layer <;> decide +kernel) (by decide +kernel) ?_
    intro last commit
    have same : (thenStored "acme" noteEntry).world.current.lastKnowledgeCommit = some "c" := by decide +kernel
    rw [same] at commit
    cases commit
    decide +kernel
  · have listed : "notes.md" ∈ ((thenStored "acme" noteEntry).repository.view (sampleConfig "acme")).visited.map
        (·.path) := by decide +kernel
    obtain ⟨entry, visited, named⟩ := List.mem_map.mp listed
    have pointer := (reflects.live entry visited).1
    rw [named] at pointer
    revert pointer
    decide +kernel

def guideRevised : Site := thenStored "." (sampleEntry "revised" .accepted)

theorem guideRevised_commit : guideRevised.world.current.lastKnowledgeCommit = some "c" := by decide +kernel

theorem guideRevised_keeps_paths (layer : KnowledgeLayer) (path : String)
    (absent : (guideRevised.repository.view (sampleConfig ".")).get layer path = none) :
    ((guideRevised.repository.checkout "c").view (sampleConfig ".")).get layer path = none := by
  apply view_get_of_missing
  refine eq_none_iff_forall_ne_some.mpr (fun content stored => ?_)
  have member : (sampleConfig ".").resolvePath layer path ∈
      (guideRevised.repository.checkout "c").files.contents.keys :=
    AList.mem_keys.mp (AList.lookup_isSome.mp (by rw [stored]; rfl))
  have keys : (guideRevised.repository.checkout "c").files.contents.keys =
      [["srv", "team", "guide.metadata.json"], ["srv", "team", "guide.md"]] := by decide +kernel
  rw [keys, mem_cons, mem_singleton] at member
  rcases member with sidecar | guide
  · refine @view_get_of_stored _ _ layer path sampleSidecar none ?_ ?_ nofun absent
    · rw [sidecar]
      decide +kernel
    · rw [sidecar]
      rfl
  · refine @view_get_of_stored _ _ layer path "revised" (some sampleSidecar) ?_ ?_ ?_ absent
    · rw [guide]
      decide +kernel
    · rw [guide]
      rfl
    · intro text same
      cases same
      exact ⟨_, rfl⟩

theorem guideRevised_covered : guideRevised.Covered (sampleConfig ".") (sampleEnv "plain" .accepted) := by
  constructor
  · intro unsynced
    rw [guideRevised_commit] at unsynced
    cases unsynced
  · intro last synced _
    rw [guideRevised_commit] at synced
    cases synced
    have items : (guideRevised.repository.view (sampleConfig ".")).affectedItems "c" = [(.team, "guide.md")] := by
      decide +kernel
    have hashes : (guideRevised.repository.view (sampleConfig ".")).visited.all (fun entry =>
        entry.path = "guide.md" ∧ ((guideRevised.repository.view (sampleConfig ".")).get .team "guide.md").map
          (syncedHash (sampleEnv "plain" .accepted)) = some (syncedHash (sampleEnv "plain" .accepted) entry)) := by
      decide +kernel
    rw [items]
    constructor
    · intro pair found entry version
      have own : pair = (.team, "guide.md") :=
        mem_singleton.mp (mem_filter.mp (mem_of_getLast? found)).1
      subst own
      have checked := List.all_eq_true.mp hashes entry (mem_filter.mp version).1
      exact (of_decide_eq_true checked).2
    · intro path other
      refine ⟨fun entry version => ?_, fun absent layer => guideRevised_keeps_paths layer path (absent layer)⟩
      have checked := List.all_eq_true.mp hashes entry (mem_filter.mp version).1
      have guide : path = "guide.md" := (versions_path version).symm.trans (of_decide_eq_true checked).1
      exact absurd (by rw [guide]; simp) other

theorem run_follows_revision :
    (syncIncremental ((sampleEnv "plain" .accepted).over (sampleConfig ".") guideRevised.repository)
        guideRevised.world).1 = .ok () ∧
      Reflects (sampleEnv "plain" .accepted) (guideRevised.repository.view (sampleConfig "."))
        (guideRevised.sync (sampleConfig ".") (sampleEnv "plain" .accepted)).world.current := by
  obtain ⟨first, storedGuide⟩ : ∃ id, GitRepository.storeInner (sampleConfig ".") {} (sampleEntry "plain" .accepted)
      "store" = .ok (id, (guideStored ".").repository) := storedIn_ok (by decide +kernel)
  obtain ⟨second, storedRevision⟩ : ∃ id, (guideStored ".").repository.storeInner (sampleConfig ".")
      (sampleEntry "revised" .accepted) "store" = .ok (id, guideRevised.repository) := storedIn_ok (by decide +kernel)
  have quietGuide : (guideStored ".").Quiet (sampleConfig ".") :=
    Site.quiet_of_checks (fun layer => by cases layer <;> decide +kernel) (by decide +kernel) nofun
  have coveredGuide : (guideStored ".").Covered (sampleConfig ".") (sampleEnv "plain" .accepted) := by
    refine ⟨fun _ entry visited other listed _ => ?_, nofun⟩
    have same : ((guideStored ".").repository.view (sampleConfig ".")).visited.all (fun entry =>
        syncedHash (sampleEnv "plain" .accepted) entry = sampleDigest "plain") := by decide +kernel
    rw [of_decide_eq_true (List.all_eq_true.mp same entry visited),
      of_decide_eq_true (List.all_eq_true.mp same other listed)]
  have synced : Run (sampleConfig ".") (sampleEnv "plain" .accepted)
      (Site.Covered (sampleConfig ".") (sampleEnv "plain" .accepted))
      ((guideStored ".").sync (sampleConfig ".") (sampleEnv "plain" .accepted)) :=
    .sync (.store (.start (fun _ => none)) storedGuide) quietGuide coveredGuide
  refine covered_run_reflects (sampleEnv_clean _ _) (.store synced storedRevision) ?_ guideRevised_covered
  refine Site.quiet_of_checks (fun layer => by cases layer <;> decide +kernel) (by decide +kernel) ?_
  intro last commit
  rw [guideRevised_commit] at commit
  cases commit
  decide +kernel

end Aeterna.Sync
