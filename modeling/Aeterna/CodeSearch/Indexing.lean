import Aeterna.CodeSearch.Repositories

namespace Aeterna.CodeSearch
open Lib (Eff JsonValue)
open Lib.Eff

def Standing (id : String) (repo : Repository) (g : GitRepository) (w : Repositories) : Prop :=
  w.rows.get id = some repo ∧ w.clones repo.clonePath = some g

/-- A row and its clone are in a state of `Q`. -/
def Stands (Q : Repository → GitRepository → Prop) (id : String) (w : Repositories) : Prop :=
  ∃ repo g, Standing id repo g w ∧ Q repo g

def IndexedAt (id : String) (commit : Sha) (w : Repositories) : Prop :=
  ∃ repo, w.rows.get id = some repo ∧ repo.lastIndexedCommit = some commit

theorem Standing.indexedAt_iff {id : String} {repo : Repository} {g : GitRepository} {w : Repositories}
    (standing : Standing id repo g w) {commit : Sha} : IndexedAt id commit w ↔
      repo.lastIndexedCommit = some commit := by
  constructor
  · rintro ⟨row, found, indexed⟩
    rw [standing.1] at found
    cases found
    exact indexed
  · exact fun indexed => ⟨repo, standing.1, indexed⟩

section
variable {id other : String} {repo row : Repository} {g : GitRepository} {w : Repositories} {path : ClonePath}

section
variable (standing : Standing id repo g w)
include standing

theorem Standing.updateRow_self (f : Repository → Repository)
    (keeps : ∀ repo, (f repo).key = repo.key) : Standing id (f repo) g (w.updateRow id f keeps) := by
  refine ⟨?_, ?_⟩
  · show (w.rows.update _).get id = _
    rw [Lib.Table.get_update, standing.1]
    simp
  · have same := keeps repo
    have path : (f repo).clonePath = repo.clonePath := by
      rw [Repository.clonePath, Repository.clonePath, (Prod.mk.inj same).1, (Prod.mk.inj same).2]
    rw [path]
    exact standing.2

theorem Standing.updateStatus (status : RepositoryStatus) :
    Standing id { repo with status } g (w.updateStatus id status) :=
  standing.updateRow_self (fun repo => { repo with status }) (fun _ => rfl)

theorem Standing.updateLastIndexed (commit : Sha) :
    Standing id { repo with lastIndexedCommit := some commit } g (w.updateLastIndexed id commit) :=
  standing.updateRow_self (fun repo => { repo with lastIndexedCommit := some commit }) (fun _ => rfl)

theorem Standing.setClone (g' : GitRepository) : Standing id repo g' (w.setClone repo.clonePath g') :=
  ⟨standing.1, Function.update_self ..⟩

theorem Standing.updateRow_other (apart : other ≠ id) (f : Repository → Repository)
    (keeps : ∀ repo, (f repo).key = repo.key) : Standing id repo g (w.updateRow other f keeps) := by
  refine ⟨?_, standing.2⟩
  show (w.rows.update _).get id = _
  rw [Lib.Table.get_update, standing.1]
  simp [Ne.symm apart]

theorem Standing.setClone_other (apart : path ≠ repo.clonePath) (g' : GitRepository) :
    Standing id repo g (w.setClone path g') := by
  refine ⟨standing.1, ?_⟩
  show Function.update w.clones path (some g') repo.clonePath = some g
  rw [Function.update_of_ne (Ne.symm apart)]
  exact standing.2

theorem Standing.clonePath_ne (found : w.rows.get other = some row) (apart : other ≠ id) :
    row.clonePath ≠ repo.clonePath := by
  intro same
  have keys : row.key = repo.key := by
    cases row
    cases repo
    cases same
    rfl
  have equal := List.inj_on_of_nodup_map w.named (Lib.Table.get_eq_some.mp found)
      (Lib.Table.get_eq_some.mp standing.1) keys
  exact apart (congrArg Prod.fst equal)

end

end

section
variable (env : Surroundings) {id other : String} {repo : Repository} {g : GitRepository} {path : ClonePath}

theorem getRepository_yields (apart : other ≠ id) :
    Yields (Standing id repo g) (fun row => row.clonePath ≠ repo.clonePath) (getRepository other) := by
  intro w standing
  have ran : getRepository other w = ofOption (.databaseError "Repository not found") (w.rows.get other) w := rfl
  rw [ran]
  cases found : w.rows.get other with
  | none => exact ⟨standing, fun _ impossible => nomatch impossible⟩
  | some row =>
    refine ⟨standing, fun _ same => ?_⟩
    cases same
    exact standing.clonePath_ne found apart

theorem ofOption_fixes {α : Type} (e : CodeSearchError) (value : Option α) :
    Fixes (fun w : Repositories => w) (ofOption e value) := by
  cases value with
  | none => exact .fail e
  | some a => exact .pure a

theorem openRepository_fixes : Fixes (fun w : Repositories => w) (openRepository env path) :=
  Fixes.get.bind (fun _ => ofOption_fixes _ _)

theorem headCommit_fixes : Fixes (fun w : Repositories => w) (headCommit env path) :=
  (openRepository_fixes env).bind (fun _ => ofOption_fixes _ _)

theorem gitStep_keeps {wrap : String → String} {failure : Option String} {g' : GitRepository}
    (apart : path ≠ repo.clonePath) :
    Keeps (Standing id repo g) (gitStep wrap failure path g') := by
  cases failure with
  | none => exact fun w standing => standing.setClone_other apart g'
  | some e => exact Keeps.fail _

theorem doFetch_keeps {branch : String} (apart : path ≠ repo.clonePath) (attempt : Nat) :
    Keeps (Standing id repo g) (doFetch env path branch attempt) :=
  ((openRepository_fixes env).keeps _).bind fun _ => ((ofOption_fixes _ _).keeps _).bind fun _ =>
    (gitStep_keeps apart).bind fun _ => ((ofOption_fixes _ _).keeps _).bind fun _ => .pure _

theorem fetchUpdates_keeps (apart : other ≠ id) : Keeps (Standing id repo g) (fetchUpdates env other) := by
  refine ((getRepository_yields apart).bind (P := fun _ => True) fun row elsewhere => ?_).keeps
  refine Keeps.yields ?_
  split
  · exact .pure _
  · refine (Keeps.retry (doFetch_keeps env elsewhere) 0 3).bind fun fetched => ?_
    split
    · refine ((openRepository_fixes env).keeps _).bind fun _ => ?_
      split <;> exact .pure _
    · exact .pure _

theorem checkoutBranch_keeps {branch : String} (apart : path ≠ repo.clonePath) :
    Keeps (Standing id repo g) (checkoutBranch env path branch) :=
  ((openRepository_fixes env).keeps _).bind fun _ => ((ofOption_fixes _ _).keeps _).bind fun _ =>
    (gitStep_keeps apart).bind fun _ => gitStep_keeps apart

theorem updateStatus_keeps (apart : other ≠ id) (status : RepositoryStatus) :
    Keeps (Standing id repo g) (Eff.modify (Repositories.updateStatus other status) : Managed Unit) :=
  fun _ standing => standing.updateRow_other apart (fun repo => { repo with status }) (fun _ => rfl)

theorem updateLastIndexed_keeps (apart : other ≠ id) (commit : Sha) :
    Keeps (Standing id repo g) (Eff.modify (Repositories.updateLastIndexed other commit) : Managed Unit) :=
  fun _ standing => standing.updateRow_other apart (fun repo => { repo with lastIndexedCommit := some commit })
    (fun _ => rfl)

theorem runIndexing_keeps {name : String} {cmd : IndexCommand} (apart : other ≠ id) :
    Keeps (Standing id repo g) (runIndexing env other name cmd) := by
  unfold runIndexing
  split
  · exact .fail _
  · exact (updateStatus_keeps apart _).bind fun _ => .fail _
  · exact ((headCommit_fixes env).keeps _).bind fun _ => (updateLastIndexed_keeps apart _).bind fun _ =>
      updateStatus_keeps apart _

theorem indexBranch_keeps {row : Repository} {branch : String} {incremental : Bool} (apart : other ≠ id) :
    Keeps (Standing id repo g) (indexBranch env other row path branch incremental) := by
  refine (updateStatus_keeps apart _).bind fun _ => ?_
  split
  · refine ((headCommit_fixes env).keeps _).bind fun _ => ?_
    split
    · exact updateStatus_keeps apart _
    · exact runIndexing_keeps env apart
  · exact runIndexing_keeps env apart

theorem reindexRepository_keeps {principalId : String} {roles : List String} {branch : Option String}
    {incremental : Bool} (apart : other ≠ id) : Keeps (Standing id repo g)
      (reindexRepository env principalId roles other branch incremental) := by
  refine ((getRepository_yields apart).bind (P := fun _ => True) fun row elsewhere => ?_).keeps
  refine Keeps.yields ((Keeps.ofExcept _).bind fun allowed => ?_)
  split
  · exact .fail _
  split
  · exact .pure _
  split
  · exact ((ofOption_fixes _ _).keeps _).bind fun _ => indexBranch_keeps env apart
  · exact (checkoutBranch_keeps env elsewhere).bind fun _ => indexBranch_keeps env apart

theorem checkRepository_keeps {entry : String × Repository} (apart : entry.1 ≠ id) :
    Keeps (Standing id repo g) (checkRepository env entry) := by
  unfold checkRepository
  split
  · refine (fetchUpdates_keeps env apart).outcome.bind fun outcome => ?_
    split
    · exact reindexRepository_keeps env apart
    · exact .pure _
    · exact .pure _
  · exact .pure _

theorem checkRepository_never (entry : String × Repository) (w : Repositories) :
    (checkRepository env entry w).1 = .ok () := by
  unfold checkRepository
  split
  · have seen : ((fetchUpdates env entry.1).outcome : Managed _) w =
        (.ok (fetchUpdates env entry.1 w).1, (fetchUpdates env entry.1 w).2) := outcome_run _ w
    rw [bind_of_ok seen]
    generalize (fetchUpdates env entry.1 w).1 = outcome
    rcases outcome with _ | _ | _ <;> rfl
  · rfl

end

structure Succeeds (env : Surroundings) (repo : Repository) (g : GitRepository) (tip : Sha) : Prop where
  origin : ∃ url, g.origin = some url ∧ env.remote url repo.currentBranch = some tip
  fetches : ∃ attempt ≤ 3, env.fetchFails repo.clonePath attempt = none
  checksOut : env.checkoutFails repo.clonePath repo.currentBranch = none
  setsHead : env.setHeadFails repo.clonePath repo.currentBranch = none
  indexes : ∀ fromCommit, ∃ stderr, env.codesearch ⟨repo.clonePath, repo.currentBranch, fromCommit⟩ =
    .exited true stderr

section
variable {env : Surroundings} {id : String} {repo : Repository} {g : GitRepository} {w : Repositories} {tip : Sha}

theorem Standing.getRepository_run (standing : Standing id repo g w) : getRepository id w = (.ok repo, w) := by
  show (ofOption (.databaseError "Repository not found") (w.rows.get id) : Managed Repository) w = _
  rw [standing.1]
  rfl

theorem Standing.openRepository_run (standing : Standing id repo g w) :
    openRepository env repo.clonePath w = (.ok g, w) := by
  show (ofOption (.gitError (env.message .openRepository)) (w.clones repo.clonePath) : Managed GitRepository) w =
    _
  rw [standing.2]
  rfl

variable {commit : Sha}

section
variable (standing : Standing id repo g w)
include standing

theorem Standing.headCommit_run (target : g.headTarget = some commit) :
    headCommit env repo.clonePath w = (.ok commit, w) := by
  unfold headCommit
  rw [bind_of_ok standing.openRepository_run, target]
  rfl

theorem Standing.headCommit_unborn (unborn : g.headTarget = none) :
    headCommit env repo.clonePath w = (.error (.gitError (env.message .head)), w) := by
  unfold headCommit
  rw [bind_of_ok standing.openRepository_run, unborn]
  rfl

theorem doFetch_run (origin : ∃ url, g.origin = some url ∧ env.remote url repo.currentBranch = some tip) (attempt : Nat) :
    doFetch env repo.clonePath repo.currentBranch attempt w =
      match env.fetchFails repo.clonePath attempt with
      | some e => (.error (.gitError ("Fetch failed: " ++ e)), w)
      | none => (.ok (some tip), w.setClone repo.clonePath (g.fetch repo.currentBranch (some tip))) := by
  obtain ⟨url, named, tipped⟩ := origin
  unfold doFetch
  have known : (ofOption (.gitError (env.message .findRemote)) (some url) : Managed String) w = (.ok url, w) :=
    rfl
  rw [bind_of_ok standing.openRepository_run, named, bind_of_ok known, tipped]
  cases env.fetchFails repo.clonePath attempt <;> rfl

theorem fetchUpdates_run (cloned : repo.type ≠ .local) (succeeds : Succeeds env repo g tip) :
    fetchUpdates env id w = (.ok (if g.headTarget = some tip then none else some tip),
      w.setClone repo.clonePath (g.fetch repo.currentBranch (some tip))) := by
  obtain ⟨attempt, within, succeeded⟩ := succeeds.fetches
  have attempts := doFetch_run standing succeeds.origin
  have fetched : retry (doFetch env repo.clonePath repo.currentBranch) 0 3 w =
      (.ok (some tip), w.setClone repo.clonePath (g.fetch repo.currentBranch (some tip))) := by
    refine retry_ok (k := attempt) (fun n => ?_) (Nat.zero_le _) (by omega) ?_
    · rw [attempts n]
      cases env.fetchFails repo.clonePath n with
      | none => exact .inl rfl
      | some e => exact .inr ⟨_, rfl⟩
    · rw [attempts attempt, succeeded]
  have after := standing.setClone (g.fetch repo.currentBranch (some tip))
  unfold fetchUpdates
  rw [bind_of_ok standing.getRepository_run, if_neg cloned, bind_of_ok fetched]
  show (openRepository env repo.clonePath >>= _) _ = _
  rw [bind_of_ok after.openRepository_run]
  show (if g.headTarget = some tip then _ else _ : Managed (Option Sha)) _ = _
  split <;> rfl

theorem checkoutBranch_run (succeeds : Succeeds env repo g tip) {obj : Sha}
    (resolved : g.revparseSingle repo.currentBranch = some obj) :
    ∃ next, checkoutBranch env repo.clonePath repo.currentBranch w = (.ok (), next) ∧
      Standing id repo ((g.checkoutTree obj).setHead repo.currentBranch) next := by
  refine ⟨_, ?_, (standing.setClone (g.checkoutTree obj)).setClone ((g.checkoutTree obj).setHead repo.currentBranch)⟩
  unfold checkoutBranch
  rw [bind_of_ok standing.openRepository_run, resolved, succeeds.checksOut, succeeds.setsHead]
  rfl

theorem runIndexing_stands {cmd : IndexCommand}
    (here : cmd.path = repo.clonePath) (exits : ∃ stderr, env.codesearch cmd = .exited true stderr)
    {name : String} (target : g.headTarget = some commit) :
    Standing id { repo with lastIndexedCommit := some commit, status := .ready } g
      (runIndexing env id name cmd w).2 := by
  obtain ⟨stderr, exits⟩ := exits
  unfold runIndexing
  rw [exits, here]
  show Standing _ _ _ ((headCommit env repo.clonePath >>= _) w).2
  rw [bind_of_ok (standing.headCommit_run target)]
  exact (standing.updateLastIndexed commit).updateStatus .ready

theorem runIndexing_unborn {cmd : IndexCommand} (here : cmd.path = repo.clonePath)
    (exits : ∃ stderr, env.codesearch cmd = .exited true stderr) {name : String} (unborn : g.headTarget = none) :
    (runIndexing env id name cmd w).2 = w := by
  obtain ⟨stderr, exits⟩ := exits
  unfold runIndexing
  rw [exits, here]
  show ((headCommit env repo.clonePath >>= _) w).2 = w
  rw [bind_of_error (standing.headCommit_unborn unborn)]

theorem indexBranch_stands (exits : ∀ fromCommit, ∃ stderr, env.codesearch ⟨repo.clonePath, repo.currentBranch, fromCommit⟩ =
    .exited true stderr) (target : g.headTarget = some commit) :
    Standing id { repo with lastIndexedCommit := some commit, status := .ready } g
      (indexBranch env id repo repo.clonePath repo.currentBranch true w).2 := by
  have indexing := standing.updateStatus .indexing
  have marked : (Eff.modify (Repositories.updateStatus id .indexing) : Managed Unit) w =
      (.ok (), w.updateStatus id .indexing) := rfl
  unfold indexBranch
  rw [bind_of_ok marked]
  cases last : repo.lastIndexedCommit with
  | none => exact runIndexing_stands indexing rfl (exits _) target
  | some lastCommit =>
    have headed : headCommit env repo.clonePath (w.updateStatus id .indexing) =
        (.ok commit, w.updateStatus id .indexing) :=
      indexing.headCommit_run target
    show Standing _ _ _ ((headCommit env repo.clonePath >>= _) _).2
    rw [bind_of_ok headed]
    split
    · rename_i same
      have done := indexing.updateStatus .ready
      rw [same, ← last]
      exact done
    · exact runIndexing_stands indexing rfl (exits _) target

theorem indexBranch_unborn (exits : ∀ fromCommit, ∃ stderr, env.codesearch ⟨repo.clonePath, repo.currentBranch, fromCommit⟩ =
      .exited true stderr)
    (unborn : g.headTarget = none) :
    (indexBranch env id repo repo.clonePath repo.currentBranch true w).2 = w.updateStatus id .indexing := by
  have indexing := standing.updateStatus .indexing
  have marked : (Eff.modify (Repositories.updateStatus id .indexing) : Managed Unit) w =
      (.ok (), w.updateStatus id .indexing) := rfl
  unfold indexBranch
  rw [bind_of_ok marked]
  cases repo.lastIndexedCommit with
  | none => exact runIndexing_unborn indexing rfl (exits _) unborn
  | some lastCommit =>
    have headless : headCommit env repo.clonePath (w.updateStatus id .indexing) =
        (.error _, w.updateStatus id .indexing) :=
      indexing.headCommit_unborn unborn
    show ((headCommit env repo.clonePath >>= _) _).2 = _
    rw [bind_of_error headless]

end

def Permits (env : Surroundings) (principalId : String) (id : String) (repo : Repository) : Prop :=
  env.evaluateRequest ⟨principalId, ["lead"], repo.tenantId⟩ "IndexRepository" id repo = .ok true

variable {principalId : String} {branch : Option String}

theorem reindexRepository_cases (env : Surroundings) (principalId : String) (standing : Standing id repo g w)
    (cloned : repo.type ≠ .local) (ready : repo.status ≠ .indexing)
    (current : branch.getD repo.currentBranch = repo.currentBranch) :
    (¬ Permits env principalId id repo ∧ (reindexRepository env principalId ["lead"] id branch true w).2 = w) ∨
    (Permits env principalId id repo ∧ reindexRepository env principalId ["lead"] id branch true w =
      (checkoutBranch env repo.clonePath repo.currentBranch >>=
        fun _ => indexBranch env id repo repo.clonePath repo.currentBranch true) w) := by
  unfold reindexRepository Permits
  rw [bind_of_ok standing.getRepository_run, current]
  rcases decision : env.evaluateRequest
    ⟨principalId, ["lead"], repo.tenantId⟩ "IndexRepository" id repo with e | _ | _
  · exact .inl ⟨fun permits => (nomatch permits), rfl⟩
  · exact .inl ⟨fun permits => (nomatch permits), rfl⟩
  · refine .inr ⟨rfl, ?_⟩
    have allowed : (Eff.ofExcept (.ok true) : Managed Bool) w = (.ok true, w) := rfl
    rw [bind_of_ok allowed, if_neg (by decide), if_neg ready, if_neg cloned]

section
variable (standing : Standing id repo g w) (cloned : repo.type ≠ .local) (ready : repo.status ≠ .indexing)
  (current : branch.getD repo.currentBranch = repo.currentBranch) (succeeds : Succeeds env repo g tip)
include standing cloned ready current succeeds

theorem reindexRepository_stands (permits : Permits env principalId id repo)
    (own : g.branches repo.currentBranch = some commit) :
    Standing id { repo with lastIndexedCommit := some commit, status := .ready }
      ((g.checkoutTree commit).setHead repo.currentBranch)
        (reindexRepository env principalId ["lead"] id branch true w).2 := by
  have resolved : g.revparseSingle repo.currentBranch = some commit := by rw [GitRepository.revparseSingle, own]; rfl
  obtain ⟨next, ran, after⟩ := checkoutBranch_run standing succeeds resolved
  obtain ⟨denied, _⟩ | ⟨_, reindexed⟩ :=
    reindexRepository_cases env principalId standing cloned ready current
  · exact absurd permits denied
  rw [reindexed, bind_of_ok ran]
  exact indexBranch_stands after succeeds.indexes own

theorem reindexRepository_stays (barred : ¬ (Permits env principalId id repo ∧ g.branches repo.currentBranch ≠ none)) :
    Stands (fun row _ => row.key = repo.key ∧ row.lastIndexedCommit = repo.lastIndexedCommit) id
      (reindexRepository env principalId ["lead"] id branch true w).2 := by
  obtain ⟨_, same⟩ | ⟨permits, reindexed⟩ :=
    reindexRepository_cases env principalId standing cloned ready current
  · rw [same]
    exact ⟨repo, g, standing, rfl, rfl⟩
  have missing : g.branches repo.currentBranch = none :=
    Classical.byContradiction (fun here => barred ⟨permits, here⟩)
  rw [reindexed]
  cases resolved : g.revparseSingle repo.currentBranch with
  | none =>
    unfold checkoutBranch
    rw [Eff.bind_assoc, bind_of_ok standing.openRepository_run, resolved]
    exact ⟨repo, g, standing, rfl, rfl⟩
  | some obj =>
    obtain ⟨next, ran, after⟩ := checkoutBranch_run standing succeeds resolved
    rw [bind_of_ok ran, indexBranch_unborn after succeeds.indexes missing]
    exact ⟨_, _, after.updateStatus .indexing, rfl, rfl⟩

end

end

end Aeterna.CodeSearch
