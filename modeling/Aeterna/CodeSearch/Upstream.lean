import Aeterna.CodeSearch.Indexing

namespace Aeterna.CodeSearch
open Lib (Eff JsonValue)
open Lib.Eff List

inductive Call where
  | poll
  | push (tenantId provider : String) (payload : JsonValue)

namespace Call

def run (env : Surroundings) : Call → Managed Unit
  | poll => checkAllRepositories env
  | push tenantId provider payload => handleWebhookEvent env tenantId provider payload

def principalId : Call → String
  | poll => systemUserId
  | push _ _ _ => "webhook-agent"

def cloneUrl (payload : JsonValue) : Option String := ((payload.get "repository").get "clone_url").asStr

def Covers (repo : Repository) : Call → Prop
  | poll => repo.syncStrategy = .job
  | push tenantId provider payload =>
    repo.syncStrategy = .hook ∧ tenantId = repo.tenantId ∧ provider = providerGithub ∧
      (∃ url, cloneUrl payload = some url ∧ (repo.remoteUrl = some url ∨ repo.remoteUrl = some (url ++ ".git"))) ∧
      ∃ refStr, (payload.get "ref").asStr = some refStr ∧ stripped "refs/heads/" refStr = repo.currentBranch

def Finds (w : Repositories) (id : String) : Call → Prop
  | poll => True
  | push tenantId _ payload => ∀ url, cloneUrl payload = some url → ∃ row,
      w.getRepositoryByUrl tenantId url = some (id, row)

/-- The call goes on to index the local branch: a poll does where `HEAD` is not at the head of the remote. -/
structure Reindexes (env : Surroundings) (w : Repositories) (id : String) (repo : Repository)
    (g : GitRepository) (tip : Sha)
    (call : Call) : Prop where
  behind : call = poll → g.headTarget ≠ some tip
  finds : call.Finds w id
  permits : Permits env call.principalId id repo
  branches : g.branches repo.currentBranch ≠ none

end Call

section
variable {env : Surroundings} {id : String} {repo : Repository} {g : GitRepository} {w : Repositories} {tip : Sha}

variable {Q : Repository → GitRepository → Prop} {entry : String × Repository}

theorem Stands.checkRepository_other (apart : entry.1 ≠ id) : Keeps (Stands Q id) (checkRepository env entry) :=
  fun w ⟨row, clone, standing, holds⟩ => ⟨row, clone, checkRepository_keeps env apart w standing, holds⟩

theorem Standing.listed (standing : Standing id repo g w) {tenantId : String}
    (member : entry ∈ w.listRepositories tenantId) : entry.2.tenantId = tenantId ∧
      (entry.1 = id → entry = (id, repo)) := by
  obtain ⟨inside, tenant⟩ := mem_filter.mp member
  refine ⟨by simpa using tenant, fun same => ?_⟩
  have found := Lib.Table.get_eq_some.mpr inside
  rw [same, standing.1] at found
  obtain ⟨key, row⟩ := entry
  cases same
  cases found
  rfl

theorem checkAllRepositories_stands (standing : Standing id repo g w)
    (tenant : ∀ row clone, Q row clone → row.tenantId = repo.tenantId)
    (here : ∀ w, Standing id repo g w → Stands Q id (checkRepository env (id, repo) w).2) :
    Stands Q id (checkAllRepositories env w).2 := by
  have never : ∀ tenantId w, (checkTenant env tenantId w).1 = .ok () :=
    fun tenantId w => forEach_never (checkRepository_never env) _ w
  have own : ∀ w, Standing id repo g w → Stands Q id (checkTenant env repo.tenantId w).2 := by
    intro w standing
    have rows : w.rows.rows.Nodup := Nodup.of_map _ w.rows.unique
    have listed : (id, repo) ∈ w.listRepositories repo.tenantId :=
      mem_filter.mpr ⟨Lib.Table.get_eq_some.mp standing.1, by simp⟩
    have apart : ∀ entry ∈ w.listRepositories repo.tenantId, entry ≠ (id, repo) → entry.1 ≠ id :=
      fun entry inside other same => other ((standing.listed inside).2 same)
    exact forEach_lone (I := Standing id repo g) (J := Stands Q id)
      (rows.filter _) listed (checkRepository_never env)
      (fun entry inside other => checkRepository_keeps env (apart entry inside other)) here
      (fun entry inside other => Stands.checkRepository_other (apart entry inside other)) standing
  have before : ∀ tenantId ∈ w.tenantIds, tenantId ≠ repo.tenantId → Keeps (Standing id repo g)
      (checkTenant env tenantId) := by
    intro tenantId _ elsewhere w standing
    refine Keeps.forEach (I := Standing id repo g) (fun entry inside => ?_) w standing
    obtain ⟨tenant, only⟩ := standing.listed inside
    refine checkRepository_keeps env (fun same => elsewhere ?_)
    rw [← tenant, only same]
  have after : ∀ tenantId ∈ w.tenantIds, tenantId ≠ repo.tenantId → Keeps (Stands Q id)
      (checkTenant env tenantId) := by
    rintro tenantId _ elsewhere w ⟨row, clone, standing, holds⟩
    refine Keeps.forEach (I := Stands Q id) (fun entry inside => ?_) w ⟨row, clone, standing, holds⟩
    obtain ⟨same, only⟩ := standing.listed inside
    refine Stands.checkRepository_other (fun equal => elsewhere ?_)
    rw [← same, only equal]
    exact tenant row clone holds
  have member : repo.tenantId ∈ w.tenantIds :=
    mem_dedup.mpr (mem_map.mpr ⟨_, Lib.Table.get_eq_some.mp standing.1, rfl⟩)
  exact forEach_lone (nodup_dedup _) member never before own after standing

theorem checkRepository_fetched {after : Repositories} {fetched : Option Sha} (job : repo.syncStrategy = .job)
    (ready : repo.status = .ready) (ran : fetchUpdates env id w = (.ok fetched, after)) :
    (checkRepository env (id, repo) w).2 =
      if fetched.isSome then (reindexRepository env systemUserId ["lead"] id none true after).2 else after := by
  have seen : ((fetchUpdates env id).outcome : Managed _) w = (.ok (.ok fetched), after) :=
    by rw [outcome_run, ran]
  unfold checkRepository
  rw [if_pos ⟨job, ready⟩]
  show ((Eff.outcome _ >>= _) _).2 = _
  rw [bind_of_ok seen]
  cases fetched <;> rfl

theorem handleWebhookEvent_found {tenantId provider url refStr : String} {payload : JsonValue} {after : Repositories}
    {fetched : Option Sha} (hook : repo.syncStrategy = .hook) (github : provider = providerGithub)
    (named : Call.cloneUrl payload = some url) (ref : (payload.get "ref").asStr = some refStr)
    (branch : stripped "refs/heads/" refStr = repo.currentBranch)
      (found : w.getRepositoryByUrl tenantId url = some (id, repo))
    (ran : fetchUpdates env id w = (.ok fetched, after)) :
    (handleWebhookEvent env tenantId provider payload w).2 =
      (reindexRepository env "webhook-agent" ["lead"] id (some repo.currentBranch) true after).2 := by
  have first : (ofOption (.gitError "Missing clone_url in GitHub payload")
      (Call.cloneUrl payload) : Managed String) w =
      (.ok url, w) := by rw [named]; rfl
  have second : (ofOption (.gitError "Missing ref in GitHub payload")
      (payload.get "ref").asStr : Managed String) w =
      (.ok refStr, w) := by rw [ref]; rfl
  unfold handleWebhookEvent
  rw [if_pos github]
  show ((ofOption _ (Call.cloneUrl payload) >>= _) w).2 = _
  rw [bind_of_ok first, bind_of_ok second, bind_of_ok (get_run w)]
  simp only [found, branch, hook, true_and, if_true]
  rw [bind_of_ok ran]

theorem handleWebhookEvent_cases (env : Surroundings) (w : Repositories) (tenantId provider : String)
    (payload : JsonValue) :
    (handleWebhookEvent env tenantId provider payload w).2 = w ∨ ∃ url other row, Call.cloneUrl payload = some url ∧
      w.getRepositoryByUrl tenantId url = some (other, row) ∧ (handleWebhookEvent env tenantId provider payload w).2 =
        ((fetchUpdates env other >>=
          fun _ => reindexRepository env "webhook-agent" ["lead"] other (some row.currentBranch) true) w).2 := by
  unfold handleWebhookEvent
  split
  swap
  · exact .inl rfl
  show ((ofOption _ (Call.cloneUrl payload) >>= _) w).2 = w ∨ ∃ url other row, _ ∧ _ ∧
    ((ofOption _ (Call.cloneUrl payload) >>= _) w).2 = _
  cases named : Call.cloneUrl payload with
  | none => exact .inl rfl
  | some url =>
    have first (e : CodeSearchError) : (ofOption e (some url) : Managed String) w = (.ok url, w) := rfl
    rw [bind_of_ok (first _)]
    cases (payload.get "ref").asStr with
    | none => exact .inl rfl
    | some refStr =>
      have second (e : CodeSearchError) : (ofOption e (some refStr) : Managed String) w = (.ok refStr, w) := rfl
      rw [bind_of_ok (second _), bind_of_ok (get_run w)]
      cases found : w.getRepositoryByUrl tenantId url with
      | none => exact .inl rfl
      | some entry =>
        obtain ⟨other, row⟩ := entry
        dsimp only
        split
        · rename_i due
          exact .inr ⟨url, other, row, rfl, found, by rw [due.2]⟩
        · exact .inl rfl

def Recorded (repo : Repository) (commit : Option Sha) (row : Repository) (_ : GitRepository) : Prop :=
  row.key = repo.key ∧ row.lastIndexedCommit = commit

theorem reindexRepository_fetched {principalId : String} {branch : Option String} {commit : Option Sha}
    (standing : Standing id repo g w) (cloned : repo.type ≠ .local) (ready : repo.status = .ready)
    (current : branch.getD repo.currentBranch = repo.currentBranch) (succeeds : Succeeds env repo g tip)
    (recorded : Permits env principalId id repo ∧ g.branches repo.currentBranch ≠ none ∧
      commit = g.branches repo.currentBranch ∨
      ¬ (Permits env principalId id repo ∧ g.branches repo.currentBranch ≠ none) ∧ commit = repo.lastIndexedCommit) :
    Stands (Recorded repo commit) id (reindexRepository env principalId ["lead"] id branch true
      (w.setClone repo.clonePath (g.fetch repo.currentBranch (some tip)))).2 := by
  have fetched := standing.setClone (g.fetch repo.currentBranch (some tip))
  have again : Succeeds env repo (g.fetch repo.currentBranch (some tip)) tip :=
    { succeeds with origin := succeeds.origin }
  have calm : repo.status ≠ .indexing := by rw [ready]; decide
  obtain ⟨permits, here, rfl⟩ | ⟨barred, rfl⟩ := recorded
  · obtain ⟨own, found⟩ := Option.ne_none_iff_exists'.mp here
    rw [found]
    exact ⟨_, _, reindexRepository_stands fetched cloned calm current again permits found, rfl, rfl⟩
  · exact reindexRepository_stays fetched cloned calm current again barred

theorem Call.run_records {call : Call} {commit : Option Sha} (standing : Standing id repo g w)
    (cloned : repo.type ≠ .local)
    (ready : repo.status = .ready) (covers : call.Covers repo) (succeeds : Succeeds env repo g tip)
    (recorded : call.Reindexes env w id repo g tip ∧ commit = g.branches repo.currentBranch ∨
      ¬ call.Reindexes env w id repo g tip ∧ commit = repo.lastIndexedCommit) :
    Stands (Recorded repo commit) id (call.run env w).2 := by
  cases call with
  | poll =>
    refine checkAllRepositories_stands standing (fun row _ same => (Prod.mk.inj same.1).1) (fun w standing => ?_)
    rw [checkRepository_fetched covers ready (fetchUpdates_run standing cloned succeeds)]
    by_cases current : g.headTarget = some tip
    · rw [if_pos current]
      obtain ⟨reindexes, _⟩ | ⟨_, rfl⟩ := recorded
      · exact absurd current (reindexes.behind rfl)
      · exact ⟨repo, _, standing.setClone _, rfl, rfl⟩
    · rw [if_neg current]
      refine reindexRepository_fetched standing cloned ready rfl succeeds ?_
      obtain ⟨reindexes, same⟩ | ⟨idle, same⟩ := recorded
      · exact .inl ⟨reindexes.permits, reindexes.branches, same⟩
      · exact .inr ⟨fun both => idle ⟨fun _ => current, trivial, both.1, both.2⟩, same⟩
  | push tenantId provider payload =>
    obtain ⟨hook, rfl, github, ⟨url, named, _⟩, refStr, ref, branch⟩ := covers
    by_cases finds : (Call.push repo.tenantId provider payload).Finds w id
    · obtain ⟨row, found⟩ := finds url named
      have same := Lib.Table.get_eq_some.mpr (mem_of_find?_eq_some found)
      rw [standing.1] at same
      cases same
      have ran := fetchUpdates_run standing cloned succeeds
      show Stands _ _ (handleWebhookEvent env repo.tenantId provider payload w).2
      rw [handleWebhookEvent_found hook github named ref branch found ran]
      refine reindexRepository_fetched standing cloned ready rfl succeeds ?_
      obtain ⟨reindexes, same⟩ | ⟨idle, same⟩ := recorded
      · exact .inl ⟨reindexes.permits, reindexes.branches, same⟩
      · exact .inr ⟨fun both => idle ⟨fun impossible => (nomatch impossible), finds, both.1, both.2⟩, same⟩
    · obtain ⟨reindexes, _⟩ | ⟨_, rfl⟩ := recorded
      · exact absurd reindexes.finds finds
      show Stands _ _ (handleWebhookEvent env repo.tenantId provider payload w).2
      obtain same | ⟨url', other, row, named', found, same⟩ :=
          handleWebhookEvent_cases env w repo.tenantId provider payload
      · rw [same]
        exact ⟨repo, g, standing, rfl, rfl⟩
      · have apart : other ≠ id := by
          rintro rfl
          refine finds (fun url'' again => ⟨row, ?_⟩)
          rw [named'] at again
          cases again
          exact found
        rw [same]
        refine ⟨repo, g, ?_, rfl, rfl⟩
        exact ((fetchUpdates_keeps env apart).bind fun _ => reindexRepository_keeps env apart) w standing

/-- The local branch is at the head of the remote where the call reindexes it, and the record is where the
call does not. -/
def Call.CatchesUp (env : Surroundings) (w : Repositories) (id : String) (repo : Repository) (g : GitRepository)
    (tip : Sha) (call : Call) : Prop :=
  call.Reindexes env w id repo g tip ∧ g.branches repo.currentBranch = some tip ∨
    ¬ call.Reindexes env w id repo g tip ∧ repo.lastIndexedCommit = some tip

theorem Call.run_indexes_iff {call : Call} (standing : Standing id repo g w) (cloned : repo.type ≠ .local)
    (ready : repo.status = .ready) (covers : call.Covers repo) (succeeds : Succeeds env repo g tip) :
    IndexedAt id tip (call.run env w).2 ↔ call.CatchesUp env w id repo g tip := by
  unfold Call.CatchesUp
  by_cases reindexes : call.Reindexes env w id repo g tip
  · obtain ⟨row, _, after, _, same⟩ := Call.run_records standing cloned ready covers succeeds (.inl ⟨reindexes, rfl⟩)
    rw [after.indexedAt_iff, same]
    simp [reindexes]
  · obtain ⟨row, _, after, _, same⟩ := Call.run_records standing cloned ready covers succeeds (.inr ⟨reindexes, rfl⟩)
    rw [after.indexedAt_iff, same]
    simp [reindexes]

structure Settled (repo : Repository) (own : Sha) (row : Repository) (g : GitRepository) : Prop where
  cloned : row.type ≠ .local
  path : row.clonePath = repo.clonePath
  branch : row.currentBranch = repo.currentBranch
  indexed : row.lastIndexedCommit = some own
  head : g.head = .branch repo.currentBranch
  branches : g.branches repo.currentBranch = some own

/-- A clone as a settled row has it. -/
def Holds (repo : Repository) (own : Sha) (g : GitRepository) : Prop :=
  g.head = .branch repo.currentBranch ∧ g.branches repo.currentBranch = some own

variable {own : Sha} {path : ClonePath}

theorem Holds.headTarget (holds : Holds repo own g) : g.headTarget = some own := by
  rw [GitRepository.headTarget, holds.1]
  exact holds.2

theorem settled_getRepository :
    Yields (Stands (Settled repo own) id) (fun row => ∃ g, Settled repo own row g) (getRepository id) := by
  rintro w ⟨row, g, standing, settled⟩
  rw [standing.getRepository_run]
  refine ⟨⟨row, g, standing, settled⟩, fun _ same => ?_⟩
  cases same
  exact ⟨g, settled⟩

theorem settled_openRepository :
    Yields (Stands (Settled repo own) id) (Holds repo own) (openRepository env repo.clonePath) := by
  rintro w ⟨row, g, standing, settled⟩
  have ran : openRepository env row.clonePath w = (.ok g, w) := standing.openRepository_run
  rw [settled.path] at ran
  rw [ran]
  refine ⟨⟨row, g, standing, settled⟩, fun _ same => ?_⟩
  cases same
  exact ⟨settled.head, settled.branches⟩

theorem settled_gitStep {wrap : String → String} {failure : Option String} (holds : Holds repo own g) :
    Keeps (Stands (Settled repo own) id) (gitStep wrap failure repo.clonePath g) := by
  cases failure with
  | some e => exact Keeps.fail _
  | none =>
    rintro w ⟨row, old, standing, settled⟩
    have after := standing.setClone g
    rw [settled.path] at after
    exact ⟨row, g, after, { settled with head := holds.1, branches := holds.2 }⟩

theorem settled_updateStatus (status : RepositoryStatus) :
    Keeps (Stands (Settled repo own) id) (Eff.modify (Repositories.updateStatus id status) : Managed Unit) := by
  rintro w ⟨row, g, standing, settled⟩
  exact ⟨_, g, standing.updateStatus status, { settled with }⟩

theorem settled_ofOption {α : Type} {I : Repositories → Prop} {e : CodeSearchError} {value : Option α} {P : α → Prop}
    (each : ∀ a, value = some a → P a) : Yields I P (ofOption e value) := by
  cases value with
  | none => exact .fail e
  | some a => exact .pure (each a rfl)

theorem settled_headCommit :
    Yields (Stands (Settled repo own) id) (fun commit => commit = own) (headCommit env repo.clonePath) := by
  refine settled_openRepository.bind (fun g holds => settled_ofOption (fun commit target => ?_))
  rw [holds.headTarget] at target
  exact (Option.some.inj target).symm

theorem settled_fetchUpdates : Keeps (Stands (Settled repo own) id) (fetchUpdates env id) := by
  refine (settled_getRepository.bind (P := fun _ => True) ?_).keeps
  rintro row ⟨clone, settled⟩
  refine Keeps.yields ?_
  rw [settled.path]
  split
  · exact .pure _
  · have attempts : ∀ n, Keeps (Stands (Settled repo own) id)
        (doFetch env repo.clonePath row.currentBranch n) := by
      intro n
      refine (settled_openRepository.bind (P := fun _ => True) (fun g holds => Keeps.yields ?_)).keeps
      have stays : ∀ tip, Holds repo own (g.fetch row.currentBranch tip) := fun _ => holds
      exact ((ofOption_fixes _ _).keeps _).bind fun _ => (settled_gitStep (stays _)).bind fun _ =>
        ((ofOption_fixes _ _).keeps _).bind fun _ => .pure _
    refine (Keeps.retry attempts 0 3).bind fun fetched => ?_
    split
    · refine ((openRepository_fixes env).keeps _).bind fun _ => ?_
      split <;> exact .pure _
    · exact .pure _

theorem settled_reindexRepository {principalId : String} {branch : Option String}
    (current : branch.getD repo.currentBranch = repo.currentBranch) :
    Keeps (Stands (Settled repo own) id) (reindexRepository env principalId ["lead"] id branch true) := by
  refine (settled_getRepository.bind (P := fun _ => True) ?_).keeps
  rintro row ⟨clone, settled⟩
  refine Keeps.yields ((Keeps.ofExcept _).bind fun allowed => ?_)
  split
  · exact .fail _
  split
  · exact .pure _
  rw [if_neg settled.cloned, settled.path, settled.branch, current]
  refine Keeps.bind ?_ (fun _ => ?_)
  · refine (settled_openRepository.bind (P := fun _ => True) (fun g holds => Keeps.yields ?_)).keeps
    have stays : ∀ obj, Holds repo own (g.checkoutTree obj) := fun _ => holds
    have moves : ∀ obj, Holds repo own ((g.checkoutTree obj).setHead repo.currentBranch) := fun _ => ⟨rfl, holds.2⟩
    exact ((ofOption_fixes _ _).keeps _).bind fun _ => (settled_gitStep (stays _)).bind fun _ =>
      settled_gitStep (moves _)
  · unfold indexBranch
    refine (settled_updateStatus _).bind fun _ => ?_
    rw [settled.indexed]
    refine (settled_headCommit.bind (P := fun _ => True) ?_).keeps
    rintro commit rfl
    refine Keeps.yields ?_
    rw [if_pos rfl]
    exact settled_updateStatus _

theorem settled_checkRepository (entry : String × Repository) :
    Keeps (Stands (Settled repo own) id) (checkRepository env entry) := by
  by_cases here : entry.1 = id
  · subst here
    unfold checkRepository
    split
    · refine settled_fetchUpdates.outcome.bind fun outcome => ?_
      split
      · exact settled_reindexRepository rfl
      · exact .pure _
      · exact .pure _
    · exact .pure _
  · exact Stands.checkRepository_other here

theorem settled_run (call : Call) : Keeps (Stands (Settled repo own) id) (call.run env) := by
  cases call with
  | poll => exact Keeps.get.bind fun _ => .forEach fun _ _ => Keeps.get.bind fun _ => .forEach fun _ _ =>
      settled_checkRepository _
  | push tenantId provider payload =>
    intro w stands
    show Stands _ _ (handleWebhookEvent env tenantId provider payload w).2
    obtain same | ⟨url, other, row, _, found, same⟩ := handleWebhookEvent_cases env w tenantId provider payload
    · rw [same]
      exact stands
    rw [same]
    by_cases here : other = id
    · subst here
      obtain ⟨held, g, standing, settled⟩ := stands
      have row_eq := Lib.Table.get_eq_some.mpr (mem_of_find?_eq_some found)
      rw [standing.1] at row_eq
      cases row_eq
      have current : (some row.currentBranch).getD repo.currentBranch = repo.currentBranch := settled.branch
      exact (settled_fetchUpdates.bind fun _ => settled_reindexRepository current) w ⟨row, g, standing, settled⟩
    · obtain ⟨held, g, standing, settled⟩ := stands
      refine ⟨held, g, ?_, settled⟩
      exact ((fetchUpdates_keeps env here).bind fun _ => reindexRepository_keeps env here) w standing

def afterCalls (history : List (Surroundings × Call)) (w : Repositories) : Repositories :=
  history.foldl (fun w step => (step.2.run step.1 w).2) w

theorem settled_afterCalls (history : List (Surroundings × Call)) (stands : Stands (Settled repo own) id w) :
    Stands (Settled repo own) id (afterCalls history w) := by
  induction history generalizing w with
  | nil => exact stands
  | cons step rest ih => exact ih (settled_run step.2 w stands)

/-- A call for a repository leaves it indexed at the head of its remote exactly if the local branch is there
already, where the call indexes that branch, and the record is, where it does not. So once a clone is indexed,
no run of calls gets it to another commit. -/
theorem upstream_indexed_iff {call : Call} (standing : Standing id repo g w) (cloned : repo.type ≠ .local)
    (ready : repo.status = .ready) (covers : call.Covers repo) (succeeds : Succeeds env repo g tip) :
    (IndexedAt id tip (call.run env w).2 ↔ call.CatchesUp env w id repo g tip) ∧
    ∀ own, Settled repo own repo g → ∀ history head, IndexedAt id head (afterCalls history w) ↔ head = own := by
  refine ⟨call.run_indexes_iff standing cloned ready covers succeeds, fun own settled history head => ?_⟩
  obtain ⟨row, clone, after, settled⟩ := settled_afterCalls history ⟨repo, g, standing, settled⟩
  rw [after.indexedAt_iff, settled.indexed, Option.some_inj]
  exact eq_comm

end

def polledRow : Repository :=
  { tenantId := "acme", name := "api", remoteUrl := some "https://git/api", syncStrategy := .job, status := .ready,
    lastIndexedCommit := some "c1" }

def polledClone : GitRepository :=
  { origin := some "https://git/api", head := .branch "main", branches := fun name => if name = "main" then some "c1" else none }

def polled : Repositories where
  rows := ({} : Lib.Table String Repository).insert "r1" polledRow rfl
  named := nodup_singleton _
  clones := fun path => if path = polledRow.clonePath then some polledClone else none

/-- Surroundings in which everything succeeds and the branches of the remote are at `tip`. -/
def calm (tip : Sha) : Surroundings where
  remote := fun _ _ => some tip
  fetchFails := fun _ _ => none
  checkoutFails := fun _ _ => none
  setHeadFails := fun _ _ => none
  codesearch := fun _ => .exited true ""
  evaluateRequest := fun _ _ _ _ => .ok true
  message := fun _ => ""

theorem polled_standing : Standing "r1" polledRow polledClone polled := ⟨rfl, rfl⟩

theorem polled_covers : Call.poll.Covers polledRow := rfl

theorem calm_succeeds (tip : Sha) : Succeeds (calm tip) polledRow polledClone tip where
  origin := ⟨_, rfl, rfl⟩
  fetches := ⟨0, Nat.zero_le _, rfl⟩
  checksOut := rfl
  setsHead := rfl
  indexes := fun _ => ⟨"", rfl⟩

theorem upstream_indexed_iff_sample : IndexedAt "r1" "c1" (Call.poll.run (calm "c1") polled).2 :=
  (upstream_indexed_iff polled_standing (by decide) rfl polled_covers (calm_succeeds "c1")).1.mpr
    (.inr ⟨fun reindexes => reindexes.behind rfl rfl, rfl⟩)

theorem upstream_commit_unindexed :
    ¬ ∀ (env : Surroundings) (call : Call) (id : String) (repo : Repository) (g : GitRepository)
      (w : Repositories) (tip : Sha),
      Standing id repo g w → repo.type ≠ .local → repo.status = .ready → call.Covers repo → Succeeds env repo g tip →
        IndexedAt id tip (call.run env w).2 := by
  intro all
  obtain ⟨row, found, indexed⟩ := all (calm "c2") .poll "r1" polledRow polledClone polled "c2" polled_standing
      (by decide) rfl polled_covers
    (calm_succeeds "c2")
  have ran : ((Call.poll.run (calm "c2") polled).2.rows.get "r1").map (·.lastIndexedCommit) = some (some "c1") :=
    by decide +kernel
  rw [found, Option.map_some, indexed] at ran
  exact absurd ran (by decide)

end Aeterna.CodeSearch
