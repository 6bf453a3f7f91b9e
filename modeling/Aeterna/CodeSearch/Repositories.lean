import Aeterna.Lib.Effect
import Aeterna.Lib.JsonValue
import Aeterna.Lib.Table
import Mathlib.Data.List.Dedup
import Mathlib.Logic.Function.Basic

namespace Aeterna.CodeSearch
open Lib (Eff Table JsonValue)
open Lib.Eff

abbrev Sha := String

inductive Head where
  | branch (name : String)
  | detached (commit : Sha)

/-- A clone: its refs, the commit that its files are checked out from, and what else a name stands for (tags,
abbreviated commits and the like). -/
structure GitRepository where
  origin : Option String
  head : Head
  branches : String → Option Sha
  remoteBranches : String → Option Sha := fun _ => none
  fetchHead : Option Sha := none
  workTree : Option Sha := none
  otherNames : String → Option Sha := fun _ => none

namespace GitRepository

def headTarget (g : GitRepository) : Option Sha :=
  match g.head with
  | .branch name => g.branches name
  | .detached commit => some commit

def revparseSingle (name : String) (g : GitRepository) : Option Sha := (g.branches name).or (g.otherNames name)

/-- A fetch of one branch, found at `tip` in the remote. No local branch moves. -/
def fetch (branch : String) (tip : Option Sha) (g : GitRepository) : GitRepository :=
  { g with
    fetchHead := tip
    remoteBranches := if tip.isSome then Function.update g.remoteBranches branch tip else g.remoteBranches }

def checkoutTree (obj : Sha) (g : GitRepository) : GitRepository := { g with workTree := some obj }

def setHead (branch : String) (g : GitRepository) : GitRepository := { g with head := .branch branch }

end GitRepository

inductive RepositoryType where
  | «local» | remote | hybrid
  deriving DecidableEq

inductive SyncStrategy where
  | hook | job | manual
  deriving DecidableEq

inductive RepositoryStatus where
  | requested | pending | approved | cloning | indexing | ready | error
  deriving DecidableEq

structure Repository where
  (tenantId name : String)
  type : RepositoryType := .remote
  remoteUrl : Option String := none
  localPath : Option String := none
  currentBranch : String := "main"
  syncStrategy : SyncStrategy := .manual
  status : RepositoryStatus := .requested
  lastIndexedCommit : Option Sha := none

/-- `panicked` is not an error of the source but the end of the task. -/
inductive CodeSearchError where
  | policyViolation (policy reason : String)
  | gitError (reason : String)
  | indexingFailed (repo reason : String)
  | databaseError (reason : String)
  | panicked
  deriving DecidableEq

inductive ClonePath where
  | joined (tenantId name : String)
  | path (localPath : String)
  deriving DecidableEq

def Repository.clonePath (repo : Repository) : ClonePath := .joined repo.tenantId repo.name

def Repository.key (repo : Repository) : String × String := (repo.tenantId, repo.name)

/-- The rows, by id and without two of one tenant and name, and the repositories on the disk. -/
structure Repositories where
  rows : Table String Repository := {}
  named : (rows.rows.map (fun e => e.2.key)).Nodup := by exact List.nodup_nil
  clones : ClonePath → Option GitRepository := fun _ => none

namespace Repositories

def updateRow (id : String) (f : Repository → Repository) (keeps : ∀ repo, (f repo).key = repo.key)
    (w : Repositories) :
    Repositories where
  rows := w.rows.update (fun key repo => if key = id then f repo else repo)
  named := by
    have same : (w.rows.update (fun key repo => if key = id then f repo else repo)).rows.map (fun e => e.2.key) =
        w.rows.rows.map (fun e => e.2.key) := by
      show (w.rows.rows.map (fun e => (e.1, if e.1 = id then f e.2 else e.2))).map _ = _
      rw [List.map_map]
      refine List.map_congr_left (fun e _ => ?_)
      show (if e.1 = id then f e.2 else e.2).key = e.2.key
      split
      · exact keeps e.2
      · rfl
    rw [same]
    exact w.named
  clones := w.clones

def updateStatus (id : String) (status : RepositoryStatus) (w : Repositories) : Repositories :=
  w.updateRow id (fun repo => { repo with status }) (fun _ => rfl)

def updateLastIndexed (id commitSha : String) (w : Repositories) : Repositories :=
  w.updateRow id (fun repo => { repo with lastIndexedCommit := some commitSha }) (fun _ => rfl)

def getRepositoryByUrl (tenantId url : String) (w : Repositories) : Option (String × Repository) :=
  w.rows.rows.find? (fun e => e.2.tenantId = tenantId ∧
    (e.2.remoteUrl = some url ∨ e.2.remoteUrl = some (url ++ ".git")))

def listRepositories (tenantId : String) (w : Repositories) : List (String × Repository) :=
  w.rows.rows.filter (fun e => e.2.tenantId = tenantId)

def tenantIds (w : Repositories) : List String := (w.rows.rows.map (fun e => e.2.tenantId)).dedup

def setClone (path : ClonePath) (g : GitRepository) (w : Repositories) : Repositories :=
  { w with clones := Function.update w.clones path (some g) }

end Repositories

structure PolicyContext where
  principalId : String
  principalRoles : List String
  tenantId : String

/-- The arguments of a `codesearch index` process. -/
structure IndexCommand where
  path : ClonePath
  branch : String
  fromCommit : Option Sha

inductive IndexOutput where
  | notExecuted (reason : String)
  | exited (success : Bool) (stderr : String)

inductive GitFailure where
  | openRepository | findRemote | findFetchHead | head | revparse (name : String)

/-- What a call meets: the branches of the remotes, the operations that fail with a text, the process, and the
policies. -/
structure Surroundings where
  remote : String → String → Option Sha
  fetchFails : ClonePath → Nat → Option String
  (checkoutFails setHeadFails : ClonePath → String → Option String)
  codesearch : IndexCommand → IndexOutput
  evaluateRequest : PolicyContext → String → String → Repository → Except CodeSearchError Bool
  message : GitFailure → String

def systemUserId : String := "system"

def providerGithub : String := "github"

section
variable (env : Surroundings)

abbrev Managed (α : Type) := Eff Repositories CodeSearchError α

def gitFail {α : Type} (failure : GitFailure) : Managed α := .fail (.gitError (env.message failure))

variable (id : String)

def getRepository : Managed Repository := do
  let w ← Eff.get
  ofOption (.databaseError "Repository not found") (w.rows.get id)

def openRepository (path : ClonePath) : Managed GitRepository := do
  let w ← Eff.get
  ofOption (.gitError (env.message .openRepository)) (w.clones path)

def gitStep (wrap : String → String) (failure : Option String) (path : ClonePath) (g : GitRepository) :
    Managed Unit :=
  match failure with
  | some e => .fail (.gitError (wrap e))
  | none => .modify (Repositories.setClone path g)

def headCommit (path : ClonePath) : Managed Sha := do
  let g ← openRepository env path
  ofOption (.gitError (env.message .head)) g.headTarget

def doFetch (localPath : ClonePath) (branch : String) (attempt : Nat) : Managed (Option Sha) := do
  let g ← openRepository env localPath
  let url ← ofOption (.gitError (env.message .findRemote)) g.origin
  let fetched := g.fetch branch (env.remote url branch)
  gitStep ("Fetch failed: " ++ ·) (env.fetchFails localPath attempt) localPath fetched
  let commit ← ofOption (.gitError (env.message .findFetchHead)) fetched.fetchHead
  pure (some commit)

def fetchUpdates : Managed (Option Sha) := do
  let repoData ← getRepository id
  if repoData.type = .local then pure none
  else
    let localPath := repoData.clonePath
    match ← retry (doFetch env localPath repoData.currentBranch) 0 3 with
    | some newSha =>
      let g ← openRepository env localPath
      if g.headTarget = some newSha then pure none else pure (some newSha)
    | none => pure none

def checkoutBranch (localPath : ClonePath) (targetBranch : String) : Managed Unit := do
  let g ← openRepository env localPath
  let obj ← ofOption
    (.gitError ("Branch " ++ targetBranch ++ " not found: " ++ env.message (.revparse targetBranch)))
      (g.revparseSingle targetBranch)
  gitStep ("Checkout failed: " ++ ·) (env.checkoutFails localPath targetBranch) localPath (g.checkoutTree obj)
  gitStep (fun e => e) (env.setHeadFails localPath targetBranch) localPath ((g.checkoutTree obj).setHead targetBranch)

/-- The run of `codesearch`, and the record of the commit that is checked out afterwards. -/
def runIndexing (id name : String) (cmd : IndexCommand) : Managed Unit :=
  match env.codesearch cmd with
  | .notExecuted e => .fail (.indexingFailed name ("Failed to execute codesearch: " ++ e))
  | .exited false stderr => do
    Eff.modify (Repositories.updateStatus id .error)
    fail (.indexingFailed name stderr)
  | .exited true _ => do
    let newCommitSha ← headCommit env cmd.path
    Eff.modify (Repositories.updateLastIndexed id newCommitSha)
    Eff.modify (Repositories.updateStatus id .ready)

def indexBranch (repoData : Repository) (localPath : ClonePath) (targetBranch : String) (incremental : Bool) :
    Managed Unit := do
  Eff.modify (Repositories.updateStatus id .indexing)
  match incremental, repoData.lastIndexedCommit with
  | true, some lastCommit =>
    let headSha ← headCommit env localPath
    -- the shortcut for a commit that is indexed already
    if headSha = lastCommit then Eff.modify (Repositories.updateStatus id .ready)
    else runIndexing env id repoData.name ⟨localPath, targetBranch, some lastCommit⟩
  | _, _ => runIndexing env id repoData.name ⟨localPath, targetBranch, none⟩

def reindexRepository (principalId : String) (principalRoles : List String) (id : String) (branch : Option String)
    (incremental : Bool) : Managed Unit := do
  let repoData ← getRepository id
  let targetBranch := branch.getD repoData.currentBranch
  let allowed ← Eff.ofExcept
    (env.evaluateRequest ⟨principalId, principalRoles, repoData.tenantId⟩ "IndexRepository" id repoData)
  if allowed = false then
    fail (.policyViolation "Cedar::IndexRepository" "Insufficient permissions to trigger re-indexing")
  else if repoData.status = .indexing then pure ()
  else if repoData.type = .local then
    let localPath ← ofOption .panicked repoData.localPath
    indexBranch env id repoData (.path localPath) targetBranch incremental
  else
    checkoutBranch env repoData.clonePath targetBranch
    indexBranch env id repoData repoData.clonePath targetBranch incremental

def checkRepository (entry : String × Repository) : Managed Unit :=
  if entry.2.syncStrategy = .job ∧ entry.2.status = .ready then do
    match ← (fetchUpdates env entry.1).outcome with
    | .ok (some _) => (reindexRepository env systemUserId ["lead"] entry.1 none true).ignore
    | .ok none => pure ()
    | .error _ => pure ()
  else pure ()

def checkTenant (tenantId : String) : Managed Unit := do
  let w ← Eff.get
  forEach (checkRepository env) (w.listRepositories tenantId)

def checkAllRepositories : Managed Unit := do
  let w ← Eff.get
  forEach (checkTenant env) w.tenantIds

def stripped (lead text : String) : String :=
  if lead.toList.isPrefixOf text.toList then String.ofList (text.toList.drop lead.length) else text

def handleWebhookEvent (tenantId provider : String) (payload : JsonValue) : Managed Unit :=
  if provider = providerGithub then do
    let repoUrl ← ofOption (.gitError "Missing clone_url in GitHub payload")
      ((payload.get "repository").get "clone_url").asStr
    let refStr ← ofOption (.gitError "Missing ref in GitHub payload") (payload.get "ref").asStr
    let branch := stripped "refs/heads/" refStr
    let w ← Eff.get
    match w.getRepositoryByUrl tenantId repoUrl with
    | some (id, repo) =>
      if repo.syncStrategy = .hook ∧ repo.currentBranch = branch then do
        let _ ← fetchUpdates env id
        reindexRepository env "webhook-agent" ["lead"] id (some branch) true
      else pure ()
    | none => pure ()
  else .fail (.gitError ("Unsupported webhook provider: " ++ provider))

end

end Aeterna.CodeSearch
