import Aeterna.CodeSearch.Repositories
import Aeterna.Lib.Programs

namespace Aeterna.CodeSearch
open Lib (CallFault Eff)
open Lib.Eff Lib.CallFault GitRepository

/-- What may fail besides what the surroundings say: the calls to the database, and the two lookups of `HEAD`. -/
structure IndexFaults where
  select : Option String := none
  setIndexing : Option CallFault := none
  headBefore : Option String := none
  headAfter : Option String := none
  setError : Option CallFault := none
  record : Option CallFault := none
  setReady : Option CallFault := none

def Repositories.status (id : String) (w : Repositories) : Option RepositoryStatus :=
  (w.rows.get id).map Repository.status

def Repositories.headAt (path : ClonePath) (w : Repositories) : Option Sha :=
  (w.clones path).bind headTarget

section
variable (env : Surroundings) (faults : IndexFaults)

def databaseCall (fault : Option CallFault) (write : Repositories → Repositories) : Managed Unit := fun w =>
  let (answer, left) := settle () w (write w) fault
  (answer.mapError .databaseError, left)

def headLookup (failure : Option String) (path : ClonePath) : Managed Sha :=
  match failure with
  | some e => .fail (.gitError e)
  | none => headCommit env path

def runCodesearch (id name : String) (cmd : IndexCommand) : Managed Unit :=
  match env.codesearch cmd with
  | .notExecuted e => .fail (.indexingFailed name ("Failed to execute codesearch: " ++ e))
  | .exited false stderr => do
    (databaseCall faults.setError (Repositories.updateStatus id .error)).ignore
    fail (.indexingFailed name stderr)
  | .exited true _ => do
    let newCommitSha ← headLookup env faults.headAfter cmd.path
    databaseCall faults.record (Repositories.updateLastIndexed id newCommitSha)
    databaseCall faults.setReady (Repositories.updateStatus id .ready)

def indexClone (id : String) (repoData : Repository) (localPath : ClonePath) (targetBranch : String)
    (incremental : Bool) : Managed Unit := do
  databaseCall faults.setIndexing (Repositories.updateStatus id .indexing)
  match incremental, repoData.lastIndexedCommit with
  | true, some lastCommit =>
    let headSha ← headLookup env faults.headBefore localPath
    if headSha = lastCommit then databaseCall faults.setReady (Repositories.updateStatus id .ready)
    else runCodesearch env faults id repoData.name ⟨localPath, targetBranch, some lastCommit⟩
  | _, _ => runCodesearch env faults id repoData.name ⟨localPath, targetBranch, none⟩

def reindex (principalId : String) (principalRoles : List String) (id : String) (branch : Option String)
    (incremental : Bool) : Managed Unit :=
  match faults.select with
  | some e => .fail (.databaseError e)
  | none => do
    let repoData ← getRepository id
    let targetBranch := branch.getD repoData.currentBranch
    let allowed ← Eff.ofExcept
      (env.evaluateRequest ⟨principalId, principalRoles, repoData.tenantId⟩ "IndexRepository" id repoData)
    if allowed = false then
      fail (.policyViolation "Cedar::IndexRepository" "Insufficient permissions to trigger re-indexing")
    else if repoData.status = .indexing then pure ()
    else if repoData.type = .local then
      let localPath ← ofOption .panicked repoData.localPath
      indexClone env faults id repoData (.path localPath) targetBranch incremental
    else
      checkoutBranch env repoData.clonePath targetBranch
      indexClone env faults id repoData repoData.clonePath targetBranch incremental

def Indexes (cmd : IndexCommand) (head : Option Sha) : Prop :=
  match env.codesearch cmd with
  | .notExecuted _ => False
  | .exited false _ => CarriedOut faults.setError
  | .exited true _ =>
    faults.headAfter = none ∧ head.isSome ∧ faults.record = none ∧ CarriedOut faults.setReady

def Finishes (repo : Repository) (path : ClonePath) (branch : String) (incremental : Bool) (head : Option Sha) : Prop :=
  match incremental, repo.lastIndexedCommit with
  | true, some lastCommit => faults.headBefore = none ∧ ∃ headSha, head = some headSha ∧
      if headSha = lastCommit then CarriedOut faults.setReady
      else Indexes env faults ⟨path, branch, some lastCommit⟩ head
  | _, _ => Indexes env faults ⟨path, branch, none⟩ head

/-- Where the row is set to `indexing`: the path of the clone, and the commit at its `HEAD`. -/
def indexingAt (principalId : String) (principalRoles : List String) (id : String) (repo : Repository)
    (targetBranch : String) (w : Repositories) : Option (ClonePath × Option Sha) :=
  if faults.select = none ∧
      env.evaluateRequest ⟨principalId, principalRoles, repo.tenantId⟩ "IndexRepository" id repo = .ok true then
    if repo.type = .local then
      repo.localPath.map (fun path => (.path path, w.headAt (.path path)))
    else
      (w.clones repo.clonePath).bind (fun g =>
        if (g.revparseSingle targetBranch).isSome ∧ env.checkoutFails repo.clonePath targetBranch = none ∧
            env.setHeadFails repo.clonePath targetBranch = none then
          some (repo.clonePath, g.branches targetBranch)
        else none)
  else none

end

section
variable {env : Surroundings} {faults : IndexFaults} {id : String} {repo : Repository} {w : Repositories}
  {path : ClonePath} {head : Option Sha} {fault : Option CallFault}

theorem status_updateStatus {status old : RepositoryStatus} (held : w.status id = some old) :
    (w.updateStatus id status).status id = some status := by
  obtain ⟨repo, found, _⟩ := Option.map_eq_some_iff.mp held
  show ((w.rows.update _).get id).map Repository.status = _
  rw [Lib.Table.get_update, found]
  simp

theorem status_updateLastIndexed (commit : Sha) : (w.updateLastIndexed id commit).status id = w.status id := by
  show ((w.rows.update _).get id).map Repository.status = (w.rows.get id).map Repository.status
  rw [Lib.Table.get_update]
  cases w.rows.get id <;> simp

theorem databaseCall_leaves {status : RepositoryStatus} (held : w.status id = some .indexing)
    (apart : status ≠ .indexing) :
    (databaseCall fault (Repositories.updateStatus id status) w).2.status id ≠ some .indexing ↔ CarriedOut fault := by
  have written : (w.updateStatus id status).status id ≠ some .indexing := by
    rw [status_updateStatus held]
    exact fun same => apart (Option.some.inj same)
  cases fault with
  | none => exact ⟨fun _ => carriedOut_none, fun _ => written⟩
  | some fault =>
    cases fault with
    | refused e => exact ⟨fun left => absurd held left, fun carried => absurd rfl (carried e)⟩
    | unanswered e => exact ⟨fun _ => carriedOut_unanswered e, fun _ => written⟩

theorem headCommit_run (env : Surroundings) (path : ClonePath) (w : Repositories) :
    headCommit env path w = match w.headAt path with
      | some sha => (.ok sha, w)
      | none => (.error (.gitError (env.message (if (w.clones path).isSome then .head else .openRepository))), w) := by
  have opened : openRepository env path w =
      (ofOption (.gitError (env.message .openRepository)) (w.clones path) : Managed GitRepository) w := rfl
  unfold headCommit Repositories.headAt
  cases cloned : w.clones path with
  | none =>
    rw [cloned] at opened
    rw [bind_of_error opened]
    rfl
  | some g =>
    rw [cloned] at opened
    rw [bind_of_ok opened]
    cases target : g.headTarget <;> simp [ofOption, target]

theorem headLookup_cases (env : Surroundings) (failure : Option String) (path : ClonePath) (w : Repositories) :
    (failure = none ∧ ∃ sha, w.headAt path = some sha ∧ headLookup env failure path w = (.ok sha, w)) ∨
      (¬ (failure = none ∧ (w.headAt path).isSome) ∧ ∃ e, headLookup env failure path w = (.error e, w)) := by
  cases failure with
  | some e =>
    refine Or.inr ⟨?_, _, rfl⟩
    rintro ⟨none, _⟩
    cases none
  | none =>
    have ran := headCommit_run env path w
    cases head : w.headAt path with
    | none =>
      rw [head] at ran
      refine Or.inr ⟨?_, _, ran⟩
      rintro ⟨_, some⟩
      cases some
    | some sha =>
      rw [head] at ran
      exact Or.inl ⟨rfl, sha, rfl, ran⟩

theorem runCodesearch_leaves {name : String} {cmd : IndexCommand} (held : w.status id = some .indexing) :
    (runCodesearch env faults id name cmd w).2.status id ≠ some .indexing ↔
      Indexes env faults cmd (w.headAt cmd.path) := by
  unfold runCodesearch Indexes
  cases ran : env.codesearch cmd with
  | notExecuted e => exact iff_of_false (fun left => left held) not_false
  | exited success stderr =>
    cases success with
    | false => exact databaseCall_leaves held (by decide)
    | true =>
      dsimp only
      rcases headLookup_cases env faults.headAfter cmd.path w with ⟨working, sha, head, found⟩ | ⟨failing, e, found⟩
      · rw [bind_of_ok found, head]
        have kept : (w.updateLastIndexed id sha).status id = some .indexing :=
          (status_updateLastIndexed sha).trans held
        cases recorded : faults.record with
        | none =>
          have call : databaseCall none (Repositories.updateLastIndexed id sha) w =
              (.ok (), w.updateLastIndexed id sha) := rfl
          rw [bind_of_ok call, databaseCall_leaves kept (by decide)]
          simp [working]
        | some fault =>
          cases fault with
          | refused e =>
            have call : databaseCall (some (.refused e)) (Repositories.updateLastIndexed id sha) w =
                (.error (.databaseError e), w) := rfl
            rw [bind_of_error call]
            simp [held]
          | unanswered e =>
            have call : databaseCall (some (.unanswered e)) (Repositories.updateLastIndexed id sha) w =
                (.error (.databaseError e), w.updateLastIndexed id sha) := rfl
            rw [bind_of_error call]
            simp [kept]
      · rw [bind_of_error found]
        exact iff_of_false (fun left => left held) (fun all => failing ⟨all.1, all.2.1⟩)

theorem indexClone_leaves {branch : String} {incremental : Bool} (found : w.rows.get id = some repo)
    (idle : repo.status ≠ .indexing) :
    (indexClone env faults id repo path branch incremental w).2.status id ≠ some .indexing ↔
      (∃ e, faults.setIndexing = some (.refused e)) ∨
        faults.setIndexing = none ∧ Finishes env faults repo path branch incremental (w.headAt path) := by
  have before : w.status id = some repo.status := by rw [Repositories.status, found, Option.map_some]
  have held : (w.updateStatus id .indexing).status id = some .indexing := status_updateStatus before
  have head : (w.updateStatus id .indexing).headAt path = w.headAt path := rfl
  unfold indexClone
  cases failed : faults.setIndexing with
  | some fault =>
    cases fault with
    | refused e =>
      have call : databaseCall (some (.refused e)) (Repositories.updateStatus id .indexing) w =
          (.error (.databaseError e), w) := rfl
      rw [bind_of_error call]
      simp [before, idle]
    | unanswered e =>
      have call : databaseCall (some (.unanswered e)) (Repositories.updateStatus id .indexing) w =
          (.error (.databaseError e), w.updateStatus id .indexing) := rfl
      rw [bind_of_error call]
      simp [held]
  | none =>
    have call : databaseCall none (Repositories.updateStatus id .indexing) w =
        (.ok (), w.updateStatus id .indexing) := rfl
    rw [bind_of_ok call, ← head]
    simp only [reduceCtorEq, exists_false, true_and, false_or]
    unfold Finishes
    cases incremental with
    | false => exact runCodesearch_leaves held
    | true =>
      cases repo.lastIndexedCommit with
      | none => exact runCodesearch_leaves held
      | some lastCommit =>
        dsimp only
        rcases headLookup_cases env faults.headBefore path (w.updateStatus id .indexing) with
          ⟨working, sha, target, looked⟩ | ⟨failing, e, looked⟩
        · rw [bind_of_ok looked, target]
          by_cases same : sha = lastCommit
          · rw [if_pos same, databaseCall_leaves held (by decide)]
            simp [working, same]
          · rw [if_neg same, runCodesearch_leaves held]
            simp [working, same, target]
        · rw [bind_of_error looked]
          apply iff_of_false (fun left => left held)
          rintro ⟨working, sha, target, _⟩
          exact failing ⟨working, by rw [target]; rfl⟩

theorem checkoutBranch_cases (env : Surroundings) (path : ClonePath) (branch : String) (w : Repositories) :
    (∃ g left, w.clones path = some g ∧ ((g.revparseSingle branch).isSome ∧
        env.checkoutFails path branch = none ∧ env.setHeadFails path branch = none) ∧
      checkoutBranch env path branch w = (.ok (), left) ∧ left.rows = w.rows ∧
      left.headAt path = g.branches branch) ∨
    ((∀ g, w.clones path = some g → ¬ ((g.revparseSingle branch).isSome ∧
        env.checkoutFails path branch = none ∧ env.setHeadFails path branch = none)) ∧
      ∃ e left, checkoutBranch env path branch w = (.error e, left) ∧ left.rows = w.rows) := by
  have opened : openRepository env path w =
      (ofOption (.gitError (env.message .openRepository)) (w.clones path) : Managed GitRepository) w := rfl
  unfold checkoutBranch
  cases cloned : w.clones path with
  | none =>
    rw [cloned] at opened
    rw [bind_of_error opened]
    refine Or.inr ⟨?_, _, _, rfl, rfl⟩
    rintro _ ⟨⟩
  | some g =>
    rw [cloned] at opened
    rw [bind_of_ok opened]
    cases resolved : g.revparseSingle branch with
    | none =>
      refine Or.inr ⟨?_, _, _, rfl, rfl⟩
      rintro _ ⟨⟩ ⟨found, _⟩
      rw [resolved] at found
      cases found
    | some obj =>
      have known : ∀ e, (ofOption e (some obj) : Managed Sha) w = (.ok obj, w) := fun _ => rfl
      rw [bind_of_ok (known _)]
      cases checkedOut : env.checkoutFails path branch with
      | some e =>
        refine Or.inr ⟨?_, _, _, rfl, rfl⟩
        rintro _ ⟨⟩ ⟨_, works, _⟩
        cases works
      | none =>
        cases headSet : env.setHeadFails path branch with
        | some e =>
          refine Or.inr ⟨?_, _, _, rfl, rfl⟩
          rintro _ ⟨⟩ ⟨_, _, works⟩
          cases works
        | none =>
          refine Or.inl ⟨g, _, rfl, ⟨by rw [resolved]; rfl, rfl, rfl⟩, rfl, rfl, ?_⟩
          simp [Repositories.headAt, Repositories.setClone, setHead, checkoutTree,
            headTarget]

/-- A call leaves the row at `indexing` if it found it so, or if it has set it and does not come to an end. -/
theorem reindex_leaves_iff (env : Surroundings) (faults : IndexFaults) (principalId : String)
    (principalRoles : List String) (branch : Option String) (incremental : Bool)
    (found : w.rows.get id = some repo) :
    (reindex env faults principalId principalRoles id branch incremental w).2.status id ≠ some .indexing ↔
      repo.status ≠ .indexing ∧
      ∀ path head, indexingAt env faults principalId principalRoles id repo (branch.getD repo.currentBranch) w =
        some (path, head) → (∃ e, faults.setIndexing = some (.refused e)) ∨
          faults.setIndexing = none ∧ Finishes env faults repo path (branch.getD repo.currentBranch) incremental head := by
  have before : w.status id = some repo.status := by rw [Repositories.status, found, Option.map_some]
  have stays : ∀ {left : Repositories}, left.rows = w.rows → (left.status id ≠ some .indexing ↔
      repo.status ≠ .indexing) := by
    intro left same
    rw [Repositories.status, same, found]
    simp
  unfold reindex indexingAt
  cases selected : faults.select with
  | some e => simpa using stays rfl
  | none =>
    have row : getRepository id w = (.ok repo, w) := by
      show (ofOption (.databaseError "Repository not found") (w.rows.get id) : Managed Repository) w = _
      rw [found]
      rfl
    dsimp only
    rw [bind_of_ok row]
    cases evaluated : env.evaluateRequest ⟨principalId, principalRoles, repo.tenantId⟩ "IndexRepository" id repo with
    | error e => simpa [bind_run, Eff.ofExcept] using stays rfl
    | ok allowed =>
      have policy : (Eff.ofExcept (.ok allowed) : Managed Bool) w = (.ok allowed, w) := rfl
      rw [bind_of_ok policy]
      cases allowed with
      | false => simpa using stays rfl
      | true =>
        have allowed : ¬ (true = false) := Bool.noConfusion
        rw [if_neg allowed]
        by_cases idle : repo.status = .indexing
        · rw [if_pos idle]
          simp [before, idle]
        · rw [if_neg idle]
          simp only [ne_eq, idle, not_false_eq_true, true_and, and_self, if_true]
          by_cases here : repo.type = .local
          · simp only [here, if_true]
            cases repo.localPath with
            | none => simpa [bind_run, ofOption, idle] using stays rfl
            | some localPath =>
              have known : (ofOption CodeSearchError.panicked (some localPath) : Managed String) w =
                (.ok localPath, w) := rfl
              rw [bind_of_ok known]
              simpa using indexClone_leaves found idle
          · simp only [here, if_false]
            rcases checkoutBranch_cases env repo.clonePath (branch.getD repo.currentBranch) w with
              ⟨g, left, cloned, works, ran, same, head⟩ | ⟨failing, e, left, ran, same⟩
            · rw [bind_of_ok ran]
              apply (indexClone_leaves (same.symm ▸ found) idle).trans
              simp [cloned, works, head]
            · rw [bind_of_error ran]
              have nowhere : ((w.clones repo.clonePath).bind (fun g =>
                  if (g.revparseSingle (branch.getD repo.currentBranch)).isSome ∧
                      env.checkoutFails repo.clonePath (branch.getD repo.currentBranch) = none ∧
                      env.setHeadFails repo.clonePath (branch.getD repo.currentBranch) = none then
                    some (repo.clonePath, g.branches (branch.getD repo.currentBranch))
                  else none)) = none := by
                apply Option.bind_eq_none_iff.mpr
                intro g cloned
                exact if_neg (failing g cloned)
              rw [nowhere]
              simpa [idle] using stays same

def cloneSurroundings (output : IndexOutput) : Surroundings where
  remote _ _ := some "c1"
  fetchFails _ _ := none
  checkoutFails _ _ := none
  setHeadFails _ _ := none
  codesearch _ := output
  evaluateRequest _ _ _ _ := .ok true
  message _ := "git error"

def clonedRepository : Repositories where
  rows := Lib.Table.empty.upsert "r1" { tenantId := "acme", name := "web", status := .ready } (fun repo => repo)
  named := List.nodup_singleton _
  clones _ := some { origin := none, head := .branch "main", branches := fun _ => some "c1" }

theorem reindex_leaves_sample : (reindex (cloneSurroundings (.exited true "")) {} "u" [] "r1" none false
    clonedRepository).2.status "r1" ≠ some .indexing := by
  apply (reindex_leaves_iff (w := clonedRepository) _ {} "u" [] none false rfl).mpr
  refine ⟨by decide, ?_⟩
  rintro path head ⟨⟩
  exact Or.inr ⟨rfl, rfl, rfl, rfl, Lib.CallFault.carriedOut_none⟩

/-- `codesearch` cannot be started: the row is left at `indexing`, and the next call does nothing. -/
theorem wedged_by_missing_codesearch :
    (reindex (cloneSurroundings (.notExecuted "No such file or directory")) {} "u" [] "r1" none false
      clonedRepository).2.status "r1" = some .indexing ∧
    ∀ faults : IndexFaults, faults.select = none →
      reindex (cloneSurroundings (.exited true "")) faults "u" [] "r1" none false
        (reindex (cloneSurroundings (.notExecuted "No such file or directory")) {} "u" [] "r1" none false
          clonedRepository).2 =
        (.ok (), (reindex (cloneSurroundings (.notExecuted "No such file or directory")) {} "u" [] "r1" none false
          clonedRepository).2) := by
  refine ⟨rfl, fun faults reads => ?_⟩
  unfold reindex
  rw [reads]
  rfl

end

end Aeterna.CodeSearch
