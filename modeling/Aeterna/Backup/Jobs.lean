import Aeterna.Lib.Runs
import Mathlib.Logic.Function.Basic

/-!
Export jobs in the store of a single server, the tasks that carry them out, and the requests that cancel them
(`cli/src/server/backup_api.rs`).
-/

namespace Aeterna.Backup

inductive JobStatus where
  | pending | running | completed | failed | cancelled
  deriving DecidableEq, Repr

def JobStatus.IsFinal (status : JobStatus) : Prop := status = .completed ∨ status = .failed ∨ status = .cancelled

structure EntityCounts where
  memories : Nat := 0
  knowledgeItems : Nat := 0
  policies : Nat := 0
  orgUnits : Nat := 0
  roleAssignments : Nat := 0
  governanceEvents : Nat := 0

structure ExportJob where
  jobId : String
  status : JobStatus := .pending
  (scope target : String)
  progressPct : Nat := 0
  entityCounts : EntityCounts := {}
  archivePath : Option String := none
  error : Option String := none
  createdAt : String
  completedAt : Option String := none

namespace ExportJob

def complete (archivePath now : String) (job : ExportJob) : ExportJob :=
  { job with status := .completed, progressPct := 100, archivePath := some archivePath, completedAt := some now }

def fail (error now : String) (job : ExportJob) : ExportJob :=
  { job with status := .failed, error := some error, completedAt := some now }

end ExportJob

/-- What a task does next: a call on the store, or work that may fail. -/
inductive Op where
  | markRunning
  | updateProgress (pct : Nat)
  | updateCounts
  | isCancelled
  | work

def runExport (target : String) (includeAudit : Bool) : List Op :=
  let memories : List Op := if target = "all" ∨ target = "memories" then [.work, .updateProgress 30] else []
  let knowledge : List Op := if target = "all" ∨ target = "knowledge" then [.work, .updateProgress 50] else []
  let audit : List Op := if includeAudit then [.work] else []
  let governance : List Op :=
    if target = "all" ∨ target = "governance" then .work :: .updateProgress 70 :: (audit ++ [.updateProgress 80])
      else []
  .markRunning :: .updateProgress 5 :: .work :: .updateProgress 10 ::
    (memories ++ .isCancelled :: (knowledge ++ .isCancelled :: (governance ++
      [.isCancelled, .work, .updateProgress 90, .updateCounts, .work])))

inductive Task where
  | running (ops : List Op)
  | failing (error : String)
  | done

/-- What a task finds around it when it takes a step. -/
structure Around where
  error : Option String := none
  counts : EntityCounts := {}
  archivePath : String := ""
  now : String := ""

inductive Event where
  | created (jobId : String)
  | polled (jobId : String)
  | wrote (jobId : String) (status : JobStatus)
  | read (request : Nat) (jobId : String)
  | acknowledged (request : Nat) (jobId : String)

/-- The jobs, a task for each of them, the cancel requests that are yet to write, and what happened, latest first. -/
structure World where
  jobs : String → Option ExportJob := fun _ => none
  tasks : String → Option Task := fun _ => none
  requests : Nat → Option String := fun _ => none
  log : List Event := []

namespace World

def update (w : World) (jobId : String) (f : ExportJob → ExportJob) : World :=
  { w with jobs := Function.update w.jobs jobId ((w.jobs jobId).map f) }

def setTask (w : World) (jobId : String) (task : Task) : World :=
  { w with tasks := Function.update w.tasks jobId (some task) }

def record (w : World) (event : Event) : World := { w with log := event :: w.log }

def isCancelled (w : World) (jobId : String) : Bool := (w.jobs jobId).any (·.status = .cancelled)

section
variable (w : World) (jobId : String) (f : ExportJob → ExportJob) (task : Task) (event : Event)

@[simp] theorem update_jobs : (w.update jobId f).jobs = Function.update w.jobs jobId ((w.jobs jobId).map f) := rfl
@[simp] theorem update_tasks : (w.update jobId f).tasks = w.tasks := rfl
@[simp] theorem update_requests : (w.update jobId f).requests = w.requests := rfl
@[simp] theorem update_log : (w.update jobId f).log = w.log := rfl
@[simp] theorem setTask_jobs : (w.setTask jobId task).jobs = w.jobs := rfl
@[simp] theorem setTask_tasks : (w.setTask jobId task).tasks = Function.update w.tasks jobId (some task) := rfl
@[simp] theorem setTask_requests : (w.setTask jobId task).requests = w.requests := rfl
@[simp] theorem setTask_log : (w.setTask jobId task).log = w.log := rfl
@[simp] theorem record_jobs : (w.record event).jobs = w.jobs := rfl
@[simp] theorem record_tasks : (w.record event).tasks = w.tasks := rfl
@[simp] theorem record_requests : (w.record event).requests = w.requests := rfl
@[simp] theorem record_log : (w.record event).log = event :: w.log := rfl

end

def taskOp (w : World) (jobId : String) (around : Around) (rest : List Op) : Op → World
  | .markRunning =>
    ((w.update jobId ({ · with status := .running })).setTask jobId (.running rest)).record (.wrote jobId .running)
  | .updateProgress pct => (w.update jobId ({ · with progressPct := pct })).setTask jobId (.running rest)
  | .updateCounts => (w.update jobId ({ · with entityCounts := around.counts })).setTask jobId (.running rest)
  | .isCancelled => (w.setTask jobId (if w.isCancelled jobId then .done else .running rest)).record (.polled jobId)
  | .work =>
    match around.error with
    | some error => w.setTask jobId (.failing error)
    | none => w.setTask jobId (.running rest)

end World

inductive Step where
  | create (jobId scope target createdAt : String) (includeAudit : Bool)
  | task (jobId : String) (around : Around)
  | cancel (request : Nat) (jobId : String)
  | acknowledge (request : Nat)

namespace World

def step (w : World) : Step → Option World
  | .create jobId scope target createdAt includeAudit =>
    match w.jobs jobId with
    | some _ => none
    | none =>
      some ({ (w.setTask jobId (.running (runExport target includeAudit))) with
        jobs := Function.update w.jobs jobId (some { jobId, scope, target, createdAt }) }.record (.created jobId))
  | .task jobId around =>
    match w.tasks jobId with
    | none => none
    | some .done => none
    | some (.running (op :: rest)) => some (w.taskOp jobId around rest op)
    | some (.running []) => some (((w.update jobId
        (·.complete around.archivePath around.now)).setTask jobId .done).record
        (.wrote jobId .completed))
    | some (.failing error) =>
      some (((w.update jobId (·.fail error around.now)).setTask jobId .done).record (.wrote jobId .failed))
  -- `handle_cancel_export` reads the job; a job that is not there, or that has ended, is answered at once
  | .cancel request jobId =>
    match w.requests request, w.jobs jobId with
    | some _, _ => none
    | none, none => some w
    | none, some job =>
      if job.status = .pending ∨ job.status = .running then
        some ({ w with requests := Function.update w.requests request (some jobId) }.record (.read request jobId))
      else some w
  | .acknowledge request =>
    match w.requests request with
    | none => none
    | some jobId =>
      some ({ (w.update jobId ({ · with status := .cancelled })) with
        requests := Function.update w.requests request none }.record (.acknowledged request jobId))

end World

end Aeterna.Backup
