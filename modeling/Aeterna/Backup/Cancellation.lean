import Aeterna.Backup.Jobs

namespace Aeterna.Backup
open Lib (run)
open World

def cancelledSince (jobId : String) : List Event → Bool
  | [] => false
  | .acknowledged _ other :: before => other = jobId || cancelledSince jobId before
  | .polled other :: before => other ≠ jobId && cancelledSince jobId before
  | .created other :: before => other ≠ jobId && cancelledSince jobId before
  | .wrote _ _ :: before => cancelledSince jobId before
  | .read _ _ :: before => cancelledSince jobId before

def endedSince (request : Nat) (jobId : String) : List Event → Bool
  | [] => false
  | .wrote other status :: before => (other = jobId ∧ status ≠ .running) || endedSince request jobId before
  | .read other _ :: before => other ≠ request && endedSince request jobId before
  | .acknowledged _ _ :: before => endedSince request jobId before
  | .polled _ :: before => endedSince request jobId before
  | .created _ :: before => endedSince request jobId before

/-- No task writes a status when its job was cancelled since it last looked, and no cancellation is written when the
task ended since it was read. -/
def Orderly : List Event → Prop
  | [] => True
  | .wrote jobId _ :: before => cancelledSince jobId before = false ∧ Orderly before
  | .acknowledged request jobId :: before => endedSince request jobId before = false ∧ Orderly before
  | .read _ _ :: before => Orderly before
  | .polled _ :: before => Orderly before
  | .created _ :: before => Orderly before

theorem Orderly.before {event : Event} {log : List Event} (orderly : Orderly (event :: log)) : Orderly log := by
  cases event with
  | wrote => exact orderly.2
  | acknowledged => exact orderly.2
  | read => exact orderly
  | polled => exact orderly
  | created => exact orderly

/-- What a step can do. -/
inductive Transition (w : World) : World → Prop where
  | created (job : ExportJob) (task : Task) (id : String) (fresh : w.jobs id = none) (new : job.status = .pending) :
      Transition w ({ (w.setTask id task) with jobs := Function.update w.jobs id (some job) }.record (.created id))
  | worked (id : String) (task next : Task) (f : ExportJob → ExportJob) (at_ : w.tasks id = some task)
      (going : task ≠ .done) (same : ∀ job, (f job).status = job.status) :
        Transition w ((w.update id f).setTask id next)
  | polled (id : String) (task next : Task) (at_ : w.tasks id = some task) (going : task ≠ .done)
      (stops : w.isCancelled id = true → next = .done) : Transition w ((w.setTask id next).record (.polled id))
  | wrote (id : String) (task next : Task) (f : ExportJob → ExportJob) (status : JobStatus)
      (at_ : w.tasks id = some task)
      (going : task ≠ .done) (sets : ∀ job, (f job).status = status)
      (known : status = .running ∨ (status = .completed ∨ status = .failed) ∧ next = .done) :
      Transition w (((w.update id f).setTask id next).record (.wrote id status))
  | read (request : Nat) (id : String) (job : ExportJob) (found : w.jobs id = some job)
      (open_ : job.status = .pending ∨ job.status = .running) :
      Transition w ({ w with requests := Function.update w.requests request (some id) }.record (.read request id))
  | acknowledged (request : Nat) (id : String) (at_ : w.requests request = some id) :
      Transition w ({ (w.update id ({ · with status := .cancelled })) with
        requests := Function.update w.requests request none }.record (.acknowledged request id))
  | answered : Transition w w

theorem World.update_self (w : World) (id : String) : w.update id (fun job => job) = w := by
  unfold update
  rw [Option.map_id', Function.update_eq_self]

theorem transition_of_step {w next : World} {label : Step} (stepped : w.step label = some next) :
    Transition w next := by
  cases label with
  | create jobId scope target createdAt includeAudit =>
    simp only [step] at stepped
    split at stepped
    · cases stepped
    · rename_i fresh
      cases stepped
      exact .created _ _ jobId fresh rfl
  | task jobId around =>
    simp only [step] at stepped
    split at stepped
    · cases stepped
    · cases stepped
    · rename_i op rest at_
      cases stepped
      cases op with
      | markRunning => exact .wrote jobId _ _ _ .running at_ (by simp) (fun _ => rfl) (.inl rfl)
      | updateProgress pct => exact .worked jobId _ _ _ at_ (by simp) (fun _ => rfl)
      | updateCounts => exact .worked jobId _ _ _ at_ (by simp) (fun _ => rfl)
      | isCancelled => exact .polled jobId _ _ at_ (by simp) (fun cancelled => if_pos cancelled)
      | work =>
        have same : ∀ next, Transition w (w.setTask jobId next) := fun next => by
          have worked := Transition.worked jobId (.running (.work :: rest)) next (fun job => job) at_ (by simp)
              (fun _ => rfl)
          rwa [update_self] at worked
        simp only [taskOp]
        split
        · exact same _
        · exact same _
    · rename_i at_
      cases stepped
      exact .wrote jobId _ _ _ .completed at_ (by simp) (fun _ => rfl) (.inr ⟨.inl rfl, rfl⟩)
    · rename_i error at_
      cases stepped
      exact .wrote jobId _ _ _ .failed at_ (by simp) (fun _ => rfl) (.inr ⟨.inr rfl, rfl⟩)
  | cancel request jobId =>
    simp only [step] at stepped
    split at stepped
    · cases stepped
    · cases stepped
      exact .answered
    · rename_i job _ found
      split at stepped
      · rename_i open_
        cases stepped
        exact .read request jobId job found open_
      · cases stepped
        exact .answered
  | acknowledge request =>
    simp only [step] at stepped
    split at stepped
    · cases stepped
    · rename_i jobId at_
      cases stepped
      exact .acknowledged request jobId at_

/-- What statuses are, as long as events come in order. -/
structure Inv (w : World) : Prop where
  /-- The job of a task that goes on has not ended, but for a cancellation that the task has yet to find. -/
  going : ∀ id task, w.tasks id = some task → task ≠ .done → ∃ job, w.jobs id = some job ∧
    (job.status = .pending ∨ job.status = .running ∨ job.status = .cancelled ∧ cancelledSince id w.log = true)
  /-- A job that a request is about to cancel has not ended, unless its task ended since the request read it. -/
  cancelling : ∀ request id, w.requests request = some id → ∃ job, w.jobs id = some job ∧
    (job.status = .pending ∨ job.status = .running ∨ job.status = .cancelled ∨ endedSince request id w.log = true)
  acknowledged : ∀ request id, .acknowledged request id ∈ w.log → ∃ job, w.jobs id = some job ∧
    job.status = .cancelled

def Settled (w next : World) : Prop :=
  ∀ id job, w.jobs id = some job → job.status.IsFinal → ∃ after, next.jobs id = some after ∧ after.status = job.status

theorem Settled.refl (w : World) : Settled w w := fun _ job found _ => ⟨job, found, rfl⟩

theorem Settled.trans {a b c : World} (first : Settled a b) (second : Settled b c) : Settled a c := by
  intro id job found ended
  obtain ⟨between, found, same⟩ := first id job found ended
  obtain ⟨last, found, again⟩ := second id between found (same ▸ ended)
  exact ⟨last, found, again.trans same⟩

theorem settled_update {w : World} {id : String} {f : ExportJob → ExportJob}
    (kept : ∀ job, w.jobs id = some job → job.status.IsFinal → (f job).status = job.status) :
      Settled w (w.update id f) := by
  intro other job found ended
  by_cases same : other = id
  · subst same
    exact ⟨f job, by simp [found], kept job found ended⟩
  · exact ⟨job, by simp [same, found], rfl⟩

section
variable {w next : World} (inv : Inv w) (orderly : Orderly next.log) (moved : Transition w next)
include inv orderly moved

theorem settled_step : Settled w next := by
  cases moved with
  | created job task id fresh new =>
    intro other found_ found ended
    have apart : other ≠ id := fun same => by rw [same, fresh] at found; cases found
    exact ⟨found_, by simpa [apart] using found, rfl⟩
  | worked id task next f at_ going same => exact settled_update (fun job _ _ => same job)
  | polled id task next at_ going stops => exact Settled.refl w
  | wrote id task next f status at_ going sets known =>
    refine settled_update (fun job found ended => ?_)
    obtain ⟨stored, there, still⟩ := inv.going id task at_ going
    have same : job = stored := Option.some.inj (found.symm.trans there)
    have clear : cancelledSince id w.log = false := orderly.1
    subst same
    rcases still with pending | running | ⟨-, cancelled⟩
    · rw [pending] at ended
      simp [JobStatus.IsFinal] at ended
    · rw [running] at ended
      simp [JobStatus.IsFinal] at ended
    · rw [clear] at cancelled
      cases cancelled
  | read request id job found open_ => exact Settled.refl w
  | acknowledged request id at_ =>
    refine settled_update (fun job found ended => ?_)
    obtain ⟨stored, there, still⟩ := inv.cancelling request id at_
    have same : job = stored := Option.some.inj (found.symm.trans there)
    have clear : endedSince request id w.log = false := orderly.1
    subst same
    rcases still with pending | running | cancelled | ended_
    · rw [pending] at ended
      simp [JobStatus.IsFinal] at ended
    · rw [running] at ended
      simp [JobStatus.IsFinal] at ended
    · exact cancelled.symm
    · rw [clear] at ended_
      cases ended_
  | answered => exact Settled.refl w

omit orderly in
theorem going_step (id : String) (task : Task) (at_ : next.tasks id = some task) (goes : task ≠ .done) :
    ∃ job, next.jobs id = some job ∧ (job.status = .pending ∨ job.status = .running ∨ job.status = .cancelled ∧
        cancelledSince id next.log = true) := by
  cases moved with
  | created job first other fresh new =>
    by_cases same : id = other
    · subst same
      exact ⟨job, by simp, .inl new⟩
    · have apart : other ≠ id := Ne.symm same
      obtain ⟨stored, there, still⟩ := inv.going id task (by simpa [same] using at_) goes
      exact ⟨stored, by simpa [same] using there, by simpa [cancelledSince, apart] using still⟩
  | worked other before after f was going same_ =>
    by_cases same : id = other
    · subst same
      obtain ⟨stored, there, still⟩ := inv.going id before was going
      exact ⟨f stored, by simp [there], by rw [same_]; exact still⟩
    · obtain ⟨stored, there, still⟩ := inv.going id task (by simpa [same] using at_) goes
      exact ⟨stored, by simpa [same] using there, still⟩
  | polled other before after was going stops =>
    by_cases same : id = other
    · subst same
      obtain ⟨stored, there, still⟩ := inv.going id before was going
      -- a task that goes on has looked and found no cancellation
      have stays : w.isCancelled id ≠ true := by
        intro cancelled
        have same : task = after := by simpa using at_.symm
        exact goes (same.trans (stops cancelled))
      have open_ : stored.status ≠ .cancelled :=
        fun cancelled => stays (by simp [World.isCancelled, there, cancelled])
      refine ⟨stored, there, ?_⟩
      rcases still with pending | running | ⟨cancelled, -⟩
      · exact .inl pending
      · exact .inr (.inl running)
      · exact absurd cancelled open_
    · have apart : other ≠ id := Ne.symm same
      obtain ⟨stored, there, still⟩ := inv.going id task (by simpa [same] using at_) goes
      exact ⟨stored, there, by simpa [cancelledSince, apart] using still⟩
  | wrote other before after f status was going sets known =>
    by_cases same : id = other
    · subst same
      obtain ⟨stored, there, -⟩ := inv.going id before was going
      have same : task = after := by simpa using at_.symm
      -- a task that goes on has not written that it ended
      have running : status = .running := by
        rcases known with running | ⟨-, finished⟩
        · exact running
        · exact absurd (same.trans finished) goes
      exact ⟨f stored, by simp [there], .inr (.inl (by rw [sets, running]))⟩
    · obtain ⟨stored, there, still⟩ :=
        inv.going id task (by simpa [same] using at_) goes
      exact ⟨stored, by simpa [same] using there,
        by simpa [cancelledSince] using still⟩
  | read request other job found open_ =>
    obtain ⟨stored, there, still⟩ := inv.going id task at_ goes
    exact ⟨stored, there, by simpa [cancelledSince] using still⟩
  | acknowledged request other was =>
    obtain ⟨stored, there, still⟩ := inv.going id task at_ goes
    by_cases same : id = other
    · subst same
      exact ⟨{ stored with status := .cancelled }, by simp [there],
        .inr (.inr ⟨rfl, by simp [cancelledSince]⟩)⟩
    · refine ⟨stored, by simpa [same] using there, ?_⟩
      rcases still with pending | running | ⟨cancelled, since⟩
      · exact .inl pending
      · exact .inr (.inl running)
      · exact .inr (.inr ⟨cancelled, by simp [cancelledSince, since]⟩)
  | answered => exact inv.going id task at_ goes

omit orderly in
theorem cancelling_step (request : Nat) (id : String) (at_ : next.requests request = some id) :
    ∃ job, next.jobs id = some job ∧ (job.status = .pending ∨ job.status = .running ∨ job.status = .cancelled ∨
      endedSince request id next.log = true) := by
  cases moved with
  | created job task other fresh new =>
    obtain ⟨stored, there, still⟩ := inv.cancelling request id at_
    have apart : id ≠ other := fun same => by rw [same, fresh] at there; cases there
    exact ⟨stored, by simpa [apart] using there, by simpa [endedSince] using still⟩
  | worked other before after f was going same_ =>
    obtain ⟨stored, there, still⟩ := inv.cancelling request id at_
    by_cases same : id = other
    · subst same
      exact ⟨f stored, by simp [there], by rw [same_]; exact still⟩
    · exact ⟨stored, by simpa [same] using there, still⟩
  | polled other before after was going stops =>
    obtain ⟨stored, there, still⟩ := inv.cancelling request id at_
    exact ⟨stored, there, by simpa [endedSince] using still⟩
  | wrote other before after f status was going sets known =>
    obtain ⟨stored, there, still⟩ := inv.cancelling request id at_
    by_cases same : id = other
    · subst same
      refine ⟨f stored, by simp [there], ?_⟩
      by_cases running : status = .running
      · exact .inr (.inl (by rw [sets, running]))
      · exact .inr (.inr (.inr (by simp [endedSince, running])))
    · refine ⟨stored, by simpa [same] using there, ?_⟩
      rcases still with pending | running | cancelled | ended
      · exact .inl pending
      · exact .inr (.inl running)
      · exact .inr (.inr (.inl cancelled))
      · exact .inr (.inr (.inr (by simp [endedSince, ended])))
  | read other id' job found open_ =>
    by_cases same : request = other
    · subst same
      have same : id' = id := by simpa using at_
      subst same
      exact ⟨job, found, open_.elim .inl (fun running => .inr (.inl running))⟩
    · have apart : other ≠ request := Ne.symm same
      obtain ⟨stored, there, still⟩ := inv.cancelling request id (by simpa [same] using at_)
      exact ⟨stored, there, by simpa [endedSince, apart] using still⟩
  | acknowledged other id' was =>
    have apart : request ≠ other := fun same => by subst same; simp at at_
    obtain ⟨stored, there, still⟩ := inv.cancelling request id (by simpa [apart] using at_)
    by_cases same : id = id'
    · subst same
      exact ⟨{ stored with status := .cancelled }, by simp [there], .inr (.inr (.inl rfl))⟩
    · exact ⟨stored, by simpa [same] using there,
        by simpa [endedSince] using still⟩
  | answered => exact inv.cancelling request id at_

theorem acknowledged_step (request : Nat) (id : String) (member : .acknowledged request id ∈ next.log) :
    ∃ job, next.jobs id = some job ∧ job.status = .cancelled := by
  have settled := settled_step inv orderly moved
  have before : .acknowledged request id ∈ w.log → ∃ job, next.jobs id = some job ∧ job.status = .cancelled := by
    intro old
    obtain ⟨job, found, cancelled⟩ := inv.acknowledged request id old
    obtain ⟨after, there, same⟩ := settled id job found (.inr (.inr cancelled))
    exact ⟨after, there, same.trans cancelled⟩
  cases moved with
  | created => exact before (by simpa using member)
  | worked => exact before member
  | polled => exact before (by simpa using member)
  | wrote => exact before (by simpa using member)
  | read => exact before (by simpa using member)
  | answered => exact before member
  | acknowledged other id' was =>
    by_cases old : .acknowledged request id ∈ w.log
    · exact before old
    · have new : request = other ∧ id = id' := by simpa [old] using member
      obtain ⟨rfl, rfl⟩ := new
      obtain ⟨job, there, -⟩ := inv.cancelling request id was
      exact ⟨{ job with status := .cancelled }, by simp [there], rfl⟩

theorem inv_step : Inv next :=
  ⟨going_step inv moved, cancelling_step inv moved, acknowledged_step inv orderly moved⟩

end

theorem inv_initial : Inv {} where
  going _ _ impossible := by cases impossible
  cancelling _ _ impossible := by cases impossible
  acknowledged _ _ impossible := by cases impossible

theorem orderly_of_transition {w next : World} (moved : Transition w next) (orderly : Orderly next.log) :
    Orderly w.log := by
  cases moved with
  | worked => exact orderly
  | answered => exact orderly
  | _ => exact orderly.before

def Leads (w next : World) : Prop := Orderly next.log → Orderly w.log ∧ (Inv w → Inv next ∧ Settled w next)

theorem Leads.trans {a b c : World} (first : Leads a b) (second : Leads b c) : Leads a c := by
  intro orderly
  obtain ⟨between, later⟩ := second orderly
  obtain ⟨start, earlier⟩ := first between
  refine ⟨start, fun inv => ?_⟩
  obtain ⟨kept, settled⟩ := earlier inv
  obtain ⟨last, again⟩ := later kept
  exact ⟨last, settled.trans again⟩

theorem run_leads {w last : World} {labels : List Step} (ran : run step w labels = some last) : Leads w last := by
  refine Lib.run_relates (fun w orderly => ⟨orderly, fun inv => ⟨inv, .refl w⟩⟩) Leads.trans
    (fun stepped orderly => ?_) ran
  have moved := transition_of_step stepped
  exact ⟨orderly_of_transition moved orderly, fun inv => ⟨inv_step inv orderly moved, settled_step inv orderly moved⟩⟩

/-- While events come in order, a job that has ended keeps its status, and one whose cancellation was acknowledged is
cancelled. -/
theorem status_settled {labels more : List Step} {w last : World} (reached : run step {} labels = some w)
    (later : run step w more = some last) (orderly : Orderly last.log) :
    (∀ id job, w.jobs id = some job → job.status.IsFinal →
      ∃ after, last.jobs id = some after ∧ after.status = job.status) ∧
    ∀ request id, .acknowledged request id ∈ last.log → ∃ job, last.jobs id = some job ∧ job.status = .cancelled := by
  obtain ⟨between, onward⟩ := run_leads later orderly
  obtain ⟨inv, -⟩ := (run_leads reached between).2 inv_initial
  obtain ⟨kept, settled⟩ := onward inv
  exact ⟨settled, kept.acknowledged⟩

/-- A job is created, read by a request before its task starts, and cancelled. -/
def cancelledEarly : List Step := [.create "j" "tenant" "all" "t" false, .cancel 0 "j", .acknowledge 0]

theorem cancelledEarly_started : ∃ w last, run step {} cancelledEarly = some w ∧
    run step w [.task "j" {}] = some last ∧ (w.jobs "j").map (·.status) = some .cancelled ∧
    (last.jobs "j").map (·.status) = some .running :=
  ⟨_, _, rfl, rfl, by decide, by decide⟩

def cancelledLate : List Step :=
  [.create "j" "tenant" "memories" "t" false, .task "j" {}, .task "j" {}, .task "j" {}, .cancel 0 "j", .acknowledge 0]

theorem cancelledLate_settled : ∃ w last, run step {} cancelledLate = some w ∧
    run step w [.task "j" {}, .task "j" {}, .task "j" {}, .task "j" {}] = some last ∧
    (w.jobs "j").map (·.status) = some .cancelled ∧
    (∀ id job, w.jobs id = some job → job.status.IsFinal →
      ∃ after, last.jobs id = some after ∧ after.status = job.status) ∧
    ∀ request id, .acknowledged request id ∈ last.log → ∃ job, last.jobs id = some job ∧ job.status = .cancelled :=
  ⟨_, _, rfl, rfl, by decide, status_settled (show run step {} cancelledLate = some _ from rfl)
    (show run step _ [.task "j" {}, .task "j" {}, .task "j" {}, .task "j" {}] = some _ from rfl)
      ⟨rfl, rfl, trivial⟩⟩

end Aeterna.Backup
