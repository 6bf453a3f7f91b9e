import Aeterna.Lib.Courses
import Aeterna.Operations.Remediation

namespace Aeterna.Operations
open Lib (CallFault Program Pool Thread)
open Decisions Remediations RemediationAction Lib.Pool Lib.CallFault

inductive Transition : RemediationStatus → RemediationStatus → Prop where
  | approve : Transition .pending .approved
  | reject : Transition .pending .rejected
  | execute : Transition .approved .executed
  | expire : Transition .pending .expired
  | fail (status : RemediationStatus) : Transition status .failed

def RemediationStatus.Settled : RemediationStatus → Prop
  | executed | rejected | expired => True
  | _ => False

def Decisions.Agree (decisions : Decisions) : RemediationStatus → Prop
  | .pending | .expired => decisions.approvals = 0 ∧ decisions.rejections = 0
  | .approved | .executed => decisions.approvals = 1 ∧ decisions.rejections = 0
  | .rejected => decisions.approvals = 0 ∧ decisions.rejections = 1
  | .failed => decisions.approvals + decisions.rejections ≤ 1

variable {status : RemediationStatus} {now : Int} {req : RemediationRequest}

theorem Decisions.Agree.few {decisions : Decisions} (agree : decisions.Agree status) :
    decisions.approvals + decisions.rejections ≤ 1 := by
  cases status <;> simp only [Agree] at agree <;> omega

theorem Decisions.Agree.add {decisions : Decisions} {status' : RemediationStatus}
    (agree : decisions.Agree status) (transition : Transition status status') :
    (decisions.add status').Agree status' := by
  cases transition <;> simp only [Agree, add] at agree ⊢
  case fail => exact Agree.few agree
  all_goals omega

theorem Transition.of_settled {status' : RemediationStatus} (transition : Transition status status')
    (settled : status.Settled) : status' = .failed := by
  cases transition with
  | fail status => rfl
  | _ => exact settled.elim

def RemediationAction.target : RemediationAction → RemediationStatus
  | approve _ _ => .approved
  | reject _ _ => .rejected
  | markExecuted => .executed
  | markFailed _ => .failed

theorem apply_transition {action : RemediationAction} {written : RemediationRequest}
    (applied : action.apply now req = .ok written) :
    written.id = req.id ∧ written.status = action.target ∧ Transition req.status written.status := by
  have guarded : ∀ expected verb, req.guardStatus expected verb = .ok req ∧ req.status = expected ∨
      ∃ e, req.guardStatus expected verb = .error e := by
    intro expected verb
    unfold RemediationRequest.guardStatus
    split
    · exact .inl ⟨rfl, ‹_›⟩
    · exact .inr ⟨_, rfl⟩
  cases action with
  | markFailed error =>
    cases applied
    exact ⟨rfl, rfl, .fail _⟩
  | approve reviewer notes =>
    simp only [apply, RemediationRequest.approve] at applied
    obtain ⟨passed, status⟩ | ⟨e, failed⟩ := guarded .pending "approve"
    · rw [passed] at applied
      cases applied
      exact ⟨rfl, rfl, status ▸ .approve⟩
    · rw [failed] at applied
      cases applied
  | reject reviewer reason =>
    simp only [apply, RemediationRequest.reject] at applied
    obtain ⟨passed, status⟩ | ⟨e, failed⟩ := guarded .pending "reject"
    · rw [passed] at applied
      cases applied
      exact ⟨rfl, rfl, status ▸ .reject⟩
    · rw [failed] at applied
      cases applied
  | markExecuted =>
    simp only [apply, RemediationRequest.markExecuted] at applied
    obtain ⟨passed, status⟩ | ⟨e, failed⟩ := guarded .approved "execute"
    · rw [passed] at applied
      cases applied
      exact ⟨rfl, rfl, status ▸ .execute⟩
    · rw [failed] at applied
      cases applied

theorem stale_pending {maxAgeSecs : Int} (stale : req.isStale maxAgeSecs now = true) :
    req.status = .pending := of_decide_eq_true (Bool.and_eq_true_iff.mp stale).1

structure Tally (r : Remediations) : Prop where
  agree : ∀ {id req}, r.items.get id = some req → req.id = id ∧ (r.decided id).Agree req.status
  few : ∀ id, (r.decided id).approvals + (r.decided id).rejections ≤ 1

/-- New requests are pending, and nothing was decided on them. -/
structure Undecided (r : Remediations) : Prop where
  pending : ∀ {id req}, r.items.get id = some req → req.id = id ∧ req.status = .pending
  none : ∀ id, r.decided id = {}

theorem Undecided.tally {r : Remediations} (undecided : Undecided r) : Tally r where
  agree := by
    intro id req found
    obtain ⟨own, pending⟩ := undecided.pending found
    refine ⟨own, ?_⟩
    rw [undecided.none, pending]
    exact ⟨rfl, rfl⟩
  few id := by
    rw [undecided.none]
    exact Nat.zero_le _

/-- A request that is settled is stored as such, or gone. -/
def Holds (id : String) (status : RemediationStatus) (r : Remediations) : Prop :=
  ∀ req, r.items.get id = some req → req.status = status

section
variable {r : Remediations}

theorem get_write (id : String) (written : RemediationRequest) (r : Remediations) (other : String) :
    (r.write id written).items.get other = if other = id then some written else r.items.get other := by
  unfold Remediations.write
  rw [Lib.Table.get_upsert]
  split
  · cases r.items.get id <;> rfl
  · rfl

theorem get_delete (id : String) (r : Remediations) (other : String) :
    (r.delete id).items.get other = if other = id then none else r.items.get other := by
  unfold Remediations.delete
  rw [Lib.Table.get_keepOnly]
  by_cases same : other = id <;> cases r.items.get other <;> simp [same]

structure FollowsRead (r : Remediations) (id : String) (read written : RemediationRequest) : Prop where
  stored : r.items.get id = some read
  own : written.id = read.id
  transition : Transition read.status written.status

variable {id key : String} {written : RemediationRequest} {status : RemediationStatus}

theorem Tally.write (tally : Tally r) {read : RemediationRequest} (follows : FollowsRead r id read written) :
    Tally (r.write id written) := by
  obtain ⟨own, agree⟩ := tally.agree follows.stored
  have added := agree.add follows.transition
  constructor
  · intro other req found
    rw [get_write] at found
    simp only [Remediations.write]
    split at found
    · rename_i same
      cases found
      rw [if_pos same, same]
      exact ⟨follows.own.trans own, added⟩
    · rename_i apart
      rw [if_neg apart]
      exact tally.agree found
  · intro other
    simp only [Remediations.write]
    split
    · exact added.few
    · exact tally.few other

theorem Holds.write (holds : Holds key status r) (settled : status.Settled) {read : RemediationRequest}
    (follows : FollowsRead r id read written) (fails : written.status = .failed → ¬ read.status.Settled) :
    Holds key status (r.write id written) := by
  intro req found
  rw [get_write] at found
  split at found
  · rename_i same
    subst same
    have was := holds read follows.stored
    have still : read.status.Settled := was ▸ settled
    exact absurd still (fails (follows.transition.of_settled still))
  · exact holds req found

theorem Tally.delete (tally : Tally r) (id : String) : Tally (r.delete id) := by
  refine ⟨fun {other req} found => ?_, tally.few⟩
  rw [get_delete] at found
  split at found
  · cases found
  · exact tally.agree found

theorem Holds.delete (holds : Holds key status r) (id : String) : Holds key status (r.delete id) := by
  intro req found
  rw [get_delete] at found
  split at found
  · cases found
  · exact holds req found

def KeepsSettled (r : Remediations) : RemediationCall → Prop
  | .act (.markFailed _) id => ∀ req, r.items.get id = some req → ¬ req.status.Settled
  | _ => True

theorem act_cases (action : RemediationAction) (id : String) (now : Int) (r : Remediations) :
    (RemediationStore.act action id now r).2 = r ∨ ∃ read written, FollowsRead r id read written ∧
      written.status = action.target ∧ (RemediationStore.act action id now r).2 = r.write id written := by
  unfold RemediationStore.act
  cases found : r.items.get id with
  | none => exact .inl rfl
  | some read =>
    dsimp only
    cases applied : action.apply now read with
    | error e => exact .inl rfl
    | ok written =>
      obtain ⟨own, target, transition⟩ := apply_transition applied
      exact .inr ⟨read, written, ⟨found, own, transition⟩, target, rfl⟩

theorem get_expireStale {maxAgeSecs now : Int} {req : RemediationRequest}
    (found : (RemediationStore.expireStale maxAgeSecs now r).2.items.get id = some req) :
    ∃ old, r.items.get id = some old ∧ (if old.isStale maxAgeSecs now then old.expire else old) = req := by
  dsimp only [RemediationStore.expireStale] at found
  rw [Lib.Table.get_update] at found
  exact Option.map_eq_some_iff.mp found

theorem get_cleanupOld {maxAgeSecs now : Int} {req : RemediationRequest}
    (found : (RemediationStore.cleanupOld maxAgeSecs now r).2.items.get id = some req) :
      r.items.get id = some req := by
  dsimp only [RemediationStore.cleanupOld] at found
  rw [Lib.Table.get_keepOnly, Option.filter_eq_some_iff] at found
  exact found.1

theorem Tally.call (tally : Tally r) (now : Int) (call : RemediationCall) :
    Tally (RemediationStore.call now r call) := by
  cases call with
  | act action id =>
    dsimp only [RemediationStore.call]
    obtain same | ⟨read, written, follows, _, same⟩ := act_cases action id now r
    · rw [same]
      exact tally
    · rw [same]
      exact tally.write follows
  | expireStale maxAgeSecs =>
    refine ⟨fun {id req} found => ?_, tally.few⟩
    obtain ⟨old, before, rfl⟩ := get_expireStale found
    obtain ⟨own, agree⟩ := tally.agree before
    split
    · rename_i stale
      rw [stale_pending stale] at agree
      exact ⟨own, agree⟩
    · exact ⟨own, agree⟩
  | cleanupOld maxAgeSecs => exact ⟨fun found => tally.agree (get_cleanupOld found), tally.few⟩

theorem Holds.call (holds : Holds key status r) (settled : status.Settled)
    (now : Int) {call : RemediationCall} (keeps : KeepsSettled r call) :
      Holds key status (RemediationStore.call now r call) := by
  cases call with
  | act action id =>
    dsimp only [RemediationStore.call]
    obtain same | ⟨read, written, follows, target, same⟩ := act_cases action id now r
    · rw [same]
      exact holds
    · rw [same]
      refine holds.write settled follows (fun failed => ?_)
      rw [target] at failed
      cases action with
      | markFailed error => exact keeps read follows.stored
      | _ => cases failed
  | expireStale maxAgeSecs =>
    intro req found
    obtain ⟨old, before, rfl⟩ := get_expireStale found
    split
    · rename_i stale
      have pending := stale_pending stale
      rw [holds old before] at pending
      subst pending
      exact settled.elim
    · exact holds old before
  | cleanupOld maxAgeSecs => exact fun req found => holds req (get_cleanupOld found)

end

variable (ok : Remediations → RemediationCall → Prop)

def MemoryStep (r next : Remediations) : Prop :=
  ∃ call now, ok r call ∧ next = RemediationStore.call now r call

abbrev MemoryRun : Remediations → Remediations → Prop :=
  Relation.ReflTransGen (MemoryStep ok)

structure DecidedOnce (r : Remediations) : Prop where
  once : ∀ id, (r.decided id).approvals + (r.decided id).rejections ≤ 1
  executed : ∀ {id req}, r.items.get id = some req → req.status = .executed →
    1 ≤ (r.decided id).approvals ∧ (r.decided id).rejections = 0

def SettledStays (r next : Remediations) : Prop :=
  ∀ id req, r.items.get id = some req → req.status.Settled → ∀ now, next.items.get id = some now →
    now.status = req.status

theorem Tally.decidedOnce {r : Remediations} (tally : Tally r) : DecidedOnce r where
  once := tally.few
  executed found executed := by
    have agree := (tally.agree found).2
    rw [executed] at agree
    exact ⟨Nat.le_of_eq agree.1.symm, agree.2⟩

def DecidesOnceInMemory (start : Remediations) : Prop :=
  ∀ r, MemoryRun ok start r → DecidedOnce r ∧ ∀ last, MemoryRun ok r last → SettledStays r last

theorem memory_decidesOnce {start : Remediations} (undecided : Undecided start) :
    DecidesOnceInMemory KeepsSettled start := by
  intro r run
  have tally : Tally r := by
    induction run with
    | refl => exact undecided.tally
    | tail _ step ih =>
      obtain ⟨call, now, _, rfl⟩ := step
      exact ih.call now call
  refine ⟨tally.decidedOnce, fun last later id req found settled => ?_⟩
  have holds : Holds id req.status last := by
    induction later with
    | refl =>
      intro now here
      rw [found] at here
      cases here
      rfl
    | tail _ step ih =>
      obtain ⟨call, now, keeps, rfl⟩ := step
      exact ih.call settled now keeps
  exact holds

def Legal : RemediationCommand → Prop
  | .set read written _ => written.id = read.id ∧ Transition read.status written.status
  | _ => True

section
variable {β : Type}

theorem set_uses {wrap : String → RemediationStoreError} {read written : RemediationRequest} (id : String)
    (legal : written.id = read.id ∧ Transition read.status written.status) :
      (RedisStore.set wrap read written id).Uses Legal :=
  .bind (.ask legal) (fun _ => .bind (.orFail _) (fun _ => .bind (.ask trivial) (fun _ => .orFail _)))

theorem listOne_uses (items : List RemediationRequest) (id : String) : (RedisStore.listOne items id).Uses Legal := by
  refine .bind (.ask trivial) (fun _ => .bind (.orFail _) (fun found => ?_))
  cases found with
  | some item => trivial
  | none => exact .bind (.ask trivial) (fun _ => .bind (.orFail _) (fun _ => trivial))

theorem foldlM_uses {σ τ : Type} {f : σ → τ → RemediationM σ} (one : ∀ a b, (f a b).Uses Legal) (list : List τ)
    (a : σ) :
    (list.foldlM f a).Uses Legal := by
  induction list generalizing a with
  | nil => trivial
  | cons b rest ih =>
    rw [List.foldlM_cons]
    exact .bind (one a b) ih

theorem listAll_uses : RedisStore.listAll.Uses Legal :=
  .bind (.ask trivial) (fun _ => .bind (.orFail _) (fun _ => foldlM_uses listOne_uses _ _))

theorem act_uses (action : RemediationAction) (id : String) : (RedisRemediationStore.act action id).Uses Legal := by
  refine .bind (.ask trivial) (fun _ => .bind (.orFail _) (fun found => ?_))
  cases found with
  | none => trivial
  | some req =>
    refine .bind (.ask trivial) (fun now => ?_)
    cases applied : action.apply now req with
    | error e => trivial
    | ok written =>
      obtain ⟨own, _, transition⟩ := apply_transition applied
      exact .bind (set_uses id ⟨own, transition⟩) (fun _ => trivial)

theorem expireOne_uses (maxAgeSecs now : Int) (count : Nat) (req : RemediationRequest) :
    (RedisRemediationStore.expireOne maxAgeSecs now count req).Uses Legal := by
  unfold RedisRemediationStore.expireOne
  split
  · rename_i stale
    exact .bind (set_uses req.id ⟨rfl, stale_pending stale ▸ .expire⟩) (fun _ => trivial)
  · trivial

theorem cleanOne_uses (maxAgeSecs now : Int) (count : Nat) (req : RemediationRequest) :
    (RedisRemediationStore.cleanOne maxAgeSecs now count req).Uses Legal := by
  unfold RedisRemediationStore.cleanOne
  split
  · refine .bind (.bind (.ask trivial)
      (fun _ => .bind (.orFail _) (fun _ => .bind (.ask trivial) (fun _ => .orFail _)))) ?_
    exact fun _ => trivial
  · trivial

theorem program_uses (call : RemediationCall) : call.program.Uses Legal := by
  cases call with
  | act action id => exact .bind (act_uses action id) (fun _ => trivial)
  | expireStale maxAgeSecs =>
    refine .bind (.bind (.ask trivial) (fun now => .bind listAll_uses (fun all => ?_))) (fun _ => trivial)
    exact foldlM_uses (expireOne_uses maxAgeSecs now) all 0
  | cleanupOld maxAgeSecs =>
    refine .bind (.bind (.ask trivial) (fun now => .bind listAll_uses (fun all => ?_))) (fun _ => trivial)
    exact foldlM_uses (cleanOne_uses maxAgeSecs now) all 0

end

abbrev RemediationPool (ι : Type) : Type :=
  Pool ι RemediationCommand RemediationCommand.Answer RemediationStoreError RemediationResult RemediationRedis

section
variable {ι : Type} [DecidableEq ι] (calls : ι → RemediationCall) (w : RemediationRedis)

def remediationPool : RemediationPool ι where
  state := w
  thread i := { program := (calls i).program }

def Aside (w next : RemediationRedis) : Prop := next.stored = w.stored

def Current (w : RemediationRedis) : RemediationCommand → Prop
  | .set read written id => CarriedOut (w.fault (.set read written id)) →
    w.stored.items.get id = some read ∧ (written.status = .failed → ¬ read.status.Settled)
  | _ => True

inductive Stored (w : RemediationRedis) : RemediationCommand → Remediations → Prop where
  | same (c : RemediationCommand) : Stored w c w.stored
  | set (read written : RemediationRequest) (id : String)
      (carriedOut : CarriedOut (w.fault (.set read written id))) :
    Stored w (.set read written id) (w.stored.write id written)
  | del (id : String) : Stored w (.del id) (w.stored.delete id)

theorem remediationExec_stored (c : RemediationCommand) (w : RemediationRedis) :
    Stored w c (remediationExec c w).2.stored := by
  have settled : ∀ {c : RemediationCommand} {α : Type} {value : α} {after : RemediationRedis}
      {fault : Option CallFault},
      (CarriedOut fault → Stored w c after.stored) →
        Stored w c (settle value w after fault).2.stored :=
    fun carried => settle_keeps (Q := fun next : RemediationRedis => Stored w _ next.stored)
      (.same _) carried
  cases c with
  | get id => exact settled (fun _ => .same _)
  | set read written id => exact settled (.set read written id)
  | sadd id => exact settled (fun _ => .same _)
  | smembers => exact settled (fun _ => .same _)
  | del id => exact settled (fun _ => .del id)
  | srem id => exact settled (fun _ => .same _)
  | timestamp => exact .same _

variable {w} {c : RemediationCommand}

theorem Tally.exec (tally : Tally w.stored) (legal : Legal c) (current : Current w c) :
    Tally (remediationExec c w).2.stored := by
  have stored := remediationExec_stored c w
  generalize (remediationExec c w).2.stored = next at stored ⊢
  cases stored with
  | same c => exact tally
  | set read written id carriedOut => exact tally.write ⟨(current carriedOut).1, legal.1, legal.2⟩
  | del id => exact tally.delete id

theorem Holds.exec {key : String} {status : RemediationStatus} (holds : Holds key status w.stored)
    (settled : status.Settled) (legal : Legal c) (current : Current w c) :
    Holds key status (remediationExec c w).2.stored := by
  have stored := remediationExec_stored c w
  generalize (remediationExec c w).2.stored = next at stored ⊢
  cases stored with
  | same c => exact holds
  | set read written id carriedOut =>
    obtain ⟨found, fails⟩ := current carriedOut
    exact holds.write settled ⟨found, legal.1, legal.2⟩ fails
  | del id => exact holds.delete id

def RemediationStatus.Decision : RemediationStatus → Prop
  | approved | rejected => True
  | _ => False

def RemediationCall.Decides (id : String) : RemediationCall → Prop
  | act (.approve _ _) key | act (.reject _ _) key => key = id
  | _ => False

def Wrote (id : String) (notes : List (Lib.Note RemediationCommand.Answer)) : Prop :=
  ∃ read written, ⟨.set read written id, .ok ()⟩ ∈ notes ∧ written.status.Decision

def decisions (id : String) (r : Remediations) : Nat := (r.decided id).approvals + (r.decided id).rejections

omit [DecidableEq ι] in
theorem decisions_add (decisions : Decisions) (status : RemediationStatus) :
    decisions.approvals + decisions.rejections ≤ (decisions.add status).approvals +
      (decisions.add status).rejections ∧
      (status.Decision → decisions.approvals + decisions.rejections + 1 =
        (decisions.add status).approvals + (decisions.add status).rejections) := by
  cases status <;> simp [add, RemediationStatus.Decision] <;> omega

theorem decisions_exec (id : String) (c : RemediationCommand) (w : RemediationRedis) :
    decisions id w.stored ≤ decisions id (remediationExec c w).2.stored := by
  have stored := remediationExec_stored c w
  generalize (remediationExec c w).2.stored = next at stored ⊢
  cases stored with
  | same c => exact Nat.le_refl _
  | del key => exact Nat.le_refl _
  | set read written key carriedOut =>
    unfold decisions
    dsimp only [write]
    split
    · rename_i same
      rw [same]
      exact (decisions_add _ _).1
    · exact Nat.le_refl _

variable {id : String}

theorem decisions_written {read written : RemediationRequest} (decision : written.status.Decision)
    (answered : (remediationExec (.set read written id) w).1 = .ok ()) :
    decisions id w.stored + 1 = decisions id (remediationExec (.set read written id) w).2.stored := by
  have after : (remediationExec (.set read written id) w).2 = { w with stored := w.stored.write id written } :=
    (settle_ok answered).2
  rw [after]
  unfold decisions
  dsimp only [write]
  rw [if_pos rfl]
  exact (decisions_add _ _).2 decision

omit [DecidableEq ι] in
theorem apply_decision {action : RemediationAction} {key : String}
    (decides : RemediationCall.Decides id (.act action key)) :
    key = id ∧ action.target.Decision := by
  cases action with
  | approve reviewer notes => exact ⟨decides, trivial⟩
  | reject reviewer reason => exact ⟨decides, trivial⟩
  | markExecuted => exact decides.elim
  | markFailed error => exact decides.elim

omit [DecidableEq ι] in
theorem act_wrote (action : RemediationAction) (id : String) {s : RemediationRedis}
    (decision : action.target.Decision) :
    (RedisRemediationStore.act action id).Meets (watching remediationExec (fun _ => True))
      (fun outcome notes _ => ∀ req, outcome = .ok req → Wrote id notes) [] s := by
  unfold RedisRemediationStore.act
  refine meets_watched (fun answer _ => ?_)
  cases answer with
  | error e => exact fun _ failed => nomatch failed
  | ok found =>
    cases found with
    | none => exact fun _ failed => nomatch failed
    | some req =>
      refine meets_watched (fun now _ => ?_)
      cases applied : action.apply now req with
      | error e => exact fun _ failed => nomatch failed
      | ok written =>
        refine meets_watched (fun stored _ => ?_)
        cases stored with
        | error e => exact fun _ failed => nomatch failed
        | ok _ =>
          refine meets_watched (fun indexed _ => ?_)
          cases indexed with
          | error e => exact fun _ failed => nomatch failed
          | ok _ => exact fun _ _ => ⟨req, written, .tail _ (.head _), (apply_transition applied).2.1 ▸ decision⟩

variable {calls} {pool : RemediationPool ι} {allowed : RemediationPool ι → ι → Prop}

theorem course_tallied (id : String) (course : Course remediationExec allowed Aside (remediationPool calls w) pool) :
    ∃ wrote : Finset ι, (∀ i, i ∈ wrote ↔ Wrote id (pool.thread i).notes) ∧
      wrote.card ≤ decisions id pool.state.stored := by
  classical
  have tallied : pool.Tallied (fun thread => Wrote id thread.notes) (fun w => decisions id w.stored)
      (fun _ => 0) := by
    refine course.tallied _ _ _ ?_ (Nat.zero_le _) ?_ (fun s t moved => ⟨rfl, congrArg (decisions id) moved⟩)
    · rintro i ⟨_, _, member, _⟩
      cases member
    · intro pool i c next _ _
      have grown := decisions_exec id c pool.state
      by_cases was : Wrote id (pool.thread i).notes
      · rw [if_pos was]
        split <;> omega
      · rw [if_neg was]
        split
        · rename_i wrote
          obtain ⟨read, written, member, decision⟩ := wrote
          rcases List.mem_cons.mp member with now | before
          · obtain ⟨rfl, answered⟩ := Sigma.mk.inj now
            have more := decisions_written decision (eq_of_heq answered).symm
            omega
          · exact absurd ⟨read, written, before, decision⟩ was
        · omega
  obtain ⟨wrote, members, bound⟩ := tallied
  dsimp only at bound
  exact ⟨wrote, members, by omega⟩

def Returned (pool : RemediationPool ι) (i : ι) : Prop := ∃ result, (pool.thread i).program = .done result

theorem returned_wrote (course : Course remediationExec allowed Aside (remediationPool calls w) pool) {i : ι}
    (decides : (calls i).Decides id) (returned : Returned pool i) : Wrote id (pool.thread i).notes := by
  obtain ⟨result, done⟩ := returned
  have wrote : ((remediationPool calls w).thread i).program.Meets (watching remediationExec (fun _ => True))
      (fun outcome notes _ => ∀ result, outcome = .ok result → Wrote id notes) [] w := by
    cases call : calls i with
    | act action key =>
      rw [call] at decides
      obtain ⟨rfl, decision⟩ := apply_decision decides
      simp only [remediationPool, call]
      refine (act_wrote action key decision).seq (fun e _ _ _ _ failed => nomatch failed) ?_
      exact fun req notes _ wrote _ _ => wrote req rfl
    | expireStale maxAgeSecs =>
      rw [call] at decides
      exact decides.elim
    | cleanupOld maxAgeSecs =>
      rw [call] at decides
      exact decides.elim
  have wrote := course.returned (fun _ _ => trivial) wrote done
  exact wrote result rfl

structure RedisDecidedOnce (calls : ι → RemediationCall) (pool : RemediationPool ι) : Prop extends
    DecidedOnce pool.state.stored where
  returned : ∀ id i j, (calls i).Decides id → (calls j).Decides id → Returned pool i → Returned pool j → i = j

def DecidesOnceInRedis (calls : ι → RemediationCall) (w : RemediationRedis) (allowed : RemediationPool ι → ι → Prop) :
    Prop :=
  ∀ pool, Course remediationExec allowed Aside (remediationPool calls w) pool → RedisDecidedOnce calls pool ∧
    ∀ last, Course remediationExec allowed Aside pool last → SettledStays pool.state.stored last.state.stored

theorem legal_call (course : Course remediationExec allowed Aside (remediationPool calls w) pool) {i : ι}
    {next : c.Answer → RemediationM RemediationResult} (shape : (pool.thread i).program = .call c next) :
      Legal c := by
  have uses := course.uses (i := i) (program_uses (calls i))
  rw [shape] at uses
  exact uses.1

theorem redis_decidesOnce (calls : ι → RemediationCall) (w : RemediationRedis) (undecided : Undecided w.stored) :
    DecidesOnceInRedis calls w (fun pool i => pool.Permitted (fun _ c w => Current w c) i) := by
  intro pool course
  have tally : Tally pool.state.stored := by
    refine course.invariant (J := fun w => Tally w.stored) undecided.tally ?_ (fun s t tally moved => moved ▸ tally)
    intro pool i c next before tally current shape
    exact tally.exec (legal_call before shape) (current c next shape)
  refine ⟨{ toDecidedOnce := tally.decidedOnce, returned := ?_ }, ?_⟩
  · intro id i j decidesI decidesJ returnedI returnedJ
    obtain ⟨wrote, members, bound⟩ := course_tallied id course
    have few : wrote.card ≤ 1 := Nat.le_trans bound (tally.few id)
    refine Finset.card_le_one.mp few i ?_ j ?_
    · exact (members i).mpr (returned_wrote course decidesI returnedI)
    · exact (members j).mpr (returned_wrote course decidesJ returnedJ)
  · intro last later id req found settled
    refine later.invariant (J := fun w => Holds id req.status w.stored) ?_ ?_ (fun s t holds moved => moved ▸ holds)
    · intro now here
      rw [found] at here
      cases here
      rfl
    · intro pool' i c next before holds current shape
      exact holds.exec settled (legal_call (course.trans before) shape) (current c next shape)

/-- In Redis as in memory, a remediation request is decided once if no write is out of date and no settled
request is marked as failed. -/
theorem remediation_decidedOnce (calls : ι → RemediationCall) (w : RemediationRedis) (undecided : Undecided w.stored)
    (r : Remediations) (undecided' : Undecided r) :
    DecidesOnceInRedis calls w (fun pool i => pool.Permitted (fun _ c w => Current w c) i) ∧
      DecidesOnceInMemory KeepsSettled r :=
  ⟨redis_decidesOnce calls w undecided, memory_decidesOnce undecided'⟩

end

def onePending : Remediations where
  items := ({} : Lib.Table _ _).insertOrIgnore "r1" { id := "r1", status := .pending, createdAt := 0 }

theorem onePending_undecided : Undecided onePending := by
  refine ⟨fun {id req} found => ?_, fun _ => rfl⟩
  rw [onePending, Lib.Table.get_insertOrIgnore] at found
  split at found
  · rename_i same
    cases found
    exact ⟨same.symm, rfl⟩
  · cases found

def twoReviews : Bool → RemediationCall
  | false => .act (.approve "alice" none) "r1"
  | true => .act (.reject "bob" "too risky") "r1"

theorem remediation_decidedOnce_sample : DecidesOnceInRedis twoReviews { stored := onePending }
      (fun pool i => pool.Permitted (fun _ c w => Current w c) i) ∧
      DecidesOnceInMemory KeepsSettled onePending :=
  remediation_decidedOnce twoReviews { stored := onePending } onePending_undecided onePending onePending_undecided

def bothReviewed : RemediationPool Bool :=
  [false, true, false, false, false, true, true, true].foldl (Pool.step remediationExec)
    (remediationPool twoReviews { stored := onePending })

def executed : Remediations :=
  RemediationStore.call 0 (RemediationStore.call 0 onePending (.act (.approve "alice" none) "r1"))
    (.act .markExecuted "r1")

theorem remediation_decidedTwice : ¬ DecidesOnceInRedis twoReviews { stored := onePending } (fun _ _ => True) ∧
      ¬ DecidesOnceInMemory (fun _ _ => True) onePending := by
  constructor
  · intro decides
    have course : Course remediationExec (fun _ _ => True) Aside
        (remediationPool twoReviews { stored := onePending })
        bothReviewed := .schedule (fun _ _ => trivial) .start _
    have same := (decides bothReviewed course).1.returned "r1" false true rfl rfl ⟨_, rfl⟩ ⟨_, rfl⟩
    cases same
  · intro decides
    have run : MemoryRun (fun _ _ => True) onePending executed :=
      .tail (.tail .refl ⟨.act (.approve "alice" none) "r1", 0, trivial, rfl⟩)
        ⟨.act .markExecuted "r1", 0, trivial, rfl⟩
    have later : MemoryRun (fun _ _ => True) executed
        (RemediationStore.call 0 executed (.act (.markFailed "late error") "r1")) :=
      .tail .refl ⟨_, 0, trivial, rfl⟩
    have stays := (decides executed run).2 _ later "r1" _ rfl trivial _ rfl
    cases stays

end Aeterna.Operations
