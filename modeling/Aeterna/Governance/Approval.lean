import Mathlib.Data.List.Induction
import Mathlib.Data.Finset.Dedup
import Aeterna.Access.Entities

namespace Aeterna.Governance
open List

inductive ApprovalModeKind where
  | single | quorum | unanimous
  deriving DecidableEq, Repr

inductive RiskLevelKind where
  | low | medium | high | critical
  deriving DecidableEq, Repr

structure ApprovalWorkflowContext where
  (requiredApprovals currentApprovals : Int32)
  approvalMode : ApprovalModeKind
  autoApproveLowRisk : Bool
  riskLevel : RiskLevelKind
  deriving DecidableEq

abbrev Instant := Int

inductive ApprovalEvent where
  | submit (requestorId : Uuid) (submittedAt : Instant)
  | approve (approverId : Uuid) (approvedAt : Instant) (comment : Option String)
  | reject (rejectorId : Uuid) (rejectedAt : Instant) (reason : String)
  | expire (expiredAt : Instant)
  | cancel (cancelledBy : Uuid) (cancelledAt : Instant)
  | apply (appliedBy : Uuid) (appliedAt : Instant)
  deriving DecidableEq

structure ApprovalDecisionRecord where
  approverId : Uuid
  timestamp : Instant
  comment : Option String
  deriving DecidableEq

inductive WorkflowState where
  | draft
  | pending (submittedAt : Instant)
  | approved (approvedAt : Instant)
  | applied (appliedAt : Instant)
  | rejected (reason : String) (rejectedAt : Instant)
  | expired (expiredAt : Instant)
  | cancelled (cancelledAt : Instant)
  deriving DecidableEq

/-- `{:?}` of times and of texts. -/
structure DebugTexts where
  time : Instant → String
  text : String → String

namespace DebugTexts
variable (debug : DebugTexts)

def fields (name : String) (items : List (String × String)) : String :=
  name ++ " \x7b " ++ ", ".intercalate (items.map (fun item => item.1 ++ ": " ++ item.2)) ++ " \x7d"

def state : WorkflowState → String
  | .draft => "Draft"
  | .pending instant => fields "Pending" [("submitted_at", debug.time instant)]
  | .approved instant => fields "Approved" [("approved_at", debug.time instant)]
  | .applied instant => fields "Applied" [("applied_at", debug.time instant)]
  | .rejected reason instant => fields "Rejected" [("reason", debug.text reason), ("rejected_at", debug.time instant)]
  | .expired instant => fields "Expired" [("expired_at", debug.time instant)]
  | .cancelled instant => fields "Cancelled" [("cancelled_at", debug.time instant)]

def option : Option String → String
  | some text => "Some(" ++ debug.text text ++ ")"
  | none => "None"

def event : ApprovalEvent → String
  | .submit id instant => fields "Submit" [("requestor_id", id.text), ("submitted_at", debug.time instant)]
  | .approve id instant comment =>
    fields "Approve" [("approver_id", id.text), ("approved_at", debug.time instant),
      ("comment", debug.option comment)]
  | .reject id instant reason =>
    fields "Reject" [("rejector_id", id.text), ("rejected_at", debug.time instant), ("reason", debug.text reason)]
  | .expire instant => fields "Expire" [("expired_at", debug.time instant)]
  | .cancel id instant => fields "Cancel" [("cancelled_by", id.text), ("cancelled_at", debug.time instant)]
  | .apply id instant => fields "Apply" [("applied_by", id.text), ("applied_at", debug.time instant)]

end DebugTexts

structure WorkflowError where
  (currentState event : String)
  deriving DecidableEq

def WorkflowError.text (error : WorkflowError) : String :=
  "Invalid transition from " ++ error.currentState ++ " with event " ++ error.event

structure ApprovalWorkflow where
  context : ApprovalWorkflowContext
  state : WorkflowState
  decisions : List ApprovalDecisionRecord
  rejectionReason : Option String
  resolutionTimestamp : Option Instant
  deriving DecidableEq

namespace ApprovalWorkflow

def new (context : ApprovalWorkflowContext) : ApprovalWorkflow where
  context := context
  state := .draft
  decisions := []
  rejectionReason := none
  resolutionTimestamp := none

def shouldAutoApprove (w : ApprovalWorkflow) : Bool :=
  w.context.autoApproveLowRisk && w.context.riskLevel = .low

def isFullyApproved (w : ApprovalWorkflow) : Bool :=
  match w.context.approvalMode with
  | .single => w.context.currentApprovals ≥ 1
  | .quorum => w.context.currentApprovals ≥ w.context.requiredApprovals
  | .unanimous => w.context.currentApprovals ≥ w.context.requiredApprovals

/-- `record_approval`; the counter wraps as in a release build. -/
def recordApproval (w : ApprovalWorkflow) (approverId : Uuid) (timestamp : Instant) (comment : Option String) :
    ApprovalWorkflow :=
  { w with
    decisions := w.decisions ++ [⟨approverId, timestamp, comment⟩]
    context := { w.context with currentApprovals := w.context.currentApprovals + 1 } }

def handle (debug : DebugTexts) (w : ApprovalWorkflow) (event : ApprovalEvent) :
    Except WorkflowError Unit × ApprovalWorkflow :=
  match w.state, event with
  | .draft, .submit _ submittedAt =>
    if w.shouldAutoApprove then
      (.ok (), { w with resolutionTimestamp := some submittedAt, state := .approved submittedAt })
    else (.ok (), { w with state := .pending submittedAt })
  | .pending _, .approve approverId approvedAt comment =>
    let recorded := w.recordApproval approverId approvedAt comment
    if recorded.isFullyApproved then
      (.ok (), { recorded with resolutionTimestamp := some approvedAt, state := .approved approvedAt })
    else (.ok (), recorded)
  | .pending _, .reject _ rejectedAt reason =>
    (.ok (), { w with
      rejectionReason := some reason
      resolutionTimestamp := some rejectedAt
      state := .rejected reason rejectedAt })
  | .pending _, .expire expiredAt =>
    (.ok (), { w with resolutionTimestamp := some expiredAt, state := .expired expiredAt })
  | .pending _, .cancel _ cancelledAt =>
    (.ok (), { w with resolutionTimestamp := some cancelledAt, state := .cancelled cancelledAt })
  | .approved _, .apply _ appliedAt => (.ok (), { w with state := .applied appliedAt })
  | state, event => (.error ⟨debug.state state, debug.event event⟩, w)

def isTerminal (w : ApprovalWorkflow) : Bool :=
  match w.state with
  | .applied _ | .rejected .. | .expired _ | .cancelled _ => true
  | _ => false

def run (debug : DebugTexts) (w : ApprovalWorkflow) (events : List ApprovalEvent) : ApprovalWorkflow :=
  events.foldl (fun w event => (w.handle debug event).2) w

def approvers (w : ApprovalWorkflow) : Finset Uuid := (w.decisions.map ApprovalDecisionRecord.approverId).toFinset

inductive Moves (w : ApprovalWorkflow) : ApprovalEvent → ApprovalWorkflow → Prop where
  | autoApprove {id submittedAt} (draft : w.state = .draft) (auto : w.shouldAutoApprove = true) :
      Moves w (.submit id submittedAt)
        { w with resolutionTimestamp := some submittedAt, state := .approved submittedAt }
  | submit {id submittedAt} (draft : w.state = .draft) (manual : w.shouldAutoApprove = false) :
      Moves w (.submit id submittedAt) { w with state := .pending submittedAt }
  | approveLast {id approvedAt comment since} (waiting : w.state = .pending since)
      (full : (w.recordApproval id approvedAt comment).isFullyApproved = true) :
      Moves w (.approve id approvedAt comment) { w.recordApproval id approvedAt comment with
        resolutionTimestamp := some approvedAt, state := .approved approvedAt }
  | approveMore {id approvedAt comment since} (waiting : w.state = .pending since)
      (more : (w.recordApproval id approvedAt comment).isFullyApproved = false) :
      Moves w (.approve id approvedAt comment) (w.recordApproval id approvedAt comment)
  | reject {id rejectedAt reason since} (waiting : w.state = .pending since) :
      Moves w (.reject id rejectedAt reason) { w with
        rejectionReason := some reason
        resolutionTimestamp := some rejectedAt
        state := .rejected reason rejectedAt }
  | expire {expiredAt since} (waiting : w.state = .pending since) :
      Moves w (.expire expiredAt) { w with resolutionTimestamp := some expiredAt, state := .expired expiredAt }
  | cancel {id cancelledAt since} (waiting : w.state = .pending since) :
      Moves w (.cancel id cancelledAt)
        { w with resolutionTimestamp := some cancelledAt, state := .cancelled cancelledAt }
  | apply {id appliedAt since} (approved : w.state = .approved since) :
      Moves w (.apply id appliedAt) { w with state := .applied appliedAt }

theorem handle_cases (debug : DebugTexts) (w : ApprovalWorkflow) (event : ApprovalEvent) :
    (w.handle debug event = (.error ⟨debug.state w.state, debug.event event⟩, w)) ∨
      ∃ next, w.handle debug event = (.ok (), next) ∧ w.Moves event next := by
  cases reached : w.state with
  | draft =>
    cases event with
    | submit id submittedAt =>
      cases auto : w.shouldAutoApprove with
      | true => exact .inr ⟨_, by simp only [handle, reached, auto, if_true], .autoApprove reached auto⟩
      | false => exact .inr ⟨_, by simp [handle, reached, auto], .submit reached auto⟩
    | _ => exact .inl (by simp only [handle, reached])
  | pending since =>
    cases event with
    | approve id approvedAt comment =>
      cases full : (w.recordApproval id approvedAt comment).isFullyApproved with
      | true => exact .inr ⟨_, by simp only [handle, reached, full, if_true], .approveLast reached full⟩
      | false => exact .inr ⟨_, by simp [handle, reached, full], .approveMore reached full⟩
    | reject id rejectedAt reason => exact .inr ⟨_, by simp only [handle, reached], .reject reached⟩
    | expire expiredAt => exact .inr ⟨_, by simp only [handle, reached], .expire reached⟩
    | cancel id cancelledAt => exact .inr ⟨_, by simp only [handle, reached], .cancel reached⟩
    | _ => exact .inl (by simp only [handle, reached])
  | approved since =>
    cases event with
    | apply id appliedAt => exact .inr ⟨_, by simp only [handle, reached], .apply reached⟩
    | _ => exact .inl (by simp only [handle, reached])
  | _ => exact .inl (by cases event <;> simp only [handle, reached])

section
variable {debug : DebugTexts} {w : ApprovalWorkflow} {event : ApprovalEvent}

theorem Moves.live {next : ApprovalWorkflow} (moves : w.Moves event next) : w.isTerminal = false := by
  cases moves <;> simp_all [isTerminal]

theorem handle_error {error : WorkflowError} (refused : (w.handle debug event).1 = .error error) :
    (w.handle debug event).2 = w := by
  rcases handle_cases debug w event with stays | ⟨next, shape, _⟩
  · rw [stays]
  · rw [shape] at refused
    cases refused

theorem handle_terminal (terminal : w.isTerminal = true) : (w.handle debug event).2 = w := by
  rcases handle_cases debug w event with stays | ⟨next, _, moves⟩
  · rw [stays]
  · rw [moves.live] at terminal
    cases terminal

theorem handle_applied {instant : Instant} (applied : (w.handle debug event).2.state = .applied instant) :
    w.state = .applied instant ∨ ∃ since, w.state = .approved since := by
  rcases handle_cases debug w event with stays | ⟨next, shape, moves⟩
  · rw [stays] at applied
    exact .inl applied
  · rw [shape] at applied
    cases moves with
    | apply approved => exact .inr ⟨_, approved⟩
    | approveMore waiting => exact absurd (waiting.symm.trans applied) (by simp)
    | _ => cases applied

end

end ApprovalWorkflow

section
open ApprovalWorkflow

def Quorate (context : ApprovalWorkflowContext) (w : ApprovalWorkflow) : Prop :=
  ∀ instant, w.state = .approved instant → context.approvalMode ≠ .single → (new context).shouldAutoApprove = false →
    context.requiredApprovals.toInt ≤ w.approvers.card

structure LawfulStep (debug : DebugTexts) (w : ApprovalWorkflow) (event : ApprovalEvent) : Prop where
  terminal : w.isTerminal = true → (w.handle debug event).2 = w
  applied : ∀ instant, (w.handle debug event).2.state = .applied instant →
    w.state = .applied instant ∨ ∃ since, w.state = .approved since
  error : ∀ error, (w.handle debug event).1 = .error error → (w.handle debug event).2 = w

def FirstApproval (w : ApprovalWorkflow) (event : ApprovalEvent) : Prop :=
  ∀ id approvedAt comment, event = .approve id approvedAt comment → (∃ since, w.state = .pending since) →
    id ∉ w.approvers

theorem lawfulStep (debug : DebugTexts) (w : ApprovalWorkflow) (event : ApprovalEvent) :
    LawfulStep debug w event where
  terminal := handle_terminal
  applied := fun _ => handle_applied
  error := fun _ => handle_error

structure Counted (context : ApprovalWorkflowContext) (w : ApprovalWorkflow) : Prop where
  counter : w.context = { context with currentApprovals := Int32.ofNat w.decisions.length }
  different : (w.decisions.map ApprovalDecisionRecord.approverId).Nodup
  enough : ∀ instant, w.state = .approved instant → context.approvalMode ≠ .single →
    (new context).shouldAutoApprove = false → context.requiredApprovals.toInt ≤ w.decisions.length

theorem ofNat_toInt_le (n : Nat) : (Int32.ofNat n).toInt ≤ n := by
  rw [Int32.toInt_ofNat']
  have wrapped : Int.bmod n Int32.size ≤ (n : Int) % Int32.size := by
    dsimp only [Int.bmod]
    split <;> omega
  have size : (n : Int) % Int32.size ≤ n := by
    rw [show (Int32.size : Int) = 4294967296 from rfl]
    omega
  exact Int.le_trans wrapped size

variable {context : ApprovalWorkflowContext}

theorem recordApproval_counted {w : ApprovalWorkflow} {id : Uuid}
    {since : Instant} (approvedAt : Instant) (comment : Option String) (counted : Counted context w)
    (waiting : w.state = .pending since) (first : id ∉ w.approvers) :
    Counted context (w.recordApproval id approvedAt comment) := by
  obtain ⟨same, different, _⟩ := counted
  refine ⟨?_, ?_, fun instant approved => ?_⟩
  · simp [recordApproval, same, Int32.ofNat_add]
  · have absent : id ∉ w.decisions.map ApprovalDecisionRecord.approverId := by
      intro member
      exact first (mem_toFinset.mpr member)
    simp only [recordApproval, map_append, map_cons, map_nil]
    exact Nodup.append different (nodup_singleton id) (by simpa using absent)
  · rw [show (w.recordApproval id approvedAt comment).state = w.state from rfl, waiting] at approved
    cases approved

theorem isFullyApproved_enough {w : ApprovalWorkflow}
    (same : w.context = { context with currentApprovals := Int32.ofNat w.decisions.length })
    (several : context.approvalMode ≠ .single) (full : w.isFullyApproved = true) :
    context.requiredApprovals.toInt ≤ w.decisions.length := by
  have reached : context.requiredApprovals ≤ Int32.ofNat w.decisions.length := by
    unfold isFullyApproved at full
    rw [same] at full
    cases mode : context.approvalMode with
    | single => exact absurd mode several
    | quorum => simpa [mode] using full
    | unanimous => simpa [mode] using full
  have counted := Int32.le_iff_toInt_le.mp reached
  have bound := ofNat_toInt_le w.decisions.length
  omega

theorem handle_counted {debug : DebugTexts} {w : ApprovalWorkflow}
    {event : ApprovalEvent} (counted : Counted context w) (first : FirstApproval w event) :
    Counted context (w.handle debug event).2 := by
  rcases handle_cases debug w event with stays | ⟨next, shape, moves⟩
  · rw [stays]
    exact counted
  · rw [shape]
    cases moves with
    | autoApprove draft auto =>
      refine ⟨counted.counter, counted.different, fun _ _ _ manual => ?_⟩
      have same : w.shouldAutoApprove = (new context).shouldAutoApprove := by
        rw [shouldAutoApprove, counted.counter]
        rfl
      rw [← same, auto] at manual
      cases manual
    | @approveLast id approvedAt comment _ waiting full =>
      have recorded := recordApproval_counted approvedAt comment counted waiting
          (first id approvedAt comment rfl ⟨_, waiting⟩)
      exact ⟨recorded.counter, recorded.different,
        fun _ _ several _ => isFullyApproved_enough recorded.counter several full⟩
    | approveMore waiting more => exact recordApproval_counted _ _ counted waiting (first _ _ _ rfl ⟨_, waiting⟩)
    | submit | reject | expire | cancel | apply =>
      exact ⟨counted.counter, counted.different, fun _ approved => by cases approved⟩

theorem run_counted (debug : DebugTexts) (fresh : context.currentApprovals = 0) (events : List ApprovalEvent)
    (first : ∀ earlier event later, events = earlier ++ event :: later →
    FirstApproval ((new context).run debug earlier) event) :
    Counted context ((new context).run debug events) := by
  induction events using reverseRecOn with
  | nil =>
    refine ⟨?_, nodup_nil, fun _ approved => by cases approved⟩
    show context = { context with currentApprovals := 0 }
    rw [← fresh]
  | append_singleton earlier event ih =>
    have before := ih (fun start next rest split => first start next (rest ++ [event]) (by rw [split]; simp))
    rw [run, foldl_append]
    exact handle_counted before (first earlier event [] rfl)

/-- If nobody approves a pending workflow twice, it is approved by as many people as it requires. -/
theorem quorum_distinct (debug : DebugTexts) (context : ApprovalWorkflowContext)
    (fresh : context.currentApprovals = 0)
    (events : List ApprovalEvent)
    (first : ∀ earlier event later, events = earlier ++ event :: later →
      FirstApproval ((new context).run debug earlier) event) :
    Quorate context ((new context).run debug events) ∧
      ∀ event, LawfulStep debug ((new context).run debug events) event := by
  refine ⟨fun instant approved several manual => ?_, lawfulStep debug _⟩
  obtain ⟨_, different, enough⟩ := run_counted debug fresh events first
  have count := enough instant approved several manual
  rw [approvers, toFinset_card_of_nodup different, length_map]
  exact count

section Samples

def plainTexts : DebugTexts := ⟨toString, id⟩

def approverA : Uuid := ⟨"00000000-0000-0000-0000-00000000000a", by decide +kernel⟩
def approverB : Uuid := ⟨"00000000-0000-0000-0000-00000000000b", by decide +kernel⟩

def twoOf : ApprovalWorkflowContext := ⟨2, 0, .quorum, false, .medium⟩

theorem two_people_approve : Quorate twoOf ((new twoOf).run plainTexts
        [.submit approverA 0, .approve approverA 1 none, .approve approverB 2 none]) ∧
      ∀ event, LawfulStep plainTexts ((new twoOf).run plainTexts
        [.submit approverA 0, .approve approverA 1 none, .approve approverB 2 none]) event := by
  refine quorum_distinct plainTexts twoOf rfl _ ?_
  rintro (_ | ⟨_, _ | ⟨_, _ | ⟨_, rest⟩⟩⟩) event later split id approvedAt comment approves waiting
  · cases split
    cases approves
  · cases split
    cases approves
    decide
  · cases split
    cases approves
    decide +kernel
  · simp at split

theorem one_person_approves : ¬ Quorate twoOf ((new twoOf).run plainTexts
      [.submit approverA 0, .approve approverA 1 none, .approve approverA 2 none]) := by
  intro quorate
  exact absurd (quorate 2 (by decide +kernel) (by decide) (by decide)) (by decide +kernel)

end Samples

end

end Aeterna.Governance
