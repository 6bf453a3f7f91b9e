import Aeterna.Governance.Approval
import Aeterna.Lib.Runs
import Aeterna.Lib.Table

namespace Aeterna.Governance
open Lib (Table Along Throughout)
open List

inductive ConfirmationStatus where
  | pending | approved | denied | expired | cancelled
  deriving DecidableEq

structure HumanConfirmationRequest where
  authorizedApprovers : List Uuid
  status : ConfirmationStatus := .pending
  (expiresAt createdAt : Instant)
  resolvedAt : Option Instant := none
  resolvedBy : Option Uuid := none
  resolutionComment : Option String := none

abbrev ConfirmationTable := Table Uuid HumanConfirmationRequest

inductive ConfirmationCall where
  | createConfirmationRequest (id : Uuid) (request : HumanConfirmationRequest)
  | resolveConfirmation (requestId : Uuid) (approved : Bool) (resolvedBy : Uuid) (comment : Option String)
  | expireOldRequests

def updatePending (p : Uuid → HumanConfirmationRequest → Bool)
    (f : HumanConfirmationRequest → HumanConfirmationRequest) (t : ConfirmationTable) : ConfirmationTable :=
  t.update (fun id row => if row.status = .pending ∧ p id row then f row else row)

def createConfirmationRequest (id : Uuid) (request : HumanConfirmationRequest) (t : ConfirmationTable) :
    ConfirmationTable :=
  t.insertOrIgnore id { request with resolvedAt := none, resolvedBy := none, resolutionComment := none }

def resolveConfirmation (now : Instant) (requestId : Uuid) (approved : Bool) (resolvedBy : Uuid)
    (comment : Option String) (t : ConfirmationTable) : ConfirmationTable :=
  let status := if approved then .approved else .denied
  updatePending (fun id _ => id = requestId)
    (fun row => { row with status, resolvedAt := some now, resolvedBy := some resolvedBy, resolutionComment := comment }) t

def expireOldRequests (now : Instant) (t : ConfirmationTable) : ConfirmationTable :=
  updatePending (fun _ row => row.expiresAt < now) (fun row => { row with status := .expired }) t

structure ConfirmationStep where
  now : Instant
  call : ConfirmationCall

def ConfirmationStep.exec (step : ConfirmationStep) (t : ConfirmationTable) : ConfirmationTable :=
  match step.call with
  | .createConfirmationRequest id request => createConfirmationRequest id request t
  | .resolveConfirmation requestId approved resolvedBy comment =>
    resolveConfirmation step.now requestId approved resolvedBy comment t
  | .expireOldRequests => expireOldRequests step.now t

structure StatusChange where
  step : ConfirmationStep
  id : Uuid
  was : HumanConfirmationRequest
  status : ConfirmationStatus

def statusChanges (step : ConfirmationStep) (before after : ConfirmationTable) : List StatusChange :=
  before.rows.filterMap (fun e => (after.get e.1).bind (fun row =>
    if row.status = e.2.status then none else some { step, id := e.1, was := e.2, status := row.status }))

structure ConfirmationWorld where
  requests : ConfirmationTable := {}
  changes : List StatusChange := []

def confirmationStep (w : ConfirmationWorld) (step : ConfirmationStep) : ConfirmationWorld where
  requests := step.exec w.requests
  changes := w.changes ++ statusChanges step w.requests (step.exec w.requests)

/-- What makes `list_pending_confirmations` show a pending request to an approver. -/
def HumanConfirmationRequest.AwaitsUser (row : HumanConfirmationRequest) (now : Instant) (approver : Uuid) : Prop :=
  now < row.expiresAt ∧ approver ∈ row.authorizedApprovers

def StatusChange.InOrder (change : StatusChange) : Prop :=
  change.status = .approved → ∃ approver comment,
    change.step.call = .resolveConfirmation change.id true approver comment ∧
      change.was.AwaitsUser change.step.now approver

structure Confirmed (w : ConfirmationWorld) : Prop where
  once : (w.changes.map StatusChange.id).Nodup
  inOrder : ∀ change ∈ w.changes, change.InOrder

def Awaited (w : ConfirmationWorld) (step : ConfirmationStep) : Prop :=
  ∀ requestId approver comment, step.call = .resolveConfirmation requestId true approver comment →
    ∀ row, w.requests.get requestId = some row → row.status = .pending → row.AwaitsUser step.now approver

section
variable {w : ConfirmationWorld} {t : ConfirmationTable} {p : Uuid → HumanConfirmationRequest → Bool}
  {f : HumanConfirmationRequest → HumanConfirmationRequest} {step : ConfirmationStep}

theorem get_updatePending (id : Uuid) : (updatePending p f t).get id =
    (t.get id).map (fun row => if row.status = .pending ∧ p id row then f row else row) := Table.get_update _ _ _

theorem mem_statusChanges {after : ConfirmationTable} {change : StatusChange} :
    change ∈ statusChanges step t after ↔ change.step = step ∧ t.get change.id = some change.was ∧
      change.status ≠ change.was.status ∧ ∃ row, after.get change.id = some row ∧ row.status = change.status := by
  unfold statusChanges
  rw [mem_filterMap]
  constructor
  · rintro ⟨⟨id, was⟩, member, made⟩
    obtain ⟨row, found, made⟩ := Option.bind_eq_some_iff.mp made
    split at made
    · cases made
    · rename_i other
      cases made
      exact ⟨rfl, Table.get_eq_some.mpr member, other, row, found, rfl⟩
  · rintro ⟨rfl, held, other, row, found, same⟩
    refine ⟨(change.id, change.was), Table.get_eq_some.mp held, Option.bind_eq_some_iff.mpr ⟨row, found, ?_⟩⟩
    rw [same, if_neg other]

theorem statusChanges_once (after : ConfirmationTable) :
    ((statusChanges step t after).map StatusChange.id).Nodup := by
  have within : ((statusChanges step t after).map StatusChange.id).Sublist (t.rows.map Prod.fst) := by
    unfold statusChanges
    generalize t.rows = rows
    induction rows with
    | nil => exact .slnil
    | cons e rest ih =>
      rw [filterMap_cons]
      split
      · exact ih.cons _
      · rename_i change made
        obtain ⟨row, _, made⟩ := Option.bind_eq_some_iff.mp made
        split at made
        · cases made
        · cases made
          exact ih.cons_cons _
  exact t.unique.sublist within

variable {id : Uuid} {row : HumanConfirmationRequest}

theorem get_created {other : Uuid} {request : HumanConfirmationRequest} (held : t.get id = some row) :
    (createConfirmationRequest other request t).get id = some row := by
  unfold createConfirmationRequest
  rw [Table.get_insertOrIgnore]
  split
  · rename_i same
    rw [← same, held]
    rfl
  · exact held

theorem exec_row (step : ConfirmationStep) (held : t.get id = some row) : (step.exec t).get id = some row ∨
      row.status = .pending ∧ ∃ after, (step.exec t).get id = some after ∧ after.status ≠ .pending := by
  have update : ∀ {p f}, (∀ row : HumanConfirmationRequest, (f row).status ≠ .pending) →
      (updatePending p f t).get id = some row ∨
        row.status = .pending ∧ ∃ after, (updatePending p f t).get id = some after ∧ after.status ≠ .pending := by
    intro p f ends
    rw [get_updatePending, held]
    by_cases hit : row.status = .pending ∧ p id row
    · exact .inr ⟨hit.1, f row, by simp [hit], ends row⟩
    · exact .inl (by rw [Option.map_some, if_neg hit])
  unfold ConfirmationStep.exec
  split
  · exact .inl (get_created held)
  · refine update (fun row => ?_)
    dsimp only
    split <;> simp
  · exact update (fun row => by simp)

theorem statusChanges_pending {change : StatusChange} (made : change ∈ statusChanges step t (step.exec t)) :
    t.get change.id = some change.was ∧ change.was.status = .pending ∧
      ∃ row, (step.exec t).get change.id = some row ∧ row.status ≠ .pending := by
  obtain ⟨_, held, other, row, found, same⟩ := mem_statusChanges.mp made
  rcases exec_row step held with kept | ⟨pending, ended⟩
  · rw [kept] at found
    cases found
    exact absurd same.symm other
  · exact ⟨held, pending, ended⟩

theorem get_resolved {requestId : Uuid} {approved : Bool} {resolvedBy : Uuid} {comment : Option String}
    {now : Instant} (held : t.get id = some row) (pending : row.status = .pending) :
    (resolveConfirmation now requestId approved resolvedBy comment t).get id = some (if id = requestId then
      { row with
        status := if approved then .approved else .denied
        resolvedAt := some now, resolvedBy := some resolvedBy, resolutionComment := comment } else row) := by
  unfold resolveConfirmation
  rw [get_updatePending, held]
  by_cases same : id = requestId <;> simp [same, pending]

theorem changes_inOrder_iff :
    (∀ change ∈ statusChanges step w.requests (step.exec w.requests), change.InOrder) ↔ Awaited w step := by
  constructor
  · intro inOrder requestId approver comment call row held pending
    have after : (step.exec w.requests).get requestId = some { row with
        status := .approved, resolvedAt := some step.now, resolvedBy := some approver, resolutionComment :=
          comment } := by
      unfold ConfirmationStep.exec
      rw [call]
      dsimp only
      rw [get_resolved held pending, if_pos rfl]
      rfl
    have made : { step, id := requestId, was := row, status := .approved } ∈
        statusChanges step w.requests (step.exec w.requests) :=
      mem_statusChanges.mpr ⟨rfl, held, by simp [pending], _, after, rfl⟩
    obtain ⟨user, words, same, awaited⟩ := inOrder _ made rfl
    rw [call] at same
    cases same
    exact awaited
  · intro awaited change made isApproved
    obtain ⟨sameStep, _, other, row, found, status⟩ := mem_statusChanges.mp made
    obtain ⟨held, pending, _⟩ := statusChanges_pending made
    rw [sameStep]
    rw [isApproved] at status
    unfold ConfirmationStep.exec at found
    split at found
    · -- an insert leaves the row
      rw [get_created held] at found
      cases found
      rw [pending] at status
      cases status
    · rename_i requestId approved approver comment call
      rw [get_resolved held pending] at found
      cases found
      split at status
      · rename_i same
        cases approved with
        | true => exact ⟨approver, comment, same ▸ call,
            awaited requestId approver comment call _ (same ▸ held) pending⟩
        | false => cases status
      · rw [pending] at status
        cases status
    · unfold expireOldRequests at found
      rw [get_updatePending, held, Option.map_some] at found
      cases found
      split at status
      · cases status
      · rw [pending] at status
        cases status

structure Ended (w : ConfirmationWorld) : Prop where
  confirmed : Confirmed w
  ended : ∀ change ∈ w.changes, ∃ row, w.requests.get change.id = some row ∧ row.status ≠ .pending

theorem Ended.step_iff (ended : Ended w) (step : ConfirmationStep) :
    (Confirmed (confirmationStep w step) ↔ Awaited w step) ∧ (Awaited w step → Ended (confirmationStep w step)) := by
  have once : ((confirmationStep w step).changes.map StatusChange.id).Nodup := by
    dsimp only [confirmationStep]
    rw [map_append, nodup_append']
    refine ⟨ended.confirmed.once, statusChanges_once _, fun id old new => ?_⟩
    obtain ⟨change, member, rfl⟩ := mem_map.mp old
    obtain ⟨change', made, same⟩ := mem_map.mp new
    obtain ⟨row, held, final⟩ := ended.ended change member
    obtain ⟨held', pending, _⟩ := statusChanges_pending made
    rw [same, held] at held'
    cases held'
    exact final pending
  have inOrder : (∀ change ∈ (confirmationStep w step).changes, change.InOrder) ↔ Awaited w step := by
    rw [← changes_inOrder_iff]
    dsimp only [confirmationStep]
    rw [forall_mem_append]
    exact and_iff_right ended.confirmed.inOrder
  refine ⟨⟨fun confirmed => inOrder.mp confirmed.inOrder, fun awaited => ⟨once, inOrder.mpr awaited⟩⟩,
    fun awaited => ?_⟩
  refine ⟨⟨once, inOrder.mpr awaited⟩, fun change member => ?_⟩
  rcases mem_append.mp member with old | new
  · obtain ⟨row, held, final⟩ := ended.ended change old
    rcases exec_row step held with kept | ⟨pending, _⟩
    · exact ⟨row, kept, final⟩
    · exact absurd pending final
  · exact (statusChanges_pending new).2.2

end

/-- Along a run, requests are decided once and approved in order exactly if each approval is awaited. -/
theorem confirmations_inOrder_iff (requests : ConfirmationTable) (steps : List ConfirmationStep) :
    Throughout (fun w step => some (confirmationStep w step)) Confirmed { requests } steps ↔
      Along (fun w step => some (confirmationStep w step)) Awaited { requests } steps := by
  have start : Ended { requests } :=
    ⟨⟨nodup_nil, fun _ absent => absurd absent not_mem_nil⟩, fun _ absent => absurd absent not_mem_nil⟩
  refine Lib.throughout_iff (J := Ended) Ended.confirmed ?_ ?_ start Lib.run_total
  · intro w step next ended awaited made
    cases made
    exact (ended.step_iff step).2 awaited
  · intro w step next ended made confirmed
    cases made
    exact (ended.step_iff step).1.mp confirmed

def aliceId : Uuid := ⟨"00000000-0000-0000-0000-0000000000f1", by decide +kernel⟩

def malloryId : Uuid := ⟨"00000000-0000-0000-0000-0000000000f2", by decide +kernel⟩

def deployId : Uuid := ⟨"00000000-0000-0000-0000-000000000001", by decide +kernel⟩

def deployRequest : ConfirmationTable :=
  Table.insertOrIgnore deployId
    { authorizedApprovers := [aliceId], expiresAt := 100, createdAt := 0 } {}

theorem stranger_approves : ¬ Throughout
    (fun w step => some (confirmationStep w step)) Confirmed { requests := deployRequest }
    [⟨200, .resolveConfirmation deployId true malloryId none⟩] := by
  intro held
  have confirmed := held _ [] _ (append_nil _).symm rfl
  obtain ⟨_, _, _, inTime, _⟩ := confirmed.inOrder _ (.head _) rfl
  exact absurd inTime (by decide)

end Aeterna.Governance
