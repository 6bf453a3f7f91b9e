import Aeterna.Events.Durable
import Aeterna.Lib.Courses

namespace Aeterna.Events
open Lib (CallFault Program Pool Thread Contract)
open PersistentEvent Lib.CallFault Lib.Program

variable {P : Type}

namespace EventWorld

variable (now : Nat)

section
variable (error : Option String) (event : PersistentEvent P) (status : EventStatus)
include error event status

@[simp] theorem setStatus_status : (setStatus now error event status).status = status := by
  cases status <;> rfl

@[simp] theorem setStatus_maxRetries : (setStatus now error event status).maxRetries = event.maxRetries := by
  cases status <;> rfl

@[simp] theorem setStatus_eventId : (setStatus now error event status).eventId = event.eventId := by
  cases status <;> rfl

end

variable (w : EventWorld P)

theorem get_persistEvent (event : PersistentEvent P) (id : String) : (w.persistEvent event).governanceEvents.get id =
    if id = event.eventId then some ((w.governanceEvents.get event.eventId).getD event)
      else w.governanceEvents.get id :=
  Lib.Table.get_insertOrIgnore _ _ _ _

theorem get_updateEventStatus (id : String) (status : EventStatus) (error : Option String) (other : String) :
    (w.updateEventStatus id status error).governanceEvents.get other = (w.governanceEvents.get other).map
      (fun event => if other = id then setStatus w.now error event status else event) :=
  Lib.Table.get_update _ _ _

@[simp] theorem publish_governanceEvents (id : String) (fault : Option CallFault) :
    (w.publish id fault).governanceEvents = w.governanceEvents := by
  cases fault with
  | none => rfl
  | some fault => cases fault <;> rfl

theorem le_bump (counts : String → Nat) (id other : String) : counts other ≤ bump counts id other := by
  unfold bump
  split <;> omega

theorem publish_published_le (id : String) (fault : Option CallFault) (other : String) :
    w.published other ≤ (w.publish id fault).published other := by
  cases fault with
  | none => exact le_bump _ _ _
  | some fault =>
    cases fault with
    | refused e => exact Nat.le_refl _
    | unanswered e => exact le_bump _ _ _

theorem publish_failed (id : String) (fault : Option CallFault) (other : String) :
    (w.publish id fault).failed other = w.failed other + if fault.isSome = true ∧ other = id then 1 else 0 := by
  have bumped : bump w.failed id other = w.failed other + if other = id then 1 else 0 := by
    unfold bump
    split <;> rfl
  cases fault with
  | none => simp [publish]
  | some fault => cases fault <;> simp [publish, bumped]

theorem mem_getPendingEvents {tenantId : String} {limit : Nat} {event : PersistentEvent P}
    (member : event ∈ w.getPendingEvents tenantId limit) : ∃ id, w.governanceEvents.get id = some event := by
  have sorted := (List.mem_insertionSort _).mp (List.mem_of_mem_take member)
  obtain ⟨row, inside, rfl⟩ := List.mem_map.mp (List.mem_filter.mp sorted).1
  exact ⟨row.1, Lib.Table.get_eq_some.mpr inside⟩

end EventWorld

inductive Acted (w : EventWorld P) : EventCall P → EventWorld P → Prop where
  | nothing (c : EventCall P) (other : ∀ id event, c ≠ .publish id event) : Acted w c w
  | persisted (event : PersistentEvent P) : Acted w (.persistEvent event) (w.persistEvent event)
  | updated (id : String) (status : EventStatus) (error : Option String)
    (carriedOut : CarriedOut (w.fault (.updateEventStatus id status error))) :
    Acted w (.updateEventStatus id status error) (w.updateEventStatus id status error)
  | published (id : String) (event : P) : Acted w (.publish id event) (w.publish id (w.fault (.publish id event)))

theorem eventExec_acted (c : EventCall P) (w : EventWorld P) : Acted w c (eventExec c w).2 := by
  have idle : ∀ c : EventCall P, (∀ id event, c ≠ .publish id event) → Acted w c w := .nothing
  cases c with
  | persistEvent event => exact settle_keeps (idle _ nofun) (fun _ => .persisted event)
  | updateEventStatus id status error => exact settle_keeps (idle _ nofun) (.updated id status error)
  | getPendingEvents tenantId limit => exact settle_keeps (idle _ nofun) (fun _ => idle _ nofun)
  | getDeadLetterEvents tenantId limit => exact settle_keeps (idle _ nofun) (fun _ => idle _ nofun)
  | publish id event => exact .published id event
  | timestamp => exact idle _ nofun

structure Delivered (w : EventWorld P) : Prop where
  published : ∀ {id event}, w.governanceEvents.get id = some event → event.status = .published → 1 ≤ w.published id
  buried : ∀ {id event}, w.governanceEvents.get id = some event → event.status = .deadLettered →
    event.maxRetries ≤ w.failed id

structure Faithful (w : EventWorld P) : Prop extends Delivered w where
  keyed : ∀ {id event}, w.governanceEvents.get id = some event → event.eventId = id

def retries (id : String) (w : EventWorld P) : Nat := (w.governanceEvents.get id).elim 0 retryCount

def Counted (w : EventWorld P) : Prop := ∀ id, retries id w ≤ w.failed id

structure Later (w next : EventWorld P) : Prop where
  rows : ∀ {id event}, w.governanceEvents.get id = some event →
    ∃ now, next.governanceEvents.get id = some now ∧ now.maxRetries = event.maxRetries
  published : ∀ id, w.published id ≤ next.published id
  failed : ∀ id, w.failed id ≤ next.failed id

theorem Later.refl (w : EventWorld P) : Later w w where
  rows found := ⟨_, found, rfl⟩
  published _ := Nat.le_refl _
  failed _ := Nat.le_refl _

theorem Later.trans {a b c : EventWorld P} (first : Later a b) (second : Later b c) : Later a c where
  rows found := by
    obtain ⟨middle, there, same⟩ := first.rows found
    obtain ⟨now, here, still⟩ := second.rows there
    exact ⟨now, here, still.trans same⟩
  published id := Nat.le_trans (first.published id) (second.published id)
  failed id := Nat.le_trans (first.failed id) (second.failed id)

theorem eventExec_later (c : EventCall P) (w : EventWorld P) : Later w (eventExec c w).2 := by
  have acted := eventExec_acted c w
  generalize (eventExec c w).2 = next at acted ⊢
  cases acted with
  | nothing c other => exact .refl w
  | persisted event =>
    refine ⟨fun {id old} found => ⟨old, ?_, rfl⟩, fun _ => Nat.le_refl _, fun _ => Nat.le_refl _⟩
    rw [w.get_persistEvent]
    split
    · rename_i same
      subst same
      rw [found]
      rfl
    · exact found
  | updated id status error carriedOut =>
    refine ⟨fun {other old} found => ?_, fun _ => Nat.le_refl _, fun _ => Nat.le_refl _⟩
    refine ⟨_, by rw [w.get_updateEventStatus, found]; rfl, ?_⟩
    split <;> simp
  | published id event =>
    refine ⟨fun {other old} found => ⟨old, by simpa using found, rfl⟩, w.publish_published_le id _, fun other => ?_⟩
    rw [w.publish_failed]
    exact Nat.le_add_right _ _

def Justified (w : EventWorld P) : EventCall P → Prop
  | .persistEvent event => event.status = .pending
  | .updateEventStatus id .published _ => 1 ≤ w.published id
  | .updateEventStatus id .deadLettered _ => ∀ event, w.governanceEvents.get id = some event →
      event.maxRetries ≤ w.failed id
  | _ => True

section
variable {w : EventWorld P}

variable {id : String}

theorem get_of_persistEvent {event row : PersistentEvent P}
    (found : (w.persistEvent event).governanceEvents.get id = some row) :
    w.governanceEvents.get id = some row ∨ id = event.eventId ∧ row = event := by
  rw [w.get_persistEvent] at found
  split at found
  · rename_i same
    subst same
    cases before : w.governanceEvents.get event.eventId with
    | none =>
      rw [before] at found
      exact .inr ⟨rfl, (Option.some.inj found).symm⟩
    | some old =>
      rw [before] at found
      exact .inl found
  · exact .inl found

theorem Faithful.persistEvent (faithful : Faithful w) {event : PersistentEvent P} (pending : event.status = .pending) :
    Faithful (w.persistEvent event) := by
  refine ⟨⟨?_, ?_⟩, fun {id row} found => ?_⟩
  · intro id row found status
    obtain before | ⟨rfl, rfl⟩ := get_of_persistEvent found
    · exact faithful.published before status
    · rw [pending] at status
      cases status
  · intro id row found status
    obtain before | ⟨rfl, rfl⟩ := get_of_persistEvent found
    · exact faithful.buried before status
    · rw [pending] at status
      cases status
  · obtain before | ⟨rfl, rfl⟩ := get_of_persistEvent found
    · exact faithful.keyed before
    · rfl

theorem get_of_updateEventStatus {other : String} {status : EventStatus} {error : Option String}
    {row : PersistentEvent P} (found : (w.updateEventStatus id status error).governanceEvents.get other = some row) :
    ∃ old, w.governanceEvents.get other = some old ∧
      (if other = id then EventWorld.setStatus w.now error old status else old) = row := by
  rw [w.get_updateEventStatus] at found
  exact Option.map_eq_some_iff.mp found

theorem Faithful.updateEventStatus (faithful : Faithful w) {status : EventStatus} {error : Option String}
    (justified : Justified w (.updateEventStatus id status error)) :
    Faithful (w.updateEventStatus id status error) := by
  refine ⟨⟨?_, ?_⟩, fun {other row} found => ?_⟩
  · intro other row found published
    obtain ⟨old, before, rfl⟩ := get_of_updateEventStatus found
    split at published
    · rename_i same
      subst same
      rw [EventWorld.setStatus_status] at published
      subst published
      exact justified
    · exact faithful.published before published
  · intro other row found buried
    obtain ⟨old, before, rfl⟩ := get_of_updateEventStatus found
    split at buried
    · rename_i same
      subst same
      rw [EventWorld.setStatus_status] at buried
      subst buried
      rw [if_pos rfl, EventWorld.setStatus_maxRetries]
      exact justified old before
    · rename_i apart
      rw [if_neg apart]
      exact faithful.buried before buried
  · obtain ⟨old, before, rfl⟩ := get_of_updateEventStatus found
    split
    · rw [EventWorld.setStatus_eventId]
      exact faithful.keyed before
    · exact faithful.keyed before

theorem Faithful.publish (faithful : Faithful w) {fault : Option CallFault}
    (later : Later w (w.publish id fault)) : Faithful (w.publish id fault) := by
  refine ⟨⟨?_, ?_⟩, fun {other row} found => ?_⟩
  · intro other row found status
    rw [w.publish_governanceEvents] at found
    exact Nat.le_trans (faithful.published found status) (later.published other)
  · intro other row found status
    rw [w.publish_governanceEvents] at found
    exact Nat.le_trans (faithful.buried found status) (later.failed other)
  · rw [w.publish_governanceEvents] at found
    exact faithful.keyed found

theorem Faithful.eventExec {c : EventCall P} (faithful : Faithful w) (justified : Justified w c) :
    Faithful (eventExec c w).2 := by
  have later := eventExec_later c w
  have acted := eventExec_acted c w
  generalize (Events.eventExec c w).2 = next at later acted ⊢
  cases acted with
  | nothing c other => exact faithful
  | persisted event => exact faithful.persistEvent justified
  | updated id status error carriedOut => exact faithful.updateEventStatus justified
  | published id event => exact faithful.publish later

end

def Owes (id : String) : EventCall P → Prop
  | .updateEventStatus other .pending _ => other = id
  | _ => False

instance (id : String) : DecidablePred (Owes id : EventCall P → Prop) := fun c => by
  unfold Owes
  split <;> infer_instance

section
variable {β : Type}

def Quiet (program : EventM P β) : Prop := ∀ id, ¬ program.Awaits (Owes id)

/-- A retry is counted next only where publishing that event has failed. New events are pending and were not
retried. -/
def Follows : (c : EventCall P) → (c.Answer → EventM P β) → Prop
  | .publish id _, next => Quiet (next (.ok ())) ∧ ∀ e other, (next (.error e)).Awaits (Owes other) → other = id
  | .persistEvent event, next => (event.status = .pending ∧ event.retryCount = 0) ∧ ∀ answer, Quiet (next answer)
  | _, next => ∀ answer, Quiet (next answer)

/-- The program counts only retries that it has a reason for. -/
structure Tidy (program : EventM P β) : Prop where
  quiet : Quiet program
  each : program.Each Follows

theorem tidy_done (a : β) : Tidy (.done a : EventM P β) := ⟨fun _ => id, trivial⟩

variable {c : EventCall P} {next : RetryResult → EventM P β}

theorem call_tidy {next : c.Answer → EventM P β} (idle : ∀ id, ¬ Owes id c)
    (follows : (∀ answer, Quiet (next answer)) → Follows c next) (rest : ∀ answer, Tidy (next answer)) :
    Tidy (eventCall c >>= next) :=
  ⟨idle, follows (fun answer => (rest answer).quiet), fun answer => (rest answer).each⟩

theorem tidy_orFail {α : Type} {wrap : String → DurablePublishError} (answer : Except String α)
    {next : α → EventM P β}
    (rest : ∀ a, Tidy (next a)) : Tidy (orFail wrap answer >>= next) := by
  cases answer with
  | ok a => exact rest a
  | error e => exact ⟨fun _ => id, trivial⟩

theorem retryFailed_owes {event : PersistentEvent P} {e : String} {result : RetryResult}
    {other : String} (owes : (retryFailed event e result >>= next).Awaits (Owes other)) : other = event.eventId := by
  unfold retryFailed markFailed at owes
  dsimp only at owes
  split at owes
  · exact owes.elim
  · exact Eq.symm owes

theorem retryFailed_each (event : PersistentEvent P) (e : String) (result : RetryResult)
    (rest : ∀ result, Tidy (next result)) : (retryFailed event e result >>= next).Each Follows := by
  unfold retryFailed markFailed
  dsimp only
  split
  · exact ⟨fun _ _ => id, fun _ => ⟨fun _ => (rest _).quiet, fun _ => (rest _).each⟩⟩
  · exact ⟨fun _ => (rest _).quiet, fun _ => (rest _).each⟩

theorem retryEvent_tidy (event : PersistentEvent P) (result : RetryResult) (rest : ∀ result, Tidy (next result)) :
    Tidy (retryEvent event result >>= next) := by
  unfold retryEvent
  split
  · refine ⟨fun _ => id, ⟨⟨fun _ => id, fun e other owes => retryFailed_owes owes⟩, fun answer => ?_⟩⟩
    cases answer with
    | ok _ => exact ⟨fun _ => (rest _).quiet, fun _ => (rest _).each⟩
    | error e => exact retryFailed_each event e result rest
  · exact rest result

theorem reprocessEvent_tidy (handler : PersistentEvent P → Bool) (event : PersistentEvent P) (result : DlqResult)
    {next : DlqResult → EventM P β} (rest : ∀ result, Tidy (next result)) :
    Tidy (reprocessEvent handler event result >>= next) := by
  unfold reprocessEvent
  split
  · refine ⟨fun _ => id, ⟨⟨fun _ => id, fun e other owes => absurd owes ((rest _).quiet other)⟩, fun answer => ?_⟩⟩
    cases answer with
    | ok _ => exact ⟨fun _ => (rest _).quiet, fun _ => (rest _).each⟩
    | error e => exact (rest _).each
  · exact rest _

theorem foldlM_tidy {σ : Type} {f : σ → PersistentEvent P → EventM P σ}
    (one : ∀ result event {next : σ → EventM P β}, (∀ result, Tidy (next result)) → Tidy (f result event >>= next))
    (events : List (PersistentEvent P)) (result : σ) {next : σ → EventM P β} (rest : ∀ result, Tidy (next result)) :
    Tidy (events.foldlM f result >>= next) := by
  induction events generalizing result with
  | nil => exact rest result
  | cons event events ih =>
    rw [List.foldlM_cons, bind_assoc]
    exact one result event (fun result => ih result)

theorem program_tidy (format : EventFormat P) (worker : EventWorker P) : Tidy (worker.program format) := by
  cases worker with
  | publishDurable id timestamp event =>
    refine ⟨fun _ => False.elim, ⟨⟨⟨rfl, rfl⟩, fun persisted => ?_⟩, fun persisted => ?_⟩⟩
    · cases persisted <;> exact fun _ => False.elim
    · cases persisted with
      | error e => trivial
      | ok _ =>
        refine ⟨⟨fun _ => False.elim, fun e other => Eq.symm⟩, fun published => ?_⟩
        cases published with
        | error e => exact ⟨fun _ _ => False.elim, fun _ => trivial⟩
        | ok _ =>
          refine ⟨fun updated => ?_, fun updated => ?_⟩
          · cases updated <;> exact fun _ => False.elim
          · cases updated <;> trivial
  | retryPendingEvents tenantId limit =>
    simp only [EventWorker.program, Events.retryPendingEvents, bind_assoc]
    refine call_tidy (fun _ => id) (fun tidy => tidy) (fun answer => tidy_orFail answer (fun pending => ?_))
    exact foldlM_tidy (fun result event _ => retryEvent_tidy event result) pending _ (fun _ => tidy_done _)
  | processDeadLetterQueue tenantId limit handler =>
    simp only [EventWorker.program, Events.processDeadLetterQueue, bind_assoc]
    refine call_tidy (fun _ => id) (fun tidy => tidy) (fun answer => tidy_orFail answer (fun deadLetters => ?_))
    exact foldlM_tidy (fun result event _ => reprocessEvent_tidy handler event result) deadLetters _
      (fun _ => tidy_done _)

section
variable {next : c.Answer → EventM P β} (follows : Follows c next) (w : EventWorld P) (id : String)
include follows w id

theorem retries_step : retries id (eventExec c w).2 ≤ retries id w + if Owes id c then 1 else 0 := by
  have acted := eventExec_acted c w
  generalize (eventExec c w).2 = after at acted ⊢
  cases acted with
  | nothing c other => exact Nat.le_add_right _ _
  | published other event =>
    rw [retries, w.publish_governanceEvents]
    exact Nat.le_add_right _ _
  | persisted event =>
    have fresh : event.retryCount = 0 := follows.1.2
    refine Nat.le_trans ?_ (Nat.le_add_right _ _)
    unfold retries
    rw [w.get_persistEvent]
    split
    · rename_i same
      subst same
      cases w.governanceEvents.get event.eventId with
      | none => exact Nat.le_of_eq fresh
      | some old => exact Nat.le_refl _
    · exact Nat.le_refl _
  | updated other status error carriedOut =>
    unfold retries
    rw [w.get_updateEventStatus]
    cases w.governanceEvents.get id with
    | none => exact Nat.zero_le _
    | some old =>
      dsimp only [Option.map_some, Option.elim_some]
      by_cases same : id = other
      · subst same
        rw [if_pos rfl]
        cases status <;> simp [Owes, EventWorld.setStatus]
      · rw [if_neg same]
        exact Nat.le_add_right _ _

theorem failed_step :
    w.failed id + (if (next (eventExec c w).1).Awaits (Owes id) then 1 else 0) ≤ (eventExec c w).2.failed id := by
  have later := (eventExec_later c w).failed id
  by_cases awaits : (next (eventExec c w).1).Awaits (Owes id)
  · rw [if_pos awaits]
    cases c with
    | publish other event =>
      have grown := w.publish_failed other (w.fault (.publish other event)) id
      obtain ⟨published, failing⟩ := follows
      cases fault : w.fault (.publish other event) with
      | none =>
        refine absurd awaits ?_
        simp only [eventExec, fault]
        exact published id
      | some fault' =>
        have same : id = other := by
          simp only [eventExec, fault] at awaits
          cases fault' <;> exact failing _ _ awaits
        rw [fault] at grown
        simp only [eventExec, fault]
        rw [grown, if_pos ⟨rfl, same⟩]
    | persistEvent event => exact absurd awaits (follows.2 _ id)
    | updateEventStatus other status error => exact absurd awaits (follows _ id)
    | getPendingEvents tenantId limit => exact absurd awaits (follows _ id)
    | getDeadLetterEvents tenantId limit => exact absurd awaits (follows _ id)
    | timestamp => exact absurd awaits (follows _ id)
  · rw [if_neg awaits]
    exact later

end

end

abbrev EventPool (ι P : Type) : Type :=
  Pool ι (EventCall P) EventCall.Answer DurablePublishError EventWorker.Result (EventWorld P)

section
variable {ι : Type} [DecidableEq ι] (format : EventFormat P) (workers : ι → EventWorker P) (w : EventWorld P)

def eventPool : EventPool ι P where
  state := w
  thread i := { program := (workers i).program format }

structure Elsewhere (w next : EventWorld P) : Prop where
  rows : ∀ id, next.governanceEvents.get id = w.governanceEvents.get id
  published : next.published = w.published
  failed : next.failed = w.failed

/-- Events that no worker has come to yet. -/
def Untried : Prop := ∀ {id event}, w.governanceEvents.get id = some event →
  event.eventId = id ∧ event.status = .pending ∧ event.retryCount = 0

variable {format workers w} {allowed : EventPool ι P → ι → Prop} {pool : EventPool ι P}

omit [DecidableEq ι] in
theorem untried_counted (untried : Untried w) : Counted w := by
  intro id
  unfold retries
  cases found : w.governanceEvents.get id with
  | none => exact Nat.zero_le _
  | some event => exact Nat.le_trans (Nat.le_of_eq (untried found).2.2) (Nat.zero_le _)

theorem course_counted (untried : Untried w)
    (course : Pool.Course eventExec allowed Elsewhere (eventPool format workers w) pool) : Counted pool.state := by
  intro id
  have tallied : pool.Tallied (fun thread => thread.program.Awaits (Owes id)) (fun w => w.failed id)
      (retries id) := by
    refine course.tallied _ _ _ (fun i => (program_tidy format (workers i)).quiet id)
      (untried_counted untried id) ?_ ?_
    · intro pool i c next before shape
      have each := before.each (i := i) (program_tidy format (workers i)).each
      rw [shape] at each
      have counted := retries_step each.1 pool.state id
      have made := failed_step each.1 pool.state id
      simp only [shape, Awaits] at counted made ⊢
      omega
    · exact fun s t moved => ⟨by rw [retries, moved.rows]; rfl, congrFun moved.failed id⟩
  obtain ⟨waiting, _, bound⟩ := tallied
  exact Nat.le_trans (Nat.le_add_right _ _) bound

def eventContract : Contract (EventCall.Answer (P := P)) (EventWorld P) where
  exec := eventExec
  inv w := Faithful w ∧ Counted w
  rely := Later
  guar := Later
  ok := fun _ c w => Counted (eventExec c w).2

section
variable {β γ : Type} {s : EventWorld P} {notes : List (Lib.Note EventCall.Answer)}
  {post : Except DurablePublishError β → List (Lib.Note EventCall.Answer) → EventWorld P → Prop}

theorem call_meets {c : EventCall P} {next : c.Answer → EventM P β}
    (justified : ∀ t, Later s t → Faithful t → Justified t c)
    (rest : ∀ t notes, Later s t → Faithful t → Counted t → (next (eventExec c t).1).Meets eventContract post notes
      (eventExec c t).2) :
    (eventCall c >>= next).Meets eventContract post notes s :=
  Meets.asked (fun t later ⟨faithful, counted⟩ kept =>
    ⟨⟨faithful.eventExec (justified t later faithful), kept⟩, eventExec_later c t, rest t _ later faithful counted⟩)

theorem tryUpdate_meets {id : String} {status : EventStatus} {error : Option String} {next : Unit → EventM P β}
    (justified : ∀ t, Later s t → Faithful t → Justified t (.updateEventStatus id status error))
    (rest : ∀ t notes, Later s t → (next ()).Meets eventContract post notes t) :
    (tryUpdate id status error >>= next).Meets eventContract post notes s :=
  call_meets justified (fun t notes later _ _ => rest _ notes (later.trans (eventExec_later _ t)))

theorem publish_answer (id : String) (event : P) (w : EventWorld P) : match (eventExec (.publish id event) w).1 with
    | .ok () => 1 ≤ (eventExec (.publish id event) w).2.published id
    | .error _ => (eventExec (.publish id event) w).2.failed id = w.failed id + 1 := by
  have failed := w.publish_failed id (w.fault (.publish id event)) id
  cases fault : w.fault (.publish id event) with
  | none =>
    simp only [eventExec, fault, settle, EventWorld.publish, EventWorld.bump, if_true]
    exact Nat.le_add_left _ _
  | some fault' =>
    rw [fault] at failed
    cases fault' <;> simpa [eventExec, fault, settle] using failed

structure Fetched (w : EventWorld P) (event : PersistentEvent P) : Prop where
  row : ∃ now, w.governanceEvents.get event.eventId = some now ∧ now.maxRetries = event.maxRetries
  tried : event.retryCount ≤ w.failed event.eventId

variable {event : PersistentEvent P}

theorem Fetched.later {w next : EventWorld P} (fetched : Fetched w event) (later : Later w next) :
    Fetched next event := by
  obtain ⟨⟨old, found, same⟩, tried⟩ := fetched
  obtain ⟨now, here, still⟩ := later.rows found
  exact ⟨⟨now, here, still.trans same⟩, Nat.le_trans tried (later.failed _)⟩

theorem fetched_of_get {w : EventWorld P} (faithful : Faithful w) (counted : Counted w)
    (found : ∃ id, w.governanceEvents.get id = some event) : Fetched w event := by
  obtain ⟨id, found⟩ := found
  have keyed := faithful.keyed found
  subst keyed
  refine ⟨⟨event, found, rfl⟩, ?_⟩
  have bound := counted event.eventId
  rwa [retries, found] at bound

theorem Fetched.spent {w : EventWorld P} (fetched : Fetched w event)
    (spent : event.maxRetries ≤ w.failed event.eventId) (error : Option String) {t : EventWorld P}
    (later : Later w t) :
    Justified t (.updateEventStatus event.eventId .deadLettered error) := by
  intro row found
  obtain ⟨⟨now, here, same⟩, _⟩ := fetched.later later
  rw [found] at here
  cases here
  rw [same]
  exact Nat.le_trans spent (later.failed _)

theorem retryFailed_meets (e : String) (result : RetryResult) (fetched : Fetched s event)
    (failed : event.retryCount + 1 ≤ s.failed event.eventId) :
    (retryFailed event e result).Meets eventContract (fun _ _ last => Later s last) notes s := by
  unfold retryFailed markFailed
  dsimp only
  split
  · rename_i spent
    refine call_meets (fun _ _ _ => trivial) (fun t notes later _ _ => ?_)
    have near := later.trans (eventExec_later .timestamp t)
    refine tryUpdate_meets (fun u further _ => ?_) (fun u notes further => near.trans further)
    exact fetched.spent (Nat.le_trans spent failed) _ (near.trans further)
  · exact tryUpdate_meets (fun _ _ _ => trivial) (fun t notes later => later)

theorem retryEvent_meets (result : RetryResult) (fetched : Fetched s event) :
    (retryEvent event result).Meets eventContract (fun _ _ last => Later s last) notes s := by
  unfold retryEvent
  split
  · refine call_meets (fun _ _ _ => trivial) (fun t notes later _ _ => ?_)
    have near := later.trans (eventExec_later (.publish event.eventId event.payload) t)
    have answer := publish_answer event.eventId event.payload t
    generalize eventExec (.publish event.eventId event.payload) t = acted at near answer
    obtain ⟨published, after⟩ := acted
    cases published with
    | ok _ =>
      refine tryUpdate_meets (fun u further _ => ?_) (fun u notes further => near.trans further)
      exact Nat.le_trans answer (further.published _)
    | error e =>
      have failed : event.retryCount + 1 ≤ after.failed event.eventId := by
        have tried := (fetched.later later).tried
        dsimp only at answer
        omega
      exact (retryFailed_meets e result (fetched.later near) failed).mono (fun _ _ last further => near.trans further)
  · exact Later.refl s

theorem reprocessEvent_meets (handler : PersistentEvent P → Bool) (event : PersistentEvent P) (result : DlqResult) :
    (reprocessEvent handler event result).Meets eventContract (fun _ _ last => Later s last) notes s := by
  unfold reprocessEvent
  split
  · refine call_meets (fun _ _ _ => trivial) (fun t notes later _ _ => ?_)
    have near := later.trans (eventExec_later (.publish event.eventId event.payload) t)
    have answer := publish_answer event.eventId event.payload t
    generalize eventExec (.publish event.eventId event.payload) t = acted at near answer
    obtain ⟨published, after⟩ := acted
    cases published with
    | ok _ =>
      refine tryUpdate_meets (fun u further _ => ?_) (fun u notes further => near.trans further)
      exact Nat.le_trans answer (further.published _)
    | error e => exact near
  · exact Later.refl s

theorem foldlM_meets {σ : Type} {f : σ → PersistentEvent P → EventM P σ}
    (Ready : EventWorld P → PersistentEvent P → Prop)
    (stable : ∀ {w next event}, Ready w event → Later w next → Ready next event)
    (one : ∀ {s notes} result event, Ready s event →
      (f result event).Meets eventContract (fun _ _ last => Later s last) notes s)
    (events : List (PersistentEvent P)) (result : σ) (ready : ∀ event ∈ events, Ready s event) :
    (events.foldlM f result).Meets eventContract (fun _ _ last => Later s last) notes s := by
  induction events generalizing result s notes with
  | nil => exact Later.refl s
  | cons event events ih =>
    rw [List.foldlM_cons]
    refine (one result event (ready event (List.mem_cons_self ..))).seq (fun _ _ _ later => later)
      (fun result notes t later => ?_)
    exact (ih result (fun event member => stable (ready event (List.mem_cons_of_mem _ member)) later)).mono
      (fun _ _ last further => later.trans further)

theorem orFail_meets {α : Type} {wrap : String → DurablePublishError} (answer : Except String α)
    {next : α → EventM P β}
    (rest : ∀ a, answer = .ok a → (next a).Meets eventContract (fun _ _ _ => True) notes s) :
    (orFail wrap answer >>= next).Meets eventContract (fun _ _ _ => True) notes s := by
  cases answer with
  | ok a => exact rest a rfl
  | error e => trivial

theorem publishDurable_meets (format : EventFormat P) (id : String) (timestamp : Nat) (event : P) :
    (publishDurable format id timestamp event).Meets eventContract (fun _ _ _ => True) notes s := by
  unfold publishDurable
  refine call_meets (fun _ _ _ => rfl) (fun t notes _ _ _ => orFail_meets _ (fun _ _ => ?_))
  refine call_meets (fun _ _ _ => trivial) (fun u notes _ _ _ => ?_)
  have answer := publish_answer id event u
  generalize eventExec (.publish id event) u = acted at answer
  obtain ⟨published, after⟩ := acted
  cases published with
  | ok _ =>
    refine call_meets (fun v later _ => Nat.le_trans answer (later.published _)) (fun v notes _ _ _ => ?_)
    exact orFail_meets _ (fun _ _ => trivial)
  | error e => exact tryUpdate_meets (fun _ _ _ => trivial) (fun _ _ _ => trivial)

theorem program_meets (format : EventFormat P) (worker : EventWorker P) :
    (worker.program format).Meets eventContract (fun _ _ _ => True) notes s := by
  cases worker with
  | publishDurable id timestamp event =>
    exact (publishDurable_meets format id timestamp event).seq (fun _ _ _ _ => trivial) (fun _ _ _ _ => trivial)
  | retryPendingEvents tenantId limit =>
    simp only [EventWorker.program, Events.retryPendingEvents, bind_assoc]
    refine call_meets (fun _ _ _ => trivial)
      (fun t notes _ faithful counted => orFail_meets _ (fun pending answer => ?_))
    have fetched : ∀ event ∈ pending, Fetched (eventExec (.getPendingEvents tenantId limit) t).2 event := by
      intro event member
      have found : event ∈ t.getPendingEvents tenantId limit := (settle_ok answer).1.symm ▸ member
      exact (fetched_of_get faithful counted (t.mem_getPendingEvents found)).later (eventExec_later _ t)
    refine Meets.seq (foldlM_meets Fetched (fun ready later => ready.later later) ?_ pending _ fetched)
      (fun _ _ _ _ => trivial) (fun _ _ _ _ => trivial)
    exact fun result event ready => retryEvent_meets result ready
  | processDeadLetterQueue tenantId limit handler =>
    simp only [EventWorker.program, Events.processDeadLetterQueue, bind_assoc]
    refine call_meets (fun _ _ _ => trivial) (fun t notes _ _ _ => orFail_meets _ (fun deadLetters _ => ?_))
    refine Meets.seq (foldlM_meets (fun _ _ => True) (fun _ _ => trivial) ?_ deadLetters _
      (fun _ _ => trivial))
      (fun _ _ _ _ => trivial) (fun _ _ _ _ => trivial)
    exact fun result event _ => reprocessEvent_meets handler event result

end

/-- An update that is carried out does not take an event back from `published`. -/
def Keeps (w : EventWorld P) : EventCall P → Prop
  | .updateEventStatus id status error =>
    CarriedOut (w.fault (.updateEventStatus id status error)) → status ≠ .published →
      ∀ event, w.governanceEvents.get id = some event → event.status ≠ .published
  | _ => True

theorem Faithful.elsewhere {w next : EventWorld P} (faithful : Faithful w) (moved : Elsewhere w next) :
    Faithful next := by
  obtain ⟨rows, published, failed⟩ := moved
  refine ⟨⟨?_, ?_⟩, ?_⟩
  · intro id event found status
    rw [rows] at found
    rw [published]
    exact faithful.published found status
  · intro id event found status
    rw [rows] at found
    rw [failed]
    exact faithful.buried found status
  · intro id event found
    rw [rows] at found
    exact faithful.keyed found

theorem Elsewhere.later {w next : EventWorld P} (moved : Elsewhere w next) : Later w next where
  rows found := ⟨_, (moved.rows _).trans found, rfl⟩
  published id := Nat.le_of_eq (congrFun moved.published id).symm
  failed id := Nat.le_of_eq (congrFun moved.failed id).symm

theorem course_faithful (untried : Untried w)
    (course : Pool.Course eventExec allowed Elsewhere (eventPool format workers w) pool) : Faithful pool.state := by
  have start : Faithful w := by
    refine ⟨⟨?_, ?_⟩, fun found => (untried found).1⟩ <;>
    · intro id event found status
      rw [(untried found).2.1] at status
      cases status
  have known : Pool.Course eventContract.exec (fun pool i => pool.Permitted eventContract.ok i)
      (fun s t => Elsewhere s t ∧ Counted t) (eventPool format workers w) pool := by
    refine (course.along (fun _ => course_counted untried)).mono ?_ (fun _ _ moved => moved)
    intro pool i step c next shape
    have kept := step.2
    rw [Pool.step_call shape] at kept
    exact kept
  have promising : pool.Promising eventContract (fun _ _ _ _ => True) := by
    refine known.promising Later.refl Later.trans id ?_ ⟨start, untried_counted untried⟩
      (fun i => program_meets format (workers i))
    rintro a b ⟨faithful, _⟩ ⟨moved, counted⟩
    exact ⟨⟨faithful.elsewhere moved, counted⟩, moved.later⟩
  exact promising.1.1

def Published (id : String) (w : EventWorld P) : Prop :=
  ∃ event, w.governanceEvents.get id = some event ∧ event.status = .published

omit [DecidableEq ι] in
theorem Published.eventExec {w : EventWorld P} {c : EventCall P} {id : String} (published : Published id w)
    (keeps : Keeps w c) :
    Published id (eventExec c w).2 := by
  obtain ⟨event, found, status⟩ := published
  have acted := eventExec_acted c w
  generalize (Events.eventExec c w).2 = next at acted ⊢
  cases acted with
  | nothing c other => exact ⟨event, found, status⟩
  | published other _ => exact ⟨event, by rwa [w.publish_governanceEvents], status⟩
  | persisted other =>
    refine ⟨event, ?_, status⟩
    rw [w.get_persistEvent]
    split
    · rename_i same
      subst same
      rw [found]
      rfl
    · exact found
  | updated other status' error carriedOut =>
    refine ⟨_, by rw [w.get_updateEventStatus, found]; rfl, ?_⟩
    split
    · rename_i same
      subst same
      rw [EventWorld.setStatus_status]
      by_contra other
      exact keeps carriedOut other event found status
    · exact status

/-- An event that is published now was published, a dead letter has failed as often as it may, and what is
published is never pending or a dead letter again. -/
def StaysDelivered (format : EventFormat P) (workers : ι → EventWorker P) (w : EventWorld P)
    (allowed : EventPool ι P → ι → Prop) : Prop :=
  ∀ pool, Pool.Course eventExec allowed Elsewhere (eventPool format workers w) pool → Delivered pool.state ∧
    ∀ last, Pool.Course eventExec allowed Elsewhere pool last → ∀ id event,
      pool.state.governanceEvents.get id = some event →
      event.status = .published →
        ∃ now, last.state.governanceEvents.get id = some now ∧ now.status ≠ .pending ∧ now.status ≠ .deadLettered

end

def plainFormat : EventFormat String where
  tenantId _ := "acme"
  sha256 text := text

/-- One event is stored and has not been published yet. -/
def onePending : EventWorld String where
  governanceEvents := ({} : Lib.Table _ _).insertOrIgnore "e1" (.new plainFormat "e1" 0 "unit created")

theorem onePending_untried : Untried onePending := by
  intro id event found
  rw [onePending, Lib.Table.get_insertOrIgnore] at found
  split at found
  · rename_i same
    cases found
    exact ⟨same.symm, rfl, rfl⟩
  · cases found

def retryWorkers : Bool → EventWorker String := fun _ => .retryPendingEvents "acme" 10

def afterPublish : EventPool Bool String :=
  [false, true, true, true].foldl (Pool.step eventExec) (eventPool plainFormat retryWorkers onePending)

def publishesFail : EventCall String → Option CallFault
  | .publish _ _ => some (.refused "connection closed")
  | _ => none

def afterFailure : EventPool Bool String :=
  [false, false].foldl (Pool.step eventExec)
    { afterPublish with state := { afterPublish.state with fault := publishesFail } }

end Aeterna.Events
