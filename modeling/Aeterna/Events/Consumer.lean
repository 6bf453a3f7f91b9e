import Aeterna.Lib.Programs
import Aeterna.Lib.Table

open Function

namespace Aeterna.Events
open Lib (CallFault Table Program Pool Thread)

structure ConsumerState where
  (consumerGroup idempotencyKey tenantId : String)
  processedAt : Nat

inductive ConsumerCall where
  | checkIdempotency (consumerGroup idempotencyKey : String)
  | handle
  | timestamp
  | recordConsumerState (state : ConsumerState)

def ConsumerCall.Answer (T : Type) : ConsumerCall → Type
  | checkIdempotency _ _ => Except String Bool
  | handle => Except String T
  | timestamp => Nat
  | recordConsumerState _ => Except String Unit

/-- What is recorded, how the next run of the handler ends, and how many have ended well. -/
structure ConsumerWorld (T : Type) where
  eventConsumerState : Table (String × String) ConsumerState := {}
  fault : ConsumerCall → Option CallFault := fun _ => none
  handler : Except String T
  handled : Nat := 0
  now : Nat := 0

variable {T : Type}

namespace ConsumerWorld

def checkIdempotency (consumerGroup idempotencyKey : String) (w : ConsumerWorld T) : Bool :=
  (w.eventConsumerState.get (consumerGroup, idempotencyKey)).isSome

def recordConsumerState (state : ConsumerState) (w : ConsumerWorld T) : ConsumerWorld T :=
  { w with eventConsumerState := w.eventConsumerState.insertOrIgnore (state.consumerGroup, state.idempotencyKey) state }

end ConsumerWorld

def consumerExec : (c : ConsumerCall) → ConsumerWorld T → c.Answer T × ConsumerWorld T
  | .checkIdempotency group key, w =>
    CallFault.settle (w.checkIdempotency group key) w w (w.fault (.checkIdempotency group key))
  | .handle, w => (w.handler, if w.handler.isOk then { w with handled := w.handled + 1 } else w)
  | .timestamp, w => (w.now, w)
  | .recordConsumerState state, w => CallFault.settle () w (w.recordConsumerState state)
      (w.fault (.recordConsumerState state))

inductive IdempotentConsumerError where
  | storageError (reason : String)
  | processingError (reason : String)

abbrev ConsumerM (T : Type) : Type → Type := Program ConsumerCall (ConsumerCall.Answer T) IdempotentConsumerError

def consumerCall (c : ConsumerCall) : ConsumerM T (c.Answer T) := Program.ask c

def processIfNew (consumerGroup idempotencyKey tenantId : String) : ConsumerM T (Option T) := do
  let checked ← consumerCall (.checkIdempotency consumerGroup idempotencyKey)
  let alreadyProcessed ← Program.orFail .storageError checked
  if alreadyProcessed then pure none
  else do
    let handled ← consumerCall .handle
    let result ← Program.orFail .processingError handled
    let now ← consumerCall .timestamp
    let recorded ← consumerCall (.recordConsumerState ⟨consumerGroup, idempotencyKey, tenantId, now⟩)
    Program.orFail .storageError recorded
    pure (some result)

abbrev ConsumerThread (T : Type) : Type :=
  Thread ConsumerCall (ConsumerCall.Answer T) IdempotentConsumerError (Option T)

/-- How far a call has come. -/
inductive Stage (T : Type) where
  | unbegun
  | checkFailed (e : String)
  | skipped
  | checked
  | handlerFailed (e : String)
  | handled (result : T)
  | stamped (result : T) (now : Nat)
  | recordFailed (result : T) (now : Nat) (e : String)
  | recorded (result : T) (now : Nat)

section
variable (group key tenantId : String)

def checkNote (answer : Except String Bool) : Lib.Note (ConsumerCall.Answer T) :=
  ⟨.checkIdempotency group key, answer⟩

def handleNote (answer : Except String T) : Lib.Note (ConsumerCall.Answer T) := ⟨.handle, answer⟩

def recordCall (now : Nat) : ConsumerCall := .recordConsumerState ⟨group, key, tenantId, now⟩

def afterRecord (result : T) (recorded : Except String Unit) : ConsumerM T (Option T) := do
  Program.orFail .storageError recorded
  pure (some result)

def afterHandle (result : T) : ConsumerM T (Option T) := do
  let now ← consumerCall .timestamp
  let recorded ← consumerCall (recordCall group key tenantId now)
  afterRecord result recorded

def afterCheck : ConsumerM T (Option T) := do
  let handled ← consumerCall .handle
  let result ← Program.orFail .processingError handled
  afterHandle group key tenantId result

def Stage.thread : Stage T → ConsumerThread T
  | unbegun => { program := processIfNew group key tenantId }
  | checkFailed e => { program := .fail (.storageError e), notes := [checkNote group key (.error e)] }
  | skipped => { program := .done none, notes := [checkNote group key (.ok true)] }
  | checked => { program := afterCheck group key tenantId, notes := [checkNote group key (.ok false)] }
  | handlerFailed e =>
    { program := .fail (.processingError e), notes := [handleNote (.error e), checkNote group key (.ok false)] }
  | handled result =>
    { program := afterHandle group key tenantId result, notes := [handleNote (.ok result), checkNote group key (.ok false)] }
  | stamped result now =>
    { program := .call (recordCall group key tenantId now) (afterRecord result)
      notes := [⟨.timestamp, now⟩, handleNote (.ok result), checkNote group key (.ok false)] }
  | recordFailed result now e =>
    { program := .fail (.storageError e)
      notes := [⟨recordCall group key tenantId now, .error e⟩, ⟨.timestamp, now⟩, handleNote (.ok result),
        checkNote group key (.ok false)] }
  | recorded result now =>
    { program := .done (some result)
      notes := [⟨recordCall group key tenantId now, .ok ()⟩, ⟨.timestamp, now⟩, handleNote (.ok result),
        checkNote group key (.ok false)] }

inductive Moves (w : ConsumerWorld T) : Stage T → Stage T → ConsumerWorld T → Prop where
  | checkFailed (e : String) : Moves w .unbegun (.checkFailed e) w
  | skipped (known : w.checkIdempotency group key = true) : Moves w .unbegun .skipped w
  | checked (new : w.checkIdempotency group key = false) : Moves w .unbegun .checked w
  | handlerFailed (e : String) : Moves w .checked (.handlerFailed e) w
  | handled (result : T) : Moves w .checked (.handled result) { w with handled := w.handled + 1 }
  | stamped (result : T) (now : Nat) : Moves w (.handled result) (.stamped result now) w
  | recordRefused (result : T) (now : Nat) (e : String) : Moves w (.stamped result now) (.recordFailed result now e) w
  | recordUnanswered (result : T) (now : Nat) (e : String) :
    Moves w (.stamped result now) (.recordFailed result now e) (w.recordConsumerState ⟨group, key, tenantId, now⟩)
  | recorded (result : T) (now : Nat) :
    Moves w (.stamped result now) (.recorded result now) (w.recordConsumerState ⟨group, key, tenantId, now⟩)

variable {group key tenantId : String} {w : ConsumerWorld T} {stage : Stage T} {c : ConsumerCall}
  {next : c.Answer T → ConsumerM T (Option T)}

theorem checked_move (w : ConsumerWorld T) : ∃ stage : Stage T,
    (⟨Program.orFail .storageError (consumerExec (.checkIdempotency group key) w).1 >>= fun alreadyProcessed =>
        if alreadyProcessed then pure none else afterCheck group key tenantId,
      [checkNote group key (consumerExec (.checkIdempotency group key) w).1]⟩ : ConsumerThread T) =
        stage.thread group key tenantId ∧
      Moves group key tenantId w .unbegun stage (consumerExec (.checkIdempotency group key) w).2 := by
  cases fault : w.fault (.checkIdempotency group key) with
  | none =>
    cases known : w.checkIdempotency group key with
    | true =>
      refine ⟨.skipped, ?_, ?_⟩
      · simp only [consumerExec, fault, CallFault.settle, known]
        rfl
      · simp only [consumerExec, fault, CallFault.settle]
        exact .skipped known
    | false =>
      refine ⟨.checked, ?_, ?_⟩
      · simp only [consumerExec, fault, CallFault.settle, known]
        rfl
      · simp only [consumerExec, fault, CallFault.settle]
        exact .checked known
  | some fault' =>
    cases fault' with
    | refused e =>
      refine ⟨.checkFailed e, ?_, ?_⟩ <;> simp only [consumerExec, fault, CallFault.settle]
      · rfl
      · exact .checkFailed e
    | unanswered e =>
      refine ⟨.checkFailed e, ?_, ?_⟩ <;> simp only [consumerExec, fault, CallFault.settle]
      · rfl
      · exact .checkFailed e

theorem stage_step (shape : (stage.thread group key tenantId).program = .call c next) (w : ConsumerWorld T) :
    ∃ stage' : Stage T, (⟨next (consumerExec c w).1,
      ⟨c, (consumerExec c w).1⟩ :: (stage.thread group key tenantId).notes⟩ :
        ConsumerThread T) = stage'.thread group key tenantId ∧ Moves group key tenantId w stage stage'
          (consumerExec c w).2 := by
  cases stage with
  | checkFailed e => cases shape
  | skipped => cases shape
  | handlerFailed e => cases shape
  | recordFailed result now e => cases shape
  | recorded result now => cases shape
  | unbegun =>
    cases shape
    exact checked_move w
  | checked =>
    cases shape
    cases handler : w.handler with
    | error e =>
      refine ⟨.handlerFailed e, ?_, ?_⟩ <;> simp only [consumerExec, handler]
      · rfl
      · exact .handlerFailed e
    | ok result =>
      have counted : (consumerExec .handle w).2 = { w with handled := w.handled + 1 } := if_pos (by rw [handler]; rfl)
      refine ⟨.handled result, ?_, counted ▸ .handled result⟩
      simp only [consumerExec, handler]
      rfl
  | handled result =>
    cases shape
    exact ⟨.stamped result w.now, rfl, .stamped result w.now⟩
  | stamped result now =>
    cases shape
    cases fault : w.fault (recordCall group key tenantId now) with
    | none =>
      refine ⟨.recorded result now, ?_, ?_⟩ <;> simp only [recordCall] at fault <;>
        simp only [recordCall, consumerExec, fault, CallFault.settle]
      · rfl
      · exact .recorded result now
    | some fault' =>
      cases fault' with
      | refused e =>
        refine ⟨.recordFailed result now e, ?_, ?_⟩ <;> simp only [recordCall] at fault <;>
          simp only [recordCall, consumerExec, fault, CallFault.settle]
        · rfl
        · exact .recordRefused result now e
      | unanswered e =>
        refine ⟨.recordFailed result now e, ?_, ?_⟩ <;> simp only [recordCall] at fault <;>
          simp only [recordCall, consumerExec, fault, CallFault.settle]
        · rfl
        · exact .recordUnanswered result now e

end

abbrev Deliveries (ι T : Type) : Type :=
  Pool ι ConsumerCall (ConsumerCall.Answer T) IdempotentConsumerError (Option T) (ConsumerWorld T)

section
variable {ι : Type} [DecidableEq ι] (group key : String) (tenants : ι → String) (w : ConsumerWorld T)

def deliveries : Deliveries ι T where
  state := { w with handled := 0 }
  thread i := { program := processIfNew group key (tenants i) }

def Recorded (w : ConsumerWorld T) : Prop := w.checkIdempotency group key = true

structure OtherKeys (w next : ConsumerWorld T) : Prop where
  same : next.eventConsumerState.get (group, key) = w.eventConsumerState.get (group, key)
  handled : next.handled = w.handled

def Ran (thread : ConsumerThread T) : Prop := ∃ answer, handleNote answer ∈ thread.notes

def Succeeded (thread : ConsumerThread T) : Prop := ∃ result, handleNote (.ok result) ∈ thread.notes

def UnderWay (thread : ConsumerThread T) : Prop :=
  thread.program.Awaits (fun c => ∀ group key, c ≠ .checkIdempotency group key)

/-- A check is made when no other call is past its own, and none ended its handler well without a record of it. -/
def Apart (pool : Deliveries ι T) (i : ι) : Prop :=
  pool.Permitted (fun _ c w => c = .checkIdempotency group key →
    ∀ j, j ≠ i → ¬ UnderWay (pool.thread j) ∧ (Succeeded (pool.thread j) → Recorded group key w)) i

/-- The handler runs to a successful end at most once. -/
def HandledOnce (allowed : Deliveries ι T → ι → Prop) : Prop :=
  ∀ pool, Pool.Course consumerExec allowed (OtherKeys group key) (deliveries group key tenants w) pool →
    pool.state.handled ≤ 1

def Passes (allowed : Deliveries ι T → ι → Prop) (ends : ConsumerThread T → Prop) (pool : Deliveries ι T) : Prop :=
  ∀ last, Pool.Course consumerExec allowed (OtherKeys group key) pool last → ∀ i, (pool.thread i).notes = [] →
    ¬ Ran (last.thread i) ∧ ends (last.thread i)

def ReturnsNone (thread : ConsumerThread T) : Prop :=
  (∀ result, thread.program = .done result → result = none) ∧ ∀ e, thread.program ≠ .fail e

def ReturnsNoneOrFailure (thread : ConsumerThread T) : Prop :=
  (∀ result, thread.program = .done result → result = none) ∧
    ∀ e, thread.program = .fail e → ∃ reason, e = .storageError reason ∧
      checkNote group key (.error reason) ∈ thread.notes

/-- Once a call has returned a result, every later one returns `Ok(None)` without running its handler. -/
def SkipsLater (allowed : Deliveries ι T → ι → Prop) : Prop :=
  ∀ pool, Pool.Course consumerExec allowed (OtherKeys group key) (deliveries group key tenants w) pool →
    ∀ i result, (pool.thread i).program = .done (some result) → Passes group key allowed ReturnsNone pool

def SkipsRecorded (allowed : Deliveries ι T → ι → Prop) : Prop :=
  ∀ pool, Pool.Course consumerExec allowed (OtherKeys group key) (deliveries group key tenants w) pool →
    (∀ i result, (pool.thread i).program = .done (some result) → Recorded group key pool.state) ∧
      (Recorded group key pool.state → Passes group key allowed (ReturnsNoneOrFailure group key) pool)

structure Staged (pool : Deliveries ι T) (stages : ι → Stage T) : Prop where
  thread : ∀ i, pool.thread i = (stages i).thread group key (tenants i)
  recorded : ∀ i result now, stages i = .recorded result now → Recorded group key pool.state

variable {group key tenants w} {allowed : Deliveries ι T → ι → Prop} {pool : Deliveries ι T} {stages : ι → Stage T}

omit [DecidableEq ι] in
theorem recorded_recordConsumerState (tenantId : String) (now : Nat) (w : ConsumerWorld T) :
    Recorded group key (w.recordConsumerState ⟨group, key, tenantId, now⟩) := by
  unfold Recorded ConsumerWorld.checkIdempotency ConsumerWorld.recordConsumerState
  rw [Lib.Table.get_insertOrIgnore, if_pos rfl]
  rfl

theorem Moves.to_recorded {tenantId : String} {stage : Stage T} {result : T} {now : Nat} {w next : ConsumerWorld T}
    (moves : Moves group key tenantId w stage (.recorded result now) next) : Recorded group key next := by
  cases moves
  exact recorded_recordConsumerState _ _ _

theorem Moves.recorded_mono {tenantId : String} {stage stage' : Stage T} {w next : ConsumerWorld T}
    (moves : Moves group key tenantId w stage stage' next) (recorded : Recorded group key w) :
      Recorded group key next := by
  cases moves with
  | recordUnanswered result now e => exact recorded_recordConsumerState _ _ _
  | recorded result now => exact recorded_recordConsumerState _ _ _
  | _ => exact recorded

theorem OtherKeys.recorded {w next : ConsumerWorld T} (moved : OtherKeys group key w next) :
    Recorded group key next ↔ Recorded group key w := by
  unfold Recorded ConsumerWorld.checkIdempotency
  rw [moved.same]

theorem Staged.step (staged : Staged group key tenants pool stages) {i : ι} {c : ConsumerCall}
    {next : c.Answer T → ConsumerM T (Option T)} (shape : (pool.thread i).program = .call c next) :
    ∃ stage, Moves group key (tenants i) pool.state (stages i) stage (consumerExec c pool.state).2 ∧
      Staged group key tenants ⟨(consumerExec c pool.state).2, update pool.thread i
        ⟨next (consumerExec c pool.state).1, ⟨c, (consumerExec c pool.state).1⟩ :: (pool.thread i).notes⟩⟩
        (update stages i stage) := by
  rw [staged.thread i] at shape ⊢
  obtain ⟨stage, same, moves⟩ := stage_step shape pool.state
  refine ⟨stage, moves, fun j => ?_, fun j result now => ?_⟩
  · by_cases own : j = i
    · subst own
      simp only [update_self]
      exact same
    · simp only [update_of_ne own]
      exact staged.thread j
  · by_cases own : j = i
    · subst own
      simp only [update_self]
      rintro rfl
      exact moves.to_recorded
    · simp only [update_of_ne own]
      exact fun stands => moves.recorded_mono (staged.recorded j result now stands)

omit [DecidableEq ι] in
theorem Staged.elsewhere (staged : Staged group key tenants pool stages) {t : ConsumerWorld T}
    (moved : OtherKeys group key pool.state t) : Staged group key tenants { pool with state := t } stages :=
  ⟨staged.thread, fun i result now stands => moved.recorded.mpr (staged.recorded i result now stands)⟩

omit [DecidableEq ι] in
theorem deliveries_staged : Staged group key tenants (deliveries group key tenants w) (fun _ => .unbegun) :=
  ⟨fun _ => rfl, nofun⟩

theorem course_staged (course : Pool.Course consumerExec allowed (OtherKeys group key)
    (deliveries group key tenants w) pool) :
    ∃ stages, Staged group key tenants pool stages := by
  refine course.keeps (I := fun pool => ∃ stages, Staged group key tenants pool stages) ⟨_, deliveries_staged⟩ ?_ ?_
  · rintro pool i c next ⟨stages, staged⟩ _ shape
    obtain ⟨stage, _, after⟩ := staged.step shape
    exact ⟨_, after⟩
  · rintro pool t ⟨stages, staged⟩ moved
    exact ⟨stages, staged.elsewhere moved⟩

def Stage.Skips : Stage T → Prop
  | .unbegun | .checkFailed _ | .skipped => True
  | _ => False

theorem Moves.skips {tenantId : String} {stage stage' : Stage T} {w next : ConsumerWorld T}
    (moves : Moves group key tenantId w stage stage' next) (recorded : Recorded group key w) (skips : stage.Skips) :
    stage'.Skips := by
  cases moves with
  | checkFailed e => trivial
  | skipped known => trivial
  | checked new =>
    rw [Recorded, new] at recorded
    cases recorded
  | _ => exact skips.elim

theorem Stage.Skips.thread {tenantId : String} {stage : Stage T} (skips : stage.Skips) :
    ¬ Ran (stage.thread group key tenantId) ∧ ReturnsNoneOrFailure group key (stage.thread group key tenantId) := by
  cases stage with
  | unbegun =>
    refine ⟨fun ⟨_, member⟩ => ?_, nofun, nofun⟩
    cases member
  | checkFailed e =>
    refine ⟨fun ⟨_, member⟩ => ?_, nofun, fun e' failed => ?_⟩
    · cases member with
      | tail _ member => cases member
    · cases failed
      exact ⟨e, rfl, List.mem_singleton_self _⟩
  | skipped =>
    refine ⟨fun ⟨_, member⟩ => ?_, fun result done => ?_, nofun⟩
    · cases member with
      | tail _ member => cases member
    · cases done
      rfl
  | _ => exact skips.elim

theorem unbegun_of_notes {tenantId : String} {stage : Stage T} (none : (stage.thread group key tenantId).notes = []) :
    stage = .unbegun := by
  cases stage with
  | unbegun => rfl
  | _ => cases none

theorem course_passes (allowed : Deliveries ι T → ι → Prop) (staged : Staged group key tenants pool stages)
    (recorded : Recorded group key pool.state) : Passes group key allowed (ReturnsNoneOrFailure group key) pool := by
  intro last later i unbegun
  have kept : ∃ stages, Staged group key tenants last stages ∧ Recorded group key last.state ∧ (stages i).Skips := by
    refine later.keeps (I := fun pool => ∃ stages, Staged group key tenants pool stages ∧
      Recorded group key pool.state ∧
      (stages i).Skips) ⟨stages, staged, recorded, ?_⟩ ?_ ?_
    · rw [staged.thread i] at unbegun
      rw [unbegun_of_notes unbegun]
      trivial
    · rintro pool j c next ⟨stages, staged, recorded, skips⟩ _ shape
      obtain ⟨stage, moves, after⟩ := staged.step shape
      refine ⟨_, after, moves.recorded_mono recorded, ?_⟩
      by_cases own : i = j
      · subst own
        rw [update_self]
        exact moves.skips recorded skips
      · rwa [update_of_ne own]
    · rintro pool t ⟨stages, staged, recorded, skips⟩ moved
      exact ⟨stages, staged.elsewhere moved, moved.recorded.mpr recorded, skips⟩
  obtain ⟨stages, staged, _, skips⟩ := kept
  rw [staged.thread i]
  exact skips.thread

theorem course_skips (allowed : Deliveries ι T → ι → Prop) : SkipsRecorded group key tenants w allowed := by
  intro pool course
  obtain ⟨stages, staged⟩ := course_staged course
  refine ⟨fun i result returned => ?_, course_passes allowed staged⟩
  rw [staged.thread i] at returned
  cases stands : stages i with
  | recorded result' now => exact staged.recorded i result' now stands
  | _ =>
    rw [stands] at returned
    cases returned

def Stage.Hot : Stage T → Prop
  | .unbegun | .checkFailed _ | .skipped | .handlerFailed _ => False
  | _ => True

def Stage.Success : Stage T → Prop
  | .handled _ | .stamped _ _ | .recordFailed _ _ _ | .recorded _ _ => True
  | _ => False

structure Single (pool : Deliveries ι T) (stages : ι → Stage T) : Prop where
  hot : ∀ i j, (stages i).Hot → (stages j).Hot → i = j
  few : pool.state.handled ≤ 1
  own : pool.state.handled = 1 → ∃ i, (stages i).Success

theorem Stage.Success.hot {stage : Stage T} (success : stage.Success) : stage.Hot := by
  cases stage with
  | handled _ | stamped _ _ | recordFailed _ _ _ | recorded _ _ => trivial
  | _ => exact success.elim

theorem Stage.Hot.thread {tenantId : String} {stage : Stage T} (hot : stage.Hot) :
    UnderWay (stage.thread group key tenantId) ∨ Succeeded (stage.thread group key tenantId) := by
  cases stage with
  | checked => exact .inl nofun
  | handled _ => exact .inl nofun
  | stamped _ _ => exact .inl nofun
  | recordFailed result now e => exact .inr ⟨result, .tail _ (.tail _ (.head _))⟩
  | recorded result now => exact .inr ⟨result, .tail _ (.tail _ (.head _))⟩
  | _ => exact hot.elim

theorem Moves.cases {tenantId : String} {stage stage' : Stage T} {w next : ConsumerWorld T}
    (moves : Moves group key tenantId w stage stage' next) :
    (stage = .unbegun ∧ stage' = .checked ∧ ¬ Recorded group key w ∧ next = w) ∨
      (stage = .checked ∧ stage'.Success ∧ next.handled = w.handled + 1) ∨
      ((stage'.Hot → stage.Hot) ∧ (stage.Success → stage'.Success) ∧ next.handled = w.handled) := by
  cases moves with
  | checked new => exact .inl ⟨rfl, rfl, by simp [Recorded, new], rfl⟩
  | handled result => exact .inr (.inl ⟨rfl, trivial, rfl⟩)
  | checkFailed e => exact .inr (.inr ⟨id, id, rfl⟩)
  | skipped known => exact .inr (.inr ⟨id, id, rfl⟩)
  | handlerFailed e => exact .inr (.inr ⟨fun _ => trivial, id, rfl⟩)
  | stamped result now => exact .inr (.inr ⟨id, id, rfl⟩)
  | recordRefused result now e => exact .inr (.inr ⟨id, id, rfl⟩)
  | recordUnanswered result now e => exact .inr (.inr ⟨id, id, rfl⟩)
  | recorded result now => exact .inr (.inr ⟨id, id, rfl⟩)

theorem Single.step (single : Single pool stages) {i : ι} {stage : Stage T} {next : Deliveries ι T}
    (moves : Moves group key (tenants i) pool.state (stages i) stage next.state)
    (apart : stages i = .unbegun → ¬ Recorded group key pool.state → ∀ j, j ≠ i → ¬ (stages j).Hot) :
    Single next (update stages i stage) := by
  obtain ⟨before, after, new, same⟩ | ⟨before, success, counted⟩ | ⟨hot, success, counted⟩ := moves.cases
  · have alone := apart before new
    refine ⟨fun j k hotJ hotK => ?_, by rw [same]; exact single.few, fun one => ?_⟩
    · have own : ∀ j, (update stages i stage j).Hot → j = i := by
        intro j hot
        by_contra other
        rw [update_of_ne other] at hot
        exact alone j other hot
      exact (own j hotJ).trans (own k hotK).symm
    · rw [same] at one
      obtain ⟨j, success⟩ := single.own one
      have other : j ≠ i := by
        rintro rfl
        rw [before] at success
        exact success
      exact absurd success.hot (alone j other)
  · have hot : (stages i).Hot := before ▸ trivial
    have none : pool.state.handled ≠ 1 := by
      intro one
      obtain ⟨j, success⟩ := single.own one
      cases single.hot j i success.hot hot
      rw [before] at success
      exact success
    have few := single.few
    refine ⟨fun j k hotJ hotK => ?_, by omega, fun _ => ⟨i, by rwa [update_self]⟩⟩
    have own : ∀ j, (update stages i stage j).Hot → j = i := by
      intro j hotJ
      by_contra other
      rw [update_of_ne other] at hotJ
      exact other (single.hot j i hotJ hot)
    exact (own j hotJ).trans (own k hotK).symm
  · have were : ∀ j, (update stages i stage j).Hot → (stages j).Hot := by
      intro j hotJ
      by_cases own : j = i
      · subst own
        rw [update_self] at hotJ
        exact hot hotJ
      · rwa [update_of_ne own] at hotJ
    refine ⟨fun j k hotJ hotK => single.hot j k (were j hotJ) (were k hotK), by rw [counted]; exact single.few,
      fun one => ?_⟩
    rw [counted] at one
    obtain ⟨j, succeeded⟩ := single.own one
    refine ⟨j, ?_⟩
    by_cases own : j = i
    · subst own
      rw [update_self]
      exact success succeeded
    · rwa [update_of_ne own]

theorem course_handledOnce : HandledOnce group key tenants w (Apart group key) := by
  intro pool course
  have kept : ∃ stages, Staged group key tenants pool stages ∧ Single pool stages := by
    refine course.keeps (I := fun pool => ∃ stages, Staged group key tenants pool stages ∧ Single pool stages)
      ⟨_, deliveries_staged, fun _ _ hot => hot.elim, Nat.zero_le _, nofun⟩ ?_ ?_
    · rintro pool i c next ⟨stages, staged, single⟩ apart shape
      obtain ⟨stage, moves, after⟩ := staged.step shape
      refine ⟨_, after, single.step moves (fun unbegun new j other hot => ?_)⟩
      have checks : c = .checkIdempotency group key := by
        rw [staged.thread i, unbegun] at shape
        cases shape
        rfl
      obtain ⟨idle, known⟩ := apart c next shape checks j other
      rw [staged.thread j] at idle known
      exact hot.thread.elim idle (fun succeeded => new (known succeeded))
    · rintro pool t ⟨stages, staged, single⟩ moved
      refine ⟨stages, staged.elsewhere moved, single.hot, ?_, ?_⟩
      · exact Nat.le_trans (Nat.le_of_eq moved.handled) single.few
      · exact fun one => single.own (moved.handled.symm.trans one)
  obtain ⟨_, _, single⟩ := kept
  exact single.few

/-- However calls and failures interleave, no call runs its handler once the key is recorded; and the handler
ends well at most once if calls do not overlap and runs that end well are recorded. -/
theorem processIfNew_idempotent (group key : String) (tenants : ι → String) (w : ConsumerWorld T) :
    (∀ allowed, SkipsRecorded group key tenants w allowed) ∧ HandledOnce group key tenants w (Apart group key) :=
  ⟨course_skips, course_handledOnce⟩

end

def twoDeliveries : Deliveries Bool Nat :=
  deliveries "billing" "k1" (fun _ => "acme") { eventConsumerState := .empty, handler := .ok 7 }

def bothHandled : Deliveries Bool Nat := [false, true, false, true].foldl (Pool.step consumerExec) twoDeliveries

def firstReturned : Deliveries Bool Nat := [false, false, false, false].foldl (Pool.step consumerExec) twoDeliveries

def checksFail : ConsumerCall → Option CallFault
  | .checkIdempotency _ _ => some (.refused "pool timed out")
  | _ => none

def secondFailed : Deliveries Bool Nat :=
  Pool.step consumerExec { firstReturned with state := { firstReturned.state with fault := checksFail } } true

theorem deliveries_notIdempotent :
    ¬ SkipsLater "billing" "k1" (fun _ : Bool => "acme") { handler := .ok 7 } (fun _ _ => True) ∧
      ¬ HandledOnce "billing" "k1" (fun _ : Bool => "acme") { handler := .ok 7 } (fun _ _ => True) := by
  constructor
  · intro skips
    have course : Pool.Course consumerExec (fun _ _ => True) (OtherKeys "billing" "k1") twoDeliveries firstReturned :=
      .schedule (fun _ _ => trivial) .start _
    have last : Pool.Course consumerExec (fun _ _ => True) (OtherKeys "billing" "k1") firstReturned secondFailed :=
      .step true (.drift .start ⟨rfl, rfl⟩) trivial
    have ends := (skips firstReturned course false 7 rfl secondFailed last true rfl).2
    exact ends.2 (.storageError "pool timed out") rfl
  · intro once
    have course : Pool.Course consumerExec (fun _ _ => True) (OtherKeys "billing" "k1") twoDeliveries bothHandled :=
      .schedule (fun _ _ => trivial) .start _
    exact absurd (once bothHandled course) (by decide +kernel)

end Aeterna.Events
