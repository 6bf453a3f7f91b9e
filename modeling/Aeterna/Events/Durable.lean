import Aeterna.Lib.Programs
import Aeterna.Lib.Table
import Mathlib.Data.List.Sort

namespace Aeterna.Events
open Lib (CallFault Table Program)
open Lib.CallFault

inductive EventStatus where
  | pending | published | acknowledged | deadLettered
  deriving DecidableEq

structure PersistentEvent (P : Type) where
  (eventId idempotencyKey tenantId : String)
  payload : P
  status : EventStatus
  (retryCount maxRetries : Nat)
  lastError : Option String
  createdAt : Nat
  (publishedAt acknowledgedAt deadLetteredAt : Option Nat)

/-- What is read off a governance event, and the hash of its key. -/
structure EventFormat (P : Type) where
  tenantId : P → String
  sha256 : String → String

variable {P : Type}

namespace PersistentEvent

def new (format : EventFormat P) (eventId : String) (timestamp : Nat) (event : P) : PersistentEvent P where
  eventId := eventId
  idempotencyKey := format.sha256 (eventId ++ ":" ++ toString timestamp ++ ":" ++ format.tenantId event)
  tenantId := format.tenantId event
  payload := event
  status := .pending
  retryCount := 0
  maxRetries := 3
  lastError := none
  createdAt := timestamp
  publishedAt := none
  acknowledgedAt := none
  deadLetteredAt := none

def isRetriable (event : PersistentEvent P) : Bool := event.retryCount < event.maxRetries && event.status = .pending

end PersistentEvent

inductive EventCall (P : Type) where
  | persistEvent (event : PersistentEvent P)
  | updateEventStatus (eventId : String) (status : EventStatus) (error : Option String)
  | getPendingEvents (tenantId : String) (limit : Nat)
  | getDeadLetterEvents (tenantId : String) (limit : Nat)
  | publish (eventId : String) (event : P)
  | timestamp

def EventCall.Answer : EventCall P → Type
  | persistEvent _ | updateEventStatus _ _ _ | publish _ _ => Except String Unit
  | getPendingEvents _ _ | getDeadLetterEvents _ _ => Except String (List (PersistentEvent P))
  | timestamp => Nat

/-- The stored events, and how often each was published, and its publishing reported as failed, so far. -/
structure EventWorld (P : Type) where
  governanceEvents : Table String (PersistentEvent P) := {}
  published : String → Nat := fun _ => 0
  failed : String → Nat := fun _ => 0
  fault : EventCall P → Option CallFault := fun _ => none
  now : Nat := 0

namespace EventWorld

def persistEvent (event : PersistentEvent P) (w : EventWorld P) : EventWorld P :=
  { w with governanceEvents := w.governanceEvents.insertOrIgnore event.eventId event }

def setStatus (now : Nat) (error : Option String) (event : PersistentEvent P) : EventStatus → PersistentEvent P
  | .published => { event with status := .published, publishedAt := some now }
  | .acknowledged => { event with status := .acknowledged, acknowledgedAt := some now }
  | .deadLettered => { event with status := .deadLettered, lastError := error, deadLetteredAt := some now }
  | .pending => { event with status := .pending, retryCount := event.retryCount + 1, lastError := error }

def updateEventStatus (eventId : String) (status : EventStatus) (error : Option String) (w : EventWorld P) :
    EventWorld P :=
  let set := fun id event => if id = eventId then setStatus w.now error event status else event
  { w with governanceEvents := w.governanceEvents.update set }

variable (tenantId : String)

def eventsOf (status : EventStatus) (w : EventWorld P) : List (PersistentEvent P) :=
  (w.governanceEvents.rows.map Prod.snd).filter (fun event => event.tenantId = tenantId && event.status = status)

def getPendingEvents (limit : Nat) (w : EventWorld P) : List (PersistentEvent P) :=
  ((w.eventsOf tenantId .pending).insertionSort (fun a b => a.createdAt ≤ b.createdAt)).take limit

def getDeadLetterEvents (limit : Nat) (w : EventWorld P) : List (PersistentEvent P) :=
  ((w.eventsOf tenantId .deadLettered).insertionSort
    (fun a b => b.deadLetteredAt.getD 0 ≤ a.deadLetteredAt.getD 0)).take limit

def bump (counts : String → Nat) (eventId : String) : String → Nat :=
  fun id => if id = eventId then counts id + 1 else counts id

def publish (eventId : String) (w : EventWorld P) : Option CallFault → EventWorld P
  | none => { w with published := bump w.published eventId }
  | some (.refused _) => { w with failed := bump w.failed eventId }
  | some (.unanswered _) => { w with published := bump w.published eventId, failed := bump w.failed eventId }

end EventWorld

def eventExec : (c : EventCall P) → EventWorld P → c.Answer × EventWorld P
  | .persistEvent event, w => settle () w (w.persistEvent event) (w.fault (.persistEvent event))
  | .updateEventStatus id status error, w =>
    settle () w (w.updateEventStatus id status error) (w.fault (.updateEventStatus id status error))
  | .getPendingEvents tenantId limit, w =>
    settle (w.getPendingEvents tenantId limit) w w (w.fault (.getPendingEvents tenantId limit))
  | .getDeadLetterEvents tenantId limit, w =>
    settle (w.getDeadLetterEvents tenantId limit) w w (w.fault (.getDeadLetterEvents tenantId limit))
  | .publish id event, w =>
    let fault := w.fault (.publish id event)
    ((settle () w w fault).1, w.publish id fault)
  | .timestamp, w => (w.now, w)

inductive DurablePublishError where
  | persistenceError (reason : String)
  | publishError (reason : String)
  | statusUpdateError (reason : String)
  | storageError (reason : String)

structure RetryResult where
  total : Nat := 0
  succeeded : Nat := 0
  retried : Nat := 0
  deadLettered : Nat := 0

structure DlqResult where
  total : Nat := 0
  reprocessed : Nat := 0
  failed : Nat := 0
  skipped : Nat := 0

abbrev EventM (P : Type) : Type → Type := Program (EventCall P) EventCall.Answer DurablePublishError

def eventCall (c : EventCall P) : EventM P c.Answer := Program.ask c

def tryUpdate (eventId : String) (status : EventStatus) (error : Option String) : EventM P Unit := do
  let _ ← eventCall (.updateEventStatus eventId status error)

def publishDurable (format : EventFormat P) (eventId : String) (timestamp : Nat) (event : P) : EventM P String := do
  let persistent := PersistentEvent.new format eventId timestamp event
  let persisted ← eventCall (.persistEvent persistent)
  Program.orFail .persistenceError persisted
  let published ← eventCall (.publish eventId event)
  match published with
  | .ok () => do
    let updated ← eventCall (.updateEventStatus eventId .published none)
    Program.orFail .statusUpdateError updated
    pure persistent.idempotencyKey
  | .error e => do
    tryUpdate eventId .pending (some e)
    .fail (.publishError e)

namespace PersistentEvent

def markFailed (error : String) (event : PersistentEvent P) : EventM P (Bool × PersistentEvent P) :=
  let counted := { event with retryCount := event.retryCount + 1, lastError := some error }
  if counted.maxRetries ≤ counted.retryCount then do
    let now ← eventCall .timestamp
    pure (false, { counted with status := .deadLettered, deadLetteredAt := some now })
  else pure (true, { counted with status := .pending })

end PersistentEvent

def retryFailed (event : PersistentEvent P) (e : String) (result : RetryResult) : EventM P RetryResult := do
  let marked ← event.markFailed e
  if marked.1 then do
    tryUpdate event.eventId .pending (some e)
    pure { result with retried := result.retried + 1 }
  else do
    tryUpdate event.eventId .deadLettered (some e)
    pure { result with deadLettered := result.deadLettered + 1 }

def retryEvent (event : PersistentEvent P) (result : RetryResult) : EventM P RetryResult :=
  if event.isRetriable then do
    let published ← eventCall (.publish event.eventId event.payload)
    match published with
    | .ok () => do
      tryUpdate event.eventId .published none
      pure { result with succeeded := result.succeeded + 1 }
    | .error e => retryFailed event e result
  else pure result

def retryPendingEvents (tenantId : String) (limit : Nat) : EventM P RetryResult := do
  let fetched ← eventCall (.getPendingEvents tenantId limit)
  let pending ← Program.orFail .storageError fetched
  pending.foldlM (fun result event => retryEvent event result) { total := pending.length }

def reprocessEvent (handler : PersistentEvent P → Bool) (event : PersistentEvent P) (result : DlqResult) :
    EventM P DlqResult :=
  if handler event then do
    let published ← eventCall (.publish event.eventId event.payload)
    match published with
    | .ok () => do
      tryUpdate event.eventId .published none
      pure { result with reprocessed := result.reprocessed + 1 }
    | .error _ => pure { result with failed := result.failed + 1 }
  else pure { result with skipped := result.skipped + 1 }

def processDeadLetterQueue (tenantId : String) (limit : Nat) (handler : PersistentEvent P → Bool) :
    EventM P DlqResult := do
  let fetched ← eventCall (.getDeadLetterEvents tenantId limit)
  let deadLetters ← Program.orFail .storageError fetched
  deadLetters.foldlM (fun result event => reprocessEvent handler event result) { total := deadLetters.length }

inductive EventWorker (P : Type) where
  | publishDurable (eventId : String) (timestamp : Nat) (event : P)
  | retryPendingEvents (tenantId : String) (limit : Nat)
  | processDeadLetterQueue (tenantId : String) (limit : Nat) (handler : PersistentEvent P → Bool)

inductive EventWorker.Result where
  | published (idempotencyKey : String)
  | retried (result : RetryResult)
  | reprocessed (result : DlqResult)

def EventWorker.program (format : EventFormat P) : EventWorker P → EventM P EventWorker.Result
  | publishDurable id timestamp event => do
    let key ← Events.publishDurable format id timestamp event
    pure (.published key)
  | retryPendingEvents tenantId limit => do
    let result ← Events.retryPendingEvents tenantId limit
    pure (.retried result)
  | processDeadLetterQueue tenantId limit handler => do
    let result ← Events.processDeadLetterQueue tenantId limit handler
    pure (.reprocessed result)

end Aeterna.Events
