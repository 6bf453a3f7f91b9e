import Aeterna.Lib.Programs
import Aeterna.Lib.Table

namespace Aeterna.Operations
open Lib (CallFault Table Program)
open Lib.Program Lib.CallFault

inductive RemediationStatus where
  | pending | approved | rejected | executed | expired | failed
  deriving DecidableEq

def RemediationStatus.name : RemediationStatus → String
  | pending => "Pending"
  | approved => "Approved"
  | rejected => "Rejected"
  | executed => "Executed"
  | expired => "Expired"
  | failed => "Failed"

structure RemediationRequest where
  id : String
  status : RemediationStatus
  createdAt : Int
  reviewedBy : Option String := none
  reviewedAt : Option Int := none
  resolutionNotes : Option String := none
  executedAt : Option Int := none

inductive RemediationStoreError where
  | notFound (message : String)
  | invalidStatus (message : String)
  | other (message : String)

namespace RemediationRequest

def guardStatus (expected : RemediationStatus) (verb : String) (req : RemediationRequest) :
    Except RemediationStoreError RemediationRequest :=
  if req.status = expected then .ok req
  else .error (.invalidStatus ("cannot " ++ verb ++ " request in " ++ req.status.name ++ " status"))

def approve (reviewer : String) (notes : Option String) (now : Int) (req : RemediationRequest) :
    Except RemediationStoreError RemediationRequest := do
  let req ← req.guardStatus .pending "approve"
  pure { req with status := .approved, reviewedBy := some reviewer, reviewedAt := some now, resolutionNotes := notes }

def reject (reviewer reason : String) (now : Int) (req : RemediationRequest) :
    Except RemediationStoreError RemediationRequest := do
  let req ← req.guardStatus .pending "reject"
  pure { req with status := .rejected, reviewedBy := some reviewer, reviewedAt := some now, resolutionNotes := some reason }

def markExecuted (now : Int) (req : RemediationRequest) : Except RemediationStoreError RemediationRequest := do
  let req ← req.guardStatus .approved "execute"
  pure { req with status := .executed, executedAt := some now }

def markFailed (error : String) (_now : Int) (req : RemediationRequest) :
    Except RemediationStoreError RemediationRequest :=
  .ok { req with status := .failed, resolutionNotes := some error }

def isStale (maxAgeSecs now : Int) (req : RemediationRequest) : Bool :=
  req.status = .pending && maxAgeSecs < now - req.createdAt

def expire (req : RemediationRequest) : RemediationRequest := { req with status := .expired }

def isTerminal (req : RemediationRequest) : Bool :=
  req.status = .executed || req.status = .rejected || req.status = .expired || req.status = .failed

def isOld (maxAgeSecs now : Int) (req : RemediationRequest) : Bool :=
  req.isTerminal && maxAgeSecs < now - req.createdAt

end RemediationRequest

/-- What is done to one request. -/
inductive RemediationAction where
  | approve (reviewer : String) (notes : Option String)
  | reject (reviewer reason : String)
  | markExecuted
  | markFailed (error : String)

def RemediationAction.apply : RemediationAction → Int → RemediationRequest →
    Except RemediationStoreError RemediationRequest
  | approve reviewer notes => RemediationRequest.approve reviewer notes
  | reject reviewer reason => RemediationRequest.reject reviewer reason
  | markExecuted => RemediationRequest.markExecuted
  | markFailed error => RemediationRequest.markFailed error

structure Decisions where
  approvals : Nat := 0
  rejections : Nat := 0

def Decisions.add (decisions : Decisions) : RemediationStatus → Decisions
  | .approved => { decisions with approvals := decisions.approvals + 1 }
  | .rejected => { decisions with rejections := decisions.rejections + 1 }
  | _ => decisions

/-- The stored requests, and what was decided on them so far: a write of an approved request is an approval,
and one of a rejected request a rejection. -/
structure Remediations where
  items : Table String RemediationRequest := {}
  decided : String → Decisions := fun _ => {}

namespace Remediations

def write (id : String) (req : RemediationRequest) (r : Remediations) : Remediations where
  items := r.items.upsert id req (fun _ => req)
  decided := fun other => if other = id then (r.decided id).add req.status else r.decided other

def delete (id : String) (r : Remediations) : Remediations :=
  { r with items := r.items.keepOnly (fun other _ => other ≠ id) }

end Remediations

inductive RemediationCall where
  | act (action : RemediationAction) (id : String)
  | expireStale (maxAgeSecs : Int)
  | cleanupOld (maxAgeSecs : Int)

namespace RemediationStore

def act (action : RemediationAction) (id : String) (now : Int) (r : Remediations) :
    Except RemediationStoreError RemediationRequest × Remediations :=
  match r.items.get id with
  | none => (.error (.notFound id), r)
  | some req =>
    match action.apply now req with
    | .error e => (.error e, r)
    | .ok req => (.ok req, r.write id req)

def expireStale (maxAgeSecs now : Int) (r : Remediations) : Nat × Remediations :=
  (r.items.rows.countP (fun e => e.2.isStale maxAgeSecs now),
    { r with items := r.items.update (fun _ req => if req.isStale maxAgeSecs now then req.expire else req) })

def cleanupOld (maxAgeSecs now : Int) (r : Remediations) : Nat × Remediations :=
  let kept := r.items.keepOnly (fun _ req => !req.isOld maxAgeSecs now)
  (r.items.rows.length - kept.rows.length, { r with items := kept })

/-- The store after a call at some time. -/
def call (now : Int) (r : Remediations) : RemediationCall → Remediations
  | .act action id => (act action id now r).2
  | .expireStale maxAgeSecs => (expireStale maxAgeSecs now r).2
  | .cleanupOld maxAgeSecs => (cleanupOld maxAgeSecs now r).2

end RemediationStore

/-- The commands of a call. A `SET` is noted with the request that it replaces. -/
inductive RemediationCommand where
  | get (id : String)
  | set (read written : RemediationRequest) (id : String)
  | sadd (id : String)
  | smembers
  | del (id : String)
  | srem (id : String)
  | timestamp

def RemediationCommand.Answer : RemediationCommand → Type
  | get _ => Except String (Option RemediationRequest)
  | set _ _ _ | sadd _ | del _ | srem _ => Except String Unit
  | smembers => Except String (List String)
  | timestamp => Int

/-- `aeterna:remediations:{id}`, with the index. -/
structure RemediationRedis where
  stored : Remediations := {}
  index : List String := []
  fault : RemediationCommand → Option CallFault := fun _ => none
  now : Int := 0

def remediationExec : (c : RemediationCommand) → RemediationRedis → c.Answer × RemediationRedis
  | .get id, w => settle (w.stored.items.get id) w w (w.fault (.get id))
  | .set read written id, w =>
    settle () w { w with stored := w.stored.write id written } (w.fault (.set read written id))
  | .sadd id, w => settle () w { w with index := id :: w.index.filter (· ≠ id) } (w.fault (.sadd id))
  | .smembers, w => settle w.index w w (w.fault .smembers)
  | .del id, w => settle () w { w with stored := w.stored.delete id } (w.fault (.del id))
  | .srem id, w => settle () w { w with index := w.index.filter (· ≠ id) } (w.fault (.srem id))
  | .timestamp, w => (w.now, w)

abbrev RemediationM : Type → Type := Program RemediationCommand RemediationCommand.Answer RemediationStoreError

def redis (c : RemediationCommand) : RemediationM c.Answer := ask c

namespace RedisStore

def set (wrap : String → RemediationStoreError) (read written : RemediationRequest) (id : String) :
    RemediationM Unit := do
  let stored ← redis (.set read written id)
  orFail wrap stored
  let indexed ← redis (.sadd id)
  orFail wrap indexed

def delete (id : String) : RemediationM Unit := do
  let deleted ← redis (.del id)
  orFail .other deleted
  let removed ← redis (.srem id)
  orFail .other removed

def listOne (items : List RemediationRequest) (id : String) : RemediationM (List RemediationRequest) := do
  let answer ← redis (.get id)
  let found ← orFail .other answer
  match found with
  | some item => pure (items ++ [item])
  | none => do
    let removed ← redis (.srem id)
    orFail .other removed
    pure items

def listAll : RemediationM (List RemediationRequest) := do
  let answer ← redis .smembers
  let ids ← orFail .other answer
  ids.foldlM listOne []

end RedisStore

namespace RedisRemediationStore

def act (action : RemediationAction) (id : String) : RemediationM RemediationRequest := do
  let answer ← redis (.get id)
  let found ← orFail (fun e => .notFound (id ++ ": " ++ e)) answer
  match found with
  | none => .fail (.notFound id)
  | some req => do
    let now ← redis .timestamp
    match action.apply now req with
    | .error e => .fail e
    | .ok written => do
      RedisStore.set (fun e => .notFound ("write failed: " ++ e)) req written id
      pure written

def expireOne (maxAgeSecs now : Int) (count : Nat) (req : RemediationRequest) : RemediationM Nat :=
  if req.isStale maxAgeSecs now then do
    RedisStore.set .other req req.expire req.id
    pure (count + 1)
  else pure count

def expireStale (maxAgeSecs : Int) : RemediationM Nat := do
  let now ← redis .timestamp
  let all ← RedisStore.listAll
  all.foldlM (expireOne maxAgeSecs now) 0

def cleanOne (maxAgeSecs now : Int) (count : Nat) (req : RemediationRequest) : RemediationM Nat :=
  if req.isOld maxAgeSecs now then do
    RedisStore.delete req.id
    pure (count + 1)
  else pure count

def cleanupOld (maxAgeSecs : Int) : RemediationM Nat := do
  let now ← redis .timestamp
  let all ← RedisStore.listAll
  all.foldlM (cleanOne maxAgeSecs now) 0

end RedisRemediationStore

inductive RemediationResult where
  | request (req : RemediationRequest)
  | marked
  | count (count : Nat)

def RemediationAction.result (req : RemediationRequest) : RemediationAction → RemediationResult
  | approve _ _ | reject _ _ => .request req
  | markExecuted | markFailed _ => .marked

def RemediationCall.program : RemediationCall → RemediationM RemediationResult
  | act action id => do
    let req ← RedisRemediationStore.act action id
    pure (action.result req)
  | expireStale maxAgeSecs => do
    let count ← RedisRemediationStore.expireStale maxAgeSecs
    pure (.count count)
  | cleanupOld maxAgeSecs => do
    let count ← RedisRemediationStore.cleanupOld maxAgeSecs
    pure (.count count)

end Aeterna.Operations
