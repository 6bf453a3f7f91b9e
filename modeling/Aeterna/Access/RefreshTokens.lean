import Aeterna.Core.Types
import Aeterna.Lib.Programs

/-!
The stores of refresh tokens (`plugin_auth.rs`): a map behind a lock in one process, and Redis through
`storage::RedisStore`.
-/

namespace Aeterna
open Lib Function

structure RefreshEntry where
  (tenantId githubLogin : String)
  githubId : UInt64
  email : Option String
  expiresAt : Int
  tokenKind : String
  deriving DecidableEq, Repr

inductive RefreshTokenTakeResult where
  | missing | wrongKind
  deriving DecidableEq, Repr

inductive RefreshPayload where
  | entry (entry : RefreshEntry)
  | corrupt (error : String)

/-- The steps of the two stores, and a look at the clock. -/
inductive RefreshCall where
  | utcNow
  | mapGet (token : String)
  | mapInsert (token : String) (entry : RefreshEntry)
  | mapRemove (token : String)
  | mapRevoke (token kind : String)
  | get (id : String)
  | setEx (id : String) (entry : RefreshEntry) (ttl : UInt64)
  | sadd (id : String)
  | srem (id : String)
  | del (id : String)
  | getDel (id : String)

@[reducible] def RefreshCall.Answer : RefreshCall → Type
  | .utcNow => Int
  | .mapGet _ => Option RefreshEntry
  | .mapInsert _ _ => Unit
  | .mapRemove _ => Option RefreshEntry
  | .mapRevoke _ _ => Unit
  | .get _ => Except String (Option RefreshPayload)
  | .setEx _ _ _ => Except String Unit
  | .sadd _ => Except String Unit
  | .srem _ => Except String Unit
  | .del _ => Except String Nat
  | .getDel _ => Except String (Option RefreshPayload)

abbrev RefreshM := Program RefreshCall RefreshCall.Answer Empty

def refreshStep (c : RefreshCall) : RefreshM c.Answer := .ask c

def timestamp (millis : Int) : Int := millis / 1000

def RefreshPayload.decode : RefreshPayload → Except String RefreshEntry
  | .entry value => .ok value
  | .corrupt error => .error ("deserialization: " ++ error)

namespace RedisStore

variable (id : String)

def set (entry : RefreshEntry) (ttl : UInt64) : RefreshM (Except String Unit) := do
  match ← refreshStep (.setEx id entry ttl) with
  | .error e => pure (.error e)
  | .ok () => refreshStep (.sadd id)

def get (id : String) : RefreshM (Except String (Option RefreshEntry)) := do
  match ← refreshStep (.get id) with
  | .error e => pure (.error e)
  | .ok none => pure (.ok none)
  | .ok (some payload) => pure (payload.decode.map some)

def delete : RefreshM (Except String Bool) := do
  match ← refreshStep (.del id) with
  | .error e => pure (.error e)
  | .ok deleted =>
    match ← refreshStep (.srem id) with
    | .error e => pure (.error e)
    | .ok () => pure (.ok (decide (deleted > 0)))

def take : RefreshM (Except String (Option RefreshEntry)) := do
  match ← refreshStep (.getDel id) with
  | .error e => pure (.error e)
  | .ok none => pure (.ok none)
  | .ok (some payload) =>
    match ← refreshStep (.srem id) with
    | .error e => pure (.error e)
    | .ok () => pure (payload.decode.map some)

end RedisStore

inductive RefreshBackend where
  | inMemory | redis
  deriving DecidableEq

variable (backend : RefreshBackend)

/-- `RefreshTokenStoreBackend::insert`; the sum wraps as 64-bit integers do. -/
def insertToken (token : String) (entry : RefreshEntry) (ttl : UInt64) : RefreshM Unit := do
  let now ← refreshStep .utcNow
  let expiresAt := Int.bmod (timestamp now + Int.bmod ttl.toNat (2 ^ 64)) (2 ^ 64)
  match backend with
  | .inMemory => refreshStep (.mapInsert token { entry with expiresAt := expiresAt })
  | .redis =>
    let _ ← RedisStore.set token { entry with expiresAt := expiresAt } ttl
    pure ()

variable (token expectedKind : String)

def takeFromMap : RefreshM (Except RefreshTokenTakeResult RefreshEntry) := do
  let now ← refreshStep .utcNow
  match ← refreshStep (.mapGet token) with
  | none => pure (.error .missing)
  | some entry =>
    if entry.expiresAt ≤ timestamp now then do
      let _ ← refreshStep (.mapRemove token)
      pure (.error .missing)
    else if entry.tokenKind ≠ expectedKind then pure (.error .wrongKind)
    else do
      match ← refreshStep (.mapRemove token) with
      | some entry => pure (if entry.expiresAt > timestamp now then .ok entry else .error .missing)
      | none => pure (.error .missing)

def takeFromRedis : RefreshM (Except RefreshTokenTakeResult RefreshEntry) := do
  match ← RedisStore.get token with
  | .error _ => pure (.error .missing)
  | .ok none => pure (.error .missing)
  | .ok (some entry) =>
    let now ← refreshStep .utcNow
    if entry.expiresAt ≤ timestamp now then do
      let _ ← RedisStore.delete token
      pure (.error .missing)
    else if entry.tokenKind ≠ expectedKind then pure (.error .wrongKind)
    else do
      match ← RedisStore.take token with
      | .ok (some entry) =>
        let now ← refreshStep .utcNow
        pure (if entry.expiresAt > timestamp now then .ok entry else .error .missing)
      | .ok none => pure (.error .missing)
      | .error _ => pure (.error .missing)

def takeForKind : RefreshM (Except RefreshTokenTakeResult RefreshEntry) :=
  match backend with
  | .inMemory => takeFromMap token expectedKind
  | .redis => takeFromRedis token expectedKind

def revokeForKind : RefreshM Unit :=
  match backend with
  | .inMemory => refreshStep (.mapRevoke token expectedKind)
  | .redis => do
    match ← RedisStore.get token with
    | .ok (some entry) =>
      if entry.tokenKind = expectedKind then do
        let _ ← RedisStore.delete token
        pure ()
      else pure ()
    | .ok none => pure ()
    | .error _ => pure ()

inductive RedisValue where
  | item (payload : RefreshPayload) (deadline : Int)
  | members (ids : List String)

/-- The map, the keys of Redis below the prefix of the store, and the time. -/
structure RefreshStores where
  tokens : String → Option RefreshEntry := fun _ => none
  redis : String → Option RedisValue := fun _ => none
  now : Int := 0

namespace RefreshStores

def listKey : String := "__index"

def wrongType : String := "WRONGTYPE: Operation against a key holding the wrong kind of value"

variable (s : RefreshStores)

/-- The text of a token, which Redis drops when its time is over. -/
def live (id : String) : Option RefreshPayload :=
  match s.redis id with
  | some (.item payload deadline) => if s.now < deadline then some payload else none
  | _ => none

def index : Except String (List String) :=
  match s.redis listKey with
  | some (.members ids) => .ok ids
  | _ => if (s.live listKey).isSome then .error wrongType else .ok []

def putIndex (ids : List String) : RefreshStores :=
  { s with redis := update s.redis listKey (if ids = [] then none else some (.members ids)) }

def isSet (id : String) : Bool :=
  match s.redis id with
  | some (.members _) => true
  | _ => false

def drop (id : String) : RefreshStores := { s with redis := update s.redis id none }

def exec : (c : RefreshCall) → RefreshStores → c.Answer × RefreshStores
  | .utcNow, s => (s.now, s)
  | .mapGet token, s => (s.tokens token, s)
  | .mapInsert token entry, s => ((), { s with tokens := update s.tokens token (some entry) })
  | .mapRemove token, s => (s.tokens token, { s with tokens := update s.tokens token none })
  | .mapRevoke token kind, s =>
    ((), if (s.tokens token).any (fun entry => entry.tokenKind = kind) then
      { s with tokens := update s.tokens token none } else s)
  | .get id, s => (if s.isSet id then .error wrongType else .ok (s.live id), s)
  | .setEx id entry ttl, s =>
    if ttl = 0 ∨ ttl.toNat > 9223372036854775 then (.error "ERR invalid expire time in 'setex' command", s)
    else (.ok (), { s with redis := update s.redis id (some (.item (.entry entry) (s.now + ttl.toNat * 1000))) })
  | .sadd id, s =>
    match s.index with
    | .ok ids => (.ok (), s.putIndex (ids.insert id))
    | .error e => (.error e, s)
  | .srem id, s =>
    match s.index with
    | .ok ids => (.ok (), s.putIndex (ids.erase id))
    | .error e => (.error e, s)
  | .del id, s => (.ok (if s.isSet id ∨ (s.live id).isSome then 1 else 0), s.drop id)
  | .getDel id, s =>
    if s.isSet id then (.error wrongType, s)
    else (.ok (s.live id), s.drop id)

def Later (s t : RefreshStores) : Prop := ∃ later, s.now ≤ later ∧ t = { s with now := later }

end RefreshStores

end Aeterna
