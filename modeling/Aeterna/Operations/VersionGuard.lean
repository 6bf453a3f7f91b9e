import Aeterna.Lib.Programs

namespace Aeterna.Operations
open Lib (CallFault Program)
open Lib.CallFault Lib.Program

def SERVER_VERSION_KEY : String := "aeterna:server:version"

def PURGE_LOCK_KEY : String := "aeterna:server:bootstrap:purge-lock"

def PURGE_LOCK_TTL : Nat := 30000

def DEFAULT_PURGE_PREFIX : String := "aeterna:"

inductive VersionAction where
  | matched
  | initialized
  | purged (previous : String) (keysRemoved : Nat)
  | skippedNotLeader (current : String)

/-- `unfinished` ends a scan that goes on for longer than is looked at. -/
inductive VersionGuardError where
  | redis (error : String)
  | unfinished

inductive VersionDecision where
  | noOp
  | initialiseSentinel
  | purgeRequired (previous : String)

def decideAction (current : Option String) (expected : String) : VersionDecision :=
  match current with
  | some v => if v = expected then .noOp else .purgeRequired v
  | none => .initialiseSentinel

def hasPrefix (pfx key : String) : Bool := pfx.toList.isPrefixOf key.toList

inductive GuardCommand where
  | getVersion
  | setVersion (version : String)
  | acquirePurgeLock
  | scan (cursor : Nat) (pfx : String)
  | unlink (keys : List String)
  | write (key : String)

def GuardCommand.Answer : GuardCommand → Type
  | getVersion => Except String (Option String)
  | setVersion _ | write _ => Except String Unit
  | acquirePurgeLock => Except String Bool
  | scan _ _ => Except String (Nat × List String)
  | unlink _ => Except String Nat

/-- The keys that are present but for the sentinel and the lock, the scans under way with the keys that each
still owes, the next page of a scan and whether it may be the last, and what has happened: when the first lock
runs out, which keys replicas have written, which keys were never away, and which written keys were removed
before the first lock ran out. -/
structure GuardRedis where
  version : Option String
  lockUntil : Option Nat := none
  present : List String := []
  cursors : Nat := 0
  owed : Nat → List String := fun _ => []
  page : List String := []
  last : Bool := true
  fault : GuardCommand → Option CallFault := fun _ => none
  now : Nat := 0
  firstLock : Option Nat := none
  written : List String := []
  survivors : List String := []
  lost : List String := []

namespace GuardRedis

variable (w : GuardRedis)

def Locked : Prop := ∃ expiry, w.lockUntil = some expiry ∧ w.now < expiry

instance (w : GuardRedis) : Decidable w.Locked :=
  match lock : w.lockUntil with
  | none => .isFalse (by rintro ⟨_, held, _⟩; rw [lock] at held; cases held)
  | some expiry => decidable_of_iff (w.now < expiry) ⟨fun ahead => ⟨expiry, lock, ahead⟩, by
      rintro ⟨_, held, ahead⟩
      rw [lock] at held
      cases held
      exact ahead⟩

def Unexpired : Prop := ∀ expiry, w.firstLock = some expiry → w.now < expiry

instance (w : GuardRedis) : Decidable w.Unexpired :=
  match lock : w.firstLock with
  | none => .isTrue (by rintro _ held; rw [lock] at held; cases held)
  | some expiry => decidable_of_iff (w.now < expiry) ⟨fun ahead _ held => by
      rw [lock] at held
      cases held
      exact ahead, fun unexpired => unexpired expiry lock⟩

def acquire : GuardRedis :=
  if w.Locked then w
  else
    let expiry := w.now + PURGE_LOCK_TTL
    { w with lockUntil := some expiry, firstLock := some (w.firstLock.getD expiry) }

/-- What a scan still owes before its next page. -/
def due (cursor : Nat) (pfx : String) (w : GuardRedis) : List String :=
  if cursor = 0 then w.present.filter (hasPrefix pfx) else w.owed cursor

def scan (cursor : Nat) (pfx : String) (w : GuardRedis) : (Nat × List String) × GuardRedis :=
  let keys := w.page.filter (hasPrefix pfx)
  let rest := (w.due cursor pfx).filter (· ∉ keys)
  if rest = [] ∧ w.last then ((0, keys), w)
  else
    let next := w.cursors + 1
    ((next, keys), { w with cursors := next, owed := fun c => if c = next then rest else w.owed c })

def remove (keys : List String) (w : GuardRedis) : GuardRedis :=
  { w with
    present := w.present.filter (· ∉ keys)
    owed := fun c => (w.owed c).filter (· ∉ keys)
    survivors := w.survivors.filter (· ∉ keys) }

def unlink (keys : List String) (w : GuardRedis) : GuardRedis :=
  { w.remove keys with lost := if w.Unexpired then w.lost ++ keys.filter (· ∈ w.written) else w.lost }

def write (key : String) (w : GuardRedis) : GuardRedis :=
  { w with present := key :: w.present.filter (· ≠ key), written := key :: w.written }

end GuardRedis

def guardExec : (c : GuardCommand) → GuardRedis → c.Answer × GuardRedis
  | .getVersion, w => settle w.version w w (w.fault .getVersion)
  | .setVersion v, w => settle () w { w with version := some v } (w.fault (.setVersion v))
  | .acquirePurgeLock, w => settle (!decide w.Locked) w w.acquire (w.fault .acquirePurgeLock)
  | .scan cursor pfx, w => settle (w.scan cursor pfx).1 w (w.scan cursor pfx).2 (w.fault (.scan cursor pfx))
  | .unlink keys, w =>
    settle (w.present.filter (· ∈ keys)).length w (w.unlink keys) (w.fault (.unlink keys))
  | .write key, w => settle () w (w.write key) (w.fault (.write key))

abbrev GuardM : Type → Type := Program GuardCommand GuardCommand.Answer VersionGuardError

def guardCall (c : GuardCommand) : GuardM c.Answer := ask c

def toUnlink (keys : List String) : List String := keys.filter (fun k => k ≠ SERVER_VERSION_KEY && k ≠ PURGE_LOCK_KEY)

def unlinkPage (keys : List String) : GuardM Nat :=
  if toUnlink keys = [] then pure 0
  else do
    let answer ← guardCall (.unlink (toUnlink keys))
    orFail .redis answer

def flushPrefix (pfx : String) : Nat → Nat → Nat → GuardM Nat
  | 0, _, _ => .fail .unfinished
  | rounds + 1, cursor, removed => do
    let answer ← guardCall (.scan cursor pfx)
    let (nextCursor, keys) ← orFail .redis answer
    let n ← unlinkPage keys
    if nextCursor = 0 then pure (removed + n)
    else flushPrefix pfx rounds nextCursor (removed + n)

def setSentinel (version : String) (action : VersionAction) : GuardM VersionAction := do
  let set ← guardCall (.setVersion version)
  orFail .redis set
  pure action

variable (pfx : String)

variable (rounds : Nat)

def purge (expectedVersion previous : String) : GuardM VersionAction := do
  let acquired ← guardCall .acquirePurgeLock
  let won ← orFail .redis acquired
  if won then do
    let keysRemoved ← flushPrefix pfx rounds 0 0
    setSentinel expectedVersion (.purged previous keysRemoved)
  else pure (.skippedNotLeader previous)

def carryOut (expectedVersion : String) : VersionDecision → GuardM VersionAction
  | .noOp => pure .matched
  | .initialiseSentinel => setSentinel expectedVersion .initialized
  | .purgeRequired previous => purge pfx rounds expectedVersion previous

def ensureVersion (expectedVersion : String) : GuardM VersionAction := do
  let answer ← guardCall .getVersion
  let current ← orFail .redis answer
  carryOut pfx rounds expectedVersion (decideAction current expectedVersion)

def writeKeys : List String → GuardM Unit
  | [] => pure ()
  | key :: rest => do
    let _ ← guardCall (.write key)
    writeKeys rest

def replica (expectedVersion : String) (keys : List String) : GuardM Unit := do
  let _ ← (ensureVersion pfx rounds expectedVersion).attempt
  writeKeys keys

end Aeterna.Operations
