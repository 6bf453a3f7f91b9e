import Aeterna.Lib.Programs
import Mathlib.Algebra.Group.Nat.Defs

namespace Aeterna.Tenancy
open Lib (Program)
open Function

/-- Times are in seconds. -/
inductive TenantRuntimeState where
  | loading (since : Nat)
  | available (rev wiredAt : Nat)
  | loadingFailed (reason : String) (lastAttemptAt retryCount : Nat)
  deriving DecidableEq

def saturatingAdd (bits a b : Nat) : Nat := min (a + b) (2 ^ bits - 1)

structure TenantRuntimeRegistry where
  state : String → Option TenantRuntimeState := fun _ => none
  lastRev : String → Option Nat := fun _ => none

namespace TenantRuntimeRegistry
variable (registry : TenantRuntimeRegistry) (slug : String) (now : Nat)

def markLoading : TenantRuntimeRegistry :=
  { registry with state := update registry.state slug (some (.loading now)) }

def markAvailable : Nat × TenantRuntimeRegistry :=
  let nextRev := saturatingAdd 64 ((registry.lastRev slug).getD 0) 1
  (nextRev,
    { state := update registry.state slug (some (.available nextRev now))
      lastRev := update registry.lastRev slug (some nextRev) })

def markFailed (reason : String) : Nat × TenantRuntimeRegistry :=
  let retryCount :=
    match registry.state slug with
    | some (.loadingFailed _ _ retryCount) => saturatingAdd 32 retryCount 1
    | _ => 1
  (retryCount, { registry with state := update registry.state slug (some (.loadingFailed reason now retryCount)) })

def forget : Option TenantRuntimeState × TenantRuntimeRegistry :=
  (registry.state slug,
    { state := update registry.state slug none
      lastRev := update registry.lastRev slug none })

end TenantRuntimeRegistry

structure ListedTenant where
  (id slug : String)

inductive WireCall where
  | get (slug : String)
  | markLoading (slug : String)
  | markAvailable (slug : String)
  | markFailed (slug reason : String)
  | forget (slug : String)
  | getTenant (slug : String)
  | listTenants (includeInactive : Bool)
  | tryGetLlmService (tenantId : String)
  | tryGetEmbeddingService (tenantId : String)
  | invalidateTenant (tenantId : String)
  | now
  | retryCooldown
  | shutdownRequested

def WireCall.Answer : WireCall → Type
  | get _ | forget _ => Option TenantRuntimeState
  | markLoading _ | invalidateTenant _ => Unit
  | markAvailable _ | markFailed _ _ => Nat
  | getTenant _ => Except String (Option String)
  | listTenants _ => Except String (List ListedTenant)
  | tryGetLlmService _ | tryGetEmbeddingService _ => Except String Unit
  | now | retryCooldown => Nat
  | shutdownRequested => Bool

/-- The rest of the pod: the tenant store, the providers with their caches, the clock, and the variable of the
cooldown, as they are at the moment. -/
structure WiringSurroundings where
  getTenant : String → Except String (Option String)
  listTenants : Bool → Except String (List ListedTenant)
  (llm embedding : String → Except String Unit)
  now : Nat := 0
  retryCooldownSecs : Option String := none
  shutdown : Bool := false

structure Pod where
  registry : TenantRuntimeRegistry := {}
  surroundings : WiringSurroundings

def WiringSurroundings.configuredCooldown (s : WiringSurroundings) : Nat :=
  (s.retryCooldownSecs.bind String.toNat?).getD 30

def Pod.exec (call : WireCall) (pod : Pod) : call.Answer × Pod :=
  match call with
  | .get slug => (pod.registry.state slug, pod)
  | .markLoading slug => ((), { pod with registry := pod.registry.markLoading slug pod.surroundings.now })
  | .markAvailable slug =>
    let marked := pod.registry.markAvailable slug pod.surroundings.now
    (marked.1, { pod with registry := marked.2 })
  | .markFailed slug reason =>
    let marked := pod.registry.markFailed slug pod.surroundings.now reason
    (marked.1, { pod with registry := marked.2 })
  | .forget slug =>
    let marked := pod.registry.forget slug
    (marked.1, { pod with registry := marked.2 })
  | .getTenant slug => (pod.surroundings.getTenant slug, pod)
  | .listTenants includeInactive => (pod.surroundings.listTenants includeInactive, pod)
  | .tryGetLlmService tenantId => (pod.surroundings.llm tenantId, pod)
  | .tryGetEmbeddingService tenantId => (pod.surroundings.embedding tenantId, pod)
  | .invalidateTenant _ => ((), pod)
  | .now => (pod.surroundings.now, pod)
  | .retryCooldown => (pod.surroundings.configuredCooldown, pod)
  | .shutdownRequested => (pod.surroundings.shutdown, pod)

abbrev WireProgram : Type → Type := Program WireCall WireCall.Answer String

def wireCall (c : WireCall) : WireProgram c.Answer := Program.ask c

def fitting : Nat → List Char → List Char
  | _, [] => []
  | bytes, c :: rest => if c.utf8Size ≤ bytes then c :: fitting (bytes - c.utf8Size) rest else []

def truncate (s : String) (max : Nat) : String :=
  if s.utf8ByteSize ≤ max then s else String.ofList (fitting max s.toList) ++ "…"

/-- The answer of `wire_one`: a provider's error is reported with its kind. -/
def wireOne (tenantId : String) : WireProgram (Except String Unit) := do
  let llm ← wireCall (.tryGetLlmService tenantId)
  match llm with
  | .error e => pure (.error ("llm: " ++ e))
  | .ok () => do
    let embedding ← wireCall (.tryGetEmbeddingService tenantId)
    match embedding with
    | .error e => pure (.error ("embedding: " ++ e))
    | .ok () => pure (.ok ())

def markTerminal (slug : String) : Except String Unit → WireProgram Unit
  | .ok () => do
    let _ ← wireCall (.markAvailable slug)
  | .error e => do
    let _ ← wireCall (.markFailed slug (truncate e 256))

def failedSnapshotOr (slug reason : String) : WireProgram TenantRuntimeState := do
  let found ← wireCall (.get slug)
  match found with
  | some state => pure state
  | none => do
    let now ← wireCall .now
    pure (.loadingFailed reason now 1)

def cooldownElapsed (lastAttemptAt : Nat) : WireProgram Bool := do
  let cooldown : Nat ← wireCall .retryCooldown
  let now : Nat ← wireCall .now
  pure (decide (lastAttemptAt ≤ now ∧ cooldown ≤ now - lastAttemptAt))

def wireNow (slug : String) : WireProgram TenantRuntimeState := do
  let resolved ← wireCall (.getTenant slug)
  match resolved with
  | .ok none => do
    let _ ← wireCall (.markFailed slug "tenant not found")
    failedSnapshotOr slug "tenant not found"
  | .error e => do
    let reason := truncate ("tenant store lookup failed: " ++ e) 256
    let _ ← wireCall (.markFailed slug reason)
    failedSnapshotOr slug reason
  | .ok (some tenantId) => do
    let _ ← wireCall (.markLoading slug)
    let wired ← wireOne tenantId
    markTerminal slug wired
    let found ← wireCall (.get slug)
    match found with
    | some state => pure state
    | none => do
      let now ← wireCall .now
      pure (.loading now)

def ensureWired (slug : String) : WireProgram TenantRuntimeState := do
  let current ← wireCall (.get slug)
  match current with
  | some (.available rev wiredAt) => pure (.available rev wiredAt)
  | some (.loading since) => pure (.loading since)
  | some (.loadingFailed reason lastAttemptAt retryCount) => do
    let elapsed ← cooldownElapsed lastAttemptAt
    if elapsed then wireNow slug else pure (.loadingFailed reason lastAttemptAt retryCount)
  | none => wireNow slug

/-- The first loop of `run_eager_wire`. -/
def seedLoading : List ListedTenant → WireProgram Unit
  | [] => pure ()
  | t :: rest => do
    let _ ← wireCall (.markLoading t.slug)
    seedLoading rest

def wireAll : List ListedTenant → WireProgram Unit
  | [] => pure ()
  | t :: rest => do
    let shutdown ← wireCall .shutdownRequested
    match shutdown with
    | true => pure ()
    | false => do
      let wired ← wireOne t.id
      markTerminal t.slug wired
      wireAll rest

def runEagerWire : WireProgram Unit := do
  let listed ← wireCall (.listTenants false)
  match listed with
  | .error e => .fail e
  | .ok tenants => do
    seedLoading tenants
    wireAll tenants

inductive TenantChangeKind where
  | provisioned | updated | deactivated | unknown
  | provisioningStep (step status : String) (detail : Option String)

structure TenantChangeEvent where
  slug : String
  kind : TenantChangeKind

/-- `handle_event`, past the local subscribers. -/
def handleEvent (event : TenantChangeEvent) : WireProgram Unit :=
  match event.kind with
  | .provisioningStep _ _ _ => pure ()
  | kind => do
    let resolved ← wireCall (.getTenant event.slug)
    match resolved with
    | .ok none => do
      let _ ← wireCall (.forget event.slug)
    | .error _ => pure ()
    | .ok (some tenantId) => do
      let _ ← wireCall (.invalidateTenant tenantId)
      match kind with
      | .deactivated => do
        let _ ← wireCall (.forget event.slug)
      | _ => do
        let _ ← wireCall (.markLoading event.slug)
        let wired ← wireOne tenantId
        markTerminal event.slug wired

/-- The tasks of a pod. -/
inductive WireTask where
  | eager
  | event (event : TenantChangeEvent)
  | ensure (slug : String)

def WireTask.program : WireTask → WireProgram Unit
  | .eager => runEagerWire
  | .event e => handleEvent e
  | .ensure slug => do
    let _ ← ensureWired slug
    pure ()

end Aeterna.Tenancy
