import Aeterna.Access.Identity
import Aeterna.Lib.Programs

/-!
Validation and revocation of service tokens (`service_token_validator.rs`, `service_tokens.rs`).
-/

namespace Aeterna
open Lib Pool Function

inductive AgentStatus where
  | active | revoked | unknown
  deriving DecidableEq, Repr

def AgentStatus.fromDb (text : String) : AgentStatus :=
  if text = "active" then .active else if text = "revoked" then .revoked else .unknown

/-- `CachedAgent`; ids are of any type `U`, times in milliseconds. -/
structure CachedAgent (U : Type) where
  status : AgentStatus
  tenantId : U
  capabilities : List String
  expiresAt : Int
  deriving DecidableEq, Repr

/-- A row of `agents`, as far as tokens are concerned. -/
structure AgentRow (U : Type) where
  (agentType status : String)
  tenantId : Option U
  capabilities : Json
  expiresAt : Option Int

def revocationCacheTtl : Int := 60000

inductive CachePayload (U : Type) where
  | entry (agent : CachedAgent U)
  | corrupt

/-- The steps of validation and revocation: Redis commands, operations of the map of one process, statements
of the database and a look at the clock. -/
inductive TokenCall (U : Type) where
  | redisGet (agentId : U)
  | redisSet (agentId : U) (entry : CachedAgent U)
  | redisDel (agentId : U)
  | localGet (process : Nat) (agentId : U)
  | localInsert (process : Nat) (agentId : U) (entry : CachedAgent U)
  | localRemove (process : Nat) (agentId : U)
  | readAgent (agentId : U)
  | revokeAgent (agentId : U)
  | utcNow

def TokenCall.Answer {U : Type} : TokenCall U → Type
  | .redisGet _ => Except String (Option (CachePayload U))
  | .redisSet _ _ => Except String Unit
  | .redisDel _ => Except String Unit
  | .localGet _ _ => Option (CachedAgent U × Int)
  | .localInsert _ _ _ => Unit
  | .localRemove _ _ => Unit
  | .readAgent _ => Except String (Option (AgentRow U))
  | .revokeAgent _ => Except String Nat
  | .utcNow => Int

abbrev TokenM (U : Type) := Program (TokenCall U) TokenCall.Answer Response

structure RevocationCache where
  distributed : Bool
  process : Nat

structure ServicePrincipal (U : Type) where
  (agentId tenantId : U)
  scopes : List String

structure PluginIdentity where
  (githubLogin tenantId tokenType : String)

inductive TokenOutcome (U : Type) where
  | validated (principal : Option (ServicePrincipal U))
  | revoked (agentId : U)

section
variable {U : Type} (cache : RevocationCache)

def redisGet (agentId : U) : TokenM U (Except String (Option (CachePayload U))) := .ask (TokenCall.redisGet agentId)

def redisSet (agentId : U) (entry : CachedAgent U) : TokenM U (Except String Unit) :=
  .ask (TokenCall.redisSet agentId entry)

def redisDel (agentId : U) : TokenM U (Except String Unit) := .ask (TokenCall.redisDel agentId)

def localGet (agentId : U) : TokenM U (Option (CachedAgent U × Int)) :=
  .ask (TokenCall.localGet cache.process agentId)

def localInsert (agentId : U) (entry : CachedAgent U) : TokenM U Unit :=
  .ask (TokenCall.localInsert cache.process agentId entry)

def localRemove (agentId : U) : TokenM U Unit := .ask (TokenCall.localRemove cache.process agentId)

def readAgent (agentId : U) : TokenM U (Except String (Option (AgentRow U))) := .ask (TokenCall.readAgent agentId)

def revokeAgent (agentId : U) : TokenM U (Except String Nat) := .ask (TokenCall.revokeAgent agentId)

def tokenClock : TokenM U Int := .ask TokenCall.utcNow

variable (agentId : U)

def RevocationCache.get : TokenM U (Option (CachedAgent U)) :=
  if cache.distributed then do
    match ← redisGet agentId with
    | .ok (some (.entry agent)) => pure (some agent)
    | .ok (some .corrupt) =>
      let _ ← redisDel agentId
      pure none
    | .ok none => pure none
    | .error _ => pure none
  else do
    match ← localGet cache agentId with
    | some (agent, elapsed) => pure (if elapsed > revocationCacheTtl then none else some agent)
    | none => pure none

def RevocationCache.warm (entry : CachedAgent U) : TokenM U Unit :=
  if cache.distributed then do
    match ← redisSet agentId entry with
    | .ok () => pure ()
    | .error _ => localInsert cache agentId entry
  else localInsert cache agentId entry

def RevocationCache.invalidate : TokenM U Unit :=
  if cache.distributed then do
    let _ ← redisDel agentId
    localRemove cache agentId
  else localRemove cache agentId

def malformedRow (column : String) : Response :=
  ⟨500, "agent_row_malformed",
    "error occurred while decoding column \"" ++ column ++ "\": unexpected null; try decoding as an `Option`", []⟩

def AgentRow.toCached (row : AgentRow U) : Except Response (CachedAgent U) :=
  match row.tenantId, row.expiresAt with
  | none, _ => .error (malformedRow "tenant_id")
  | some _, none => .error (malformedRow "expires_at")
  | some tenantId, some expiresAt =>
    let capabilities := match row.capabilities with
      | .arr items => items.filterMap (fun item => match item with
        | .str text => some text
        | _ => none)
      | _ => []
    .ok ⟨.fromDb row.status, tenantId, capabilities, expiresAt⟩

def readAgentFromDb : TokenM U (CachedAgent U) := do
  match ← readAgent agentId with
  | .error e => .fail ⟨500, "agent_lookup_failed", e, []⟩
  | .ok none => .fail ⟨401, "invalid_service_token", "service token references an unknown agent", []⟩
  | .ok (some row) =>
    match row.toCached with
    | .error response => .fail response
    | .ok agent => pure agent

def snapshotAgent : TokenM U (CachedAgent U) := do
  match ← cache.get agentId with
  | some cached => pure cached
  | none =>
    let fresh ← readAgentFromDb agentId
    cache.warm agentId fresh
    pure fresh

def decideAgent [DecidableEq U] (agentId tenantClaim : U) (snapshot : CachedAgent U) : TokenM U (TokenOutcome U) :=
  match snapshot.status with
  | .revoked => .fail ⟨401, "token_revoked", "service token has been revoked", []⟩
  | .unknown => .fail ⟨401, "invalid_service_token", "service token agent is in an unexpected state", []⟩
  | .active => do
    let now ← tokenClock
    if snapshot.expiresAt ≤ now then .fail ⟨401, "token_expired", "service token has expired", []⟩
    else if snapshot.tenantId ≠ tenantClaim then
      .fail ⟨401, "invalid_service_token", "service token `tenant_id` does not match the agent record", []⟩
    else pure (.validated (some ⟨agentId, snapshot.tenantId, snapshot.capabilities⟩))

def validateServiceToken [DecidableEq U] (parse : String → Option U) (identity : PluginIdentity) :
    TokenM U (TokenOutcome U) :=
  if identity.tokenType ≠ "service" then pure (.validated none)
  else
    match parse identity.githubLogin, parse identity.tenantId with
    | none, _ => .fail ⟨401, "invalid_service_token", "service token `sub` is not a valid agent id", []⟩
    | some _, none => .fail ⟨401, "invalid_service_token", "service token `tenant_id` is not a valid uuid", []⟩
    | some agentId, some tenantClaim => do
      let snapshot ← snapshotAgent cache agentId
      decideAgent agentId tenantClaim snapshot

/-- `revoke_handler`; `caller` is the answer of `require_platform_admin`. -/
def revokeHandler (caller : Except Response Unit) (agentId : U) : TokenM U (TokenOutcome U) :=
  match caller with
  | .error response => .fail response
  | .ok () => do
    match ← revokeAgent agentId with
    | .ok 0 => .fail ⟨404, "token_not_found", "service token not found, already revoked, or not a service token", []⟩
    | .ok _ =>
      cache.invalidate agentId
      pure (.revoked agentId)
    | .error e => .fail ⟨500, "revoke_failed", e, []⟩

end

/-- The agents by id, the entries of Redis and of each process with the times they were stored, and the time. -/
structure TokenStores (U : Type) where
  agents : U → Option (AgentRow U)
  redis : U → Option (CachePayload U × Int) := fun _ => none
  locals : Nat → U → Option (CachedAgent U × Int) := fun _ _ => none
  now : Int := 0

section
variable {U : Type} [DecidableEq U]

def TokenStores.revokeRow (s : TokenStores U) (id : U) : Nat × TokenStores U :=
  match s.agents id with
  | some row =>
    if row.agentType = "service" ∧ row.status = "active" then
      (1, { s with agents := update s.agents id (some { row with status := "revoked" }) })
    else (0, s)
  | none => (0, s)

def TokenStores.redisValue (s : TokenStores U) (id : U) : Option (CachePayload U) :=
  (s.redis id).bind (fun (payload, at_) => if s.now < at_ + revocationCacheTtl then some payload else none)

/-- Storage calls that do not fail. -/
def TokenStores.exec : (c : TokenCall U) → TokenStores U → c.Answer × TokenStores U
  | .redisGet id, s => (.ok (s.redisValue id), s)
  | .redisSet id entry, s => (.ok (), { s with redis := update s.redis id (some (.entry entry, s.now)) })
  | .redisDel id, s => (.ok (), { s with redis := update s.redis id none })
  | .localGet process id, s => ((s.locals process id).map (fun (agent, at_) => (agent, s.now - at_)), s)
  | .localInsert process id entry, s =>
    let entries := update (s.locals process) id (some (entry, s.now))
    ((), { s with locals := update s.locals process entries })
  | .localRemove process id, s =>
    ((), { s with locals := update s.locals process (update (s.locals process) id none) })
  | .readAgent id, s => (.ok ((s.agents id).filter (fun row => row.agentType = "service")), s)
  | .revokeAgent id, s => (.ok (s.revokeRow id).1, (s.revokeRow id).2)
  | .utcNow, s => (s.now, s)

def TokenStores.Later (s t : TokenStores U) : Prop := ∃ later, s.now ≤ later ∧ t = { s with now := later }

variable {α : Type} {I : TokenStores U → Prop}
  {post : Except Response α → List (Note (TokenCall.Answer (U := U))) → TokenStores U → Prop}
  {notes : List (Note (TokenCall.Answer (U := U)))} {s : TokenStores U} {cache : RevocationCache} {id : U}

theorem redisGet_meets {f : Except String (Option (CachePayload U)) → TokenM U α}
    (each : ∀ t, I t → (f (.ok (t.redisValue id))).Meets (watching TokenStores.exec I) post
      (⟨.redisGet id, .ok (t.redisValue id)⟩ :: notes) t) :
    (redisGet id >>= f).Meets (watching TokenStores.exec I) post notes s :=
  fun t holds _ _ => ⟨trivial, trivial, each t holds⟩

variable {f : Except String Unit → TokenM U α}

theorem redisDel_meets
    (each : ∀ t, (f (.ok ())).Meets (watching TokenStores.exec I) post (⟨.redisDel id, .ok ()⟩ :: notes) t) :
    (redisDel id >>= f).Meets (watching TokenStores.exec I) post notes s :=
  fun _ _ _ _ => ⟨trivial, trivial, each _⟩

theorem tokenClock_meets {f : Int → TokenM U α}
    (each : ∀ t : TokenStores U, I t → (f t.now).Meets (watching TokenStores.exec I) post
      (⟨.utcNow, t.now⟩ :: notes) t) :
    (tokenClock >>= f).Meets (watching TokenStores.exec I) post notes s :=
  fun t holds _ _ => ⟨trivial, trivial, each t holds⟩

theorem localGet_meets {f : Option (CachedAgent U × Int) → TokenM U α}
    (each : ∀ t answer, I t → (∀ agent elapsed, answer = some (agent, elapsed) →
      ∃ at_, t.locals cache.process id = some (agent, at_)) →
      (f answer).Meets (watching TokenStores.exec I) post (⟨.localGet cache.process id, answer⟩ :: notes) t) :
    (localGet cache id >>= f).Meets (watching TokenStores.exec I) post notes s := by
  intro t holds _ _
  refine ⟨trivial, trivial, each t _ holds ?_⟩
  intro agent elapsed answered
  obtain ⟨⟨stored, at_⟩, found, same⟩ := Option.map_eq_some_iff.mp answered
  cases same
  exact ⟨at_, found⟩

theorem localRemove_meets {f : Unit → TokenM U α} (each : ∀ t, (f ()).Meets (watching TokenStores.exec I) post
      (⟨.localRemove cache.process id, ()⟩ :: notes) t) :
    (localRemove cache id >>= f).Meets (watching TokenStores.exec I) post notes s :=
  fun _ _ _ _ => ⟨trivial, trivial, each _⟩

theorem readAgent_meets {f : Except String (Option (AgentRow U)) → TokenM U α}
    (each : ∀ t row, I t → (∀ found, row = some found → t.agents id = some found) →
      (f (.ok row)).Meets (watching TokenStores.exec I) post (⟨.readAgent id, .ok row⟩ :: notes) t) :
    (readAgent id >>= f).Meets (watching TokenStores.exec I) post notes s :=
  fun t holds _ _ => ⟨trivial, trivial, each t _ holds (fun _ found => (Option.eq_some_of_filter_eq_some found))⟩

theorem revokeAgent_meets {f : Except String Nat → TokenM U α}
    (each : ∀ t n, (f (.ok n)).Meets (watching TokenStores.exec I) post (⟨.revokeAgent id, .ok n⟩ :: notes) t) :
    (revokeAgent id >>= f).Meets (watching TokenStores.exec I) post notes s :=
  fun t _ _ _ => ⟨trivial, trivial, each _ (t.revokeRow id).1⟩

end

end Aeterna
