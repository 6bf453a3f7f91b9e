import Aeterna.Access.ServiceTokens

namespace Aeterna
open Lib TokenStores Function Pool List

section
variable {U : Type}

/-- The two caches are one: Redis, or the map of one process. -/
def RevocationCache.SameBackend (backend cache : RevocationCache) : Prop :=
  cache.distributed = backend.distributed ∧ (backend.distributed ∨ cache.process = backend.process)

variable (backend : RevocationCache)

def TokenStores.Cached (s : TokenStores U) (agentId : U) (agent : CachedAgent U) : Prop :=
  if backend.distributed then ∃ at_, s.redis agentId = some (.entry agent, at_)
  else ∃ at_, s.locals backend.process agentId = some (agent, at_)

def TokenCall.Stores (agentId : U) (entry : CachedAgent U) : TokenCall U → Prop
  | .redisSet id stored => backend.distributed ∧ id = agentId ∧ stored = entry
  | .localInsert process id stored => ¬ backend.distributed ∧ process = backend.process ∧ id = agentId ∧
      stored = entry
  | _ => False

def TokenCall.Clears (agentId : U) : TokenCall U → Prop
  | .redisDel id => backend.distributed ∧ id = agentId
  | .localRemove process id => ¬ backend.distributed ∧ process = backend.process ∧ id = agentId
  | _ => False

abbrev TokenNote (U : Type) := Note (TokenCall.Answer (U := U))

def UpdatedRow (agentId : U) (notes : List (TokenNote U)) : Prop :=
  ∃ note ∈ notes, ∃ n, 0 < n ∧ note = ⟨.revokeAgent agentId, .ok n⟩

def Invalidated (agentId : U) (notes : List (TokenNote U)) : Prop :=
  ∃ later note earlier, notes = later ++ note :: earlier ∧ note.1.Clears backend agentId ∧ UpdatedRow agentId earlier

def TokenStores.Inactive (s : TokenStores U) (agentId : U) : Prop :=
  ∀ row, s.agents agentId = some row → row.status ≠ "active"

def TokenStores.Withdrawn (agentId : U) (s : TokenStores U) : Prop :=
  s.Inactive agentId ∧ ∀ agent, s.Cached backend agentId agent → agent.status ≠ .active

end

/-- A call of one of the two endpoints, by a process with its view of the cache. -/
inductive TokenRequest (U : Type) where
  | validate (identity : PluginIdentity)
  | revoke (caller : Except Response Unit) (agentId : U)

section
variable {U ι : Type} [DecidableEq U]

def TokenRequest.program (parse : String → Option U) (cache : RevocationCache) :
    TokenRequest U → TokenM U (TokenOutcome U)
  | .validate identity => validateServiceToken cache parse identity
  | .revoke caller agentId => revokeHandler cache caller agentId

abbrev TokenPool (ι U : Type) := Pool ι (TokenCall U) TokenCall.Answer Response (TokenOutcome U) (TokenStores U)

def tokenPool (parse : String → Option U) (stores : TokenStores U) (caches : ι → RevocationCache)
    (requests : ι → TokenRequest U) : TokenPool ι U where
  state := stores
  thread i := { program := (requests i).program parse (caches i) }

def NotOvertaken (backend : RevocationCache) (pool : TokenPool ι U) (i : ι) : Prop :=
  ∀ c next, (pool.thread i).program = .call c next → ∀ agentId entry, c.Stores backend agentId entry →
    entry.status = .active → ∀ j, ¬ Invalidated backend agentId (pool.thread j).notes

end

section
variable {U : Type} [DecidableEq U] {backend : RevocationCache} {s : TokenStores U} {agentId : U}

theorem revokeRow_cases (s : TokenStores U) (id : U) : s.revokeRow id = (0, s) ∨ ∃ row : AgentRow U, s.revokeRow id =
      (1, { s with agents := update s.agents id (some { row with status := "revoked" }) }) := by
  unfold revokeRow
  cases s.agents id with
  | none => exact .inl rfl
  | some row =>
    dsimp only
    split
    · exact .inr ⟨row, rfl⟩
    · exact .inl rfl

theorem exec_inactive (c : TokenCall U) (inactive : s.Inactive agentId) : (exec c s).2.Inactive agentId := by
  cases c with
  | revokeAgent id =>
    rcases revokeRow_cases s id with same | ⟨row, changed⟩
    · simp only [exec, same]
      exact inactive
    · simp only [exec, changed]
      intro other there
      by_cases same : agentId = id
      · subst same
        simp only [update_self, Option.some.injEq] at there
        subst there
        show "revoked" ≠ "active"
        decide
      · simp only [update_of_ne same] at there
        exact inactive other there
  | _ => exact inactive

theorem revokeRow_inactive (changed : 0 < (s.revokeRow agentId).1) : (s.revokeRow agentId).2.Inactive agentId := by
  rcases revokeRow_cases s agentId with same | ⟨row, updated⟩
  · rw [same] at changed
    exact absurd changed (Nat.lt_irrefl 0)
  · rw [updated]
    intro other there
    simp only [update_self, Option.some.injEq] at there
    subst there
    show "revoked" ≠ "active"
    decide

theorem update_some {κ β : Type} [DecidableEq κ] {g : κ → Option β} {k other : κ} {v : Option β} {b : β}
    (held : update g k v other = some b) : g other = some b ∨ other = k ∧ v = some b := by
  by_cases same : other = k
  · subst same
    rw [update_self] at held
    exact .inr ⟨rfl, held⟩
  · rw [update_of_ne same] at held
    exact .inl held

theorem update_update_some {ι κ β : Type} [DecidableEq ι] [DecidableEq κ] {g : ι → κ → Option β} {i j : ι}
    {k other : κ} {v : Option β} {b : β} (held : update g i (update (g i) k v) j other = some b) :
    g j other = some b ∨ j = i ∧ other = k ∧ v = some b := by
  by_cases same : j = i
  · subst same
    rw [update_self] at held
    exact (update_some held).imp_right (fun put => ⟨rfl, put⟩)
  · rw [update_of_ne same] at held
    exact .inl held

theorem exec_cached {c : TokenCall U} {agent : CachedAgent U} (cached : (exec c s).2.Cached backend agentId agent) :
    s.Cached backend agentId agent ∨ c.Stores backend agentId agent := by
  unfold Cached at cached ⊢
  by_cases shared : backend.distributed
  · rw [if_pos shared] at cached ⊢
    obtain ⟨at_, held⟩ := cached
    cases c with
    | redisSet id entry =>
      rcases update_some held with before | ⟨rfl, stored⟩
      · exact .inl ⟨at_, before⟩
      · cases stored
        exact .inr ⟨shared, rfl, rfl⟩
    | redisDel id =>
      rcases update_some held with before | ⟨_, stored⟩
      · exact .inl ⟨at_, before⟩
      · cases stored
    | revokeAgent id =>
      rcases revokeRow_cases s id with same | ⟨row, changed⟩
      · simp only [exec, same] at held
        exact .inl ⟨at_, held⟩
      · simp only [exec, changed] at held
        exact .inl ⟨at_, held⟩
    | _ => exact .inl ⟨at_, held⟩
  · rw [if_neg shared] at cached ⊢
    obtain ⟨at_, held⟩ := cached
    cases c with
    | localInsert process id entry =>
      rcases update_update_some held with before | ⟨mine, rfl, stored⟩
      · exact .inl ⟨at_, before⟩
      · cases stored
        exact .inr ⟨shared, mine.symm, rfl, rfl⟩
    | localRemove process id =>
      rcases update_update_some held with before | ⟨_, _, stored⟩
      · exact .inl ⟨at_, before⟩
      · cases stored
    | revokeAgent id =>
      rcases revokeRow_cases s id with same | ⟨row, changed⟩
      · simp only [exec, same] at held
        exact .inl ⟨at_, held⟩
      · simp only [exec, changed] at held
        exact .inl ⟨at_, held⟩
    | _ => exact .inl ⟨at_, held⟩

theorem exec_clears {c : TokenCall U} (clears : c.Clears backend agentId) (agent : CachedAgent U) :
    ¬ (exec c s).2.Cached backend agentId agent := by
  unfold Cached
  cases c with
  | redisDel id =>
    obtain ⟨shared, rfl⟩ := clears
    simp [exec, shared]
  | localRemove process id =>
    obtain ⟨own, rfl, rfl⟩ := clears
    simp [exec, own]
  | _ => exact clears.elim

end

section
variable {U ι : Type} {backend : RevocationCache} {agentId : U}

theorem UpdatedRow.cons_cases {note : TokenNote U} {notes : List (TokenNote U)}
    (updated : UpdatedRow agentId (note :: notes)) :
    (∃ n, 0 < n ∧ note = ⟨.revokeAgent agentId, .ok n⟩) ∨ UpdatedRow agentId notes := by
  obtain ⟨found, member, n, positive, same⟩ := updated
  rcases mem_cons.mp member with rfl | earlier
  · exact .inl ⟨n, positive, same⟩
  · exact .inr ⟨found, earlier, n, positive, same⟩

theorem Invalidated.cons_cases {note : TokenNote U} {notes : List (TokenNote U)}
    (invalidated : Invalidated backend agentId (note :: notes)) :
    (note.1.Clears backend agentId ∧ UpdatedRow agentId notes) ∨ Invalidated backend agentId notes := by
  obtain ⟨later, cleared, earlier, shape, clears, updated⟩ := invalidated
  cases later with
  | nil =>
    simp only [nil_append, List.cons.injEq] at shape
    obtain ⟨rfl, rfl⟩ := shape
    exact .inl ⟨clears, updated⟩
  | cons first rest =>
    simp only [cons_append, List.cons.injEq] at shape
    exact .inr ⟨rest, cleared, earlier, shape.2, clears, updated⟩

theorem Invalidated.updatedRow {notes : List (TokenNote U)} (invalidated : Invalidated backend agentId notes) :
    UpdatedRow agentId notes := by
  obtain ⟨later, cleared, earlier, rfl, _, found, member, updated⟩ := invalidated
  exact ⟨found, mem_append_right _ (mem_cons_of_mem _ member), updated⟩

theorem Invalidated.mono {notes longer : List (TokenNote U)} (invalidated : Invalidated backend agentId notes)
    (suffix : notes <:+ longer) : Invalidated backend agentId longer := by
  obtain ⟨more, rfl⟩ := suffix
  obtain ⟨later, cleared, earlier, rfl, rest⟩ := invalidated
  exact ⟨more ++ later, cleared, earlier, (append_assoc _ _ _).symm, rest⟩

structure Recorded (backend : RevocationCache) (pool : TokenPool ι U) : Prop where
  rows : ∀ j agentId, UpdatedRow agentId (pool.thread j).notes → pool.state.Inactive agentId
  caches : ∀ j agentId, Invalidated backend agentId (pool.thread j).notes →
    ∀ agent, pool.state.Cached backend agentId agent → agent.status ≠ .active

variable {pool : TokenPool ι U}

theorem Recorded.withdrawn (recorded : Recorded backend pool) {j : ι}
    (invalidated : Invalidated backend agentId (pool.thread j).notes) : pool.state.Withdrawn backend agentId :=
  ⟨recorded.rows j agentId invalidated.updatedRow, recorded.caches j agentId invalidated⟩

variable [DecidableEq U] [DecidableEq ι]

theorem Recorded.call (recorded : Recorded backend pool) {i : ι} {c : TokenCall U}
    {next : c.Answer → TokenM U (TokenOutcome U)} (allowed : NotOvertaken backend pool i)
    (shape : (pool.thread i).program = .call c next) :
    Recorded backend ⟨(exec c pool.state).2, update pool.thread i
      ⟨next (exec c pool.state).1, ⟨c, (exec c pool.state).1⟩ :: (pool.thread i).notes⟩⟩ := by
  have rows : ∀ j agentId, UpdatedRow agentId (pool.thread j).notes →
      (exec c pool.state).2.Inactive agentId :=
    fun j agentId updated => exec_inactive c (recorded.rows j agentId updated)
  have caches : ∀ j agentId, Invalidated backend agentId (pool.thread j).notes →
      ∀ agent, (exec c pool.state).2.Cached backend agentId agent → agent.status ≠ .active := by
    intro j agentId invalidated agent cached active
    rcases exec_cached cached with before | stored
    · exact recorded.caches j agentId invalidated agent before active
    · exact allowed c next shape agentId agent stored active j invalidated
  refine ⟨?_, ?_⟩
  · intro j agentId updated
    by_cases same : j = i
    · subst same
      simp only [update_self] at updated
      rcases updated.cons_cases with ⟨n, positive, noted⟩ | before
      · obtain ⟨rfl, answered⟩ := Sigma.mk.inj noted
        have count : (pool.state.revokeRow agentId).1 = n := by
          have same : (Except.ok (pool.state.revokeRow agentId).1 : Except String Nat) = .ok n := eq_of_heq answered
          exact Except.ok.inj same
        rw [← count] at positive
        exact revokeRow_inactive positive
      · exact rows j agentId before
    · simp only [update_of_ne same] at updated
      exact rows j agentId updated
  · intro j agentId invalidated agent cached
    by_cases same : j = i
    · subst same
      simp only [update_self] at invalidated
      rcases invalidated.cons_cases with ⟨clears, _⟩ | before
      · exact (exec_clears clears agent cached).elim
      · exact caches j agentId before agent cached
    · simp only [update_of_ne same] at invalidated
      exact caches j agentId invalidated agent cached

abbrev TokenCourse (backend : RevocationCache) (start pool : TokenPool ι U) : Prop :=
  Course exec (NotOvertaken backend) Later start pool

theorem TokenCourse.recorded {start : TokenPool ι U} (course : TokenCourse backend start pool)
    (none : ∀ i, (start.thread i).notes = []) : Recorded backend pool := by
  refine Course.keeps (I := Recorded backend) course ?_ ?_ ?_
  · refine ⟨?_, ?_⟩
    · rintro j agentId ⟨note, member, _⟩
      rw [none j] at member
      cases member
    · intro j agentId invalidated
      obtain ⟨note, member, _⟩ := invalidated.updatedRow
      rw [none j] at member
      cases member
  · intro pool i c next recorded allowed shape
    exact recorded.call allowed shape
  · rintro pool _ recorded ⟨later, _, rfl⟩
    exact ⟨recorded.rows, recorded.caches⟩

end

section
variable {U : Type} [DecidableEq U] {backend cache : RevocationCache} {agentId withdrawn : U}
  {notes : List (TokenNote U)}
  {s : TokenStores U}

def NeverActive (withdrawn agentId : U) (agent : CachedAgent U) : Prop := agentId = withdrawn → agent.status ≠ .active

abbrev whileWithdrawn (backend : RevocationCache) (withdrawn : U) : Contract (TokenCall.Answer (U := U))
    (TokenStores U) :=
  watching exec (Withdrawn backend withdrawn)

theorem cache_get_meets (same : backend.SameBackend cache) :
    (cache.get agentId).Meets (whileWithdrawn backend withdrawn)
      (fun outcome _ _ => ∀ agent, outcome = .ok (some agent) → NeverActive withdrawn agentId agent) notes s := by
  have kind := same.1
  unfold RevocationCache.get
  by_cases shared : cache.distributed
  · rw [if_pos shared]
    refine redisGet_meets (fun t holds => ?_)
    cases found : t.redisValue agentId with
    | none => exact fun _ impossible => by cases impossible
    | some payload =>
      cases payload with
      | entry agent =>
        rintro other returned rfl
        cases returned
        refine holds.2 agent ?_
        rw [Cached, ← kind, if_pos shared]
        obtain ⟨⟨stored, at_⟩, present, fresh⟩ := Option.bind_eq_some_iff.mp found
        dsimp only at fresh
        split at fresh
        · cases fresh
          exact ⟨at_, present⟩
        · cases fresh
      | corrupt => exact redisDel_meets (fun _ _ impossible => by cases impossible)
  · rw [if_neg shared]
    have mine : cache.process = backend.process := by
      rcases same.2 with other | mine
      · rw [← kind] at other
        exact (shared other).elim
      · exact mine
    refine localGet_meets (fun t answer holds stored => ?_)
    cases answer with
    | none => exact fun _ impossible => by cases impossible
    | some found =>
      rintro agent returned rfl
      obtain ⟨entry, elapsed⟩ := found
      have value : (if elapsed > revocationCacheTtl then none else some entry) = some agent := Except.ok.inj returned
      split at value
      · cases value
      · cases value
        refine holds.2 _ ?_
        rw [Cached, ← kind, if_neg shared, ← mine]
        exact stored _ elapsed rfl

theorem warm_meets (entry : CachedAgent U) :
    (cache.warm agentId entry).Meets (whileWithdrawn backend withdrawn) (fun _ _ _ => True) notes s := by
  unfold RevocationCache.warm
  by_cases shared : cache.distributed
  · rw [if_pos shared]
    exact fun _ _ _ _ => ⟨trivial, trivial, trivial⟩
  · rw [if_neg shared]
    exact fun _ _ _ _ => ⟨trivial, trivial, trivial⟩

omit [DecidableEq U] in
theorem toCached_status {row : AgentRow U} {agent : CachedAgent U} (read : row.toCached = .ok agent) :
    agent.status = .fromDb row.status := by
  unfold AgentRow.toCached at read
  split at read
  · cases read
  · cases read
  · cases read
    rfl

theorem readAgentFromDb_meets : (readAgentFromDb agentId).Meets (whileWithdrawn backend withdrawn)
      (fun outcome _ _ => ∀ agent, outcome = .ok agent → NeverActive withdrawn agentId agent) notes s := by
  unfold readAgentFromDb
  refine readAgent_meets (fun t row holds stored => ?_)
  cases row with
  | none => exact fun _ impossible => by cases impossible
  | some row =>
    cases read : row.toCached with
    | error response =>
      simp only [read]
      exact fun _ impossible => by cases impossible
    | ok agent =>
      simp only [read]
      rintro other returned rfl
      cases returned
      have inactive := holds.1 row (stored row rfl)
      rw [toCached_status read, AgentStatus.fromDb, if_neg inactive]
      split <;> decide

theorem snapshotAgent_meets (same : backend.SameBackend cache) :
    (snapshotAgent cache agentId).Meets (whileWithdrawn backend withdrawn)
      (fun outcome _ _ => ∀ agent, outcome = .ok agent → NeverActive withdrawn agentId agent) notes s := by
  unfold snapshotAgent
  refine (cache_get_meets same).seq (fun _ _ _ _ _ impossible => by cases impossible) ?_
  intro cached notes s inactive
  cases cached with
  | some agent =>
    intro other returned
    cases returned
    exact inactive agent rfl
  | none =>
    refine readAgentFromDb_meets.seq (fun _ _ _ _ _ impossible => by cases impossible) ?_
    intro fresh notes s inactive
    refine (warm_meets fresh).seq (fun _ _ _ _ _ impossible => by cases impossible) ?_
    rintro _ notes s _ agent returned
    cases returned
    exact inactive fresh rfl

def NoPrincipal (withdrawn : U) (outcome : Except Response (TokenOutcome U)) : Prop :=
  ∀ principal, outcome = .ok (.validated (some principal)) → principal.agentId ≠ withdrawn

theorem decideAgent_meets {tenantClaim : U} {snapshot : CachedAgent U}
    (inactive : NeverActive withdrawn agentId snapshot) :
    (decideAgent agentId tenantClaim snapshot).Meets (whileWithdrawn backend withdrawn)
      (fun outcome _ _ => NoPrincipal withdrawn outcome) notes s := by
  unfold decideAgent
  cases status : snapshot.status with
  | revoked => exact fun _ impossible => by cases impossible
  | unknown => exact fun _ impossible => by cases impossible
  | active =>
    refine tokenClock_meets (fun t _ => ?_)
    split_ifs
    · exact fun _ impossible => by cases impossible
    · exact fun _ impossible => by cases impossible
    · rintro principal returned rfl
      cases returned
      exact inactive rfl status

theorem validateServiceToken_meets (same : backend.SameBackend cache) (parse : String → Option U)
    (identity : PluginIdentity) :
    (validateServiceToken cache parse identity).Meets (whileWithdrawn backend withdrawn)
      (fun outcome _ _ => NoPrincipal withdrawn outcome) notes s := by
  unfold validateServiceToken
  split_ifs
  · exact fun _ impossible => by cases impossible
  · split
    · exact fun _ impossible => by cases impossible
    · exact fun _ impossible => by cases impossible
    · refine (snapshotAgent_meets same).seq (fun _ _ _ _ _ impossible => by cases impossible) ?_
      intro snapshot notes s inactive
      exact decideAgent_meets (inactive snapshot rfl)

theorem revokeHandler_meets {I : TokenStores U → Prop} (same : backend.SameBackend cache)
    (caller : Except Response Unit) :
    (revokeHandler cache caller agentId).Meets (watching exec I)
      (fun outcome notes _ => ∀ revoked, outcome = .ok (.revoked revoked) →
        Invalidated backend revoked notes) notes s := by
  unfold revokeHandler
  cases caller with
  | error response => exact fun _ impossible => by cases impossible
  | ok admitted =>
    refine revokeAgent_meets (fun t n => ?_)
    cases n with
    | zero => exact fun _ impossible => by cases impossible
    | succ n =>
      have updated : UpdatedRow agentId (⟨.revokeAgent agentId, .ok (n + 1)⟩ :: notes) :=
        ⟨_, mem_cons_self, n + 1, Nat.succ_pos n, rfl⟩
      show Program.Meets _ _ (cache.invalidate agentId >>= fun _ => pure (TokenOutcome.revoked agentId)) _ t
      unfold RevocationCache.invalidate
      by_cases shared : cache.distributed
      · rw [if_pos shared]
        refine redisDel_meets (fun t => localRemove_meets (fun t => ?_))
        intro revoked returned
        cases returned
        exact ⟨[_], _, _, rfl, ⟨same.1 ▸ shared, rfl⟩, updated⟩
      · rw [if_neg shared]
        refine localRemove_meets (fun t => ?_)
        intro revoked returned
        cases returned
        have own : ¬ backend.distributed := same.1 ▸ shared
        exact ⟨[], _, _, rfl, ⟨own, same.2.resolve_left own, rfl⟩, updated⟩

end

section
variable {U ι : Type} [DecidableEq U] [DecidableEq ι]

/-- In the interleavings of `allowed` steps, a validation that starts after a revocation of the agent has
returned does not return a principal of the agent. -/
def StaysRevoked (allowed : TokenPool ι U → ι → Prop) (parse : String → Option U) (stores : TokenStores U)
    (caches : ι → RevocationCache) (requests : ι → TokenRequest U) : Prop :=
  ∀ pool last i j identity caller agentId principal,
    Course exec allowed Later (tokenPool parse stores caches requests) pool →
    Course exec allowed Later pool last →
    requests j = .revoke caller agentId → (pool.thread j).program = .done (.revoked agentId) →
    requests i = .validate identity → (pool.thread i).notes = [] →
    (last.thread i).program = .done (.validated (some principal)) → principal.agentId ≠ agentId

/-- Unless a validation caches what it read before a revocation has cleared the cache, revoked tokens stay
revoked. -/
theorem revoked_stays_revoked (parse : String → Option U) (stores : TokenStores U) (backend : RevocationCache)
    (caches : ι → RevocationCache) (requests : ι → TokenRequest U) (shared : ∀ i, backend.SameBackend (caches i)) :
    StaysRevoked (NotOvertaken backend) parse stores caches requests := by
  intro pool last i j identity caller agentId principal before after revocation returned validation unstarted accepted
  have clears : ((tokenPool parse stores caches requests).thread j).program.Meets
      (watching exec (fun _ => True))
      (fun outcome notes _ => ∀ revoked, outcome = .ok (.revoked revoked) → Invalidated backend revoked notes)
        [] stores := by
    simp only [tokenPool, TokenRequest.program, revocation]
    exact revokeHandler_meets (shared j) caller
  have shown : Invalidated backend agentId (pool.thread j).notes :=
    before.returned (fun _ _ => trivial) clears returned agentId rfl
  have withdrawn : ∀ reached, TokenCourse backend pool reached → reached.state.Withdrawn backend agentId := by
    intro reached course
    have recorded : Recorded backend reached := TokenCourse.recorded (before.trans course) (fun _ => rfl)
    exact recorded.withdrawn (shown.mono (course.notes j))
  have refuses : (pool.thread i).program.Meets (whileWithdrawn backend agentId)
      (fun outcome _ _ => NoPrincipal agentId outcome) (pool.thread i).notes stores := by
    rw [before.unstarted unstarted]
    simp only [tokenPool, TokenRequest.program, validation]
    exact validateServiceToken_meets (shared i) parse identity
  have refused : NoPrincipal agentId (.ok (.validated (some principal))) :=
    after.returned withdrawn refuses accepted
  exact refused principal rfl

end

def ciAgent : String := "7d8f0c52-8a3e-4a67-9c1b-52f0a1b0c9d1"

def ciTenant : String := "f3f64d2e-5a0f-4b0c-8f35-0d7a9d2c4e11"

def ciStores : TokenStores String where
  agents := update (fun _ => none) ciAgent
    (some ⟨"service", "active", some ciTenant, .arr [.str "memory:read"], some 3600000⟩)

def ciIdentity : PluginIdentity := ⟨ciAgent, ciTenant, "service"⟩

/-- Validations by two processes and a revocation by a third, over one Redis. -/
def ciRequests : Fin 3 → TokenRequest String
  | 0 => .validate ciIdentity
  | 1 => .revoke (.ok ()) ciAgent
  | 2 => .validate ciIdentity

def ciCaches (i : Fin 3) : RevocationCache := ⟨true, i⟩

def ciPool : TokenPool (Fin 3) String := tokenPool some ciStores ciCaches ciRequests

def ciRevoked : TokenPool (Fin 3) String := [0, 0, 1, 1, 1].foldl (step exec) ciPool

def ciOvertaken : TokenPool (Fin 3) String := [0, 2, 2].foldl (step exec) ciRevoked

theorem overtaken_revocation : (∀ i, RevocationCache.SameBackend ⟨true, 0⟩ (ciCaches i)) ∧
      ¬ StaysRevoked (fun _ _ => True) some ciStores ciCaches ciRequests := by
  refine ⟨fun i => ⟨rfl, .inl rfl⟩, ?_⟩
  intro stays
  have everyStep : ∀ (pool : TokenPool (Fin 3) String) (i : Fin 3), True := fun _ _ => trivial
  have before : Course exec (fun _ _ => True) Later ciPool ciRevoked :=
    Course.start.schedule everyStep [0, 0, 1, 1, 1]
  have after : Course exec (fun _ _ => True) Later ciRevoked ciOvertaken :=
    Course.start.schedule everyStep [0, 2, 2]
  exact stays ciRevoked ciOvertaken 2 1 ciIdentity (.ok ()) ciAgent ⟨ciAgent, ciTenant, ["memory:read"]⟩ before after
    rfl rfl rfl rfl rfl rfl

theorem NotOvertaken.of_call {U ι : Type} {backend : RevocationCache} {pool : TokenPool ι U} {i : ι} {c : TokenCall U}
    {next : c.Answer → TokenM U (TokenOutcome U)} (shape : (pool.thread i).program = .call c next)
    (quiet : ∀ agentId entry, c.Stores backend agentId entry → entry.status ≠ .active) :
      NotOvertaken backend pool i := by
  intro made rest same agentId entry stores active
  rw [shape] at same
  cases same
  exact (quiet agentId entry stores active).elim

def ciRefused : TokenPool (Fin 3) String := [1, 1, 1, 2, 2, 2].foldl (step exec) ciPool

theorem ciRefused_course : TokenCourse ⟨true, 0⟩ ciPool ciRefused := by
  have nothing : ∀ c : TokenCall String, (∀ agentId entry, ¬ c.Stores ⟨true, 0⟩ agentId entry) →
      ∀ agentId entry, c.Stores ⟨true, 0⟩ agentId entry → entry.status ≠ .active :=
    fun c none agentId entry stores => (none agentId entry stores).elim
  simp only [ciRefused, foldl_cons, foldl_nil]
  refine .step 2 (.step 2 (.step 2 (.step 1 (.step 1 (.step 1 .start ?_) ?_) ?_) ?_) ?_) ?_
  · exact .of_call rfl (nothing _ (fun _ _ => id))
  · exact .of_call rfl (nothing _ (fun _ _ => id))
  · exact .of_call rfl (nothing _ (fun _ _ => id))
  · exact .of_call rfl (nothing _ (fun _ _ => id))
  · exact .of_call rfl (nothing _ (fun _ _ => id))
  · refine .of_call rfl ?_
    rintro agentId entry ⟨_, _, rfl⟩
    decide

theorem ci_stays_revoked :
    TokenCourse ⟨true, 0⟩ ciPool ciRefused ∧ (ciRefused.thread 1).program = .done (.revoked ciAgent) ∧
      (ciRefused.thread 2).program = .fail ⟨401, "token_revoked", "service token has been revoked", []⟩ ∧
      StaysRevoked (NotOvertaken ⟨true, 0⟩) some ciStores ciCaches ciRequests :=
  ⟨ciRefused_course, rfl, rfl, revoked_stays_revoked some ciStores ⟨true, 0⟩ ciCaches ciRequests
    (fun _ => ⟨rfl, .inl rfl⟩)⟩

end Aeterna
