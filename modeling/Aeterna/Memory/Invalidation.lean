import Aeterna.Memory.Providers

namespace Aeterna.Memory
open Lib (Program Pool Contract Note)
open Function Lib.Program ProviderCall

structure Current (w : ProviderWorld) : Prop where
  returned : ∀ kind tenantId, w.returned tenantId ≤ w.clearedFor kind tenantId
  cached : ∀ kind tenantId entry, w.cache kind tenantId = some entry →
    w.clearedFor kind tenantId ≤ entry.service.readAfter
  changed : ∀ kind tenantId, w.clearedFor kind tenantId ≤ w.changes tenantId

structure Later (w next : ProviderWorld) : Prop where
  changes : ∀ tenantId, w.changes tenantId ≤ next.changes tenantId
  clearedFor : ∀ kind tenantId, w.clearedFor kind tenantId ≤ next.clearedFor kind tenantId
  returned : ∀ tenantId, w.returned tenantId ≤ next.returned tenantId

def Timely (_ : List (Note Answer)) : ProviderCall → ProviderWorld → Prop
  | .cacheInsert kind tenantId service, w => w.clearedFor kind tenantId ≤ service.readAfter
  | _, _ => True

def Elsewise (w next : ProviderWorld) : Prop :=
  next = { w with now := next.now, configError := next.configError, secretError := next.secretError }

def providerContract (registry : TenantProviderRegistry) : Contract Answer ProviderWorld where
  exec := providerExec registry
  inv := Current
  rely := Later
  guar := Later
  ok := Timely

variable {registry : TenantProviderRegistry} {kind : ServiceKind} {tenantId : String} {w next : ProviderWorld}
  {notes : List (Note Answer)}

theorem Later.refl (w : ProviderWorld) : Later w w :=
  ⟨fun _ => Nat.le_refl _, fun _ _ => Nat.le_refl _, fun _ => Nat.le_refl _⟩

theorem Later.trans {a b c : ProviderWorld} (first : Later a b) (second : Later b c) : Later a c where
  changes tenantId := Nat.le_trans (first.changes tenantId) (second.changes tenantId)
  clearedFor kind tenantId := Nat.le_trans (first.clearedFor kind tenantId) (second.clearedFor kind tenantId)
  returned tenantId := Nat.le_trans (first.returned tenantId) (second.returned tenantId)

theorem Elsewise.later (current : Current w) (moved : Elsewise w next) : Current next ∧ Later w next := by
  rw [moved]
  exact ⟨⟨current.returned, current.cached, current.changed⟩,
    fun _ => Nat.le_refl _, fun _ _ => Nat.le_refl _, fun _ => Nat.le_refl _⟩

theorem update_twice {κ μ V : Type} [DecidableEq κ] [DecidableEq μ] (f : κ → μ → V) (k other : κ)
    (m another : μ) (v : V) :
    update f k (update (f k) m v) other another = if other = k ∧ another = m then v
      else f other another := by
  by_cases there : other = k
  · subst there
    rw [update_self]
    by_cases same : another = m
    · subst same
      rw [update_self, if_pos ⟨rfl, rfl⟩]
    · rw [update_of_ne same, if_neg (fun both => same both.2)]
  · rw [update_of_ne there, if_neg (fun both => there both.1)]

theorem cache_setCache (entry : Option CachedEntry) (place : ServiceKind) (other : String) :
    (w.setCache kind tenantId entry).cache place other =
      if place = kind ∧ other = tenantId then entry else w.cache place other := update_twice _ _ _ _ _ _

theorem clearedFor_markCleared (change : Nat) (place : ServiceKind) (other : String) :
    (w.markCleared kind tenantId change).clearedFor place other =
      if place = kind ∧ other = tenantId then max (w.clearedFor kind tenantId) change else w.clearedFor place other :=
  update_twice _ _ _ _ _ _

theorem Current.setCache (current : Current w) {entry : Option CachedEntry}
    (fresh : ∀ e, entry = some e → w.clearedFor kind tenantId ≤ e.service.readAfter) :
    Current (w.setCache kind tenantId entry) ∧ Later w (w.setCache kind tenantId entry) := by
  refine ⟨⟨current.returned, fun place other e found => ?_, current.changed⟩,
    fun _ => Nat.le_refl _, fun _ _ => Nat.le_refl _, fun _ => Nat.le_refl _⟩
  rw [cache_setCache] at found
  split at found
  · rename_i same
    obtain ⟨rfl, rfl⟩ := same
    exact fresh e found
  · exact current.cached place other e found

theorem change_later (registry : TenantProviderRegistry) (tenantId : String)
    (config : Option Tenancy.TenantConfigDocument) (secrets : String → Option SecretBytes) (current : Current w) :
    Current (providerExec registry (.change tenantId config secrets) w).2 ∧
      Later w (providerExec registry (.change tenantId config secrets) w).2 := by
  have grows : ∀ other, w.changes other ≤ update w.changes tenantId (w.changes tenantId + 1) other := by
    intro other
    by_cases same : other = tenantId
    · subst same
      rw [update_self]
      exact Nat.le_succ _
    · rw [update_of_ne same]
  exact ⟨⟨current.returned, current.cached, fun place other => Nat.le_trans (current.changed place other)
    (grows other)⟩,
    grows, fun _ _ => Nat.le_refl _, fun _ => Nat.le_refl _⟩

variable {change : Nat}

theorem clear_later (registry : TenantProviderRegistry) (kind : ServiceKind) (current : Current w)
    (made : change ≤ w.changes tenantId) :
    Current (providerExec registry (.clear kind tenantId change) w).2 ∧
      Later w (providerExec registry (.clear kind tenantId change) w).2 := by
  have grows : ∀ place other, w.clearedFor place other ≤
      ((w.setCache kind tenantId none).markCleared kind tenantId change).clearedFor place other := by
    intro place other
    rw [clearedFor_markCleared]
    split
    · rename_i same
      obtain ⟨rfl, rfl⟩ := same
      exact Nat.le_max_left _ _
    · exact Nat.le_refl _
  refine ⟨⟨?_, ?_, ?_⟩, fun _ => Nat.le_refl _, grows, fun _ => Nat.le_refl _⟩
  · exact fun place other => Nat.le_trans (current.returned place other) (grows place other)
  · intro place other entry found
    have found : (w.setCache kind tenantId none).cache place other = some entry := found
    show ((w.setCache kind tenantId none).markCleared kind tenantId change).clearedFor place other ≤ _
    rw [cache_setCache] at found
    split at found
    · cases found
    · rename_i apart
      rw [clearedFor_markCleared, if_neg apart]
      exact current.cached place other entry found
  · intro place other
    show ((w.setCache kind tenantId none).markCleared kind tenantId change).clearedFor place other ≤ _
    rw [clearedFor_markCleared]
    split
    · rename_i same
      obtain ⟨rfl, rfl⟩ := same
      exact Nat.max_le.mpr ⟨current.changed place other, made⟩
    · exact current.changed place other

theorem clear_recorded (registry : TenantProviderRegistry) (kind : ServiceKind) (tenantId : String)
    (change : Nat) (w : ProviderWorld) :
    change ≤ (providerExec registry (.clear kind tenantId change) w).2.clearedFor kind tenantId := by
  show change ≤ ((w.setCache kind tenantId none).markCleared kind tenantId change).clearedFor kind tenantId
  rw [clearedFor_markCleared, if_pos ⟨rfl, rfl⟩]
  exact Nat.le_max_right _ _

theorem cleared_later (registry : TenantProviderRegistry) (current : Current w)
    (both : ∀ kind, change ≤ w.clearedFor kind tenantId) :
    Current (providerExec registry (.cleared tenantId change) w).2 ∧
      Later w (providerExec registry (.cleared tenantId change) w).2 := by
  have returned : ∀ other, (providerExec registry (.cleared tenantId change) w).2.returned other =
      if other = tenantId then max (w.returned tenantId) change else w.returned other := by
    intro other
    show update _ _ _ other = _
    by_cases same : other = tenantId
    · subst same
      rw [update_self, if_pos rfl]
    · rw [update_of_ne same, if_neg same]
  refine ⟨⟨fun place other => ?_, current.cached, current.changed⟩, fun _ => Nat.le_refl _, fun _ _ => Nat.le_refl _,
    fun other => ?_⟩
  · rw [returned]
    split
    · rename_i same
      subst same
      exact Nat.max_le.mpr ⟨current.returned place other, both place⟩
    · exact current.returned place other
  · rw [returned]
    split
    · rename_i same
      subst same
      exact Nat.le_max_left _ _
    · exact Nat.le_refl _

def ReadAfter (change : Nat) (outcome : Except ResolverError (Option Provided)) : Prop :=
  ∀ service, outcome = .ok (some (.tenant service)) → change ≤ service.readAfter

theorem checkCache_meets (returned : change ≤ w.returned tenantId) :
    (checkCache kind tenantId).Meets (providerContract registry)
      (fun outcome _ last => Later w last ∧ ∀ service, outcome = .ok (some service) →
        change ≤ service.readAfter) notes w := by
  intro t later current _
  refine ⟨current, Later.refl t, ?_⟩
  cases found : t.cache kind tenantId with
  | none =>
    have answer : ((providerContract registry).exec (.cacheGet kind tenantId) t).1 = none :=
      congrArg (Option.map _) found
    rw [answer]
    exact ⟨later, fun _ absent => by cases absent⟩
  | some entry =>
    have newer : change ≤ entry.service.readAfter :=
      calc change ≤ w.returned tenantId := returned
        _ ≤ t.returned tenantId := later.returned tenantId
        _ ≤ t.clearedFor kind tenantId := current.returned kind tenantId
        _ ≤ entry.service.readAfter := current.cached kind tenantId entry found
    let expired : Bool := registry.cacheTtl < t.now - entry.createdAt
    have answer : ((providerContract registry).exec (.cacheGet kind tenantId) t).1 = some (entry.service, expired) :=
      congrArg (Option.map _) found
    rw [answer]
    cases expired with
    | false =>
      refine ⟨later, fun service same => ?_⟩
      cases same
      exact newer
    | true =>
      intro u later' current' _
      obtain ⟨kept, near⟩ : Current (u.setCache kind tenantId none) ∧ Later u (u.setCache kind tenantId none) :=
        current'.setCache (fun _ absent => by cases absent)
      exact ⟨kept, near, (later.trans later').trans near, fun _ absent => by cases absent⟩

def OnlyReads : ProviderCall → Prop
  | .getSecretBytes _ _ => True
  | _ => False

theorem providerConfig_reads (provider : String) (config : Tenancy.TenantConfigDocument) :
    (providerConfig registry kind tenantId provider config).Uses OnlyReads := by
  unfold providerConfig
  dsimp only
  split
  · refine ⟨trivial, fun answer => ?_⟩
    rcases answer with _ | _ | _ | _ <;> trivial
  · split
    · split
      · trivial
      · trivial
      · split <;> trivial
    · split
      · split
        · trivial
        · split <;> trivial
      · trivial

theorem build_meets (provider : String) (config : Tenancy.TenantConfigDocument) (readAfter : Nat) :
    (buildFromTenantConfig registry kind tenantId provider config readAfter).Meets (providerContract registry)
      (fun outcome _ last => Later w last ∧ ∀ service, outcome = .ok (.ok (some service)) →
        service.readAfter = readAfter)
      notes w := by
  have reads : (providerConfig registry kind tenantId provider config).Meets (providerContract registry)
      (fun _ later last => notes <:+ later ∧ Later w last) notes w := by
    apply (providerConfig_reads provider config).meets Later.refl Later.trans id
    intro c reads _ t current _
    cases c with
    | getSecretBytes tenantId name => exact ⟨current, Later.refl t, Later.refl t⟩
    | _ => exact absurd reads id
  refine Meets.bind (reads.mono ?_)
  rintro outcome later last ⟨_, near⟩
  cases outcome with
  | error e => exact ⟨near, fun _ absent => by cases absent⟩
  | ok settings =>
    cases settings with
    | error e => exact ⟨near, fun _ absent => by cases absent⟩
    | ok settings =>
      dsimp only
      split
      · exact ⟨near, fun _ absent => by cases absent⟩
      · exact ⟨near, fun _ absent => by cases absent⟩
      · refine ⟨near, fun service same => ?_⟩
        cases same
        rfl

theorem fallBack_not_tenant {service : BuiltService} : fallBack registry kind ≠ some (.tenant service) := by
  unfold fallBack
  split <;> simp

theorem cacheInsert_meets {service : BuiltService} (newer : change ≤ service.readAfter) :
    (providerStep (.cacheInsert kind tenantId service) >>= fun _ => pure (some (.tenant service)) : ProviderM
      (Option Provided)).Meets
      (providerContract registry) (fun outcome _ _ => ReadAfter change outcome) notes w := by
  intro t _ current timely
  -- the step is permitted: what is cached is as new as the cache asks for
  obtain ⟨kept, near⟩ : Current (t.setCache kind tenantId (some { service, createdAt := t.now })) ∧
      Later t (t.setCache kind tenantId (some { service, createdAt := t.now })) :=
    current.setCache (fun _ same => by cases same; exact timely)
  refine ⟨kept, near, fun other same => ?_⟩
  cases same
  exact newer

theorem resolveAnew_meets (returned : change ≤ w.returned tenantId) :
    (resolveAnew registry kind tenantId).Meets (providerContract registry)
      (fun outcome _ _ => ReadAfter change outcome) notes w := by
  refine Meets.asked (fun t later current _ => ⟨current, Later.refl t, ?_⟩)
  have newer : change ≤ t.changes tenantId :=
    calc change ≤ w.returned tenantId := returned
      _ ≤ t.returned tenantId := later.returned tenantId
      _ ≤ t.clearedFor kind tenantId := current.returned kind tenantId
      _ ≤ t.changes tenantId := current.changed kind tenantId
  have fallen : ∀ notes last, (pure (fallBack registry kind) : ProviderM _).Meets (providerContract registry)
      (fun outcome _ _ => ReadAfter change outcome) notes last :=
    fun _ _ service same => absurd (Except.ok.inj same) fallBack_not_tenant
  cases failed : t.configError tenantId with
  | some e =>
    have answer : ((providerContract registry).exec (.getConfig tenantId) t).1 = .error e := by
      simp only [providerContract, providerExec, failed]
    rw [answer]
    exact fun _ absent => by cases absent
  | none =>
    have answer : ((providerContract registry).exec (.getConfig tenantId) t).1 = .ok
        (t.config tenantId, t.changes tenantId) := by
      simp only [providerContract, providerExec, failed]
    rw [answer]
    cases t.config tenantId with
    | none => exact fallen _ _
    | some config =>
      dsimp only
      cases getFieldStr config kind.words.provider with
      | none => exact fallen _ _
      | some provider =>
        refine Meets.bind ((build_meets provider config (t.changes tenantId)).mono ?_)
        rintro outcome later last ⟨_, built⟩
        cases outcome with
        | error e => exact fun _ absent => by cases absent
        | ok outcome =>
          rcases outcome with e | service
          · exact fun _ absent => by cases absent
          · cases service with
            | none => exact fallen _ _
            | some service =>
              have read := built service rfl
              rw [← read] at newer
              exact cacheInsert_meets newer

theorem tryGetService_meets (returned : change ≤ w.returned tenantId) :
    (tryGetService registry kind tenantId).Meets (providerContract registry)
      (fun outcome _ _ => ReadAfter change outcome) notes w := by
  refine Meets.bind ((checkCache_meets returned).mono ?_)
  rintro outcome later last ⟨near, cached⟩
  cases outcome with
  | error e => exact fun _ absent => by cases absent
  | ok found =>
    cases found with
    | none => exact resolveAnew_meets (Nat.le_trans returned (near.returned tenantId))
    | some service =>
      intro other same
      cases same
      exact cached service rfl

def Effective (outcome : Except ResolverError ClientResult) : Prop :=
  ∀ returned service, outcome = .ok (.resolved returned (some (.tenant service))) → returned ≤ service.readAfter

theorem resolution_meets : (resolution tenantId (tryGetService registry kind tenantId)).Meets
    (providerContract registry)
    (fun outcome _ _ => Effective outcome) notes w := by
  refine Meets.asked (fun t _ current _ => ⟨current, Later.refl t, ?_⟩)
  refine Meets.bind ((tryGetService_meets (Nat.le_refl (t.returned tenantId))).mono ?_)
  intro outcome later last newer
  cases outcome with
  | error e => exact fun _ _ absent => by cases absent
  | ok found =>
    intro returned service same
    cases same
    exact newer service rfl

theorem invalidateTenant_meets (made : change ≤ w.changes tenantId) :
    (invalidateTenant tenantId change).Meets (providerContract registry) (fun _ _ _ => True) notes w := by
  refine Meets.asked (fun t near current _ => ?_)
  have made : change ≤ t.changes tenantId := Nat.le_trans made (near.changes tenantId)
  obtain ⟨kept, later⟩ := clear_later registry .llm current made
  have first := clear_recorded registry .llm tenantId change t
  refine ⟨kept, later, Meets.asked (fun u near current _ => ?_)⟩
  have made : change ≤ u.changes tenantId := Nat.le_trans made ((later.trans near).changes tenantId)
  obtain ⟨kept, later⟩ := clear_later registry .embedding current made
  have second := clear_recorded registry .embedding tenantId change u
  have first := Nat.le_trans first ((near.trans later).clearedFor .llm tenantId)
  refine ⟨kept, later, Meets.asked (fun v near current _ => ?_)⟩
  have both : ∀ kind, change ≤ v.clearedFor kind tenantId := by
    intro kind
    cases kind with
    | llm => exact Nat.le_trans first (near.clearedFor .llm tenantId)
    | embedding => exact Nat.le_trans second (near.clearedFor .embedding tenantId)
  obtain ⟨kept, later⟩ := cleared_later registry current both
  exact ⟨kept, later, trivial⟩

theorem change_meets (config : Option Tenancy.TenantConfigDocument) (secrets : String → Option SecretBytes) :
    (ProviderClient.program registry (.change tenantId config secrets)).Meets (providerContract registry)
      (fun outcome _ _ => Effective outcome) notes w := by
  refine Meets.asked (fun t _ current _ => ?_)
  obtain ⟨kept, near⟩ := change_later registry tenantId config secrets current
  refine ⟨kept, near, Meets.bind ((invalidateTenant_meets (Nat.le_of_eq ?_)).mono ?_)⟩
  · show t.changes tenantId + 1 = update t.changes tenantId (t.changes tenantId + 1) tenantId
    rw [update_self]
  · intro outcome _ _ _
    cases outcome <;> exact fun _ _ absent => by cases absent

theorem client_meets (client : ProviderClient) :
    (client.program registry).Meets (providerContract registry) (fun outcome _ _ => Effective outcome) notes w := by
  cases client with
  | llm tenantId => exact resolution_meets
  | embedding tenantId => exact resolution_meets
  | change tenantId config secrets => exact change_meets config secrets

abbrev ProviderPool (ι : Type) : Type :=
  Pool ι ProviderCall Answer ResolverError ClientResult ProviderWorld

variable {ι : Type} [DecidableEq ι]

def providerPool (registry : TenantProviderRegistry) (clients : ι → ProviderClient)
    (config : String → Option Tenancy.TenantConfigDocument) (secrets : String → String → Option SecretBytes) :
    ProviderPool ι where
  state := { config, secrets }
  thread i := { program := (clients i).program registry }

/-- In every course, a resolution that starts after an invalidation has returned yields a service whose
configuration was read after the change. -/
def InvalidationEffective (registry : TenantProviderRegistry) (clients : ι → ProviderClient)
    (config : String → Option Tenancy.TenantConfigDocument) (secrets : String → String → Option SecretBytes)
    (allowed : ProviderPool ι → ι → Prop) : Prop :=
  ∀ pool, Pool.Course (providerExec registry) allowed Elsewise (providerPool registry clients config secrets) pool →
    ∀ i result, (pool.thread i).program = .done result → Effective (.ok result)

/-- Where no service is cached that was read before a change that the cache was cleared for, invalidation is
effective. -/
theorem invalidation_effective (registry : TenantProviderRegistry) (clients : ι → ProviderClient)
    (config : String → Option Tenancy.TenantConfigDocument) (secrets : String → String → Option SecretBytes) :
    InvalidationEffective registry clients config secrets (fun pool i => pool.Permitted Timely i) := by
  intro pool course i result done_
  have course : Pool.Course (providerContract registry).exec
      (fun pool i => pool.Permitted (providerContract registry).ok i)
      Elsewise (providerPool registry clients config secrets) pool := course
  have start : Current (providerPool registry clients config secrets).state := by
    refine ⟨fun _ _ => Nat.le_refl _, fun _ _ _ absent => ?_, fun _ _ => Nat.le_refl _⟩
    cases absent
  have promising : pool.Promising (providerContract registry) (fun _ outcome _ _ => Effective outcome) :=
    course.promising Later.refl Later.trans id (fun current moved => Elsewise.later current moved) start
      (fun i => client_meets (clients i))
  obtain ⟨s, _, effective⟩ := promising.returned done_
  exact effective

def openaiFields : Tenancy.TenantConfigDocument where
  tenantId := "acme"
  fields := (∅ : Tenancy.BTreeMap Tenancy.TenantConfigField).insert "llm_provider" { ownership := .tenant, value := .string "openai" }

def plainRegistry : TenantProviderRegistry where
  platform _ := false
  toLowercase text := text
  createService _ _ := .ok true

inductive LateClient where
  | first
  | admin
  | second
deriving DecidableEq

def lateClients : LateClient → ProviderClient
  | .first | .second => .llm "acme"
  | .admin => .change "acme" (some openaiFields) (fun _ => some (.text "new key"))

def lateOrder : List LateClient :=
  [.first, .first, .first, .first, .admin, .admin, .admin, .admin, .first, .second, .second]

def latePool : ProviderPool LateClient :=
  lateOrder.foldl (Pool.step (providerExec plainRegistry))
    (providerPool plainRegistry lateClients (fun _ => some openaiFields) (fun _ _ => some (.text "old key")))

theorem latePool_answer : (latePool.thread .second).program =
    .done (.resolved 1 (some (.tenant { config := .openai "gpt-4o" "old key", readAfter := 0 }))) := by rfl

theorem invalidation_late : ¬ InvalidationEffective plainRegistry lateClients (fun _ => some openaiFields)
    (fun _ _ => some (.text "old key")) (fun _ _ => True) := by
  intro effective
  have course : Pool.Course (providerExec plainRegistry) (fun _ _ => True) Elsewise
      (providerPool plainRegistry lateClients (fun _ => some openaiFields)
        (fun _ _ => some (.text "old key"))) latePool :=
    .schedule (fun _ _ => trivial) .start lateOrder
  have newer := effective latePool course .second _ latePool_answer 1 _ rfl
  exact absurd newer (by decide)

end Aeterna.Memory
