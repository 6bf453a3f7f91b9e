import Aeterna.Settings.Config

/-!
Merging the defaults, a file, the environment and the command line (`config/src/precedence.rs`), and which fields
come out as the order of the four says.
-/

namespace Aeterna.Settings
open Lib (Setting)
open Lib.Setting List

def mergeField {V : Type} [DecidableEq V] (isSet : Bool) (source base : V) (line : String) : V × List String :=
  if isSet ∧ source ≠ base then (source, [line]) else (base, [])

def mergePostgres (base source : PostgresConfig) : PostgresConfig × List String :=
  let host := mergeField (source.host ≠ defaultPostgresHost) source.host base.host
    ("providers.postgres.host = " ++ source.host)
  let port := mergeField (source.port ≠ defaultPostgresPort) source.port base.port
    ("providers.postgres.port = " ++ toString source.port)
  let database := mergeField (source.database ≠ defaultPostgresDatabase) source.database base.database
    ("providers.postgres.database = " ++ source.database)
  let username := mergeField (source.username ≠ defaultPostgresUsername) source.username base.username
    ("providers.postgres.username = " ++ source.username)
  let password := mergeField (!source.password.isEmpty) source.password base.password "providers.postgres.password = ***"
  let poolSize := mergeField (source.poolSize ≠ defaultPostgresPoolSize) source.poolSize base.poolSize
    ("providers.postgres.pool_size = " ++ toString source.poolSize)
  let timeoutSeconds := mergeField (source.timeoutSeconds ≠
      defaultPostgresTimeout) source.timeoutSeconds base.timeoutSeconds
    ("providers.postgres.timeout_seconds = " ++ toString source.timeoutSeconds)
  (⟨host.1, port.1, database.1, username.1, password.1, poolSize.1, timeoutSeconds.1⟩,
    host.2 ++ port.2 ++ database.2 ++ username.2 ++ password.2 ++ poolSize.2 ++ timeoutSeconds.2)

def mergeQdrant (base source : QdrantConfig) : QdrantConfig × List String :=
  let host := mergeField (source.host ≠ defaultQdrantHost) source.host base.host
    ("providers.qdrant.host = " ++ source.host)
  let port := mergeField (source.port ≠ defaultQdrantPort) source.port base.port
    ("providers.qdrant.port = " ++ toString source.port)
  let collection := mergeField (source.collection ≠ defaultQdrantCollection) source.collection base.collection
    ("providers.qdrant.collection = " ++ source.collection)
  let timeoutSeconds := mergeField (source.timeoutSeconds ≠
      defaultQdrantTimeout) source.timeoutSeconds base.timeoutSeconds
    ("providers.qdrant.timeout_seconds = " ++ toString source.timeoutSeconds)
  (⟨host.1, port.1, collection.1, timeoutSeconds.1⟩, host.2 ++ port.2 ++ collection.2 ++ timeoutSeconds.2)

def mergeRedis (base source : RedisConfig) : RedisConfig × List String :=
  let host := mergeField (source.host ≠ defaultRedisHost) source.host base.host
      ("providers.redis.host = " ++ source.host)
  let port := mergeField (source.port ≠ defaultRedisPort) source.port base.port
    ("providers.redis.port = " ++ toString source.port)
  let db := mergeField (source.db ≠ defaultRedisDb) source.db base.db ("providers.redis.db = " ++ toString source.db)
  let poolSize := mergeField (source.poolSize ≠ defaultRedisPoolSize) source.poolSize base.poolSize
    ("providers.redis.pool_size = " ++ toString source.poolSize)
  let timeoutSeconds := mergeField (source.timeoutSeconds ≠
      defaultRedisTimeout) source.timeoutSeconds base.timeoutSeconds
    ("providers.redis.timeout_seconds = " ++ toString source.timeoutSeconds)
  (⟨host.1, port.1, db.1, poolSize.1, timeoutSeconds.1⟩, host.2 ++ port.2 ++ db.2 ++ poolSize.2 ++ timeoutSeconds.2)

def mergeSync (base source : SyncConfig) : SyncConfig × List String :=
  let enabled := mergeField (!source.enabled) source.enabled base.enabled
      ("sync.enabled = " ++ toString source.enabled)
  let syncIntervalSeconds := mergeField (source.syncIntervalSeconds ≠ defaultSyncInterval)
    source.syncIntervalSeconds base.syncIntervalSeconds
    ("sync.sync_interval_seconds = " ++ toString source.syncIntervalSeconds)
  let batchSize := mergeField (source.batchSize ≠ defaultSyncBatchSize) source.batchSize base.batchSize
    ("sync.batch_size = " ++ toString source.batchSize)
  let checkpointEnabled := mergeField (!source.checkpointEnabled) source.checkpointEnabled base.checkpointEnabled
    ("sync.checkpoint_enabled = " ++ toString source.checkpointEnabled)
  let conflictResolution := mergeField (source.conflictResolution ≠ defaultSyncConflictResolution)
    source.conflictResolution base.conflictResolution ("sync.conflict_resolution = " ++ source.conflictResolution)
  (⟨enabled.1, syncIntervalSeconds.1, batchSize.1, checkpointEnabled.1, conflictResolution.1⟩,
    enabled.2 ++ syncIntervalSeconds.2 ++ batchSize.2 ++ checkpointEnabled.2 ++ conflictResolution.2)

def mergeTools (base source : ToolConfig) : ToolConfig × List String :=
  let enabled := mergeField (!source.enabled) source.enabled base.enabled
      ("tools.enabled = " ++ toString source.enabled)
  let host := mergeField (source.host ≠ defaultToolsHost) source.host base.host ("tools.host = " ++ source.host)
  let port := mergeField (source.port ≠ defaultToolsPort) source.port base.port
      ("tools.port = " ++ toString source.port)
  let apiKey := mergeField source.apiKey.isSome source.apiKey base.apiKey "tools.api_key = ***"
  let rateLimitRequestsPerMinute := mergeField (source.rateLimitRequestsPerMinute ≠ defaultToolsRateLimit)
    source.rateLimitRequestsPerMinute base.rateLimitRequestsPerMinute
    ("tools.rate_limit_requests_per_minute = " ++ toString source.rateLimitRequestsPerMinute)
  (⟨enabled.1, host.1, port.1, apiKey.1, rateLimitRequestsPerMinute.1⟩,
    enabled.2 ++ host.2 ++ port.2 ++ apiKey.2 ++ rateLimitRequestsPerMinute.2)

def mergeObservability (base source : ObservabilityConfig) : ObservabilityConfig × List String :=
  let metricsEnabled := mergeField (!source.metricsEnabled) source.metricsEnabled base.metricsEnabled
    ("observability.metrics_enabled = " ++ toString source.metricsEnabled)
  let tracingEnabled := mergeField (!source.tracingEnabled) source.tracingEnabled base.tracingEnabled
    ("observability.tracing_enabled = " ++ toString source.tracingEnabled)
  let loggingLevel := mergeField (source.loggingLevel ≠
      defaultObservabilityLoggingLevel) source.loggingLevel base.loggingLevel
    ("observability.logging_level = " ++ source.loggingLevel)
  let metricsPort := mergeField (source.metricsPort ≠
      defaultObservabilityMetricsPort) source.metricsPort base.metricsPort
    ("observability.metrics_port = " ++ toString source.metricsPort)
  (⟨metricsEnabled.1, tracingEnabled.1, loggingLevel.1, metricsPort.1⟩,
    metricsEnabled.2 ++ tracingEnabled.2 ++ loggingLevel.2 ++ metricsPort.2)

def unlessSame {S : Type} (base : S) (merged : S × List String) : S := if merged.2.isEmpty then base else merged.1

def mergeWithLogging (base source : Config) : Config × List String :=
  let postgres := mergePostgres base.providers.postgres source.providers.postgres
  let qdrant := mergeQdrant base.providers.qdrant source.providers.qdrant
  let redis := mergeRedis base.providers.redis source.providers.redis
  let sync := mergeSync base.sync source.sync
  let tools := mergeTools base.tools source.tools
  let observability := mergeObservability base.observability source.observability
  let adminBootstrap := mergeField source.adminBootstrap.email.isSome source.adminBootstrap base.adminBootstrap
    "admin_bootstrap = <overridden>"
  ({ base with
      providers := { base.providers with
        postgres := unlessSame base.providers.postgres postgres
        qdrant := unlessSame base.providers.qdrant qdrant
        redis := unlessSame base.providers.redis redis }
      sync := unlessSame base.sync sync
      tools := unlessSame base.tools tools
      observability := unlessSame base.observability observability
      adminBootstrap := adminBootstrap.1 },
    postgres.2 ++ qdrant.2 ++ redis.2 ++ sync.2 ++ tools.2 ++ observability.2 ++ adminBootstrap.2)

def mergeConfigs (defaults file env : Config) (cli : Option Config) : Config :=
  let config := (mergeWithLogging defaults file).1
  let config := (mergeWithLogging config env).1
  match cli with
  | some cli => (mergeWithLogging config cli).1
  | none => config

/-- The sources, the one of highest precedence first. -/
def sources (file env : Config) (cli : Option Config) : List Config := cli.toList ++ [env, file]

theorem mergeConfigs_eq (defaults file env : Config) (cli : Option Config) : mergeConfigs defaults file env cli =
    (sources file env cli).reverse.foldl (fun base source => (mergeWithLogging base source).1) defaults := by
  cases cli <;> rfl

section
variable {V : Type} [DecidableEq V] {isSet : Bool} {source base : V} {line : String}

@[simp] theorem mergeField_fst : (mergeField isSet source base line).1 = if isSet then source else base := by
  unfold mergeField
  by_cases same : source = base
  · simp [same]
  · cases isSet <;> simp [same]

theorem mergeField_unchanged (unchanged : (mergeField isSet source base line).2 = []) :
    (mergeField isSet source base line).1 = base := by
  unfold mergeField at unchanged ⊢
  split
  · rename_i taken
    rw [if_pos taken] at unchanged
    cases unchanged
  · rfl

theorem mergeField_again : mergeField isSet source (mergeField isSet source base line).1 line =
    ((mergeField isSet source base line).1, []) := by
  unfold mergeField
  split <;> simp_all

end

def Recorded {S : Type} (merge : S → S → S × List String) : Prop :=
  ∀ base source, (merge base source).2 = [] → (merge base source).1 = base

theorem unlessSame_eq {S : Type} {merge : S → S → S × List String} (recorded : Recorded merge) (base source : S) :
    unlessSame base (merge base source) = (merge base source).1 := by
  unfold unlessSame
  split
  · rename_i none_
    exact (recorded base source (List.isEmpty_iff.mp none_)).symm
  · rfl

theorem mergePostgres_recorded : Recorded mergePostgres := by
  intro base source unchanged
  simp only [mergePostgres, append_eq_nil_iff] at unchanged ⊢
  obtain ⟨⟨⟨⟨⟨⟨host, port⟩, database⟩, username⟩, password⟩, poolSize⟩, timeoutSeconds⟩ := unchanged
  rw [mergeField_unchanged host, mergeField_unchanged port, mergeField_unchanged database,
    mergeField_unchanged username,
    mergeField_unchanged password, mergeField_unchanged poolSize, mergeField_unchanged timeoutSeconds]

theorem mergeQdrant_recorded : Recorded mergeQdrant := by
  intro base source unchanged
  simp only [mergeQdrant, append_eq_nil_iff] at unchanged ⊢
  obtain ⟨⟨⟨host, port⟩, collection⟩, timeoutSeconds⟩ := unchanged
  rw [mergeField_unchanged host, mergeField_unchanged port, mergeField_unchanged collection,
    mergeField_unchanged timeoutSeconds]

theorem mergeRedis_recorded : Recorded mergeRedis := by
  intro base source unchanged
  simp only [mergeRedis, append_eq_nil_iff] at unchanged ⊢
  obtain ⟨⟨⟨⟨host, port⟩, db⟩, poolSize⟩, timeoutSeconds⟩ := unchanged
  rw [mergeField_unchanged host, mergeField_unchanged port, mergeField_unchanged db, mergeField_unchanged poolSize,
    mergeField_unchanged timeoutSeconds]

theorem mergeSync_recorded : Recorded mergeSync := by
  intro base source unchanged
  simp only [mergeSync, append_eq_nil_iff] at unchanged ⊢
  obtain ⟨⟨⟨⟨enabled, interval⟩, batchSize⟩, checkpoint⟩, resolution⟩ := unchanged
  rw [mergeField_unchanged enabled, mergeField_unchanged interval, mergeField_unchanged batchSize,
    mergeField_unchanged checkpoint, mergeField_unchanged resolution]

theorem mergeTools_recorded : Recorded mergeTools := by
  intro base source unchanged
  simp only [mergeTools, append_eq_nil_iff] at unchanged ⊢
  obtain ⟨⟨⟨⟨enabled, host⟩, port⟩, apiKey⟩, rateLimit⟩ := unchanged
  rw [mergeField_unchanged enabled, mergeField_unchanged host, mergeField_unchanged port, mergeField_unchanged apiKey,
    mergeField_unchanged rateLimit]

theorem mergeObservability_recorded : Recorded mergeObservability := by
  intro base source unchanged
  simp only [mergeObservability, append_eq_nil_iff] at unchanged ⊢
  obtain ⟨⟨⟨metrics, tracing⟩, level⟩, port⟩ := unchanged
  rw [mergeField_unchanged metrics, mergeField_unchanged tracing, mergeField_unchanged level,
    mergeField_unchanged port]

/-- A source that is merged once more changes nothing and is not logged again. -/
theorem mergeWithLogging_settles (base source : Config) :
    mergeWithLogging (mergeWithLogging base source).1 source = ((mergeWithLogging base source).1, []) := by
  simp only [mergeWithLogging, unlessSame_eq mergePostgres_recorded, unlessSame_eq mergeQdrant_recorded,
    unlessSame_eq mergeRedis_recorded, unlessSame_eq mergeSync_recorded, unlessSame_eq mergeTools_recorded,
    unlessSame_eq mergeObservability_recorded]
  simp only [mergePostgres, mergeQdrant, mergeRedis, mergeSync, mergeTools, mergeObservability, mergeField_again,
    nil_append]

def MergesFields {S : Type} (builtIn : S) (fields : List (Setting S)) (merge : S → S → S × List String) : Prop :=
  ∀ f ∈ fields, f.Takes (f.isSet builtIn) (fun base source => (merge base source).1)

theorem mergePostgres_fields : MergesFields {} PostgresConfig.fields mergePostgres := by
  simp [MergesFields, PostgresConfig.fields, Takes, of, Setting.isSet, mergePostgres,
    defaultPostgresPassword]
  grind

theorem mergeQdrant_fields : MergesFields {} QdrantConfig.fields mergeQdrant := by
  simp [MergesFields, QdrantConfig.fields, Takes, of, Setting.isSet, mergeQdrant]

theorem mergeRedis_fields : MergesFields {} RedisConfig.fields mergeRedis := by
  simp [MergesFields, RedisConfig.fields, Takes, of, Setting.isSet, mergeRedis]

theorem mergeSync_fields : MergesFields {} SyncConfig.fields mergeSync := by
  simp [MergesFields, SyncConfig.fields, Takes, of, Setting.isSet, mergeSync]
  grind

theorem mergeTools_fields : MergesFields {} ToolConfig.fields mergeTools := by
  simp [MergesFields, ToolConfig.fields, Takes, of, Setting.isSet, mergeTools,
    Option.isSome_iff_ne_none]
  grind

theorem mergeObservability_fields : MergesFields {} ObservabilityConfig.fields mergeObservability := by
  simp [MergesFields, ObservabilityConfig.fields, Takes, of, Setting.isSet, mergeObservability]
  grind

def mergedFields : List (Setting Config) :=
  PostgresConfig.fields.map (fun f => (f.within ProviderConfig.postgres).within Config.providers) ++
    QdrantConfig.fields.map (fun f => (f.within ProviderConfig.qdrant).within Config.providers) ++
    RedisConfig.fields.map (fun f => (f.within ProviderConfig.redis).within Config.providers) ++
    SyncConfig.fields.map (·.within Config.sync) ++ ToolConfig.fields.map (·.within Config.tools) ++
    ObservabilityConfig.fields.map (·.within Config.observability)

/-- The fields of the one section that a source replaces as a whole. -/
def adminFields : List (Setting Config) := AdminBootstrapConfig.fields.map (·.within Config.adminBootstrap)

/-- The fields that no source is asked for. -/
def unmergedFields : List (Setting Config) :=
  GraphConfig.fields.map (fun f => (f.within ProviderConfig.graph).within Config.providers) ++
    MemoryConfig.fields.map (·.within Config.memory) ++ DeploymentConfig.fields.map (·.within Config.deployment) ++
    JobConfig.fields.map (·.within Config.job) ++ KnowledgeRepoConfig.fields.map (·.within Config.knowledgeRepo) ++
    PluginAuthConfig.fields.map (·.within Config.pluginAuth) ++ KubernetesAuthConfig.fields.map
      (·.within Config.k8sAuth) ++
    CcaConfig.fields.map (·.within Config.cca) ++ ProvisioningConfig.fields.map (·.within Config.provisioning)

variable {f : Setting Config}

theorem mem_fields : f ∈ Config.fields ↔ f ∈ mergedFields ∨ f ∈ adminFields ∨ f ∈ unmergedFields := by
  simp only [Config.fields, ProviderConfig.fields, mergedFields, adminFields, unmergedFields, map_append,
    map_map,
    mem_append, Function.comp_def]
  tauto

/-- The merge of all sections, without the lines. -/
def merge (base source : Config) : Config := (mergeWithLogging base source).1

theorem takes_of_section {S : Type} (part : Config → S) {fields : List (Setting S)}
    {section_ : S → S → S × List String} {f : Setting S} (merges : MergesFields (part {}) fields section_)
    (recorded : Recorded section_)
    (merged : ∀ base source, part (merge base source) = unlessSame (part base) (section_ (part base) (part source)))
    (member : f ∈ fields) : (f.within part).Takes ((f.within part).isSet {}) merge :=
  (merges f member).within (fun base source => (merged base source).trans (unlessSame_eq recorded _ _))

theorem mergedFields_take (member : f ∈ mergedFields) : f.Takes (f.isSet {}) merge := by
  simp only [mergedFields, mem_append, mem_map] at member
  obtain (((((⟨f, member, rfl⟩ | ⟨f, member, rfl⟩) | ⟨f, member, rfl⟩) | ⟨f, member, rfl⟩) | ⟨f, member, rfl⟩) |
    ⟨f, member, rfl⟩) := member
  · exact takes_of_section (fun c => c.providers.postgres) mergePostgres_fields mergePostgres_recorded
      (fun _ _ => rfl) member
  · exact takes_of_section (fun c => c.providers.qdrant) mergeQdrant_fields mergeQdrant_recorded
      (fun _ _ => rfl) member
  · exact takes_of_section (fun c => c.providers.redis) mergeRedis_fields mergeRedis_recorded (fun _ _ => rfl) member
  · exact takes_of_section (·.sync) mergeSync_fields mergeSync_recorded (fun _ _ => rfl) member
  · exact takes_of_section (·.tools) mergeTools_fields mergeTools_recorded (fun _ _ => rfl) member
  · exact takes_of_section (·.observability) mergeObservability_fields mergeObservability_recorded
      (fun _ _ => rfl) member

theorem adminFields_take (member : f ∈ adminFields) :
    f.Takes (fun source => source.adminBootstrap.email.isSome) merge := by
  obtain ⟨f, -, rfl⟩ := mem_map.mp member
  intro base source
  show f.get (mergeField source.adminBootstrap.email.isSome source.adminBootstrap base.adminBootstrap _).1 = _
  rw [mergeField_fst]
  split <;> rfl

theorem unmergedFields_take (member : f ∈ unmergedFields) : f.Takes (fun _ => false) merge := by
  simp only [unmergedFields, mem_append, mem_map] at member
  obtain ((((((((⟨f, member, rfl⟩ | ⟨f, member, rfl⟩) | ⟨f, member, rfl⟩) | ⟨f, member, rfl⟩) | ⟨f, member, rfl⟩) |
    ⟨f, member, rfl⟩) | ⟨f, member, rfl⟩) | ⟨f, member, rfl⟩) | ⟨f, member, rfl⟩) :=
      member <;> intro base source <;> rfl

/-- The value that the order of the sources gives a field: that of the first source in which it is not the
built-in one. -/
def chosen (f : Setting Config) (defaults file env : Config) (cli : Option Config) : f.V :=
  f.valueOf (f.isSet {}) defaults (sources file env cli)

theorem get_of_takes {condition : Config → Bool} (takes : f.Takes condition merge)
    (defaults file env : Config) (cli : Option Config) :
    f.get (mergeConfigs defaults file env cli) = f.valueOf condition defaults (sources file env cli) := by
  have run := takes.foldl defaults (sources file env cli).reverse
  rw [reverse_reverse] at run
  rw [mergeConfigs_eq]
  exact run

/-- Every field follows the order of the sources exactly if the order leaves the unmerged ones at the defaults, and
those of the administrator at the first source that states an email. -/
theorem precedence_iff (defaults file env : Config) (cli : Option Config) :
    (∀ f ∈ Config.fields, f.get (mergeConfigs defaults file env cli) = chosen f defaults file env cli) ↔
    (∀ f ∈ unmergedFields, chosen f defaults file env cli = f.get defaults) ∧
    (∀ f ∈ adminFields, chosen f defaults file env cli =
      f.valueOf (fun source => source.adminBootstrap.email.isSome) defaults (sources file env cli)) := by
  have admin : ∀ f ∈ adminFields, f.get (mergeConfigs defaults file env cli) = _ := fun f member =>
    get_of_takes (adminFields_take member) defaults file env cli
  have unmerged : ∀ f ∈ unmergedFields, f.get (mergeConfigs defaults file env cli) = f.get defaults := fun f member =>
    (get_of_takes (unmergedFields_take member) defaults file env cli).trans (by cases cli <;> rfl)
  constructor
  · intro follows
    constructor
    · intro f member
      rw [← follows f (mem_fields.mpr (.inr (.inr member))), unmerged f member]
    · intro f member
      rw [← follows f (mem_fields.mpr (.inr (.inl member))), admin f member]
  · rintro ⟨stays, replaced⟩ f member
    rcases mem_fields.mp member with merged | section_ | left
    · exact get_of_takes (mergedFields_take merged) defaults file env cli
    · rw [replaced f section_, admin f section_]
    · rw [stays f left, unmerged f left]

theorem deployment_mode_lost :
    ∃ f ∈ Config.fields, f.get (mergeConfigs {} { deployment := { mode := "remote" } } {} none) ≠
      chosen f {} { deployment := { mode := "remote" } } {} none := by
  refine ⟨(of DeploymentConfig.mode).within Config.deployment, mem_fields.mpr (.inr (.inr ?_)), ?_⟩
  · simp [unmergedFields, DeploymentConfig.fields]
  · decide +kernel

end Aeterna.Settings
