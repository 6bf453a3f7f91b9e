import Aeterna.Core.Types
import Aeterna.Lib.Layers
import Mathlib.Data.Fintype.Pi

/-!
The configuration and its built-in values (`config/src/config.rs`, `config/src/cca.rs`), with the fields of each
section.
-/

namespace Aeterna.Settings
open Lib (Setting)

structure F32 where
  bits : UInt32
  deriving DecidableEq

structure F64 where
  bits : UInt64
  deriving DecidableEq

def PROVIDER_GITHUB : String := "github"

def defaultPostgresHost : String := "localhost"
def defaultPostgresPort : UInt16 := 5432
def defaultPostgresDatabase : String := "memory_knowledge"
def defaultPostgresUsername : String := "postgres"
def defaultPostgresPassword : String := ""
def defaultPostgresPoolSize : UInt32 := 10
def defaultPostgresTimeout : UInt64 := 30

structure PostgresConfig where
  host : String := defaultPostgresHost
  port : UInt16 := defaultPostgresPort
  database : String := defaultPostgresDatabase
  username : String := defaultPostgresUsername
  password : String := defaultPostgresPassword
  poolSize : UInt32 := defaultPostgresPoolSize
  timeoutSeconds : UInt64 := defaultPostgresTimeout
  deriving DecidableEq

def PostgresConfig.fields : List (Setting PostgresConfig) :=
  [.of host, .of port, .of database, .of username, .of password, .of poolSize, .of timeoutSeconds]

def defaultQdrantHost : String := "localhost"
def defaultQdrantPort : UInt16 := 6333
def defaultQdrantCollection : String := "memory_embeddings"
def defaultQdrantTimeout : UInt64 := 30

structure QdrantConfig where
  host : String := defaultQdrantHost
  port : UInt16 := defaultQdrantPort
  collection : String := defaultQdrantCollection
  timeoutSeconds : UInt64 := defaultQdrantTimeout
  deriving DecidableEq

def QdrantConfig.fields : List (Setting QdrantConfig) := [.of host, .of port, .of collection, .of timeoutSeconds]

def defaultRedisHost : String := "localhost"
def defaultRedisPort : UInt16 := 6379
def defaultRedisDb : UInt8 := 0
def defaultRedisPoolSize : UInt32 := 10
def defaultRedisTimeout : UInt64 := 30

structure RedisConfig where
  host : String := defaultRedisHost
  port : UInt16 := defaultRedisPort
  db : UInt8 := defaultRedisDb
  poolSize : UInt32 := defaultRedisPoolSize
  timeoutSeconds : UInt64 := defaultRedisTimeout
  deriving DecidableEq

def RedisConfig.fields : List (Setting RedisConfig) := [.of host, .of port, .of db, .of poolSize, .of timeoutSeconds]

structure ContentionAlertConfig where
  queueDepthWarn : UInt32 := 5
  queueDepthCritical : UInt32 := 10
  waitTimeWarnMs : UInt64 := 1000
  waitTimeCriticalMs : UInt64 := 3000
  timeoutRateWarnPercent : F64 := ⟨0x4014000000000000⟩
  timeoutRateCriticalPercent : F64 := ⟨0x402E000000000000⟩
  deriving DecidableEq

def ContentionAlertConfig.fields : List (Setting ContentionAlertConfig) :=
  [.of queueDepthWarn, .of queueDepthCritical, .of waitTimeWarnMs, .of waitTimeCriticalMs, .of timeoutRateWarnPercent,
    .of timeoutRateCriticalPercent]

structure GraphConfig where
  enabled : Bool := true
  databasePath : String := ":memory:"
  s3Bucket : Option String := none
  s3Prefix : Option String := none
  s3Endpoint : Option String := none
  s3Region : String := "us-east-1"
  readerPoolSize : Option UInt64 := none
  snapshotFullIntervalSecs : UInt64 := 604800
  snapshotDeltaIntervalSecs : UInt64 := 300
  eventSourcingEnabled : Bool := false
  contentionAlerts : ContentionAlertConfig := {}
  deriving DecidableEq

def GraphConfig.fields : List (Setting GraphConfig) :=
  [.of enabled, .of databasePath, .of s3Bucket, .of s3Prefix, .of s3Endpoint, .of s3Region, .of readerPoolSize,
    .of snapshotFullIntervalSecs, .of snapshotDeltaIntervalSecs, .of eventSourcingEnabled] ++
  ContentionAlertConfig.fields.map (·.within contentionAlerts)

structure ProviderConfig where
  postgres : PostgresConfig := {}
  qdrant : QdrantConfig := {}
  redis : RedisConfig := {}
  graph : GraphConfig := {}
  deriving DecidableEq

def ProviderConfig.fields : List (Setting ProviderConfig) :=
  PostgresConfig.fields.map (·.within postgres) ++ QdrantConfig.fields.map (·.within qdrant) ++
    RedisConfig.fields.map (·.within redis) ++ GraphConfig.fields.map (·.within graph)

def defaultSyncInterval : UInt64 := 60
def defaultSyncBatchSize : UInt32 := 100
def defaultSyncConflictResolution : String := "prefer_knowledge"

structure SyncConfig where
  enabled : Bool := true
  syncIntervalSeconds : UInt64 := defaultSyncInterval
  batchSize : UInt32 := defaultSyncBatchSize
  checkpointEnabled : Bool := true
  conflictResolution : String := defaultSyncConflictResolution
  deriving DecidableEq

def SyncConfig.fields : List (Setting SyncConfig) :=
  [.of enabled, .of syncIntervalSeconds, .of batchSize, .of checkpointEnabled, .of conflictResolution]

def defaultToolsHost : String := "localhost"
def defaultToolsPort : UInt16 := 8080
def defaultToolsRateLimit : UInt32 := 60

structure ToolConfig where
  enabled : Bool := true
  host : String := defaultToolsHost
  port : UInt16 := defaultToolsPort
  apiKey : Option String := none
  rateLimitRequestsPerMinute : UInt32 := defaultToolsRateLimit
  deriving DecidableEq

def ToolConfig.fields : List (Setting ToolConfig) :=
  [.of enabled, .of host, .of port, .of apiKey, .of rateLimitRequestsPerMinute]

def defaultObservabilityLoggingLevel : String := "info"
def defaultObservabilityMetricsPort : UInt16 := 9090

structure ObservabilityConfig where
  metricsEnabled : Bool := true
  tracingEnabled : Bool := true
  loggingLevel : String := defaultObservabilityLoggingLevel
  metricsPort : UInt16 := defaultObservabilityMetricsPort
  deriving DecidableEq

def ObservabilityConfig.fields : List (Setting ObservabilityConfig) :=
  [.of metricsEnabled, .of tracingEnabled, .of loggingLevel, .of metricsPort]

inductive SummaryDepth where
  | sentence | paragraph | detailed
  deriving DecidableEq

structure SummaryConfig where
  layer : MemoryLayer
  updateIntervalSecs : Option UInt64
  updateOnChanges : Option UInt32
  (skipIfUnchanged personalized : Bool)
  depths : List SummaryDepth
  deriving DecidableEq

structure ReasoningConfig where
  enabled : Bool := false
  timeoutMs : UInt64 := 3000
  bypassSimpleQueries : Bool := true
  simpleQueryMaxWords : UInt64 := 5
  exhaustiveLimitMultiplier : F32 := ⟨0x40000000⟩
  targetedLimitMultiplier : F32 := ⟨0x3F800000⟩
  p95LatencyThresholdMs : UInt64 := 2500
  cacheTtlSeconds : UInt64 := 3600
  cacheEnabled : Bool := true
  cacheMaxEntries : UInt64 := 10000
  circuitBreakerEnabled : Bool := true
  circuitBreakerFailureThresholdPercent : F64 := ⟨0x4014000000000000⟩
  circuitBreakerWindowSecs : UInt64 := 300
  circuitBreakerMinRequests : UInt64 := 10
  circuitBreakerRecoverySecs : UInt64 := 60
  circuitBreakerHalfOpenRequests : UInt64 := 3
  maxHopDepth : UInt32 := 3
  hopRelevanceThreshold : F32 := ⟨0x3E99999A⟩
  maxQueryBudget : UInt32 := 50
  deriving DecidableEq

def ReasoningConfig.fields : List (Setting ReasoningConfig) :=
  [.of enabled, .of timeoutMs, .of bypassSimpleQueries, .of simpleQueryMaxWords, .of exhaustiveLimitMultiplier,
    .of targetedLimitMultiplier, .of p95LatencyThresholdMs, .of cacheTtlSeconds, .of cacheEnabled,
      .of cacheMaxEntries,
    .of circuitBreakerEnabled, .of circuitBreakerFailureThresholdPercent, .of circuitBreakerWindowSecs,
    .of circuitBreakerMinRequests, .of circuitBreakerRecoverySecs, .of circuitBreakerHalfOpenRequests,
      .of maxHopDepth,
    .of hopRelevanceThreshold, .of maxQueryBudget]

structure RlmConfig where
  enabled : Bool := true
  maxSteps : UInt64 := 5
  complexityThreshold : F32 := ⟨0x3E99999A⟩
  deriving DecidableEq

def RlmConfig.fields : List (Setting RlmConfig) := [.of enabled, .of maxSteps, .of complexityThreshold]

instance : Fintype MemoryLayer where
  elems := {.agent, .user, .session, .project, .team, .org, .tenant}
  complete layer := by cases layer <;> decide

structure MemoryConfig where
  promotionThreshold : F32 := ⟨0x3F4CCCCD⟩
  decayIntervalSecs : UInt64 := 86400
  decayRate : F32 := ⟨0x3D4CCCCD⟩
  optimizationTriggerCount : UInt64 := 100
  layerSummaryConfigs : MemoryLayer → Option SummaryConfig := fun _ => none
  reasoning : ReasoningConfig := {}
  rlm : RlmConfig := {}
  deriving DecidableEq

def MemoryConfig.fields : List (Setting MemoryConfig) :=
  [.of promotionThreshold, .of decayIntervalSecs, .of decayRate, .of optimizationTriggerCount,
    .of layerSummaryConfigs] ++
  ReasoningConfig.fields.map (·.within reasoning) ++ RlmConfig.fields.map (·.within rlm)

structure DeploymentConfig where
  mode : String := "local"
  remoteUrl : Option String := none
  syncEnabled : Bool := true
  deriving DecidableEq

def DeploymentConfig.fields : List (Setting DeploymentConfig) := [.of mode, .of remoteUrl, .of syncEnabled]

structure JobConfig where
  lockTtlSeconds : UInt64 := 300
  jobTimeoutSeconds : UInt64 := 3600
  deduplicationWindowSeconds : UInt64 := 60
  checkpointInterval : UInt64 := 100
  gracefulShutdownTimeoutSeconds : UInt64 := 30
  deriving DecidableEq

def JobConfig.fields : List (Setting JobConfig) :=
  [.of lockTtlSeconds, .of jobTimeoutSeconds, .of deduplicationWindowSeconds, .of checkpointInterval,
    .of gracefulShutdownTimeoutSeconds]

/-- Its `Default` is derived: the branch is `main` only where a document leaves it out. -/
structure KnowledgeRepoConfig where
  remoteUrl : Option String := none
  branch : String := ""
  githubOwner : Option String := none
  githubRepo : Option String := none
  githubToken : Option String := none
  githubAppId : Option UInt64 := none
  githubInstallationId : Option UInt64 := none
  githubAppPem : Option String := none
  webhookSecret : Option String := none
  deriving DecidableEq

def KnowledgeRepoConfig.fields : List (Setting KnowledgeRepoConfig) :=
  [.of remoteUrl, .of branch, .of githubOwner, .of githubRepo, .of githubToken, .of githubAppId,
    .of githubInstallationId, .of githubAppPem, .of webhookSecret]

def defaultAllowedProviders : List String := [PROVIDER_GITHUB]

structure PluginAuthConfig where
  enabled : Bool := false
  allowedProviders : List String := defaultAllowedProviders
  githubClientId : Option String := none
  githubClientSecret : Option String := none
  githubApiBaseUrl : Option String := none
  githubOauthBaseUrl : Option String := none
  githubAppId : Option UInt64 := none
  githubAppName : Option String := none
  githubAppPem : Option String := none
  redirectBaseUrl : Option String := none
  tokenIssuer : Option String := none
  jwtSecret : Option String := none
  accessTokenTtlSeconds : Option UInt64 := none
  refreshTokenTtlSeconds : Option UInt64 := none
  defaultTenantId : Option String := none
  deriving DecidableEq

def PluginAuthConfig.fields : List (Setting PluginAuthConfig) :=
  [.of enabled, .of allowedProviders, .of githubClientId, .of githubClientSecret, .of githubApiBaseUrl,
    .of githubOauthBaseUrl, .of githubAppId, .of githubAppName, .of githubAppPem, .of redirectBaseUrl,
      .of tokenIssuer,
    .of jwtSecret, .of accessTokenTtlSeconds, .of refreshTokenTtlSeconds, .of defaultTenantId]

structure KubernetesAuthConfig where
  enabled : Bool := false
  apiServerUrl : Option String := none
  tokenReviewAudience : Option String := none
  saTokenPath : Option String := none
  caBundlePath : Option String := none
  namespace_ : Option String := none
  deriving DecidableEq

def KubernetesAuthConfig.fields : List (Setting KubernetesAuthConfig) :=
  [.of enabled, .of apiServerUrl, .of tokenReviewAudience, .of saTokenPath, .of caBundlePath, .of namespace_]

/-- Its `Default` is derived: the texts are empty. -/
structure AdminBootstrapConfig where
  email : Option String := none
  provider : String := ""
  providerSubject : Option String := none
  tenantSlug : String := ""
  orgSlug : String := ""
  teamSlug : String := ""
  k8sSaSubject : Option String := none
  deriving DecidableEq

def AdminBootstrapConfig.fields : List (Setting AdminBootstrapConfig) :=
  [.of email, .of provider, .of providerSubject, .of tenantSlug, .of orgSlug, .of teamSlug, .of k8sSaSubject]

structure ProvisioningConfig where
  allowInlineSecret : Bool := false
  deriving DecidableEq

def ProvisioningConfig.fields : List (Setting ProvisioningConfig) := [.of allowInlineSecret]

inductive StalenessPolicy where
  | serveStaleWarn | regenerateBlocking | regenerateAsync
  deriving DecidableEq

inductive CaptureMode where
  | all | sampled | errorsOnly | disabled
  deriving DecidableEq

structure ContextArchitectConfig where
  enabled : Bool := true
  defaultTokenBudget : UInt32 := 4000
  layerPriorities : List String := ["session", "project", "team", "org", "tenant"]
  minRelevanceScore : F32 := ⟨0x3E99999A⟩
  enableCaching : Bool := true
  cacheTtlSecs : UInt64 := 300
  stalenessPolicy : StalenessPolicy := .serveStaleWarn
  assemblyTimeoutMs : UInt64 := 100
  enableParallelQueries : Bool := true
  enableEarlyTermination : Bool := true
  deriving DecidableEq

def ContextArchitectConfig.fields : List (Setting ContextArchitectConfig) :=
  [.of enabled, .of defaultTokenBudget, .of layerPriorities, .of minRelevanceScore, .of enableCaching,
    .of cacheTtlSecs,
    .of stalenessPolicy, .of assemblyTimeoutMs, .of enableParallelQueries, .of enableEarlyTermination]

structure NoteTakingConfig where
  enabled : Bool := true
  autoDistillThreshold : UInt64 := 10
  manualTriggerEnabled : Bool := true
  sensitivePatternsEnabled : Bool := true
  captureMode : CaptureMode := .all
  samplingRate : UInt32 := 10
  overheadBudgetMs : UInt64 := 5
  queueSize : UInt64 := 1000
  batchSize : UInt64 := 10
  batchFlushMs : UInt64 := 100
  deriving DecidableEq

def NoteTakingConfig.fields : List (Setting NoteTakingConfig) :=
  [.of enabled, .of autoDistillThreshold, .of manualTriggerEnabled, .of sensitivePatternsEnabled, .of captureMode,
    .of samplingRate, .of overheadBudgetMs, .of queueSize, .of batchSize, .of batchFlushMs]

structure HindsightConfig where
  enabled : Bool := true
  semanticThreshold : F32 := ⟨0x3F4CCCCD⟩
  maxResults : UInt64 := 5
  promotionThreshold : F32 := ⟨0x3F4CCCCD⟩
  autoCaptureEnabled : Bool := true
  deriving DecidableEq

def HindsightConfig.fields : List (Setting HindsightConfig) :=
  [.of enabled, .of semanticThreshold, .of maxResults, .of promotionThreshold, .of autoCaptureEnabled]

structure MetaAgentConfig where
  enabled : Bool := true
  maxIterations : UInt32 := 3
  iterationTimeoutSecs : UInt64 := 300
  buildTimeoutSecs : UInt64 := 120
  testTimeoutSecs : UInt64 := 60
  autoEscalateOnFailure : Bool := true
  deriving DecidableEq

def MetaAgentConfig.fields : List (Setting MetaAgentConfig) :=
  [.of enabled, .of maxIterations, .of iterationTimeoutSecs, .of buildTimeoutSecs, .of testTimeoutSecs,
    .of autoEscalateOnFailure]

structure CcaConfig where
  enabled : Bool := true
  contextArchitect : ContextArchitectConfig := {}
  noteTaking : NoteTakingConfig := {}
  hindsight : HindsightConfig := {}
  metaAgent : MetaAgentConfig := {}
  deriving DecidableEq

def CcaConfig.fields : List (Setting CcaConfig) :=
  .of enabled :: (ContextArchitectConfig.fields.map (·.within contextArchitect) ++
    NoteTakingConfig.fields.map (·.within noteTaking) ++ HindsightConfig.fields.map (·.within hindsight) ++
    MetaAgentConfig.fields.map (·.within metaAgent))

structure Config where
  providers : ProviderConfig := {}
  sync : SyncConfig := {}
  memory : MemoryConfig := {}
  tools : ToolConfig := {}
  observability : ObservabilityConfig := {}
  deployment : DeploymentConfig := {}
  job : JobConfig := {}
  knowledgeRepo : KnowledgeRepoConfig := {}
  pluginAuth : PluginAuthConfig := {}
  k8sAuth : KubernetesAuthConfig := {}
  adminBootstrap : AdminBootstrapConfig := {}
  cca : CcaConfig := {}
  provisioning : ProvisioningConfig := {}
  deriving DecidableEq

def Config.fields : List (Setting Config) :=
  ProviderConfig.fields.map (·.within providers) ++ SyncConfig.fields.map (·.within sync) ++
    MemoryConfig.fields.map (·.within memory) ++ ToolConfig.fields.map (·.within tools) ++
    ObservabilityConfig.fields.map (·.within observability) ++ DeploymentConfig.fields.map (·.within deployment) ++
    JobConfig.fields.map (·.within job) ++ KnowledgeRepoConfig.fields.map (·.within knowledgeRepo) ++
    PluginAuthConfig.fields.map (·.within pluginAuth) ++ KubernetesAuthConfig.fields.map (·.within k8sAuth) ++
    AdminBootstrapConfig.fields.map (·.within adminBootstrap) ++ CcaConfig.fields.map (·.within cca) ++
    ProvisioningConfig.fields.map (·.within provisioning)

end Aeterna.Settings
