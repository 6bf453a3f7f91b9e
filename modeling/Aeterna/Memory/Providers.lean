import Aeterna.Lib.Programs
import Aeterna.Tenancy.Manifest

namespace Aeterna.Memory
open Lib (Program JsonValue)
open Tenancy (TenantConfigDocument)
open Function

inductive ServiceKind where
  | llm | embedding
  deriving DecidableEq

structure ServiceWords where
  (provider model apiKey googleProjectId googleLocation bedrockRegion defaultModel name initial setting : String)

def ServiceKind.words : ServiceKind → ServiceWords
  | .llm =>
    { provider := "llm_provider", model := "llm_model", apiKey := "llm_api_key", googleProjectId := "llm_google_project_id"
      googleLocation := "llm_google_location", bedrockRegion := "llm_bedrock_region", defaultModel := "gpt-4o"
      name := "LLM", initial := "LLM", setting := "" }
  | .embedding =>
    { provider := "embedding_provider", model := "embedding_model", apiKey := "embedding_api_key"
      googleProjectId := "embedding_google_project_id", googleLocation := "embedding_google_location"
      bedrockRegion := "embedding_bedrock_region", defaultModel := "text-embedding-3-small"
      name := "embedding", initial := "Embedding", setting := "embedding " }

inductive ProviderConfig where
  | openai (model apiKey : String)
  | google (projectId location model : String)
  | bedrock (region modelId : String)
  deriving DecidableEq

inductive SecretBytes where
  | text (value : String)
  | invalid

structure BuiltService where
  config : ProviderConfig
  readAfter : Nat

structure CachedEntry where
  service : BuiltService
  createdAt : Nat

inductive Provided where
  | tenant (service : BuiltService)
  | platform

inductive ResolverError where
  | configProviderFailed (error : String)
  | buildFailed (error : String)

structure TenantProviderRegistry where
  platform : ServiceKind → Bool
  cacheTtl : Nat := 3600
  toLowercase : String → String
  createService : ServiceKind → ProviderConfig → Except String Bool

def getFieldStr (config : TenantConfigDocument) (key : String) : Option String :=
  config.fields[key]?.bind (fun field =>
    match field.value with
    | .string text => some text
    | _ => none)

inductive ProviderCall where
  | start (tenantId : String)
  | cacheGet (kind : ServiceKind) (tenantId : String)
  | cacheRemove (kind : ServiceKind) (tenantId : String)
  | getConfig (tenantId : String)
  | getSecretBytes (tenantId logicalName : String)
  | cacheInsert (kind : ServiceKind) (tenantId : String) (service : BuiltService)
  | change (tenantId : String) (config : Option TenantConfigDocument) (secrets : String → Option SecretBytes)
  | clear (kind : ServiceKind) (tenantId : String) (change : Nat)
  | cleared (tenantId : String) (change : Nat)

@[reducible] def ProviderCall.Answer : ProviderCall → Type
  | .start _ => Nat
  | .cacheGet _ _ => Option (BuiltService × Bool)
  | .cacheRemove _ _ => Unit
  | .getConfig _ => Except String (Option TenantConfigDocument × Nat)
  | .getSecretBytes _ _ => Except String (Option SecretBytes)
  | .cacheInsert _ _ _ => Unit
  | .change _ _ _ => Nat
  | .clear _ _ _ => Unit
  | .cleared _ _ => Unit

abbrev ProviderM := Program ProviderCall ProviderCall.Answer ResolverError

def providerStep (c : ProviderCall) : ProviderM c.Answer := .ask c

section
variable (registry : TenantProviderRegistry) (kind : ServiceKind) (tenantId : String)

def providerConfig (provider : String) (config : TenantConfigDocument) : ProviderM (Except String ProviderConfig) :=
  let words := kind.words
  let model := (getFieldStr config words.model).getD ""
  let name := registry.toLowercase provider
  if name = "openai" then do
    match ← providerStep (.getSecretBytes tenantId words.apiKey) with
    | .error e => pure (.error ("Failed to read " ++ words.name ++ " API key: " ++ e))
    | .ok none => pure (.error ("Tenant " ++ words.name ++ " API key secret '" ++ words.apiKey ++ "' not set"))
    | .ok (some .invalid) => pure (.error (words.initial ++ " API key is not valid UTF-8"))
    | .ok (some (.text apiKey)) => pure (.ok (.openai (if model = "" then words.defaultModel else model) apiKey))
  else if name ∈ ["google", "vertex", "vertex_ai", "vertexai", "gemini"] then
    match getFieldStr config words.googleProjectId, getFieldStr config words.googleLocation with
    | none, _ => pure (.error ("Google " ++ words.setting ++ "project_id not configured"))
    | some _, none => pure (.error ("Google " ++ words.setting ++ "location not configured"))
    | some projectId, some location =>
      if model = "" then pure (.error ("Google " ++ words.name ++ " model not configured"))
      else pure (.ok (.google projectId location model))
  else if name ∈ ["bedrock", "aws_bedrock", "aws-bedrock"] then
    match getFieldStr config words.bedrockRegion with
    | none => pure (.error ("Bedrock " ++ words.setting ++ "region not configured"))
    | some region =>
      if model = "" then pure (.error ("Bedrock " ++ words.name ++ " model not configured"))
      else pure (.ok (.bedrock region model))
  else pure (.error ("Unknown " ++ words.name ++ " provider: " ++ provider))

/-- `build_llm_from_tenant_config` and `build_embedding_from_tenant_config`. -/
def buildFromTenantConfig (provider : String) (config : TenantConfigDocument) (readAfter : Nat) :
    ProviderM (Except String (Option BuiltService)) := do
  match ← providerConfig registry kind tenantId provider config with
  | .error e => pure (.error e)
  | .ok settings =>
    match registry.createService kind settings with
    | .error e => pure (.error ("Failed to create tenant " ++ kind.words.name ++ " service: " ++ e))
    | .ok false => pure (.ok none)
    | .ok true => pure (.ok (some { config := settings, readAfter }))

def checkCache : ProviderM (Option BuiltService) := do
  match ← providerStep (.cacheGet kind tenantId) with
  | none => pure none
  | some (service, expired) =>
    if !expired then pure (some service)
    else
      providerStep (.cacheRemove kind tenantId)
      pure none

def fallBack : Option Provided := if registry.platform kind then some .platform else none

def resolveAnew : ProviderM (Option Provided) := do
  match ← providerStep (.getConfig tenantId) with
  | .error e => .fail (.configProviderFailed e)
  | .ok (none, _) => pure (fallBack registry kind)
  | .ok (some config, readAfter) =>
    match getFieldStr config kind.words.provider with
    | none => pure (fallBack registry kind)
    | some provider =>
      match ← buildFromTenantConfig registry kind tenantId provider config readAfter with
      | .error e => .fail (.buildFailed e)
      | .ok none => pure (fallBack registry kind)
      | .ok (some service) =>
        providerStep (.cacheInsert kind tenantId service)
        pure (some (.tenant service))

def tryGetService : ProviderM (Option Provided) := do
  match ← checkCache kind tenantId with
  | some service => pure (some (.tenant service))
  | none => resolveAnew registry kind tenantId

def tryGetLlmService : ProviderM (Option Provided) := tryGetService registry .llm tenantId

def tryGetEmbeddingService : ProviderM (Option Provided) := tryGetService registry .embedding tenantId

def invalidateTenant (change : Nat) : ProviderM Unit := do
  providerStep (.clear .llm tenantId change)
  providerStep (.clear .embedding tenantId change)
  providerStep (.cleared tenantId change)

inductive ProviderClient where
  | llm (tenantId : String)
  | embedding (tenantId : String)
  | change (tenantId : String) (config : Option TenantConfigDocument) (secrets : String → Option SecretBytes)

inductive ClientResult where
  | changed
  | resolved (returned : Nat) (service : Option Provided)

def resolution (program : ProviderM (Option Provided)) : ProviderM ClientResult := do
  let returned ← providerStep (.start tenantId)
  let service ← program
  pure (.resolved returned service)

def ProviderClient.program : ProviderClient → ProviderM ClientResult
  | .llm tenantId => resolution tenantId (tryGetLlmService registry tenantId)
  | .embedding tenantId => resolution tenantId (tryGetEmbeddingService registry tenantId)
  | .change tenantId config secrets => do
    let change ← providerStep (.change tenantId config secrets)
    invalidateTenant tenantId change
    pure .changed

end

structure ProviderWorld where
  cache : ServiceKind → String → Option CachedEntry := fun _ _ => none
  config : String → Option TenantConfigDocument
  secrets : String → String → Option SecretBytes
  changes : String → Nat := fun _ => 0
  clearedFor : ServiceKind → String → Nat := fun _ _ => 0
  returned : String → Nat := fun _ => 0
  now : Nat := 0
  configError : String → Option String := fun _ => none
  secretError : String → String → Option String := fun _ _ => none

namespace ProviderWorld

def setCache (w : ProviderWorld) (kind : ServiceKind) (tenantId : String) (entry : Option CachedEntry) :
    ProviderWorld :=
  { w with cache := update w.cache kind (update (w.cache kind) tenantId entry) }

def markCleared (w : ProviderWorld) (kind : ServiceKind) (tenantId : String) (change : Nat) : ProviderWorld :=
  { w with
    clearedFor := update w.clearedFor kind
      (update (w.clearedFor kind) tenantId (max (w.clearedFor kind tenantId) change)) }

end ProviderWorld

def providerExec (registry : TenantProviderRegistry) : (c : ProviderCall) → ProviderWorld → c.Answer × ProviderWorld
  | .start tenantId, w => (w.returned tenantId, w)
  | .cacheGet kind tenantId, w =>
    ((w.cache kind tenantId).map (fun entry => (entry.service, registry.cacheTtl < w.now - entry.createdAt)), w)
  | .cacheRemove kind tenantId, w => ((), w.setCache kind tenantId none)
  | .getConfig tenantId, w =>
    (match w.configError tenantId with
      | some e => .error e
      | none => .ok (w.config tenantId, w.changes tenantId), w)
  | .getSecretBytes tenantId name, w =>
    (match w.secretError tenantId name with
      | some e => .error e
      | none => .ok (w.secrets tenantId name), w)
  | .cacheInsert kind tenantId service, w => ((), w.setCache kind tenantId (some { service, createdAt := w.now }))
  | .change tenantId config secrets, w =>
    (w.changes tenantId + 1,
      { w with
        config := update w.config tenantId config
        secrets := update w.secrets tenantId secrets
        changes := update w.changes tenantId (w.changes tenantId + 1) })
  | .clear kind tenantId change, w => ((), (w.setCache kind tenantId none).markCleared kind tenantId change)
  | .cleared tenantId change, w =>
    ((), { w with returned := update w.returned tenantId (max (w.returned tenantId) change) })

end Aeterna.Memory
