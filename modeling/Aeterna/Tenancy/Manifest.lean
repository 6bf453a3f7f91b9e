import Aeterna.Access.Entities
import Aeterna.Access.Identity
import Aeterna.Lib.JsonValue

/-!
The manifest that declares a tenant, and its validation before an apply (`cli/src/server/tenant_api.rs`).
-/

namespace Aeterna.Tenancy
open Lib (JsonValue)

/-- A `BTreeMap` whose keys are texts. -/
abbrev BTreeMap (V : Type) : Type := Std.ExtTreeMap String V

inductive TenantConfigOwnership where
  | platform | tenant
  deriving DecidableEq, Repr

structure TenantConfigField where
  ownership : TenantConfigOwnership
  value : JsonValue

inductive SecretReference where
  | inline (plaintext : String)
  | postgres (secretId : Uuid)
  | env (var : String)
  | file (path : String)
  | k8s (name key : String) (namespace_ : Option String)
  | vault (mount path field : String)
  deriving DecidableEq

structure TenantSecretReference where
  logicalName : String
  ownership : TenantConfigOwnership
  reference : SecretReference
  deriving DecidableEq

structure TenantConfigDocument where
  tenantId : String
  fields : BTreeMap TenantConfigField := ∅
  secretReferences : BTreeMap TenantSecretReference := ∅

inductive RepositoryKind where
  | local_ | gitHub | gitRemote
  deriving DecidableEq, Repr

inductive BranchPolicy where
  | directCommit | requirePullRequest
  deriving DecidableEq, Repr

inductive CredentialKind where
  | none | personalAccessToken | sshKey | gitHubApp
  deriving DecidableEq, Repr

inductive RecordSource where
  | admin | sync
  deriving DecidableEq, Repr

structure SetTenantRepositoryBindingRequest where
  kind : RepositoryKind
  localPath : Option String := none
  remoteUrl : Option String := none
  branch : String
  branchPolicy : BranchPolicy
  credentialKind : CredentialKind
  credentialRef : Option String := none
  githubOwner : Option String := none
  githubRepo : Option String := none
  sourceOwner : RecordSource := .admin
  gitProviderConnectionId : Option String := none
  deriving DecidableEq

structure ManifestMetadata where
  generation : Option UInt64 := none
  labels : BTreeMap String := ∅
  annotations : BTreeMap String := ∅

structure ManifestProvider where
  kind : String
  model : Option String := none
  secretRef : Option String := none
  config : BTreeMap String := ∅

structure ManifestProviders where
  llm : Option ManifestProvider := none
  embedding : Option ManifestProvider := none
  memoryLayers : BTreeMap ManifestProvider := ∅

structure ManifestTenant where
  (slug name : String)
  accountRef : Option String := none
  environment : Option String := none
  domainMappings : Option (List String) := none

structure ManifestConfig where
  fields : BTreeMap TenantConfigField := ∅
  secretReferences : BTreeMap TenantSecretReference := ∅

structure ManifestSecret where
  logicalName : String
  ownership : TenantConfigOwnership := .tenant
  secretValue : String

structure ManifestMember where
  userId : String
  role : RoleIdentifier

structure ManifestTeam where
  name : String
  members : Option (List ManifestMember) := none

structure ManifestOrg where
  name : String
  teams : Option (List ManifestTeam) := none
  members : Option (List ManifestMember) := none

structure ManifestRoleAssignment where
  userId : String
  role : RoleIdentifier
  unit : Option String := none

structure TenantManifest where
  apiVersion : String := "aeterna.io/v1"
  kind : String := "TenantManifest"
  metadata : Option ManifestMetadata := none
  tenant : ManifestTenant
  config : Option ManifestConfig := none
  secrets : Option (List ManifestSecret) := none
  providers : Option ManifestProviders := none
  repository : Option SetTenantRepositoryBindingRequest := none
  hierarchy : Option (List ManifestOrg) := none
  roles : Option (List ManifestRoleAssignment) := none

namespace TenantManifest
variable (m : TenantManifest)

def fields : BTreeMap TenantConfigField := (m.config.map (·.fields)).getD ∅

def secretReferences : BTreeMap TenantSecretReference := (m.config.map (·.secretReferences)).getD ∅

end TenantManifest

def isBlank (text : String) : Bool := trimText text = ""

def errorIf (applies : Bool) (message : String) : List String := if applies then [message] else []

@[simp] theorem errorIf_eq_nil {applies : Bool} {message : String} : errorIf applies message = [] ↔
  applies = false := by
  cases applies <;> simp [errorIf]

def isAsciiLowercase (c : Char) : Bool := 'a' ≤ c ∧ c ≤ 'z'

def isAsciiDigit (c : Char) : Bool := '0' ≤ c ∧ c ≤ '9'

def isValidMemoryLayerKey (layer : String) : Bool :=
  match layer.toList with
  | [] => false
  | first :: rest =>
    layer.utf8ByteSize ≤ 63 && isAsciiLowercase first &&
      rest.all (fun c => isAsciiLowercase c || isAsciiDigit c || c == '_' || c == '-')

def validateSlug (slug : String) : List String :=
  if slug = "" then ["tenant.slug is required and must not be empty"]
  else errorIf (!slug.toList.all (fun c => isAsciiLowercase c || isAsciiDigit c || c == '-') ||
      slug.toList.head? == some '-' || slug.toList.getLast? == some '-')
    ("tenant.slug '" ++ slug ++
      "' must be kebab-case (lowercase letters, digits, hyphens; no leading/trailing hyphens)")

def validateOrg (org : ManifestOrg) : List String :=
  errorIf (isBlank org.name) "hierarchy org name must not be empty" ++
    (org.teams.getD []).flatMap (fun team => errorIf (isBlank team.name) "hierarchy team name must not be empty")

def validateAssignment (assignment : ManifestRoleAssignment) : List String :=
  errorIf (isBlank assignment.userId) "roles[].userId must not be empty" ++
    errorIf (assignment.role == .known .platformAdmin)
      "PlatformAdmin cannot be assigned as a tenant-scoped role in a manifest"

def checkProvider (slot : String) (p : ManifestProvider) (declaredRefs : List String) : List String :=
  errorIf (isBlank p.kind) ("providers." ++ slot ++ ".kind must not be empty") ++
    match p.secretRef with
    | none => []
    | some name =>
      errorIf (name ∉ declaredRefs)
        ("providers." ++ slot ++ ".secretRef '" ++ name ++
          "' does not resolve in config.secretReferences (declared: " ++
          (if declaredRefs = [] then "none" else ", ".intercalate declaredRefs) ++ ")")

def checkLayer (declaredRefs : List String) (layer : String) (p : ManifestProvider) : List String :=
  (if isBlank layer then ["providers.memoryLayers has an entry with an empty key"]
   else errorIf (!isValidMemoryLayerKey layer)
    ("providers.memoryLayers key '" ++ layer ++ "' is invalid: must match [a-z][a-z0-9_-]\x7b0,62\x7d " ++
      "(lowercase, 1–63 chars, starts with a letter, no dots)")) ++
    checkProvider ("memoryLayers." ++ layer) p declaredRefs

def validateProviders (declaredRefs : List String) (providers : ManifestProviders) : List String :=
  (providers.llm.map (checkProvider "llm" · declaredRefs)).getD [] ++
    (providers.embedding.map (checkProvider "embedding" · declaredRefs)).getD [] ++
    providers.memoryLayers.toList.flatMap (fun entry => checkLayer declaredRefs entry.1 entry.2)

def validateReference (name : String) : SecretReference → List String
  | .inline plaintext =>
    errorIf (plaintext = "") ("config.secretReferences." ++ name ++ ": inline plaintext must not be empty")
  | .postgres _ => []
  | .env var =>
    if isBlank var then ["config.secretReferences." ++ name ++ ".var must not be empty"]
    else errorIf ('=' ∈ var.toList || '\x00' ∈ var.toList)
      ("config.secretReferences." ++ name ++ ".var must not contain '=' or null bytes")
  | .file path =>
    if isBlank path then ["config.secretReferences." ++ name ++ ".path must not be empty"]
    else errorIf (path.toList.head? != some '/')
      ("config.secretReferences." ++ name ++ ".path must be absolute (start with '/')")
  | .k8s secret key namespace_ =>
    errorIf (isBlank secret) ("config.secretReferences." ++ name ++ ".name must not be empty") ++
      errorIf (isBlank key) ("config.secretReferences." ++ name ++ ".key must not be empty") ++
      errorIf (namespace_.any isBlank) ("config.secretReferences." ++ name ++
        ".namespace, when set, must not be empty (omit to use the server's namespace)")
  | .vault mount path field =>
    [("mount", mount), ("path", path), ("field", field)].flatMap (fun (label, value) =>
      errorIf (isBlank value) ("config.secretReferences." ++ name ++ "." ++ label ++ " must not be empty"))

def validateEntry (name : String) (entry : TenantSecretReference) : List String :=
  errorIf (isBlank name) "config.secretReferences has an entry with an empty key" ++
    errorIf (isBlank entry.logicalName) ("config.secretReferences." ++ name ++ ".logicalName must not be empty") ++
    validateReference name entry.reference

def validateManifest (m : TenantManifest) : List String :=
  errorIf (m.apiVersion ≠ "aeterna.io/v1") ("apiVersion must be 'aeterna.io/v1', got '" ++ m.apiVersion ++ "'") ++
    errorIf (m.kind ≠ "TenantManifest") ("kind must be 'TenantManifest', got '" ++ m.kind ++ "'") ++
    validateSlug m.tenant.slug ++
    errorIf (isBlank m.tenant.name) "tenant.name is required and must not be empty" ++
    (m.hierarchy.getD []).flatMap validateOrg ++
    (m.roles.getD []).flatMap validateAssignment ++
    (m.providers.map (validateProviders m.secretReferences.keys)).getD [] ++
    errorIf (m.metadata.any (fun meta_ => meta_.generation == some 0))
      "metadata.generation must be >= 1 when set (use omit for auto-assign)" ++
    m.secretReferences.toList.flatMap (fun entry => validateEntry entry.1 entry.2)

end Aeterna.Tenancy

/-!
The config document of a tenant: what a provider accepts of it (`storage/src/tenant_config_provider.rs`), and how
the providers of a manifest are flattened into it (`apply_manifest_providers_to_config`).
-/

namespace Aeterna.Tenancy
open Lib (JsonValue)

def secretNeedles : List String := ["secret", "password", "token", "api_key", "private_key"]

def suspiciousKey (fieldName : String) : Bool :=
  secretNeedles.any (containsText (String.ofList (asciiLower fieldName)))

mutual

def valueContainsRawSecretMaterial (fieldName : String) : JsonValue → Bool
  | .object fields => fieldsContainRawSecretMaterial fieldName fields
  | .array items => itemsContainRawSecretMaterial fieldName items
  | .string text => suspiciousKey fieldName && !isBlank text
  | _ => false

def fieldsContainRawSecretMaterial (fieldName : String) : List (String × JsonValue) → Bool
  | [] => false
  | (key, value) :: rest =>
    valueContainsRawSecretMaterial (fieldName ++ "." ++ key) value || fieldsContainRawSecretMaterial fieldName rest

def itemsContainRawSecretMaterial (fieldName : String) : List JsonValue → Bool
  | [] => false
  | value :: rest => valueContainsRawSecretMaterial fieldName value || itemsContainRawSecretMaterial fieldName rest

end

def containsRawSecretMaterial (fields : BTreeMap TenantConfigField) : Bool :=
  fields.toList.any (fun entry => valueContainsRawSecretMaterial entry.1 entry.2.value)

/-- The reading of UUIDs, which takes the text of one back to it. -/
structure UuidParser where
  parse : String → Option Uuid
  parse_text : ∀ id : Uuid, parse id.text = some id

inductive TenantConfigProviderError where
  | invalidTenantId (tenantId : String)
  | validation (message : String)
  | secret (message : String)
  deriving DecidableEq

def validateSecretName (name : String) (reference : TenantSecretReference) : Except TenantConfigProviderError Unit :=
  if name ≠ reference.logicalName then
    .error (.validation ("secret reference key '" ++ name ++ "' must match logical_name '" ++
      reference.logicalName ++ "'"))
  else if isBlank reference.logicalName then .error (.validation "secret reference logical_name must not be empty")
  else .ok ()

def tenantUuid (uuids : UuidParser) (tenantId : String) : Except TenantConfigProviderError Uuid :=
  match uuids.parse tenantId with
  | some id => .ok id
  | none => .error (.invalidTenantId tenantId)

namespace TenantConfigDocument

def validate (uuids : UuidParser) (config : TenantConfigDocument) : Except TenantConfigProviderError Unit := do
  let _ ← tenantUuid uuids config.tenantId
  if containsRawSecretMaterial config.fields then
    throw (.validation "config payload contains raw secret material in non-secret fields")
  config.secretReferences.toList.forM (fun entry => validateSecretName entry.1 entry.2)

end TenantConfigDocument

/-- The config maps of the tenants, by name. -/
abbrev ConfigMaps : Type := HashMap String TenantConfigDocument

def configMapName (tenantId : String) : String := "aeterna-tenant-" ++ tenantId

def ConfigMaps.upsertConfig (uuids : UuidParser) (maps : ConfigMaps) (config : TenantConfigDocument) :
    Except TenantConfigProviderError ConfigMaps := do
  config.validate uuids
  pure (maps.insert (configMapName config.tenantId) config)

inductive Slot where
  | llm | embedding
  | layer (name : String)
  deriving DecidableEq

namespace Slot

def lead : Slot → String
  | llm => "llm_"
  | embedding => "embedding_"
  | layer name => "memory_layer." ++ name ++ "."

def key (slot : Slot) (suffix : String) : String := slot.lead ++ suffix

/-- The canonical name of the provider's secret. -/
def apiKey (slot : Slot) : String := slot.key "api_key"

end Slot

def ManifestProviders.slots (providers : ManifestProviders) : List (Slot × ManifestProvider) :=
  (providers.llm.map (Slot.llm, ·)).toList ++ (providers.embedding.map (Slot.embedding, ·)).toList ++
    providers.memoryLayers.toList.map (fun entry => (Slot.layer entry.1, entry.2))

def ManifestProvider.setting (provider : ManifestProvider) : String → Option String
  | "provider" => some provider.kind
  | "model" => provider.model
  | "google_project_id" => if provider.kind = "google" then provider.config["projectId"]? else none
  | "google_location" => if provider.kind = "google" then provider.config["location"]? else none
  | "bedrock_region" => if provider.kind = "bedrock" then provider.config["region"]? else none
  | _ => none

namespace ManifestProvider
variable (p : ManifestProvider)

@[simp] theorem setting_provider : p.setting "provider" = some p.kind := rfl

@[simp] theorem setting_model : p.setting "model" = p.model := rfl

@[simp] theorem setting_projectId :
    p.setting "google_project_id" = if p.kind = "google" then p.config["projectId"]? else none := rfl

@[simp] theorem setting_location :
    p.setting "google_location" = if p.kind = "google" then p.config["location"]? else none := rfl

@[simp] theorem setting_region :
    p.setting "bedrock_region" = if p.kind = "bedrock" then p.config["region"]? else none := rfl

end ManifestProvider

def settingSuffixes : List String := ["provider", "model", "google_project_id", "google_location", "bedrock_region"]

def platformField (text : String) : TenantConfigField := ⟨.platform, .string text⟩

def Slot.writes (slot : Slot) (provider : ManifestProvider) : List (String × TenantConfigField) :=
  settingSuffixes.filterMap (fun suffix =>
    (provider.setting suffix).map (fun value => (slot.key suffix, platformField value)))

namespace TenantConfigDocument

variable (doc : TenantConfigDocument)

def aliasSecret (canonical : String) (secretRef : Option String) : TenantConfigDocument :=
  match secretRef.bind (doc.secretReferences[·]?) with
  | some source => { doc with secretReferences := doc.secretReferences.insert canonical source }
  | none => doc

def applyOne (slot : Slot) (provider : ManifestProvider) : TenantConfigDocument :=
  { doc with fields := doc.fields.insertMany (slot.writes provider) }.aliasSecret slot.apiKey provider.secretRef

def applyManifestProviders (providers : ManifestProviders) : TenantConfigDocument :=
  providers.slots.foldl (fun doc entry => doc.applyOne entry.1 entry.2) doc

end TenantConfigDocument

def TenantManifest.declaredConfig (m : TenantManifest) (tenantId : String) : TenantConfigDocument :=
  { tenantId, fields := m.fields, secretReferences := m.secretReferences }

def TenantManifest.configDocument (m : TenantManifest) (tenantId : String) : TenantConfigDocument :=
  match m.providers with
  | some providers => (m.declaredConfig tenantId).applyManifestProviders providers
  | none => m.declaredConfig tenantId

end Aeterna.Tenancy
