import Aeterna.Tenancy.Manifest

namespace Aeterna.Tenancy
open Lib (JsonValue)
open Lib.Deserialize

def readMap {α : Type} (read : Reader α) : Reader (BTreeMap α) := fun value =>
  (readEntries read value).map (Std.ExtTreeMap.ofList ·)

def readOwnership : Reader TenantConfigOwnership := readVariant [("Platform", .platform), ("Tenant", .tenant)]

def readRepositoryKind : Reader RepositoryKind :=
  readVariant [("Local", .local_), ("GitHub", .gitHub), ("GitRemote", .gitRemote)]

def readBranchPolicy : Reader BranchPolicy :=
  readVariant [("DirectCommit", .directCommit), ("RequirePullRequest", .requirePullRequest)]

def readCredentialKind : Reader CredentialKind :=
  readVariant [("None", .none), ("PersonalAccessToken", .personalAccessToken), ("SshKey", .sshKey),
    ("GitHubApp", .gitHubApp)]

def readRecordSource : Reader RecordSource := readVariant [("Admin", .admin), ("Sync", .sync)]

def readRole : Reader RoleIdentifier := fun value =>
  match readVariant (Role.all.map (fun role => (role.debug, role))) value with
  | some role => some (.known role)
  | none => (readString value).map .custom

def readConfigField : Reader TenantConfigField := fun value => do
  let record ← fields ["ownership", "value"] value
  let ownership ← record.required "ownership" readOwnership
  let value ← record.required "value" some
  pure { ownership, value }

section
variable (uuids : UuidParser)

def readReference (record : Fields) : Option SecretReference := do
  let kind ← record.required "kind" (readTag ["inline", "postgres", "env", "file", "k8s", "vault"])
  match kind with
  | "inline" => (record.required "plaintext" readString).map .inline
  | "postgres" => ((record.required "secretId" readString).bind uuids.parse).map .postgres
  | "env" => (record.required "var" readString).map .env
  | "file" => (record.required "path" readString).map .file
  | "k8s" =>
    let name ← record.required "name" readString
    let key ← record.required "key" readString
    let namespace_ ← record.optional "namespace" readString
    pure (.k8s name key namespace_)
  | "vault" =>
    let mount ← record.required "mount" readString
    let path ← record.required "path" readString
    let field ← record.required "field" readString
    pure (.vault mount path field)
  | _ => none

def readSecretReference : Reader TenantSecretReference
  | .object members => do
    let record ← fields [] (.object members)
    let logicalName ← record.required "logicalName" readString
    let ownership ← record.required "ownership" readOwnership
    let reference ← readReference uuids record
    pure { logicalName, ownership, reference }
  | _ => none

def readMetadata : Reader ManifestMetadata := fun value => do
  let record ← fields ["generation", "labels", "annotations"] value
  let generation ← record.optional "generation" readU64
  let labels ← record.withDefault "labels" ∅ (readMap readString)
  let annotations ← record.withDefault "annotations" ∅ (readMap readString)
  pure { generation, labels, annotations }

def readProvider : Reader ManifestProvider := fun value => do
  let record ← fields ["kind", "model", "secretRef", "config"] value
  let kind ← record.required "kind" readString
  let model ← record.optional "model" readString
  let secretRef ← record.optional "secretRef" readString
  let config ← record.withDefault "config" ∅ (readMap readString)
  pure { kind, model, secretRef, config }

def readProviders : Reader ManifestProviders := fun value => do
  let record ← fields ["llm", "embedding", "memoryLayers"] value
  let llm ← record.optional "llm" readProvider
  let embedding ← record.optional "embedding" readProvider
  let memoryLayers ← record.withDefault "memoryLayers" ∅ (readMap readProvider)
  pure { llm, embedding, memoryLayers }

def readTenant : Reader ManifestTenant := fun value => do
  let record ← fields ["slug", "name", "accountRef", "environment", "domainMappings"] value
  let slug ← record.required "slug" readString
  let name ← record.required "name" readString
  let accountRef ← record.optional "accountRef" readString
  let environment ← record.optional "environment" readString
  let domainMappings ← record.optional "domainMappings" (readList readString)
  pure { slug, name, accountRef, environment, domainMappings }

def readConfig : Reader ManifestConfig := fun value => do
  let record ← Lib.Deserialize.fields ["fields", "secretReferences"] value
  let fields ← record.withDefault "fields" ∅ (readMap readConfigField)
  let secretReferences ← record.withDefault "secretReferences" ∅ (readMap (readSecretReference uuids))
  pure { fields, secretReferences }

def readSecret : Reader ManifestSecret := fun value => do
  let record ← fields ["logicalName", "ownership", "secretValue"] value
  let logicalName ← record.required "logicalName" readString
  let ownership ← record.withDefault "ownership" .tenant readOwnership
  let secretValue ← record.required "secretValue" readString
  pure { logicalName, ownership, secretValue }

def readRepository : Reader SetTenantRepositoryBindingRequest := fun value => do
  let record ← fields ["kind", "localPath", "remoteUrl", "branch", "branchPolicy", "credentialKind", "credentialRef",
    "githubOwner", "githubRepo", "sourceOwner", "gitProviderConnectionId"] value
  let kind ← record.required "kind" readRepositoryKind
  let localPath ← record.nullable "localPath" readString
  let remoteUrl ← record.nullable "remoteUrl" readString
  let branch ← record.required "branch" readString
  let branchPolicy ← record.required "branchPolicy" readBranchPolicy
  let credentialKind ← record.required "credentialKind" readCredentialKind
  let credentialRef ← record.nullable "credentialRef" readString
  let githubOwner ← record.nullable "githubOwner" readString
  let githubRepo ← record.nullable "githubRepo" readString
  let sourceOwner ← record.withDefault "sourceOwner" .admin readRecordSource
  let gitProviderConnectionId ← record.nullable "gitProviderConnectionId" readString
  pure { kind, localPath, remoteUrl, branch, branchPolicy, credentialKind, credentialRef, githubOwner, githubRepo,
         sourceOwner, gitProviderConnectionId }

def readMember : Reader ManifestMember := fun value => do
  let record ← fields ["userId", "role"] value
  let userId ← record.required "userId" readString
  let role ← record.required "role" readRole
  pure { userId, role }

def readTeam : Reader ManifestTeam := fun value => do
  let record ← fields ["name", "members"] value
  let name ← record.required "name" readString
  let members ← record.optional "members" (readList readMember)
  pure { name, members }

def readOrg : Reader ManifestOrg := fun value => do
  let record ← fields ["name", "teams", "members"] value
  let name ← record.required "name" readString
  let teams ← record.optional "teams" (readList readTeam)
  let members ← record.optional "members" (readList readMember)
  pure { name, teams, members }

def readAssignment : Reader ManifestRoleAssignment := fun value => do
  let record ← fields ["userId", "role", "unit"] value
  let userId ← record.required "userId" readString
  let role ← record.required "role" readRole
  let unit ← record.nullable "unit" readString
  pure { userId, role, unit }

def readManifest : Reader TenantManifest := fun value => do
  let record ← fields ["apiVersion", "kind", "metadata", "tenant", "config", "secrets", "providers", "repository",
    "hierarchy", "roles"] value
  let apiVersion ← record.required "apiVersion" readString
  let kind ← record.required "kind" readString
  let metadata ← record.optional "metadata" readMetadata
  let tenant ← record.required "tenant" readTenant
  let config ← record.optional "config" (readConfig uuids)
  let secrets ← record.optional "secrets" (readList readSecret)
  let providers ← record.optional "providers" readProviders
  let repository ← record.optional "repository" readRepository
  let hierarchy ← record.optional "hierarchy" (readList readOrg)
  let roles ← record.optional "roles" (readList readAssignment)
  pure { apiVersion, kind, metadata, tenant, config, secrets, providers, repository, hierarchy, roles }

end

def acmeJson (sections : List (String × JsonValue)) : JsonValue :=
  .object ([("apiVersion", .string "aeterna.io/v1"), ("kind", .string "TenantManifest"),
    ("tenant", .object [("slug", .string "acme"), ("name", .string "Acme")])] ++ sections)

end Aeterna.Tenancy
