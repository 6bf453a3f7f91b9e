import Aeterna.Tenancy.Diff
import Aeterna.Tenancy.Rendering
import Aeterna.Tenancy.Units

/-!
The state of a tenant in the form of a manifest (`render_current_manifest` in `cli/src/server/manifest_render.rs`).
-/

namespace Aeterna.Tenancy
open Lib (JsonValue Eff)

def recordJson (members : List (String × Option JsonValue)) : JsonValue :=
  .object (members.filterMap (fun member => member.2.map (member.1, ·)))

def mapJson {V : Type} (f : V → JsonValue) (map : BTreeMap V) : JsonValue :=
  .object (map.toList.map (fun entry => (entry.1, f entry.2)))

def numberJson (n : Int) : JsonValue := .number (toString n)

def nullableJson (text : Option String) : JsonValue := (text.map .string).getD .null

def TenantConfigOwnership.display : TenantConfigOwnership → String
  | .platform => "Platform"
  | .tenant => "Tenant"

def TenantStatus.display : TenantStatus → String
  | .active => "Active"
  | .inactive => "Inactive"

def RepositoryKind.display : RepositoryKind → String
  | .local_ => "Local"
  | .gitHub => "GitHub"
  | .gitRemote => "GitRemote"

def BranchPolicy.display : BranchPolicy → String
  | .directCommit => "DirectCommit"
  | .requirePullRequest => "RequirePullRequest"

def RecordSource.parse (text : String) : Option RecordSource :=
  [RecordSource.admin, .sync].find? (fun source => eqIgnoreAsciiCase text source.display)

def TenantConfigField.toJson (field : TenantConfigField) : JsonValue :=
  recordJson [("ownership", some (.string field.ownership.display)), ("value", some field.value)]

def SecretReference.members : SecretReference → List (String × Option JsonValue)
  | .inline _ => [("kind", some (.string "inline")), ("plaintext", some (.string "<redacted>"))]
  | .postgres secretId => [("kind", some (.string "postgres")), ("secretId", some (.string secretId.text))]
  | .env var => [("kind", some (.string "env")), ("var", some (.string var))]
  | .file path => [("kind", some (.string "file")), ("path", some (.string path))]
  | .k8s name key namespace_ =>
    [("kind", some (.string "k8s")), ("name", some (.string name)), ("key", some (.string key)),
      ("namespace", namespace_.map .string)]
  | .vault mount path field =>
    [("kind", some (.string "vault")), ("mount", some (.string mount)), ("path", some (.string path)),
      ("field", some (.string field))]

structure RenderedMetadata where
  generation : Nat
  manifestHash : Option String

structure RenderedTenant where
  (id slug name status sourceOwner : String)
  (accountRef environment : Option String)
  (createdAt updatedAt : Int)
  domainMappings : Option (List String)

structure RenderedSecretRef where
  logicalName : String
  ownership : TenantConfigOwnership
  reference : List (String × Option JsonValue)

structure RenderedConfig where
  fields : BTreeMap TenantConfigField
  secretReferences : BTreeMap RenderedSecretRef

structure RenderedTeam where
  (slug name : String)

structure RenderedOrg where
  (slug name : String)
  teams : List RenderedTeam

structure RenderedRoleAssignment where
  userId : String
  role : RoleIdentifier
  unit : Option String

structure RenderedManifest where
  apiVersion : String := "aeterna.io/v1"
  kind : String := "TenantManifest"
  metadata : RenderedMetadata
  tenant : RenderedTenant
  config : Option RenderedConfig
  repository : Option JsonValue
  providers : Option RenderedProviders
  hierarchy : Option (List RenderedOrg)
  roles : Option (List RenderedRoleAssignment)
  notRendered : List String := []

def RenderedMetadata.toJson (m : RenderedMetadata) : JsonValue :=
  recordJson [("generation", some (numberJson m.generation)), ("manifestHash", m.manifestHash.map .string)]

def RenderedTenant.toJson (t : RenderedTenant) : JsonValue :=
  recordJson [("id", some (.string t.id)), ("slug", some (.string t.slug)), ("name", some (.string t.name)),
    ("status", some (.string t.status)), ("sourceOwner", some (.string t.sourceOwner)),
    ("accountRef", t.accountRef.map .string), ("environment", t.environment.map .string),
    ("createdAt", some (numberJson t.createdAt)), ("updatedAt", some (numberJson t.updatedAt)),
    ("domainMappings", t.domainMappings.map (fun domains => .array (domains.map .string)))]

def RenderedSecretRef.toJson (r : RenderedSecretRef) : JsonValue :=
  recordJson ([("logicalName", some (.string r.logicalName)), ("ownership", some (.string r.ownership.display))] ++
    r.reference)

def RenderedConfig.toJson (config : RenderedConfig) : JsonValue :=
  recordJson [("fields", some (mapJson TenantConfigField.toJson config.fields)),
    ("secretReferences", some (mapJson RenderedSecretRef.toJson config.secretReferences))]

def RenderedProvider.toJson (p : RenderedProvider) : JsonValue :=
  recordJson [("kind", some (.string p.kind)), ("model", p.model.map .string), ("secretRef", p.secretRef.map .string),
    ("config", if p.config.isEmpty then none else some (mapJson .string p.config))]

def RenderedProviders.toJson (p : RenderedProviders) : JsonValue :=
  recordJson [("llm", p.llm.map (·.toJson)), ("embedding", p.embedding.map (·.toJson)),
    ("memoryLayers", if p.memoryLayers.isEmpty then none else some (mapJson RenderedProvider.toJson p.memoryLayers))]

def RenderedTeam.toJson (team : RenderedTeam) : JsonValue :=
  recordJson [("slug", some (.string team.slug)), ("name", some (.string team.name))]

def RenderedOrg.toJson (org : RenderedOrg) : JsonValue :=
  recordJson [("slug", some (.string org.slug)), ("name", some (.string org.name)),
    ("teams", if org.teams = [] then none else some (.array (org.teams.map (·.toJson))))]

def RenderedRoleAssignment.toJson (assignment : RenderedRoleAssignment) : JsonValue :=
  recordJson [("userId", some (.string assignment.userId)), ("role", some (.string assignment.role.text)),
    ("unit", assignment.unit.map .string)]

def RenderedManifest.toJson (m : RenderedManifest) : JsonValue :=
  recordJson [("apiVersion", some (.string m.apiVersion)), ("kind", some (.string m.kind)),
    ("metadata", some m.metadata.toJson), ("tenant", some m.tenant.toJson), ("config", m.config.map (·.toJson)),
    ("repository", m.repository), ("providers", m.providers.map (·.toJson)),
    ("hierarchy", m.hierarchy.map (fun orgs => .array (orgs.map (·.toJson)))),
    ("roles", m.roles.map (fun roles => .array (roles.map (·.toJson)))),
    ("notRendered", some (.array (m.notRendered.map .string)))]

def redactSecretReferences (references : BTreeMap TenantSecretReference) : BTreeMap RenderedSecretRef :=
  references.values.zipIdx.foldl (fun out (reference, index) =>
    let placeholder := "secret-" ++ toString index
    out.insert placeholder ⟨placeholder, reference.ownership, [("kind", some (.string "redacted"))]⟩) ∅

def renderConfig (doc : TenantConfigDocument) (redact : Bool) : RenderedConfig where
  fields := doc.fields
  secretReferences :=
    if redact then redactSecretReferences doc.secretReferences
    else doc.secretReferences.map (fun _ reference =>
      ⟨reference.logicalName, reference.ownership, reference.reference.members⟩)

def renderRepository (tenantId : Uuid) (binding : TenantRepositoryBinding) (redact : Bool) : JsonValue :=
  .object [("id", .string binding.id.text), ("tenantId", .string tenantId.text),
    ("kind", .string binding.kind.display),
    ("localPath", nullableJson binding.localPath), ("remoteUrl", nullableJson binding.remoteUrl),
    ("branch", .string binding.branch), ("branchPolicy", .string binding.branchPolicy.display),
    ("credentialKind", .string binding.credentialKind.display),
    ("credentialRef", nullableJson (if redact then binding.credentialRef.map (fun _ => "[redacted]")
      else binding.credentialRef)),
    ("gitProviderConnectionId", nullableJson binding.gitProviderConnectionId),
    ("githubOwner", nullableJson binding.githubOwner), ("githubRepo", nullableJson binding.githubRepo),
    ("sourceOwner", .string ((RecordSource.parse binding.sourceOwner).getD .admin).display),
    ("createdAt", .string binding.createdAt.rfc3339), ("updatedAt", .string binding.updatedAt.rfc3339)]

structure UnitRoleRow where
  (userId unitId role : String)
  unitName : Option String

def renderRoles (tenantId : Uuid) (rows : List UnitRoleRow) : List RenderedRoleAssignment :=
  rows.map (fun row =>
    { userId := row.userId
      role := .fromStrFlexible row.role
      unit := if row.unitId = tenantId.text then none else some (row.unitName.getD row.unitId) })

inductive RenderError where
  | notFound (tenantRef : String)
  | storage (message : String)

section
variable (backend : Backend) (env : Surroundings)

def getConfig (tenantId : String) : Eff Session TenantConfigProviderError (Option TenantConfigDocument) := do
  let _ ← Eff.ofExcept (tenantUuid backend.uuids tenantId)
  let s ← Eff.get
  pure s.space.parts.config

def getBinding : Eff Session PostgresError (Option TenantRepositoryBinding) :=
  storeCall env (fun space => .ok (space.parts.binding, space))

def inOrder (texts : List String) : List String := texts.insertionSort (fun a b => backend.collates a b)

def listDomainMappings (tenantRef : String) : Eff Session PostgresError (List String) := do
  match ← getTenant env with
  | none => .fail (.notFound ("tenant not found: " ++ tenantRef))
  | some _ => storeCall env (fun space => .ok (inOrder backend space.domains.keys, space))

def entriesInOrder {V : Type} (map : BTreeMap V) : List (String × V) :=
  map.toList.insertionSort (fun a b => backend.collates a.1 b.1)

def getHierarchy : Eff Session PostgresError (List RenderedOrg) :=
  storeCall env (fun space =>
    let orgs := (entriesInOrder backend space.parts.organizations).map (fun org =>
      ⟨org.1, org.2.name, (entriesInOrder backend org.2.teams).map (fun team => ⟨team.1, team.2.name⟩)⟩)
    .ok (orgs, space))

def hierarchyUnits (parts : TenantParts) : List (String × String) :=
  parts.organizations.values.flatMap (fun org =>
    (org.id.text, org.name) :: org.teams.values.map (fun team => (team.id.text, team.name)))

def unitNameOf (parts : TenantParts) (unitId : String) : Option String :=
  ((hierarchyUnits parts).lookup unitId).or ((parts.units.find? (·.id = unitId)).map (·.name))

def UnitRoleRow.before (a b : UnitRoleRow) : Bool :=
  if a.userId ≠ b.userId then backend.collates a.userId b.userId
  else if a.unitId ≠ b.unitId then backend.collates a.unitId b.unitId
  else backend.collates a.role b.role

def getRoleRows (tenantId : Uuid) : Eff Session PostgresError (List UnitRoleRow) :=
  storeCall env (fun space =>
    let rows := (space.parts.userRoles.filter (·.tenantId = tenantId.text)).map (fun row =>
      (⟨row.userId, row.unitId, row.role, unitNameOf space.parts row.unitId⟩ : UnitRoleRow))
    .ok (rows.insertionSort (fun a b => a.before backend b), space))

def someUnlessEmpty {α : Type} : List α → Option (List α)
  | [] => none
  | items => some items

def renderCurrentManifest (slug : String) (redact : Bool) : Eff Session RenderError RenderedManifest := do
  match ← (getTenant env).mapError (fun e => .storage e.display) with
  | none => .fail (.notFound slug)
  | some record =>
    let (hash, generation) ← (getManifestState env slug).mapError (fun e => .storage e.display)
    let config ← (getConfig backend record.id.text).mapError (fun e => .storage e.display)
    let binding ← (getBinding env).mapError (fun e => .storage e.display)
    let domains ← (listDomainMappings backend env slug).mapError (fun e => .storage e.display)
    let hierarchy ← (getHierarchy backend env).mapError (fun e => .storage e.display)
    let roles ← (getRoleRows backend env record.id).mapError (fun e => .storage e.display)
    pure
      { metadata := ⟨generation.toNat, hash⟩
        tenant :=
          { id := record.id.text, slug, name := record.name, status := record.status.display
            sourceOwner := record.sourceOwner.display, accountRef := record.account.map (·.slug)
            environment := record.environment, createdAt := record.createdAt.timestamp
            updatedAt := record.updatedAt.timestamp, domainMappings := someUnlessEmpty domains }
        config := config.map (fun doc => renderConfig doc redact)
        repository := binding.map (fun b => renderRepository record.id b redact)
        providers := config.bind (fun doc => renderProviders doc.fields doc.secretReferences redact)
        hierarchy := someUnlessEmpty hierarchy
        roles := (someUnlessEmpty roles).map (renderRoles record.id) }

end

end Aeterna.Tenancy
