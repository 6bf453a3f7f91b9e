import Aeterna.Tenancy.Fingerprint
import Aeterna.Tenancy.Parsing
import Aeterna.Tenancy.Units

/-!
The provisioning of a tenant from a manifest (`provision_tenant` in `cli/src/server/tenant_api.rs`).
-/

namespace Aeterna.Tenancy
open Lib (JsonValue Eff)

structure ProvisionStep where
  step : String
  detail : Option String := none
  ok : Bool
  error : Option String := none
  deriving DecidableEq

namespace ProvisionStep

def passed (step detail : String) : ProvisionStep := { step, detail := some detail, ok := true }

def failed (step error : String) : ProvisionStep := { step, ok := false, error := some error }

def ofErrors (step detail : String) (errors : List String) : ProvisionStep :=
  if errors = [] then passed step detail else failed step ("; ".intercalate errors)

@[simp] theorem ofErrors_ok {step detail : String} {errors : List String} :
    (ofErrors step detail errors).ok = true ↔ errors = [] := by
  unfold ofErrors
  split <;> simp_all [passed, failed]

end ProvisionStep

structure ProvisionQuery where
  dryRun : Bool := false
  allowInline : Bool := false

structure ProvisionPlan where
  (status slug incomingHash : String)
  currentHash : Option String
  (currentGeneration nextGeneration : Int)
  (configFieldCount secretReferenceCount : Nat)
  (hasRepositoryBinding hasDomainMappings hasHierarchy hasRoles hasProviders : Bool)
  deriving DecidableEq

inductive ProvisionResponse where
  | parseFailed
  | validationFailed (errors : List String)
  | inlineSecretNotAllowed (offending : List String) (serverFlag queryFlag : Bool)
  | stateReadFailed (details : String)
  | unchanged (slug hash : String) (generation : Int) (dryRun : Bool)
  | generationConflict (slug : String) (current : Int) (submitted : UInt64)
  | planned (plan : ProvisionPlan)
  | tenantFailed (steps : List ProvisionStep)
  | accountNotFound (accountRef : String) (steps : List ProvisionStep)
  | storeFailed (error details : String)
  | finished (tenantId : Uuid) (slug hash : String) (generation : Int) (steps : List ProvisionStep)
  deriving DecidableEq

namespace ProvisionResponse

def statusCode : ProvisionResponse → Nat
  | parseFailed | tenantFailed _ => 400
  | validationFailed _ | inlineSecretNotAllowed .. => 422
  | stateReadFailed _ | storeFailed .. => 500
  | generationConflict .. => 409
  | accountNotFound .. => 404
  | unchanged .. | planned _ => 200
  | finished _ _ _ _ steps => if steps.all (·.ok) then 200 else 207

def applied : ProvisionResponse → Bool
  | finished _ _ _ _ steps => steps.all (·.ok)
  | _ => false

def isPartial : ProvisionResponse → Bool
  | finished _ _ _ _ steps => !steps.all (·.ok)
  | _ => false

def isUnchanged : ProvisionResponse → Bool
  | unchanged .. => true
  | _ => false

end ProvisionResponse

section
variable (backend : Backend)

def inlineSecrets (m : TenantManifest) : List ManifestSecret :=
  (m.secrets.getD []).filter (fun s => s.secretValue ≠ "")

def checkManifest (query : ProvisionQuery) (raw : JsonValue) : Except ProvisionResponse TenantManifest :=
  match readManifest backend.uuids raw with
  | none => .error .parseFailed
  | some m =>
    if validateManifest m ≠ [] then .error (.validationFailed (validateManifest m))
    else if inlineSecrets m ≠ [] ∧ ¬ (backend.allowInlineSecret ∧ query.allowInline) then
      .error (.inlineSecretNotAllowed
        ((inlineSecrets m).map (·.logicalName)) backend.allowInlineSecret query.allowInline)
    else .ok m

/-- `get_manifest_state`, which has nothing of a tenant that is not there. -/
def readPriorState (env : Surroundings) (slug : String) :
    Eff Session ProvisionResponse (Option (Option String × Int)) := do
  match ← (getManifestState env slug).outcome with
  | .ok state => pure (some state)
  | .error (.notFound _) => pure none
  | .error e => .fail (.stateReadFailed e.display)

def i64Max : Int := 2 ^ 63 - 1

def provisionPlan (m : TenantManifest) (hash : String) (prior : Option (Option String × Int)) (next : Int) :
    ProvisionPlan where
  status := if prior.isNone then "create" else "update"
  slug := m.tenant.slug
  incomingHash := hash
  currentHash := prior.bind (·.1)
  currentGeneration := (prior.map (·.2)).getD 0
  nextGeneration := next
  configFieldCount := m.fields.size
  secretReferenceCount := m.secretReferences.size
  hasRepositoryBinding := m.repository.isSome
  hasDomainMappings := m.tenant.domainMappings.any (fun domains => !domains.isEmpty)
  hasHierarchy := m.hierarchy.any (fun orgs => !orgs.isEmpty)
  hasRoles := m.roles.any (fun roles => !roles.isEmpty)
  hasProviders := m.providers.isSome

def callerGeneration (m : TenantManifest) : Option UInt64 := m.metadata.bind (·.generation)

def nextGeneration (m : TenantManifest) (current : Int) : Except ProvisionResponse Int :=
  match callerGeneration m with
  | some g =>
    if g.toInt64.toInt ≤ current then .error (.generationConflict m.tenant.slug current g) else .ok g.toInt64.toInt
  | none => .ok (min (current + 1) i64Max)

def gate (query : ProvisionQuery) (m : TenantManifest) (hash : String) (prior : Option (Option String × Int)) :
    Except ProvisionResponse Int := do
  let current := (prior.map (·.2)).getD 0
  if prior.bind (·.1) = some hash then .error (.unchanged m.tenant.slug hash current query.dryRun)
  else
    let generation ← nextGeneration m current
    if query.dryRun then .error (.planned (provisionPlan m hash prior generation)) else .ok generation

end

/-- A part of a request that goes on whatever its calls return. -/
abbrev Steady (α : Type) : Type := Eff Session Empty α

section
variable (backend : Backend) (env : Surroundings) (m : TenantManifest)

def ensureTenantStep : Eff Session ProvisionResponse TenantRow := do
  let record ← (ensureTenantWithSource env m.tenant.slug .admin).mapError
    (fun e => .tenantFailed [.failed "tenant" e.display])
  let account ← (match m.tenant.accountRef with
    | none => pure none
    | some accountRef => do
      match ← (storeCall env (fun space => .ok (env.account accountRef, space))).mapError
          (fun e => .storeFailed "account_lookup_failed" e.display) with
      | some account => pure (some account)
      | none =>
        .fail (.accountNotFound accountRef [.failed "tenant" ("accountRef '" ++ accountRef ++ "' not found")]))
  let updated ← (updateTenant env m.tenant.name m.tenant.environment).mapError
    (fun e => .storeFailed "tenant_update_failed" e.display)
  match account with
  | none => pure (updated.getD record)
  | some account =>
    let attached ← (attachAccount env account).mapError
        (fun e => .storeFailed "tenant_account_attach_failed" e.display)
    pure (attached.getD (updated.getD record))

def errorOf {ε : Type} (words : ε → String) (x : Eff Session ε Unit) : Steady (List String) := do
  match ← x.outcome with
  | .ok () => pure []
  | .error e => pure [words e]

variable (tenantId : Uuid)

def domainsStep : Steady (List ProvisionStep) :=
  match m.tenant.domainMappings with
  | none => pure []
  | some domains => do
    let errors ← Eff.gather (fun domain =>
      errorOf (fun e => domain ++ ": " ++ PostgresError.display e)
        (addVerifiedDomainMapping env backend tenantId.text domain)) domains
    pure [.ofErrors "domain_mappings" (toString domains.length ++ " domain(s) mapped") errors]

def writesConfig (doc : TenantConfigDocument) : Bool :=
  (m.config.isSome || m.providers.isSome) && (!doc.fields.isEmpty || !doc.secretReferences.isEmpty)

def configStep : Steady (List ProvisionStep) :=
  let doc := m.configDocument tenantId.text
  if writesConfig m doc then do
    match ← (upsertConfig backend doc).outcome with
    | .ok config => pure [.passed "config" (toString config.fields.size ++ " field(s) applied")]
    | .error e => pure [.failed "config" e.display]
  else pure []

def secretsStep : Steady (List ProvisionStep) :=
  match m.secrets with
  | none => pure []
  | some secrets => do
    let errors ← Eff.gather (fun secret =>
      errorOf (fun e => secret.logicalName ++ ": " ++ TenantConfigProviderError.display e)
        (setSecretEntry env backend tenantId.text secret)) secrets
    pure [.ofErrors "secrets" (toString secrets.length ++ " secret(s) stored") errors]

def connectionAllowed (repo : SetTenantRepositoryBindingRequest) : Except String Unit :=
  match repo.gitProviderConnectionId with
  | none => .ok ()
  | some connection =>
    match env.tenantCanUse connection with
    | .ok true => .ok ()
    | .ok false => .error ("Tenant '" ++ tenantId.text ++ "' is not in the allow-list for connection '" ++
        connection ++ "'")
    | .error e => .error e

def repositoryStep : Steady (List ProvisionStep) :=
  match m.repository with
  | none => pure []
  | some repo =>
    match repo.validateCredentialRef, connectionAllowed env tenantId repo with
    | .error reason, _ => pure [.failed "repository" ("invalid_credential_ref: " ++ reason)]
    | .ok (), .error message => pure [.failed "repository" message]
    | .ok (), .ok () => do
      match ← (upsertBinding env repo).outcome with
      | .ok binding => pure [.passed "repository" ("binding id=" ++ binding.id.text)]
      | .error e => pure [.failed "repository" e.display]

def assignMember (place unitId : String) (member : ManifestMember) : Steady (List String) :=
  match UserId.new member.userId with
  | none => pure [place ++ " member: invalid user_id '" ++ member.userId ++ "'"]
  | some userId =>
    errorOf (fun e => place ++ " member '" ++ member.userId ++ "': " ++ PostgresError.display e)
      (assignRoleScoped env backend tenantId.text userId unitId member.role)

def withUnit (place name : String) (unitType : UnitType) (parentId : Option String)
    (next : String → Steady (List String)) : Steady (List String) := do
  let s ← Eff.get
  let id := (env.newUnitId s.calls).text
  match ← (createUnitScoped env id name unitType parentId).outcome with
  | .ok () => next id
  | .error e => pure [place ++ ": " ++ e.display]

def provisionTeam (orgId : String) (team : ManifestTeam) : Steady (List String) :=
  let place := "team '" ++ team.name ++ "'"
  withUnit env place team.name .team (some orgId) (fun teamId =>
    Eff.gather (assignMember backend env tenantId place teamId) (team.members.getD []))

def provisionOrg (org : ManifestOrg) : Steady (List String) :=
  let place := "org '" ++ org.name ++ "'"
  withUnit env place org.name .organization none (fun orgId => do
    let members ← Eff.gather (assignMember backend env tenantId place orgId) (org.members.getD [])
    let teams ← Eff.gather (provisionTeam backend env tenantId orgId) (org.teams.getD [])
    pure (members ++ teams))

def hierarchyStep : Steady (List ProvisionStep) :=
  match m.hierarchy with
  | none => pure []
  | some orgs => do
    let errors ← Eff.gather (provisionOrg backend env tenantId) orgs
    -- without an error, each unit was made
    let units := orgs.length + (orgs.map (fun org => (org.teams.getD []).length)).sum
    match ← (upsertHierarchy env (orgs.map ManifestOrg.input)).outcome with
    | .ok summary =>
      pure [.ofErrors "hierarchy" (toString units ++ " unit(s) created (modern: " ++ toString summary.orgsUpserted ++
        " orgs, " ++ toString summary.teamsUpserted ++ " teams)") errors]
    | .error e => pure [.ofErrors "hierarchy" "" (errors ++ ["modern hierarchy upsert: " ++ e.display])]

def assignToUnit (assignment : ManifestRoleAssignment) (userId unitId : String) : Steady (List String) :=
  errorOf (fun e => "user '" ++ assignment.userId ++ "' on unit '" ++ unitId ++ "': " ++ PostgresError.display e)
    (assignRoleScoped env backend tenantId.text userId unitId assignment.role)

def assignDeclared (assignment : ManifestRoleAssignment) : Steady (List String) :=
  match UserId.new assignment.userId, assignment.unit with
  | none, _ => pure ["invalid user_id '" ++ assignment.userId ++ "'"]
  | some userId, none => assignToUnit backend env tenantId assignment userId tenantId.text
  | some userId, some unitRef => do
    match ← (getUnitScoped env unitRef).outcome with
    | .ok (some unit) => assignToUnit backend env tenantId assignment userId unit.id
    | .ok none => pure ["unit '" ++ unitRef ++ "' not found for user '" ++ assignment.userId ++ "'"]
    | .error e => pure ["unit '" ++ unitRef ++ "' lookup error: " ++ e.display]

def rolesStep : Steady (List ProvisionStep) :=
  match m.roles with
  | none => pure []
  | some assignments => do
    let errors ← Eff.gather (assignDeclared backend env tenantId) assignments
    pure [.ofErrors "roles" (toString assignments.length ++ " role(s) assigned") errors]

def applySteps : Steady (List ProvisionStep) := do
  let domains ← domainsStep backend env m tenantId
  let config ← configStep backend m tenantId
  let secrets ← secretsStep backend env m tenantId
  let repository ← repositoryStep env m tenantId
  let hierarchy ← hierarchyStep backend env m tenantId
  let roles ← rolesStep backend env m tenantId
  pure (domains ++ config ++ secrets ++ repository ++ hierarchy ++ roles)

def tenantStep (row : TenantRow) : ProvisionStep :=
  .passed "tenant" ("Tenant '" ++ m.tenant.slug ++ "' ensured (id=" ++ row.id.text ++ ")")

def runPipeline : Eff Session ProvisionResponse (Uuid × List ProvisionStep) := do
  let row ← ensureTenantStep env m
  let steps ← (applySteps backend env m row.id).mapError Empty.elim
  pure (row.id, tenantStep m row :: steps)

def persistStep (hash : String) (generation : Int) (steps : List ProvisionStep) : Steady (List ProvisionStep) :=
  if steps.all (·.ok) then do
    match ← (setManifestState env m.tenant.slug hash generation).outcome with
    | .ok () =>
      pure (steps ++ [.passed "manifest_state" ("hash=" ++ hash ++ " generation=" ++ toString generation)])
    | .error e =>
      pure (steps ++ [.failed "manifest_state" ("failed to persist manifest fingerprint: " ++ e.display)])
  else pure steps

end

section
variable (backend : Backend) (env : Surroundings)

def provision (query : ProvisionQuery) (raw : JsonValue) : Eff Session ProvisionResponse ProvisionResponse := do
  let m ← Eff.ofExcept (checkManifest backend query raw)
  let hash := hashManifestValue backend.digest raw
  let prior ← readPriorState env m.tenant.slug
  let generation ← Eff.ofExcept (gate query m hash prior)
  let (tenantId, steps) ← runPipeline backend env m
  let steps ← (persistStep env m hash generation steps).mapError Empty.elim
  pure (.finished tenantId m.tenant.slug hash generation steps)

/-- The answer to a request, and the tenant after it. -/
def provisionTenant (query : ProvisionQuery) (raw : JsonValue) (space : TenantSpace) :
    ProvisionResponse × TenantSpace :=
  match provision backend env query raw { space } with
  | (.ok response, s) => (response, s.space)
  | (.error response, s) => (response, s.space)

end

end Aeterna.Tenancy
