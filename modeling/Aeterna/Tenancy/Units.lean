import Aeterna.Tenancy.Space
import Mathlib.Algebra.Order.Ring.Int

/-!
The repository binding, the units and the roles of a tenant (`storage/src/tenant_store.rs`, `storage/src/postgres.rs`,
`storage/src/hierarchy_store.rs`).
-/

namespace Aeterna.Tenancy
open Lib (JsonValue Eff)

def isSecretReference (value : String) : Bool :=
  ["local/", "secret/", "arn:aws:"].any (fun lead => (afterLeading lead value).isSome)

def splitThree (text : String) : Option (String × String × String) :=
  match splitScope text with
  | (first, some rest) =>
    match splitScope rest with
    | (second, some third) => some (first, second, third)
    | (_, none) => none
  | (_, none) => none

def SetTenantRepositoryBindingRequest.validateCredentialRef (req : SetTenantRepositoryBindingRequest) :
    Except String Unit :=
  let credentialRef := req.credentialRef.getD ""
  match req.credentialKind with
  | .none => .ok ()
  | .personalAccessToken | .sshKey =>
    if credentialRef = "" then
      .error ("credential_ref is required for credential_kind=" ++ req.credentialKind.display)
    else if isSecretReference credentialRef then .ok ()
    else .error ("credential_ref must be a supported secret reference (local/, secret/, arn:aws:) for credential_kind=" ++
      req.credentialKind.display)
  | .gitHubApp =>
    if req.gitProviderConnectionId.isSome then .ok ()
    else if credentialRef = "" then
      .error ("credential_ref or git_provider_connection_id is required for credential_kind=" ++
        req.credentialKind.display)
    else
      match splitThree credentialRef with
      | some (appId, installationId, pemRef) =>
        if appId = "" ∨ installationId = "" then
          .error "credential_ref must use app_id:installation_id:pem_ref format for credential_kind=GitHubApp"
        else if isSecretReference pemRef then .ok ()
        else .error ("credential_ref pem_ref must be a supported secret reference (local/, secret/, arn:aws:) " ++
          "for credential_kind=GitHubApp")
      | none => .error "credential_ref must use app_id:installation_id:pem_ref format for credential_kind=GitHubApp"

def SetTenantRepositoryBindingRequest.toBinding (req : SetTenantRepositoryBindingRequest) (id : Uuid)
    (now : DateTime) :
    TenantRepositoryBinding :=
  { id, kind := req.kind, localPath := req.localPath, remoteUrl := req.remoteUrl, branch := req.branch,
    branchPolicy := req.branchPolicy, credentialKind := req.credentialKind, credentialRef := req.credentialRef,
    githubOwner := req.githubOwner, githubRepo := req.githubRepo, sourceOwner := req.sourceOwner.display,
    createdAt := now, updatedAt := now }

def TenantRepositoryBinding.merge (old new : TenantRepositoryBinding) : TenantRepositoryBinding :=
  if old.sourceOwner = "admin" ∧ new.sourceOwner ≠ "admin" then old
  else { new with id := old.id, gitProviderConnectionId := old.gitProviderConnectionId, createdAt := old.createdAt }

section
variable (env : Surroundings)

def upsertBinding (req : SetTenantRepositoryBindingRequest) : Eff Session PostgresError TenantRepositoryBinding :=
  storeCall env (fun space =>
    let new := req.toBinding env.newBindingId env.now
    let binding := (space.parts.binding.map (·.merge new)).getD new
    .ok (binding, { space with parts.binding := some binding }))

def unitKind : UnitType → String
  | .organization => "organization"
  | .team => "team"
  | .project => "project"

def unitTypeOf (kind : String) : Except PostgresError UnitType :=
  if kind = "tenant" ∨ kind = "organization" then .ok .organization
  else if kind = "team" then .ok .team
  else if kind = "project" then .ok .project
  else .error (.database "error occurred while decoding: Invalid unit type")

def getUnitById (space : TenantSpace) (id : String) : Except PostgresError (Option OrganizationalUnit) :=
  match space.parts.units.find? (fun unit => unit.id = id) with
  | none => .ok none
  | some unit => (unitTypeOf unit.kind).map (fun _ => some unit)

def UnitType.debug : UnitType → String
  | .organization => "Organization"
  | .team => "Team"
  | .project => "Project"

def validateParentChildTypes (parent child : UnitType) : Except PostgresError Unit :=
  match parent, child with
  | .organization, .team | .team, .project => .ok ()
  | _, _ => .error (.database ("error occurred while decoding: Invalid hierarchy: cannot place " ++
      UnitType.debug child ++
      " under " ++ UnitType.debug parent))

def validateUnitInvariants (space : TenantSpace) (unitType : UnitType) : Option String → Except PostgresError Unit
  | none =>
    if unitType = .organization then .ok ()
    else .error (.database "error occurred while decoding: Only Organization units can be root units (no parent)")
  | some parentId => do
    match ← getUnitById space parentId with
    | none => .error (.notFound parentId)
    | some parent => validateParentChildTypes (← unitTypeOf parent.kind) unitType

def OrganizationalUnit.conflicts (unit other : OrganizationalUnit) : Bool :=
  unit.parentId.getD "" = other.parentId.getD "" ∧ unit.name = other.name

def insertUnit (unit : OrganizationalUnit) (space : TenantSpace) : Except PostgresError TenantSpace :=
  if space.parts.units.any (unit.conflicts ·) then
    .ok { space with parts.units := space.parts.units.map (fun other =>
      if unit.conflicts other then { other with metadata := unit.metadata } else other) }
  else if env.unitElsewhere unit.id ∨ space.parts.units.any (·.id = unit.id) then
    .error (.database "duplicate key value violates unique constraint \"organizational_units_pkey\"")
  else .ok { space with parts.units := space.parts.units ++ [unit] }

def createUnitScoped (id name : String) (unitType : UnitType) (parentId : Option String) :
    Eff Session PostgresError Unit :=
  storeCall env (fun space => do
    validateUnitInvariants space unitType parentId
    let space ← insertUnit env { id, name, kind := unitKind unitType, parentId } space
    pure ((), space))

def getUnitScoped (id : String) : Eff Session PostgresError (Option OrganizationalUnit) :=
  storeCall env (fun space => (getUnitById space id).map (·, space))

def insertRole (row : RoleRow) (space : TenantSpace) : Except PostgresError TenantSpace :=
  if row ∈ space.parts.userRoles then .ok space
  else if env.unitElsewhere row.unitId ∨ space.parts.units.any (·.id = row.unitId) then
    .ok { space with parts.userRoles := space.parts.userRoles ++ [row] }
  else .error (.database
    "insert or update on table \"user_roles\" violates foreign key constraint \"user_roles_unit_id_fkey\"")

def assignRoleScoped (backend : Backend) (tenantId userId unitId : String) (role : RoleIdentifier) :
    Eff Session PostgresError Unit :=
  storeCall env (fun space =>
    (insertRole env ⟨userId, tenantId, unitId, backend.lowercasing.toLowercase role.text⟩ space).map ((), ·))

end

def slugChars : Bool → List Char → List Char
  | _, [] => []
  | afterDash, c :: rest =>
    if c.toLower.isAlphanum then c.toLower :: slugChars false rest
    else if afterDash then slugChars true rest
    else '-' :: slugChars true rest

def slugify (name : String) : String :=
  match ((slugChars true name.toList).reverse.dropWhile (· = '-')).reverse with
  | [] => "unnamed"
  | slug => String.ofList slug

structure OrgInput where
  name : String
  teams : List (String × String) := []

def ManifestOrg.input (org : ManifestOrg) : String × OrgInput :=
  (slugify org.name, { name := org.name, teams := (org.teams.getD []).map (fun team => (slugify team.name, team.name)) })

def TeamRow.write (fresh : Uuid) (row : Option TeamRow) (name : String) : TeamRow :=
  ⟨(row.map (·.id)).getD fresh, name⟩

def OrganizationRow.write (newTeamId : String → Uuid) (fresh : Uuid) (row : Option OrganizationRow) (org : OrgInput) :
    OrganizationRow where
  id := (row.map (·.id)).getD fresh
  name := org.name
  teams := Lib.upsertAll (fun slug => TeamRow.write (newTeamId slug)) org.teams ((row.map (·.teams)).getD ∅)

def upsertOrganizations (env : Surroundings) (orgs : List (String × OrgInput))
    (organizations : BTreeMap OrganizationRow) :
    BTreeMap OrganizationRow :=
  Lib.upsertAll (fun slug => OrganizationRow.write (env.newTeamId slug)
    (env.newOrganizationId slug)) orgs organizations

structure UpsertSummary where
  (orgsUpserted teamsUpserted : Nat)
  deriving DecidableEq

def upsertHierarchy (env : Surroundings) (orgs : List (String × OrgInput)) :
    Eff Session PostgresError UpsertSummary :=
  storeCall env (fun space =>
    let summary : UpsertSummary := ⟨orgs.length, (orgs.map (fun org => org.2.teams.length)).sum⟩
    .ok (summary, { space with parts.organizations := upsertOrganizations env orgs space.parts.organizations }))

end Aeterna.Tenancy
