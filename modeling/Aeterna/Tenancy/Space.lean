import Aeterna.Access.RoleGrants
import Aeterna.Lib.KeyedFold
import Aeterna.Tenancy.Manifest

namespace Aeterna.Tenancy
open Lib (JsonValue Eff)

structure DateTime where
  timestamp : Int
  rfc3339 : String
  deriving DecidableEq

inductive TenantStatus where
  | active | inactive
  deriving DecidableEq, Repr

structure AccountRef where
  (id slug name : String)
  deriving DecidableEq

structure TenantRow where
  id : Uuid
  name : String
  status : TenantStatus := .active
  sourceOwner : RecordSource := .admin
  account : Option AccountRef := none
  environment : Option String := none
  (createdAt updatedAt : DateTime)
  lastAppliedManifestHash : Option String := none
  manifestGeneration : Int := 0
  deriving DecidableEq

structure DomainMapping where
  verified : Bool
  source : String
  deriving DecidableEq

structure SecretRow where
  id : Uuid
  value : String
  deriving DecidableEq

structure TenantRepositoryBinding where
  id : Uuid
  kind : RepositoryKind
  (localPath remoteUrl : Option String)
  branch : String
  branchPolicy : BranchPolicy
  credentialKind : CredentialKind
  (credentialRef githubOwner githubRepo : Option String)
  sourceOwner : String
  gitProviderConnectionId : Option String := none
  (createdAt updatedAt : DateTime)
  deriving DecidableEq

structure OrganizationalUnit where
  (id name kind : String)
  parentId : Option String
  metadata : List (String × JsonValue) := []

structure TeamRow where
  id : Uuid
  name : String
  deriving DecidableEq

structure OrganizationRow where
  id : Uuid
  name : String
  teams : BTreeMap TeamRow := ∅

structure TenantParts where
  config : Option TenantConfigDocument := none
  secrets : BTreeMap SecretRow := ∅
  binding : Option TenantRepositoryBinding := none
  units : List OrganizationalUnit := []
  organizations : BTreeMap OrganizationRow := ∅
  userRoles : List RoleRow := []

/-- The tenant that a slug stands for. -/
structure TenantSpace where
  tenant : Option TenantRow := none
  domains : BTreeMap DomainMapping := ∅
  parts : TenantParts := {}

def RecordSource.display : RecordSource → String
  | .admin => "Admin"
  | .sync => "Sync"

def CredentialKind.display : CredentialKind → String
  | .none => "None"
  | .personalAccessToken => "PersonalAccessToken"
  | .sshKey => "SshKey"
  | .gitHubApp => "GitHubApp"

inductive PostgresError where
  | database (message : String)
  | notFound (what : String)
  deriving DecidableEq

def PostgresError.display : PostgresError → String
  | .database message => "Database error: " ++ message
  | .notFound what => "Unit not found: " ++ what

def TenantConfigProviderError.display : TenantConfigProviderError → String
  | .invalidTenantId tenantId => "invalid tenant id for tenant config provider: " ++ tenantId
  | .validation message => "tenant config validation failed: " ++ message
  | .secret message => "secret backend error: " ++ message

/-- What a server is set up with, and the functions that it takes from elsewhere. -/
structure Backend where
  uuids : UuidParser
  lowercasing : Lowercasing
  /-- `lower` of the database. -/
  lower : String → String
  /-- `effective_allow_inline_secret`. -/
  allowInlineSecret : Bool := false
  /-- The SHA-256 digest of the compact text of a value, in hexadecimal digits. -/
  digest : JsonValue → String
  collates : String → String → Bool

/-- What a request finds around it: the time, the stores of others, the ids it is given, and which of its calls on the
stores fail. -/
structure Surroundings where
  now : DateTime
  account : String → Option AccountRef := fun _ => none
  accountIsThere : String → Bool := fun _ => true
  tenantCanUse : String → Except String Bool := fun _ => .ok false
  domainTaken : String → Bool := fun _ => false
  unitElsewhere : String → Bool := fun _ => false
  (newTenantId newBindingId : Uuid)
  (newSecretId newOrganizationId : String → Uuid)
  newTeamId : String → String → Uuid
  newUnitId : Nat → Uuid
  fault : Nat → Option String := fun _ => none

/-- A request under way: the tenant, and how many calls it has made. -/
structure Session where
  space : TenantSpace
  calls : Nat := 0

def storeCall {α : Type} (env : Surroundings) (f : TenantSpace → Except PostgresError (α × TenantSpace)) :
    Eff Session PostgresError α := fun s =>
  match env.fault s.calls, f s.space with
  | some message, _ => (.error (.database message), { s with calls := s.calls + 1 })
  | none, .error e => (.error e, { s with calls := s.calls + 1 })
  | none, .ok (a, space) => (.ok a, { space, calls := s.calls + 1 })

section
variable {α ν : Type} {V : TenantSpace → ν} {env : Surroundings}
  {f : TenantSpace → Except PostgresError (α × TenantSpace)} {s next : Session}
  {a : α}

theorem storeCall_ok (done : storeCall env f s = (.ok a, next)) :
    ∃ space, f s.space = .ok (a, space) ∧ next.space = space := by
  unfold storeCall at done
  split at done
  · cases done
  · cases done
  · rename_i found
    cases done
    exact ⟨_, found, rfl⟩

theorem storeCall_error {e : PostgresError} (done : storeCall env f s = (.error e, next)) : next.space = s.space := by
  unfold storeCall at done
  split at done <;> cases done <;> rfl

theorem storeCall_calm {space : TenantSpace} (calm : ∀ n, env.fault n = none) (found : f s.space = .ok (a, space)) :
    storeCall env f s = (.ok a, { space, calls := s.calls + 1 }) := by
  unfold storeCall
  rw [calm, found]

theorem storeCall_keeps {I : TenantSpace → Prop} (kept : ∀ space a next, I space → f space = .ok (a, next) → I next) :
    Eff.Keeps (fun s : Session => I s.space) (storeCall env f) := by
  intro s holds
  unfold storeCall
  split
  · exact holds
  · exact holds
  · rename_i found
    exact kept _ _ _ holds found

theorem storeCall_fixes (same : ∀ space a next, f space = .ok (a, next) → V next = V space) :
    Eff.Fixes (fun s : Session => V s.space) (storeCall env f) := by
  intro s
  unfold storeCall
  split
  · rfl
  · rfl
  · rename_i found
    exact same _ _ _ found

end

section
variable (env : Surroundings)

def getTenant : Eff Session PostgresError (Option TenantRow) := storeCall env (fun space => .ok (space.tenant, space))

variable (slug : String) (backend : Backend)

def createTenantWithSource (sourceOwner : RecordSource) : Eff Session PostgresError TenantRow :=
  storeCall env (fun space =>
    let row : TenantRow :=
      { id := env.newTenantId, name := slug, sourceOwner, createdAt := env.now, updatedAt := env.now }
    match space.tenant with
    | some _ => .error (.database "duplicate key value violates unique constraint \"tenants_slug_key\"")
    | none => .ok (row, { space with tenant := some row }))

def ensureTenantWithSource (sourceOwner : RecordSource) : Eff Session PostgresError TenantRow := do
  match ← getTenant env with
  | some record => pure record
  | none => createTenantWithSource env slug sourceOwner

def updateRow (f : TenantRow → TenantRow) : Eff Session PostgresError (Option TenantRow) :=
  storeCall env (fun space => .ok (space.tenant.map f, { space with tenant := space.tenant.map f }))

def updateTenant (name : String) (environment : Option String) : Eff Session PostgresError (Option TenantRow) := do
  match ← updateRow env (fun row =>
    { row with name, environment := environment.or row.environment, updatedAt := env.now }) with
  | some row => pure (some row)
  | none => getTenant env

def attachAccount (account : AccountRef) : Eff Session PostgresError (Option TenantRow) :=
  if env.accountIsThere account.id then
    updateRow env (fun row => { row with account := some account, updatedAt := env.now })
  else storeCall env (fun space => .ok (none, space))

def getManifestState : Eff Session PostgresError (Option String × Int) :=
  storeCall env (fun space =>
    match space.tenant with
    | some row => .ok ((row.lastAppliedManifestHash, row.manifestGeneration), space)
    | none => .error (.notFound ("tenant not found: " ++ slug)))

def isManifestHash (hash : String) : Bool :=
  match hash.toList.splitAt 7 with
  | (lead, digits) =>
    lead = "sha256:".toList && digits.length = 64 && digits.all (fun c => c.isDigit || ('a' ≤ c && c ≤ 'f'))

def setManifestState (slug hash : String) (generation : Int) : Eff Session PostgresError Unit :=
  storeCall env (fun space =>
    match space.tenant with
    | none => .error (.notFound ("tenant not found: " ++ slug))
    | some row =>
      if generation < 0 then .error (.database "violates check constraint \"tenants_manifest_generation_nonneg\"")
      else if !isManifestHash hash then .error
        (.database "violates check constraint \"tenants_manifest_hash_format\"")
      else
        let row :=
          { row with lastAppliedManifestHash := some hash, manifestGeneration := generation, updatedAt := env.now }
        .ok ((), { space with tenant := some row }))

def DomainMapping.merge (old new : DomainMapping) : DomainMapping :=
  if old.source = "admin" ∧ new.source ≠ "admin" then old else new

def addVerifiedDomainMapping (tenantRef domain : String) : Eff Session PostgresError Unit := do
  match ← getTenant env with
  | none => .fail (.notFound ("tenant not found: " ++ tenantRef))
  | some _ =>
    storeCall env (fun space =>
      let domain := backend.lower (trimText domain)
      let new : DomainMapping := ⟨true, RecordSource.admin.display⟩
      if env.domainTaken domain then
        .error (.database "duplicate key value violates unique constraint \"idx_tenant_domain_mappings_domain_uniq\"")
      else
        let mapping := (space.domains[domain]?.map (·.merge new)).getD new
        .ok ((), { space with domains := space.domains.insert domain mapping }))

def upsertConfig (doc : TenantConfigDocument) : Eff Session TenantConfigProviderError TenantConfigDocument := do
  Eff.ofExcept (doc.validate backend.uuids)
  Eff.modify (fun s => { s with space.parts.config := some doc })
  pure doc

def SecretRow.write (fresh : Uuid) (row : Option SecretRow) (value : String) : SecretRow :=
  ⟨(row.map (·.id)).getD fresh, value⟩

def putSecret (logicalName value : String) : Eff Session PostgresError SecretReference :=
  storeCall env (fun space =>
    let row := SecretRow.write (env.newSecretId logicalName) space.parts.secrets[logicalName]? value
    .ok (.postgres row.id, { space with parts.secrets := space.parts.secrets.insert logicalName row }))

def TenantConfigDocument.withReference (doc : TenantConfigDocument) (reference : TenantSecretReference) :
    TenantConfigDocument :=
  { doc with secretReferences := doc.secretReferences.insert reference.logicalName reference }

def setSecretEntry (tenantId : String) (entry : ManifestSecret) : Eff Session TenantConfigProviderError Unit := do
  let _ ← Eff.ofExcept (tenantUuid backend.uuids tenantId)
  if isBlank entry.logicalName then .fail (.validation "secret logical_name must not be empty")
  else if entry.secretValue = "" then .fail (.validation "secret secret_value must not be empty")
  else
    let reference ← (putSecret env entry.logicalName entry.secretValue).mapError
      (fun e => .secret ("storage error: " ++ e.display))
    Eff.modify (fun s =>
      let doc := s.space.parts.config.getD { tenantId }
      { s with space.parts.config := some (doc.withReference ⟨entry.logicalName, entry.ownership, reference⟩) })

end

end Aeterna.Tenancy
