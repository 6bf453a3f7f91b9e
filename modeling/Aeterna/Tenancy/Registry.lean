import Aeterna.Tenancy.Provision

/-!
All of the tenants, and the calls that reach one of them by a reference (`storage/src/tenant_store.rs`).
-/

namespace Aeterna.Tenancy
open Lib (Eff)

structure Tenant where
  slug : String
  row : TenantRow
  deactivatedAt : Option DateTime := none
  deriving DecidableEq

namespace Tenant

def id (t : Tenant) : Uuid := t.row.id

def isNamed (t : Tenant) (tenantRef : String) : Bool :=
  t.row.id.text = tenantRef ∨ t.slug = tenantRef ∨ t.row.name = tenantRef

end Tenant

/-- The table `tenants`, with its primary key and the constraint on its slugs. -/
structure TenantTable where
  rows : List Tenant := []
  ids : (rows.map Tenant.id).Nodup
  slugs : (rows.map Tenant.slug).Nodup

namespace TenantTable

variable (table : TenantTable)

def row? (id : Uuid) : Option Tenant := table.rows.find? (fun t => t.id = id)

def insert (t : Tenant) : Except PostgresError TenantTable :=
  if known : t.id ∈ table.rows.map Tenant.id then
    .error (.database "duplicate key value violates unique constraint \"tenants_pkey\"")
  else if taken : t.slug ∈ table.rows.map Tenant.slug then
    .error (.database "duplicate key value violates unique constraint \"tenants_slug_key\"")
  else .ok
    { rows := table.rows ++ [t]
      ids := by rw [List.map_append, List.nodup_append_comm]; exact List.nodup_cons.mpr ⟨known, table.ids⟩
      slugs := by rw [List.map_append, List.nodup_append_comm]; exact List.nodup_cons.mpr ⟨taken, table.slugs⟩ }

def updated (condition : Tenant → Bool) (f : Tenant → Tenant) : List Tenant :=
  table.rows.map (fun t => if condition t then f t else t)

/-- An `UPDATE`, which does not write ids, and fails if it would leave two rows with one slug. -/
def update (condition : Tenant → Bool) (f : Tenant → Tenant) (same : ∀ t, (f t).id = t.id) :
    Except PostgresError TenantTable :=
  if unique : ((table.updated condition f).map Tenant.slug).Nodup then
    .ok
      { rows := table.updated condition f
        ids := by
          have kept : (table.updated condition f).map Tenant.id = table.rows.map Tenant.id := by
            rw [updated, List.map_map]
            refine List.map_congr_left (fun t _ => ?_)
            show Tenant.id (if condition t then f t else t) = t.id
            split
            · exact same t
            · rfl
          rw [kept]
          exact table.ids
        slugs := unique }
  else .error (.database "duplicate key value violates unique constraint \"tenants_slug_key\"")

end TenantTable

structure Registry where
  table : TenantTable
  domains : Uuid → BTreeMap DomainMapping := fun _ => ∅
  parts : Uuid → TenantParts := fun _ => {}
  calls : Nat := 0

namespace Registry

section
variable (env : Surroundings)

/-- A call on a store, which fails without an effect. -/
def call {α : Type} (f : Registry → Except PostgresError (α × Registry)) : Eff Registry PostgresError α := fun s =>
  match env.fault s.calls, f s with
  | some message, _ => (.error (.database message), { s with calls := s.calls + 1 })
  | none, .error e => (.error e, { s with calls := s.calls + 1 })
  | none, .ok (a, next) => (.ok a, { next with calls := s.calls + 1 })

def firstOf (first : List Tenant → Nat) (found : List Tenant) : Option Tenant := found[first found % found.length]?

variable (first : List Tenant → Nat)

variable (tenantRef : String)

def getTenant : Eff Registry PostgresError (Option Tenant) :=
  call env (fun s => .ok (firstOf first (s.table.rows.filter (·.isNamed tenantRef)), s))

def createTenantWithSource (slug name : String) (sourceOwner : RecordSource) : Eff Registry PostgresError Tenant :=
  call env (fun s => do
    let t : Tenant :=
      { slug, row := { id := env.newTenantId, name, sourceOwner, createdAt := env.now, updatedAt := env.now } }
    pure (t, { s with table := ← s.table.insert t }))

def ensureTenantWithSource (sourceOwner : RecordSource) : Eff Registry PostgresError Tenant := do
  match ← getTenant env first tenantRef with
  | some record => pure record
  | none => createTenantWithSource env tenantRef tenantRef sourceOwner

/-- An `UPDATE` of every tenant that a reference stands for, which returns one of them. -/
def updateNamed (f : Tenant → Tenant) (same : ∀ t, (f t).id = t.id) : Eff Registry PostgresError (Option Tenant) :=
  call env (fun s => do
    let table ← s.table.update (·.isNamed tenantRef) f same
    pure (firstOf first ((s.table.rows.filter (·.isNamed tenantRef)).map f), { s with table }))

def updateTenant (slug name environment : Option String) : Eff Registry PostgresError (Option Tenant) := do
  match ← updateNamed env first tenantRef (fun t =>
    { t with
      slug := slug.getD t.slug
      row := { t.row with
        name := name.getD t.row.name, environment := environment.or t.row.environment, updatedAt := env.now } })
    (fun _ => rfl) with
  | some t => pure (some t)
  | none => getTenant env first tenantRef

def attachAccount (account : AccountRef) : Eff Registry PostgresError (Option Tenant) :=
  if env.accountIsThere account.id then
    updateNamed env first tenantRef (fun t =>
      { t with row := { t.row with account := some account, updatedAt := env.now } })
      (fun _ => rfl)
  else call env (fun s => .ok (none, s))

def deactivateTenant : Eff Registry PostgresError (Option Tenant) := do
  match ← updateNamed env first tenantRef (fun t =>
    { t with
      row := { t.row with status := .inactive, updatedAt := env.now }
      deactivatedAt := t.deactivatedAt.or (some env.now) }) (fun _ => rfl) with
  | some t => pure (some t)
  | none => getTenant env first tenantRef

def addVerifiedDomainMapping (backend : Backend) (tenantRef domain : String) : Eff Registry PostgresError Unit := do
  match ← getTenant env first tenantRef with
  | none => .fail (.notFound ("tenant not found: " ++ tenantRef))
  | some t =>
    call env (fun s =>
      let domain := backend.lower (trimText domain)
      let new : DomainMapping := ⟨true, RecordSource.admin.display⟩
      if env.domainTaken domain then
        .error (.database "duplicate key value violates unique constraint \"idx_tenant_domain_mappings_domain_uniq\"")
      else
        let mapping := ((s.domains t.id)[domain]?.map (·.merge new)).getD new
        .ok ((), { s with domains := Function.update s.domains t.id ((s.domains t.id).insert domain mapping) }))

def writeManifestState (slug hash : String) (generation : Int) (s : Registry) :
    Except PostgresError (Unit × Registry) :=
  if s.table.rows.any (·.slug = slug) then
    if generation < 0 then .error (.database "violates check constraint \"tenants_manifest_generation_nonneg\"")
    else if !isManifestHash hash then .error (.database "violates check constraint \"tenants_manifest_hash_format\"")
    else do
      let table ← s.table.update (·.slug = slug) (fun t =>
        { t with row := { t.row with
          lastAppliedManifestHash := some hash, manifestGeneration := generation, updatedAt := env.now } })
            (fun _ => rfl)
      pure ((), { s with table })
  else .error (.notFound ("tenant not found: " ++ slug))

def setManifestState (slug hash : String) (generation : Int) : Eff Registry PostgresError Unit :=
  call env (writeManifestState env slug hash generation)

end

/-- What a slug stands for, as far as provisioning is about nothing else. -/
def space (s : Registry) (id : Uuid) : TenantSpace where
  tenant := (s.table.row? id).map (·.row)
  domains := s.domains id
  parts := s.parts id

/-- Steps that write what the tenant of an id owns. -/
def within {α : Type} (id : Uuid) (x : Steady α) : Eff Registry Empty α := fun s =>
  match x ⟨s.space id, s.calls⟩ with
  | (outcome, after) => (outcome, { s with parts := Function.update s.parts id after.space.parts, calls := after.calls })

section
variable (env : Surroundings) (first : List Tenant → Nat) (backend : Backend) (m : TenantManifest)

def ensureTenantStep : Eff Registry ProvisionResponse Tenant := do
  let record ← (ensureTenantWithSource env first m.tenant.slug .admin).mapError
    (fun e => .tenantFailed [.failed "tenant" e.display])
  let account ← (match m.tenant.accountRef with
    | none => pure none
    | some accountRef => do
      match ← (call env (fun s => .ok (env.account accountRef, s))).mapError
          (fun e => .storeFailed "account_lookup_failed" e.display) with
      | some account => pure (some account)
      | none =>
        .fail (.accountNotFound accountRef [.failed "tenant" ("accountRef '" ++ accountRef ++ "' not found")]))
  let updated ← (updateTenant env first record.id.text none (some m.tenant.name) m.tenant.environment).mapError
    (fun e => .storeFailed "tenant_update_failed" e.display)
  let updated := updated.getD record
  match account with
  | none => pure updated
  | some account =>
    let attached ← (attachAccount env first updated.id.text account).mapError
      (fun e => .storeFailed "tenant_account_attach_failed" e.display)
    pure (attached.getD updated)

variable (id : Uuid)

def mapDomain (domain : String) : Eff Registry Empty (List String) := do
  match ← (addVerifiedDomainMapping env first backend id.text domain).outcome with
  | .ok () => pure []
  | .error e => pure [domain ++ ": " ++ e.display]

def domainsStep : Eff Registry Empty (List ProvisionStep) :=
  match m.tenant.domainMappings with
  | none => pure []
  | some domains => do
    let errors ← Eff.gather (mapDomain env first backend id) domains
    pure [.ofErrors "domain_mappings" (toString domains.length ++ " domain(s) mapped") errors]

def ownedSteps : Steady (List ProvisionStep) := do
  let config ← configStep backend m id
  let secrets ← secretsStep backend env m id
  let repository ← repositoryStep env m id
  let hierarchy ← hierarchyStep backend env m id
  let roles ← rolesStep backend env m id
  pure (config ++ secrets ++ repository ++ hierarchy ++ roles)

def persistStep (hash : String) (generation : Int) (steps : List ProvisionStep) :
    Eff Registry Empty (List ProvisionStep) :=
  if steps.all (·.ok) then do
    match ← (setManifestState env m.tenant.slug hash generation).outcome with
    | .ok () =>
      pure (steps ++ [.passed "manifest_state" ("hash=" ++ hash ++ " generation=" ++ toString generation)])
    | .error e =>
      pure (steps ++ [.failed "manifest_state" ("failed to persist manifest fingerprint: " ++ e.display)])
  else pure steps

def tenantStep (t : Tenant) : ProvisionStep :=
  .passed "tenant" ("Tenant '" ++ t.slug ++ "' ensured (id=" ++ t.id.text ++ ")")

def provision (hash : String) (generation : Int) : Eff Registry ProvisionResponse ProvisionResponse := do
  let t ← ensureTenantStep env first m
  let domains ← (domainsStep env first backend m t.id).mapError Empty.elim
  let owned ← (within t.id (ownedSteps env backend m t.id)).mapError Empty.elim
  let steps ← (persistStep env m hash generation (tenantStep t :: (domains ++ owned))).mapError Empty.elim
  pure (.finished t.id m.tenant.slug hash generation steps)

end

end Registry

end Aeterna.Tenancy
