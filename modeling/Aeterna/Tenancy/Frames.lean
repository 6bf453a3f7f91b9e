import Aeterna.Tenancy.Provision

namespace Aeterna.Tenancy
open Lib (JsonValue Eff)
open Lib.Eff TenantSpace

section
variable {ν : Type} {V : TenantSpace → ν} {backend : Backend} {env : Surroundings} {m : TenantManifest} {id : Uuid}

def TenantSpace.manifestState (space : TenantSpace) : Option String × Int :=
  (space.tenant.bind (·.lastAppliedManifestHash), (space.tenant.map (·.manifestGeneration)).getD 0)

structure AsideTenant (V : TenantSpace → ν) : Prop where
  created : ∀ space (row : TenantRow), space.tenant = none → row.lastAppliedManifestHash = none →
    row.manifestGeneration = 0 → V { space with tenant := some row } = V space
  updated : ∀ space (f : TenantRow → TenantRow),
    (∀ row, (f row).lastAppliedManifestHash = row.lastAppliedManifestHash ∧
      (f row).manifestGeneration = row.manifestGeneration) →
    V { space with tenant := space.tenant.map f } = V space

theorem parts_asideTenant : AsideTenant TenantSpace.parts := ⟨fun _ _ _ _ _ => rfl, fun _ _ _ => rfl⟩

theorem manifestState_asideTenant : AsideTenant manifestState := by
  constructor
  · intro space row absent hash generation
    simp [manifestState, absent, hash, generation]
  · intro space f same
    cases present : space.tenant <;> simp [manifestState, present, same]

theorem getTenant_fixes : Fixes (fun s : Session => V s.space) (getTenant env) :=
  storeCall_fixes (fun space a next done => by cases done; rfl)

theorem updateRow_fixes (aside : AsideTenant V) {f : TenantRow → TenantRow}
    (same : ∀ row, (f row).lastAppliedManifestHash = row.lastAppliedManifestHash ∧
      (f row).manifestGeneration = row.manifestGeneration) :
    Fixes (fun s : Session => V s.space) (updateRow env f) :=
  storeCall_fixes (fun space a next done => by cases done; exact aside.updated space f same)

theorem ensureTenantWithSource_fixes (aside : AsideTenant V) {slug : String} {source : RecordSource} :
    Fixes (fun s : Session => V s.space) (ensureTenantWithSource env slug source) := by
  refine .bind getTenant_fixes (fun found => ?_)
  cases found with
  | some record => exact .pure record
  | none =>
    refine storeCall_fixes (fun space a next done => ?_)
    cases present : space.tenant with
    | some row => simp [present] at done
    | none =>
      simp only [present, Except.ok.injEq, Prod.mk.injEq] at done
      obtain ⟨-, rfl⟩ := done
      exact aside.created space _ present rfl rfl

variable {name unitId : String}

theorem updateTenant_fixes (aside : AsideTenant V) {environment : Option String} :
    Fixes (fun s : Session => V s.space) (updateTenant env name environment) := by
  refine .bind (updateRow_fixes aside (fun _ => ⟨rfl, rfl⟩)) (fun updated => ?_)
  cases updated with
  | some row => exact .pure _
  | none => exact getTenant_fixes

theorem attachAccount_fixes (aside : AsideTenant V) {account : AccountRef} :
    Fixes (fun s : Session => V s.space) (attachAccount env account) := by
  unfold attachAccount
  split
  · exact updateRow_fixes aside (fun _ => ⟨rfl, rfl⟩)
  · exact storeCall_fixes (fun space a next done => by cases done; rfl)

theorem ensureTenantStep_fixes (aside : AsideTenant V) :
    Fixes (fun s : Session => V s.space) (ensureTenantStep env m) := by
  refine .bind (.mapError (ensureTenantWithSource_fixes aside)) (fun record => .bind ?_ (fun account => ?_))
  · cases m.tenant.accountRef with
    | none => exact .pure none
    | some accountRef =>
      refine .bind (.mapError (storeCall_fixes (fun space a next done => by cases done; rfl))) (fun found => ?_)
      cases found with
      | some account => exact .pure _
      | none => exact .fail _
  · refine .bind (.mapError (updateTenant_fixes aside)) (fun updated => ?_)
    cases account with
    | none => exact .pure _
    | some account => exact .bind (.mapError (attachAccount_fixes aside)) (fun _ => .pure _)

theorem steady_run {α : Type} (x : Steady α) (s : Session) : ∃ a next, x s = (.ok a, next) := by
  generalize x s = ran
  obtain ⟨outcome, next⟩ := ran
  cases outcome with
  | ok a => exact ⟨a, next, rfl⟩
  | error e => exact e.elim

theorem errorOf_fixes {ε : Type} {W : Session → ν} {words : ε → String} {x : Eff Session ε Unit} (fixes : Fixes W x) :
    Fixes W (errorOf words x) := by
  refine .bind fixes.outcome (fun outcome => ?_)
  cases outcome <;> exact .pure _

theorem domainsStep_fixes (aside : ∀ space domains, V { space with domains } = V space) :
    Fixes (fun s : Session => V s.space) (domainsStep backend env m id) := by
  unfold domainsStep
  cases m.tenant.domainMappings with
  | none => exact .pure []
  | some domains =>
    refine .bind (.gather (fun domain => errorOf_fixes (.bind getTenant_fixes (fun found => ?_))) domains)
      (fun _ => .pure _)
    cases found with
    | none => exact .fail _
    | some row =>
      refine storeCall_fixes (fun space a next done => ?_)
      dsimp only at done
      split at done
      · cases done
      · cases done
        exact aside space _

theorem configStep_fixes (aside : ∀ space config, V { space with parts.config := config } = V space) :
    Fixes (fun s : Session => V s.space) (configStep backend m id) := by
  unfold configStep
  dsimp only
  split
  · refine .bind (.outcome (.bind (.ofExcept _)
      (fun _ => .bind (.modify (fun s => aside s.space _)) (fun _ => .pure _))))
      (fun outcome => ?_)
    cases outcome <;> exact .pure _
  · exact .pure []

theorem setSecretEntry_fixes {tenantId : String} {entry : ManifestSecret} (aside : ∀ space config secrets,
      V { space with parts.config := config, parts.secrets := secrets } = V space) :
    Fixes (fun s : Session => V s.space) (setSecretEntry env backend tenantId entry) := by
  refine .bind (.ofExcept _) (fun _ => ?_)
  dsimp only
  split
  · exact .fail _
  · split
    · exact .fail _
    · refine .bind (.mapError (storeCall_fixes (fun space a next done => ?_))) (fun _ => .modify (fun s => ?_))
      · cases done
        exact aside space space.parts.config _
      · exact aside s.space _ s.space.parts.secrets

theorem secretsStep_fixes (aside : ∀ space config secrets,
      V { space with parts.config := config, parts.secrets := secrets } = V space) :
    Fixes (fun s : Session => V s.space) (secretsStep backend env m id) := by
  unfold secretsStep
  cases m.secrets with
  | none => exact .pure []
  | some secrets =>
    exact .bind (.gather (fun secret => errorOf_fixes (setSecretEntry_fixes aside)) secrets) (fun _ => .pure _)

theorem repositoryStep_fixes (aside : ∀ space binding, V { space with parts.binding := binding } = V space) :
    Fixes (fun s : Session => V s.space) (repositoryStep env m id) := by
  unfold repositoryStep
  split
  · exact .pure []
  · split
    · exact .pure _
    · exact .pure _
    · refine .bind (.outcome (storeCall_fixes (fun space a next done => ?_))) (fun outcome => ?_)
      · cases done
        exact aside space _
      · cases outcome <;> exact .pure _

theorem assignRoleScoped_fixes {tenantId userId : String} {role : RoleIdentifier}
    (aside : ∀ space userRoles, V { space with parts.userRoles := userRoles } = V space) :
    Fixes (fun s : Session => V s.space) (assignRoleScoped env backend tenantId userId unitId role) := by
  refine storeCall_fixes (fun space a next done => ?_)
  unfold insertRole at done
  dsimp only at done
  split at done
  · cases done
    rfl
  · split at done
    · cases done
      exact aside space _
    · cases done

theorem rolesStep_fixes (aside : ∀ space userRoles, V { space with parts.userRoles := userRoles } = V space) :
    Fixes (fun s : Session => V s.space) (rolesStep backend env m id) := by
  unfold rolesStep
  cases m.roles with
  | none => exact .pure []
  | some assignments =>
    refine .bind (.gather (fun assignment => ?_) assignments) (fun _ => .pure _)
    unfold assignDeclared
    split
    · exact .pure _
    · exact errorOf_fixes (assignRoleScoped_fixes aside)
    · refine .bind (.outcome (storeCall_fixes (fun space a next done => ?_))) (fun outcome => ?_)
      · cases found : getUnitById space _ with
        | error e => rw [found] at done; cases done
        | ok unit => rw [found] at done; cases done; rfl
      · split
        · exact errorOf_fixes (assignRoleScoped_fixes aside)
        · exact .pure _
        · exact .pure _

theorem createUnitScoped_fixes {unitType : UnitType} {parentId : Option String}
    (aside : ∀ space units, V { space with parts.units := units } = V space) :
    Fixes (fun s : Session => V s.space) (createUnitScoped env unitId name unitType parentId) := by
  refine storeCall_fixes (fun space a next done => ?_)
  cases checked : validateUnitInvariants space unitType parentId with
  | error e => simp [checked, bind, Except.bind] at done
  | ok _ =>
    simp only [checked, bind, Except.bind] at done
    unfold insertUnit at done
    split at done
    · cases done
    · rename_i inserted
      cases done
      split at inserted
      · cases inserted
        exact aside space _
      · split at inserted
        · cases inserted
        · cases inserted
          exact aside space _

structure AsideHierarchy (V : TenantSpace → ν) : Prop where
  units : ∀ space units, V { space with parts.units := units } = V space
  organizations : ∀ space organizations, V { space with parts.organizations := organizations } = V space
  userRoles : ∀ space userRoles, V { space with parts.userRoles := userRoles } = V space

section
variable (aside : AsideHierarchy V)
include aside

theorem assignMember_fixes {place : String} {member : ManifestMember} :
    Fixes (fun s : Session => V s.space) (assignMember backend env id place unitId member) := by
  unfold assignMember
  split
  · exact .pure _
  · exact errorOf_fixes (assignRoleScoped_fixes aside.userRoles)

theorem withUnit_fixes {place : String} {unitType : UnitType}
    {parentId : Option String} {next : String → Steady (List String)}
    (later : ∀ id, Fixes (fun s : Session => V s.space) (next id)) :
    Fixes (fun s : Session => V s.space) (withUnit env place name unitType parentId next) := by
  refine .bind .get (fun s => .bind (.outcome (createUnitScoped_fixes aside.units)) (fun outcome => ?_))
  cases outcome with
  | ok _ => exact later _
  | error _ => exact .pure _

theorem provisionOrg_fixes {org : ManifestOrg} :
    Fixes (fun s : Session => V s.space) (provisionOrg backend env id org) := by
  refine withUnit_fixes aside (fun orgId => ?_)
  refine .bind (.gather (fun _ => assignMember_fixes aside) _)
    (fun _ => .bind (.gather (fun team => ?_) _) (fun _ => .pure _))
  exact withUnit_fixes aside (fun teamId => .gather (fun _ => assignMember_fixes aside) _)

theorem hierarchyStep_fixes : Fixes (fun s : Session => V s.space) (hierarchyStep backend env m id) := by
  unfold hierarchyStep
  cases m.hierarchy with
  | none => exact .pure []
  | some orgs =>
    refine .bind (.gather (fun _ => provisionOrg_fixes aside) orgs) (fun _ => ?_)
    refine .bind (.outcome (storeCall_fixes (fun space a next done => ?_))) (fun outcome => ?_)
    · cases done
      exact aside.organizations space _
    · cases outcome <;> exact .pure _

end

theorem applySteps_fixes_tenant : Fixes (fun s : Session => s.space.tenant) (applySteps backend env m id) := by
  refine .bind (domainsStep_fixes (V := TenantSpace.tenant) (fun _ _ => rfl)) (fun _ => ?_)
  refine .bind (configStep_fixes (V := TenantSpace.tenant) (fun _ _ => rfl)) (fun _ => ?_)
  refine .bind (secretsStep_fixes (V := TenantSpace.tenant) (fun _ _ _ => rfl)) (fun _ => ?_)
  refine .bind (repositoryStep_fixes (V := TenantSpace.tenant) (fun _ _ => rfl)) (fun _ => ?_)
  refine .bind (hierarchyStep_fixes (V := TenantSpace.tenant) ⟨fun _ _ => rfl, fun _ _ => rfl, fun _ _ => rfl⟩)
    (fun _ => ?_)
  exact .bind (rolesStep_fixes (V := TenantSpace.tenant) (fun _ _ => rfl)) (fun _ => .pure _)

theorem runPipeline_fixes_manifestState : Fixes (fun s : Session => s.space.manifestState)
    (runPipeline backend env m) := by
  refine .bind (ensureTenantStep_fixes manifestState_asideTenant) (fun row => .bind (.mapError ?_) (fun _ => .pure _))
  intro s
  have kept : (applySteps backend env m row.id s).2.space.tenant = s.space.tenant := applySteps_fixes_tenant s
  simp only [manifestState, kept]

end

end Aeterna.Tenancy
