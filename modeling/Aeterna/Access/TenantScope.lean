import Aeterna.Access.Policies
import Aeterna.Access.Published

namespace Aeterna
open Lib.Cedar List Option

def Ordinary (users : List UserPermissionRow) (user : Uuid) : Prop :=
  ∀ row ∈ userRows users user, normalizeRoleToEntityId row.role ≠ "PlatformAdmin"

def TenantScoped (hierarchy : List HierarchyRow) (users : List UserPermissionRow) : Prop :=
  ∀ user, Ordinary users user → ∀ action, ∀ resource ∈ (transformHierarchy hierarchy).map (·.uid),
    allows (rbac ++ forbids) (scopedEntities hierarchy users) ⟨userUid user, actionUid action, resource⟩ →
    ∃ row ∈ users, row.userId = user ∧ isIn (scopedEntities hierarchy users) resource (tenantUid row.tenantId)

structure Acting (users : List UserPermissionRow) (user : Uuid) : Prop where
  ordinary : Ordinary users user
  active : ∃ first, (userRows users user).head? = some first ∧ first.userStatus = "active"
  granted : ∃ row ∈ userRows users user, normalizeRoleToEntityId row.role ∈ rolePermits.map (·.1)

structure RowsEverywhere (hierarchy : List HierarchyRow) (users : List UserPermissionRow) (user : Uuid) : Prop where
  tenants : ∀ place ∈ hierarchy, ∃ row ∈ users, row.userId = user ∧ row.tenantId = place.tenantId
  teams : ∀ team organization, teamOrganization hierarchy team = some organization →
    (organizationTenant hierarchy organization).isSome
  projects : ∀ project team, projectTeam hierarchy project = some team → (teamOrganization hierarchy team).isSome

section Membership
variable (hierarchy : List HierarchyRow) (users : List UserPermissionRow)

theorem unit_above {uid group : EntityUid} (unit : IsUnit uid)
    (above : isIn (scopedEntities hierarchy users) uid group) :
    IsUnit group := by
  induction isIn_iff.mp above with
  | refl => exact unit
  | tail path parent ih =>
    have lower := ih (isIn_iff.mpr path)
    rw [parentsOf_unit hierarchy users lower] at parent
    obtain ⟨entity, held, rfl, among⟩ := mem_parentsOf parent
    exact ((hierarchy_unit held).2 _ among).1

theorem role_top {role : String} {group : EntityUid}
    (above : isIn (scopedEntities hierarchy users) (roleUid role) group) :
    group = roleUid role := by
  rcases isIn_step.mp above with same | ⟨parent, among, -⟩
  · exact same.symm
  · obtain ⟨entity, held, same, among⟩ := mem_parentsOf among
    rcases mem_append.mp held with held | held
    · have unit := (hierarchy_unit held).1
      rw [same] at unit
      simp [IsUnit, unitRank] at unit
    · rcases mem_append.mp held with held | held
      · obtain ⟨user, first, -, rfl⟩ := mem_transformUsers.mp held
        exact absurd same (uid_ne (by simp [userEntity]))
      · obtain ⟨role, -, rfl⟩ := List.mem_map.mp held
        cases among

theorem user_in_role {user : Uuid} {role : String} :
    isIn (scopedEntities hierarchy users) (userUid user) (roleUid role) ↔
      ∃ row ∈ userRows users user, normalizeRoleToEntityId row.role = role := by
  rw [isIn_step, ← mem_roleSet]
  cases head : (userRows users user).head? with
  | none =>
    have none : parentsOf (scopedEntities hierarchy users) (userUid user) = [] := by
      simp [parentsOf, lookup_user_none hierarchy users head]
    have empty : userRows users user = [] := by simpa using head
    have differs : userUid user ≠ roleUid role := uid_ne (by simp)
    simp [none, empty, differs, roleSet]
  | some first =>
    have parents : parentsOf (scopedEntities hierarchy users) (userUid user) =
        (userRows users user).map (fun row => teamUid row.teamId) ++ (roleSet (userRows users user)).map roleUid := by
      simp [parentsOf, lookup_user hierarchy users head, userEntity]
    rw [parents]
    constructor
    · rintro (same | ⟨parent, among, above⟩)
      · exact absurd same (uid_ne (by simp))
      · rcases mem_append.mp among with among | among
        · obtain ⟨row, -, rfl⟩ := List.mem_map.mp among
          have unit := unit_above hierarchy users (show IsUnit (teamUid row.teamId) by simp [IsUnit, unitRank]) above
          simp [IsUnit, unitRank] at unit
        · obtain ⟨held, listed, rfl⟩ := List.mem_map.mp among
          exact roleUid_inj.mp (role_top hierarchy users above) ▸ listed
    · intro among
      exact Or.inr ⟨roleUid role, mem_append_right _ (List.mem_map_of_mem among), isIn_step.mpr (Or.inl rfl)⟩

variable {tenant : Uuid}

theorem tenant_in_tenant {other : Uuid} :
    isIn (scopedEntities hierarchy users) (tenantUid tenant) (tenantUid other) ↔ tenant = other := by
  rw [isIn_step, parentsOf_unit hierarchy users (by simp [IsUnit, unitRank]), parentsOf_tenant]
  simp

theorem organization_in_tenant {organization : Uuid} :
    isIn (scopedEntities hierarchy users) (organizationUid organization) (tenantUid tenant) ↔
      organizationTenant hierarchy organization = some tenant := by
  have differs : organizationUid organization ≠ tenantUid tenant := uid_ne (by simp)
  rw [isIn_step, parentsOf_unit hierarchy users (by simp [IsUnit, unitRank]), parentsOf_organization]
  simp only [differs, false_or, List.mem_map, mem_toList, exists_exists_and_eq_and, tenant_in_tenant]
  exact exists_eq_right

theorem team_in_tenant {team : Uuid} : isIn (scopedEntities hierarchy users) (teamUid team) (tenantUid tenant) ↔
      ∃ organization, teamOrganization hierarchy team = some organization ∧
        organizationTenant hierarchy organization = some tenant := by
  have differs : teamUid team ≠ tenantUid tenant := uid_ne (by simp)
  rw [isIn_step, parentsOf_unit hierarchy users (by simp [IsUnit, unitRank]), parentsOf_team]
  simp only [differs, false_or, List.mem_map, mem_toList, exists_exists_and_eq_and, organization_in_tenant]

theorem project_in_tenant {project : Uuid} :
    isIn (scopedEntities hierarchy users) (projectUid project) (tenantUid tenant) ↔
      ∃ team, projectTeam hierarchy project = some team ∧ ∃ organization,
        teamOrganization hierarchy team = some organization ∧ organizationTenant hierarchy organization =
          some tenant := by
  have differs : projectUid project ≠ tenantUid tenant := uid_ne (by simp)
  rw [isIn_step, parentsOf_unit hierarchy users (by simp [IsUnit, unitRank]), parentsOf_project]
  simp only [differs, false_or, List.mem_map, mem_toList, exists_exists_and_eq_and, team_in_tenant]

end Membership

section Decision
variable {hierarchy : List HierarchyRow} {users : List UserPermissionRow} {user : Uuid} {action resource : EntityUid}

theorem mem_rbac {policy : Policy} : policy ∈ rbac ↔ ∃ permits ∈ rolePermits, ∃ scope ∈ permits.2,
    rolePermit permits.1 scope = policy := by
  simp [rbac]

theorem status_active : (principalStatus "active").Holds ⟨userUid user, action, resource⟩
    (scopedEntities hierarchy users) ↔
    ∃ first, (userRows users user).head? = some first ∧ first.userStatus = "active" := by
  rw [principalStatus, principalAttr, Expr.holds_eq_lit]
  cases head : (userRows users user).head? with
  | none => simp [Request.get, lookup_user_none hierarchy users head]
  | some first => simp [Request.get, lookup_user hierarchy users head, userEntity, textValue, lookup_cons]

theorem rolePermit_satisfied {role : String} {scope : ActionScope} :
    (rolePermit role scope).satisfied (scopedEntities hierarchy users) ⟨userUid user, action, resource⟩ ↔
      scope.covers (scopedEntities hierarchy users) action ∧
      (∃ row ∈ userRows users user, normalizeRoleToEntityId row.role = role) ∧
      ∃ first, (userRows users user).head? = some first ∧ first.userStatus = "active" := by
  rw [Policy.satisfied_iff, ← Expr.Holds, rolePermit, Expr.holds_and, status_active, principalInRole, Expr.Holds, Expr.evaluate_isIn, Except.ok.injEq, boolean_inj,
    ← user_in_role hierarchy users]
  simp [Scope.covers, Request.get]

theorem acting_of_allowed (ordinary : Ordinary users user)
    (allowed : allows (rbac ++ forbids) (scopedEntities hierarchy users) ⟨userUid user, action, resource⟩) :
    Acting users user := by
  obtain ⟨policy, held, permits, satisfied⟩ := permitted_of_allows allowed
  rcases mem_append.mp held with held | held
  · obtain ⟨granted, listed, scope, -, rfl⟩ := mem_rbac.mp held
    obtain ⟨-, ⟨row, among, same⟩, active⟩ := rolePermit_satisfied.mp satisfied
    exact ⟨ordinary, active, row, among, same ▸ List.mem_map_of_mem listed⟩
  · have only_forbids : ∀ policy ∈ forbids, policy.effect = .forbid := by
      simp [forbids, forbidWhen, forbidUnlessPlatformAdmin]
    rw [only_forbids policy held] at permits
    cases permits

theorem roles_view (entities : List Entity) :
    ∀ permits ∈ rolePermits, ∃ scope ∈ permits.2, scope.covers entities (actionUid "ViewOrganization") := by
  simp [rolePermits, platformAdminScopes, tenantAdminScopes, architectScopes, techLeadScopes, developerScopes,
    viewerScopes, ActionScope.covers, oneOf, only, organizationActions, isIn]

theorem view_unbarred (active : ∃ first, (userRows users user).head? = some first ∧ first.userStatus = "active") :
    ∀ policy ∈ forbids,
      ¬ policy.satisfied (scopedEntities hierarchy users) ⟨userUid user, actionUid "ViewOrganization", resource⟩ := by
  obtain ⟨first, head, active⟩ := active
  intro policy held satisfied
  obtain ⟨principal, action, -, holds⟩ := Policy.satisfied_iff.mp satisfied
  have status : ∀ other, other ≠ "active" → ¬ (principalStatus other).Holds
      ⟨userUid user, actionUid "ViewOrganization", resource⟩ (scopedEntities hierarchy users) := by
    intro other differs holds
    rw [principalStatus, principalAttr, Expr.holds_eq_lit] at holds
    obtain ⟨entity, found, held⟩ := holds
    have published := lookup_user hierarchy users head
    rw [Request.get, published] at found
    cases found
    simp [userEntity, textValue, lookup_cons, active] at held
    exact differs held.symm
  simp only [forbids, mem_cons, not_mem_nil, or_false] at held
  rcases held with rfl | rfl | rfl | rfl | rfl | rfl | rfl | rfl | rfl | rfl | rfl | rfl
  · simp [forbidWhen, Scope.covers] at principal
  · simp [forbidWhen, Scope.covers] at principal
  · simp [forbidWhen, Scope.covers] at principal
  · exact status "inactive" (by decide) holds
  · exact status "suspended" (by decide) holds
  · simp [ActionScope.covers, only, actionUid] at action
  · simp [ActionScope.covers, only, actionUid] at action
  · simp [forbidUnlessPlatformAdmin, ActionScope.covers, only, actionUid] at action
  · simp [forbidUnlessPlatformAdmin, ActionScope.covers, only, actionUid] at action
  · simp [forbidUnlessPlatformAdmin, ActionScope.covers, only, actionUid] at action
  · simp [forbidUnlessPlatformAdmin, ActionScope.covers, only, actionUid] at action
  · simp [ActionScope.covers, only, actionUid] at action

theorem acting_views (acting : Acting users user) : allows (rbac ++ forbids) (scopedEntities hierarchy users)
      ⟨userUid user, actionUid "ViewOrganization", resource⟩ := by
  obtain ⟨-, active, row, among, granted⟩ := acting
  obtain ⟨permits, listed, same⟩ := List.mem_map.mp granted
  obtain ⟨scope, held, covers⟩ := roles_view (scopedEntities hierarchy users) permits listed
  refine allows_of_loaded (scopedEntities_load hierarchy users) ?_ ?_
  · exact ⟨rolePermit permits.1 scope, mem_append_left _ (mem_rbac.mpr ⟨permits, listed, scope, held, rfl⟩), rfl,
      rolePermit_satisfied.mpr ⟨covers, ⟨row, among, same.symm⟩, active⟩⟩
  · intro policy held forbids
    rcases mem_append.mp held with held | held
    · obtain ⟨permits, -, scope, -, rfl⟩ := mem_rbac.mp held
      cases forbids
    · exact view_unbarred active policy held

end Decision

section Scope
variable {hierarchy : List HierarchyRow} {users : List UserPermissionRow} {user : Uuid}

theorem organizationTenant_row {organization tenant : Uuid}
    (placed : organizationTenant hierarchy organization = some tenant) :
    ∃ place ∈ hierarchy, place.tenantId = tenant := by
  obtain ⟨place, found, same⟩ := map_eq_some_iff.mp placed
  exact ⟨place, mem_of_find?_eq_some found, same⟩

theorem teamOrganization_row {team organization : Uuid}
    (placed : teamOrganization hierarchy team = some organization) :
    teamUid team ∈ (transformHierarchy hierarchy).map (·.uid) := by
  obtain ⟨place, found, -⟩ := bind_eq_some_iff.mp placed
  obtain ⟨entity, held, same⟩ := place.entity_of_team (by simpa using find?_some found)
  exact same ▸ published_of_row (mem_of_find?_eq_some found) held

theorem projectTeam_row {project team : Uuid} (placed : projectTeam hierarchy project = some team) :
    projectUid project ∈ (transformHierarchy hierarchy).map (·.uid) := by
  obtain ⟨place, found, -⟩ := bind_eq_some_iff.mp placed
  obtain ⟨entity, held, same⟩ := place.entity_of_project (by simpa using find?_some found)
  exact same ▸ published_of_row (mem_of_find?_eq_some found) held

theorem find_named {named : HierarchyRow → Prop} [DecidablePred named] (parent : HierarchyRow → Option Uuid)
    (complete : ∀ place, named place → (parent place).isSome) {place : HierarchyRow} (listed : place ∈ hierarchy)
    (names : named place) : ∃ id, (hierarchy.find? (fun place => named place)).bind parent = some id := by
  cases found : hierarchy.find? (fun place => named place) with
  | none =>
    rw [find?_eq_none] at found
    exact absurd names (by simpa using found place listed)
  | some first =>
    exact isSome_iff_exists.mp (complete first (by simpa using find?_some found))

theorem row_in_tenant (everywhere : RowsEverywhere hierarchy users user) {resource : EntityUid}
    (published : resource ∈ (transformHierarchy hierarchy).map (·.uid)) :
    ∃ row ∈ users, row.userId = user ∧ isIn (scopedEntities hierarchy users) resource (tenantUid row.tenantId) := by
  have organization : ∀ organization tenant, organizationTenant hierarchy organization = some tenant →
      ∃ row ∈ users, row.userId = user ∧ row.tenantId = tenant := by
    intro organization tenant placed
    obtain ⟨place, listed, rfl⟩ := organizationTenant_row placed
    exact everywhere.tenants place listed
  have team : ∀ team organization, teamOrganization hierarchy team = some organization →
      ∃ row ∈ users, row.userId = user ∧ organizationTenant hierarchy organization = some row.tenantId := by
    intro team above placed
    obtain ⟨tenant, found⟩ := isSome_iff_exists.mp (everywhere.teams team above placed)
    obtain ⟨row, held, same, rfl⟩ := organization above tenant found
    exact ⟨row, held, same, found⟩
  obtain ⟨entity, held, rfl⟩ := List.mem_map.mp published
  obtain ⟨place, listed, held⟩ := mem_transformHierarchy held
  rcases place.kind held with ⟨uid, -⟩ | ⟨id, named, uid, -⟩ | ⟨id, named, uid, -⟩ | ⟨id, named, uid, -⟩
  · obtain ⟨row, held, same, placed⟩ := everywhere.tenants place listed
    exact ⟨row, held, same, uid ▸ (tenant_in_tenant hierarchy users).mpr placed.symm⟩
  · obtain ⟨tenant, found⟩ : ∃ tenant, organizationTenant hierarchy id = some tenant := by
      obtain ⟨tenant, found⟩ := find_named (fun place => some place.tenantId) (fun _ _ => rfl) listed named
      exact ⟨tenant, by simpa [organizationTenant, map_eq_bind, Function.comp_def] using found⟩
    obtain ⟨row, held, same, rfl⟩ := organization id tenant found
    exact ⟨row, held, same, uid ▸ (organization_in_tenant hierarchy users).mpr found⟩
  · obtain ⟨above, found⟩ : ∃ above, teamOrganization hierarchy id = some above :=
      find_named (·.orgId) (fun place names => names.2.2.2) listed named
    obtain ⟨row, held, same, placed⟩ := team id above found
    exact ⟨row, held, same, uid ▸ (team_in_tenant hierarchy users).mpr ⟨above, found, placed⟩⟩
  · obtain ⟨above, found⟩ : ∃ above, projectTeam hierarchy id = some above :=
      find_named (·.teamId) (fun place names => names.2.2.2) listed named
    obtain ⟨top, further⟩ := isSome_iff_exists.mp (everywhere.projects id above found)
    obtain ⟨row, held, same, placed⟩ := team above top further
    exact ⟨row, held, same, uid ▸ (project_in_tenant hierarchy users).mpr ⟨above, found, top, further, placed⟩⟩

theorem rows_everywhere (keeps : TenantScoped hierarchy users) (acting : Acting users user) :
    RowsEverywhere hierarchy users user := by
  have view := fun resource published => keeps user acting.ordinary "ViewOrganization" resource published
      (acting_views acting)
  refine ⟨?_, ?_, ?_⟩
  · intro place listed
    have published := published_of_row listed (place.mem_entities.mpr (Or.inl rfl))
    obtain ⟨row, held, same, within⟩ := view _ published
    exact ⟨row, held, same, ((tenant_in_tenant hierarchy users).mp within).symm⟩
  · intro team organization placed
    obtain ⟨row, held, same, within⟩ := view _ (teamOrganization_row placed)
    obtain ⟨other, again, found⟩ := (team_in_tenant hierarchy users).mp within
    rw [placed, Option.some.injEq] at again
    subst again
    exact isSome_iff_exists.mpr ⟨_, found⟩
  · intro project team placed
    obtain ⟨row, held, same, within⟩ := view _ (projectTeam_row placed)
    obtain ⟨other, again, found⟩ := (project_in_tenant hierarchy users).mp within
    rw [placed, Option.some.injEq] at again
    subst again
    obtain ⟨organization, found, -⟩ := found
    exact isSome_iff_exists.mpr ⟨_, found⟩

end Scope

/-- Every user that may act needs a row in every tenant of the hierarchy, and a hierarchy without gaps. -/
theorem tenantScoped_iff (hierarchy : List HierarchyRow) (users : List UserPermissionRow) :
    TenantScoped hierarchy users ↔ ∀ user, Acting users user → RowsEverywhere hierarchy users user := by
  constructor
  · intro keeps user acting
    exact rows_everywhere keeps acting
  · intro everywhere user ordinary action resource published allowed
    exact row_in_tenant (everywhere user (acting_of_allowed ordinary allowed)) published

/-- What only platform administrators may do, nobody may without a row of that role. -/
theorem reserved_needs_platformAdmin (hierarchy : List HierarchyRow) (users : List UserPermissionRow) (user : Uuid)
    (action : String) (resource : EntityUid)
    (reserved : action ∈ ["ListTenants", "CreateTenant", "ManageGitProviderConnections", "AdminSyncGitHub"])
    (allowed : allows (rbac ++ forbids) (scopedEntities hierarchy users) ⟨userUid user, actionUid action, resource⟩) :
    ∃ row ∈ userRows users user, normalizeRoleToEntityId row.role = "PlatformAdmin" := by
  have held : forbidUnlessPlatformAdmin action ∈ rbac ++ forbids := by
    apply mem_append_right
    simp only [mem_cons, not_mem_nil, or_false] at reserved
    rcases reserved with rfl | rfl | rfl | rfl <;> simp [forbids]
  have unbarred := unbarred_of_allows allowed held rfl
  rw [← user_in_role hierarchy users]
  by_contra outside
  have role : (principalInRole "PlatformAdmin").evaluate ⟨userUid user, actionUid action, resource⟩
      (scopedEntities hierarchy users) = .ok (boolean false) := by
    rw [principalInRole, Expr.evaluate_isIn, ← Bool.eq_false_of_not_eq_true outside]
    rfl
  refine unbarred (Policy.satisfied_iff.mpr ⟨?_, ?_, rfl, ?_⟩)
  · simp [forbidUnlessPlatformAdmin, Scope.covers]
  · simp [forbidUnlessPlatformAdmin, ActionScope.covers, only]
  · simp only [forbidUnlessPlatformAdmin, Expr.evaluate, role]
    rfl

def northTenant : Uuid := ⟨"00000000-0000-0000-0000-0000000000c1", by decide +kernel⟩

def southTenant : Uuid := ⟨"00000000-0000-0000-0000-0000000000c2", by decide +kernel⟩

def northAdmin : UserPermissionRow where
  tenantId := northTenant
  userId := ⟨"00000000-0000-0000-0000-0000000000d1", by decide +kernel⟩
  email := "admin@north.example"
  userStatus := "active"
  teamId := ⟨"00000000-0000-0000-0000-0000000000e1", by decide +kernel⟩
  role := "tenantadmin"

theorem northAdmin_views_south :
    ¬ TenantScoped [{ tenantId := northTenant }, { tenantId := southTenant }] [northAdmin] := by
  intro keeps
  have rows : userRows [northAdmin] northAdmin.userId = [northAdmin] := by simp [userRows]
  have acting : Acting [northAdmin] northAdmin.userId := by
    refine ⟨?_, ⟨northAdmin, by rw [rows]; rfl, rfl⟩,
      ⟨northAdmin, by rw [rows]; exact mem_singleton.mpr rfl, ?_⟩⟩
    · intro row held
      rw [rows] at held
      rw [mem_singleton.mp held]
      decide
    · simp [rolePermits, northAdmin, normalizeRoleToEntityId]
  obtain ⟨row, held, -, placed⟩ := (rows_everywhere keeps acting).tenants { tenantId := southTenant } (by simp)
  rw [mem_singleton.mp held] at placed
  have differs : northTenant.text ≠ southTenant.text := by decide
  exact differs (congrArg Uuid.text placed)

def northOwner : UserPermissionRow := { northAdmin with role := "platformadmin" }

theorem northOwner_creates :
    ∃ row ∈ userRows [northOwner] northOwner.userId, normalizeRoleToEntityId row.role = "PlatformAdmin" :=
  reserved_needs_platformAdmin [{ tenantId := northTenant }] [northOwner] northOwner.userId "CreateTenant"
    (tenantUid northTenant) (by decide) (by decide +kernel)

end Aeterna
