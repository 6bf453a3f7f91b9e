import Aeterna.Access.Identity
import Aeterna.Lib.Effect

/-!
The requests that write `user_roles`: the grant and revoke endpoints of `role_grants.rs` and the grant and
invite endpoints of `user_api.rs`.
-/

namespace Aeterna
open Lib

abbrev AccessM := Eff Directory Response

inductive ResourceType where
  | instance_ | tenant | organization | team | project | session
  deriving DecidableEq, Repr

inductive UnitType where
  | organization | team | project
  deriving DecidableEq, Repr

structure ScopedRoleGrant where
  userId : String
  role : RoleIdentifier
  resourceType : ResourceType
  resourceId : String

structure GrantRoleRequest where
  (role scope : String)

structure InviteUserRequest where
  email : String
  org : Option String := none
  team : Option String := none
  role : Option String := none
  message : Option String := none

section
variable (server : Server)

variable (dir : Directory) (ctx : TenantContext) (headers : Headers)

def Directory.assignRole (userId tenantId unitId : String) (role : RoleIdentifier) : Except String Directory :=
  let row : RoleRow := ⟨userId, tenantId, unitId, server.lowercasing.toLowercase role.text⟩
  if row ∈ dir.userRoles then .ok dir
  else if dir.units.any (·.id = unitId) then .ok { dir with userRoles := dir.userRoles ++ [row] }
  else .error server.foreignKeyError

def Directory.removeRole (userId tenantId unitId : String) (role : RoleIdentifier) : Directory :=
  let row : RoleRow := ⟨userId, tenantId, unitId, server.lowercasing.toLowercase role.text⟩
  { dir with userRoles := dir.userRoles.filter (· ≠ row) }

def Directory.getUserRoles (userId tenantId : String) : List (String × RoleIdentifier) :=
  (dir.userRoles.filter (fun row => row.userId = userId ∧ row.tenantId = tenantId)).map
    (fun row => (row.unitId, .fromStrFlexible row.role))

def Directory.getUnit (tenantId id : String) : Except String (Option UnitType) :=
  match dir.units.find? (fun unit => unit.id = id ∧ unit.tenantId = tenantId) with
  | none => .ok none
  | some unit =>
    match unit.kind with
    | "tenant" => .ok (some .organization)
    | "organization" => .ok (some .organization)
    | "team" => .ok (some .team)
    | "project" => .ok (some .project)
    | _ => .error "Database error: error occurred while decoding: Invalid unit type"

def Directory.insertOrUpdateUser (variant : UserTableVariant) (userId email name : String) (active : Bool) :
    UserRow × Directory :=
  match dir.users.find? (fun user => user.email = email) with
  | some user =>
    let updated := { user with name := name, active := active }
    (updated, { dir with users := dir.users.map (fun other => if other.email = email then updated else other) })
  | none =>
    let identity : Option String × Option String :=
      match variant with
      | .main => (none, none)
      | .idpSync => (some (if active then "local" else "invite"), some ("local:" ++ userId))
    let user : UserRow := ⟨userId, email, name, active, identity.1, identity.2, none⟩
    (user, { dir with users := dir.users ++ [user] })

def validateScope (role : Role) (resourceType : ResourceType) : Except String Unit :=
  if role = .platformAdmin ∧ resourceType ≠ .instance_ then
    .error "PlatformAdmin can only be granted at instance scope"
  else if role = .tenantAdmin ∧ resourceType ≠ .tenant ∧ resourceType ≠ .instance_ then
    .error "TenantAdmin can only be granted at tenant or instance scope"
  else .ok ()

/-- The checks `handle_grant_role` and `handle_revoke_role` share: the caller, the ids and the permission. -/
def checkGrant (headers : Headers) (req : ScopedRoleGrant) : Except Response (TenantContext × String) := do
  let ctx ← authenticatedTenantContext server dir headers
  if trimText req.userId = "" then .error ⟨400, "invalid_user_id", "user_id is required", []⟩
  else if trimText req.resourceId = "" then .error ⟨400, "invalid_resource_id", "resource_id is required", []⟩
  else
    match UserId.new req.userId with
    | none => .error ⟨400, "invalid_user_id", "Invalid user id", []⟩
    | some userId =>
      match server.checkPermission ctx "AssignRoles" ("Aeterna::Tenant::\"" ++ ctx.tenantId ++ "\"") with
      | .ok true => .ok (ctx, userId)
      | .ok false => .error ⟨403, "forbidden", "AssignRoles permission required", []⟩
      | .error e => .error ⟨500, "authz_check_failed", e, []⟩

variable (req : ScopedRoleGrant)

def grantedRole : Except Response Role :=
  match req.role with
  | .custom _ => .error ⟨400, "invalid_role_scope", "Custom roles are not supported by this endpoint", []⟩
  | .known role =>
    match validateScope role req.resourceType with
    | .error message => .error ⟨400, "invalid_role_scope", message, []⟩
    | .ok () => .ok role

def requireAdminContext (headers : Headers) : Except Response TenantContext := do
  let ctx ← authenticatedTenantContext server dir headers
  if ctx.hasKnownRole .platformAdmin ∨ ctx.hasKnownRole .admin then .ok ctx
  else .error ⟨403, "forbidden", "Admin or PlatformAdmin role required", []⟩

def parseTenantRole (value : String) : Except Response RoleIdentifier :=
  let role := RoleIdentifier.fromStrFlexible value
  if role = .known .platformAdmin then
    .error ⟨400, "invalid_role", "PlatformAdmin cannot be assigned as a tenant-scoped role", []⟩
  else .ok role

def splitScope (scope : String) : String × Option String :=
  match scope.toList.dropWhile (· ≠ ':') with
  | [] => (scope, none)
  | _ :: rest => (String.ofList (scope.toList.takeWhile (· ≠ ':')), some (String.ofList rest))

def resolveScopeTarget (scope : String) : Except Response (String × String) :=
  match splitScope scope with
  | ("tenant", none) => .ok (ctx.tenantId, "tenant")
  | ("tenant", some id) => .ok (id, "tenant:" ++ id)
  | ("org", some id) => .ok (id, "org:" ++ id)
  | ("team", some id) => .ok (id, "team:" ++ id)
  | ("project", some id) => .ok (id, "project:" ++ id)
  | (kind, target) =>
    if kind ∈ ["org", "team", "project"] ∧ target = none then
      .error ⟨422, "explicit_scope_target_required",
        "Use an explicit scope target such as org:<unit-id>, team:<unit-id>, or project:<unit-id>", []⟩
    else
      .error ⟨400, "invalid_scope", "Scope must be tenant, tenant:<id>, org:<id>, team:<id>, or project:<id>", []⟩

def ensureUnitType (ctx : TenantContext) (unitId : String) (expected : UnitType) : Except Response Unit :=
  match dir.getUnit ctx.tenantId unitId with
  | .ok (some kind) =>
    if kind = expected then .ok ()
    else .error ⟨422, "invalid_unit_type", "Unit exists but has the wrong type for this operation", []⟩
  | .ok none => .error ⟨404, "unit_not_found", "Requested unit was not found", []⟩
  | .error e => .error ⟨400, "unit_lookup_failed", e, []⟩

def looksLikeEmail (value : String) : Bool := '@' ∈ value.toList ∧ '.' ∈ value.toList

def deriveNameFromEmail (email : String) : String :=
  let spaced := (email.toList.takeWhile (· ≠ '@')).map (fun c => if c = '.' then ' ' else c)
  let capitalize : List Char → List Char
    | [] => []
    | first :: rest => server.toUppercase first ++ rest
  String.ofList ([' '].intercalate (((spaced.splitOnP isWhitespace).filter (· ≠ [])).map capitalize))

def assignRoleScoped (userId unitId : String) (role : RoleIdentifier) (failure : String) : AccessM Unit := do
  let dir ← Eff.get
  match dir.assignRole server userId ctx.tenantId unitId role with
  | .ok next => Eff.modify (fun _ => next)
  | .error e => Eff.fail ⟨400, failure, e, []⟩

def handleGrantRole : AccessM ScopedRoleGrant := do
  let dir ← Eff.get
  let (ctx, userId) ← Eff.ofExcept (checkGrant server dir headers req)
  let _ ← Eff.ofExcept (grantedRole req)
  assignRoleScoped server ctx userId req.resourceId req.role "role_grant_failed"
  pure req

def handleRevokeRole : AccessM Unit := do
  let dir ← Eff.get
  let (ctx, userId) ← Eff.ofExcept (checkGrant server dir headers req)
  if (dir.getUserRoles userId ctx.tenantId).any
    (fun (unitId, role) => unitId = req.resourceId ∧ role.same req.role) then
    Eff.modify (fun dir => dir.removeRole server userId ctx.tenantId req.resourceId req.role)
  else
    Eff.fail ⟨404, "role_grant_not_found", "No matching role grant found", []⟩

def grantUserRole (userId : String) (req : GrantRoleRequest) :
    AccessM (String × RoleIdentifier × String × String) := do
  let dir ← Eff.get
  let ctx ← Eff.ofExcept (requireAdminContext server dir headers)
  match UserId.new userId with
  | none => Eff.fail ⟨400, "invalid_user_id", "Invalid user id", []⟩
  | some userId =>
    let role ← Eff.ofExcept (parseTenantRole req.role)
    let (unitId, scope) ← Eff.ofExcept (resolveScopeTarget ctx req.scope)
    assignRoleScoped server ctx userId unitId role "user_role_grant_failed"
    pure (userId, role, scope, unitId)

structure Invitation where
  (id email scope role : String)
  message : Option String
  user : UserRow

def assignInvited (memberId : String) (role : RoleIdentifier) (req : InviteUserRequest) : AccessM String := do
  let dir ← Eff.get
  match req.team, req.org with
  | some team, _ =>
    Eff.ofExcept (ensureUnitType dir ctx team .team)
    assignRoleScoped server ctx memberId team role "user_invite_failed"
    pure ("team:" ++ team)
  | none, some org =>
    Eff.ofExcept (ensureUnitType dir ctx org .organization)
    assignRoleScoped server ctx memberId org role "user_invite_failed"
    pure ("org:" ++ org)
  | none, none => pure "tenant"

/-- `invite_user`; `newId` is the id drawn for the user. The user is stored before the unit is checked. -/
def inviteUser (newId : String) (req : InviteUserRequest) : AccessM Invitation := do
  let dir ← Eff.get
  let ctx ← Eff.ofExcept (requireAdminContext server dir headers)
  if ¬ looksLikeEmail req.email then
    Eff.fail ⟨400, "invalid_email", "Email must be a valid email address", []⟩
  else
    let role ← Eff.ofExcept (parseTenantRole (req.role.getD "developer"))
    match server.userTable with
    | none => Eff.fail ⟨503, "user_schema_unsupported", "Unsupported users table schema", []⟩
    | some variant =>
      let (created, stored) := dir.insertOrUpdateUser variant newId req.email
          (deriveNameFromEmail server req.email) false
      Eff.modify (fun _ => stored)
      match UserId.new req.email with
      | none => Eff.fail ⟨400, "invalid_user_id", "Invited email cannot be represented as a user id", []⟩
      | some memberId =>
        let scope ← assignInvited server ctx memberId role req
        pure ⟨"invite-" ++ created.id, req.email, scope, server.lowercasing.toLowercase role.text,
          req.message, created⟩

end

end Aeterna
