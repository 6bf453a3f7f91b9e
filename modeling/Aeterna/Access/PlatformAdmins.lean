import Mathlib
import Aeterna.Access.RoleGrants

namespace Aeterna
open Lib RoleIdentifier Eff Role
open List hiding all

inductive RoleRequest where
  | grantRole (headers : Headers) (req : ScopedRoleGrant)
  | revokeRole (headers : Headers) (req : ScopedRoleGrant)
  | grantUserRole (headers : Headers) (userId : String) (req : GrantRoleRequest)
  | inviteUser (headers : Headers) (newId : String) (req : InviteUserRequest)

def RoleRequest.headers : RoleRequest → Headers
  | .grantRole headers _ => headers
  | .revokeRole headers _ => headers
  | .grantUserRole headers _ _ => headers
  | .inviteUser headers _ _ => headers

/-- What a request leaves of the tables, whatever its answer. -/
def Directory.serve (server : Server) (dir : Directory) : RoleRequest → Directory
  | .grantRole headers req => (handleGrantRole server headers req dir).2
  | .revokeRole headers req => (handleRevokeRole server headers req dir).2
  | .grantUserRole headers userId req => (grantUserRole server headers userId req dir).2
  | .inviteUser headers newId req => (inviteUser server headers newId req dir).2

def Directory.serveAll (server : Server) (dir : Directory) (requests : List RoleRequest) : Directory :=
  requests.foldl (Directory.serve server) dir

def RoleRow.PlatformAdmin (row : RoleRow) : Prop := fromStrFlexible row.role = .known .platformAdmin

namespace Directory
variable (server : Server) (dir : Directory)

def HoldsPlatformAdmin (userId : String) : Prop :=
  ∃ row ∈ dir.userRoles, row.PlatformAdmin ∧ row.userId = userId ∧ row.tenantId = instanceScopeTenantId

def PlatformAdminAtInstance : Prop := ∀ row ∈ dir.userRoles, row.PlatformAdmin → row.tenantId = instanceScopeTenantId

def Contained : Prop :=
  ∀ headers ctx, authenticatedTenantContext server dir headers = .ok ctx → ctx.hasKnownRole .platformAdmin →
    dir.HoldsPlatformAdmin ctx.userId

variable (request : RoleRequest)

/-- The request is made by a caller without a PlatformAdmin row at the instance scope. -/
def Unprivileged : Prop :=
  ∀ ctx, authenticatedTenantContext server dir request.headers = .ok ctx → ¬ dir.HoldsPlatformAdmin ctx.userId

def GrantsPlatformAdmin (userId : String) : Prop :=
  match request with
  | .grantRole headers req =>
    req.role = .known .platformAdmin ∧ req.resourceType = .instance_ ∧ dir.units.any (·.id = req.resourceId) ∧
      ∃ ctx, checkGrant server dir headers req = .ok (ctx, userId)
  | _ => False

def Escalates : Prop :=
  ∃ userId, dir.GrantsPlatformAdmin server request userId ∧ ¬ dir.HoldsPlatformAdmin userId

def NoneEscalates : Directory → List RoleRequest → Prop
  | _, [] => True
  | dir, request :: rest => ¬ dir.Escalates server request ∧ NoneEscalates (dir.serve server request) rest

def Rooted : Prop := ∀ row ∈ dir.userRoles, row.PlatformAdmin → dir.HoldsPlatformAdmin row.userId

structure Grows (next : Directory) (new : RoleRow → Prop) : Prop where
  kept : ∀ row ∈ dir.userRoles, row.tenantId = instanceScopeTenantId → row ∈ next.userRoles
  fresh : ∀ row ∈ next.userRoles, row ∈ dir.userRoles ∨ new row

end Directory

theorem Role.parse_congr {a b : String} (same : asciiLower a = asciiLower b) : parse a = parse b := by
  simp only [parse, eqIgnoreAsciiCase, same]

theorem Role.parse_debug (role : Role) : parse role.debug = some role := by
  cases role <;> decide +kernel

theorem small_of_all {letters : List Char} (all : letters.all (fun c => c.val < 128) = true) :
    ∀ c ∈ letters, c.val < 128 := by
  simpa using all

theorem Role.debug_ascii (role : Role) : Ascii role.debug := by
  cases role <;> exact small_of_all (by decide +kernel)

theorem fromStrFlexible_known {text : String} {role : Role} :
    fromStrFlexible text = .known role ↔ parse text = some role := by
  unfold fromStrFlexible
  split <;> simp_all

section
variable (casing : Lowercasing)

variable {text : String}

theorem Lowercasing.asciiLower_toLowercase (ascii : Ascii text) :
    asciiLower (casing.toLowercase text) = asciiLower text := by
  have lowered := casing.ascii text ascii
  unfold asciiLower at lowered ⊢
  simp [lowered]

theorem Lowercasing.parse_debug (role : Role) : parse (casing.toLowercase role.debug) = some role := by
  rw [parse_congr (casing.asciiLower_toLowercase role.debug_ascii), role.parse_debug]

theorem Lowercasing.parse_platformAdmin (spelled : parse (casing.toLowercase text) = some .platformAdmin) :
      parse text = some .platformAdmin := by
  have matched := find?_some spelled
  have lowered : asciiLower (casing.toLowercase text) = asciiLower platformAdmin.debug := by
    simpa [eqIgnoreAsciiCase] using matched
  have each : ∀ c ∈ (casing.toLowercase text).toList, c.toLower ∈ asciiLower platformAdmin.debug := by
    intro c member
    rw [← lowered]
    exact mem_map_of_mem member
  have ascii : Ascii (casing.toLowercase text) := by
    intro c member
    exact toLower_ascii (small_of_all (by decide +kernel) _ (each c member))
  have noKelvin : 'k' ∉ (casing.toLowercase text).toList := by
    intro member
    have letter : 'k'.toLower ∈ asciiLower platformAdmin.debug := each 'k' member
    revert letter
    decide +kernel
  have same := casing.asciiLower_toLowercase (casing.reflects text ascii noKelvin)
  rw [← parse_congr same, spelled]

theorem Lowercasing.not_platformAdmin (other : fromStrFlexible text ≠ .known .platformAdmin) :
    fromStrFlexible (casing.toLowercase (fromStrFlexible text).text) ≠ .known .platformAdmin := by
  rw [Ne, fromStrFlexible_known] at other ⊢
  intro spelled
  cases known : parse text with
  | some role =>
    have shown : (fromStrFlexible text).text = role.debug := by
      rw [fromStrFlexible_known.mpr known, RoleIdentifier.text]
    rw [shown, casing.parse_debug role] at spelled
    exact other (known.trans spelled)
  | none =>
    have shown : (fromStrFlexible text).text = text := by
      simp only [fromStrFlexible, known, RoleIdentifier.text]
    rw [shown] at spelled
    exact other (casing.parse_platformAdmin spelled)

end

theorem same_known {text : String} {role : Role} (same : (fromStrFlexible text).same (.known role)) :
    fromStrFlexible text = .known role := by
  cases found : fromStrFlexible text with
  | known other =>
    rw [found] at same
    have equal : other = role := by simpa [RoleIdentifier.same] using same
    rw [equal]
  | custom name =>
    rw [found] at same
    have named : text = name ∧ parse text = none := by
      unfold fromStrFlexible at found
      split at found <;> simp_all
    have spelled : asciiLower role.debug = asciiLower name :=
      by simpa [RoleIdentifier.same, eqIgnoreAsciiCase] using same
    rw [← named.1] at spelled
    have parsed := named.2
    rw [← parse_congr spelled, role.parse_debug] at parsed
    cases parsed

theorem Directory.mem_getUserRolesForAuth {dir : Directory} {userId tenantId : String} {role : RoleIdentifier}
    (member : role ∈ dir.getUserRolesForAuth userId tenantId) :
    ∃ row ∈ dir.userRoles, row.userId = userId ∧ fromStrFlexible row.role = role := by
  unfold Directory.getUserRolesForAuth at member
  have sorted := (destutter_sublist _ _).mem member
  rw [mem_insertionSort, mem_map] at sorted
  obtain ⟨text, inTexts, parsed⟩ := sorted
  obtain ⟨row, inRows, same⟩ := mem_map.mp (mem_dedup.mp inTexts)
  obtain ⟨inTable, chosen⟩ := mem_filter.mp inRows
  have mine := of_decide_eq_true chosen
  exact ⟨row, inTable, mine.1, by rw [same, parsed]⟩

theorem authenticatedTenantContext_ok {server : Server} {dir : Directory} {headers : Headers} {ctx : TenantContext}
    (accepted : authenticatedTenantContext server dir headers = .ok ctx) :
    ctx.tenantId ≠ instanceScopeTenantId ∧
      (server.anyProviderConfigured → ctx.roles = dir.getUserRolesForAuth ctx.userId ctx.tenantId) := by
  unfold authenticatedTenantContext at accepted
  cases resolved : requestContext server dir (effectiveHeaders server headers) with
  | error e => simp [resolved, bind, Except.bind] at accepted
  | ok found =>
    cases available : found.requireAvailableTenant server (effectiveHeaders server headers) with
    | error e => simp [resolved, available, bind, Except.bind] at accepted
    | ok tenant =>
      simp only [resolved, available, bind, Except.bind, Except.ok.injEq] at accepted
      subst accepted
      refine ⟨tenant.uuid, fun configured => ?_⟩
      simp [configured]

theorem Directory.Rooted.contained {server : Server} {dir : Directory} (configured : server.anyProviderConfigured)
    (rooted : dir.Rooted) : dir.Contained server := by
  intro headers ctx accepted privileged
  have roles := (authenticatedTenantContext_ok accepted).2 configured
  unfold TenantContext.hasKnownRole at privileged
  rw [roles] at privileged
  obtain ⟨role, member, same⟩ := any_eq_true.mp privileged
  obtain ⟨row, inTable, mine, parsed⟩ := Directory.mem_getUserRolesForAuth member
  rw [← parsed] at same
  have holder := rooted row inTable (same_known same)
  rw [mine] at holder
  exact holder

section
variable {server : Server} {dir next last : Directory} {new : RoleRow → Prop}

theorem Directory.Grows.of_same (same : next.userRoles = dir.userRoles) : dir.Grows next new := by
  refine ⟨?_, ?_⟩
  · intro row member _
    rw [same]
    exact member
  · intro row member
    rw [same] at member
    exact .inl member

theorem Directory.Grows.trans (first : dir.Grows next new) (second : next.Grows last new) : dir.Grows last new := by
  refine ⟨?_, ?_⟩
  · intro row member root
    exact second.kept row (first.kept row member root) root
  · intro row member
    rcases second.fresh row member with old | fresh
    · exact first.fresh row old
    · exact .inr fresh

variable {ctx : TenantContext} {userId unitId : String} {role : RoleIdentifier} {req : ScopedRoleGrant}

theorem assignRoleScoped_grows {failure : String} (fine : dir.units.any (·.id = unitId) →
    new ⟨userId, ctx.tenantId, unitId, server.lowercasing.toLowercase role.text⟩) :
    dir.Grows (assignRoleScoped server ctx userId unitId role failure dir).2 new := by
  unfold assignRoleScoped Directory.assignRole
  rw [bind_of_ok (get_run dir)]
  by_cases present : (⟨userId, ctx.tenantId, unitId, server.lowercasing.toLowercase role.text⟩ :
    RoleRow) ∈ dir.userRoles
  · simp only [present, if_true, modify_run]
    exact .of_same rfl
  · by_cases unit : dir.units.any (·.id = unitId)
    · simp only [present, unit, if_true, if_false, modify_run]
      refine ⟨fun row member _ => mem_append_left _ member, ?_⟩
      intro row member
      rcases mem_append.mp member with old | added
      · exact .inl old
      · rw [mem_singleton.mp added]
        exact .inr (fine unit)
    · simp only [present, unit, if_false]
      exact .of_same rfl

theorem ofExcept_grows {ε α β : Type} {checked : Except ε α} {f : α → Eff Directory ε β}
    (goes : ∀ a, checked = .ok a → dir.Grows (f a dir).2 new) : dir.Grows ((ofExcept checked >>= f) dir).2 new :=
  after_ofExcept (P := fun outcome => dir.Grows outcome.2 new) (fun _ _ => .of_same rfl) goes

theorem assigned_then_grows {α : Type} {failure : String}
    (answer : α) (grows : dir.Grows (assignRoleScoped server ctx userId unitId role failure dir).2 new) :
    dir.Grows ((assignRoleScoped server ctx userId unitId role failure >>= fun _ => pure answer) dir).2 new := by
  rw [bind_run]
  split <;> simp_all

theorem removeRole_grows {tenantId : String} (other : tenantId ≠ instanceScopeTenantId) :
    dir.Grows (dir.removeRole server userId tenantId unitId role) new := by
  refine ⟨?_, fun row member => .inl (mem_filter.mp member).1⟩
  intro row member root
  refine mem_filter.mpr ⟨member, ?_⟩
  have different : row ≠ ⟨userId, tenantId, unitId, server.lowercasing.toLowercase role.text⟩ := by
    rintro rfl
    exact other root
  exact decide_eq_true different

theorem checkGrant_ok {headers : Headers} (accepted : checkGrant server dir headers req = .ok (ctx, userId)) :
    authenticatedTenantContext server dir headers = .ok ctx := by
  unfold checkGrant at accepted
  cases found : authenticatedTenantContext server dir headers with
  | error e => simp [found, bind, Except.bind] at accepted
  | ok caller =>
    simp only [found, bind, Except.bind] at accepted
    split_ifs at accepted
    split at accepted
    · cases accepted
    · split at accepted
      · cases accepted
        rfl
      · cases accepted
      · cases accepted

theorem grantedRole_platformAdmin {role : Role} (granted : grantedRole req = .ok role)
    (privileged : role = .platformAdmin) : req.role = .known .platformAdmin ∧ req.resourceType = .instance_ := by
  subst privileged
  unfold grantedRole at granted
  split at granted
  · cases granted
  · rename_i named same
    split at granted
    · cases granted
    · rename_i valid
      cases granted
      refine ⟨same, ?_⟩
      by_contra elsewhere
      simp [validateScope, elsewhere] at valid

theorem grantedRole_role {role : Role} (granted : grantedRole req = .ok role) : req.role = .known role := by
  unfold grantedRole at granted
  split at granted
  · cases granted
  · rename_i named same
    split at granted <;> cases granted
    exact same

variable (server dir)

variable (headers : Headers)

theorem handleGrantRole_grows (req : ScopedRoleGrant) : dir.Grows (handleGrantRole server headers req dir).2
      (fun row => row.PlatformAdmin → dir.GrantsPlatformAdmin server (.grantRole headers req) row.userId) := by
  unfold handleGrantRole
  rw [bind_of_ok (get_run dir)]
  apply ofExcept_grows
  rintro ⟨ctx, userId⟩ checked
  apply ofExcept_grows
  intro role granted
  apply assigned_then_grows
  apply assignRoleScoped_grows
  intro unit privileged
  have named := grantedRole_role granted
  have parsed := fromStrFlexible_known.mp privileged
  rw [named, RoleIdentifier.text, server.lowercasing.parse_debug role] at parsed
  obtain ⟨platform, scope⟩ := grantedRole_platformAdmin granted (Option.some.inj parsed)
  exact ⟨platform, scope, unit, ctx, checked⟩

theorem handleRevokeRole_grows (req : ScopedRoleGrant) :
    dir.Grows (handleRevokeRole server headers req dir).2 new := by
  unfold handleRevokeRole
  rw [bind_of_ok (get_run dir)]
  apply ofExcept_grows
  rintro ⟨ctx, userId⟩ checked
  dsimp only
  split
  · exact removeRole_grows (authenticatedTenantContext_ok (checkGrant_ok checked)).1
  · exact .of_same rfl

theorem parseTenantRole_row {value : String} (parsed : parseTenantRole value = .ok role)
    (userId tenantId unitId : String) :
    ¬ RoleRow.PlatformAdmin ⟨userId, tenantId, unitId, server.lowercasing.toLowercase role.text⟩ := by
  unfold parseTenantRole at parsed
  by_cases privileged : fromStrFlexible value = .known .platformAdmin
  · simp [privileged] at parsed
  · simp only [privileged, if_false, Except.ok.injEq] at parsed
    rw [← parsed]
    exact server.lowercasing.not_platformAdmin privileged

theorem grantUserRole_grows (userId : String) (req : GrantRoleRequest) :
    dir.Grows (grantUserRole server headers userId req dir).2 (fun row => ¬ row.PlatformAdmin) := by
  unfold grantUserRole
  rw [bind_of_ok (get_run dir)]
  apply ofExcept_grows
  intro ctx _
  cases UserId.new userId with
  | none => exact .of_same rfl
  | some userId =>
    apply ofExcept_grows
    intro role parsed
    apply ofExcept_grows
    rintro ⟨unitId, scope⟩ _
    apply assigned_then_grows
    exact assignRoleScoped_grows (fun _ => parseTenantRole_row server parsed _ _ _)

theorem assignInvited_grows {value : String} (parsed : parseTenantRole value = .ok role)
    (ctx : TenantContext) (memberId : String) (req : InviteUserRequest) :
    dir.Grows (assignInvited server ctx memberId role req dir).2 (fun row => ¬ row.PlatformAdmin) := by
  unfold assignInvited
  rw [bind_of_ok (get_run dir)]
  have stored (unitId : String) : dir.Grows
      (assignRoleScoped server ctx memberId unitId role "user_invite_failed" dir).2
      (fun row => ¬ row.PlatformAdmin) :=
    assignRoleScoped_grows (fun _ => parseTenantRole_row server parsed memberId ctx.tenantId unitId)
  cases req.team with
  | some team =>
    apply ofExcept_grows
    exact fun _ _ => assigned_then_grows _ (stored team)
  | none =>
    cases req.org with
    | some org =>
      apply ofExcept_grows
      exact fun _ _ => assigned_then_grows _ (stored org)
    | none => exact .of_same rfl

theorem insertOrUpdateUser_userRoles (variant : UserTableVariant) (userId email name : String) (active : Bool) :
    (dir.insertOrUpdateUser variant userId email name active).2.userRoles = dir.userRoles := by
  unfold Directory.insertOrUpdateUser
  split <;> rfl

theorem inviteUser_grows (newId : String) (req : InviteUserRequest) :
    dir.Grows (inviteUser server headers newId req dir).2 (fun row => ¬ row.PlatformAdmin) := by
  unfold inviteUser
  rw [bind_of_ok (get_run dir)]
  apply ofExcept_grows
  intro ctx _
  by_cases email : ¬ looksLikeEmail req.email
  · rw [if_pos email]
    exact .of_same rfl
  · rw [if_neg email]
    apply ofExcept_grows
    intro role parsed
    cases server.userTable with
    | none => exact .of_same rfl
    | some variant =>
      have stored := insertOrUpdateUser_userRoles dir variant newId req.email
          (deriveNameFromEmail server req.email) false
      dsimp only
      generalize dir.insertOrUpdateUser variant newId req.email (deriveNameFromEmail server req.email) false =
        upsert at stored
      rw [bind_of_ok (modify_run _ dir)]
      refine Directory.Grows.trans (.of_same stored) ?_
      cases UserId.new req.email with
      | none => exact .of_same rfl
      | some memberId =>
        have assigned := assignInvited_grows server upsert.2 parsed ctx memberId req
        dsimp only
        rw [bind_run]
        split
        · rename_i outcome
          simpa [outcome] using assigned
        · rename_i outcome
          simpa [outcome] using assigned

theorem serve_grows (request : RoleRequest) : dir.Grows (dir.serve server request)
      (fun row => row.PlatformAdmin → dir.GrantsPlatformAdmin server request row.userId) := by
  cases request with
  | grantRole headers req => exact handleGrantRole_grows server dir headers req
  | revokeRole headers req => exact handleRevokeRole_grows server dir headers req
  | grantUserRole headers userId req => exact grantUserRole_grows server dir headers userId req
  | inviteUser headers newId req => exact inviteUser_grows server dir headers newId req

end

section
variable {server : Server} {dir : Directory}

theorem Directory.PlatformAdminAtInstance.rooted (only : dir.PlatformAdminAtInstance) : dir.Rooted :=
  fun row member privileged => ⟨row, member, privileged, rfl, only row member privileged⟩

theorem Directory.HoldsPlatformAdmin.grows {next : Directory} {new : RoleRow → Prop} {userId : String}
    (holds : dir.HoldsPlatformAdmin userId) (grows : dir.Grows next new) : next.HoldsPlatformAdmin userId := by
  obtain ⟨row, member, privileged, mine, root⟩ := holds
  exact ⟨row, grows.kept row member root, privileged, mine, root⟩

theorem Directory.Rooted.serve (rooted : dir.Rooted) {request : RoleRequest} (calm : ¬ dir.Escalates server request) :
    (dir.serve server request).Rooted := by
  intro row member privileged
  have grows := serve_grows server dir request
  rcases grows.fresh row member with old | granted
  · exact (rooted row old privileged).grows grows
  · by_contra lacking
    refine calm ⟨row.userId, granted privileged, ?_⟩
    intro holds
    exact lacking (holds.grows grows)

theorem Directory.Rooted.serveAll (requests : List RoleRequest) (rooted : dir.Rooted)
    (calm : dir.NoneEscalates server requests) : (dir.serveAll server requests).Rooted := by
  induction requests generalizing dir with
  | nil => exact rooted
  | cons request rest ih => exact ih (rooted.serve calm.1) calm.2

end

/-- Over every sequence of role requests none of which escalates, PlatformAdmin is computed for platform
administrators only. -/
theorem platformAdmin_contained (server : Server) (configured : server.anyProviderConfigured) (dir : Directory)
    (requests : List RoleRequest) (only : dir.PlatformAdminAtInstance) (calm : dir.NoneEscalates server requests) :
    (dir.serveAll server requests).Contained server :=
  (only.rooted.serveAll requests calm).contained configured

/-- `check_permission` lets administrators assign roles, as `rbac.cedar` does. -/
def Server.AllowsAdmins (server : Server) : Prop :=
  ∀ ctx resource, ctx.hasKnownRole .admin ∨ ctx.hasKnownRole .tenantAdmin ∨ ctx.hasKnownRole .platformAdmin →
    server.checkPermission ctx "AssignRoles" resource = .ok true

instance (row : RoleRow) : Decidable row.PlatformAdmin :=
  inferInstanceAs (Decidable (fromStrFlexible row.role = .known .platformAdmin))

instance (dir : Directory) (userId : String) : Decidable (dir.HoldsPlatformAdmin userId) :=
  inferInstanceAs (Decidable (∃ row ∈ dir.userRoles, _ ∧ _ ∧ _))

instance (dir : Directory) : Decidable dir.PlatformAdminAtInstance :=
  inferInstanceAs (Decidable (∀ row ∈ dir.userRoles, row.PlatformAdmin → row.tenantId = instanceScopeTenantId))

def acmeServer : Server where
  pluginAuth := true
  jwtSecret := some "secret"
  validatePluginToken token _ := if token = "ada" then some "ada" else none
  checkPermission ctx _ _ := .ok (ctx.hasKnownRole .admin || ctx.hasKnownRole .tenantAdmin || ctx.hasKnownRole .platformAdmin)
  lowercasing := asciiCasing

def acme : Directory where
  users := [⟨"u1", "ada@acme.io", "Ada", true, some "github", some "ada", none⟩]
  tenants := [{ id := "t1", slug := "acme", name := "Acme" }]
  units := [⟨"o1", "t1", "organization"⟩]
  userRoles := [⟨"u1", "t1", "o1", "tenantadmin"⟩]

def asAda : Headers := { authorization := some "Bearer ada" }

/-- The administrator names the instance scope and a unit of the tenant. -/
def selfPromotion : RoleRequest := .grantRole asAda ⟨"u1", .known .platformAdmin, .instance_, "o1"⟩

theorem acme_context (dir : Directory) (ctx : TenantContext)
    (found : (authenticatedTenantContext acmeServer dir asAda).toOption = some ctx) :
    authenticatedTenantContext acmeServer dir asAda = .ok ctx := by
  cases outcome : authenticatedTenantContext acmeServer dir asAda with
  | error e => simp [outcome, Except.toOption] at found
  | ok other => simpa [outcome, Except.toOption] using found

theorem tenantAdmin_promotes_itself :
    acmeServer.anyProviderConfigured ∧ acmeServer.AllowsAdmins ∧ acme.PlatformAdminAtInstance ∧
      acme.Unprivileged acmeServer selfPromotion ∧ ¬ (acme.serve acmeServer selfPromotion).Contained acmeServer := by
  refine ⟨rfl, ?_, by decide +kernel, ?_, ?_⟩
  · rintro ctx resource (admin | admin | admin) <;> simp [acmeServer, admin]
  · rintro ctx _ ⟨row, member, privileged, _⟩
    have none : ∀ row ∈ acme.userRoles, ¬ row.PlatformAdmin := by decide +kernel
    exact none row member privileged
  · intro contained
    have found : (authenticatedTenantContext acmeServer (acme.serve acmeServer selfPromotion) asAda).toOption =
        some { tenantId := "t1", userId := "u1", roles := [.known .platformAdmin, .known .tenantAdmin] } := by
      decide +kernel
    have holds := contained asAda _ (acme_context _ _ found) (by decide)
    have lacking : ¬ (acme.serve acmeServer selfPromotion).HoldsPlatformAdmin "u1" := by decide +kernel
    exact lacking holds

def acmeRequests : List RoleRequest :=
  [.grantRole asAda ⟨"u2", .known .developer, .team, "o1"⟩,
    .grantRole asAda ⟨"u2", .known .platformAdmin, .tenant, "o1"⟩,
    .grantRole asAda ⟨"u3", .known .admin, .tenant, "o1"⟩, .revokeRole asAda ⟨"u2", .known .developer, .team, "o1"⟩]

theorem acme_contained : (acme.serveAll acmeServer acmeRequests).userRoles =
      [⟨"u1", "t1", "o1", "tenantadmin"⟩, ⟨"u3", "t1", "o1", "admin"⟩] ∧
      (acme.serveAll acmeServer acmeRequests).Contained acmeServer := by
  refine ⟨by decide +kernel, platformAdmin_contained acmeServer rfl acme acmeRequests (by decide +kernel) ?_⟩
  refine ⟨?_, ?_, ?_, ?_, trivial⟩
  · rintro ⟨_, ⟨role, _⟩, _⟩
    cases role
  · rintro ⟨_, ⟨_, scope, _⟩, _⟩
    cases scope
  · rintro ⟨_, ⟨role, _⟩, _⟩
    cases role
  · rintro ⟨_, impossible, _⟩
    exact impossible

end Aeterna
