import Aeterna.Knowledge.Requests
import Mathlib.Data.List.Destutter
import Mathlib.Data.List.Sort

namespace Aeterna

def isWhitespace (c : Char) : Bool :=
  c.val ∈ [0x20, 0x85, 0xA0, 0x1680, 0x2028, 0x2029, 0x202F, 0x205F, 0x3000] ∨
    (0x09 ≤ c.val ∧ c.val ≤ 0x0D) ∨ (0x2000 ≤ c.val ∧ c.val ≤ 0x200A)

def trimText (text : String) : String :=
  String.ofList ((text.toList.dropWhile isWhitespace).reverse.dropWhile isWhitespace).reverse

def afterLeading (piece text : String) : Option String :=
  if piece.toList <+: text.toList then some (String.ofList (text.toList.drop piece.length)) else none

def asciiLower (text : String) : List Char := text.toList.map Char.toLower

def eqIgnoreAsciiCase (a b : String) : Bool := asciiLower a = asciiLower b

def Ascii (text : String) : Prop := ∀ c ∈ text.toList, c.val < 128

/-- `str::to_lowercase`. Outside ASCII, only the Kelvin sign has a lowercase within it. -/
structure Lowercasing where
  toLowercase : String → String
  ascii : ∀ text, Ascii text → (toLowercase text).toList = asciiLower text
  reflects : ∀ text, Ascii (toLowercase text) → 'k' ∉ (toLowercase text).toList → Ascii text

theorem toLower_ascii {c : Char} (low : c.toLower.val < 128) : c.val < 128 := by
  unfold Char.toLower at low
  split at low
  · rename_i upper
    have bound := UInt32.le_iff_toNat_le.mp upper.2
    exact UInt32.lt_iff_toNat_lt.mpr (Nat.lt_of_le_of_lt bound (by decide))
  · exact low

def asciiCasing : Lowercasing where
  toLowercase text := String.ofList (asciiLower text)
  ascii text _ := String.toList_ofList
  reflects text ascii _ := by
    intro c member
    refine toLower_ascii (ascii _ ?_)
    rw [String.toList_ofList]
    exact List.mem_map_of_mem member

def Role.all : List Role := [.viewer, .developer, .techLead, .architect, .admin, .tenantAdmin, .agent, .platformAdmin]

def Role.parse (text : String) : Option Role := Role.all.find? (fun role => eqIgnoreAsciiCase text role.debug)

def RoleIdentifier.fromStrFlexible (text : String) : RoleIdentifier :=
  match Role.parse text with
  | some role => .known role
  | none => .custom text

def RoleIdentifier.text : RoleIdentifier → String
  | .known role => role.debug
  | .custom name => name

def RoleIdentifier.same : RoleIdentifier → RoleIdentifier → Bool
  | .known a, .known b => a = b
  | .custom a, .custom b => a = b
  | .known role, .custom name => eqIgnoreAsciiCase role.debug name
  | .custom name, .known role => eqIgnoreAsciiCase role.debug name

def TenantContext.hasKnownRole (ctx : TenantContext) (role : Role) : Bool := ctx.roles.any (·.same (.known role))

def instanceScopeTenantId : String := "__root__"

/-- A row of `user_roles`, without its creation time. -/
structure RoleRow where
  (userId tenantId unitId role : String)
  deriving DecidableEq, Repr

/-- A row of `organizational_units`, as far as role requests read it. -/
structure UnitRow where
  (id tenantId kind : String)

/-- A row of `tenants`, whose ids are UUIDs. -/
structure TenantRecord where
  (id slug name : String)
  active : Bool := true
  uuid : id ≠ instanceScopeTenantId := by decide

structure UserRow where
  (id email name : String)
  active : Bool
  idpProvider : Option String := none
  idpSubject : Option String := none
  defaultTenantId : Option String := none

structure Directory where
  users : List UserRow := []
  tenants : List TenantRecord := []
  units : List UnitRow := []
  userRoles : List RoleRow := []

namespace Directory
variable (dir : Directory)

def getUserRolesForAuth (userId tenantId : String) : List RoleIdentifier :=
  let rows := dir.userRoles.filter (fun row =>
    row.userId = userId ∧ (row.tenantId = tenantId ∨ row.tenantId = instanceScopeTenantId))
  let roles := (rows.map (·.role)).dedup.map RoleIdentifier.fromStrFlexible
  (roles.insertionSort (fun a b => asciiLower a.text ≤ asciiLower b.text)).destutter (fun a b => ¬ a.same b)

def getUserTenantIds (userId : String) : List String :=
  let rows := dir.userRoles.filter (fun row => row.userId = userId ∧ row.tenantId ≠ instanceScopeTenantId)
  (rows.map (·.tenantId)).dedup.insertionSort (fun a b => a ≤ b)

def getTenant (reference : String) : Option TenantRecord :=
  dir.tenants.find? (fun t => t.id = reference ∨ t.slug = reference ∨ t.name = reference)

def resolveUserIdByIdp (provider subject : String) : Option String :=
  (dir.users.find? (fun u => u.idpProvider = some provider ∧ u.idpSubject = some subject)).map (·.id)

def getUserDefaultTenant (userId : String) : Option String :=
  (dir.users.find? (fun u => u.id = userId)).bind (·.defaultTenantId)

end Directory

/-- An error answer; `extra` is what its body holds beside the code and the message. -/
structure Response where
  status : Nat
  (error message : String)
  extra : List (String × Json) := []

structure Headers where
  authorization : Option String := none
  tenantId : Option String := none
  userId : Option String := none
  userRole : Option String := none
  targetTenantId : Option String := none
  acceptErrorLegacy : Option String := none

inductive TenantRuntimeState where
  | loading
  | available
  | loadingFailed (reason : String)

inductive UserTableVariant where
  | main | idpSync

/-- The configuration of a server and what it asks of other services: the two token validators, the state
of a tenant's providers and the authorization service. -/
structure Server where
  pluginAuth : Bool := false
  jwtSecret : Option String := none
  defaultTenantId : Option String := none
  k8sAuth : Bool := false
  validatePluginToken : String → String → Option String := fun _ _ => none
  validateK8sBearer : String → Option String := fun _ => none
  ensureWired : String → TenantRuntimeState := fun _ => .available
  checkPermission : TenantContext → String → String → Except String Bool
  userTable : Option UserTableVariant := some .main
  foreignKeyError : String := "Database error"
  lowercasing : Lowercasing
  toUppercase : Char → List Char := fun c => [c.toUpper]

def Server.anyProviderConfigured (server : Server) : Bool := server.pluginAuth ∨ server.k8sAuth

def UserId.new (id : String) : Option String := if id = "" ∨ id.utf8ByteSize > 100 then none else some id

def TenantRecord.toJson (t : TenantRecord) : Json :=
  .obj [("id", .str t.id), ("slug", .str t.slug), ("name", .str t.name)]

def selectTenantResponse (available : List TenantRecord) (headers : Headers) : Response :=
  if headers.acceptErrorLegacy.any (fun value => eqIgnoreAsciiCase value "true") then
    ⟨400, "tenant_required", "X-Tenant-ID header required", []⟩
  else
    ⟨400, "select_tenant", "This request requires a tenant selection.",
      [("availableTenants", .arr (available.map TenantRecord.toJson)),
        ("hint", .str (if available.isEmpty then "You have no tenant memberships. Contact an administrator."
          else "Provide an X-Tenant-ID header or set a default via PUT /api/v1/user/me/default-tenant."))]⟩

def tenantUnavailableResponse (slug wiringState : String) (retryAfter : Nat) : Response :=
  ⟨503, "tenant_unavailable", "Tenant '" ++ slug ++ "' is not ready to serve traffic on this pod",
    [("tenant", .str slug), ("state", .str wiringState), ("retryAfterSeconds", .num retryAfter)]⟩

def extractBearerToken (headers : Headers) : Option String :=
  headers.authorization.bind (fun value => (afterLeading "Bearer " (trimText value)).map trimText)

def validatePluginBearer (server : Server) (headers : Headers) (secret : String) : Option String :=
  (headers.authorization.bind (afterLeading "Bearer ")).bind (fun token => server.validatePluginToken token secret)

inductive Resolution where
  | provider (name subject : String)
  | devHeaders (userId : String) (roles : List RoleIdentifier)

def invalidBearerToken : Response :=
  ⟨401, "invalid_bearer_token", "Bearer token was not accepted by any configured provider", []⟩

def resolveBearer (server : Server) (headers : Headers) : Except Response Resolution :=
  if server.anyProviderConfigured then
    match extractBearerToken headers with
    | none => .error ⟨401, "missing_bearer_token", "Authorization: Bearer token required", []⟩
    | some token =>
      if server.pluginAuth then
        match server.jwtSecret with
        | none => .error ⟨500, "configuration_error", "Plugin auth JWT secret is not configured", []⟩
        | some secret =>
          match validatePluginBearer server headers secret with
          | some login => .ok (.provider "github" login)
          | none =>
            match if server.k8sAuth then server.validateK8sBearer token else none with
            | some username => .ok (.provider "kubernetes" username)
            | none => .error invalidBearerToken
      else
        match server.validateK8sBearer token with
        | some username => .ok (.provider "kubernetes" username)
        | none => .error invalidBearerToken
  else
    let userId := (headers.userId.filter (· ≠ "")).getD "system"
    .ok (.devHeaders (String.ofList (userId.toList.take 100))
      ((headers.userRole.filter (· ≠ "")).toList.map RoleIdentifier.fromStrFlexible))

def resolveIdentity (server : Server) (dir : Directory) (headers : Headers) :
    Except Response (String × List RoleIdentifier × List String) := do
  let (userId, roles, tenantIds) ←
    match ← resolveBearer server headers with
    | .provider name subject =>
      match dir.resolveUserIdByIdp name subject with
      | none => .error ⟨401, "identity_not_provisioned", "Authenticated identity is not provisioned", []⟩
      | some uid => .ok (uid, dir.getUserRolesForAuth uid instanceScopeTenantId, dir.getUserTenantIds uid)
    | .devHeaders userId roles => .ok (userId, roles, [])
  match UserId.new userId with
  | none => .error ⟨400, "invalid_user_id", "Invalid authenticated user identifier", []⟩
  | some userId => .ok (userId, roles, tenantIds)

structure RequestContext where
  userId : String
  roles : List RoleIdentifier
  isPlatformAdmin : Bool
  tenant : Option TenantRecord
  availableTenants : List TenantRecord

def requestContext (server : Server) (dir : Directory) (headers : Headers) : Except Response RequestContext := do
  let (userId, instanceRoles, knownTenantIds) ← resolveIdentity server dir headers
  let isPlatformAdmin := decide (.known .platformAdmin ∈ instanceRoles)
  let available :=
    if isPlatformAdmin then dir.tenants.filter (·.active) else knownTenantIds.filterMap dir.getTenant
  let context (tenant : Option TenantRecord) : RequestContext :=
    ⟨userId, instanceRoles, isPlatformAdmin, tenant, available⟩
  match (headers.tenantId.map trimText).filter (· ≠ "") with
  | some hint =>
    match dir.getTenant hint with
    | none => .error ⟨404, "tenant_not_found", "No tenant matches '" ++ hint ++ "'", []⟩
    | some record =>
      if isPlatformAdmin ∨ record.id ∈ knownTenantIds then .ok (context (some record))
      else .error ⟨403, "forbidden_tenant", "You are not a member of the requested tenant", []⟩
  | none =>
    let preferred := ((dir.getUserDefaultTenant userId).bind dir.getTenant).filter
      (fun record => isPlatformAdmin ∨ record.id ∈ knownTenantIds)
    let single := match knownTenantIds with
      | [only] => dir.getTenant only
      | _ => none
    match preferred.or single with
    | some record => .ok (context (some record))
    | none => if isPlatformAdmin then .ok (context none) else .error (selectTenantResponse available headers)

def RequestContext.requireAvailableTenant (ctx : RequestContext) (server : Server) (headers : Headers) :
    Except Response TenantRecord :=
  match ctx.tenant with
  | none => .error (selectTenantResponse ctx.availableTenants headers)
  | some tenant =>
    match server.ensureWired tenant.slug with
    | .available => .ok tenant
    | .loading => .error (tenantUnavailableResponse tenant.slug "loading" 1)
    | .loadingFailed reason =>
      if reason = "tenant not found" then
        .error ⟨404, "tenant_not_found", "No tenant matches slug '" ++ tenant.slug ++ "'", []⟩
      else .error (tenantUnavailableResponse tenant.slug "loadingFailed" 30)

/-- Characters that `HeaderValue::from_str` accepts. -/
def headerText (value : String) : Bool := value.toList.all (fun c => c = '\t' ∨ (32 ≤ c.val ∧ c.val < 127))

def effectiveHeaders (server : Server) (headers : Headers) : Headers :=
  let fallback := server.defaultTenantId.getD "default"
  if ¬ server.anyProviderConfigured ∧ headers.tenantId.isNone ∧ headerText fallback then
    { headers with tenantId := some fallback }
  else headers

def extractDeprecatedTargetTenant (headers : Headers) : Option String :=
  (headers.targetTenantId.filter (· ≠ "")).bind (fun raw =>
    (TenantId.new (String.ofList (raw.toList.take 100))).map (·.text))

def authenticatedTenantContext (server : Server) (dir : Directory) (headers : Headers) :
    Except Response TenantContext := do
  let effective := effectiveHeaders server headers
  let ctx ← requestContext server dir effective
  let tenant ← ctx.requireAvailableTenant server effective
  let roles := if server.anyProviderConfigured then dir.getUserRolesForAuth ctx.userId tenant.id else ctx.roles
  .ok { tenantId := tenant.id, userId := ctx.userId, roles := roles,
        targetTenantId := extractDeprecatedTargetTenant headers }

end Aeterna
