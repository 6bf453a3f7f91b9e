import Aeterna.Core.Types
import Aeterna.Lib.Cedar
import Mathlib.Data.List.Sort

/-!
The Cedar entities that are published from rows of the database (`opal-fetcher/src/entities.rs`).
-/

namespace Aeterna
open Lib.Cedar

def uuidText (text : String) : Bool :=
  text.length = 36 ∧ text.toList.zipIdx.all (fun (c, position) =>
    if position ∈ [8, 13, 18, 23] then c = '-' else c.isDigit ∨ ('a' ≤ c ∧ c ≤ 'f'))

structure Uuid where
  text : String
  canonical : uuidText text
  deriving DecidableEq

theorem Uuid.text_inj {a b : Uuid} : a.text = b.text ↔ a = b := by
  cases a
  cases b
  simp

structure HierarchyRow where
  tenantId : Uuid
  orgId : Option Uuid := none
  orgSlug : Option String := none
  orgName : Option String := none
  teamId : Option Uuid := none
  teamSlug : Option String := none
  teamName : Option String := none
  projectId : Option Uuid := none
  projectSlug : Option String := none
  projectName : Option String := none
  gitRemote : Option String := none

/-- A row of `v_user_permissions`, as far as its entities read it. -/
structure UserPermissionRow where
  (tenantId userId : Uuid)
  email : String
  userName : Option String := none
  userStatus : String
  teamId : Uuid
  role : String

/-- A row of `v_agent_permissions`, as far as its entity reads it. -/
structure AgentPermissionRow where
  agentId : Uuid
  (agentName agentType : String)
  delegatedByUserId : Option Uuid := none
  delegatedByAgentId : Option Uuid := none
  delegationDepth : Int
  capabilities : Json
  allowedTenantIds : Option (List Uuid) := none
  allowedOrgIds : Option (List Uuid) := none
  allowedTeamIds : Option (List Uuid) := none
  allowedProjectIds : Option (List Uuid) := none
  agentStatus : String
  delegatingUserEmail : Option String := none

variable (id : Uuid) (rows : List UserPermissionRow)

def tenantUid : EntityUid := ⟨"Aeterna::Tenant", id.text⟩
def organizationUid : EntityUid := ⟨"Aeterna::Organization", id.text⟩
def teamUid : EntityUid := ⟨"Aeterna::Team", id.text⟩
def projectUid : EntityUid := ⟨"Aeterna::Project", id.text⟩
def userUid : EntityUid := ⟨"Aeterna::User", id.text⟩
def roleUid (name : String) : EntityUid := ⟨"Aeterna::Role", name⟩
def agentUid : EntityUid := ⟨"Aeterna::Agent", id.text⟩

def textValue (value : String) : Value := .prim (.string value)

def textSet (values : List String) : Value := .set (values.map Prim.string).toFinset

namespace HierarchyRow
variable (row : HierarchyRow)

def tenantEntity : Entity := { uid := tenantUid row.tenantId }

def organizationEntity : Option Entity :=
  match row.orgId, row.orgSlug, row.orgName with
  | some id, some slug, some name =>
    some { uid := organizationUid id, attrs := [("slug", textValue slug), ("name", textValue name)], parents := [tenantUid row.tenantId] }
  | _, _, _ => none

def teamEntity : Option Entity :=
  match row.teamId, row.teamSlug, row.teamName, row.orgId with
  | some id, some slug, some name, some orgId =>
    some { uid := teamUid id, attrs := [("slug", textValue slug), ("name", textValue name)], parents := [organizationUid orgId] }
  | _, _, _, _ => none

def projectEntity : Option Entity :=
  match row.projectId, row.projectSlug, row.projectName, row.teamId with
  | some id, some slug, some name, some teamId =>
    some {
      uid := projectUid id
      attrs := [("slug", textValue slug), ("name", textValue name)] ++
        row.gitRemote.toList.map (fun gitRemote => ("git_remote", textValue gitRemote))
      parents := [teamUid teamId] }
  | _, _, _, _ => none

def entities : List Entity :=
  row.tenantEntity :: (row.organizationEntity.toList ++ row.teamEntity.toList ++ row.projectEntity.toList)

end HierarchyRow

def pushUnseen (published : List Entity) (entity : Entity) : List Entity :=
  if entity.uid ∈ published.map (·.uid) then published else published ++ [entity]

def transformHierarchy (rows : List HierarchyRow) : List Entity :=
  (rows.flatMap HierarchyRow.entities).foldl pushUnseen []

def normalizeRoleToEntityId : String → String
  | "platformadmin" => "PlatformAdmin"
  | "tenantadmin" => "TenantAdmin"
  | "admin" => "Admin"
  | "architect" => "Architect"
  | "techlead" => "TechLead"
  | "developer" => "Developer"
  | "viewer" => "Viewer"
  | role => role

/-- A `BTreeSet` of normalized roles, in its order. -/
def roleSet : List String :=
  (rows.map (fun row => normalizeRoleToEntityId row.role)).dedup.insertionSort (fun a b => a ≤ b)

def transformRoles : List Entity :=
  (roleSet rows).map (fun role => { uid := roleUid role, attrs := [("name", textValue role)] })

def userRows (userId : Uuid) : List UserPermissionRow :=
  rows.filter (fun row => row.userId = userId)

def userEntity (userId : Uuid) (first : UserPermissionRow) (rows : List UserPermissionRow) : Entity where
  uid := userUid userId
  attrs :=
    [("email", textValue first.email), ("status", textValue first.userStatus),
      ("roles", textSet (rows.map (·.role)))] ++
      first.userName.toList.map (fun name => ("name", textValue name))
  parents := rows.map (fun row => teamUid row.teamId) ++ (roleSet rows).map roleUid

def transformUsers : List Entity :=
  ((rows.map (·.userId)).dedup).filterMap (fun userId =>
    (userRows rows userId).head?.map (fun first => userEntity userId first (userRows rows userId)))

def Json.asText : Json → Option String
  | .str value => some value
  | _ => none

def Json.textsOrDefault : Json → List String
  | .arr items => (items.mapM Json.asText).getD []
  | _ => []

def scopeAttr (name : String) (ids : Option (List Uuid)) : List (String × Value) :=
  match ids with
  | some (id :: rest) => [(name, textSet ((id :: rest).map (·.text)))]
  | _ => []

namespace AgentPermissionRow
variable (row : AgentPermissionRow)

def delegationAttrs : List (String × Value) :=
  match row.delegatedByUserId, row.delegatedByAgentId with
  | some userId, _ =>
    ("delegated_by", .record [("id", .string userId.text), ("type", .string "User")]) ::
      row.delegatingUserEmail.toList.map (fun email => ("delegating_user_email", textValue email))
  | none, some agentId => [("delegated_by", .record [("id", .string agentId.text), ("type", .string "Agent")])]
  | none, none => []

def entity : Entity where
  uid := agentUid row.agentId
  attrs :=
    [("name", textValue row.agentName), ("agent_type", textValue row.agentType),
      ("delegation_depth", .prim (.long row.delegationDepth)),
      ("capabilities", textSet row.capabilities.textsOrDefault), ("status", textValue row.agentStatus)] ++
    row.delegationAttrs ++ scopeAttr "allowed_tenant_ids" row.allowedTenantIds ++
    scopeAttr "allowed_org_ids" row.allowedOrgIds ++ scopeAttr "allowed_team_ids" row.allowedTeamIds ++
    scopeAttr "allowed_project_ids" row.allowedProjectIds
  parents := (row.allowedTeamIds.getD []).map teamUid

end AgentPermissionRow

def transformAgents (rows : List AgentPermissionRow) : List Entity := rows.map AgentPermissionRow.entity

end Aeterna
