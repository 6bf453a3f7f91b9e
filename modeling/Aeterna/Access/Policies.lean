import Aeterna.Access.Entities

namespace Aeterna
open Lib.Cedar

def actionUid (name : String) : EntityUid := ⟨"Aeterna::Action", name⟩

def oneOf (names : List String) : ActionScope := .oneOf (names.map actionUid)

def only (name : String) : ActionScope := .only (actionUid name)

def principalAttr (attr : String) : Expr := .getAttr (.var .principal) attr

def principalStatus (status : String) : Expr := .eq (principalAttr "status") (.lit (.string status))

def resourceStatus (status : String) : Expr := .eq (.getAttr (.var .resource) "status") (.lit (.string status))

def principalInRole (role : String) : Expr := .isIn (.var .principal) (.lit (.entity (roleUid role)))

def memoryActions : List String :=
  ["ViewMemory", "CreateMemory", "UpdateMemory", "DeleteMemory", "PromoteMemory", "SearchMemory", "ListMemory",
   "OptimizeMemory", "ReasonMemory", "CloseMemory", "FeedbackMemory"]

def knowledgeActions : List String :=
  ["ViewKnowledge", "ProposeKnowledge", "EditKnowledge", "ApproveKnowledge", "DeprecateKnowledge",
   "ListKnowledge", "SearchKnowledge", "BatchKnowledge"]

def policyActions : List String :=
  ["ViewPolicy", "CreatePolicy", "EditPolicy", "ApprovePolicy", "SimulatePolicy"]

def governanceActions : List String :=
  ["ViewGovernanceRequest", "SubmitGovernanceRequest", "ApproveGovernanceRequest", "RejectGovernanceRequest"]

def organizationActions : List String :=
  ["ViewOrganization", "CreateOrganization", "CreateTeam", "CreateProject", "ManageMembers", "AssignRoles",
   "ManageTeamAssignments"]

def agentActions : List String :=
  ["RegisterAgent", "RevokeAgent", "DelegateToAgent"]

def dataActions : List String :=
  ["ViewAuditLog", "ExportData", "ImportData", "ConfigureGovernance"]

def bindingActions : List String :=
  ["ViewRepositoryBinding", "UpdateRepositoryBinding"]

def sessionActions : List String :=
  ["CreateSession", "ViewSession", "EndSession"]

def syncActions : List String :=
  ["TriggerSync", "ViewSyncStatus", "ResolveConflict"]

def graphActions : List String :=
  ["QueryGraph", "ModifyGraph"]

def toolActions : List String :=
  ["InvokeCCA", "InvokeMcpTool"]

def userActions : List String :=
  ["ViewUser", "RegisterUser", "UpdateUser", "DeactivateUser"]

def tenantViewActions : List String :=
  ["ViewTenant", "ViewTenantConfig", "ViewRepositoryBinding", "ViewGitProviderConnections"]

def platformAdminScopes : List ActionScope :=
  [oneOf memoryActions, oneOf knowledgeActions, oneOf policyActions, oneOf governanceActions,
   oneOf organizationActions, oneOf agentActions, oneOf dataActions, oneOf ["ListTenants", "CreateTenant",
   "ViewTenant", "UpdateTenant", "DeactivateTenant", "ViewTenantConfig", "UpdateTenantConfig",
   "ManageTenantSecrets", "ManageGitProviderConnections", "ViewGitProviderConnections"], oneOf bindingActions,
   oneOf sessionActions, oneOf syncActions, oneOf graphActions, oneOf toolActions, oneOf userActions,
   only "AdminSyncGitHub"]

def tenantAdminScopes : List ActionScope :=
  [oneOf memoryActions, oneOf knowledgeActions, oneOf policyActions, oneOf governanceActions,
   oneOf organizationActions, oneOf agentActions, oneOf dataActions, oneOf ["ViewTenant", "UpdateTenant",
   "DeactivateTenant", "ViewTenantConfig", "UpdateTenantConfig", "ManageTenantSecrets",
   "ViewGitProviderConnections"], oneOf bindingActions, oneOf sessionActions, oneOf syncActions,
   oneOf graphActions, oneOf toolActions, oneOf userActions]

def architectScopes : List ActionScope :=
  [oneOf memoryActions, oneOf knowledgeActions, oneOf policyActions, oneOf governanceActions,
   oneOf ["ViewOrganization", "CreateTeam", "CreateProject", "ManageMembers", "ManageTeamAssignments"],
   oneOf agentActions, only "ViewAuditLog", oneOf ["ViewTenant", "ViewTenantConfig", "ViewGitProviderConnections",
   "ViewRepositoryBinding"], oneOf sessionActions, oneOf syncActions, oneOf graphActions, oneOf toolActions,
   only "ViewUser"]

def techLeadScopes : List ActionScope :=
  [oneOf memoryActions, oneOf knowledgeActions, oneOf ["ViewPolicy", "CreatePolicy", "SimulatePolicy"],
   oneOf governanceActions, oneOf ["ViewOrganization", "CreateProject", "ManageMembers", "ManageTeamAssignments"],
   oneOf agentActions, only "ViewAuditLog", oneOf tenantViewActions, oneOf sessionActions, oneOf ["TriggerSync",
   "ViewSyncStatus"], oneOf graphActions, oneOf toolActions, only "ViewUser"]

def developerScopes : List ActionScope :=
  [oneOf ["ViewMemory", "CreateMemory", "UpdateMemory", "SearchMemory", "ListMemory", "FeedbackMemory"],
   oneOf ["ViewKnowledge", "ProposeKnowledge", "ListKnowledge", "SearchKnowledge"], oneOf ["ViewPolicy",
   "SimulatePolicy"], oneOf ["ViewGovernanceRequest", "SubmitGovernanceRequest"], only "ViewOrganization",
   oneOf ["RegisterAgent", "DelegateToAgent"], oneOf sessionActions, only "ViewSyncStatus", only "QueryGraph",
   oneOf toolActions, oneOf tenantViewActions, only "ViewUser"]

def viewerScopes : List ActionScope :=
  [oneOf ["ViewMemory", "SearchMemory", "ListMemory"], oneOf ["ViewKnowledge", "ListKnowledge", "SearchKnowledge"],
   oneOf ["ViewPolicy", "SimulatePolicy"], only "ViewGovernanceRequest", only "ViewOrganization",
   only "ViewSyncStatus", only "ViewSession", oneOf tenantViewActions, only "QueryGraph", only "ViewUser"]

/-- The permits of each role. `Admin` is a legacy alias for `TenantAdmin`. -/
def rolePermits : List (String × List ActionScope) :=
  [("PlatformAdmin", platformAdminScopes), ("TenantAdmin", tenantAdminScopes), ("Admin", tenantAdminScopes),
   ("Architect", architectScopes), ("TechLead", techLeadScopes), ("Developer", developerScopes),
     ("Viewer", viewerScopes)]

def rolePermit (role : String) (action : ActionScope) : Policy where
  effect := .permit
  principal := .is "Aeterna::User"
  action := action
  condition := .and (principalInRole role) (principalStatus "active")

def rbac : List Policy := rolePermits.flatMap (fun (role, scopes) => scopes.map (rolePermit role))

structure AgentPermit where
  (action capability : String)
  resource : Scope := .any
  -- registering and delegating leave room for one more hop
  below : Bool := false

def agentPermits : List AgentPermit :=
  [{ action := "ViewMemory", capability := "memory:read" },
   { action := "CreateMemory", capability := "memory:write" },
   { action := "UpdateMemory", capability := "memory:write" },
   { action := "DeleteMemory", capability := "memory:delete" },
   { action := "PromoteMemory", capability := "memory:promote" },
   { action := "ViewKnowledge", capability := "knowledge:read" },
   { action := "ProposeKnowledge", capability := "knowledge:propose" },
   { action := "EditKnowledge", capability := "knowledge:edit" },
   { action := "ViewPolicy", capability := "policy:read" },
   { action := "CreatePolicy", capability := "policy:create" },
   { action := "SimulatePolicy", capability := "policy:simulate" },
   { action := "ViewGovernanceRequest", capability := "governance:read" },
   { action := "SubmitGovernanceRequest", capability := "governance:submit" },
   { action := "ViewOrganization", capability := "org:read" },
   { action := "RegisterAgent", capability := "agent:register", below := true },
   { action := "DelegateToAgent", capability := "agent:delegate", resource := .is "Aeterna::Agent", below := true }]

def AgentPermit.policy (permit : AgentPermit) : Policy where
  effect := .permit
  principal := .is "Aeterna::Agent"
  action := only permit.action
  resource := permit.resource
  condition :=
    .and
      (.and (principalStatus "active")
        (if permit.below then .less (principalAttr "delegation_depth") (principalAttr "max_delegation_depth")
          else .lessEq (principalAttr "delegation_depth") (principalAttr "max_delegation_depth")))
      (.contains (principalAttr "capabilities") (.lit (.string permit.capability)))

def agentDelegation : List Policy := agentPermits.map AgentPermit.policy

def forbidWhen (principal : String) (condition : Expr) : Policy where
  effect := .forbid
  principal := .is principal
  condition := condition

def forbidUnlessPlatformAdmin (action : String) : Policy where
  effect := .forbid
  principal := .is "Aeterna::User"
  action := only action
  condition := .not (principalInRole "PlatformAdmin")

def forbids : List Policy :=
  [forbidWhen "Aeterna::Agent" (principalStatus "revoked"),
   forbidWhen "Aeterna::Agent" (principalStatus "expired"),
   -- `a > b` is `! (a <= b)`
   forbidWhen "Aeterna::Agent" (.not
     (.lessEq (principalAttr "delegation_depth") (principalAttr "max_delegation_depth"))),
   forbidWhen "Aeterna::User" (principalStatus "inactive"),
   forbidWhen "Aeterna::User" (principalStatus "suspended"),
   { effect := .forbid, action := only "EditKnowledge", resource := .is "Aeterna::Knowledge",
     condition := resourceStatus "approved" },
   { effect := .forbid, action := only "EditPolicy", resource := .is "Aeterna::Policy",
     condition := .and (resourceStatus "active")
      (.eq (.getAttr (.var .resource) "requires_approval") (.lit (.bool true))) },
   forbidUnlessPlatformAdmin "ListTenants",
   forbidUnlessPlatformAdmin "CreateTenant",
   forbidUnlessPlatformAdmin "ManageGitProviderConnections",
   forbidUnlessPlatformAdmin "AdminSyncGitHub",
   { effect := .forbid, principal := .is "Aeterna::User", action := only "AssignRoles",
     condition := .and (.and (.not (principalInRole "Admin")) (.not (principalInRole "TenantAdmin")))
      (.not (principalInRole "PlatformAdmin")) }]

def cedarPolicies : List Policy := rbac ++ agentDelegation ++ forbids

/-- An agent that is active, within its maximum depth and holds the capability of a permit is allowed the
permit's action, and one that is revoked, expired or beyond its maximum is allowed nothing. The maximum is
the one the agents' table holds. -/
def AgentPoliciesApply (maximum : Uuid → Int) (rows : List AgentPermissionRow) : Prop :=
  (∀ row ∈ rows, row.agentStatus = "active" → row.delegationDepth ≤ maximum row.agentId →
    ∀ permit ∈ agentPermits, permit.capability ∈ row.capabilities.textsOrDefault →
    ∀ resource, permit.resource.covers resource →
      allows cedarPolicies (transformAgents rows) ⟨agentUid row.agentId, actionUid permit.action, resource⟩) ∧
  (∀ row ∈ rows,
    row.agentStatus = "revoked" ∨ row.agentStatus = "expired" ∨ maximum row.agentId < row.delegationDepth →
    ∀ action resource,
      ¬ allows cedarPolicies (transformAgents rows) ⟨agentUid row.agentId, actionUid action, resource⟩)

theorem lookup_eq_none_append {fields more : List (String × Value)} {attr : String}
    (first : fields.lookup attr = none) (second : more.lookup attr = none) : (fields ++ more).lookup attr = none := by
  simp_all [List.lookup_eq_none_iff]
  grind

theorem scopeAttr_other {name attr : String} {ids : Option (List Uuid)} (differs : attr ≠ name) :
    (scopeAttr name ids).lookup attr = none := by
  rcases ids with _ | _ | ⟨id, rest⟩
  · rfl
  · rfl
  · simp [scopeAttr, List.lookup_cons, beq_false_of_ne differs]

theorem delegationAttrs_no_maximum (row : AgentPermissionRow) :
    row.delegationAttrs.lookup "max_delegation_depth" = none := by
  unfold AgentPermissionRow.delegationAttrs
  rcases row.delegatedByUserId with _ | userId
  · rcases row.delegatedByAgentId with _ | agentId <;> simp [List.lookup_cons]
  · rcases row.delegatingUserEmail with _ | email <;> simp [List.lookup_cons]

theorem entity_no_maximum (row : AgentPermissionRow) : row.entity.attrs.lookup "max_delegation_depth" = none := by
  refine lookup_eq_none_append (lookup_eq_none_append (lookup_eq_none_append (lookup_eq_none_append
    (lookup_eq_none_append ?_ (delegationAttrs_no_maximum row)) ?_) ?_) ?_) ?_
  · simp [List.lookup_cons]
  all_goals exact scopeAttr_other (by decide)

variable {rows : List AgentPermissionRow}

theorem published_no_maximum {uid : EntityUid} {entity : Entity}
    (found : lookup (transformAgents rows) uid = some entity) :
    entity.attrs.lookup "max_delegation_depth" = none := by
  obtain ⟨row, -, rfl⟩ := List.mem_map.mp (List.mem_of_find?_eq_some found)
  exact entity_no_maximum row

theorem depth_errs {request : Request} {depth : Expr} {value : Value} :
    (Expr.lessEq depth (principalAttr "max_delegation_depth")).evaluate request (transformAgents rows) ≠ .ok value ∧
      (Expr.less depth (principalAttr "max_delegation_depth")).evaluate request
        (transformAgents rows) ≠ .ok value := by
  have missing : ∀ limit, (principalAttr "max_delegation_depth").evaluate request
      (transformAgents rows) ≠ .ok limit := by
    intro limit got
    obtain ⟨entity, found, held⟩ := Expr.evaluate_attr.mp got
    rw [published_no_maximum found] at held
    cases held
  constructor
  · intro got
    obtain ⟨limit, read⟩ := Expr.lessEq_reads got
    exact missing _ read
  · intro got
    obtain ⟨limit, read⟩ := Expr.less_reads got
    exact missing _ read

theorem agentPermit_unsatisfied (permit : AgentPermit) (rows : List AgentPermissionRow) (request : Request) :
    ¬ permit.policy.satisfied (transformAgents rows) request := by
  intro satisfied
  obtain ⟨-, -, -, holds⟩ := Policy.satisfied_iff.mp satisfied
  have depth := (Expr.holds_and.mp (Expr.holds_and.mp holds).1).2
  by_cases below : permit.below
  · rw [if_pos below] at depth
    exact depth_errs.2 depth
  · rw [if_neg below] at depth
    exact depth_errs.1 depth

theorem agent_denied (rows : List AgentPermissionRow) (agent : Uuid) (action resource : EntityUid) :
    ¬ allows cedarPolicies (transformAgents rows) ⟨agentUid agent, action, resource⟩ := by
  intro allowed
  obtain ⟨policy, held, permits, satisfied⟩ := permitted_of_allows allowed
  rcases List.mem_append.mp held with (held | held)
  · rcases List.mem_append.mp held with held | held
    · obtain ⟨⟨role, scopes⟩, -, held⟩ := List.mem_flatMap.mp held
      obtain ⟨scope, -, rfl⟩ := List.mem_map.mp held
      have user := (Policy.satisfied_iff.mp satisfied).1
      simp [rolePermit, Scope.covers, agentUid] at user
    · obtain ⟨permit, -, rfl⟩ := List.mem_map.mp held
      exact agentPermit_unsatisfied permit rows _ satisfied
  · have forbids_only : ∀ policy ∈ forbids, policy.effect = .forbid := by
      simp [forbids, forbidWhen, forbidUnlessPlatformAdmin]
    rw [forbids_only policy held] at permits
    cases permits

theorem agentPolicies_apply_iff (maximum : Uuid → Int) (rows : List AgentPermissionRow) :
    AgentPoliciesApply maximum rows ↔ ∀ row ∈ rows, row.agentStatus = "active" →
      row.delegationDepth ≤ maximum row.agentId →
      ∀ permit ∈ agentPermits, permit.capability ∉ row.capabilities.textsOrDefault := by
  constructor
  · rintro ⟨granted, -⟩ row held active within permit listed capable
    -- each permit covers some resource
    have covered : ∃ resource, permit.resource.covers resource := by
      rcases permit.resource with _ | entityType
      · exact ⟨⟨"", ""⟩, rfl⟩
      · exact ⟨⟨entityType, ""⟩, by simp [Scope.covers]⟩
    obtain ⟨resource, covers⟩ := covered
    exact agent_denied rows row.agentId _ resource
      (granted row held active within permit listed capable resource covers)
  · intro none_capable
    constructor
    · intro row held active within permit listed capable
      exact absurd capable (none_capable row held active within permit listed)
    · intro row _ _ action resource
      exact agent_denied rows row.agentId _ resource

def codingAssistant : AgentPermissionRow where
  agentId := ⟨"00000000-0000-0000-0000-0000000000a1", by decide +kernel⟩
  agentName := "assistant"
  agentType := "opencode"
  delegatedByUserId := some ⟨"00000000-0000-0000-0000-0000000000b1", by decide +kernel⟩
  delegationDepth := 1
  capabilities := .arr [.str "memory:read", .str "memory:write"]
  agentStatus := "active"

theorem codingAssistant_denied : ¬ AgentPoliciesApply (fun _ => 3) [codingAssistant] := by
  rintro ⟨granted, -⟩
  exact agent_denied _ _ _ _ (granted codingAssistant (List.mem_singleton.mpr rfl) rfl (by decide)
    { action := "ViewMemory", capability := "memory:read" } (by simp [agentPermits])
    (by simp [codingAssistant, Json.textsOrDefault, Json.asText]) ⟨"Aeterna::Project", "p"⟩ rfl)

end Aeterna
