import Aeterna.Idp.Convergence

namespace Aeterna.Idp
open Lib (Eff Table)
open List

structure Organization where
  tenantId : String
  deleted : Bool := false

structure Team where
  orgId : String
  deleted : Bool := false

structure GovernanceRole where
  (principalType principalId role : String)
  tenantId : Option String := none
  orgId : Option String := none
  teamId : Option String := none
  projectId : Option String := none
  grantedBy : String

structure GovernanceKey where
  (principalType principalId role tenantId orgId teamId projectId : String)
  deriving DecidableEq

def coalesce (id : Option String) : String := id.getD "00000000-0000-0000-0000-000000000000"

def GovernanceRole.key (row : GovernanceRole) : GovernanceKey where
  principalType := row.principalType
  principalId := row.principalId
  role := row.role
  tenantId := coalesce row.tenantId
  orgId := coalesce row.orgId
  teamId := coalesce row.teamId
  projectId := coalesce row.projectId

structure UserRole where
  (userId tenantId unitId role : String)
  deriving DecidableEq

/-- What a sync works on, with the hierarchy and the role tables. -/
structure Governed where
  session : Session
  teams : Table String Team := {}
  organizations : Table String Organization := {}
  governanceRoles : Table GovernanceKey GovernanceRole := {}
  userRoles : Table UserRole Unit := {}

inductive RoleTable where
  | governanceRoles | userRoles

structure Grant where
  user : User
  (role teamId orgId tenantId : String)

namespace Grant

def governanceRole (grant : Grant) : GovernanceRole where
  principalType := "user"
  principalId := grant.user.id
  role := grant.role
  orgId := some grant.orgId
  teamId := some grant.teamId
  grantedBy := grant.user.id

def userRole (grant : Grant) : UserRole := ⟨grant.user.id, grant.tenantId, grant.teamId, grant.role⟩

end Grant

def organizationOf (tenantId : String) (w : Governed) (teamId : String) : Option String :=
  match w.teams.get teamId with
  | none => none
  | some team =>
    match w.organizations.get team.orgId with
    | none => none
    | some organization =>
      if team.deleted = false ∧ organization.deleted = false ∧ organization.tenantId = tenantId then some team.orgId
        else none

def grants (tenantId : String) (w : Governed) : List Grant :=
  w.session.directory.users.rows.flatMap (fun user =>
    (w.session.directory.memberships.rows.filter (fun m => m.1.2 = user.id)).filterMap (fun m =>
      (organizationOf tenantId w m.1.1).map (fun orgId => ⟨user, m.2, m.1.1, orgId, tenantId⟩)))

def statement {α : Type} (fault : Option IdpSyncError) (f : Governed → α × Governed) : Eff Governed IdpSyncError α :=
  fun w =>
  match fault with
  | some e => (.error e, w)
  | none => (.ok (f w).1, (f w).2)

def insertGovernanceRoles (tenantId : String) (w : Governed) : Nat × Governed :=
  let roles := w.governanceRoles.insertOrIgnoreAll
      ((grants tenantId w).map (fun grant => (grant.governanceRole.key, grant.governanceRole)))
  (roles.rows.length - w.governanceRoles.rows.length, { w with governanceRoles := roles })

def insertUserRoles (tenantId : String) (w : Governed) : Nat × Governed :=
  let roles := w.userRoles.insertOrIgnoreAll ((grants tenantId w).map (fun grant => (grant.userRole, ())))
  (roles.rows.length - w.userRoles.rows.length, { w with userRoles := roles })

def bridgeSyncToGovernance (fails : RoleTable → Option IdpSyncError) (tenantId : String) :
    Eff Governed IdpSyncError (Nat × Nat) := do
  let rolesCreated ← statement (fails .governanceRoles) (insertGovernanceRoles tenantId)
  let userRolesCreated ← statement (fails .userRoles) (insertUserRoles tenantId)
  pure (rolesCreated, userRolesCreated)

section
variable {tenantId : String} {w next start now : Governed} {fails : RoleTable → Option IdpSyncError}
  {counts : Nat × Nat}

theorem statement_ok {α : Type} {fault : Option IdpSyncError} {f : Governed → α × Governed} {a : α}
    (ran : statement fault f w = (.ok a, next)) : next = (f w).2 := by
  cases fault with
  | none =>
    cases ran
    rfl
  | some e => cases ran

theorem bridge_ok (ran : bridgeSyncToGovernance fails tenantId w = (.ok counts, next)) :
    next = (insertUserRoles tenantId (insertGovernanceRoles tenantId w).2).2 := by
  obtain ⟨_, mid, first, ran⟩ := Eff.bind_ok ran
  obtain ⟨_, last, second, ran⟩ := Eff.bind_ok ran
  cases ran
  rw [statement_ok second, statement_ok first]

theorem grants_of_same {v : Governed} (session : v.session.directory = w.session.directory)
    (teams : v.teams = w.teams) (organizations : v.organizations = w.organizations) :
    grants tenantId v = grants tenantId w := by
  unfold grants organizationOf
  rw [session, teams, organizations]

theorem mem_grants {grant : Grant} (inside : grant ∈ grants tenantId w) :
    organizationOf tenantId w grant.teamId = some grant.orgId ∧ grant.tenantId = tenantId := by
  obtain ⟨user, _, inside⟩ := mem_flatMap.mp inside
  obtain ⟨m, _, found⟩ := mem_filterMap.mp inside
  obtain ⟨orgId, live, rfl⟩ := Option.map_eq_some_iff.mp found
  exact ⟨live, rfl⟩

structure Inserted (tenantId : String) (w next : Governed) : Prop where
  session : next.session = w.session
  teams : next.teams = w.teams
  organizations : next.organizations = w.organizations
  governanceRoles : ∀ key, (next.governanceRoles.get key).isSome ↔ (w.governanceRoles.get key).isSome ∨
    ∃ grant ∈ grants tenantId w, grant.governanceRole.key = key
  userRoles : ∀ key, (next.userRoles.get key).isSome ↔ (w.userRoles.get key).isSome ∨ ∃ grant ∈ grants tenantId w,
    grant.userRole = key

theorem bridge_inserts (ran : bridgeSyncToGovernance fails tenantId w = (.ok counts, next)) :
    Inserted tenantId w next := by
  rw [bridge_ok ran]
  have same : grants tenantId (insertGovernanceRoles tenantId w).2 = grants tenantId w := rfl
  refine ⟨rfl, rfl, rfl, fun key => ?_, fun key => ?_⟩
  · show ((w.governanceRoles.insertOrIgnoreAll _).get key).isSome ↔ _
    rw [Lib.Table.get_insertOrIgnoreAll, Option.isSome_or, Bool.or_eq_true, Lib.Table.find_isSome]
    simp
  · show ((w.userRoles.insertOrIgnoreAll _).get key).isSome ↔ _
    rw [Lib.Table.get_insertOrIgnoreAll, Option.isSome_or, Bool.or_eq_true, Lib.Table.find_isSome, same]
    simp

inductive Rounds (tenantId : String) (start : Governed) : List Governed → Governed → Prop where
  | start : Rounds tenantId start [] start
  | round {found : List Governed} {w next : Governed} {service : IdpSyncService} {fuel : Nat} {report : SyncReport}
      {session : Session}
      {fails : RoleTable → Option IdpSyncError} {counts : Nat × Nat} (before : Rounds tenantId start found w)
      (synced : syncAll service fuel w.session = (.ok report, session))
      (bridged : bridgeSyncToGovernance fails tenantId { w with session } = (.ok counts, next)) :
      Rounds tenantId start ({ w with session } :: found) next

structure Accumulated (tenantId : String) (start : Governed) (found : List Governed) (now : Governed) : Prop where
  teams : now.teams = start.teams
  organizations : now.organizations = start.organizations
  hierarchy : ∀ w ∈ found, w.teams = start.teams ∧ w.organizations = start.organizations
  governanceRoles : ∀ key, (now.governanceRoles.get key).isSome ↔ (start.governanceRoles.get key).isSome ∨
    ∃ w ∈ found, ∃ grant ∈ grants tenantId w, grant.governanceRole.key = key
  userRoles : ∀ key, (now.userRoles.get key).isSome ↔ (start.userRoles.get key).isSome ∨
    ∃ w ∈ found, ∃ grant ∈ grants tenantId w, grant.userRole = key

variable {found : List Governed}

theorem Accumulated.bridge {session : Session} (before : Accumulated tenantId start found w)
    (inserted : Inserted tenantId { w with session } next) :
      Accumulated tenantId start ({ w with session } :: found) next where
  teams := inserted.teams.trans before.teams
  organizations := inserted.organizations.trans before.organizations
  hierarchy := forall_mem_cons.mpr ⟨⟨before.teams, before.organizations⟩, before.hierarchy⟩
  governanceRoles := by
    intro key
    rw [inserted.governanceRoles, before.governanceRoles]
    simp only [mem_cons, exists_eq_or_imp]
    exact or_assoc.trans (or_congr_right or_comm)
  userRoles := by
    intro key
    rw [inserted.userRoles, before.userRoles]
    simp only [mem_cons, exists_eq_or_imp]
    exact or_assoc.trans (or_congr_right or_comm)

theorem Rounds.accumulated (rounds : Rounds tenantId start found now) : Accumulated tenantId start found now := by
  induction rounds with
  | start => exact ⟨rfl, rfl, fun _ inside => absurd inside not_mem_nil, by simp, by simp⟩
  | round _ _ bridged ih => exact ih.bridge (bridge_inserts bridged)

def ActiveMember (tenantId : String) (w : Governed) (userId teamId role : String) : Prop :=
  ∃ grant ∈ grants tenantId w, grant.user.isActive = true ∧ grant.user.id = userId ∧ grant.teamId = teamId ∧
    grant.role = role

/-- The rows that bridges inserted are those of the memberships of active users. -/
structure Faithful (tenantId : String) (start now : Governed) : Prop where
  governanceRoles : ∀ key, start.governanceRoles.get key = none → ((now.governanceRoles.get key).isSome ↔
    ∃ grant ∈ grants tenantId now, grant.user.isActive = true ∧ grant.governanceRole.key = key)
  userRoles : ∀ key, start.userRoles.get key = none → ((now.userRoles.get key).isSome ↔
    ∃ grant ∈ grants tenantId now, grant.user.isActive = true ∧ grant.userRole = key)

def Fresh (start : Governed) (grant : Grant) : Prop :=
  start.governanceRoles.get grant.governanceRole.key = none ∨ start.userRoles.get grant.userRole = none

def Grant.Same (a b : Grant) : Prop := a.user.id = b.user.id ∧ a.teamId = b.teamId ∧ a.role = b.role

theorem key_eq_iff {v : Governed} (teams : v.teams = w.teams)
    (organizations : v.organizations = w.organizations) {a b : Grant} (inA : a ∈ grants tenantId v)
    (inB : b ∈ grants tenantId w) :
    (a.governanceRole.key = b.governanceRole.key ↔ a.Same b) ∧ (a.userRole = b.userRole ↔ a.Same b) := by
  obtain ⟨liveA, tenantA⟩ := mem_grants inA
  obtain ⟨liveB, tenantB⟩ := mem_grants inB
  have organization : a.teamId = b.teamId → a.orgId = b.orgId := by
    intro same
    unfold organizationOf at liveA liveB
    rw [teams, organizations, same] at liveA
    exact Option.some.inj (liveA.symm.trans liveB)
  simp only [GovernanceRole.key, Grant.governanceRole, Grant.userRole, GovernanceKey.mk.injEq, UserRole.mk.injEq,
    coalesce, Option.getD_some,
    true_and, and_true, tenantA, tenantB, Grant.Same]
  exact ⟨fun ⟨user, role, _, team⟩ => ⟨user, team, role⟩, fun ⟨user, team, role⟩ =>
    ⟨user, role, organization team, team⟩⟩

theorem accumulated_iff {κ : Type} {key : Grant → κ} {initial present : κ → Prop} (member : w ∈ found)
    (current : grants tenantId now = grants tenantId w)
    (keys : ∀ v ∈ found, ∀ a ∈ grants tenantId now, ∀ b ∈ grants tenantId v, key a = key b ↔ a.Same b)
    (holds : ∀ k, present k ↔ initial k ∨ ∃ v ∈ found, ∃ grant ∈ grants tenantId v, key grant = k) :
    (∀ k, ¬ initial k → (present k ↔ ∃ grant ∈ grants tenantId now, grant.user.isActive = true ∧ key grant = k)) ↔
      ∀ v ∈ found, ∀ grant ∈ grants tenantId v, ¬ initial (key grant) →
        ActiveMember tenantId w grant.user.id grant.teamId grant.role := by
  rw [current] at keys ⊢
  constructor
  · intro equal v inside grant granted fresh
    obtain ⟨other, here, active, same⟩ := (equal _ fresh).mp ((holds _).mpr (.inr ⟨v, inside, grant, granted, rfl⟩))
    exact ⟨other, here, active, (keys v inside other here grant granted).mp same⟩
  · intro still k fresh
    rw [holds, or_iff_right fresh]
    constructor
    · rintro ⟨v, inside, grant, granted, rfl⟩
      obtain ⟨other, here, active, same⟩ := still v inside grant granted fresh
      exact ⟨other, here, active, (keys v inside other here grant granted).mpr same⟩
    · rintro ⟨grant, granted, _, same⟩
      exact ⟨w, member, grant, granted, same⟩

end

def ungoverned : Governed where
  session := unsynced
  teams := ⟨[("core", { orgId := "org" })], by decide⟩
  organizations := ⟨[("org", { tenantId := "acme" })], by decide⟩

def Governed.synced (groups : List (String × List IdpUser)) (w : Governed) : Governed :=
  { w with session := (syncAll (organization groups) 1 w.session).2 }

def Governed.bridged (w : Governed) : Governed := (bridgeSyncToGovernance (fun _ => none) "acme" w).2

def joined : Governed := ungoverned.synced [("all", [ann, ben])]

def left : Governed := joined.bridged.synced [("all", [ben])]

theorem joined_rounds : Rounds "acme" ungoverned [joined] joined.bridged := by
  have synced : syncAll (organization [("all", [ann, ben])]) 1 ungoverned.session =
      (.ok { usersCreated := 2, groupsSynced := 1, membershipsAdded := 2 }, joined.session) := Prod.ext (by rfl) rfl
  have bridged : bridgeSyncToGovernance (fun _ => none) "acme" { ungoverned with session := joined.session } =
      (.ok (2, 2), joined.bridged) := Prod.ext (by rfl) rfl
  exact .round .start synced bridged

theorem left_rounds : Rounds "acme" ungoverned [left, joined] left.bridged := by
  have synced : syncAll (organization [("all", [ben])]) 1 joined.bridged.session =
      (.ok { groupsSynced := 1, membershipsRemoved := 1 }, left.session) := Prod.ext (by rfl) rfl
  have bridged : bridgeSyncToGovernance (fun _ => none) "acme" { joined.bridged with session := left.session } =
      (.ok (0, 0), left.bridged) := Prod.ext (by rfl) rfl
  exact .round joined_rounds synced bridged

end Aeterna.Idp
