import Aeterna.Access.Entities

namespace Aeterna
open Lib.Cedar Option

variable (candidates : List Entity)

theorem lookup_pushUnseen (uid : EntityUid) : ∀ published : List Entity,
    lookup (candidates.foldl pushUnseen published) uid = lookup (published ++ candidates) uid := by
  induction candidates with
  | nil => intro published; simp
  | cons entity rest ih =>
    intro published
    rw [List.foldl_cons, ih, pushUnseen]
    split
    · rename_i seen
      obtain ⟨earlier, held, same⟩ := List.mem_map.mp seen
      by_cases found : lookup published uid = none
      · have differs : entity.uid ≠ uid := by
          intro equal
          rw [lookup, List.find?_eq_none] at found
          exact found earlier held (by simp [same, equal])
        rw [lookup_append, lookup_append, lookup, lookup, lookup, List.find?_cons_of_neg (by simpa using differs)]
      · obtain ⟨other, found⟩ := ne_none_iff_exists'.mp found
        rw [lookup_append, lookup_append, found, some_or, some_or]
    · rw [List.append_assoc, List.singleton_append]

theorem pushUnseen_distinct : ∀ published : List Entity,
    (published.map (·.uid)).Nodup → ((candidates.foldl pushUnseen published).map (·.uid)).Nodup := by
  induction candidates with
  | nil => intro published distinct; exact distinct
  | cons entity rest ih =>
    intro published distinct
    refine ih _ ?_
    unfold pushUnseen
    split
    · exact distinct
    · rename_i fresh
      rw [List.map_append, List.map_singleton]
      exact List.nodup_append.mpr ⟨distinct, List.nodup_singleton _, by
        intro uid held other single same
        rw [List.mem_singleton.mp single] at same
        exact fresh (same ▸ held)⟩

variable {entity : Entity}

theorem mem_pushUnseen : ∀ published : List Entity,
    entity ∈ candidates.foldl pushUnseen published → entity ∈ published ++ candidates := by
  induction candidates with
  | nil => intro published held; simpa using held
  | cons first rest ih =>
    intro published held
    have held := ih _ held
    unfold pushUnseen at held
    split at held
    · grind
    · simpa using held

theorem mem_transformHierarchy {rows : List HierarchyRow} (held : entity ∈ transformHierarchy rows) :
    ∃ row ∈ rows, entity ∈ row.entities := by
  simpa using mem_pushUnseen _ [] held

theorem lookup_hierarchy (rows : List HierarchyRow) (uid : EntityUid) :
    lookup (transformHierarchy rows) uid = rows.findSome? (fun row => lookup row.entities uid) := by
  rw [transformHierarchy, lookup_pushUnseen, List.nil_append, lookup, List.find?_flatMap]
  rfl

theorem published_of_row {rows : List HierarchyRow} {row : HierarchyRow} (listed : row ∈ rows)
    (held : entity ∈ row.entities) : entity.uid ∈ (transformHierarchy rows).map (·.uid) := by
  have some : lookup (transformHierarchy rows) entity.uid ≠ none := by
    rw [lookup_hierarchy, Ne, List.findSome?_eq_none_iff]
    intro none
    have missing := none row listed
    rw [lookup, List.find?_eq_none] at missing
    exact missing entity held (by simp)
  obtain ⟨found, same⟩ := ne_none_iff_exists'.mp some
  have uid := List.find?_some same
  exact List.mem_map.mpr ⟨found, List.mem_of_find?_eq_some same, by simpa using uid⟩

def HierarchyRow.NamesOrganization (organization : Uuid) (row : HierarchyRow) : Prop :=
  row.orgId = some organization ∧ row.orgSlug.isSome ∧ row.orgName.isSome

def HierarchyRow.NamesTeam (team : Uuid) (row : HierarchyRow) : Prop :=
  row.teamId = some team ∧ row.teamSlug.isSome ∧ row.teamName.isSome ∧ row.orgId.isSome

def HierarchyRow.NamesProject (project : Uuid) (row : HierarchyRow) : Prop :=
  row.projectId = some project ∧ row.projectSlug.isSome ∧ row.projectName.isSome ∧ row.teamId.isSome

instance (organization : Uuid) : DecidablePred (HierarchyRow.NamesOrganization organization) :=
  fun _ => inferInstanceAs (Decidable (_ ∧ _))

instance (team : Uuid) : DecidablePred (HierarchyRow.NamesTeam team) :=
  fun _ => inferInstanceAs (Decidable (_ ∧ _))

instance (project : Uuid) : DecidablePred (HierarchyRow.NamesProject project) :=
  fun _ => inferInstanceAs (Decidable (_ ∧ _))

section Uids
variable {a b : Uuid} {name : String}

@[simp] theorem tenantUid_inj : tenantUid a = tenantUid b ↔ a = b := by simp [tenantUid, Uuid.text_inj]
@[simp] theorem organizationUid_inj : organizationUid a = organizationUid b ↔ a = b := by
  simp [organizationUid, Uuid.text_inj]
@[simp] theorem teamUid_inj : teamUid a = teamUid b ↔ a = b := by simp [teamUid, Uuid.text_inj]
@[simp] theorem projectUid_inj : projectUid a = projectUid b ↔ a = b := by simp [projectUid, Uuid.text_inj]
@[simp] theorem userUid_inj : userUid a = userUid b ↔ a = b := by simp [userUid, Uuid.text_inj]
@[simp] theorem roleUid_inj {other : String} : roleUid name = roleUid other ↔ name = other := by simp [roleUid]

@[simp] theorem tenantUid_type : (tenantUid a).entityType = "Aeterna::Tenant" := rfl
@[simp] theorem organizationUid_type : (organizationUid a).entityType = "Aeterna::Organization" := rfl
@[simp] theorem teamUid_type : (teamUid a).entityType = "Aeterna::Team" := rfl
@[simp] theorem projectUid_type : (projectUid a).entityType = "Aeterna::Project" := rfl
@[simp] theorem userUid_type : (userUid a).entityType = "Aeterna::User" := rfl
@[simp] theorem roleUid_type : (roleUid name).entityType = "Aeterna::Role" := rfl

theorem uid_ne {x y : EntityUid} (differs : x.entityType ≠ y.entityType) : x ≠ y := fun same => differs (same ▸ rfl)

end Uids

namespace HierarchyRow
variable (row : HierarchyRow)

variable {entity : Entity}

theorem mem_entities : entity ∈ row.entities ↔
    entity = row.tenantEntity ∨ row.organizationEntity = some entity ∨ row.teamEntity = some entity ∨
      row.projectEntity = some entity := by
  simp [entities]

theorem organizationEntity_eq (named : row.organizationEntity = some entity) :
    ∃ organization, row.NamesOrganization organization ∧ entity.uid = organizationUid organization ∧
      entity.parents = [tenantUid row.tenantId] := by
  unfold organizationEntity at named
  split at named
  · cases named
    rename_i organization slug name one two three
    exact ⟨organization, ⟨one, by simp [two], by simp [three]⟩, rfl, rfl⟩
  · cases named

theorem teamEntity_eq (named : row.teamEntity = some entity) :
    ∃ team, row.NamesTeam team ∧ entity.uid = teamUid team ∧
      entity.parents = row.orgId.toList.map organizationUid := by
  unfold teamEntity at named
  split at named
  · cases named
    rename_i team slug name organization one two three four
    exact ⟨team, ⟨one, by simp [two], by simp [three], by simp [four]⟩, rfl, by simp [four]⟩
  · cases named

theorem projectEntity_eq (named : row.projectEntity = some entity) :
    ∃ project, row.NamesProject project ∧ entity.uid = projectUid project ∧
      entity.parents = row.teamId.toList.map teamUid := by
  unfold projectEntity at named
  split at named
  · cases named
    rename_i project slug name team one two three four
    exact ⟨project, ⟨one, by simp [two], by simp [three], by simp [four]⟩, rfl, by simp [four]⟩
  · cases named

theorem entity_of_organization {organization : Uuid} (named : row.NamesOrganization organization) :
    ∃ entity ∈ row.entities, entity.uid = organizationUid organization := by
  obtain ⟨one, two, three⟩ := named
  obtain ⟨slug, two⟩ := isSome_iff_exists.mp two
  obtain ⟨name, three⟩ := isSome_iff_exists.mp three
  exact ⟨_, row.mem_entities.mpr (Or.inr (Or.inl (by rw [organizationEntity, one, two, three]))), rfl⟩

theorem entity_of_team {team : Uuid} (named : row.NamesTeam team) :
    ∃ entity ∈ row.entities, entity.uid = teamUid team := by
  obtain ⟨one, two, three, four⟩ := named
  obtain ⟨slug, two⟩ := isSome_iff_exists.mp two
  obtain ⟨name, three⟩ := isSome_iff_exists.mp three
  obtain ⟨organization, four⟩ := isSome_iff_exists.mp four
  exact ⟨_, row.mem_entities.mpr (Or.inr (Or.inr (Or.inl (by rw [teamEntity, one, two, three, four])))), rfl⟩

theorem entity_of_project {project : Uuid} (named : row.NamesProject project) :
    ∃ entity ∈ row.entities, entity.uid = projectUid project := by
  obtain ⟨one, two, three, four⟩ := named
  obtain ⟨slug, two⟩ := isSome_iff_exists.mp two
  obtain ⟨name, three⟩ := isSome_iff_exists.mp three
  obtain ⟨team, four⟩ := isSome_iff_exists.mp four
  exact ⟨_, row.mem_entities.mpr (Or.inr (Or.inr (Or.inr (by rw [projectEntity, one, two, three, four])))), rfl⟩

theorem kind (held : entity ∈ row.entities) : (entity.uid = tenantUid row.tenantId ∧ entity.parents = []) ∨
    (∃ organization, row.NamesOrganization organization ∧ entity.uid = organizationUid organization ∧
      entity.parents = [tenantUid row.tenantId]) ∨
    (∃ team, row.NamesTeam team ∧ entity.uid = teamUid team ∧ entity.parents = row.orgId.toList.map organizationUid) ∨
    (∃ project, row.NamesProject project ∧ entity.uid = projectUid project ∧
      entity.parents = row.teamId.toList.map teamUid) := by
  rcases row.mem_entities.mp held with rfl | named | named | named
  · exact Or.inl ⟨rfl, rfl⟩
  · exact Or.inr (Or.inl (row.organizationEntity_eq named))
  · exact Or.inr (Or.inr (Or.inl (row.teamEntity_eq named)))
  · exact Or.inr (Or.inr (Or.inr (row.projectEntity_eq named)))

end HierarchyRow

theorem parentsOf_hierarchy {rows : List HierarchyRow} {uid : EntityUid} (named : HierarchyRow → Prop)
    [DecidablePred named] (parents : HierarchyRow → List EntityUid)
    (sound : ∀ row : HierarchyRow, ∀ entity ∈ row.entities, entity.uid = uid → named row ∧
      entity.parents = parents row)
    (complete : ∀ row : HierarchyRow, named row → ∃ entity ∈ row.entities, entity.uid = uid) :
    parentsOf (transformHierarchy rows) uid = ((rows.find? (fun row => named row)).map parents).getD [] := by
  rw [parentsOf, lookup_hierarchy]
  induction rows with
  | nil => rfl
  | cons row rest ih =>
    by_cases names : named row
    · obtain ⟨entity, held, same⟩ := complete row names
      cases found : lookup row.entities uid with
      | none =>
        rw [lookup, List.find?_eq_none] at found
        exact absurd same (by simpa using found entity held)
      | some entity =>
        have same := List.find?_some found
        simp [found, names, (sound row entity (List.mem_of_find?_eq_some found) (by simpa using same)).2]
    · have missing : lookup row.entities uid = none :=
        lookup_none (fun entity held same => names (sound row entity held same).1)
      simpa [missing, names] using ih

def organizationTenant (rows : List HierarchyRow) (organization : Uuid) : Option Uuid :=
  (rows.find? (fun row => row.NamesOrganization organization)).map (·.tenantId)

def teamOrganization (rows : List HierarchyRow) (team : Uuid) : Option Uuid :=
  (rows.find? (fun row => row.NamesTeam team)).bind (·.orgId)

def projectTeam (rows : List HierarchyRow) (project : Uuid) : Option Uuid :=
  (rows.find? (fun row => row.NamesProject project)).bind (·.teamId)

section Parents
variable (rows : List HierarchyRow)

theorem parentsOf_organization (organization : Uuid) : parentsOf (transformHierarchy rows)
    (organizationUid organization) =
    (organizationTenant rows organization).toList.map tenantUid := by
  rw [parentsOf_hierarchy (HierarchyRow.NamesOrganization organization)
    (fun row => [tenantUid row.tenantId])]
  · unfold organizationTenant
    cases rows.find? (fun row => row.NamesOrganization organization) <;> rfl
  · intro row entity held same
    rcases row.kind held with ⟨uid, -⟩ | ⟨other, named, uid, parents⟩ | ⟨other, -, uid, -⟩ | ⟨other, -, uid, -⟩
    · exact absurd (uid.symm.trans same) (uid_ne (by simp))
    · rw [uid, organizationUid_inj] at same
      exact ⟨same ▸ named, parents⟩
    · exact absurd (uid.symm.trans same) (uid_ne (by simp))
    · exact absurd (uid.symm.trans same) (uid_ne (by simp))
  · exact fun row => row.entity_of_organization

theorem parentsOf_team (team : Uuid) : parentsOf (transformHierarchy rows) (teamUid team) =
    (teamOrganization rows team).toList.map organizationUid := by
  rw [parentsOf_hierarchy (HierarchyRow.NamesTeam team)
    (fun row => row.orgId.toList.map organizationUid)]
  · unfold teamOrganization
    cases rows.find? (fun row => row.NamesTeam team) <;> rfl
  · intro row entity held same
    rcases row.kind held with ⟨uid, -⟩ | ⟨other, -, uid, -⟩ | ⟨other, named, uid, parents⟩ | ⟨other, -, uid, -⟩
    · exact absurd (uid.symm.trans same) (uid_ne (by simp))
    · exact absurd (uid.symm.trans same) (uid_ne (by simp))
    · rw [uid, teamUid_inj] at same
      exact ⟨same ▸ named, parents⟩
    · exact absurd (uid.symm.trans same) (uid_ne (by simp))
  · exact fun row => row.entity_of_team

theorem parentsOf_project (project : Uuid) : parentsOf (transformHierarchy rows) (projectUid project) =
    (projectTeam rows project).toList.map teamUid := by
  rw [parentsOf_hierarchy (HierarchyRow.NamesProject project)
    (fun row => row.teamId.toList.map teamUid)]
  · unfold projectTeam
    cases rows.find? (fun row => row.NamesProject project) <;> rfl
  · intro row entity held same
    rcases row.kind held with ⟨uid, -⟩ | ⟨other, -, uid, -⟩ | ⟨other, -, uid, -⟩ | ⟨other, named, uid, parents⟩
    · exact absurd (uid.symm.trans same) (uid_ne (by simp))
    · exact absurd (uid.symm.trans same) (uid_ne (by simp))
    · exact absurd (uid.symm.trans same) (uid_ne (by simp))
    · rw [uid, projectUid_inj] at same
      exact ⟨same ▸ named, parents⟩
  · exact fun row => row.entity_of_project

theorem parentsOf_tenant (tenant : Uuid) : parentsOf (transformHierarchy rows) (tenantUid tenant) = [] := by
  apply List.eq_nil_iff_forall_not_mem.mpr
  intro group parent
  obtain ⟨entity, held, same, above⟩ := mem_parentsOf parent
  obtain ⟨row, -, held⟩ := mem_transformHierarchy held
  rcases row.kind held with ⟨-, none⟩ | ⟨other, -, uid, -⟩ | ⟨other, -, uid, -⟩ | ⟨other, -, uid, -⟩
  · rw [none] at above
    cases above
  · exact absurd (uid.symm.trans same) (uid_ne (by simp))
  · exact absurd (uid.symm.trans same) (uid_ne (by simp))
  · exact absurd (uid.symm.trans same) (uid_ne (by simp))

end Parents

def scopedEntities (hierarchy : List HierarchyRow) (users : List UserPermissionRow) : List Entity :=
  transformHierarchy hierarchy ++ (transformUsers users ++ transformRoles users)

theorem mem_roleSet {users : List UserPermissionRow} {role : String} :
    role ∈ roleSet users ↔ ∃ row ∈ users, normalizeRoleToEntityId row.role = role := by
  rw [roleSet, List.mem_insertionSort, List.mem_dedup, List.mem_map]

theorem mem_transformUsers {users : List UserPermissionRow} :
    entity ∈ transformUsers users ↔ ∃ user first, (userRows users user).head? = some first ∧
      entity = userEntity user first (userRows users user) := by
  simp only [transformUsers, List.mem_filterMap, List.mem_dedup, List.mem_map, map_eq_some_iff]
  constructor
  · rintro ⟨user, -, first, head, rfl⟩
    exact ⟨user, first, head, rfl⟩
  · rintro ⟨user, first, head, rfl⟩
    obtain ⟨held, same⟩ := List.mem_filter.mp (List.mem_of_head? head)
    exact ⟨user, ⟨first, held, of_decide_eq_true same⟩, first, head, rfl⟩

theorem transformUsers_distinct (users : List UserPermissionRow) : ((transformUsers users).map (·.uid)).Nodup := by
  rw [transformUsers, List.map_filterMap]
  refine List.Nodup.filterMap ?_ (List.nodup_dedup _)
  intro one other uid found again
  simp only [mem_def, map_eq_some_iff, exists_exists_and_eq_and] at found again
  obtain ⟨first, -, rfl⟩ := found
  obtain ⟨second, -, same⟩ := again
  exact (userUid_inj.mp same).symm

theorem transformRoles_distinct (users : List UserPermissionRow) : ((transformRoles users).map (·.uid)).Nodup := by
  have sorted : (roleSet users).Nodup := (List.perm_insertionSort _ _).nodup_iff.mpr (List.nodup_dedup _)
  simpa [transformRoles, Function.comp_def] using sorted.map (fun a b same => roleUid_inj.mp same)

section Store
variable (hierarchy : List HierarchyRow) (users : List UserPermissionRow)

def unitRank : String → Option Nat
  | "Aeterna::Tenant" => some 0
  | "Aeterna::Organization" => some 1
  | "Aeterna::Team" => some 2
  | "Aeterna::Project" => some 3
  | _ => none

def IsUnit (uid : EntityUid) : Prop := (unitRank uid.entityType).isSome

theorem hierarchy_unit {hierarchy : List HierarchyRow} {entity : Entity}
    (held : entity ∈ transformHierarchy hierarchy) :
    IsUnit entity.uid ∧ ∀ group ∈ entity.parents, IsUnit group ∧
      (unitRank group.entityType).getD 0 < (unitRank entity.uid.entityType).getD 4 := by
  obtain ⟨row, -, held⟩ := mem_transformHierarchy held
  rcases row.kind held with ⟨uid, parents⟩ | ⟨_, -, uid, parents⟩ | ⟨_, -, uid, parents⟩ | ⟨_, -, uid, parents⟩ <;>
    rw [uid, parents] <;> simp [IsUnit, unitRank]

theorem user_not_unit {users : List UserPermissionRow} {entity : Entity}
    (held : entity ∈ transformUsers users ++ transformRoles users) : ¬ IsUnit entity.uid := by
  rcases List.mem_append.mp held with held | held
  · obtain ⟨user, first, -, rfl⟩ := mem_transformUsers.mp held
    simp [IsUnit, unitRank, userEntity]
  · obtain ⟨role, -, rfl⟩ := List.mem_map.mp held
    simp [IsUnit, unitRank]

theorem scopedEntities_distinct : ((scopedEntities hierarchy users).map (·.uid)).Nodup := by
  rw [scopedEntities, List.map_append, List.map_append]
  refine List.nodup_append.mpr ⟨pushUnseen_distinct _ [] List.nodup_nil, List.nodup_append.mpr
    ⟨transformUsers_distinct users, transformRoles_distinct users, ?_⟩, ?_⟩
  · intro one user other role same
    obtain ⟨entity, held, rfl⟩ := List.mem_map.mp user
    obtain ⟨_, _, -, rfl⟩ := mem_transformUsers.mp held
    obtain ⟨entity, held, rfl⟩ := List.mem_map.mp role
    obtain ⟨_, -, rfl⟩ := List.mem_map.mp held
    exact absurd same (uid_ne (by simp [userEntity]))
  · intro one unit other user same
    rw [← List.map_append] at user
    obtain ⟨entity, held, rfl⟩ := List.mem_map.mp unit
    obtain ⟨member, among, equal⟩ := List.mem_map.mp user
    exact user_not_unit among (equal ▸ same ▸ (hierarchy_unit held).1)

theorem scopedEntities_load : ∃ store, Store.load (scopedEntities hierarchy users) = some store := by
  refine Store.load_ranked (fun uid => if uid.entityType = "Aeterna::Role" then 0
    else (unitRank uid.entityType).getD 4)
    (scopedEntities_distinct hierarchy users) ?_
  intro entity held group parent
  rcases List.mem_append.mp held with held | held
  · obtain ⟨unit, above⟩ := hierarchy_unit held
    obtain ⟨higher, lower⟩ := above group parent
    have not_role : ∀ uid, IsUnit uid → uid.entityType ≠ "Aeterna::Role" := by
      intro uid unit role
      simp [IsUnit, role, unitRank] at unit
    rw [if_neg (not_role _ higher), if_neg (not_role _ unit)]
    obtain ⟨rank, is⟩ := isSome_iff_exists.mp higher
    simpa [is] using lower
  · rcases List.mem_append.mp held with held | held
    · obtain ⟨user, first, -, rfl⟩ := mem_transformUsers.mp held
      rcases List.mem_append.mp parent with parent | parent
      · obtain ⟨row, -, rfl⟩ := List.mem_map.mp parent
        simp [userEntity, unitRank]
      · obtain ⟨role, -, rfl⟩ := List.mem_map.mp parent
        simp [userEntity, unitRank]
    · obtain ⟨role, -, rfl⟩ := List.mem_map.mp held
      cases parent

theorem parentsOf_unit {uid : EntityUid} (unit : IsUnit uid) :
    parentsOf (scopedEntities hierarchy users) uid = parentsOf (transformHierarchy hierarchy) uid := by
  have absent : lookup (transformUsers users ++ transformRoles users) uid = none :=
    lookup_none (fun entity held same => user_not_unit held (same ▸ unit))
  rw [parentsOf, parentsOf, scopedEntities, lookup_append, absent, Option.or_none]

theorem lookup_user {user : Uuid} {first : UserPermissionRow} (head : (userRows users user).head? = some first) :
    lookup (scopedEntities hierarchy users) (userUid user) = some (userEntity user first (userRows users user)) := by
  have held : userEntity user first (userRows users user) ∈ scopedEntities hierarchy users :=
    List.mem_append_right _ (List.mem_append_left _ (mem_transformUsers.mpr ⟨user, first, head, rfl⟩))
  exact lookup_of_mem (scopedEntities_distinct hierarchy users) held

theorem lookup_user_none {user : Uuid} (empty : (userRows users user).head? = none) :
    lookup (scopedEntities hierarchy users) (userUid user) = none := by
  apply lookup_none
  intro entity held same
  rcases List.mem_append.mp held with held | held
  · have unit := (hierarchy_unit held).1
    rw [same] at unit
    simp [IsUnit, unitRank] at unit
  · rcases List.mem_append.mp held with held | held
    · obtain ⟨other, first, head, rfl⟩ := mem_transformUsers.mp held
      rw [userUid_inj.mp same, empty] at head
      cases head
    · obtain ⟨role, -, rfl⟩ := List.mem_map.mp held
      exact absurd same (uid_ne (by simp))

end Store

end Aeterna
