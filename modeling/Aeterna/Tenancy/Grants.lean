import Aeterna.Tenancy.Acceptance
import Aeterna.Tenancy.Parsing

namespace Aeterna.Tenancy
open Lib (JsonValue)
open Lib.Deserialize

namespace ManifestOrg

def teamMembers (org : ManifestOrg) : List ManifestMember :=
  (org.teams.getD []).flatMap (fun team => team.members.getD [])

def allMembers (org : ManifestOrg) : List ManifestMember := org.members.getD [] ++ org.teamMembers

end ManifestOrg

namespace TenantManifest
variable (m : TenantManifest)

def members : List ManifestMember := (m.hierarchy.getD []).flatMap ManifestOrg.allMembers

/-- The roles that the hierarchy step and the roles step hand to `assign_role`. -/
def assignedRoles : List RoleIdentifier := m.members.map (·.role) ++ (m.roles.getD []).map (·.role)

end TenantManifest

def spellsPlatformAdmin (text : String) : Bool := eqIgnoreAsciiCase Role.platformAdmin.debug text

theorem same_platformAdmin (role : RoleIdentifier) :
    role.same (.known .platformAdmin) = spellsPlatformAdmin role.text := by
  cases role with
  | known role => cases role <;> decide
  | custom name => rfl

variable {assignment : ManifestRoleAssignment}

theorem not_known_of_valid {m : TenantManifest} (valid : validateManifest m = [])
    (member : assignment ∈ m.roles.getD []) :
    assignment.role ≠ .known .platformAdmin := by
  simp only [validateManifest, List.append_eq_nil_iff, List.flatMap_eq_nil_iff] at valid
  have checked := valid.1.1.1.2 assignment member
  simpa [validateAssignment] using (List.append_eq_nil_iff.mp checked).2

theorem custom_unnamed {value : JsonValue} {name : String} (read : readRole value = some (.custom name))
    (role : Role) :
    name ≠ role.debug := by
  rintro rfl
  unfold readRole at read
  split at read
  · cases read
  · rename_i unnamed
    obtain ⟨text, was, same⟩ := Option.map_eq_some_iff.mp read
    cases same
    obtain rfl : value = .string role.debug := by
      unfold readString at was
      split at was
      · cases was
        rfl
      · cases was
    cases role <;> simp [readVariant, Role.all, Role.debug] at unnamed

theorem role_of_readAssignment {value : JsonValue} (read : readAssignment value = some assignment) :
    ∃ value, readRole value = some assignment.role := by
  simp only [readAssignment, Option.bind_eq_bind, Option.bind_eq_some_iff] at read
  obtain ⟨record, -, userId, -, role, was, unit, -, same⟩ := read
  cases same
  obtain ⟨value, -, was⟩ := Option.bind_eq_some_iff.mp was
  exact ⟨value, was⟩

theorem roles_of_readManifest {uuids : UuidParser} {raw : JsonValue} {m : TenantManifest}
    (parsed : readManifest uuids raw = some m) (member : assignment ∈ m.roles.getD []) :
    ∃ value, readRole value = some assignment.role := by
  simp only [readManifest, Option.bind_eq_bind, Option.bind_eq_some_iff] at parsed
  obtain ⟨record, -, _, -, _, -, _, -, _, -, _, -, _, -, _, -, _, -, _, -, roles, was, same⟩ := parsed
  cases same
  cases roles with
  | none => simp at member
  | some assignments =>
    obtain ⟨value, was⟩ := Fields.read_of_optional was
    obtain ⟨value, was⟩ := read_of_readList was member
    exact role_of_readAssignment was

/-- An accepted manifest assigns no role that equals `PlatformAdmin` exactly if no member has the role in any
spelling, and the manifest's own list has it in no spelling but the one that validation knows. -/
theorem no_platformAdmin_iff {uuids : UuidParser} {raw : JsonValue} {m : TenantManifest}
    (parsed : readManifest uuids raw = some m) (valid : validateManifest m = []) :
    (∀ role ∈ m.assignedRoles, role.same (.known .platformAdmin) = false) ↔
      (∀ member ∈ m.members, spellsPlatformAdmin member.role.text = false) ∧
        ∀ assignment ∈ m.roles.getD [], spellsPlatformAdmin assignment.role.text = true →
          assignment.role.text = "PlatformAdmin" := by
  simp only [TenantManifest.assignedRoles, List.forall_mem_append, List.forall_mem_map, same_platformAdmin]
  refine and_congr_right fun _ => forall₂_congr fun assignment member => ?_
  have refused := not_known_of_valid valid member
  obtain ⟨value, read⟩ := roles_of_readManifest parsed member
  cases spelled : assignment.role with
  | known role =>
    rw [spelled] at refused
    have other : spellsPlatformAdmin (RoleIdentifier.known role).text = false := by
      cases role <;> first | decide | exact absurd rfl refused
    simp [other]
  | custom name =>
    rw [spelled] at read
    have unnamed : name ≠ "PlatformAdmin" := custom_unnamed read .platformAdmin
    simp [RoleIdentifier.text, unnamed]

theorem acme_parsed (sections : List (String × JsonValue))
    (parses : (readManifest canonicalUuids (acmeJson sections)).isSome) :
    readManifest canonicalUuids (acmeJson sections) =
      some ((readManifest canonicalUuids (acmeJson sections)).get parses) := by
  simp

def adminSections : List (String × JsonValue) :=
  [("roles", .array [.object [("userId", .string "u1"), ("role", .string "TenantAdmin")]])]

theorem admin_only :
    ((readManifest canonicalUuids (acmeJson adminSections)).get (by decide +kernel)).assignedRoles.all
      (fun role => !role.same (.known .platformAdmin)) = true := by
  have none := (no_platformAdmin_iff (acme_parsed adminSections (by decide +kernel)) (by decide +kernel)).mpr
      (by decide +kernel)
  simpa using none

def memberSections : List (String × JsonValue) :=
  [("hierarchy", .array [.object [("name", .string "Core"),
    ("members", .array [.object [("userId", .string "u1"), ("role", .string "PlatformAdmin")]])]])]

theorem member_made_platformAdmin :
    ¬ ∀ (uuids : UuidParser) (raw : JsonValue) (m : TenantManifest), readManifest uuids raw = some m →
      validateManifest m = [] → ∀ role ∈ m.assignedRoles, role.same (.known .platformAdmin) = false := by
  intro claim
  have none := claim canonicalUuids (acmeJson memberSections) _ (acme_parsed _ (by decide +kernel))
      (by decide +kernel)
  revert none
  decide +kernel

end Aeterna.Tenancy
