import Aeterna.Tenancy.Frames

namespace Aeterna.Tenancy
open Lib (JsonValue Eff)
open Lib.Eff List

section
variable {backend : Backend} {env : Surroundings} {m : TenantManifest} {id : Uuid} {s next : Session}

theorem errorOf_nil {ε : Type} {words : ε → String} {x : Eff Session ε Unit}
    (done : errorOf words x s = (.ok [], next)) :
    x s = (.ok (), next) := by
  unfold errorOf at done
  rw [bind_run, outcome_run] at done
  generalize x s = ran at done ⊢
  obtain ⟨outcome, after⟩ := ran
  cases outcome with
  | ok u =>
    cases done
    rfl
  | error e => cases done

def ManifestSecret.entry (secret : ManifestSecret) : String × String := (secret.logicalName, secret.secretValue)

def writeSecrets (env : Surroundings) (secrets : List ManifestSecret) (table : BTreeMap SecretRow) :
    BTreeMap SecretRow :=
  Lib.upsertAll (fun name => SecretRow.write (env.newSecretId name)) (secrets.map ManifestSecret.entry) table

theorem SecretRow.overwrites (fresh fresh' : Uuid) : Lib.Overwrites (SecretRow.write fresh)
    (SecretRow.write fresh') :=
  ⟨fun _ _ => rfl, fun _ _ _ => rfl, fun _ _ => rfl⟩

variable {secrets : List ManifestSecret} {table : BTreeMap SecretRow} {name unitId place : String}
variable {config : Option TenantConfigDocument} {steps : List ProvisionStep} {unit : OrganizationalUnit}
variable {space after : TenantSpace} {unitType : UnitType} {parentId : Option String}
variable {further : String → Steady (List String)} {row : RoleRow} {assignment : ManifestRoleAssignment}

theorem writeSecrets_id {id : Uuid} (held : table[name]?.map (·.id) = some id) :
    (writeSecrets env secrets table)[name]?.map (·.id) = some id := by
  induction secrets generalizing table with
  | nil => exact held
  | cons secret rest ih =>
    refine ih (?_ : (table.insert secret.logicalName _)[name]?.map (·.id) = some id)
    rw [Std.ExtTreeMap.getElem?_insert]
    split
    · rename_i same
      obtain rfl := Std.LawfulEqCmp.compare_eq_iff_eq.mp same
      obtain ⟨row, found, rfl⟩ := Option.map_eq_some_iff.mp held
      simp [SecretRow.write, ManifestSecret.entry, found]
    · exact held

def referencesOf (table : BTreeMap SecretRow) (secrets : List ManifestSecret) :
    List (String × TenantSecretReference) :=
  secrets.filterMap (fun secret => table[secret.logicalName]?.map (fun row =>
    (secret.logicalName, ⟨secret.logicalName, secret.ownership, .postgres row.id⟩)))

def TenantConfigDocument.withReferences (doc : TenantConfigDocument)
    (references : List (String × TenantSecretReference)) :
    TenantConfigDocument :=
  { doc with secretReferences := Lib.upsertAll (fun _ _ reference => reference) references doc.secretReferences }

theorem withReferences_again {doc : TenantConfigDocument} {references : List (String × TenantSecretReference)} :
    (doc.withReferences references).withReferences references = doc.withReferences references := by
  let write : String → Option TenantSecretReference → TenantSecretReference → TenantSecretReference :=
    fun _ _ new => new
  have again : Lib.upsertAll write references (Lib.upsertAll write references doc.secretReferences) =
      Lib.upsertAll write references doc.secretReferences :=
    Lib.upsertAll_again (fun _ => Lib.Overwrites.again ⟨fun _ _ => rfl, fun _ _ _ => rfl, fun _ _ => rfl⟩ _)
  exact congrArg (fun references => ({ doc with secretReferences := references } : TenantConfigDocument)) again

def withSecrets (id : Uuid) (table : BTreeMap SecretRow) (secrets : List ManifestSecret)
    (config : Option TenantConfigDocument) : Option TenantConfigDocument :=
  match referencesOf table secrets with
  | [] => config
  | references => some ((config.getD { tenantId := id.text }).withReferences references)

theorem withSecrets_cons {secret : ManifestSecret} {rest : List ManifestSecret}
    {row : SecretRow} (held : table[secret.logicalName]? = some row) :
    withSecrets id table (secret :: rest) config =
      withSecrets id table rest (some ((config.getD { tenantId := id.text }).withReference
        ⟨secret.logicalName, secret.ownership, .postgres row.id⟩)) := by
  unfold withSecrets
  simp only [referencesOf, filterMap_cons, held, Option.map_some]
  cases rest.filterMap (fun secret => table[secret.logicalName]?.map (fun row =>
    (secret.logicalName, (⟨secret.logicalName, secret.ownership, .postgres row.id⟩ : TenantSecretReference)))) <;> rfl

theorem withSecrets_again :
    withSecrets id table secrets (withSecrets id table secrets config) = withSecrets id table secrets config := by
  unfold withSecrets
  cases referencesOf table secrets with
  | nil => rfl
  | cons first rest =>
    exact congrArg some withReferences_again

def ManifestSecret.Named (secret : ManifestSecret) : Prop := isBlank secret.logicalName = false ∧
    secret.secretValue ≠ ""

def TenantSpace.withSecret (space : TenantSpace) (id fresh : Uuid) (secret : ManifestSecret) : TenantSpace :=
  let row := SecretRow.write fresh space.parts.secrets[secret.logicalName]? secret.secretValue
  { space with
    parts.secrets := space.parts.secrets.insert secret.logicalName row
    parts.config := some ((space.parts.config.getD { tenantId := id.text }).withReference
      ⟨secret.logicalName, secret.ownership, .postgres row.id⟩) }

theorem setSecretEntry_ok {secret : ManifestSecret}
    (done : setSecretEntry env backend id.text secret s = (.ok (), next)) :
    secret.Named ∧ next.space = s.space.withSecret id (env.newSecretId secret.logicalName) secret := by
  obtain ⟨_, first, checked, done⟩ := bind_ok done
  obtain rfl : s = first := congrArg Prod.snd checked
  split at done
  · cases done
  · rename_i named
    split at done
    · cases done
    · rename_i filled
      refine ⟨⟨by simpa using named, filled⟩, ?_⟩
      obtain ⟨reference, stored, put, done⟩ := bind_ok done
      rw [mapError_run] at put
      generalize ran : putSecret env secret.logicalName secret.secretValue s = outcome at put
      obtain ⟨result, after⟩ := outcome
      cases result with
      | error e => cases put
      | ok found =>
        cases put
        cases done
        obtain ⟨space, written, reached⟩ := storeCall_ok ran
        cases written
        dsimp only
        rw [reached]
        rfl

theorem secrets_written {words : ManifestSecret → TenantConfigProviderError → String}
    (done : gather (fun secret => errorOf (words secret) (setSecretEntry env backend id.text secret)) secrets s =
    (.ok [], next)) :
    (∀ secret ∈ secrets, secret.Named) ∧ next.space.parts.secrets = writeSecrets env secrets s.space.parts.secrets ∧
      next.space.parts.config = withSecrets id next.space.parts.secrets secrets s.space.parts.config := by
  induction secrets generalizing s with
  | nil =>
    cases done
    exact ⟨fun _ member => absurd member not_mem_nil, rfl, rfl⟩
  | cons secret rest ih =>
    obtain ⟨after, first, later⟩ := gather_cons_nil done
    obtain ⟨named, written⟩ := setSecretEntry_ok (errorOf_nil first)
    obtain ⟨others, stored, configured⟩ := ih later
    rw [written] at stored configured
    refine ⟨forall_mem_cons.mpr ⟨named, others⟩, stored, ?_⟩
    -- the later writes leave the id of this secret as it is
    have held : next.space.parts.secrets[secret.logicalName]?.map (·.id) =
        some (SecretRow.write (env.newSecretId secret.logicalName) s.space.parts.secrets[secret.logicalName]?
          secret.secretValue).id := by
      rw [stored]
      exact writeSecrets_id (by simp [TenantSpace.withSecret])
    obtain ⟨row, found, same⟩ := Option.map_eq_some_iff.mp held
    rw [configured, withSecrets_cons found, same]
    rfl

def TenantManifest.writes (m : TenantManifest) (id : Uuid) : Bool := writesConfig m (m.configDocument id.text)

def TenantManifest.baseConfig (m : TenantManifest) (id : Uuid) (config : Option TenantConfigDocument) :
    Option TenantConfigDocument :=
  if m.writes id then some (m.configDocument id.text) else config

theorem configStep_ok (done : configStep backend m id s = (.ok steps, next)) (passed : steps.all (·.ok) = true) :
    (m.writes id = true → (m.configDocument id.text).validate backend.uuids = .ok ()) ∧
      next.space.parts.config = m.baseConfig id s.space.parts.config := by
  unfold configStep at done
  unfold TenantManifest.baseConfig TenantManifest.writes
  split at done
  · rename_i writes
    rw [if_pos writes]
    cases checked : (m.configDocument id.text).validate backend.uuids with
    | error e =>
      rw [bind_run, outcome_run, upsertConfig, checked] at done
      cases done
      cases passed
    | ok u =>
      rw [bind_run, outcome_run, upsertConfig, checked] at done
      cases done
      exact ⟨fun _ => rfl, rfl⟩
  · rename_i unwritten
    rw [if_neg unwritten]
    cases done
    exact ⟨fun writes => absurd writes unwritten, rfl⟩

theorem ofErrors_passed {step detail : String} {errors : List String}
    (passed : [ProvisionStep.ofErrors step detail errors].all (·.ok) = true) : errors = [] := by
  simpa using passed

theorem secretsStep_ok (done : secretsStep backend env m id s = (.ok steps, next))
    (passed : steps.all (·.ok) = true) :
    (∀ secret ∈ m.secrets.getD [], secret.Named) ∧
      next.space.parts.secrets = writeSecrets env (m.secrets.getD []) s.space.parts.secrets ∧
      next.space.parts.config = withSecrets id next.space.parts.secrets (m.secrets.getD []) s.space.parts.config := by
  unfold secretsStep at done
  cases declared : m.secrets with
  | none =>
    rw [declared] at done
    cases done
    exact ⟨fun _ member => absurd member not_mem_nil, rfl, rfl⟩
  | some secrets =>
    rw [declared] at done
    obtain ⟨errors, after, ran, done⟩ := bind_ok done
    cases done
    obtain rfl := ofErrors_passed passed
    exact secrets_written ran

def bindingAfter (repo : SetTenantRepositoryBindingRequest) (id : Uuid) (now : DateTime)
    (old : Option TenantRepositoryBinding) : TenantRepositoryBinding :=
  (old.map (·.merge (repo.toBinding id now))).getD (repo.toBinding id now)

theorem repositoryStep_ok {repo : SetTenantRepositoryBindingRequest}
    (declared : m.repository = some repo) (done : repositoryStep env m id s = (.ok steps, next))
    (passed : steps.all (·.ok) = true) :
    next.space.parts.binding = some (bindingAfter repo env.newBindingId env.now s.space.parts.binding) := by
  unfold repositoryStep at done
  cases checked : repo.validateCredentialRef with
  | error reason =>
    simp only [declared, checked] at done
    cases done
    cases passed
  | ok _ =>
    cases allowed : connectionAllowed env id repo with
    | error message =>
      simp only [declared, checked, allowed] at done
      cases done
      cases passed
    | ok _ =>
      simp only [declared, checked, allowed, bind_run, outcome_run] at done
      generalize ran : upsertBinding env repo s = outcome at done
      obtain ⟨result, after⟩ := outcome
      cases result with
      | error e =>
        cases done
        cases passed
      | ok binding =>
        cases done
        obtain ⟨space, written, reached⟩ := storeCall_ok ran
        cases written
        rw [reached]
        rfl

structure UnitInPlace (name : String) (units : List OrganizationalUnit) : Prop where
  there : ∃ unit ∈ units, unit.parentId.getD "" = "" ∧ unit.name = name
  plain : ∀ unit ∈ units, unit.parentId.getD "" = "" → unit.name = name → unit.metadata = []

theorem conflicts_iff {other : OrganizationalUnit} :
    unit.conflicts other = true ↔ unit.parentId.getD "" = other.parentId.getD "" ∧ unit.name = other.name := by
  simp [OrganizationalUnit.conflicts]

section
variable (done : insertUnit env unit space = .ok after)
include done

theorem insertUnit_ok : after.parts.units = space.parts.units.map (fun other =>
        if unit.conflicts other then { other with metadata := unit.metadata } else other) ∧
      (∃ other ∈ space.parts.units, unit.conflicts other = true) ∨
    after.parts.units = space.parts.units ++ [unit] ∧ ∀ other ∈ space.parts.units, ¬ unit.conflicts other = true := by
  unfold insertUnit at done
  split at done
  · rename_i clash
    cases done
    exact .inl ⟨rfl, any_eq_true.mp clash⟩
  · rename_i free
    split at done
    · cases done
    · cases done
      exact .inr ⟨rfl, fun other inside clash => free (any_eq_true.mpr ⟨other, inside, clash⟩)⟩

theorem unitInPlace_kept (plain : unit.metadata = [])
    (holds : UnitInPlace name space.parts.units) : UnitInPlace name after.parts.units := by
  obtain ⟨other, inside, root, named⟩ := holds.there
  rcases insertUnit_ok done with ⟨updated, -⟩ | ⟨appended, -⟩
  · rw [updated]
    constructor
    · refine ⟨_, mem_map.mpr ⟨other, inside, rfl⟩, ?_⟩
      split <;> exact ⟨root, named⟩
    · intro changed member
      obtain ⟨old, was, rfl⟩ := mem_map.mp member
      split
      · exact fun _ _ => plain
      · exact holds.plain old was
  · rw [appended]
    constructor
    · exact ⟨other, mem_append_left _ inside, root, named⟩
    · intro found member
      rcases mem_append.mp member with old | new
      · exact holds.plain found old
      · obtain rfl := mem_singleton.mp new
        exact fun _ _ => plain

theorem unitInPlace_made (root : unit.parentId = none) (plain : unit.metadata = []) :
    UnitInPlace unit.name after.parts.units := by
  have own : ∀ other : OrganizationalUnit, other.parentId.getD "" = "" → other.name = unit.name →
      unit.conflicts other = true := by
    intro other atRoot named
    rw [conflicts_iff, root, atRoot, named]
    exact ⟨rfl, rfl⟩
  rcases insertUnit_ok done with ⟨updated, other, inside, clash⟩ | ⟨appended, free⟩
  · obtain ⟨parent, named⟩ := conflicts_iff.mp clash
    rw [root] at parent
    rw [updated]
    constructor
    · refine ⟨_, mem_map.mpr ⟨other, inside, rfl⟩, ?_⟩
      rw [if_pos clash]
      exact ⟨parent.symm, named.symm⟩
    · intro changed member
      obtain ⟨old, was, rfl⟩ := mem_map.mp member
      split
      · exact fun _ _ => plain
      · rename_i apart
        exact fun atRoot named => absurd (own old atRoot named) apart
  · rw [appended]
    constructor
    · exact ⟨unit, by simp, by simp [root], rfl⟩
    · intro found member atRoot named
      rcases mem_append.mp member with old | new
      · exact absurd (own found atRoot named) (free found old)
      · obtain rfl := mem_singleton.mp new
        exact plain

end

theorem createUnitScoped_ok (done : createUnitScoped env unitId name unitType parentId s = (.ok (), next)) :
    insertUnit env { id := unitId, name, kind := unitKind unitType, parentId } s.space = .ok next.space := by
  obtain ⟨space, written, reached⟩ := storeCall_ok done
  rw [reached]
  cases checked : validateUnitInvariants s.space unitType parentId with
  | error e => simp [checked, bind, Except.bind] at written
  | ok _ =>
    simp only [checked, bind, Except.bind] at written
    split at written
    · cases written
    · rename_i inserted
      cases written
      exact inserted

theorem createUnitScoped_keeps {other : String} : Keeps (fun s : Session => UnitInPlace name s.space.parts.units)
      (createUnitScoped env unitId other unitType parentId) := by
  refine storeCall_keeps (I := fun space => UnitInPlace name space.parts.units) (fun space a after holds done => ?_)
  cases checked : validateUnitInvariants space unitType parentId with
  | error e => simp [checked, bind, Except.bind] at done
  | ok _ =>
    simp only [checked, bind, Except.bind] at done
    split at done
    · cases done
    · rename_i inserted
      cases done
      exact unitInPlace_kept inserted rfl holds

theorem withUnit_nil (done : withUnit env place name unitType parentId further s = (.ok [], next)) :
    ∃ unitId after, createUnitScoped env unitId name unitType parentId s = (.ok (), after) ∧
      further unitId after = (.ok [], next) := by
  unfold withUnit at done
  rw [bind_of_ok (get_run s), bind_run, outcome_run] at done
  generalize ran : createUnitScoped env (env.newUnitId s.calls).text name unitType parentId s = outcome at done
  obtain ⟨result, after⟩ := outcome
  cases result with
  | ok u => exact ⟨_, after, ran, done⟩
  | error e => cases done

theorem withUnit_keeps {I : Session → Prop}
    (created : ∀ unitId, Keeps I (createUnitScoped env unitId name unitType parentId))
    (later : ∀ n, Keeps I (further (env.newUnitId n).text)) :
    Keeps I (withUnit env place name unitType parentId further) := by
  refine .bind .get (fun s => .bind (.outcome (created _)) (fun outcome => ?_))
  cases outcome with
  | ok _ => exact later _
  | error _ => exact .pure _

theorem members_fix_units {members : List ManifestMember} :
    Fixes (fun s : Session => s.space.parts.units) (gather (assignMember backend env id place unitId) members) := by
  refine .gather (fun member => ?_) members
  unfold assignMember
  split
  · exact .pure _
  · exact errorOf_fixes (assignRoleScoped_fixes (V := fun space => space.parts.units) (fun _ _ => rfl))

theorem provisionOrg_keeps {org : ManifestOrg} :
    Keeps (fun s : Session => UnitInPlace name s.space.parts.units) (provisionOrg backend env id org) := by
  refine withUnit_keeps (fun _ => createUnitScoped_keeps) (fun orgId => ?_)
  refine .bind (members_fix_units.keeps _) (fun _ => .bind (.gather (fun team _ => ?_)) (fun _ => .pure _))
  exact withUnit_keeps (fun _ => createUnitScoped_keeps) (fun _ => members_fix_units.keeps _)

theorem provisionOrg_nil {org : ManifestOrg} (done : provisionOrg backend env id org s = (.ok [], next)) :
    UnitInPlace org.name next.space.parts.units := by
  unfold provisionOrg at done
  obtain ⟨orgId, after, created, rest⟩ := withUnit_nil done
  have made : UnitInPlace org.name after.space.parts.units := unitInPlace_made (createUnitScoped_ok created) rfl rfl
  have kept : Keeps (fun s : Session => UnitInPlace org.name s.space.parts.units) (do
      let members ← gather (assignMember backend env id ("org '" ++ org.name ++ "'") orgId) (org.members.getD [])
      let teams ← gather (provisionTeam backend env id orgId) (org.teams.getD [])
      pure (members ++ teams)) := by
    refine .bind (members_fix_units.keeps _) (fun _ => .bind (.gather (fun team _ => ?_)) (fun _ => .pure _))
    exact withUnit_keeps (fun _ => createUnitScoped_keeps) (fun _ => members_fix_units.keeps _)
  have last := kept after made
  rwa [rest] at last

theorem hierarchyStep_ok {orgs : List ManifestOrg} (declared : m.hierarchy = some orgs)
    (done : hierarchyStep backend env m id s = (.ok steps, next)) (passed : steps.all (·.ok) = true) :
    (∀ org ∈ orgs, UnitInPlace org.name next.space.parts.units) ∧
      ∃ organizations, next.space.parts.organizations = upsertOrganizations env
        (orgs.map ManifestOrg.input) organizations := by
  unfold hierarchyStep at done
  simp only [declared] at done
  obtain ⟨errors, after, ran, done⟩ := bind_ok done
  rw [bind_run, outcome_run] at done
  generalize written : upsertHierarchy env (orgs.map ManifestOrg.input) after = outcome at done
  obtain ⟨result, last⟩ := outcome
  cases result with
  | error e =>
    cases done
    exact absurd (ofErrors_passed passed) (by simp)
  | ok summary =>
    cases done
    obtain rfl := ofErrors_passed passed
    obtain ⟨space, upserted, reached⟩ := storeCall_ok written
    cases upserted
    rw [reached]
    refine ⟨fun org member => ?_, _, rfl⟩
    exact gather_each (P := fun (org : ManifestOrg) (s : Session) => UnitInPlace org.name s.space.parts.units)
      (fun _ _ _ _ => provisionOrg_keeps) (fun _ _ _ _ => provisionOrg_nil) ran org member

def Assigned (backend : Backend) (id : Uuid) (assignment : ManifestRoleAssignment) (userRoles : List RoleRow) :
    Prop :=
  ∃ userId, UserId.new assignment.userId = some userId ∧
    ⟨userId, id.text, assignment.unit.getD id.text, backend.lowercasing.toLowercase assignment.role.text⟩ ∈ userRoles

theorem insertRole_ok (done : insertRole env row space = .ok after) :
    row ∈ after.parts.userRoles ∧ ∀ other ∈ space.parts.userRoles, other ∈ after.parts.userRoles := by
  unfold insertRole at done
  split at done
  · rename_i present
    cases done
    exact ⟨present, fun _ inside => inside⟩
  · split at done
    · cases done
      exact ⟨by simp, fun other inside => mem_append_left _ inside⟩
    · cases done

theorem assignRoleScoped_ok {tenantId userId : String} {role : RoleIdentifier}
    (done : assignRoleScoped env backend tenantId userId unitId role s = (.ok (), next)) :
    ⟨userId, tenantId, unitId, backend.lowercasing.toLowercase role.text⟩ ∈ next.space.parts.userRoles := by
  obtain ⟨space, written, reached⟩ := storeCall_ok done
  rw [reached]
  cases inserted : insertRole env ⟨userId, tenantId, unitId, backend.lowercasing.toLowercase role.text⟩ s.space with
  | error e => simp [inserted, Except.map] at written
  | ok after =>
    simp only [inserted, Except.map, Except.ok.injEq, Prod.mk.injEq, true_and] at written
    subst written
    exact (insertRole_ok inserted).1

theorem assignRoleScoped_keeps {tenantId userId : String} {role : RoleIdentifier} :
    Keeps (fun s : Session => row ∈ s.space.parts.userRoles)
      (assignRoleScoped env backend tenantId userId unitId role) := by
  refine storeCall_keeps (I := fun space => row ∈ space.parts.userRoles) (fun space a after holds written => ?_)
  cases inserted : insertRole env ⟨userId, tenantId, unitId, backend.lowercasing.toLowercase role.text⟩ space with
  | error e => simp [inserted, Except.map] at written
  | ok found =>
    simp only [inserted, Except.map, Except.ok.injEq, Prod.mk.injEq, true_and] at written
    subst written
    exact (insertRole_ok inserted).2 row holds

theorem getUnitById_id {unitRef : String} (found : getUnitById space unitRef = .ok (some unit)) :
    unit.id = unitRef := by
  unfold getUnitById at found
  split at found
  · cases found
  · rename_i other first
    cases known : unitTypeOf other.kind with
    | error e => simp [known, Except.map] at found
    | ok _ =>
      simp only [known, Except.map, Except.ok.injEq, Option.some.injEq] at found
      subst found
      simpa using find?_some first

theorem getUnitScoped_id {unitRef : String} (done : getUnitScoped env unitRef s = (.ok (some unit), next)) :
    unit.id = unitRef := by
  obtain ⟨space, written, -⟩ := storeCall_ok done
  cases found : getUnitById s.space unitRef with
  | error e => simp [found, Except.map] at written
  | ok outcome =>
    simp only [found, Except.map, Except.ok.injEq, Prod.mk.injEq] at written
    obtain ⟨rfl, -⟩ := written
    exact getUnitById_id found

theorem assignDeclared_nil (done : assignDeclared backend env id assignment s = (.ok [], next)) :
    Assigned backend id assignment next.space.parts.userRoles := by
  unfold assignDeclared at done
  cases known : UserId.new assignment.userId with
  | none =>
    simp only [known] at done
    cases done
  | some userId =>
    refine ⟨userId, known, ?_⟩
    cases place : assignment.unit with
    | none =>
      simp only [known, place] at done
      exact assignRoleScoped_ok (errorOf_nil done)
    | some unitRef =>
      simp only [known, place, bind_run, outcome_run] at done
      generalize ran : getUnitScoped env unitRef s = outcome at done
      obtain ⟨result, after⟩ := outcome
      cases result with
      | error e => cases done
      | ok found =>
        cases found with
        | none => cases done
        | some unit =>
          rw [Option.getD_some, ← getUnitScoped_id ran]
          exact assignRoleScoped_ok (errorOf_nil done)

theorem assignDeclared_keeps :
    Keeps (fun s : Session => row ∈ s.space.parts.userRoles) (assignDeclared backend env id assignment) := by
  have each : ∀ userId unitId : String, Keeps (fun s : Session => row ∈ s.space.parts.userRoles)
      (assignToUnit backend env id assignment userId unitId) := by
    intro userId unitId
    refine .bind (.outcome assignRoleScoped_keeps) (fun outcome => ?_)
    cases outcome <;> exact .pure _
  unfold assignDeclared
  split
  · exact .pure _
  · exact each _ _
  · refine .bind (.outcome ?_) (fun outcome => ?_)
    · refine (storeCall_fixes (V := fun space => space.parts.userRoles) (fun space a after done => ?_)).keeps _
      cases found : getUnitById space _ with
      | error e => rw [found] at done; cases done
      | ok unit => rw [found] at done; cases done; rfl
    · split
      · exact each _ _
      · exact .pure _
      · exact .pure _

theorem rolesStep_ok (done : rolesStep backend env m id s = (.ok steps, next)) (passed : steps.all (·.ok) = true) :
    ∀ assignment ∈ m.roles.getD [], Assigned backend id assignment next.space.parts.userRoles := by
  unfold rolesStep at done
  cases declared : m.roles with
  | none => exact fun _ member => absurd member not_mem_nil
  | some assignments =>
    simp only [declared] at done
    obtain ⟨errors, after, ran, done⟩ := bind_ok done
    cases done
    obtain rfl := ofErrors_passed passed
    refine gather_each (P := fun assignment (s : Session) => Assigned backend id assignment s.space.parts.userRoles)
      (fun assignment _ other _ => ?_) (fun _ _ _ _ => assignDeclared_nil) ran
    intro s ⟨userId, known, assigned⟩
    exact ⟨userId, known, assignDeclared_keeps s assigned⟩

structure Standing (backend : Backend) (m : TenantManifest) (id : Uuid) (parts : TenantParts) : Prop where
  validated : m.writes id = true → (m.configDocument id.text).validate backend.uuids = .ok ()
  named : ∀ secret ∈ m.secrets.getD [], secret.Named
  stored : ∃ env table, parts.secrets = writeSecrets env (m.secrets.getD []) table
  configured : ∃ config, parts.config = withSecrets id parts.secrets (m.secrets.getD []) (m.baseConfig id config)
  bound : ∀ repo, m.repository = some repo → ∃ newId now old, parts.binding = some (bindingAfter repo newId now old)
  united : ∀ org ∈ m.hierarchy.getD [], UnitInPlace org.name parts.units
  organized : ∀ orgs, m.hierarchy = some orgs →
    ∃ env organizations, parts.organizations = upsertOrganizations env (orgs.map ManifestOrg.input) organizations
  assigned : ∀ assignment ∈ m.roles.getD [], Assigned backend id assignment parts.userRoles

section
variable (done : applySteps backend env m id s = (.ok steps, next)) (passed : steps.all (·.ok) = true)
include done passed

theorem applySteps_run : ∃ s₁ s₂ s₃ s₄ s₅ p₁ p₂ p₃ p₄ p₅ p₆,
      (domainsStep backend env m id s = (.ok p₁, s₁) ∧ p₁.all (·.ok) = true) ∧
      (configStep backend m id s₁ = (.ok p₂, s₂) ∧ p₂.all (·.ok) = true) ∧
      (secretsStep backend env m id s₂ = (.ok p₃, s₃) ∧ p₃.all (·.ok) = true) ∧
      (repositoryStep env m id s₃ = (.ok p₄, s₄) ∧ p₄.all (·.ok) = true) ∧
      (hierarchyStep backend env m id s₄ = (.ok p₅, s₅) ∧ p₅.all (·.ok) = true) ∧
      (rolesStep backend env m id s₅ = (.ok p₆, next) ∧ p₆.all (·.ok) = true) := by
  obtain ⟨p₁, s₁, first, done⟩ := bind_ok done
  obtain ⟨p₂, s₂, second, done⟩ := bind_ok done
  obtain ⟨p₃, s₃, third, done⟩ := bind_ok done
  obtain ⟨p₄, s₄, fourth, done⟩ := bind_ok done
  obtain ⟨p₅, s₅, fifth, done⟩ := bind_ok done
  obtain ⟨p₆, s₆, sixth, done⟩ := bind_ok done
  cases done
  simp only [all_append, Bool.and_eq_true] at passed
  obtain ⟨⟨⟨⟨⟨q₁, q₂⟩, q₃⟩, q₄⟩, q₅⟩, q₆⟩ := passed
  exact ⟨s₁, s₂, s₃, s₄, s₅, p₁, p₂, p₃, p₄, p₅, p₆, ⟨first, q₁⟩, ⟨second, q₂⟩, ⟨third, q₃⟩,
    ⟨fourth, q₄⟩, ⟨fifth, q₅⟩,
    sixth, q₆⟩

theorem standing_of_applySteps : Standing backend m id next.space.parts := by
  obtain ⟨s₁, s₂, s₃, s₄, s₅, _, _, _, _, _, _, _, ⟨config, configPassed⟩, ⟨secrets, secretsPassed⟩,
    ⟨repository, repositoryPassed⟩, ⟨hierarchy, hierarchyPassed⟩, roles, rolesPassed⟩ := applySteps_run done passed
  obtain ⟨validated, based⟩ := configStep_ok config configPassed
  obtain ⟨named, stored, configured⟩ := secretsStep_ok secrets secretsPassed
  -- the later steps leave what the earlier ones wrote
  have fourth : Fixes (fun s : Session => (s.space.parts.config, s.space.parts.secrets)) (repositoryStep env m id) :=
    repositoryStep_fixes (V := fun space => (space.parts.config, space.parts.secrets)) (fun _ _ => rfl)
  have fifth : Fixes (fun s : Session => (s.space.parts.config, s.space.parts.secrets, s.space.parts.binding))
      (hierarchyStep backend env m id) :=
    hierarchyStep_fixes (V := fun space => (space.parts.config, space.parts.secrets, space.parts.binding))
      ⟨fun _ _ => rfl, fun _ _ => rfl, fun _ _ => rfl⟩
  have sixth : Fixes (fun s : Session => { s.space.parts with userRoles := [] }) (rolesStep backend env m id) :=
    rolesStep_fixes (V := fun space => { space.parts with userRoles := [] }) (fun _ _ => rfl)
  have afterFourth := fourth s₃
  have afterFifth := fifth s₄
  have afterSixth := sixth s₅
  rw [repository] at afterFourth
  rw [hierarchy] at afterFifth
  rw [roles] at afterSixth
  simp only [Prod.mk.injEq, TenantParts.mk.injEq] at afterFourth afterFifth afterSixth
  obtain ⟨config₄, secrets₄⟩ := afterFourth
  obtain ⟨config₅, secrets₅, binding₅⟩ := afterFifth
  obtain ⟨config₆, secrets₆, binding₆, units₆, organizations₆, -⟩ := afterSixth
  have sameConfig : next.space.parts.config = s₃.space.parts.config := by rw [config₆, config₅, config₄]
  have sameSecrets : next.space.parts.secrets = s₃.space.parts.secrets := by rw [secrets₆, secrets₅, secrets₄]
  constructor
  · exact validated
  · exact named
  · exact ⟨env, _, sameSecrets.trans stored⟩
  · refine ⟨s₁.space.parts.config, ?_⟩
    rw [sameConfig, sameSecrets, configured, based]
  · intro repo declared
    refine ⟨env.newBindingId, env.now, s₃.space.parts.binding, ?_⟩
    rw [binding₆, binding₅]
    exact repositoryStep_ok declared repository repositoryPassed
  · intro org member
    rw [units₆]
    cases declared : m.hierarchy with
    | none => simp [declared] at member
    | some orgs =>
      rw [declared] at member
      exact (hierarchyStep_ok declared hierarchy hierarchyPassed).1 org member
  · intro orgs declared
    obtain ⟨organizations, written⟩ := (hierarchyStep_ok declared hierarchy hierarchyPassed).2
    exact ⟨env, organizations, organizations₆.trans written⟩
  · exact rolesStep_ok roles rolesPassed

end

end

end Aeterna.Tenancy
