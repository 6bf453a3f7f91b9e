import Aeterna.Tenancy.Standing

namespace Aeterna.Tenancy
open Lib (JsonValue Eff)
open Lib.Eff List

theorem TeamRow.overwrites (fresh fresh' : Uuid) : Lib.Overwrites (TeamRow.write fresh) (TeamRow.write fresh') :=
  ⟨fun _ _ => rfl, fun _ _ _ => rfl, fun _ _ => rfl⟩

theorem organization_id (newTeamId : String → Uuid) (fresh : Uuid) (contents : List OrgInput)
    (row : OrganizationRow) :
    (Lib.rewrite (OrganizationRow.write newTeamId fresh) contents (some row)).map (·.id) = some row.id := by
  induction contents generalizing row with
  | nil => rfl
  | cons org rest ih => exact ih (OrganizationRow.write newTeamId fresh (some row) org)

theorem organization_teams (newTeamId : String → Uuid) (fresh : Uuid) (contents : List OrgInput)
    (row : Option OrganizationRow) :
    ((Lib.rewrite (OrganizationRow.write newTeamId fresh) contents row).map (·.teams)).getD ∅ =
      Lib.upsertAll (fun slug => TeamRow.write (newTeamId slug)) (contents.flatMap (·.teams))
        ((row.map (·.teams)).getD ∅) := by
  induction contents generalizing row with
  | nil => rfl
  | cons org rest ih =>
    refine (ih (some (OrganizationRow.write newTeamId fresh row org))).trans ?_
    rw [flatMap_cons, Lib.upsertAll, Lib.upsertAll, foldl_append]
    rfl

theorem organization_again (newTeamId newTeamId' : String → Uuid) (fresh fresh' : Uuid) (contents : List OrgInput)
    (row : Option OrganizationRow) :
    Lib.rewrite (OrganizationRow.write newTeamId' fresh') contents
        (Lib.rewrite (OrganizationRow.write newTeamId fresh) contents row) =
      Lib.rewrite (OrganizationRow.write newTeamId fresh) contents row := by
  rcases eq_nil_or_concat contents with rfl | ⟨before, last, same⟩
  · rfl
  · rw [concat_eq_append] at same
    have first : ∃ written, Lib.rewrite (OrganizationRow.write newTeamId fresh) contents row = some written ∧
        written.name = last.name := by
      rw [same, Lib.rewrite_concat]
      exact ⟨_, rfl, rfl⟩
    obtain ⟨written, ran, named⟩ := first
    have second : ∃ again, Lib.rewrite (OrganizationRow.write newTeamId' fresh') contents
        (some written) = some again ∧
        again.name = last.name := by
      rw [same, Lib.rewrite_concat]
      exact ⟨_, rfl, rfl⟩
    obtain ⟨again, ranAgain, namedAgain⟩ := second
    rw [ran, ranAgain]
    have ids := organization_id newTeamId' fresh' contents written
    have teams := organization_teams newTeamId fresh contents row
    have teamsAgain := organization_teams newTeamId' fresh' contents (some written)
    rw [ranAgain] at ids teamsAgain
    rw [ran] at teams
    simp only [Option.map_some, Option.getD_some, Option.some.injEq] at ids teams teamsAgain
    rw [teams, Lib.upsertAll_again (fun _ => (TeamRow.overwrites _ _).again _), ← teams] at teamsAgain
    obtain ⟨writtenId, writtenName, writtenTeams⟩ := written
    obtain ⟨againId, againName, againTeams⟩ := again
    simp_all

def TenantRepositoryBinding.undated (binding : TenantRepositoryBinding) : TenantRepositoryBinding :=
  { binding with updatedAt := ⟨0, ""⟩ }

def TenantParts.undated (parts : TenantParts) : TenantParts := { parts with binding := parts.binding.map (·.undated) }

theorem RecordSource.display_ne (source : RecordSource) : source.display ≠ "admin" := by cases source <;> decide

theorem bindingAfter_again {repo : SetTenantRepositoryBindingRequest} {newId newId' : Uuid} {now now' : DateTime}
    {old : Option TenantRepositoryBinding} :
    (bindingAfter repo newId' now' (some (bindingAfter repo newId now old))).undated =
      (bindingAfter repo newId now old).undated := by
  have other := RecordSource.display_ne repo.sourceOwner
  cases old with
  | none => simp [bindingAfter, TenantRepositoryBinding.merge, SetTenantRepositoryBindingRequest.toBinding,
      TenantRepositoryBinding.undated, other]
  | some binding =>
    by_cases guarded : binding.sourceOwner = "admin"
    · simp [bindingAfter, TenantRepositoryBinding.merge, SetTenantRepositoryBindingRequest.toBinding, guarded, other]
    · simp [bindingAfter, TenantRepositoryBinding.merge, SetTenantRepositoryBindingRequest.toBinding,
        TenantRepositoryBinding.undated, guarded, other]

structure Calm (env : Surroundings) (units : List OrganizationalUnit) : Prop where
  faultless : ∀ n, env.fault n = none
  elsewhere : ∀ n, env.unitElsewhere (env.newUnitId n).text = false
  fresh : ∀ n, ∀ unit ∈ units, unit.id ≠ (env.newUnitId n).text

section
variable {backend : Backend} {env : Surroundings} {m : TenantManifest} {id : Uuid} {s next : Session}
  {parts : TenantParts}

theorem setSecretEntry_calm {secret : ManifestSecret} (calm : ∀ n, env.fault n = none) (named : secret.Named) :
    ∃ next, setSecretEntry env backend id.text secret s = (.ok (), next) := by
  have known : tenantUuid backend.uuids id.text = .ok id := by simp [tenantUuid, backend.uuids.parse_text]
  have put := storeCall_calm (s := s) calm (f := fun space =>
    let row := SecretRow.write (env.newSecretId secret.logicalName) space.parts.secrets[secret.logicalName]? secret.secretValue
    .ok (SecretReference.postgres row.id,
      { space with parts.secrets := space.parts.secrets.insert secret.logicalName row })) rfl
  have first : (ofExcept (tenantUuid backend.uuids id.text) : Eff Session TenantConfigProviderError Uuid) s =
      (.ok id, s) := by
    rw [known]
    rfl
  unfold setSecretEntry
  rw [bind_of_ok first, if_neg (by simp [named.1]), if_neg named.2, bind_run, mapError_run, putSecret, put]
  exact ⟨_, rfl⟩

theorem errorOf_done {ε : Type} {words : ε → String} {x : Eff Session ε Unit} (done : x s = (.ok (), next)) :
    errorOf words x s = (.ok [], next) := by
  unfold errorOf
  rw [bind_run, outcome_run, done]
  rfl

theorem secrets_calm {secrets : List ManifestSecret} {words : ManifestSecret → TenantConfigProviderError → String}
    (calm : ∀ n, env.fault n = none) (named : ∀ secret ∈ secrets, secret.Named) :
    ∃ next, gather (fun secret => errorOf (words secret) (setSecretEntry env backend id.text secret)) secrets s =
      (.ok [], next) := by
  induction secrets generalizing s with
  | nil => exact ⟨s, rfl⟩
  | cons secret rest ih =>
    obtain ⟨own, others⟩ := forall_mem_cons.mp named
    have done : ∃ next, setSecretEntry env backend id.text secret s = (.ok (), next) := setSecretEntry_calm calm own
    obtain ⟨after, first⟩ := done
    obtain ⟨last, later⟩ := ih (s := after) others
    refine ⟨last, ?_⟩
    unfold gather
    rw [bind_of_ok (errorOf_done first), bind_of_ok later]
    rfl

theorem parts_eq {a b : TenantParts} (config : a.config = b.config) (secrets : a.secrets = b.secrets)
    (rest : { a with config := none, secrets := ∅ } = { b with config := none, secrets := ∅ }) : a = b := by
  cases a
  cases b
  simp_all

theorem configStep_again (standing : Standing backend m id parts) (same : s.space.parts = parts) :
    (configStep backend m id s).2.space.parts = { parts with config := m.baseConfig id parts.config } := by
  unfold configStep TenantManifest.baseConfig
  split
  · rename_i writes
    rw [if_pos (show m.writes id = true from writes), bind_run, outcome_run, upsertConfig, standing.validated writes,
      ← same]
    rfl
  · rename_i unwritten
    rw [if_neg (show ¬ m.writes id = true from unwritten), ← same]
    rfl

theorem baseConfig_again (m : TenantManifest) (id : Uuid) (table : BTreeMap SecretRow)
    (config : Option TenantConfigDocument) :
    m.baseConfig id (withSecrets id table (m.secrets.getD []) (m.baseConfig id config)) = m.baseConfig id config ∨
      m.baseConfig id (withSecrets id table (m.secrets.getD []) (m.baseConfig id config)) =
        withSecrets id table (m.secrets.getD []) (m.baseConfig id config) := by
  unfold TenantManifest.baseConfig
  split
  · exact .inl rfl
  · exact .inr rfl

theorem secretsStep_again (standing : Standing backend m id parts) (calm : ∀ n, env.fault n = none)
    (same : s.space.parts = { parts with config := m.baseConfig id parts.config }) :
    (secretsStep backend env m id s).2.space.parts = parts := by
  obtain ⟨env', table, stored⟩ := standing.stored
  obtain ⟨config, configured⟩ := standing.configured
  have fixes : Fixes (fun s : Session => { s.space.parts with config := none, secrets := ∅ })
      (secretsStep backend env m id) :=
    secretsStep_fixes (V := fun space => { space.parts with config := none, secrets := ∅ }) (fun _ _ _ => rfl)
  have rest := fixes s
  have ran : ∃ steps, (secretsStep backend env m id s).1 = .ok steps ∧ steps.all (·.ok) = true := by
    unfold secretsStep
    cases declared : m.secrets with
    | none => exact ⟨[], rfl, rfl⟩
    | some secrets =>
      have named : ∀ secret ∈ secrets, secret.Named := by
        have all := standing.named
        rwa [declared] at all
      have done : ∃ next, gather (fun secret : ManifestSecret =>
          errorOf (fun e => secret.logicalName ++ ": " ++ TenantConfigProviderError.display e)
            (setSecretEntry env backend id.text secret)) secrets s = (.ok [], next) := secrets_calm calm named
      obtain ⟨next, done⟩ := done
      dsimp only
      rw [bind_of_ok done]
      exact ⟨_, rfl, by simp⟩
  obtain ⟨steps, answer, passed⟩ := ran
  obtain ⟨-, storedAgain, configuredAgain⟩ := secretsStep_ok (Prod.ext answer rfl) passed
  rw [same] at storedAgain configuredAgain
  have sameSecrets : (secretsStep backend env m id s).2.space.parts.secrets = parts.secrets := by
    rw [storedAgain, stored]
    exact Lib.upsertAll_again (fun _ => (SecretRow.overwrites _ _).again _)
  refine parts_eq ?_ sameSecrets ?_
  · rw [configuredAgain, sameSecrets]
    -- the document is written anew, or still holds the references
    show withSecrets id parts.secrets _ (m.baseConfig id parts.config) = parts.config
    rw [configured]
    rcases baseConfig_again m id parts.secrets config with written | kept
    · rw [written]
    · rw [kept, withSecrets_again]
  · exact rest.trans (congrArg (fun parts : TenantParts => { parts with config := none, secrets := ∅ }) same)

theorem repositoryStep_again (standing : Standing backend m id parts) (same : s.space.parts = parts) :
    ∃ binding, (repositoryStep env m id s).2.space.parts = { parts with binding } ∧
      binding.map (·.undated) = parts.binding.map (·.undated) := by
  subst same
  unfold repositoryStep
  cases declared : m.repository with
  | none => exact ⟨_, rfl, rfl⟩
  | some repo =>
    dsimp only
    cases checked : repo.validateCredentialRef with
    | error reason => exact ⟨s.space.parts.binding, rfl, rfl⟩
    | ok _ =>
      cases allowed : connectionAllowed env id repo with
      | error message => exact ⟨s.space.parts.binding, rfl, rfl⟩
      | ok _ =>
        obtain ⟨newId, now, old, bound⟩ := standing.bound repo declared
        dsimp only
        rw [bind_run, outcome_run]
        generalize ran : upsertBinding env repo s = outcome
        obtain ⟨result, after⟩ := outcome
        cases result with
        | error e =>
          refine ⟨s.space.parts.binding, ?_, rfl⟩
          show after.space.parts = _
          rw [storeCall_error ran]
        | ok binding =>
          obtain ⟨space, written, reached⟩ := storeCall_ok ran
          cases written
          refine ⟨some (bindingAfter repo env.newBindingId env.now s.space.parts.binding), ?_, ?_⟩
          · show after.space.parts = _
            rw [reached]
            rfl
          · rw [bound, Option.map_some, Option.map_some, bindingAfter_again]

variable {space : TenantSpace} {unitId : String}

theorem insertUnit_again {unit : OrganizationalUnit} (root : unit.parentId = none)
    (plain : unit.metadata = []) (inPlace : UnitInPlace unit.name space.parts.units) :
    insertUnit env unit space = .ok space := by
  obtain ⟨other, inside, atRoot, named⟩ := inPlace.there
  have clash : space.parts.units.any (unit.conflicts ·) = true :=
    any_eq_true.mpr ⟨other, inside, conflicts_iff.mpr ⟨by rw [root, atRoot]; rfl, named.symm⟩⟩
  have kept : space.parts.units.map (fun other =>
      if unit.conflicts other then { other with metadata := unit.metadata } else other) = space.parts.units := by
    refine (map_congr_left (fun other member => ?_)).trans (map_id _)
    split
    · rename_i own
      obtain ⟨parent, same⟩ := conflicts_iff.mp own
      rw [plain, ← inPlace.plain other member (by rw [← parent, root]; rfl) same.symm]
      rfl
    · rfl
  unfold insertUnit
  rw [if_pos clash, kept]

theorem insertRole_nowhere {row : RoleRow} {after : TenantSpace} (elsewhere : env.unitElsewhere row.unitId = false)
    (fresh : ∀ unit ∈ space.parts.units, unit.id ≠ row.unitId) (done : insertRole env row space = .ok after) :
    after = space := by
  unfold insertRole at done
  split at done
  · cases done
    rfl
  · have absent : ¬ (env.unitElsewhere row.unitId ∨ space.parts.units.any (·.id = row.unitId)) := by
      simp only [elsewhere, Bool.false_eq_true, false_or, any_eq_true, decide_eq_true_eq, not_exists, not_and]
      exact fresh
    rw [if_neg absent] at done
    cases done

theorem createOrg_again {name : String} (inPlace : UnitInPlace name parts.units) :
    Keeps (fun s : Session => s.space.parts = parts) (createUnitScoped env unitId name .organization none) := by
  refine storeCall_keeps (I := fun space => space.parts = parts) (fun space a after same done => ?_)
  subst same
  have again : insertUnit env { id := unitId, name, kind := unitKind .organization, parentId := none } space =
      .ok space :=
    insertUnit_again rfl rfl inPlace
  simp only [validateUnitInvariants, if_true, bind, Except.bind, again] at done
  cases done
  rfl

theorem createTeam_again {name parentId : String} (fresh : ∀ unit ∈ parts.units, unit.id ≠ parentId) :
    Keeps (fun s : Session => s.space.parts = parts) (createUnitScoped env unitId name .team (some parentId)) := by
  refine storeCall_keeps (I := fun space => space.parts = parts) (fun space a after same done => ?_)
  subst same
  have absent : getUnitById space parentId = .ok none := by
    unfold getUnitById
    rw [find?_eq_none.mpr (fun unit member => by simpa using fresh unit member)]
  simp only [validateUnitInvariants, absent, bind, Except.bind] at done
  cases done

theorem assignRoleScoped_again {tenantId userId : String} {role : RoleIdentifier}
    (settled : ⟨userId, tenantId, unitId, backend.lowercasing.toLowercase role.text⟩ ∈ parts.userRoles ∨
    env.unitElsewhere unitId = false ∧ ∀ unit ∈ parts.units, unit.id ≠ unitId) :
    Keeps (fun s : Session => s.space.parts = parts) (assignRoleScoped env backend tenantId userId unitId role) := by
  refine storeCall_keeps (I := fun space => space.parts = parts) (fun space a after same done => ?_)
  subst same
  cases inserted : insertRole env ⟨userId, tenantId, unitId, backend.lowercasing.toLowercase role.text⟩ space with
  | error e => simp [inserted, Except.map] at done
  | ok found =>
    simp only [inserted, Except.map, Except.ok.injEq, Prod.mk.injEq, true_and] at done
    subst done
    rcases settled with present | ⟨elsewhere, fresh⟩
    · rw [insertRole, if_pos present] at inserted
      cases inserted
      rfl
    · rw [insertRole_nowhere elsewhere fresh inserted]

theorem errorOf_keeps {ε : Type} {I : Session → Prop} {words : ε → String} {x : Eff Session ε Unit}
    (keeps : Keeps I x) :
    Keeps I (errorOf words x) := by
  refine .bind keeps.outcome (fun outcome => ?_)
  cases outcome <;> exact .pure _

section
variable (calm : Calm env parts.units)
include calm

theorem members_again {place : String} {n : Nat} {members : List ManifestMember} :
    Keeps (fun s : Session => s.space.parts = parts)
      (gather (assignMember backend env id place (env.newUnitId n).text) members) := by
  refine .gather (fun member _ => ?_)
  unfold assignMember
  split
  · exact .pure _
  · exact errorOf_keeps (assignRoleScoped_again (.inr ⟨calm.elsewhere n, calm.fresh n⟩))

theorem provisionOrg_again {org : ManifestOrg} (inPlace : UnitInPlace org.name parts.units) :
    Keeps (fun s : Session => s.space.parts = parts) (provisionOrg backend env id org) := by
  refine withUnit_keeps (fun _ => createOrg_again inPlace) (fun n => ?_)
  refine .bind (members_again calm) (fun _ => .bind (.gather (fun team _ => ?_)) (fun _ => .pure _))
  exact withUnit_keeps (fun _ => createTeam_again (calm.fresh n)) (fun _ => members_again calm)

theorem hierarchyStep_again (united : ∀ org ∈ m.hierarchy.getD [], UnitInPlace org.name parts.units)
    (organized : ∀ orgs, m.hierarchy = some orgs → ∃ env organizations,
      parts.organizations = upsertOrganizations env (orgs.map ManifestOrg.input) organizations) :
    Keeps (fun s : Session => s.space.parts = parts) (hierarchyStep backend env m id) := by
  unfold hierarchyStep
  cases declared : m.hierarchy with
  | none => exact .pure []
  | some orgs =>
    rw [declared] at united
    refine .bind (.gather (fun org member => provisionOrg_again calm (united org member)))
      (fun _ => .bind (.outcome ?_) ?_)
    · refine storeCall_keeps (I := fun space => space.parts = parts) (fun space a after same done => ?_)
      cases done
      obtain ⟨env', organizations, written⟩ := organized orgs declared
      have again : upsertOrganizations env (orgs.map ManifestOrg.input) space.parts.organizations =
          space.parts.organizations := by
        rw [same, written]
        exact Lib.upsertAll_again (fun _ _ => organization_again _ _ _ _ _ _)
      exact (congrArg (fun found => ({ space.parts with organizations := found } : TenantParts)) again).trans same
    · intro outcome
      cases outcome <;> exact .pure _

end

theorem rolesStep_again (assigned : ∀ assignment ∈ m.roles.getD [], Assigned backend id assignment parts.userRoles) :
    Keeps (fun s : Session => s.space.parts = parts) (rolesStep backend env m id) := by
  unfold rolesStep
  cases declared : m.roles with
  | none => exact .pure []
  | some assignments =>
    rw [declared] at assigned
    refine .bind (.gather (fun assignment member => ?_)) (fun _ => .pure _)
    obtain ⟨userId, known, present⟩ := assigned assignment member
    intro s same
    unfold assignDeclared
    cases place : assignment.unit with
    | none =>
      rw [place] at present
      simp only [known]
      exact errorOf_keeps (assignRoleScoped_again (.inl present)) s same
    | some unitRef =>
      rw [place] at present
      simp only [known, bind_run, outcome_run]
      have looked : Fixes (fun s : Session => s.space) (getUnitScoped env unitRef) := by
        refine storeCall_fixes (V := fun space => space) (fun space a next done => ?_)
        cases found : getUnitById space unitRef with
        | error e => rw [found] at done; cases done
        | ok unit => rw [found] at done; cases done; rfl
      have kept := looked s
      generalize ran : getUnitScoped env unitRef s = outcome at kept
      obtain ⟨result, after⟩ := outcome
      have sameAfter : after.space.parts = parts := by
        rw [← same]
        exact congrArg TenantSpace.parts kept
      cases result with
      | error e => exact sameAfter
      | ok found =>
        cases found with
        | none => exact sameAfter
        | some unit =>
          rw [Option.getD_some, ← getUnitScoped_id ran] at present
          exact errorOf_keeps (assignRoleScoped_again (.inl present)) after sameAfter

theorem applySteps_again (standing : Standing backend m id s.space.parts) (calm : Calm env s.space.parts.units) :
    (applySteps backend env m id s).2.space.parts.undated = s.space.parts.undated := by
  obtain ⟨p₁, s₁, first⟩ := steady_run (domainsStep backend env m id) s
  obtain ⟨p₂, s₂, second⟩ := steady_run (configStep backend m id) s₁
  obtain ⟨p₃, s₃, third⟩ := steady_run (secretsStep backend env m id) s₂
  obtain ⟨p₄, s₄, fourth⟩ := steady_run (repositoryStep env m id) s₃
  obtain ⟨p₅, s₅, fifth⟩ := steady_run (hierarchyStep backend env m id) s₄
  obtain ⟨p₆, s₆, sixth⟩ := steady_run (rolesStep backend env m id) s₅
  have ran : applySteps backend env m id s = (.ok (p₁ ++ p₂ ++ p₃ ++ p₄ ++ p₅ ++ p₆), s₆) := by
    unfold applySteps
    rw [bind_of_ok first, bind_of_ok second, bind_of_ok third, bind_of_ok fourth, bind_of_ok fifth, bind_of_ok sixth]
    rfl
  have afterFirst : s₁.space.parts = s.space.parts := by
    have fixes : Fixes (fun s : Session => s.space.parts) (domainsStep backend env m id) :=
      domainsStep_fixes (V := TenantSpace.parts) (fun _ _ => rfl)
    have kept := fixes s
    rwa [first] at kept
  have afterSecond := configStep_again (s := s₁) standing afterFirst
  rw [second] at afterSecond
  have afterThird := secretsStep_again standing calm.faultless afterSecond
  rw [third] at afterThird
  obtain ⟨binding, afterFourth, rebound⟩ := repositoryStep_again standing afterThird
  rw [fourth] at afterFourth
  have hierarchyKeeps : Keeps (fun s' : Session => s'.space.parts = { s.space.parts with binding })
      (hierarchyStep backend env m id) := hierarchyStep_again calm standing.united standing.organized
  have rolesKeeps : Keeps (fun s' : Session => s'.space.parts = { s.space.parts with binding })
      (rolesStep backend env m id) := rolesStep_again standing.assigned
  have afterFifth := hierarchyKeeps s₄ afterFourth
  rw [fifth] at afterFifth
  have afterSixth := rolesKeeps s₅ afterFifth
  rw [sixth] at afterSixth
  rw [ran, afterSixth]
  exact congrArg (fun binding => ({ s.space.parts with binding } : TenantParts)) rebound

end

end Aeterna.Tenancy
