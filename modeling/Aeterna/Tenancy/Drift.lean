import Aeterna.Tenancy.CurrentManifest
import Aeterna.Tenancy.Outcomes

namespace Aeterna.Tenancy
open Lib (JsonValue Eff)
open Lib.Eff

inductive DiffResponse where
  | parseFailed
  | validationFailed (errors : List String)
  | renderFailed (details : String)
  | diff (diff : TenantDiff)

namespace DiffResponse

def isNoOp : DiffResponse → Bool
  | diff d => d.operation = .noOp && d.changes.isEmpty
  | _ => false

end DiffResponse

def diffTenant (backend : Backend) (env : Surroundings) (raw : JsonValue) (space : TenantSpace) : DiffResponse :=
  match readManifest backend.uuids raw with
  | none => .parseFailed
  | some m =>
    if validateManifest m ≠ [] then .validationFailed (validateManifest m)
    else
      match (renderCurrentManifest backend env m.tenant.slug false { space }).1 with
      | .ok rendered => .diff (computeDiff m.tenant.slug (some rendered.toJson) raw)
      | .error (.notFound _) => .diff (computeDiff m.tenant.slug none raw)
      | .error (.storage message) => .renderFailed ("storage error: " ++ message)

section
variable {backend : Backend} {env : Surroundings} {s next : Session} {slug : String} {redact : Bool}

theorem renderCurrentManifest_ok {rendered : RenderedManifest}
    (done : renderCurrentManifest backend env slug redact s = (.ok rendered, next)) :
    ∃ row, s.space.tenant = some row ∧ rendered.tenant.id = row.id.text := by
  obtain ⟨found, after, got, done⟩ := bind_ok done
  obtain ⟨rfl, -⟩ := getTenant_ok (mapError_ok got)
  cases present : s.space.tenant with
  | none =>
    rw [present] at done
    cases done
  | some record =>
    rw [present] at done
    obtain ⟨_, _, _, done⟩ := bind_ok done
    obtain ⟨_, _, _, done⟩ := bind_ok done
    obtain ⟨_, _, _, done⟩ := bind_ok done
    obtain ⟨_, _, _, done⟩ := bind_ok done
    obtain ⟨_, _, _, done⟩ := bind_ok done
    obtain ⟨_, _, _, done⟩ := bind_ok done
    cases done
    exact ⟨record, rfl, rfl⟩

theorem renderCurrentManifest_notFound {tenantRef : String}
    (failed : renderCurrentManifest backend env slug redact s = (.error (.notFound tenantRef), next)) :
    s.space.tenant = none := by
  unfold renderCurrentManifest at failed
  rw [bind_run, mapError_run] at failed
  generalize got : getTenant env s = outcome at failed
  obtain ⟨result, after⟩ := outcome
  cases result with
  | error e => cases failed
  | ok found =>
    obtain ⟨rfl, -⟩ := getTenant_ok got
    cases present : s.space.tenant with
    | none => rfl
    | some record =>
      rw [present] at failed
      -- every later error is of the storage
      have storage : ∀ {ε α : Type} (words : ε → String) (x : Eff Session ε α),
          FailsWith (fun e : RenderError => e ≠ .notFound tenantRef) (x.mapError (fun e => .storage (words e))) :=
        fun _ x => .mapError (fun _ same => by cases same) x
      refine absurd rfl ((?_ : FailsWith (fun e : RenderError => e ≠ .notFound tenantRef) _) after _
        (congrArg Prod.fst failed))
      refine .bind (storage _ _) (fun _ => .bind (storage _ _) (fun _ => .bind (storage _ _) (fun _ => ?_)))
      exact .bind (storage _ _) (fun _ => .bind (storage _ _) (fun _ => .bind (storage _ _) (fun _ => .pure _)))

theorem tenant_member (rendered : RenderedManifest) :
    member? "tenant" (stripEnvelope rendered.toJson) = some rendered.tenant.toJson := by
  rw [member?_stripEnvelope (by decide)]
  simp [RenderedManifest.toJson, recordJson, member?, lookMember]

theorem id_member (tenant : RenderedTenant) : member? "id" tenant.toJson = some (.string tenant.id) := by
  simp [RenderedTenant.toJson, recordJson, member?, lookMember]

theorem id_of_noOp {rendered : RenderedManifest} {raw : JsonValue}
    (quiet : (computeDiff slug (some rendered.toJson) raw).changes = []) :
    ∃ tenant, member? "tenant" raw = some tenant ∧ member? "id" tenant = some (.string rendered.tenant.id) := by
  obtain ⟨tenant, found, sameTenant⟩ := walk_member quiet (tenant_member rendered)
  rw [member?_stripEnvelope (by decide)] at found
  obtain ⟨id, known, sameId⟩ := walk_member sameTenant (id_member rendered.tenant)
  rw [walk_string sameId] at known
  exact ⟨tenant, found, known⟩

theorem ensureTenantWithSource_new {source : RecordSource} {row : TenantRow} (new : s.space.tenant = none)
    (done : ensureTenantWithSource env slug source s = (.ok row, next)) : row.id = env.newTenantId := by
  obtain ⟨found, after, got, done⟩ := bind_ok done
  obtain ⟨rfl, same⟩ := getTenant_ok got
  rw [new] at done
  obtain ⟨space, created, -⟩ := storeCall_ok done
  rw [same, new] at created
  cases created
  rfl

theorem runPipeline_new {m : TenantManifest} {id : Uuid} {steps : List ProvisionStep} (new : s.space.tenant = none)
    (done : runPipeline backend env m s = (.ok (id, steps), next)) : id = env.newTenantId := by
  obtain ⟨row, after, rest, ensured, rfl, -⟩ := runPipeline_ok done
  obtain ⟨record, _, first, same, -⟩ := ensureTenantStep_record ensured
  rw [same, ensureTenantWithSource_new new first]

theorem provisionTenant_new {query : ProvisionQuery} {raw : JsonValue} {space : TenantSpace}
    (new : space.tenant = none) (applied : (provisionTenant backend env query raw space).1.applied = true) :
    (provisionTenant backend env query raw space).2.Has env.newTenantId := by
  generalize ran : provisionTenant backend env query raw space = outcome at applied ⊢
  obtain ⟨answer, next⟩ := outcome
  rcases provisionTenant_cases ran with ⟨unfinished, -⟩ |
    ⟨m, id, steps, generation, piped, steps', last, -, -, piping, persisted, rfl, rfl⟩
  · cases answer <;> first | cases applied | cases unfinished
  · have known := runPipeline_new new piping
    obtain ⟨⟨row, present, same⟩, -⟩ := runPipeline_has piping
    rcases persistStep_run persisted with ⟨-, -, row', present', stamped⟩ | ⟨some, -⟩
    · rw [present] at present'
      cases present'
      dsimp only
      rw [stamped]
      exact ⟨_, rfl, same.trans known⟩
    · rw [ProvisionResponse.applied, some] at applied
      cases applied

/-- The id of a new tenant is drawn at random, so no manifest states it. After an apply, the diff is not empty
then. -/
theorem diff_after_apply (backend : Backend) (env env' : Surroundings) (query : ProvisionQuery) (raw : JsonValue)
    (space : TenantSpace) (new : space.tenant = none)
    (applied : (provisionTenant backend env query raw space).1.applied = true)
    (fresh : ∀ tenant, member? "tenant" raw = some tenant →
      member? "id" tenant ≠ some (.string env.newTenantId.text)) :
    (diffTenant backend env' raw (provisionTenant backend env query raw space).2).isNoOp = false := by
  obtain ⟨row, present, same⟩ := provisionTenant_new new applied
  generalize (provisionTenant backend env query raw space).2 = after at present
  unfold diffTenant
  split
  · rfl
  · rename_i m _
    split
    · rfl
    · generalize ran : renderCurrentManifest backend env' m.tenant.slug false { space := after } = outcome
      obtain ⟨result, last⟩ := outcome
      cases result with
      | ok rendered =>
        obtain ⟨row', present', shown⟩ := renderCurrentManifest_ok ran
        obtain rfl : row = row' := Option.some.inj (present.symm.trans present')
        rw [Bool.eq_false_iff]
        intro quiet
        simp only [DiffResponse.isNoOp, Bool.and_eq_true, List.isEmpty_iff] at quiet
        obtain ⟨tenant, found, stated⟩ := id_of_noOp quiet.2
        rw [shown, same] at stated
        exact fresh tenant found stated
      | error e =>
        cases e with
        | notFound tenantRef =>
          have absent : after.tenant = none := renderCurrentManifest_notFound ran
          rw [present] at absent
          cases absent
        | storage message => rfl

end

theorem acme_diff_after_apply : (diffTenant acmeBackend acmeAround (acmeJson [])
    (provisionTenant acmeBackend acmeAround {} (acmeJson []) {}).2).isNoOp = false := by
  refine diff_after_apply acmeBackend acmeAround acmeAround {} (acmeJson []) {} rfl (by decide +kernel) ?_
  intro tenant found
  cases found
  simp [member?, lookMember]

theorem acme_diff_not_empty :
    ¬ ∀ (backend : Backend) (env env' : Surroundings) (query : ProvisionQuery) (raw : JsonValue) (m : TenantManifest),
      checkManifest backend query raw = .ok m → inlineSecrets m = [] →
      (provisionTenant backend env query raw {}).1.applied = true →
      (diffTenant backend env' raw (provisionTenant backend env query raw {}).2).isNoOp = true := by
  intro claim
  have empty := claim acmeBackend acmeAround acmeAround {} (acmeJson []) _ (ok_of_isSome (by decide +kernel))
    (List.isEmpty_iff.mp (by decide +kernel)) (by decide +kernel)
  revert empty
  decide +kernel

end Aeterna.Tenancy
