import Aeterna.Tenancy.Acceptance
import Aeterna.Tenancy.Standing

namespace Aeterna.Tenancy
open Lib (JsonValue Eff)
open Lib.Eff

section
variable {backend : Backend} {env : Surroundings} {query : ProvisionQuery} {raw : JsonValue} {m : TenantManifest}
  {id : Uuid} {s next : Session}

def TenantSpace.Has (space : TenantSpace) (id : Uuid) : Prop := ∃ row, space.tenant = some row ∧ row.id = id

theorem updateRow_has {f : TenantRow → TenantRow} (same : ∀ row, (f row).id = row.id) :
    Keeps (fun s : Session => s.space.Has id) (updateRow env f) := by
  refine storeCall_keeps (I := fun space => space.Has id) (fun space a next holds done => ?_)
  obtain ⟨row, present, known⟩ := holds
  cases done
  exact ⟨f row, by simp [present], by rw [same, known]⟩

theorem getTenant_has : Keeps (fun s : Session => s.space.Has id) (getTenant env) :=
  (getTenant_fixes (V := TenantSpace.tenant)).keeps (fun tenant => ∃ row, tenant = some row ∧ row.id = id)

variable {slug hash : String} {found : Option TenantRow} {row : TenantRow} {space : TenantSpace}
variable {response : ProvisionResponse} {prior : Option (Option String × Int)} {steps : List ProvisionStep}

theorem ensureTenantWithSource_has {source : RecordSource} :
    Keeps (fun s : Session => s.space.Has id) (ensureTenantWithSource env slug source) := by
  refine .bind getTenant_has (fun found => ?_)
  cases found with
  | some record => exact .pure record
  | none =>
    refine storeCall_keeps (I := fun space => space.Has id) (fun space a next holds done => ?_)
    obtain ⟨row, present, -⟩ := holds
    simp [present] at done

theorem updateTenant_has {name : String} {environment : Option String} :
    Keeps (fun s : Session => s.space.Has id) (updateTenant env name environment) := by
  refine .bind (updateRow_has (fun _ => rfl)) (fun updated => ?_)
  cases updated with
  | some row => exact .pure _
  | none => exact getTenant_has

theorem attachAccount_has {account : AccountRef} : Keeps (fun s : Session => s.space.Has id)
    (attachAccount env account) := by
  unfold attachAccount
  split
  · exact updateRow_has (fun _ => rfl)
  · refine storeCall_keeps (I := fun space => space.Has id) (fun space a next holds done => ?_)
    cases done
    exact holds

theorem ensureTenantStep_has : Keeps (fun s : Session => s.space.Has id) (ensureTenantStep env m) := by
  refine .bind (.mapError ensureTenantWithSource_has) (fun record => .bind ?_ (fun account => ?_))
  · cases m.tenant.accountRef with
    | none => exact .pure none
    | some accountRef =>
      refine .bind (.mapError (storeCall_keeps (I := fun space => space.Has id) (fun space a next holds done => ?_)))
        (fun found => ?_)
      · cases done
        exact holds
      · cases found with
        | some account => exact .pure _
        | none => exact .fail _
  · refine .bind (.mapError updateTenant_has) (fun updated => ?_)
    cases account with
    | none => exact .pure _
    | some account => exact .bind (.mapError attachAccount_has) (fun _ => .pure _)

theorem getTenant_ok (done : getTenant env s = (.ok found, next)) :
    found = s.space.tenant ∧ next.space = s.space := by
  obtain ⟨space, read, reached⟩ := storeCall_ok done
  cases read
  exact ⟨rfl, reached⟩

theorem updateRow_ok {f : TenantRow → TenantRow} (done : updateRow env f s = (.ok found, next)) :
    found = next.space.tenant := by
  obtain ⟨space, read, reached⟩ := storeCall_ok done
  cases read
  rw [reached]

theorem ensureTenantWithSource_ok {source : RecordSource}
    (done : ensureTenantWithSource env slug source s = (.ok row, next)) : next.space.tenant = some row := by
  obtain ⟨found, after, got, done⟩ := bind_ok done
  obtain ⟨rfl, same⟩ := getTenant_ok got
  cases present : s.space.tenant with
  | some record =>
    rw [present] at done
    cases done
    rw [same, present]
  | none =>
    rw [present] at done
    obtain ⟨space, created, reached⟩ := storeCall_ok done
    rw [same, present] at created
    cases created
    rw [reached]

theorem updateTenant_ok {name : String} {environment : Option String}
    (done : updateTenant env name environment s = (.ok found, next)) : found = next.space.tenant := by
  obtain ⟨updated, after, ran, done⟩ := bind_ok done
  cases updated with
  | some row =>
    cases done
    exact updateRow_ok ran
  | none =>
    obtain ⟨rfl, same⟩ := getTenant_ok done
    rw [same]

theorem attachAccount_ok {account : AccountRef} (done : attachAccount env account s = (.ok found, next)) :
    found = none ∨ found = next.space.tenant := by
  unfold attachAccount at done
  split at done
  · exact .inr (updateRow_ok done)
  · obtain ⟨space, read, -⟩ := storeCall_ok done
    cases read
    exact .inl rfl

theorem TenantSpace.Has.getD (has : space.Has row.id) (read : found = none ∨ found = space.tenant) :
    (found.getD row).id = row.id := by
  obtain ⟨present, there, same⟩ := has
  rcases read with rfl | rfl
  · rfl
  · rw [there]
    exact same

theorem ensureTenantStep_record (done : ensureTenantStep env m s = (.ok row, next)) :
    ∃ record after, ensureTenantWithSource env m.tenant.slug .admin s = (.ok record, after) ∧ row.id = record.id ∧
      next.space.Has record.id := by
  obtain ⟨record, s₁, ensured, done⟩ := bind_ok done
  refine ⟨record, s₁, mapError_ok ensured, ?_⟩
  have there : s₁.space.Has record.id := ⟨record, ensureTenantWithSource_ok (mapError_ok ensured), rfl⟩
  obtain ⟨account, s₂, looked, done⟩ := bind_ok done
  have looked : s₂.space.Has record.id := by
    cases declared : m.tenant.accountRef with
    | none =>
      rw [declared] at looked
      cases looked
      exact there
    | some accountRef =>
      rw [declared] at looked
      obtain ⟨found, after, ran, answered⟩ := bind_ok looked
      obtain ⟨space, read, reached⟩ := storeCall_ok (mapError_ok ran)
      cases read
      cases known : env.account accountRef with
      | none =>
        rw [known] at answered
        cases answered
      | some account =>
        rw [known] at answered
        cases answered
        rwa [reached]
  obtain ⟨updated, s₃, ran, done⟩ := bind_ok done
  have updatedHas : s₃.space.Has record.id := updateTenant_has.after looked (mapError_ok ran)
  have sameUpdated : (updated.getD record).id = record.id :=
    updatedHas.getD (.inr (updateTenant_ok (mapError_ok ran)))
  cases account with
  | none =>
    cases done
    exact ⟨sameUpdated, updatedHas⟩
  | some account =>
    obtain ⟨attached, s₄, ran, done⟩ := bind_ok done
    have attachedHas : s₄.space.Has record.id := attachAccount_has.after updatedHas (mapError_ok ran)
    cases done
    refine ⟨?_, attachedHas⟩
    rw [← sameUpdated] at attachedHas ⊢
    exact attachedHas.getD (attachAccount_ok (mapError_ok ran))

theorem ensureTenantStep_ok (done : ensureTenantStep env m s = (.ok row, next)) : next.space.Has row.id := by
  obtain ⟨record, after, -, same, has⟩ := ensureTenantStep_record done
  rwa [same]

def ProvisionResponse.isFinished : ProvisionResponse → Bool
  | finished .. => true
  | _ => false

theorem checkManifest_unfinished (refused : checkManifest backend query raw = .error response) :
    response.isFinished = false ∧ response.isUnchanged = false := by
  unfold checkManifest at refused
  split at refused
  · cases refused
    exact ⟨rfl, rfl⟩
  · split at refused
    · cases refused
      exact ⟨rfl, rfl⟩
    · split at refused
      · cases refused
        exact ⟨rfl, rfl⟩
      · cases refused

theorem readPriorState_unfinished :
    FailsWith (fun response => response.isFinished = false ∧ response.isUnchanged = false)
      (readPriorState env slug) := by
  refine .bind (fun c e failed => by cases failed) (fun outcome => ?_)
  split
  · exact .pure _
  · exact .pure _
  · exact .fail ⟨rfl, rfl⟩

theorem readPriorState_fixes : Fixes (fun s : Session => s.space) (readPriorState env slug) := by
  refine .bind (.outcome (storeCall_fixes (V := fun space => space) (fun space a next done => ?_)))
    (fun outcome => ?_)
  · cases present : space.tenant with
    | none => simp [present] at done
    | some row =>
      simp only [present, Except.ok.injEq, Prod.mk.injEq] at done
      exact done.2.symm
  · split
    · exact .pure _
    · exact .pure _
    · exact .fail _

theorem readPriorState_ok (done : readPriorState env slug s = (.ok prior, next)) :
    prior = s.space.tenant.map (fun row => (row.lastAppliedManifestHash, row.manifestGeneration)) ∧
      next = ⟨s.space, s.calls + 1⟩ := by
  unfold readPriorState at done
  rw [bind_run, outcome_run, getManifestState, storeCall] at done
  cases faulty : env.fault s.calls with
  | some message =>
    rw [faulty] at done
    cases done
  | none =>
    cases present : s.space.tenant with
    | none =>
      simp only [faulty, present] at done
      cases done
      exact ⟨rfl, rfl⟩
    | some row =>
      simp only [faulty, present] at done
      cases done
      exact ⟨rfl, rfl⟩

theorem ensureTenantStep_unfinished :
    FailsWith (fun response => response.isFinished = false ∧ response.isUnchanged = false)
      (ensureTenantStep env m) := by
  refine .bind (.mapError (fun _ => ⟨rfl, rfl⟩) _) (fun record => .bind ?_ (fun account => ?_))
  · cases m.tenant.accountRef with
    | none => exact .pure none
    | some accountRef =>
      refine .bind (.mapError (fun _ => ⟨rfl, rfl⟩) _) (fun found => ?_)
      cases found with
      | some account => exact .pure _
      | none => exact .fail ⟨rfl, rfl⟩
  · refine .bind (.mapError (fun _ => ⟨rfl, rfl⟩) _) (fun updated => ?_)
    cases account with
    | none => exact .pure _
    | some account => exact .bind (.mapError (fun _ => ⟨rfl, rfl⟩) _) (fun _ => .pure _)

theorem gate_refused (refused : gate query m hash prior = .error response) :
    response.isFinished = false ∧ (response.isUnchanged = true → prior.bind (·.1) = some hash) := by
  unfold gate at refused
  dsimp only at refused
  split at refused
  · rename_i same
    cases refused
    exact ⟨rfl, fun _ => same⟩
  · cases next : nextGeneration m ((prior.map (·.2)).getD 0) with
    | error conflict =>
      rw [next] at refused
      cases refused
      unfold nextGeneration at next
      split at next
      · split at next
        · cases next
          exact ⟨rfl, fun unchanged => by cases unchanged⟩
        · cases next
      · cases next
    | ok generation =>
      rw [next] at refused
      dsimp only [bind, Except.bind] at refused
      split at refused
      · cases refused
        exact ⟨rfl, fun unchanged => by cases unchanged⟩
      · cases refused

structure Idle (space next : TenantSpace) : Prop where
  parts : next.parts = space.parts
  manifestState : next.manifestState = space.manifestState
  has : ∀ id, space.Has id → next.Has id

theorem Idle.refl (space : TenantSpace) : Idle space space := ⟨rfl, rfl, fun _ has => has⟩

theorem runPipeline_error (failed : runPipeline backend env m s = (.error response, next)) :
    (response.isFinished = false ∧ response.isUnchanged = false) ∧ Idle s.space next.space := by
  rcases bind_error failed with ran | ⟨row, after, -, failed⟩
  · refine ⟨ensureTenantStep_unfinished s response (congrArg Prod.fst ran), ?_⟩
    constructor
    · exact (ensureTenantStep_fixes parts_asideTenant).after ran
    · exact (ensureTenantStep_fixes manifestState_asideTenant).after ran
    · exact fun id has => ensureTenantStep_has.after has ran
  · -- the other steps return their errors
    obtain ⟨steps, last, done⟩ := steady_run (applySteps backend env m row.id) after
    rw [bind_run, mapError_run, done] at failed
    cases failed

theorem TenantSpace.Has.unique {other : Uuid} (has : space.Has id) (has' : space.Has other) : id = other := by
  obtain ⟨row, present, rfl⟩ := has
  obtain ⟨row', present', rfl⟩ := has'
  rw [Option.some.inj (present.symm.trans present')]

theorem runPipeline_ok (done : runPipeline backend env m s = (.ok (id, steps), next)) :
    ∃ row after rest, ensureTenantStep env m s = (.ok row, after) ∧ row.id = id ∧
      applySteps backend env m id after = (.ok rest, next) ∧ steps = tenantStep m row :: rest := by
  obtain ⟨row, after, ensured, done⟩ := bind_ok done
  obtain ⟨rest, last, applied, done⟩ := bind_ok done
  cases done
  exact ⟨row, after, rest, ensured, rfl, mapError_ok applied, rfl⟩

theorem runPipeline_has (done : runPipeline backend env m s = (.ok (id, steps), next)) :
    next.space.Has id ∧ ∀ other, s.space.Has other → other = id := by
  obtain ⟨row, after, rest, ensured, rfl, applied, -⟩ := runPipeline_ok done
  have made : after.space.Has row.id := ensureTenantStep_ok ensured
  have tenant : next.space.tenant = after.space.tenant := applySteps_fixes_tenant.after applied
  constructor
  · unfold TenantSpace.Has
    rwa [tenant]
  · exact fun other has => (ensureTenantStep_has.after has ensured).unique made

theorem provision_error (failed : provision backend env query raw { space } = (.error response, next)) :
    response.isFinished = false ∧ Idle space next.space ∧ (response.isUnchanged = true → next.space = space ∧
      ∃ m, checkManifest backend query raw = .ok m ∧
        space.manifestState.1 = some (hashManifestValue backend.digest raw)) := by
  rcases bind_error failed with checked | ⟨m, start, checked, failed⟩
  · obtain rfl : { space } = next := congrArg Prod.snd checked
    obtain ⟨unfinished, other⟩ := checkManifest_unfinished (congrArg Prod.fst checked)
    exact ⟨unfinished, .refl space, fun unchanged => absurd unchanged (by simp [other])⟩
  obtain rfl : { space } = start := congrArg Prod.snd checked
  rcases bind_error failed with read | ⟨prior, after, read, failed⟩
  · have same : next.space = space := readPriorState_fixes.after read
    obtain ⟨unfinished, other⟩ := readPriorState_unfinished { space } response (congrArg Prod.fst read)
    rw [same]
    exact ⟨unfinished, .refl space, fun unchanged => absurd unchanged (by simp [other])⟩
  obtain ⟨rfl, rfl⟩ := readPriorState_ok read
  rcases bind_error failed with gated | ⟨generation, passed, gated, failed⟩
  · obtain rfl := congrArg Prod.snd gated
    obtain ⟨unfinished, unchanged⟩ := gate_refused (congrArg Prod.fst gated)
    refine ⟨unfinished, .refl space, fun held => ⟨rfl, m, congrArg Prod.fst checked, ?_⟩⟩
    simpa [TenantSpace.manifestState, Option.bind_map] using unchanged held
  obtain rfl := congrArg Prod.snd gated
  rcases bind_error failed with piped | ⟨⟨id, steps⟩, piped, -, failed⟩
  · obtain ⟨⟨unfinished, other⟩, idle⟩ := runPipeline_error piped
    exact ⟨unfinished, idle, fun unchanged => absurd unchanged (by simp [other])⟩
  · obtain ⟨steps', last, persisted⟩ :=
      steady_run (persistStep env m (hashManifestValue backend.digest raw) generation steps) piped
    dsimp only at failed
    rw [bind_run, mapError_run, persisted] at failed
    cases failed

theorem provision_ok (done : provision backend env query raw { space } = (.ok response, next)) :
    ∃ m id steps generation piped steps', checkManifest backend query raw = .ok m ∧
      gate query m (hashManifestValue backend.digest raw)
        (space.tenant.map (fun row => (row.lastAppliedManifestHash, row.manifestGeneration))) = .ok generation ∧
      runPipeline backend env m ⟨space, 1⟩ = (.ok (id, steps), piped) ∧
      persistStep env m (hashManifestValue backend.digest raw) generation steps piped = (.ok steps', next) ∧
      response = .finished id m.tenant.slug (hashManifestValue backend.digest raw) generation steps' := by
  obtain ⟨m, start, checked, done⟩ := bind_ok done
  obtain rfl : { space } = start := congrArg Prod.snd checked
  obtain ⟨prior, after, read, done⟩ := bind_ok done
  obtain ⟨rfl, rfl⟩ := readPriorState_ok read
  obtain ⟨generation, passed, gated, done⟩ := bind_ok done
  obtain rfl := congrArg Prod.snd gated
  obtain ⟨⟨id, steps⟩, piped, ran, done⟩ := bind_ok done
  obtain ⟨steps', last, persisted, done⟩ := bind_ok done
  cases done
  exact ⟨m, id, steps, generation, piped, steps', congrArg Prod.fst checked, congrArg Prod.fst gated, ran,
    mapError_ok persisted, rfl⟩

theorem provisionTenant_cases {next : TenantSpace} {answer : ProvisionResponse}
    (ran : provisionTenant backend env query raw space = (answer, next)) :
    (answer.isFinished = false ∧ Idle space next ∧ (answer.isUnchanged = true → next = space ∧
      ∃ m, checkManifest backend query raw = .ok m ∧
        space.manifestState.1 = some (hashManifestValue backend.digest raw))) ∨
    ∃ m id steps generation piped steps' last, checkManifest backend query raw = .ok m ∧
      gate query m (hashManifestValue backend.digest raw)
        (space.tenant.map (fun row => (row.lastAppliedManifestHash, row.manifestGeneration))) = .ok generation ∧
      runPipeline backend env m ⟨space, 1⟩ = (.ok (id, steps), piped) ∧
      persistStep env m (hashManifestValue backend.digest raw) generation steps piped = (.ok steps', last) ∧
      answer = .finished id m.tenant.slug (hashManifestValue backend.digest raw) generation steps' ∧
        next = last.space := by
  unfold provisionTenant at ran
  generalize ended : provision backend env query raw { space } = outcome at ran
  obtain ⟨result, last⟩ := outcome
  cases result with
  | error response =>
    cases ran
    exact .inl (provision_error ended)
  | ok response =>
    cases ran
    obtain ⟨m, id, steps, generation, piped, steps', checked, gated, ran, persisted, answered⟩ := provision_ok ended
    exact .inr ⟨m, id, steps, generation, piped, steps', last, checked, gated, ran, persisted, answered, rfl⟩

def TenantRow.stamp (row : TenantRow) (hash : String) (generation : Int) (now : DateTime) : TenantRow :=
  { row with lastAppliedManifestHash := some hash, manifestGeneration := generation, updatedAt := now }

theorem setManifestState_ok {generation : Int} (done : setManifestState env slug hash generation s = (.ok (), next)) :
    ∃ row, s.space.tenant = some row ∧
      next.space = { s.space with tenant := some (row.stamp hash generation env.now) } := by
  obtain ⟨space, written, reached⟩ := storeCall_ok done
  cases present : s.space.tenant with
  | none =>
    rw [present] at written
    cases written
  | some row =>
    rw [present] at written
    dsimp only at written
    split at written
    · cases written
    · split at written
      · cases written
      · cases written
        exact ⟨row, rfl, reached⟩

theorem persistStep_run {generation : Int} {steps' : List ProvisionStep}
    (done : persistStep env m hash generation steps s = (.ok steps', next)) :
    (steps'.all (·.ok) = true ∧ steps.all (·.ok) = true ∧ ∃ row, s.space.tenant = some row ∧
      next.space = { s.space with tenant := some (row.stamp hash generation env.now) }) ∨
    (steps'.all (·.ok) = false ∧ next.space = s.space) := by
  unfold persistStep at done
  split at done
  · rename_i all
    rw [bind_run, outcome_run] at done
    generalize written : setManifestState env m.tenant.slug hash generation s = outcome at done
    obtain ⟨result, after⟩ := outcome
    cases result with
    | ok u =>
      cases done
      refine .inl ⟨?_, all, setManifestState_ok written⟩
      rw [List.all_append, all]
      rfl
    | error e =>
      cases done
      refine .inr ⟨?_, storeCall_error written⟩
      rw [List.all_append, all]
      rfl
  · rename_i some
    cases done
    exact .inr ⟨by simpa using some, rfl⟩

end

structure Call where
  env : Surroundings
  query : ProvisionQuery := {}
  raw : JsonValue

def Call.run (backend : Backend) (call : Call) (space : TenantSpace) : ProvisionResponse × TenantSpace :=
  provisionTenant backend call.env call.query call.raw space

theorem ok_of_isSome {ε α : Type} {x : Except ε α} (found : x.toOption.isSome) : x = .ok (x.toOption.get found) := by
  cases x with
  | ok a => rfl
  | error e => cases found

def keySection (value : String) : List (String × JsonValue) :=
  [("secrets", .array [.object [("logicalName", .string "api_key"), ("secretValue", .string value)]])]

def acmeDigest (value : JsonValue) : String :=
  match value.get "secrets" with
  | .array _ => "46abb5f51f676cff92737f4895cda71c8bc5b5738d70adccbee49a4ec51455d5"
  | _ => "c262fb0d40d2fafbef7d4f4bf277b74760ca87ead31efcbf1549650551c5a483"

def acmeBackend : Backend where
  uuids := canonicalUuids
  lowercasing := asciiCasing
  lower text := String.ofList (asciiLower text)
  allowInlineSecret := true
  digest := acmeDigest
  collates a b := a ≤ b

def acmeAround : Surroundings where
  now := ⟨1, "1970-01-01T00:00:01+00:00"⟩
  newTenantId := acmeId
  newBindingId := acmeId
  newSecretId _ := acmeId
  newOrganizationId _ := acmeId
  newTeamId _ _ := acmeId
  newUnitId _ := acmeId

def acmeCall (sections : List (String × JsonValue)) : Call where
  env := acmeAround
  query := { allowInline := true }
  raw := acmeJson sections

end Aeterna.Tenancy
