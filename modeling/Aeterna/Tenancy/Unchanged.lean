import Aeterna.Tenancy.Outcomes
import Aeterna.Tenancy.Reapply

namespace Aeterna.Tenancy
open Lib (JsonValue Eff)
open Lib.Eff ProvisionResponse

structure History where
  space : TenantSpace
  applied : Option Call := none
  disturbed : Bool := false

namespace History

def next (backend : Backend) (h : History) (call : Call) : History :=
  match call.run backend h.space with
  | (answer, space) =>
    if answer.applied then { space, applied := some call }
    else { space, applied := h.applied, disturbed := h.disturbed || answer.isPartial }

def run (backend : Backend) (start : TenantSpace) (calls : List Call) : History :=
  calls.foldl (next backend) { space := start }

/-- What the stored fingerprint says about the tenant. -/
structure Sound (backend : Backend) (calls : List Call) (h : History) : Prop where
  unapplied : h.applied = none → h.space.manifestState.1 = none
  applied : ∀ call, h.applied = some call → call ∈ calls ∧
    h.space.manifestState.1 = some (hashManifestValue backend.digest call.raw) ∧
    ∃ m id, checkManifest backend call.query call.raw = .ok m ∧ h.space.Has id ∧
      (h.disturbed = false → Standing backend m id h.space.parts)

end History

section
variable {backend : Backend} {env : Surroundings} {m : TenantManifest} {id : Uuid} {space : TenantSpace}
  {calls : List Call}
  {h : History} {call : Call}

theorem runPipeline_again {n : Nat} (standing : Standing backend m id space.parts) (has : space.Has id)
    (calm : Calm env space.parts.units) :
    (runPipeline backend env m ⟨space, n⟩).2.space.parts.undated = space.parts.undated := by
  have parts : Fixes (fun s : Session => s.space.parts) (ensureTenantStep env m) :=
    ensureTenantStep_fixes parts_asideTenant
  unfold runPipeline
  rw [bind_run]
  generalize ensured : ensureTenantStep env m ⟨space, n⟩ = outcome
  obtain ⟨result, after⟩ := outcome
  have same : after.space.parts = space.parts := parts.after ensured
  cases result with
  | error e => rw [same]
  | ok row =>
    obtain rfl : id = row.id := (ensureTenantStep_has.after has ensured).unique (ensureTenantStep_ok ensured)
    obtain ⟨steps, last, applied⟩ := steady_run (applySteps backend env m row.id) after
    have again := applySteps_again (s := after) (same ▸ standing) (same ▸ calm)
    rw [applied, same] at again
    dsimp only
    rw [bind_run, mapError_run, applied]
    exact again

theorem Idle.sound {next : TenantSpace} (idle : Idle h.space next) (sound : h.Sound backend calls) :
    ({ space := next, applied := h.applied, disturbed := h.disturbed } : History).Sound backend calls := by
  constructor
  · intro none
    rw [idle.manifestState]
    exact sound.unapplied none
  · intro call applied
    obtain ⟨member, stored, m, id, checked, has, standing⟩ := sound.applied call applied
    refine ⟨member, ?_, m, id, checked, idle.has id has, ?_⟩
    · rw [idle.manifestState]
      exact stored
    · rw [idle.parts]
      exact standing

namespace History

theorem Sound.mono {more : List Call} (sound : h.Sound backend calls) (within : calls ⊆ more) :
    h.Sound backend more :=
  ⟨sound.unapplied, fun call applied => ⟨within (sound.applied call applied).1, (sound.applied call applied).2⟩⟩

theorem sound_of_applied {space : TenantSpace} {piped last : Session} {hash : String} {generation : Int}
    {steps : List ProvisionStep} {row : TenantRow} (checked : checkManifest backend call.query call.raw = .ok m)
    (ran : runPipeline backend call.env m ⟨space, 1⟩ = (.ok (id, steps), piped)) (passed : steps.all (·.ok) = true)
    (hashed : hash = hashManifestValue backend.digest call.raw) (present : piped.space.tenant = some row)
    (stamped : last.space = { piped.space with tenant := some (row.stamp hash generation call.env.now) }) :
    ({ space := last.space, applied := some call } : History).Sound backend [call] := by
  obtain ⟨_, after, rest, -, -, applied, rfl⟩ := runPipeline_ok ran
  obtain ⟨_, present', same⟩ := (runPipeline_has ran).1
  rw [present] at present'
  cases present'
  constructor
  · intro none
    cases none
  · intro other chosen
    obtain rfl := Option.some.inj chosen
    refine ⟨List.mem_singleton_self _, ?_, m, id, checked, ?_, fun _ => ?_⟩
    · rw [stamped, ← hashed]
      rfl
    · rw [stamped]
      exact ⟨_, rfl, same⟩
    · rw [stamped]
      exact standing_of_applySteps applied (by simpa [tenantStep, ProvisionStep.passed] using passed)

theorem Sound.next (sound : h.Sound backend calls) (call : Call) :
    (h.next backend call).Sound backend (calls ++ [call]) := by
  unfold History.next
  generalize ran : call.run backend h.space = outcome
  obtain ⟨answer, space⟩ := outcome
  dsimp only
  rcases provisionTenant_cases ran with ⟨unfinished, idle, -⟩ |
    ⟨m, id, steps, generation, piped, steps', last, checked, -, piping, persisted, rfl, rfl⟩
  · have quiet : answer.applied = false ∧ answer.isPartial = false := by
      cases answer <;> first | exact ⟨rfl, rfl⟩ | cases unfinished
    rw [if_neg (by simp [quiet.1]), quiet.2, Bool.or_false]
    exact (idle.sound sound).mono (List.subset_append_left _ _)
  · rcases persistStep_run persisted with ⟨all, passed, row, present, stamped⟩ | ⟨some, same⟩
    · rw [if_pos (show ProvisionResponse.applied (.finished ..) = true from all)]
      exact (sound_of_applied checked piping passed rfl present stamped).mono (List.subset_append_right _ _)
    · have unapplied : ¬ (finished id m.tenant.slug
          (hashManifestValue backend.digest call.raw) generation
          steps').applied = true := by simp [ProvisionResponse.applied, some]
      have partly : (finished id m.tenant.slug
          (hashManifestValue backend.digest call.raw) generation
          steps').isPartial = true := by simp [isPartial, some]
      have state : last.space.manifestState = h.space.manifestState := by
        rw [same]
        exact runPipeline_fixes_manifestState.after piping
      rw [if_neg unapplied, partly, Bool.or_true]
      constructor
      · intro none
        rw [state]
        exact sound.unapplied none
      · intro other applied
        obtain ⟨member, stored, m', id', checked', has, -⟩ := sound.applied other applied
        refine ⟨List.mem_append_left _ member, ?_, m', id', checked', ?_, fun calm => by cases calm⟩
        · rw [state]
          exact stored
        · rw [same, (runPipeline_has piping).2 id' has]
          exact (runPipeline_has piping).1

theorem Sound.run {start : TenantSpace} (unapplied : start.manifestState.1 = none) (calls : List Call) :
    (History.run backend start calls).Sound backend calls := by
  induction calls using List.reverseRecOn with
  | nil => exact ⟨fun _ => unapplied, fun _ applied => by cases applied⟩
  | append_singleton before call ih =>
    have last : History.run backend start (before ++ [call]) =
        (History.run backend start before).next backend call := by
      simp [History.run, List.foldl_append]
    rw [last]
    exact ih.next call

end History

/-- An unchanged manifest is, but for plaintext, the one last applied in full. Unless a later request did only
some of its steps, a full run of that manifest would leave the parts of the tenant as they are. -/
theorem unchanged_stands (backend : Backend) (start : TenantSpace) (calls : List Call) (call : Call)
    (unapplied : start.manifestState.1 = none)
    (collisionFree : ∀ a ∈ calls, backend.digest (canonicalForm a.raw) = backend.digest (canonicalForm call.raw) →
      canonicalForm a.raw = canonicalForm call.raw)
    (unchanged : (call.run backend (History.run backend start calls).space).1.isUnchanged = true) :
    ∃ applied m, (History.run backend start calls).applied = some applied ∧
      checkManifest backend applied.query applied.raw = .ok m ∧ canonicalForm applied.raw = canonicalForm call.raw ∧
      ((History.run backend start calls).disturbed = false →
        let after := (call.run backend (History.run backend start calls).space).2
        ∀ env n, Calm env after.parts.units →
          (runPipeline backend env m ⟨after, n⟩).2.space.parts.undated = after.parts.undated) := by
  have sound : (History.run backend start calls).Sound backend calls := .run unapplied calls
  generalize History.run backend start calls = h at sound unchanged
  generalize ran : call.run backend h.space = outcome at unchanged
  obtain ⟨answer, space⟩ := outcome
  rcases provisionTenant_cases ran with ⟨-, -, held⟩ | ⟨_, _, _, _, _, _, _, _, _, _, _, rfl, _⟩
  · obtain ⟨rfl, _, -, stored⟩ := held unchanged
    cases last : h.applied with
    | none =>
      rw [sound.unapplied last] at stored
      cases stored
    | some applied =>
      obtain ⟨member, fingerprint, m, id, checked, has, standing⟩ := sound.applied applied last
      have digests : backend.digest (canonicalForm applied.raw) = backend.digest (canonicalForm call.raw) := by
        have same := Option.some.inj (fingerprint.symm.trans stored)
        simpa [hashManifestValue] using same
      refine ⟨applied, m, rfl, checked, collisionFree applied member digests, fun calm => ?_⟩
      exact fun env n around => runPipeline_again (standing calm) has around
  · cases unchanged

end

def keyRotated : TenantSpace :=
  ((acmeCall (keySection "new")).run acmeBackend (History.run acmeBackend {} [acmeCall (keySection "old")]).space).2

theorem keyRotated_calm : Calm acmeAround keyRotated.parts.units := by
  have none : keyRotated.parts.units.isEmpty = true := by decide +kernel
  rw [List.isEmpty_iff] at none
  exact ⟨fun _ => rfl, fun _ => rfl, fun _ unit member => by simp [none] at member⟩

theorem keySections_collisionFree : ∀ a ∈ [acmeCall (keySection "old")],
    acmeBackend.digest (canonicalForm a.raw) = acmeBackend.digest (canonicalForm (acmeCall (keySection "new")).raw) →
      canonicalForm a.raw = canonicalForm (acmeCall (keySection "new")).raw := by
  intro a member _
  obtain rfl := List.mem_singleton.mp member
  rfl

theorem old_key_stands :
    ∃ applied m, (History.run acmeBackend {} [acmeCall (keySection "old")]).applied = some applied ∧
      checkManifest acmeBackend applied.query applied.raw = .ok m ∧
      canonicalForm applied.raw = canonicalForm (acmeCall (keySection "new")).raw ∧
      (runPipeline acmeBackend acmeAround m ⟨keyRotated, 0⟩).2.space.parts.undated = keyRotated.parts.undated := by
  obtain ⟨applied, m, last, checked, same, stands⟩ := unchanged_stands acmeBackend {} [acmeCall (keySection "old")]
    (acmeCall (keySection "new")) rfl keySections_collisionFree (by decide +kernel)
  have around := keyRotated_calm
  unfold keyRotated at around ⊢
  exact ⟨applied, m, last, checked, same, stands (by decide +kernel) acmeAround 0 around⟩

theorem new_key_ignored :
    ¬ ∀ (backend : Backend) (start : TenantSpace) (calls : List Call) (call : Call), start.manifestState.1 = none →
      (∀ a ∈ calls, backend.digest (canonicalForm a.raw) = backend.digest (canonicalForm call.raw) →
        canonicalForm a.raw = canonicalForm call.raw) →
      (call.run backend (History.run backend start calls).space).1.isUnchanged = true →
      ∀ m, checkManifest backend call.query call.raw = .ok m →
        let after := (call.run backend (History.run backend start calls).space).2
        ∀ env n, Calm env after.parts.units →
          (runPipeline backend env m ⟨after, n⟩).2.space.parts.undated = after.parts.undated := by
  intro claim
  have around := keyRotated_calm
  unfold keyRotated at around
  have same := claim acmeBackend {} [acmeCall (keySection "old")] (acmeCall (keySection "new")) rfl
    keySections_collisionFree (by decide +kernel) _ (ok_of_isSome (by decide +kernel)) acmeAround 0 around
  have keys := congrArg (fun parts : TenantParts => parts.secrets["api_key"]?.map (·.value)) same
  revert keys
  decide +kernel

end Aeterna.Tenancy
