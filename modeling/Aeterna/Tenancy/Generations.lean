import Aeterna.Lib.Versions
import Aeterna.Tenancy.Outcomes

namespace Aeterna.Tenancy
open Lib (JsonValue Eff Versioned Move)
open Lib.Eff

def snapshot (backend : Backend) (call : Call) : Eff Session ProvisionResponse (TenantManifest × Int) := do
  let m ← Eff.ofExcept (checkManifest backend call.query call.raw)
  let prior ← readPriorState call.env m.tenant.slug
  let generation ← Eff.ofExcept (gate call.query m (hashManifestValue backend.digest call.raw) prior)
  pure (m, generation)

/-- How far a request has come, with what it holds and the number of calls it has made. -/
inductive Phase where
  | waiting
  | admitted (m : TenantManifest) (generation : Int) (calls : Nat)
  | piped (m : TenantManifest) (generation : Int) (tenantId : Uuid) (steps : List ProvisionStep) (calls : Nat)
  | answered (response : ProvisionResponse)

def Call.advance (backend : Backend) (call : Call) : Phase → TenantSpace → Phase × TenantSpace
  | .waiting, space =>
    match snapshot backend call { space } with
    | (.ok (m, generation), s) => (.admitted m generation s.calls, s.space)
    | (.error response, s) => (.answered response, s.space)
  | .admitted m generation calls, space =>
    match runPipeline backend call.env m ⟨space, calls⟩ with
    | (.ok (tenantId, steps), s) => (.piped m generation tenantId steps s.calls, s.space)
    | (.error response, s) => (.answered response, s.space)
  | .piped m generation tenantId steps calls, space =>
    let hash := hashManifestValue backend.digest call.raw
    match persistStep call.env m hash generation steps ⟨space, calls⟩ with
    | (.ok steps, s) => (.answered (.finished tenantId m.tenant.slug hash generation steps), s.space)
    | (.error impossible, _) => impossible.elim
  | .answered response, space => (.answered response, space)

section
variable {backend : Backend} {call : Call} {space : TenantSpace} {ι : Type} [DecidableEq ι]

theorem gate_ok {query : ProvisionQuery} {m : TenantManifest} {hash : String} {prior : Option (Option String × Int)}
    {generation : Int} (allowed : gate query m hash prior = .ok generation) :
    nextGeneration m ((prior.map (·.2)).getD 0) = .ok generation := by
  unfold gate at allowed
  dsimp only at allowed
  split at allowed
  · cases allowed
  · cases chosen : nextGeneration m ((prior.map (·.2)).getD 0) with
    | error conflict =>
      rw [chosen] at allowed
      cases allowed
    | ok next =>
      rw [chosen] at allowed
      dsimp only [bind, Except.bind] at allowed
      split at allowed
      · cases allowed
      · cases allowed
        rfl

theorem snapshot_ok {m : TenantManifest} {generation : Int} {next : Session}
    (done : snapshot backend call { space } = (.ok (m, generation), next)) :
    nextGeneration m space.manifestState.2 = .ok generation := by
  obtain ⟨m', s₁, checked, done⟩ := bind_ok done
  obtain rfl : { space } = s₁ := congrArg Prod.snd checked
  obtain ⟨prior, s₂, read, done⟩ := bind_ok done
  obtain ⟨rfl, rfl⟩ := readPriorState_ok read
  obtain ⟨generation', s₃, gated, done⟩ := bind_ok done
  have allowed := gate_ok (congrArg Prod.fst gated)
  cases done
  rwa [Option.map_map] at allowed

theorem snapshot_fixes : Fixes (fun s : Session => s.space) (snapshot backend call) :=
  .bind (.ofExcept _) (fun _ => .bind readPriorState_fixes (fun _ => .bind (.ofExcept _) (fun _ => .pure _)))

/-- Several requests for one tenant. What is known of the generation is kept beside the tenant. -/
structure World (ι : Type) where
  space : TenantSpace
  phase : ι → Phase := fun _ => .waiting
  record : Versioned ι Int

end

namespace World

def start (ι : Type) (space : TenantSpace) : World ι :=
  { space, record := { version := space.manifestState.2, seen := fun _ => (space.manifestState.2, 0) } }

section
variable {ι : Type} (backend : Backend) (calls : ι → Call)

def applies (w : World ι) (i : ι) : Bool :=
  match w.phase i, ((calls i).advance backend (w.phase i) w.space).1 with
  | .piped .., .answered response => response.applied
  | _, _ => false

def moves (w : World ι) (i : ι) : List (Move ι Int) :=
  match w.phase i with
  | .waiting => [.look i]
  | .piped _ generation _ _ _ => if w.applies backend calls i then [.write i generation] else []
  | _ => []

variable [DecidableEq ι]

def step (w : World ι) (i : ι) : World ι :=
  match (calls i).advance backend (w.phase i) w.space with
  | (phase, space) =>
    { space, phase := Function.update w.phase i phase, record := (w.moves backend calls i).foldl Versioned.next w.record }

def EachStep (P : World ι → ι → Prop) (w : World ι) : List ι → Prop
  | [] => True
  | i :: rest => P w i ∧ EachStep P (w.step backend calls i) rest

/-- The stored hash is that of whoever applied with the stored generation. -/
def Current (w : World ι) : Prop :=
  ∀ write ∈ w.record.writes, write.2 = w.space.manifestState.2 →
    w.space.manifestState.1 = some (hashManifestValue backend.digest (calls write.1).raw)

/-- An apply raises the stored generation, and the stored hash goes with the generation. -/
def Grows (w : World ι) (i : ι) : Prop :=
  (w.applies backend calls i = true →
    w.space.manifestState.2 < (w.step backend calls i).space.manifestState.2) ∧
  (w.step backend calls i).Current backend calls

/-- An apply has a higher generation than all that were made since its snapshot. If it took the generation
after the one of its snapshot, there was one. -/
def Ahead (w : World ι) (i : ι) : Prop :=
  w.applies backend calls i = true → ∀ m generation tenantId steps n,
    w.phase i = .piped m generation tenantId steps n →
    (callerGeneration m = none → (w.record.seen i).1 < i64Max) ∧
    ∀ rival ∈ w.record.rivals i, rival.2 < generation

end

end World

def Phase.chosen : Phase → Option (TenantManifest × Int)
  | .admitted m generation _ | .piped m generation _ _ _ => some (m, generation)
  | .waiting | .answered _ => none

theorem advance_waiting (backend : Backend) (call : Call) (space : TenantSpace) :
    (call.advance backend .waiting space).2 = space ∧
      ∀ m generation, (call.advance backend .waiting space).1.chosen = some (m, generation) →
        nextGeneration m space.manifestState.2 = .ok generation := by
  simp only [Call.advance]
  generalize looked : snapshot backend call { space } = outcome
  obtain ⟨result, after⟩ := outcome
  have same : after.space = space := snapshot_fixes.after looked
  cases result with
  | error response => exact ⟨same, fun m generation impossible => by cases impossible⟩
  | ok found =>
    refine ⟨same, fun m generation chosen => ?_⟩
    cases chosen
    exact snapshot_ok looked

theorem advance_admitted (backend : Backend) (call : Call) (m : TenantManifest) (generation : Int) (n : Nat)
    (space : TenantSpace) :
    (call.advance backend (.admitted m generation n) space).2.manifestState = space.manifestState ∧
      ∀ found, (call.advance backend (.admitted m generation n) space).1.chosen = some found →
        (Phase.admitted m generation n).chosen = some found := by
  simp only [Call.advance]
  generalize piped : runPipeline backend call.env m ⟨space, n⟩ = outcome
  obtain ⟨result, after⟩ := outcome
  have same : after.space.manifestState = space.manifestState := runPipeline_fixes_manifestState.after piped
  cases result with
  | error response => exact ⟨same, fun found impossible => by cases impossible⟩
  | ok found => exact ⟨same, fun found chosen => chosen⟩

theorem advance_piped (backend : Backend) (call : Call) (m : TenantManifest) (generation : Int) (tenantId : Uuid)
    (steps : List ProvisionStep) (n : Nat) (space : TenantSpace) :
    ∃ response, (call.advance backend (.piped m generation tenantId steps n) space).1 = .answered response ∧
      (response.applied = true ∧ (call.advance backend (.piped m generation tenantId steps n) space).2.manifestState =
          (some (hashManifestValue backend.digest call.raw), generation) ∨
        response.applied = false ∧ (call.advance backend
          (.piped m generation tenantId steps n) space).2.manifestState =
          space.manifestState) := by
  obtain ⟨steps', after, persisted⟩ := steady_run
    (persistStep call.env m (hashManifestValue backend.digest call.raw) generation steps) ⟨space, n⟩
  simp only [Call.advance, persisted]
  refine ⟨_, rfl, ?_⟩
  rcases persistStep_run persisted with ⟨all, -, row, -, stamped⟩ | ⟨some, same⟩
  · exact .inl ⟨all, by rw [stamped]; rfl⟩
  · exact .inr ⟨some, by rw [same]⟩

namespace World

section
variable {ι : Type} {backend : Backend} {calls : ι → Call} {w : World ι} {i : ι}

structure Kept (backend : Backend) (calls : ι → Call) (w : World ι) : Prop where
  version : w.record.version = w.space.manifestState.2
  sound : w.record.Sound
  chosen : ∀ j m generation, (w.phase j).chosen = some (m, generation) →
    nextGeneration m (w.record.seen j).1 = .ok generation
  top : ∀ last, w.record.writes.getLast? = some last →
    last.2 = w.record.version ∧ w.space.manifestState.1 = some (hashManifestValue backend.digest (calls last.1).raw)

theorem kept_start (space : TenantSpace) : (start ι space).Kept backend calls := by
  constructor
  · rfl
  · exact Versioned.sound_start _
  · exact fun _ _ _ impossible => by cases impossible
  · exact fun _ impossible => by cases impossible

theorem Kept.current (kept : w.Kept backend calls) : w.Current backend calls := by
  intro write member same
  rw [← kept.version] at same
  exact (kept.top write (kept.sound.newest (fun last ends => (kept.top last ends).1) member same)).2

variable {generation : Int}

theorem nextGeneration_lt_iff {m : TenantManifest} {current : Int}
    (chosen : nextGeneration m current = .ok generation) :
    current < generation ↔ (callerGeneration m = none → current < i64Max) := by
  unfold nextGeneration at chosen
  cases stated : callerGeneration m with
  | some g =>
    rw [stated] at chosen
    dsimp only at chosen
    split at chosen
    · cases chosen
    · rename_i above
      cases chosen
      constructor
      · exact fun _ impossible => by cases impossible
      · exact fun _ => by omega
  | none =>
    rw [stated] at chosen
    cases chosen
    constructor
    · intro raised _
      omega
    · intro room
      have below := room rfl
      omega

theorem Kept.lt_iff (kept : w.Kept backend calls) {m : TenantManifest} {tenantId : Uuid}
    {steps : List ProvisionStep} {n : Nat} (phase : w.phase i = .piped m generation tenantId steps n) :
    w.space.manifestState.2 < generation ↔ (callerGeneration m = none → (w.record.seen i).1 < i64Max) ∧
      ∀ rival ∈ w.record.rivals i, rival.2 < generation := by
  have chosen := kept.chosen i m generation (by rw [phase]; rfl)
  rw [← kept.version, kept.sound.lt_iff (i := i), Versioned.Ahead, nextGeneration_lt_iff chosen]

variable [DecidableEq ι]

theorem step_phase_ne {j : ι} (other : j ≠ i) : (w.step backend calls i).phase j = w.phase j :=
  Function.update_of_ne other _ _

structure Looks (backend : Backend) (calls : ι → Call) (w : World ι) (i : ι) : Prop where
  applies : w.applies backend calls i = false
  record : (w.step backend calls i).record = w.record.next (.look i)
  space : (w.step backend calls i).space = w.space
  chosen : ∀ m generation, ((w.step backend calls i).phase i).chosen = some (m, generation) →
    nextGeneration m w.space.manifestState.2 = .ok generation

structure Stamps (backend : Backend) (calls : ι → Call) (w : World ι) (i : ι) (generation : Int) : Prop where
  phase : ∃ m tenantId steps n, w.phase i = .piped m generation tenantId steps n
  applies : w.applies backend calls i = true
  record : (w.step backend calls i).record = w.record.next (.write i generation)
  state : (w.step backend calls i).space.manifestState =
    (some (hashManifestValue backend.digest (calls i).raw), generation)
  chosen : ((w.step backend calls i).phase i).chosen = none

structure Passes (backend : Backend) (calls : ι → Call) (w : World ι) (i : ι) : Prop where
  applies : w.applies backend calls i = false
  record : (w.step backend calls i).record = w.record
  state : (w.step backend calls i).space.manifestState = w.space.manifestState
  chosen : ∀ found, ((w.step backend calls i).phase i).chosen = some found → (w.phase i).chosen = some found

theorem step_cases (backend : Backend) (calls : ι → Call) (w : World ι) (i : ι) :
    Looks backend calls w i ∨ (∃ generation, Stamps backend calls w i generation) ∨ Passes backend calls w i := by
  have own : (w.step backend calls i).phase i = ((calls i).advance backend (w.phase i) w.space).1 :=
    Function.update_self _ _ _
  have space : (w.step backend calls i).space = ((calls i).advance backend (w.phase i) w.space).2 := rfl
  have record : (w.step backend calls i).record = (w.moves backend calls i).foldl Versioned.next w.record := rfl
  cases phase : w.phase i with
  | waiting =>
    obtain ⟨same, chosen⟩ := advance_waiting backend (calls i) w.space
    rw [phase] at own space
    exact .inl ⟨by simp [applies, phase], by simp [record, moves, phase], by rw [space, same],
      by rw [own]; exact chosen⟩
  | admitted m generation n =>
    obtain ⟨same, chosen⟩ := advance_admitted backend (calls i) m generation n w.space
    rw [phase] at own space
    exact .inr (.inr ⟨by simp [applies, phase], by simp [record, moves, phase], by rw [space, same],
      by rw [own, phase]; exact chosen⟩)
  | piped m generation tenantId steps n =>
    obtain ⟨response, ends, ⟨applied, state⟩ | ⟨fails, state⟩⟩ :=
      advance_piped backend (calls i) m generation tenantId steps n w.space
    · have known : w.applies backend calls i = true := by simp only [applies, phase, ends, applied]
      rw [phase, ends] at own
      rw [phase] at space
      exact .inr (.inl ⟨generation, ⟨m, tenantId, steps, n, phase⟩, known, by simp [record, moves, phase, known],
        by rw [space, state], by rw [own]; rfl⟩)
    · have known : w.applies backend calls i = false := by simp only [applies, phase, ends, fails]
      rw [phase, ends] at own
      rw [phase] at space
      exact .inr (.inr ⟨known, by simp [record, moves, phase, known], by rw [space, state],
        by rw [own]; exact fun found impossible => by cases impossible⟩)
  | answered response =>
    rw [phase] at own space
    exact .inr (.inr ⟨by simp [applies, phase], by simp [record, moves, phase], by rw [space]; rfl,
      by rw [own, phase]; exact fun found chosen => chosen⟩)

section
variable (kept : w.Kept backend calls)
include kept

theorem Kept.looks (looks : Looks backend calls w i) : (w.step backend calls i).Kept backend calls := by
  constructor
  · rw [looks.record, looks.space]
    exact kept.version
  · rw [looks.record]
    exact kept.sound.look
  · intro j m generation found
    rw [looks.record]
    by_cases own : j = i
    · subst own
      have allowed := looks.chosen m generation found
      rw [← kept.version] at allowed
      simpa [Versioned.next] using allowed
    · rw [step_phase_ne own] at found
      have allowed := kept.chosen j m generation found
      simpa [Versioned.next, Function.update_of_ne own] using allowed
  · rw [looks.record, looks.space]
    exact kept.top

theorem Kept.stamps (stamps : Stamps backend calls w i generation)
    (raised : w.record.version < generation) : (w.step backend calls i).Kept backend calls := by
  constructor
  · rw [stamps.record, stamps.state]
    rfl
  · rw [stamps.record]
    exact kept.sound.write raised
  · intro j m' generation' found
    rw [stamps.record]
    by_cases own : j = i
    · subst own
      rw [stamps.chosen] at found
      cases found
    · rw [step_phase_ne own] at found
      exact kept.chosen j m' generation' found
  · intro last ends
    rw [stamps.record] at ends ⊢
    rw [stamps.state]
    rw [Versioned.next, List.getLast?_concat] at ends
    cases ends
    exact ⟨rfl, rfl⟩

theorem Kept.passes (passes : Passes backend calls w i) : (w.step backend calls i).Kept backend calls := by
  constructor
  · rw [passes.record, passes.state]
    exact kept.version
  · rw [passes.record]
    exact kept.sound
  · intro j m generation found
    rw [passes.record]
    by_cases own : j = i
    · subst own
      exact kept.chosen j m generation (passes.chosen _ found)
    · rw [step_phase_ne own] at found
      exact kept.chosen j m generation found
  · rw [passes.record, passes.state]
    exact kept.top

theorem Kept.step (ahead : w.Ahead backend calls i) : (w.step backend calls i).Kept backend calls := by
  rcases step_cases backend calls w i with looks | ⟨generation, stamps⟩ | passes
  · exact kept.looks looks
  · obtain ⟨m, tenantId, steps, n, phase⟩ := stamps.phase
    have raised := (kept.lt_iff phase).mpr (ahead stamps.applies m generation tenantId steps n phase)
    rw [← kept.version] at raised
    exact kept.stamps stamps raised
  · exact kept.passes passes

end

theorem stamps_of_applies (applies : w.applies backend calls i = true) : ∃ generation,
    Stamps backend calls w i generation := by
  rcases step_cases backend calls w i with looks | stamps | passes
  · rw [looks.applies] at applies
    cases applies
  · exact stamps
  · rw [passes.applies] at applies
    cases applies

theorem Kept.grows_iff (kept : w.Kept backend calls) : w.Grows backend calls i ↔ w.Ahead backend calls i := by
  constructor
  · rintro ⟨raises, -⟩ applies m generation tenantId steps n phase
    obtain ⟨generation', stamps⟩ := stamps_of_applies applies
    obtain ⟨_, _, _, _, phase'⟩ := stamps.phase
    rw [phase] at phase'
    cases phase'
    refine (kept.lt_iff phase).mp ?_
    have raised := raises applies
    rwa [stamps.state] at raised
  · intro ahead
    refine ⟨fun applies => ?_, (kept.step ahead).current⟩
    obtain ⟨generation, stamps⟩ := stamps_of_applies applies
    obtain ⟨m, tenantId, steps, n, phase⟩ := stamps.phase
    rw [stamps.state]
    exact (kept.lt_iff phase).mpr (ahead applies m generation tenantId steps n phase)

theorem Kept.run_iff {schedule : List ι} (kept : w.Kept backend calls) :
    w.EachStep backend calls (Grows backend calls) schedule ↔
      w.EachStep backend calls (Ahead backend calls) schedule := by
  induction schedule generalizing w with
  | nil => exact Iff.rfl
  | cons i rest ih =>
    unfold EachStep
    rw [kept.grows_iff]
    exact and_congr_right (fun ahead => ih (kept.step ahead))

/-- In whatever order the parts of the requests come, the stored generation grows with each apply, and goes
with the hash, if and only if each apply is ahead of its rivals. -/
theorem generations_grow_iff (backend : Backend) (calls : ι → Call) (space : TenantSpace) (schedule : List ι) :
    (start ι space).EachStep backend calls (Grows backend calls) schedule ↔
      (start ι space).EachStep backend calls (Ahead backend calls) schedule :=
  (kept_start space).run_iff

end

def withAndWithoutKey (withKey : Bool) : Call := acmeCall (if withKey then keySection "key" else [])

/-- Both take their snapshots before the first ends, so that both are stored under generation 1. -/
theorem generation_given_twice :
    ¬ ∀ {ι : Type} [DecidableEq ι] (backend : Backend) (calls : ι → Call) (space : TenantSpace) (schedule : List ι),
      (start ι space).EachStep backend calls (Grows backend calls) schedule := by
  intro claim
  obtain ⟨-, -, -, -, -, ⟨grows, -⟩, -⟩ := claim acmeBackend withAndWithoutKey {}
      [true, false, true, false, true, false]
  have raised := grows (by decide +kernel)
  revert raised
  decide +kernel

end World

end Aeterna.Tenancy
