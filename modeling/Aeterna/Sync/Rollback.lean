import Aeterna.Sync.Reachable
import Aeterna.Sync.Convergence

namespace Aeterna.Sync
open Lib Eff

variable (s : SyncState) (env : Env)

def SyncState.Describes (key : MemoryLayer × String) : Prop :=
  ∃ knowledgeId layer, s.pointerMapping.lookup key.2 = some knowledgeId ∧
    s.knowledgeLayers.lookup knowledgeId = some layer ∧ key.1 = mapLayer layer

def IsPointer (stored : Option MemoryEntry) : Prop :=
  ∃ entry, stored = some entry ∧ entry.knowledgePointer.isSome

def Paired (memory : MemoryStore) : Prop := ∀ key, IsPointer (memory key) ↔ s.Describes key

def Harmless (call : MemoryCall) : Prop := IsPointer call.stored ↔ s.Describes call.key

/-- The newest of some writes, newest first, to a place. -/
def latest (writes : List MemoryCall) (key : MemoryLayer × String) : Option MemoryCall :=
  writes.find? (fun call => call.key = key)

def WrittenSince (start w : World) : Prop :=
  ∃ writes, w.landed = writes ++ start.landed ∧
    ∀ key, w.memory key = ((latest writes key).map (·.stored)).getD (start.memory key)

variable {w : World}

theorem Transition.writtenSince {start next : World} (step : Transition w next) (written : WrittenSince start w) :
    WrittenSince start next := by
  obtain ⟨writes, landed, memory⟩ := written
  cases step with
  | mark cached => exact ⟨writes, landed, memory⟩
  | restore kept => exact ⟨writes, landed, memory⟩
  | move step =>
    cases step with
    | land call =>
      refine ⟨call :: writes, by simp [World.land, landed], fun key => ?_⟩
      by_cases own : key = call.key
      · subst own
        simp [World.land, latest]
      · have older : latest (call :: writes) key = latest writes key :=
          List.find?_cons_of_neg (by simpa using Ne.symm own)
        rw [older, ← memory key]
        simp [World.land, Function.update_of_ne own]
    | tick => exact ⟨writes, landed, memory⟩
    | load uncached => exact ⟨writes, landed, memory⟩
    | enter cached => exact ⟨writes, landed, memory⟩
    | work change => exact ⟨writes, landed, memory⟩
    | save => exact ⟨writes, landed, memory⟩
    | publish => exact ⟨writes, landed, memory⟩
    | deadLetter item => exact ⟨writes, landed, memory⟩

theorem paired_after_iff {s : SyncState} {before after : MemoryStore} {writes : List MemoryCall}
    (memory : ∀ key, after key = ((latest writes key).map (·.stored)).getD (before key))
    (paired : Paired s before) :
    Paired s after ↔ ∀ key call, latest writes key = some call → Harmless s call := by
  have own : ∀ {key call}, latest writes key = some call → call.key = key := by
    intro key call newest
    simpa using List.find?_some newest
  constructor
  · intro still key call newest
    have here := still key
    rw [memory, newest] at here
    rw [Harmless, own newest]
    exact here
  · intro harmless key
    rw [memory]
    cases newest : latest writes key with
    | none => exact paired key
    | some call =>
      have fine := harmless key call newest
      rw [Harmless, own newest] at fine
      exact fine

theorem Move.checkpoint_eq {next : World} (move : Move Work w next) : next.checkpoint = w.checkpoint := by
  cases move <;> rfl

theorem runSyncCycleBody_checkpoint (w : World) : (runSyncCycleBody env w).2.checkpoint = w.checkpoint :=
  (runSyncCycleBody_moves env).keeps (I := fun current => current.checkpoint = w.checkpoint)
    (fun _ _ move kept => move.checkpoint_eq.trans kept) rfl

theorem rollback_restored {old : SyncState} (kept : w.checkpoint = some old) :
    (rollback env w).2.states = some old ∧ (env.fault w.tick = none → (rollback env w).2.persisted = some old) := by
  unfold rollback
  rw [bind_of_ok (get_run w)]
  simp only [kept]
  rw [bind_of_ok (modify_run _ w)]
  cases failed : env.fault w.tick with
  | none =>
    have saved : saveWorking env (w.restore old) =
        (.ok (.ok ()), { w.restore old with persisted := some old }.advance) := by
      have same : env.fault (w.restore old).tick = none := failed
      simp only [saveWorking, same]
      rfl
    rw [bind_of_ok saved]
    exact ⟨rfl, fun _ => rfl⟩
  | some fault =>
    have refused : ∃ next, saveWorking env (w.restore old) = (.ok (.error fault.message), next) ∧
        next.states = some old := by
      have same : env.fault (w.restore old).tick = some fault := failed
      simp only [saveWorking, same]
      cases fault.landed <;> exact ⟨_, rfl, rfl⟩
    obtain ⟨next, run, states⟩ := refused
    rw [bind_of_ok run]
    exact ⟨states, fun clean => absurd clean (Option.some_ne_none _)⟩

def cycleStart (intervalSecs : Nat) (w : World) : World :=
  (createCheckpoint env (checkTriggers env (intervalSecs / 60 % 2 ^ 32) w).2).2

structure BodyFails (intervalSecs : Nat) (w : World) (e : SyncError) : Prop where
  triggered : ∃ trigger, (checkTriggers env (intervalSecs / 60 % 2 ^ 32) w).1 = .ok (some trigger)
  marked : (createCheckpoint env (checkTriggers env (intervalSecs / 60 % 2 ^ 32) w).2).1 = .ok ()
  failed : (runSyncCycleBody env (cycleStart env intervalSecs w)).1 = .error e

theorem createCheckpoint_marks (marked : (createCheckpoint env w).1 = .ok ()) :
    ∃ old, (createCheckpoint env w).2.checkpoint = some old := by
  unfold createCheckpoint at marked ⊢
  by_cases simulated : containsText env.tenantId "TRIGGER_FAILURE" = true
  · rw [if_pos simulated] at marked
    cases marked
  · rw [if_neg simulated] at marked ⊢
    rcases getOrLoadState_cases env w with ⟨_, _, run⟩ | ⟨_, _, _, run⟩ | ⟨_, _, run⟩
    · rw [bind_of_ok run]
      exact ⟨_, rfl⟩
    · rw [bind_of_error run] at marked
      cases marked
    · rw [bind_of_ok run]
      exact ⟨_, rfl⟩

theorem BodyFails.run {env : Env} {intervalSecs : Nat} {e : SyncError} (fails : BodyFails env intervalSecs w e) :
    runSyncCycleInternal env intervalSecs w =
      (.error e, (rollback env (runSyncCycleBody env (cycleStart env intervalSecs w)).2).2) := by
  obtain ⟨⟨trigger, triggered⟩, marked, failed⟩ := fails
  unfold runSyncCycleInternal
  rw [bind_of_ok (Prod.ext triggered rfl)]
  simp only
  rw [bind_of_ok (Prod.ext marked rfl), bind_of_ok (attempt_run _ _)]
  unfold cycleStart at failed
  rw [failed]
  rfl

/-- The repository holds one new entry, and every attempt to save the state fails. -/
def unsavedEnv : Env :=
  { sampleEnv "plain" .accepted with
    fault := fun n => if n ∈ [9, 17, 25, 33] then some ⟨"disk full", false⟩ else none }

theorem undescribed_of_unmapped {s : SyncState} (unmapped : s.pointerMapping.entries = [])
    (key : MemoryLayer × String) :
    ¬ s.Describes key := by
  rintro ⟨knowledgeId, layer, mapped, -⟩
  have member := AList.mem_lookup_iff.mp mapped
  rw [unmapped] at member
  cases member

def revisedEnv : Env :=
  { sampleEnv "revised" .accepted with
    fault := fun n => if n = 10 then some ⟨"disk full", false⟩ else none }

def syncedWorld : World where
  states := some {
    lastSyncAt := some 0
    lastKnowledgeCommit := some "c1"
    knowledgeHashes := .singleton "guide.md" (sampleDigest "plain")
    pointerMapping := .singleton "ptr_guide.md" "guide.md"
    knowledgeLayers := .singleton "guide.md" .team }
  memory := Function.update (fun _ => none) (.team, "ptr_guide.md")
    (some (pointerMemory revisedEnv (sampleEntry "plain" .accepted) "plain" 0))

end Aeterna.Sync
