import Aeterna.Sync.Links
import Aeterna.Sync.Moves

namespace Aeterna.Sync
open Lib SyncState

inductive Operation where
  | syncAll
  | syncIncremental
  | syncFederation (upstreams : List String)
  | detectConflicts
  | resolveConflicts (conflicts : List SyncConflict)
  | resolveFederationConflict (upstreamId : String)
  | pruneFailedItems (daysOld : Int)
  | createCheckpoint
  | rollback
  | runSyncCycle (intervalSecs : Nat)
  | shutdown

def Operation.run (env : Env) (w : World) : Operation → World
  | .syncAll => (Sync.syncAll env w).2
  | .syncIncremental => (Sync.syncIncremental env w).2
  | .syncFederation upstreams => (Sync.syncFederation env upstreams w).2
  | .detectConflicts => (Sync.detectConflicts env w).2
  | .resolveConflicts conflicts => (Sync.resolveConflicts env conflicts w).2
  | .resolveFederationConflict upstreamId => (Sync.resolveFederationConflict env upstreamId w).2
  | .pruneFailedItems daysOld => (Sync.pruneFailedItems env daysOld w).2
  | .createCheckpoint => (Sync.createCheckpoint env w).2
  | .rollback => (Sync.rollback env w).2
  | .runSyncCycle intervalSecs => (Sync.runSyncCycleInternal env intervalSecs w).2
  | .shutdown => (Sync.shutdown env w).2

inductive Step (w : World) : World → Prop where
  | operation (env : Env) (op : Operation) : Step w (op.run env w)
  | memory (store : MemoryStore) : Step w { w with memory := store }
  | restart : Step w { w with states := none, checkpoint := none }

inductive Reachable : World → Prop where
  | initial (memory : MemoryStore) : Reachable { memory := memory }
  | step {w next : World} : Reachable w → Step w next → Reachable next

inductive Transition (w : World) : World → Prop where
  | move {next : World} : Move Work w next → Transition w next
  | mark {s : SyncState} (cached : w.states = some s) : Transition w { w with checkpoint := some s }
  | restore {old : SyncState} (kept : w.checkpoint = some old) : Transition w (w.restore old)

open Eff (Walks)
variable (env : Env)

theorem Moves.transitions {α : Type} {x : SyncM α} (moves : Moves x) : Walks Transition x :=
  moves.mono (fun _ _ => .move)

theorem createCheckpoint_transitions : Walks Transition (createCheckpoint env) := by
  intro w
  unfold createCheckpoint
  split
  · exact .refl
  · have load := Moves.transitions (getOrLoadState_moves env) w
    rw [Eff.bind_run]
    split
    · rename_i state next eq
      rw [eq] at load
      exact load.tail (.mark (getOrLoadState_cached env eq))
    · rename_i e next eq
      rw [eq] at load
      exact load

theorem rollback_transitions : Walks Transition (rollback env) := by
  intro w
  unfold rollback
  rw [Eff.bind_of_ok (Eff.get_run w)]
  cases kept : w.checkpoint with
  | none => exact .refl
  | some old =>
    have save : Moves (do
        let answer ← saveWorking env
        orFail .persistence answer) :=
      (saveWorking_moves env).bind (fun answer => orFail_moves _ answer)
    exact .head (.restore kept) (save.transitions (w.restore old))

theorem runSyncCycleInternal_transitions (intervalSecs : Nat) :
    Walks Transition (runSyncCycleInternal env intervalSecs) := by
  refine Walks.bind (Moves.transitions (checkTriggers_moves env _)) (fun trigger => ?_)
  cases trigger with
  | none => exact Walks.pure ()
  | some trigger =>
    refine (createCheckpoint_transitions env).bind (fun _ => ?_)
    refine (runSyncCycleBody_moves env).transitions.attempt.bind (fun outcome => ?_)
    cases outcome with
    | ok done => exact Walks.ignore (Moves.transitions (getOrLoadState_moves env))
    | error e => exact (rollback_transitions env).ignore.bind (fun _ => Walks.fail e)

theorem operation_transitions (w : World) (op : Operation) : Relation.ReflTransGen Transition w (op.run env w) := by
  cases op with
  | syncAll => exact (syncAll_moves env).moves.transitions w
  | syncIncremental => exact (syncIncremental_moves env).moves.transitions w
  | syncFederation upstreams => exact Moves.transitions (syncFederation_moves env upstreams) w
  | detectConflicts => exact Moves.transitions (detectConflicts_moves env) w
  | resolveConflicts conflicts => exact Moves.transitions (resolveConflicts_moves env conflicts) w
  | resolveFederationConflict upstreamId =>
    exact Moves.transitions (resolveFederationConflict_moves env upstreamId) w
  | pruneFailedItems daysOld => exact Moves.transitions (pruneFailedItems_moves env daysOld) w
  | createCheckpoint => exact createCheckpoint_transitions env w
  | rollback => exact rollback_transitions env w
  | runSyncCycle intervalSecs => exact runSyncCycleInternal_transitions env intervalSecs w
  | shutdown => exact Moves.transitions (shutdown_moves env) w

/-- Every copy of the tenant's state satisfies `P`. -/
structure World.Every (P : SyncState → Prop) (w : World) : Prop where
  states : ∀ s, w.states = some s → P s
  persisted : ∀ s, w.persisted = some s → P s
  checkpoint : ∀ s, w.checkpoint = some s → P s
  working : P w.working

section
variable {P : SyncState → Prop} (empty : P {})
include empty

variable {w : World}

theorem Move.every {W : SyncState → SyncState → Prop} (kept : ∀ s next, W s next → P s → P next)
    {next : World} (step : Move W w next) (every : w.Every P) : next.Every P := by
  obtain ⟨states, persisted, checkpoint, working⟩ := every
  cases step with
  | tick => exact ⟨states, persisted, checkpoint, working⟩
  | land call => exact ⟨states, persisted, checkpoint, working⟩
  | load uncached =>
    refine ⟨?_, persisted, checkpoint, working⟩
    intro s same
    cases same
    cases stored : w.persisted with
    | none => exact empty
    | some s => exact persisted s stored
  | enter cached => exact ⟨states, persisted, checkpoint, states _ cached⟩
  | work change => exact ⟨states, persisted, checkpoint, kept _ _ change working⟩
  | save => exact ⟨states, by intro s same; cases same; exact working, checkpoint, working⟩
  | publish => exact ⟨by intro s same; cases same; exact working, persisted, checkpoint, working⟩
  | deadLetter item => exact ⟨states, persisted, checkpoint, working⟩

theorem Transition.every (kept : ∀ s next, Work s next → P s → P next) {next : World}
    (step : Transition w next) (every : w.Every P) : next.Every P := by
  cases step with
  | move step => exact step.every empty kept every
  | mark cached =>
    refine ⟨every.states, every.persisted, ?_, every.working⟩
    intro s same
    cases same
    exact every.states _ cached
  | restore held =>
    have old := every.checkpoint _ held
    exact ⟨by intro s same; cases same; exact old, every.persisted, nofun, old⟩

theorem World.Every.initial (memory : MemoryStore) : World.Every P { memory := memory } :=
  ⟨nofun, nofun, nofun, empty⟩

omit empty in
theorem World.Every.restart (every : w.Every P) : World.Every P { w with states := none, checkpoint := none } :=
  ⟨nofun, every.persisted, nofun, every.working⟩

theorem World.Every.current (every : w.Every P) : P w.current := by
  unfold World.current
  cases cached : w.states with
  | some s => exact every.states s cached
  | none =>
    cases stored : w.persisted with
    | some s => exact every.persisted s stored
    | none => exact empty

end

/-- Every pointer has the id `sync_entry` gives it, and belongs to a path that can be synced. -/
def SyncState.Named (s : SyncState) : Prop :=
  ∀ memoryId knowledgeId, s.pointerMapping.lookup memoryId = some knowledgeId →
    memoryId = pointerId knowledgeId ∧ simulatesFailure knowledgeId = false

theorem SyncState.named_default : Named {} := by
  intro memoryId knowledgeId found
  simp at found

variable {s next : SyncState}

theorem SyncState.Named.of_erased (named : s.Named) {memoryId : String}
    (erased : next.pointerMapping = s.pointerMapping.erase memoryId) : next.Named := by
  intro other knowledgeId found
  rw [erased] at found
  by_cases same : other = memoryId
  · rw [same, AList.lookup_erase] at found
    cases found
  · rw [AList.lookup_erase_ne same] at found
    exact named other knowledgeId found

theorem SyncWork.named (change : SyncWork s next) (named : s.Named) : next.Named := by
  cases change with
  | record entry hash real =>
    intro memoryId knowledgeId found
    by_cases own : memoryId = pointerId entry.path
    · subst own
      simp only [recordPointer, AList.lookup_insert, Option.some.injEq] at found
      subst found
      exact ⟨rfl, real⟩
    · simp only [recordPointer, AList.lookup_insert_ne own] at found
      exact named memoryId knowledgeId found
  | drop bound => exact named.of_erased rfl
  | unlinked hashes mapping layers =>
    intro memoryId knowledgeId found
    rw [mapping] at found
    exact named memoryId knowledgeId found

theorem Work.named (change : Work s next) (named : s.Named) : next.Named := by
  cases change with
  | sync work => exact work.named named
  | forget knowledgeId memoryId => exact named.of_erased rfl
  | forgetHash knowledgeId => exact named
  | dropPointer memoryId => exact named.of_erased rfl

theorem reachable_named {w : World} (reachable : Reachable w) : w.Every Named := by
  have along : ∀ {w next : World}, Relation.ReflTransGen Transition w next → w.Every Named →
      next.Every Named := by
    intro w next path named
    induction path with
    | refl => exact named
    | tail _ step before => exact step.every named_default (fun _ _ work => work.named) before
  induction reachable with
  | initial memory => exact .initial named_default memory
  | step _ step ih =>
    cases step with
    | operation env op => exact along (operation_transitions env _ op) ih
    | memory store => exact ⟨ih.states, ih.persisted, ih.checkpoint, ih.working⟩
    | restart => exact ih.restart

def SyncState.Lockstep (s : SyncState) : Prop :=
  ∀ path, (s.knowledgeHashes.lookup path).isSome = (s.pointerMapping.lookup (pointerId path)).isSome ∧
    (s.knowledgeLayers.lookup path).isSome = (s.pointerMapping.lookup (pointerId path)).isSome

def SyncState.Tidy (s : SyncState) : Prop := s.Named ∧ s.Lockstep

theorem SyncState.tidy_default : Tidy {} :=
  ⟨named_default, fun path => by simp⟩

theorem SyncState.findMemoryId_bound {path memoryId : String} (bound : s.findMemoryId path = some memoryId) :
    s.pointerMapping.lookup memoryId = some path := by
  obtain ⟨⟨id, target⟩, found, rfl⟩ := Option.map_eq_some_iff.mp bound
  have same : target = path := by simpa using List.find?_some found
  subst same
  exact AList.mem_lookup_iff.mpr (List.mem_of_find?_eq_some found)

theorem SyncWork.tidy (change : SyncWork s next) (tidy : s.Tidy) : next.Tidy := by
  refine ⟨change.named tidy.1, ?_⟩
  intro path
  have before := tidy.2 path
  cases change with
  | record entry hash real =>
    by_cases own : path = entry.path
    · subst own
      simp [recordPointer]
    · have pointer : pointerId path ≠ pointerId entry.path := pointerId_injective.ne own
      simpa [recordPointer, AList.lookup_insert_ne own, AList.lookup_insert_ne pointer] using before
  | @drop knowledgeId memoryId bound =>
    obtain ⟨rfl, -⟩ := tidy.1 _ _ (findMemoryId_bound bound)
    by_cases own : path = knowledgeId
    · subst own
      simp [SyncState.forget]
    · have pointer : pointerId path ≠ pointerId knowledgeId := pointerId_injective.ne own
      simpa [SyncState.forget, AList.lookup_erase_ne own, AList.lookup_erase_ne pointer] using before
  | unlinked hashes mapping layers =>
    rw [hashes, mapping, layers]
    exact before

inductive Synced : World → Prop where
  | initial (memory : MemoryStore) : Synced { memory := memory }
  | full {w : World} (env : Env) : Synced w → Synced (syncAll env w).2
  | incremental {w : World} (env : Env) : Synced w → Synced (syncIncremental env w).2
  | memory {w : World} (store : MemoryStore) : Synced w → Synced { w with memory := store }
  | restart {w : World} : Synced w → Synced { w with states := none, checkpoint := none }

theorem synced_tidy {w : World} (synced : Synced w) : w.Every Tidy := by
  have kept : ∀ w next, Move SyncWork w next → w.Every Tidy → next.Every Tidy :=
    fun _ _ move => move.every tidy_default (fun _ _ work => work.tidy)
  induction synced with
  | initial memory => exact .initial tidy_default memory
  | full env _ ih => exact (syncAll_moves env).keeps kept ih
  | incremental env _ ih => exact (syncIncremental_moves env).keeps kept ih
  | memory store _ ih => exact ⟨ih.states, ih.persisted, ih.checkpoint, ih.working⟩
  | restart _ ih => exact ih.restart

end Aeterna.Sync
