import Aeterna.Sync.Rollback

/-!
The staleness trigger of the sync cycle (`sync/src/bridge.rs`): `run_sync_cycle` around the cycle, what the cycle
leaves of the time and the commit of the last sync, and when a stale tenant is still stale after it.
-/

namespace Aeterna.Sync
open Lib Eff Eff Option

/-- `run_sync_cycle`. `lock` is what the lock provider answers, if there is one: whether the lock was free. -/
def runSyncCycle (env : Env) (syncEnabled : Bool) (lock : Option (Except SyncError Bool)) (intervalSecs : Nat) :
    SyncM Unit :=
  if env.mode = "hybrid" ∧ syncEnabled = false then pure ()
  else
    match lock with
    | some (.error e) => fail e
    | some (.ok false) => pure ()
    | some (.ok true) | none => runSyncCycleInternal env intervalSecs

/-- The cycle is not skipped. -/
def Permitted (env : Env) (syncEnabled : Bool) (lock : Option (Except SyncError Bool)) : Prop :=
  ¬ (env.mode = "hybrid" ∧ syncEnabled = false) ∧
    match lock with
    | some (.ok free) => free = true
    | some (.error _) | none => True

instance (env : Env) (syncEnabled : Bool) (lock : Option (Except SyncError Bool)) :
    Decidable (Permitted env syncEnabled lock) := by
  unfold Permitted
  cases lock with
  | none => exact inferInstance
  | some answer => cases answer <;> exact inferInstance

def Stamped (stamp : Option Int × Option String) (w : World) : Prop := w.states.map SyncState.stamp = some stamp

structure Underway (stamp : Option Int × Option String) (w : World) : Prop where
  states : Stamped stamp w
  working : w.working.stamp = stamp

variable {env : Env} {knowledge : Knowledge} {stamp : Option Int × Option String} {w next : World} {α : Type}

theorem Move.underway (move : Move StampKept w next) (under : Underway stamp w) : Underway stamp next := by
  cases move with
  | tick => exact ⟨under.states, under.working⟩
  | land call => exact ⟨under.states, under.working⟩
  | load uncached =>
    have none : Option.map SyncState.stamp none = some stamp := uncached ▸ under.states
    cases none
  | enter cached =>
    have same := under.states
    rw [Stamped, cached] at same
    exact ⟨under.states, Option.some.inj same⟩
  | work change => exact ⟨under.states, change.trans under.working⟩
  | save => exact ⟨under.states, under.working⟩
  | publish => exact ⟨congrArg some under.working, under.working⟩
  | deadLetter item => exact ⟨under.states, under.working⟩

theorem Underway.after {x : SyncM α} (under : Underway stamp w) (moves : Walks (Move StampKept) x) :
    Underway stamp (x w).2 :=
  moves.keeps (fun _ _ move => move.underway) under

theorem Stamped.begin {f : Unit → SyncM α} (stamped : Stamped stamp w) :
    ∃ started, (beginOperation env >>= f) w = f () started ∧ Underway stamp started ∧ started.tick = w.tick := by
  obtain ⟨state, cached, same⟩ := map_eq_some_iff.mp stamped
  have begun : beginOperation env w = (.ok (), { w with working := state }) := by
    have found : getOrLoadState env w = (.ok state, w) := by
      rw [getOrLoadState, bind_of_ok (get_run w)]
      simp only [cached]
      rfl
    rw [beginOperation, bind_of_ok found]
    rfl
  exact ⟨_, bind_of_ok begun, ⟨stamped, same⟩, rfl⟩

def Env.stampAt (env : Env) (knowledge : Knowledge) (stamp : Option Int × Option String) (tick : Nat) :
    Option Int × Option String :=
  if knowledge.headCommit = none then (some (env.now (tick - 1)), none) else stamp

/-- From a state `P`, a success ends with the stamp of its tick, and a failure publishes no other stamp. -/
def Stamps (env : Env) (knowledge : Knowledge) (stamp : Option Int × Option String) (P : World → Prop)
    (x : SyncM Unit) : Prop :=
  ∀ w, P w → ((x w).1 = .ok () ∧ Underway (env.stampAt knowledge stamp (x w).2.tick) (x w).2) ∨
    ((∃ e, (x w).1 = .error e) ∧ Stamped stamp (x w).2)

theorem Stamps.after {x : SyncM α} {f : α → SyncM Unit} (moves : Walks (Move StampKept) x)
    (second : ∀ a, Stamps env knowledge stamp (Underway stamp) (f a)) :
    Stamps env knowledge stamp (Underway stamp) (x >>= f) := by
  intro w under
  have kept := under.after moves
  rw [bind_run]
  generalize x w = ran at kept ⊢
  obtain ⟨outcome, next⟩ := ran
  cases outcome with
  | ok a => exact second a next kept
  | error e => exact .inr ⟨⟨e, rfl⟩, kept.states⟩

theorem headCommit_cases (steady : env.Steady knowledge) (w : World) :
    env.fault w.tick = none ∧ headCommit env w = (.ok knowledge.headCommit, w.advance) ∨
      env.fault w.tick ≠ none ∧ ∃ e, headCommit env w = (.error e, w.advance) := by
  cases fault : env.fault w.tick with
  | none =>
    have answer : external env (fun w => (env.knowledge w.tick).headCommit) w =
        (.ok (.ok knowledge.headCommit), w.advance) := by
      simp [external, fault, steady w.tick]
    exact .inl ⟨rfl, bind_of_ok answer⟩
  | some failure =>
    have answer : external env (fun w => (env.knowledge w.tick).headCommit) w =
        (.ok (.error failure.message), w.advance) := by
      simp [external, fault]
    exact .inr ⟨some_ne_none _, _, bind_of_ok answer⟩

theorem persistWorking_stamps (env : Env) (w : World) : (persistWorking env w).2.tick = w.tick + 1 ∧
    ((persistWorking env w).1 = .ok () ∧ Underway w.working.stamp (persistWorking env w).2 ∨
      (∃ e, (persistWorking env w).1 = .error e) ∧ (persistWorking env w).2.states = w.states) := by
  unfold persistWorking
  cases fault : env.fault w.tick with
  | none =>
    have saved : saveWorking env w = (.ok (.ok ()), { w with persisted := some w.working }.advance) := by
      simp [saveWorking, fault]
    rw [bind_of_ok saved]
    exact ⟨rfl, .inl ⟨rfl, rfl, rfl⟩⟩
  | some failure =>
    have refused : saveWorking env w = (.ok (.error failure.message),
        (if failure.landed then { w with persisted := some w.working } else w).advance) := by
      simp [saveWorking, fault]
    rw [bind_of_ok refused]
    cases failure.landed with
    | true => exact ⟨rfl, .inr ⟨⟨_, rfl⟩, rfl⟩⟩
    | false => exact ⟨rfl, .inr ⟨⟨_, rfl⟩, rfl⟩⟩

theorem mergeSyncErrors_frame (env : Env) (failures : List SyncFailure) (w : World) :
    ∃ next, mergeSyncErrors env failures w = (.ok (), next) ∧ next.states = w.states ∧ next.tick = w.tick ∧
      next.working.stamp = w.working.stamp := by
  induction failures generalizing w with
  | nil => exact ⟨w, rfl, rfl, rfl, rfl⟩
  | cons failure rest ih =>
    have first : ∃ next, mergeSyncError env failure w = (.ok (), next) ∧ next.states = w.states ∧
        next.tick = w.tick ∧ next.working.stamp = w.working.stamp := by
      unfold mergeSyncError
      rw [bind_of_ok (get_run w)]
      dsimp only
      split
      · exact ⟨_, rfl, rfl, rfl, rfl⟩
      · exact ⟨_, rfl, rfl, rfl, rfl⟩
    obtain ⟨middle, ran, states, tick, working⟩ := first
    obtain ⟨last, others, states', tick', working'⟩ := ih middle
    exact ⟨last, (bind_of_ok ran).trans others, states'.trans states, tick'.trans tick, working'.trans working⟩

theorem finishSync_stamps (headless : knowledge.headCommit = none) (attempts : List Attempt) :
    Stamps env knowledge stamp (Underway stamp) (finishSync env none attempts) := by
  intro w under
  obtain ⟨merged, ran, states, tick, working⟩ := mergeSyncErrors_frame env (attempts.filterMap (·.failure))
    { w with working := { w.working with lastSyncAt := some (env.now w.tick), lastKnowledgeCommit := none } }
  let counted := { merged with working := { merged.working with stats := { merged.working.stats with
    totalSyncs := merged.working.stats.totalSyncs + 1, avgSyncDurationMs := env.elapsedMillis merged.tick } } }
  have finish : finishSync env none attempts w = persistWorking env counted :=
    (bind_of_ok ran).trans (bind_of_ok (modify_run _ merged))
  rw [finish]
  obtain ⟨later, ending⟩ := persistWorking_stamps env counted
  rw [later]
  cases ending with
  | inl saved =>
    have new : counted.working.stamp = env.stampAt knowledge stamp (counted.tick + 1) := by
      rw [Env.stampAt, if_pos headless, Nat.add_sub_cancel]
      exact working.trans (by rw [show counted.tick = w.tick from tick]; rfl)
    rw [← new]
    exact .inl saved
  | inr refused =>
    refine .inr ⟨refused.1, ?_⟩
    rw [Stamped, refused.2]
    exact (congrArg (Option.map SyncState.stamp) states).trans under.states

/-- The head commit has not moved since the last sync, where there is one. -/
def Settled (knowledge : Knowledge) (stamp : Option Int × Option String) : Prop :=
  ∀ head, knowledge.headCommit = some head → stamp.2 = some head

theorem syncAllInternal_stamps (steady : env.Steady knowledge) (headless : knowledge.headCommit = none) :
    Stamps env knowledge stamp (Underway stamp) (syncAllInternal env) := by
  intro w under
  unfold syncAllInternal
  rcases headCommit_cases steady w with ⟨-, ran⟩ | ⟨-, e, ran⟩
  · rw [bind_of_ok ran, headless]
    exact Stamps.after (syncLayers_moves env _) (finishSync_stamps headless) _ ⟨under.states, under.working⟩
  · rw [bind_of_error ran]
    exact .inr ⟨⟨e, rfl⟩, under.states⟩

theorem syncIncremental_stamps (steady : env.Steady knowledge) (settled : Settled knowledge stamp) :
    Stamps env knowledge stamp (Stamped stamp) (syncIncremental env) := by
  intro w stamped
  obtain ⟨started, begun, under, -⟩ := stamped.begin (f := fun _ => syncIncrementalLoaded env)
  have run : syncIncremental env w = syncIncrementalLoaded env started := begun
  have commit : started.working.lastKnowledgeCommit = stamp.2 := congrArg Prod.snd under.working
  rw [run, syncIncrementalLoaded, bind_of_ok (get_run started)]
  cases recorded : started.working.lastKnowledgeCommit with
  | none =>
    have headless : knowledge.headCommit = none := by
      cases found : knowledge.headCommit with
      | none => rfl
      | some head =>
        have moved := (recorded.symm.trans commit).trans (settled head found)
        cases moved
    exact syncAllInternal_stamps steady headless started under
  | some last =>
    dsimp only
    rcases headCommit_cases steady started with ⟨-, ran⟩ | ⟨-, e, ran⟩
    · rw [bind_of_ok ran]
      cases found : knowledge.headCommit with
      | none =>
        rw [if_neg (some_ne_none last).symm]
        have kept : Underway stamp started.advance := ⟨under.states, under.working⟩
        exact Stamps.after (external_moves env _) (fun answer => Stamps.after (orFail_moves _ answer) (fun items =>
          Stamps.after (syncItems_moves env items) (finishSync_stamps found))) _ kept
      | some head =>
        have same : head = last := Option.some.inj ((settled head found).symm.trans (commit.symm.trans recorded))
        rw [if_pos (congrArg some same)]
        refine .inl ⟨rfl, ?_⟩
        rw [Env.stampAt, found, if_neg (some_ne_none head)]
        exact ⟨under.states, under.working⟩
    · rw [bind_of_error ran]
      exact .inr ⟨⟨e, rfl⟩, under.states⟩

theorem syncWithRetries_stamps (steady : env.Steady knowledge) (settled : Settled knowledge stamp) (retries : Nat) :
    Stamps env knowledge stamp (Stamped stamp) (syncWithRetries env retries) := by
  induction retries with
  | zero => exact syncIncremental_stamps steady settled
  | succ retries ih =>
    intro w stamped
    have attempt := syncIncremental_stamps steady settled w stamped
    unfold syncWithRetries
    rw [bind_of_ok (attempt_run _ w)]
    generalize syncIncremental env w = ran at attempt ⊢
    obtain ⟨outcome, next⟩ := ran
    cases outcome with
    | ok done => exact attempt
    | error e =>
      cases attempt with
      | inl done => cases done.1
      | inr failed => exact ih next failed.2

/-- The first part of `run_sync_cycle_body`, up to the end of the sync. -/
def syncPart (env : Env) : SyncM Unit := do
  match env.upstreams with
  | some upstreams => syncFederation env upstreams
  | none => pure ()
  syncWithRetries env 3

theorem syncPart_stamps (steady : env.Steady knowledge) (settled : Settled knowledge stamp) :
    Stamps env knowledge stamp (Stamped stamp) (syncPart env) := by
  intro w stamped
  unfold syncPart
  cases env.upstreams with
  | none => exact syncWithRetries_stamps steady settled 3 w stamped
  | some upstreams =>
    have kept : Stamped stamp (syncFederation env upstreams w).2 := by
      obtain ⟨started, begun, under, -⟩ := stamped.begin (f := fun _ =>
        forEach (syncUpstreamOnce env) upstreams >>= fun _ => persistWorking env)
      have run : syncFederation env upstreams w = (forEach (syncUpstreamOnce env) upstreams >>= fun _ =>
        persistWorking env) started := begun
      rw [run]
      exact (under.after (Walks.bind (Walks.forEach (syncUpstreamOnce_moves env) upstreams)
        (fun _ => persistWorking_moves env))).states
    dsimp only
    rw [bind_run]
    generalize syncFederation env upstreams w = ran at kept ⊢
    obtain ⟨outcome, next⟩ := ran
    cases outcome with
    | ok done => exact syncWithRetries_stamps steady settled 3 next kept
    | error e => exact .inr ⟨⟨e, rfl⟩, kept⟩

theorem runSyncCycleBody_stamps (steady : env.Steady knowledge) (settled : Settled knowledge stamp)
    (stamped : Stamped stamp w) (ran : runSyncCycleBody env w = (.ok (), next)) :
    Underway (env.stampAt knowledge stamp (syncPart env w).2.tick) next := by
  have parts : runSyncCycleBody env = syncPart env >>= fun _ => pruneFailedItems env 30 >>= fun _ =>
      detectConflicts env >>= settleConflicts env := by
    unfold runSyncCycleBody syncPart
    cases env.upstreams with
    | none => rfl
    | some upstreams => exact (Eff.bind_assoc _ _ _).symm
  have synced := syncPart_stamps steady settled w stamped
  rw [parts] at ran
  obtain ⟨_, middle, first, rest⟩ := bind_ok ran
  rw [first] at synced ⊢
  have moves : Walks (Move StampKept) (pruneFailedItems env 30 >>= fun _ => detectConflicts env >>=
      settleConflicts env) :=
    Walks.bind (pruneFailedItems_moves env 30) (fun _ => Walks.bind (detectConflicts_moves env)
      (settleConflicts_moves env))
  cases synced with
  | inl done =>
    have last := done.2.after moves
    rw [rest] at last
    exact last
  | inr failed =>
    obtain ⟨e, failed⟩ := failed.1
    cases failed

/-- At this tick, the last sync is at least the threshold old. -/
def Env.Overdue (env : Env) (last : Int) (thresholdMins tick : Nat) : Prop :=
  (env.now tick - last).tdiv 60 ≥ thresholdMins

instance (env : Env) (last : Int) (thresholdMins tick : Nat) : Decidable (env.Overdue last thresholdMins tick) :=
  inferInstanceAs (Decidable (_ ≥ _))

variable {last : Int} {commit : Option String} {threshold intervalSecs : Nat}

theorem checkTriggers_settled (threshold : Nat) (steady : env.Steady knowledge) (here : env.mode ≠ "remote")
    (settled : Settled knowledge (some last, commit)) (stamped : Stamped (some last, commit) w) :
    env.fault w.tick = none ∧ checkTriggers env threshold w =
        (.ok (if env.Overdue last threshold (w.tick + 1) then some (.staleness last threshold) else none),
          w.advance) ∨
      env.fault w.tick ≠ none ∧ ∃ e, checkTriggers env threshold w = (.error e, w.advance) := by
  obtain ⟨state, cached, same⟩ := map_eq_some_iff.mp stamped
  have found : getOrLoadState env w = (.ok state, w) := by
    rw [getOrLoadState, bind_of_ok (get_run w)]
    simp only [cached]
    rfl
  have synced : state.lastSyncAt = some last := congrArg Prod.fst same
  have kept : state.lastKnowledgeCommit = commit := congrArg Prod.snd same
  rw [checkTriggers, if_neg here, bind_of_ok found]
  rcases headCommit_cases steady w with ⟨faultless, ran⟩ | ⟨faulty, e, ran⟩
  · refine .inl ⟨faultless, ?_⟩
    have stale : checkTriggers.staleness env threshold state w.advance =
        (.ok (if env.Overdue last threshold (w.tick + 1) then some (.staleness last threshold) else none),
          w.advance) := by
      rw [checkTriggers.staleness, synced]
      dsimp only
      have clock : currentTime env w.advance = (.ok (env.now (w.tick + 1)), w.advance) := rfl
      rw [bind_of_ok clock]
      by_cases due : env.Overdue last threshold (w.tick + 1)
      · rw [if_pos due]
        exact congrFun (if_pos due) _
      · rw [if_neg due]
        exact congrFun (if_neg due) _
    rw [bind_of_ok ran]
    cases head : knowledge.headCommit with
    | none => exact stale
    | some head =>
      rw [kept.trans (settled _ ‹_›)]
      dsimp only
      rw [if_neg (not_not_intro rfl)]
      exact stale
  · rw [bind_of_error ran]
    exact .inr ⟨faulty, e, rfl⟩

theorem staleness_recorded {state : SyncState}
    (overdue : checkTriggers.staleness env threshold state w = (.ok (some (.staleness last threshold)), next)) :
    state.lastSyncAt = some last ∧ next = w := by
  unfold checkTriggers.staleness at overdue
  cases synced : state.lastSyncAt with
  | none =>
    rw [synced] at overdue
    cases overdue
  | some at_ =>
    rw [synced] at overdue
    dsimp only at overdue
    have clock : currentTime env w = (.ok (env.now w.tick), w) := rfl
    rw [bind_of_ok clock] at overdue
    split at overdue
    · cases overdue
      exact ⟨rfl, rfl⟩
    · cases overdue

theorem staleness_settled (steady : env.Steady knowledge)
    (stale : checkTriggers env threshold w = (.ok (some (.staleness last threshold)), next)) :
    env.mode ≠ "remote" ∧ ∃ commit, Settled knowledge (some last, commit) ∧ Stamped (some last, commit) next := by
  unfold checkTriggers at stale
  by_cases remote : env.mode = "remote"
  · rw [if_pos remote] at stale
    cases stale
  · rw [if_neg remote] at stale
    obtain ⟨state, middle, loaded, stale⟩ := bind_ok stale
    have cached := getOrLoadState_cached env loaded
    obtain ⟨head, looked, answered, stale⟩ := bind_ok stale
    have lookup : head = knowledge.headCommit ∧ looked = middle.advance := by
      rcases headCommit_cases steady middle with ⟨-, ran⟩ | ⟨-, e, ran⟩
      · cases ran.symm.trans answered
        exact ⟨rfl, rfl⟩
      · cases ran.symm.trans answered
    obtain ⟨rfl, rfl⟩ := lookup
    have stamped : ∀ {next : World}, checkTriggers.staleness env threshold state middle.advance =
        (.ok (some (.staleness last threshold)), next) → Stamped (some last, state.lastKnowledgeCommit) next := by
      intro next overdue
      obtain ⟨synced, same⟩ := staleness_recorded overdue
      rw [same, Stamped, World.advance, cached, map_some, SyncState.stamp, synced]
    cases found : knowledge.headCommit with
    | none =>
      rw [found] at stale
      have settled : Settled knowledge (some last, state.lastKnowledgeCommit) := by
        intro head some
        cases found.symm.trans some
      exact ⟨remote, _, settled, stamped stale⟩
    | some head =>
      rw [found] at stale
      cases recorded : state.lastKnowledgeCommit with
      | none =>
        rw [recorded] at stale
        cases stale
      | some commit =>
        rw [recorded] at stale
        dsimp only at stale
        by_cases moved : head ≠ commit
        · rw [if_pos moved] at stale
          cases stale
        · rw [if_neg moved] at stale
          have settled : Settled knowledge (some last, state.lastKnowledgeCommit) := by
            intro other some
            rw [recorded, ← not_not.mp moved]
            exact found.symm.trans some
          exact ⟨remote, _, settled, stamped stale⟩

/-- A cycle that is not skipped, of a tenant last synced at `last` whose repository has no head commit, syncs. -/
def Renews (env : Env) (knowledge : Knowledge) (syncEnabled : Bool) (lock : Option (Except SyncError Bool))
    (intervalSecs : Nat) (last : Int) (w : World) : Prop :=
  Permitted env syncEnabled lock ∧ knowledge.headCommit = none ∧
    env.Overdue last (intervalSecs / 60 % 2 ^ 32) (w.tick + 1)

instance (env : Env) (knowledge : Knowledge) (syncEnabled : Bool) (lock : Option (Except SyncError Bool))
    (intervalSecs : Nat) (last : Int) (w : World) :
      Decidable (Renews env knowledge syncEnabled lock intervalSecs last w) :=
  inferInstanceAs (Decidable (_ ∧ _ ∧ _))

/-- The time of the last sync after a cycle from `w`: the clock at the end of the sync, if the cycle syncs. -/
def lastSync (env : Env) (knowledge : Knowledge) (syncEnabled : Bool)
    (lock : Option (Except SyncError Bool)) (intervalSecs : Nat) (last : Int) (w : World) : Int :=
  if Renews env knowledge syncEnabled lock intervalSecs last w then
    env.now ((syncPart env (cycleStart env intervalSecs w)).2.tick - 1)
  else last

section
variable {syncEnabled : Bool} {lock : Option (Except SyncError Bool)}

theorem runSyncCycle_permitted (ran : runSyncCycle env syncEnabled lock intervalSecs w = (.ok (), next)) :
    Permitted env syncEnabled lock ∧ runSyncCycleInternal env intervalSecs w = (.ok (), next) ∨
      ¬ Permitted env syncEnabled lock ∧ next = w := by
  unfold runSyncCycle at ran
  by_cases off : env.mode = "hybrid" ∧ syncEnabled = false
  · rw [if_pos off] at ran
    cases ran
    exact .inr ⟨fun permitted => permitted.1 off, rfl⟩
  · rw [if_neg off] at ran
    cases lock with
    | none => exact .inl ⟨⟨off, trivial⟩, ran⟩
    | some answer =>
      cases answer with
      | error e => cases ran
      | ok free =>
        cases free with
        | true => exact .inl ⟨⟨off, rfl⟩, ran⟩
        | false =>
          cases ran
          exact .inr ⟨fun permitted => Bool.false_ne_true permitted.2, rfl⟩

theorem createCheckpoint_stamped (stamped : Stamped stamp w) (ran : createCheckpoint env w = (.ok (), next)) :
    Stamped stamp next := by
  unfold createCheckpoint at ran
  by_cases simulated : containsText env.tenantId "TRIGGER_FAILURE" = true
  · rw [if_pos simulated] at ran
    cases ran
  · rw [if_neg simulated] at ran
    obtain ⟨state, middle, loaded, marked⟩ := bind_ok ran
    obtain ⟨other, cached, -⟩ := map_eq_some_iff.mp stamped
    rw [getOrLoadState, bind_of_ok (get_run w)] at loaded
    simp only [cached] at loaded
    cases loaded
    cases marked
    exact stamped

theorem runSyncCycleInternal_stamped (steady : env.Steady knowledge) (here : env.mode ≠ "remote")
    (settled : Settled knowledge (some last, commit)) (stamped : Stamped (some last, commit) w)
    (ran : runSyncCycleInternal env intervalSecs w = (.ok (), next)) :
    Stamped (if env.Overdue last (intervalSecs / 60 % 2 ^ 32) (w.tick + 1) then
      env.stampAt knowledge (some last, commit) (syncPart env (cycleStart env intervalSecs w)).2.tick
      else (some last, commit)) next := by
  unfold runSyncCycleInternal at ran
  rcases checkTriggers_settled (intervalSecs / 60 % 2 ^ 32) steady here settled stamped with
    ⟨-, checked⟩ | ⟨-, e, checked⟩
  · rw [bind_of_ok checked] at ran
    by_cases due : env.Overdue last (intervalSecs / 60 % 2 ^ 32) (w.tick + 1)
    · rw [if_pos due]
      rw [if_pos due] at ran checked
      obtain ⟨_, start, marked, ran⟩ := bind_ok ran
      have begun : cycleStart env intervalSecs w = start := by
        rw [cycleStart, checked]
        exact congrArg Prod.snd marked
      rw [begun]
      have before : Stamped (some last, commit) w.advance := stamped
      obtain ⟨outcome, finish, attempted, ran⟩ := bind_ok ran
      cases body : runSyncCycleBody env start with
      | mk answer ended =>
        rw [attempt_run, body] at attempted
        cases attempted
        cases answer with
        | error e => cases ran
        | ok done =>
          have kept := (runSyncCycleBody_stamps steady settled (createCheckpoint_stamped before marked) body).states
          obtain ⟨state, cached, -⟩ := map_eq_some_iff.mp kept
          have same : (getOrLoadState env ended).2 = ended := by
            rw [getOrLoadState, bind_of_ok (get_run ended)]
            simp only [cached]
            rfl
          have last : ended = next := same.symm.trans (congrArg Prod.snd ran)
          exact last ▸ kept
    · rw [if_neg due]
      rw [if_neg due] at ran
      cases ran
      exact stamped
  · rw [bind_of_error checked] at ran
    cases ran

/-- After a staleness trigger and a cycle that succeeds while the repository stays as it is, the trigger is
gone exactly when the head commit can be read and the last sync, which is the one before unless the cycle
renews it, is less than the threshold old. -/
theorem staleness_cleared_iff {middle : World} (steady : env.Steady knowledge)
    (stale : checkTriggers env threshold w = (.ok (some (.staleness last threshold)), middle))
    (cycle : runSyncCycle env syncEnabled lock intervalSecs middle = (.ok (), next)) :
    (checkTriggers env threshold next).1 = .ok none ↔ env.fault next.tick = none ∧ ¬ env.Overdue
      (lastSync env knowledge syncEnabled lock intervalSecs last middle) threshold (next.tick + 1) := by
  obtain ⟨here, commit, settled, stamped⟩ := staleness_settled steady stale
  have ended : ∃ commit, Settled knowledge (some (lastSync env knowledge syncEnabled lock intervalSecs last middle),
      commit) ∧
      Stamped (some (lastSync env knowledge syncEnabled lock intervalSecs last middle), commit) next := by
    unfold lastSync
    rcases runSyncCycle_permitted cycle with ⟨permitted, ran⟩ | ⟨skipped, same⟩
    · have kept := runSyncCycleInternal_stamped steady here settled stamped ran
      unfold Env.stampAt at kept
      by_cases due : env.Overdue last (intervalSecs / 60 % 2 ^ 32) (middle.tick + 1)
      · rw [if_pos due] at kept
        by_cases headless : knowledge.headCommit = none
        · rw [if_pos headless] at kept
          rw [if_pos ⟨permitted, headless, due⟩]
          refine ⟨none, fun head found => ?_, kept⟩
          cases headless.symm.trans found
        · rw [if_neg headless] at kept
          rw [if_neg (fun renews => headless renews.2.1)]
          exact ⟨commit, settled, kept⟩
      · rw [if_neg due] at kept
        rw [if_neg (fun renews => due renews.2.2)]
        exact ⟨commit, settled, kept⟩
    · rw [if_neg (fun renews => skipped renews.1), same]
      exact ⟨commit, settled, stamped⟩
  obtain ⟨commit, settled, stamped⟩ := ended
  rcases checkTriggers_settled threshold steady here settled stamped with
    ⟨faultless, checked⟩ | ⟨faulty, e, checked⟩
  · rw [checked, and_iff_right faultless]
    by_cases due : env.Overdue (lastSync env knowledge syncEnabled lock intervalSecs last middle) threshold
      (next.tick + 1)
    · rw [if_pos due]
      exact iff_of_false (fun none => by cases none) (not_not_intro due)
    · rw [if_neg due]
      exact iff_of_true rfl due
  · rw [checked]
    refine iff_of_false (fun none => ?_) (fun both => faulty both.1)
    cases none

end

/-- The clock stands at one hour. -/
def hourLater : Env := { sampleEnv "plain" .accepted with now := fun _ => 3600 }

theorem staleness_stays : hourLater.Steady (sampleKnowledge "plain" .accepted) ∧
    (checkTriggers hourLater 60 syncedWorld).1 = .ok (some (.staleness 0 60)) ∧
    (runSyncCycle hourLater true none 3600 (checkTriggers hourLater 60 syncedWorld).2).1 = .ok () ∧
    (checkTriggers hourLater 60
      (runSyncCycle hourLater true none 3600 (checkTriggers hourLater 60 syncedWorld).2).2).1 = .ok
        (some (.staleness 0 60)) :=
  ⟨fun _ => rfl, by decide +kernel, by decide +kernel, by decide +kernel⟩

def headlessKnowledge : Knowledge := { sampleKnowledge "plain" .accepted with headCommit := none }

def headlessHour : Env := { hourLater with knowledge := fun _ => headlessKnowledge }

theorem staleness_cleared_sample : (checkTriggers headlessHour 60
      (runSyncCycle headlessHour true none 3600 (checkTriggers headlessHour 60 syncedWorld).2).2).1 = .ok none := by
  have steady : headlessHour.Steady headlessKnowledge := fun _ => rfl
  have stale : (checkTriggers headlessHour 60 syncedWorld).1 = .ok (some (.staleness 0 60)) := by decide +kernel
  have cycle : (runSyncCycle headlessHour true none 3600 (checkTriggers headlessHour 60 syncedWorld).2).1 = .ok
      () := by
    decide +kernel
  exact (staleness_cleared_iff steady (Prod.ext stale rfl) (Prod.ext cycle rfl)).mpr
    ⟨by decide +kernel, by decide +kernel⟩

end Aeterna.Sync
