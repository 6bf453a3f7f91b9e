import Aeterna.Sync.Bridge

namespace Aeterna.Sync
open Lib Relation Eff

inductive SyncWork (s : SyncState) : SyncState → Prop where
  | record (entry : KnowledgeEntry) (hash : String) (real : simulatesFailure entry.path = false) :
      SyncWork s (s.recordPointer entry hash)
  | drop {knowledgeId memoryId : String} (bound : s.findMemoryId knowledgeId = some memoryId) :
      SyncWork s (s.forget knowledgeId memoryId)
  | unlinked {next : SyncState} (hashes : next.knowledgeHashes = s.knowledgeHashes)
      (mapping : next.pointerMapping = s.pointerMapping)
      (layers : next.knowledgeLayers = s.knowledgeLayers) : SyncWork s next

/-- The changes of any operation: those of a sync, and those of conflict resolution. -/
inductive Work (s : SyncState) : SyncState → Prop where
  | sync {next : SyncState} (work : SyncWork s next) : Work s next
  | forget (knowledgeId memoryId : String) : Work s (s.forget knowledgeId memoryId)
  | forgetHash (knowledgeId : String) :
      Work s { s with knowledgeHashes := s.knowledgeHashes.erase knowledgeId }
  | dropPointer (memoryId : String) : Work s { s with pointerMapping := s.pointerMapping.erase memoryId }

inductive Move (W : SyncState → SyncState → Prop) (w : World) : World → Prop where
  | tick : Move W w w.advance
  | land (call : MemoryCall) : Move W w (w.land call)
  | load (uncached : w.states = none) : Move W w { w with states := some (w.persisted.getD {}) }
  | enter {s : SyncState} (cached : w.states = some s) : Move W w { w with working := s }
  | work {s : SyncState} (change : W w.working s) : Move W w { w with working := s }
  | save : Move W w { w with persisted := some w.working }
  | publish : Move W w { w with states := some w.working }
  | deadLetter (item : DeadLetterItem) : Move W w { w with deadLetters := w.deadLetters ++ [item] }

abbrev SyncMoves {α : Type} (x : SyncM α) : Prop := Eff.Walks (Move SyncWork) x

abbrev Moves {α : Type} (x : SyncM α) : Prop := Eff.Walks (Move Work) x

theorem Move.of_sync {w next : World} (move : Move SyncWork w next) : Move Work w next := by
  cases move with
  | tick => exact .tick
  | land call => exact .land call
  | load uncached => exact .load uncached
  | enter cached => exact .enter cached
  | work change => exact .work (.sync change)
  | save => exact .save
  | publish => exact .publish
  | deadLetter item => exact .deadLetter item

variable {α : Type} {f : SyncState → SyncState}

theorem SyncMoves.moves {x : SyncM α} (moves : SyncMoves x) : Moves x :=
  moves.mono (fun _ _ => Move.of_sync)

def SyncState.stamp (s : SyncState) : Option Int × Option String := (s.lastSyncAt, s.lastKnowledgeCommit)

def StampKept (s next : SyncState) : Prop := next.stamp = s.stamp

/-- `W` has those changes of `base` that leave the stamp alone. -/
class Covers (base : SyncState → SyncState → Prop) (W : SyncState → SyncState → Prop) : Prop where
  change : ∀ {s next}, base s next → next.stamp = s.stamp → W s next

instance (W : SyncState → SyncState → Prop) : Covers W W := ⟨fun change _ => change⟩

instance (base : SyncState → SyncState → Prop) : Covers base StampKept := ⟨fun _ kept => kept⟩

instance : Covers SyncWork Work := ⟨fun change _ => .sync change⟩

open Eff (Walks)
variable (env : Env) {W : SyncState → SyncState → Prop}

theorem external_moves (answer : World → α) : Walks (Move W) (external env answer) := by
  intro w
  unfold external
  split
  · exact .single .tick
  · exact .single .tick

theorem callMemory_moves (call : MemoryCall) : Walks (Move W) (callMemory env call) := by
  intro w
  unfold callMemory
  split
  · rename_i fault _
    cases fault.landed with
    | true => exact (ReflTransGen.single (.land call)).tail .tick
    | false => exact .single .tick
  · exact (ReflTransGen.single (.land call)).tail .tick

theorem saveWorking_moves : Walks (Move W) (saveWorking env) := by
  intro w
  unfold saveWorking
  split
  · rename_i fault _
    cases fault.landed with
    | true => exact (ReflTransGen.single .save).tail .tick
    | false => exact .single .tick
  · exact (ReflTransGen.single .save).tail .tick

theorem orFail_moves (wrap : String → SyncError) (answer : Except String α) :
    Walks (Move W) (orFail wrap answer) := by
  cases answer with
  | ok a => exact Walks.pure a
  | error message => exact Walks.fail _

theorem currentTime_moves : Walks (Move W) (currentTime env) := fun _ => .refl

theorem updateWorking_moves (change : ∀ s, W s (f s)) : Walks (Move W) (updateWorking f) :=
  Walks.modify (fun w => .work (change w.working))

theorem unlinked_moves [Covers SyncWork W] (hashes : ∀ s, (f s).knowledgeHashes = s.knowledgeHashes)
    (mapping : ∀ s, (f s).pointerMapping = s.pointerMapping)
    (layers : ∀ s, (f s).knowledgeLayers = s.knowledgeLayers) (stamp : ∀ s, (f s).stamp = s.stamp) :
    Walks (Move W) (updateWorking f) :=
  updateWorking_moves (fun s => Covers.change (SyncWork.unlinked (hashes s) (mapping s) (layers s)) (stamp s))

theorem getEntry_moves (layer : KnowledgeLayer) (path : String) : Walks (Move W) (getEntry env layer path) :=
  external_moves env _

theorem headCommit_moves : Walks (Move W) (headCommit env) :=
  (external_moves env _).bind (fun answer => orFail_moves _ answer)

theorem getOrLoadState_cases (w : World) : (∃ state, w.states = some state ∧ getOrLoadState env w = (.ok state, w)) ∨
    (w.states = none ∧ ∃ fault, env.fault w.tick = some fault ∧
      getOrLoadState env w = (.error (.persistence fault.message), w.advance)) ∨
    (w.states = none ∧ env.fault w.tick = none ∧ getOrLoadState env w =
      (.ok (w.persisted.getD {}), { w.advance with states := some (w.persisted.getD {}) })) := by
  unfold getOrLoadState
  rw [bind_of_ok (get_run w)]
  cases cached : w.states with
  | some state => exact .inl ⟨state, rfl, rfl⟩
  | none =>
    cases failed : env.fault w.tick with
    | some fault =>
      refine .inr (.inl ⟨rfl, fault, rfl, ?_⟩)
      have answer : loadPersisted env w = (.ok (.error fault.message), w.advance) := by
        simp [loadPersisted, external, failed]
      simp only [bind_of_ok answer]
      rfl
    | none =>
      refine .inr (.inr ⟨rfl, rfl, ?_⟩)
      have answer : loadPersisted env w = (.ok (.ok (w.persisted.getD {})), w.advance) := by
        simp [loadPersisted, external, failed]
      simp only [bind_of_ok answer]
      rfl

theorem getOrLoadState_moves : Walks (Move W) (getOrLoadState env) := by
  intro w
  rcases getOrLoadState_cases env w with ⟨_, _, run⟩ | ⟨_, _, _, run⟩ | ⟨uncached, _, run⟩
  · rw [run]
  · rw [run]
    exact .single .tick
  · rw [run]
    exact (ReflTransGen.single .tick).tail (Move.load (w := w.advance) uncached)

theorem getOrLoadState_cached {w next : World} {state : SyncState}
    (loaded : getOrLoadState env w = (.ok state, next)) : next.states = some state := by
  rcases getOrLoadState_cases env w with ⟨_, cached, run⟩ | ⟨_, _, _, run⟩ | ⟨_, _, run⟩
  · cases run.symm.trans loaded
    exact cached
  · cases run.symm.trans loaded
  · cases run.symm.trans loaded
    rfl

theorem beginOperation_moves : Walks (Move W) (beginOperation env) := by
  intro w
  have load := getOrLoadState_moves env w (W := W)
  unfold beginOperation
  rw [bind_run]
  split
  · rename_i state next eq
    rw [eq] at load
    exact load.tail (.enter (getOrLoadState_cached env eq))
  · rename_i e next eq
    rw [eq] at load
    exact load

theorem persistWorking_moves : Walks (Move W) (persistWorking env) :=
  (saveWorking_moves env).bind (fun answer => (orFail_moves _ answer).bind (fun _ =>
    Walks.modify (fun _ => .publish)))

theorem shutdown_moves : Walks (Move W) (shutdown env) := by
  intro w
  unfold shutdown
  rw [bind_of_ok (get_run w)]
  cases cached : w.states with
  | none => exact .refl
  | some state =>
    refine ReflTransGen.head (.enter cached) ?_
    exact (saveWorking_moves env).bind (fun answer => orFail_moves _ answer) _

theorem enforceValidation_moves [Covers SyncWork W] (label : String) (entry : KnowledgeEntry)
    (result : ValidationResult) :
    Walks (Move W) (enforceValidation env label entry result) := by
  unfold enforceValidation
  split
  · exact Walks.pure ()
  · refine Walks.bind (unlinked_moves (fun _ => rfl) (fun _ => rfl) (fun _ => rfl) (fun _ => rfl)) (fun _ => ?_)
    split
    · exact Walks.pure ()
    · refine (currentTime_moves env).bind (fun at_ => ?_)
      exact Walks.bind (unlinked_moves (fun _ => rfl) (fun _ => rfl) (fun _ => rfl) (fun _ => rfl))
        (fun _ => Walks.fail _)

theorem validateRemotely_moves [Covers SyncWork W] (entry : KnowledgeEntry) (content : String) :
    Walks (Move W) (validateRemotely env entry content) := by
  unfold validateRemotely
  split
  · split
    · exact (external_moves env _).bind (fun answer => (orFail_moves _ answer).bind (fun result =>
        enforceValidation_moves env _ entry result))
    · exact Walks.pure ()
  · exact Walks.pure ()

theorem validateLocally_moves [Covers SyncWork W] (entry : KnowledgeEntry) :
    Walks (Move W) (validateLocally env entry) := by
  unfold validateLocally
  split
  · exact Walks.pure ()
  · exact (external_moves env _).bind (fun answer => (orFail_moves _ answer).bind (fun result =>
      enforceValidation_moves env _ entry result))

theorem writePointer_moves [Covers SyncWork W] {entry : KnowledgeEntry} (real : simulatesFailure entry.path = false)
    (content : String) : Walks (Move W) (writePointer env entry content) := by
  refine Walks.get.bind (fun w => ?_)
  simp only
  split
  · exact Walks.pure ()
  · exact (currentTime_moves env).bind (fun at_ => (callMemory_moves env _).bind (fun answer =>
      (orFail_moves _ answer).bind (fun _ =>
        updateWorking_moves (fun _ => Covers.change (SyncWork.record entry _ real) rfl))))

theorem syncEntry_moves [Covers SyncWork W] (entry : KnowledgeEntry) : Walks (Move W) (syncEntry env entry) := by
  unfold syncEntry
  cases real : simulatesFailure entry.path with
  | true => exact Walks.fail _
  | false =>
    exact (validateRemotely_moves env entry _).bind (fun _ => (validateLocally_moves env entry).bind
      (fun _ => writePointer_moves env real _))

theorem reportFailure_moves (knowledgeId error : String) : Walks (Move W) (reportFailure env knowledgeId error) :=
  (currentTime_moves env).bind (fun _ => Walks.pure _)

theorem attemptEntry_moves [Covers SyncWork W] (entry : KnowledgeEntry) :
    Walks (Move W) (attemptEntry env entry) := by
  refine (syncEntry_moves env entry).attempt.bind (fun outcome => ?_)
  cases outcome with
  | ok done => exact Walks.pure _
  | error e => exact (reportFailure_moves env _ _).bind (fun _ => Walks.pure _)

theorem mergeSyncError_moves [Covers SyncWork W] (failure : SyncFailure) :
    Walks (Move W) (mergeSyncError env failure) := by
  refine Walks.get.bind (fun w => ?_)
  simp only
  split
  · intro c
    exact ReflTransGen.head (.deadLetter _)
      (.single (.work (Covers.change (SyncWork.unlinked rfl rfl rfl) rfl)))
  · exact unlinked_moves (fun _ => rfl) (fun _ => rfl) (fun _ => rfl) (fun _ => rfl)

theorem finishSync_moves (head : Option String) (attempts : List Attempt) :
    SyncMoves (finishSync env head attempts) := by
  refine (currentTime_moves env).bind (fun at_ => ?_)
  refine Walks.bind (updateWorking_moves (fun _ => .unlinked rfl rfl rfl)) (fun _ => ?_)
  refine Walks.bind (Walks.forEach (mergeSyncError_moves env) _) (fun _ => ?_)
  refine Walks.bind (Walks.modify (fun _ => .work (.unlinked rfl rfl rfl))) (fun _ => ?_)
  exact persistWorking_moves env

theorem syncEntries_moves [Covers SyncWork W] (entries : List KnowledgeEntry) :
    Walks (Move W) (syncEntries env entries) := by
  induction entries with
  | nil => exact Walks.pure _
  | cons entry rest ih =>
    exact (attemptEntry_moves env entry).bind (fun _ => ih.bind (fun _ => Walks.pure _))

theorem syncLayer_moves [Covers SyncWork W] (layer : KnowledgeLayer) : Walks (Move W) (syncLayer env layer) := by
  refine (external_moves env _).bind (fun answer => ?_)
  cases answer with
  | ok entries => exact (syncEntries_moves env entries).bind (fun _ => Walks.pure _)
  | error message => exact (reportFailure_moves env _ message).bind (fun _ => Walks.pure _)

theorem syncLayers_moves [Covers SyncWork W] (layers : List KnowledgeLayer) :
    Walks (Move W) (syncLayers env layers) := by
  induction layers with
  | nil => exact Walks.pure _
  | cons layer rest ih => exact (syncLayer_moves env layer).bind (fun _ => ih.bind (fun _ => Walks.pure _))

theorem syncAllInternal_moves : SyncMoves (syncAllInternal env) :=
  (headCommit_moves env).bind (fun head => (syncLayers_moves env _).bind (fun attempts =>
    finishSync_moves env head attempts))

theorem syncAll_moves : SyncMoves (syncAll env) :=
  (beginOperation_moves env).bind (fun _ => syncAllInternal_moves env)

theorem callMemory_working (call : MemoryCall) (w : World) :
    ∃ answer next, callMemory env call w = (.ok answer, next) ∧ next.working = w.working := by
  unfold callMemory
  split
  · rename_i fault _
    cases fault.landed <;> exact ⟨_, _, rfl, rfl⟩
  · exact ⟨_, _, rfl, rfl⟩

theorem dropEntry_moves [Covers SyncWork W] (layer : KnowledgeLayer) (path : String) :
    Walks (Move W) (dropEntry env layer path) := by
  -- the binding found in the state is still there when it is dropped
  intro w
  unfold dropEntry
  rw [bind_of_ok (get_run w)]
  cases bound : w.working.findMemoryId path with
  | none => exact .refl
  | some memoryId =>
    have call := callMemory_moves env (.delete (mapLayer layer) memoryId) w (W := W)
    obtain ⟨answer, next, run, kept⟩ := callMemory_working env (.delete (mapLayer layer) memoryId) w
    simp only
    rw [bind_of_ok run]
    rw [run] at call
    cases answer with
    | error message => exact call
    | ok done =>
      refine call.tail (.work (Covers.change (SyncWork.drop ?_) rfl))
      rw [kept]
      exact bound

theorem syncItem_moves [Covers SyncWork W] (layer : KnowledgeLayer) (path : String) :
    Walks (Move W) (syncItem env layer path) := by
  refine (getEntry_moves env layer path).bind (fun answer => ?_)
  match answer with
  | .ok (some entry) => exact (attemptEntry_moves env entry).bind (fun _ => Walks.pure _)
  | .ok none => exact (dropEntry_moves env layer path).bind (fun _ => Walks.pure _)
  | .error message => exact (reportFailure_moves env _ message).bind (fun _ => Walks.pure _)

theorem syncItems_moves [Covers SyncWork W] (items : List (KnowledgeLayer × String)) :
    Walks (Move W) (syncItems env items) := by
  induction items with
  | nil => exact Walks.pure _
  | cons item rest ih => exact (syncItem_moves env item.1 item.2).bind (fun _ => ih.bind (fun _ => Walks.pure _))

theorem syncIncremental_moves : SyncMoves (syncIncremental env) := by
  refine (beginOperation_moves env).bind (fun _ => Walks.get.bind (fun w => ?_))
  split
  · exact syncAllInternal_moves env
  · refine (headCommit_moves env).bind (fun head => ?_)
    split
    · exact Walks.pure ()
    · exact (external_moves env _).bind (fun answer => (orFail_moves _ answer).bind (fun items =>
        (syncItems_moves env items).bind (fun attempts => finishSync_moves env head attempts)))

theorem searchLayers_moves (knowledgeId : String) (layers : List KnowledgeLayer) :
    Walks (Move W) (searchLayers env knowledgeId layers) := by
  induction layers with
  | nil => exact Walks.pure _
  | cons layer rest ih =>
    refine (getEntry_moves env layer knowledgeId).bind (fun answer => ?_)
    split
    · exact Walks.pure _
    · exact ih

theorem detectPointer_moves (s : SyncState) (memoryId knowledgeId : String) :
    Walks (Move W) (detectPointer env s memoryId knowledgeId) := by
  refine (getEntry_moves env _ knowledgeId).bind (fun answer => ?_)
  match answer with
  | .ok (some entry) => exact (external_moves env _).bind (fun _ => Walks.pure _)
  | .ok none =>
    refine (searchLayers_moves env knowledgeId _).bind (fun found => ?_)
    cases found with
    | some other => exact Walks.pure _
    | none => exact Walks.pure _
  | .error message => exact Walks.pure _

theorem detectPointers_moves (s : SyncState) (bindings : List (Σ _ : String, String)) :
    Walks (Move W) (detectPointers env s bindings) := by
  induction bindings with
  | nil => exact Walks.pure _
  | cons binding rest ih =>
    exact (detectPointer_moves env s _ _).bind (fun _ => ih.bind (fun _ => Walks.pure _))

theorem detectConflicts_moves : Walks (Move W) (detectConflicts env) :=
  (getOrLoadState_moves env).bind (fun s => (detectPointers_moves env s _).bind (fun _ => Walks.pure _))

theorem deleteEverywhere_moves (memoryId : String) : Walks (Move W) (deleteEverywhere env memoryId) :=
  Walks.forEach (fun _ => (callMemory_moves env _).ignore) _

theorem resyncFrom_moves [Covers SyncWork W] (layer : KnowledgeLayer) (knowledgeId : String) :
    Walks (Move W) (resyncFrom env layer knowledgeId) := by
  refine (getEntry_moves env layer knowledgeId).bind (fun answer => (orFail_moves _ answer).bind
    (fun found => ?_))
  cases found with
  | some entry => exact syncEntry_moves env entry
  | none => exact Walks.pure ()

theorem resyncRecorded_moves [Covers SyncWork W] (knowledgeId : String) :
    Walks (Move W) (resyncRecorded env knowledgeId) :=
  Walks.get.bind (fun _ => resyncFrom_moves env _ knowledgeId)

theorem resolutionWork_moves [Covers Work W] (change : ∀ s, Work s (f s)) (stamp : ∀ s, (f s).stamp = s.stamp) :
    Walks (Move W) (updateWorking f) :=
  updateWorking_moves (fun s => Covers.change (change s) (stamp s))

theorem resolveConflict_moves [Covers SyncWork W] [Covers Work W] (conflict : SyncConflict) :
    Walks (Move W) (resolveConflict env conflict) := by
  cases conflict with
  | hashMismatch knowledgeId _ _ _ =>
    exact (resolutionWork_moves (fun _ => .forgetHash knowledgeId) (fun _ => rfl)).bind
      (fun _ => (resyncRecorded_moves env knowledgeId))
  | missingPointer knowledgeId _ =>
    exact (resolutionWork_moves (fun _ => .forgetHash knowledgeId) (fun _ => rfl)).bind
      (fun _ => (resyncRecorded_moves env knowledgeId))
  | orphanedPointer memoryId knowledgeId =>
    exact (deleteEverywhere_moves env memoryId).bind
      (fun _ => resolutionWork_moves (fun _ => .forget knowledgeId memoryId) (fun _ => rfl))
  | duplicatePointer knowledgeId memoryIds =>
    simp only [resolveConflict]
    split
    · exact Walks.fail _
    · exact (Walks.forEach (fun memoryId => (deleteEverywhere_moves env memoryId).bind
        (fun _ => resolutionWork_moves (fun _ => .dropPointer memoryId) (fun _ => rfl))) _).bind
          (fun _ => (resyncRecorded_moves env knowledgeId))
  | statusChange knowledgeId _ _ => exact (resyncRecorded_moves env knowledgeId)
  | layerMismatch knowledgeId memoryId expected actual =>
    exact (callMemory_moves env _).ignore.bind (fun _ =>
      (resolutionWork_moves (fun _ => .forget knowledgeId memoryId) (fun _ => rfl)).bind
        (fun _ => (resyncFrom_moves env actual knowledgeId)))
  | detectionError _ _ => exact Walks.pure ()

theorem resolveConflicts_moves [Covers SyncWork W] [Covers Work W] (conflicts : List SyncConflict) :
    Walks (Move W) (resolveConflicts env conflicts) :=
  (beginOperation_moves env).bind (fun _ => (Walks.forEach (resolveConflict_moves env) conflicts).bind
    (fun _ => (persistWorking_moves env)))

theorem syncUpstreamOnce_moves [Covers SyncWork W] (upstreamId : String) :
    Walks (Move W) (syncUpstreamOnce env upstreamId) := by
  refine Walks.bind (fun w => .single .tick) (fun outcome => ?_)
  cases outcome with
  | synced => exact unlinked_moves (fun _ => rfl) (fun _ => rfl) (fun _ => rfl) (fun _ => rfl)
  | invalidPath message =>
    simp only
    split
    · exact (currentTime_moves env).bind
        (fun _ => unlinked_moves (fun _ => rfl) (fun _ => rfl) (fun _ => rfl) (fun _ => rfl))
    · exact Walks.pure ()
  | failed _ => exact Walks.pure ()

theorem syncFederation_moves [Covers SyncWork W] (upstreams : List String) :
    Walks (Move W) (syncFederation env upstreams) :=
  (beginOperation_moves env).bind (fun _ => (Walks.forEach (syncUpstreamOnce_moves env) upstreams).bind
    (fun _ => persistWorking_moves env))

theorem resolveFederationConflict_moves [Covers SyncWork W] (upstreamId : String) :
    Walks (Move W) (resolveFederationConflict env upstreamId) :=
  (beginOperation_moves env).bind (fun _ =>
    Walks.bind (unlinked_moves (fun _ => rfl) (fun _ => rfl) (fun _ => rfl) (fun _ => rfl))
      (fun _ => persistWorking_moves env))

theorem pruneFailedItems_moves [Covers SyncWork W] (daysOld : Int) :
    Walks (Move W) (pruneFailedItems env daysOld) := by
  refine (beginOperation_moves env).bind (fun _ => (currentTime_moves env).bind (fun now =>
    Walks.get.bind (fun w => ?_)))
  simp only
  split
  · exact Walks.bind (unlinked_moves (fun _ => rfl) (fun _ => rfl) (fun _ => rfl) (fun _ => rfl))
      (fun _ => persistWorking_moves env)
  · exact Walks.pure ()

theorem checkTriggers_moves (thresholdMins : Nat) : Walks (Move W) (checkTriggers env thresholdMins) := by
  have staleness : ∀ s, Walks (Move W) (checkTriggers.staleness env thresholdMins s) := by
    intro s
    unfold checkTriggers.staleness
    split
    · exact Walks.pure _
    · refine (currentTime_moves env).bind (fun now => ?_)
      split
      · exact Walks.pure _
      · exact Walks.pure _
  unfold checkTriggers
  split
  · exact Walks.pure _
  · refine (getOrLoadState_moves env).bind (fun s => (headCommit_moves env).bind (fun head => ?_))
    split
    · split
      · exact Walks.pure _
      · exact staleness s
    · exact Walks.pure _
    · exact staleness s

theorem syncWithRetries_moves (retries : Nat) : SyncMoves (syncWithRetries env retries) := by
  induction retries with
  | zero => exact syncIncremental_moves env
  | succ retries ih =>
    refine (syncIncremental_moves env).attempt.bind (fun outcome => ?_)
    cases outcome with
    | ok done => exact Walks.pure ()
    | error e => exact ih

theorem settleConflicts_moves [Covers SyncWork W] [Covers Work W] (conflicts : List SyncConflict) :
    Walks (Move W) (settleConflicts env conflicts) := by
  unfold settleConflicts
  split
  · exact Walks.pure ()
  · refine (beginOperation_moves env).bind (fun _ => ?_)
    refine Walks.bind (unlinked_moves (fun _ => rfl) (fun _ => rfl) (fun _ => rfl) (fun _ => rfl)) (fun _ => ?_)
    exact Walks.bind (Walks.modify (fun _ => .publish)) (fun _ => resolveConflicts_moves env conflicts)

theorem runSyncCycleBody_moves : Moves (runSyncCycleBody env) := by
  have rest : Moves (do
      syncWithRetries env 3
      pruneFailedItems env 30
      let conflicts ← detectConflicts env
      settleConflicts env conflicts) :=
    (syncWithRetries_moves env 3).moves.bind (fun _ => (pruneFailedItems_moves env 30).bind (fun _ =>
      (detectConflicts_moves env).bind (fun conflicts => settleConflicts_moves env conflicts)))
  unfold runSyncCycleBody
  cases env.upstreams with
  | some upstreams => exact (syncFederation_moves env upstreams).bind (fun _ => rest)
  | none => exact (Walks.pure ()).bind (fun _ => rest)

end Aeterna.Sync
