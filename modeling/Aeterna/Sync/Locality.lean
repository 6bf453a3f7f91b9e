import Aeterna.Sync.Bridge

namespace Aeterna.Sync
open Lib
open Eff (Relates)

/-- Two worlds in which an operation has the same copy and has made as many calls. The first has saved
and published nothing; the second has the given registers. -/
structure SameCopy (states persisted : Option SyncState) (a b : World) : Prop where
  working : a.working = b.working
  tick : a.tick = b.tick
  unpublished : a.states = none
  unsaved : a.persisted = none
  states : b.states = states
  persisted : b.persisted = persisted

structure SameEnd (states persisted : Option SyncState) (a b : World) : Prop where
  states : b.states = a.states.or states
  persisted : b.persisted = a.persisted.or persisted
  saved : ∀ s, a.states = some s → a.persisted = some s

def Local {α : Type} (x : SyncM α) : Prop :=
  ∀ states persisted, Relates (SameCopy states persisted) (SameCopy states persisted) x

def LocalUntilSave {α : Type} (x : SyncM α) : Prop :=
  ∀ states persisted, Relates (SameCopy states persisted) (SameEnd states persisted) x

theorem SameCopy.ended {states persisted : Option SyncState} (a b : World) (same : SameCopy states persisted a b) :
    SameEnd states persisted a b where
  states := by rw [same.unpublished, same.states]; rfl
  persisted := by rw [same.unsaved, same.persisted]; rfl
  saved s published := by rw [same.unpublished] at published; cases published

variable {α β : Type}

variable {x : SyncM α}

theorem Local.bind {f : α → SyncM β} (first : Local x) (second : ∀ a, Local (f a)) : Local (x >>= f) :=
  fun states persisted => (first states persisted).bind (fun a => second a states persisted)

theorem Local.bind_save {f : α → SyncM β} (first : Local x) (second : ∀ a, LocalUntilSave (f a)) :
    LocalUntilSave (x >>= f) :=
  fun states persisted => Relates.bind_wider SameCopy.ended (first states persisted)
    (fun a => second a states persisted)

theorem Local.ended (own : Local x) : LocalUntilSave x := by
  intro states persisted a b same
  obtain ⟨outcome, after⟩ := own states persisted a b same
  exact ⟨outcome, after.ended⟩

theorem pure_local (a : α) : Local (pure a) := fun _ _ => Relates.pure a

theorem fail_local (e : SyncError) : Local (Eff.fail e : SyncM α) := fun _ _ => Relates.fail e

theorem forEach_local {f : α → SyncM Unit} (each : ∀ a, Local (f a)) (items : List α) : Local (Eff.forEach f items) :=
  fun states persisted => Relates.forEach (fun a => each a states persisted) items

theorem attempt_local (own : Local x) : Local x.attempt :=
  fun states persisted => (own states persisted).attempt

theorem ignore_local (own : Local x) : Local x.ignore :=
  fun states persisted => (own states persisted).ignore

section
variable {f : World → SyncM β} (same : ∀ a b : World, a.working = b.working → f a = f b)
include same

theorem get_local (each : ∀ w, Local (f w)) : Local (Eff.get >>= f) :=
  fun states persisted => Relates.get_bind (fun a b related => same a b related.working)
    (fun w => each w states persisted)

theorem get_localUntilSave (each : ∀ w, LocalUntilSave (f w)) : LocalUntilSave (Eff.get >>= f) :=
  fun states persisted => Relates.get_bind (fun a b related => same a b related.working)
    (fun w => each w states persisted)

end

variable (env : Env)

theorem external_local {answer : World → α} (same : ∀ a b : World, a.tick = b.tick → answer a = answer b) :
    Local (external env answer) := by
  intro states persisted a b related
  unfold external
  rw [← related.tick, same a b related.tick]
  cases env.fault a.tick with
  | none => exact ⟨rfl, related.working, congrArg (· + 1) related.tick, related.unpublished, related.unsaved,
      related.states, related.persisted⟩
  | some fault => exact ⟨rfl, related.working, congrArg (· + 1) related.tick, related.unpublished, related.unsaved,
      related.states, related.persisted⟩

theorem callMemory_local (call : MemoryCall) : Local (callMemory env call) := by
  intro states persisted a b related
  unfold callMemory
  rw [← related.tick]
  cases env.fault a.tick with
  | none => exact ⟨rfl, related.working, congrArg (· + 1) related.tick, related.unpublished, related.unsaved,
      related.states, related.persisted⟩
  | some fault =>
    obtain ⟨message, landed⟩ := fault
    cases landed <;> exact ⟨rfl, related.working, congrArg (· + 1) related.tick, related.unpublished,
      related.unsaved, related.states, related.persisted⟩

theorem currentTime_local : Local (currentTime env) := by
  intro states persisted a b related
  exact ⟨congrArg (fun n => Except.ok (env.now n)) related.tick, related⟩

theorem modify_local {f : World → World}
    (working : ∀ a b : World, a.working = b.working → a.tick = b.tick → (f a).working = (f b).working)
    (rest : ∀ w, (f w).tick = w.tick ∧ (f w).states = w.states ∧ (f w).persisted = w.persisted) :
    Local (Eff.modify f) := by
  intro states persisted
  refine Relates.modify (fun a b related => ?_)
  obtain ⟨tickA, statesA, persistedA⟩ := rest a
  obtain ⟨tickB, statesB, persistedB⟩ := rest b
  exact ⟨working a b related.working related.tick, by rw [tickA, tickB, related.tick],
    by rw [statesA, related.unpublished], by rw [persistedA, related.unsaved], by rw [statesB, related.states],
    by rw [persistedB, related.persisted]⟩

theorem updateWorking_local (f : SyncState → SyncState) : Local (updateWorking f) :=
  modify_local (fun _ _ same _ => congrArg f same) (fun _ => ⟨rfl, rfl, rfl⟩)

theorem orFail_local (wrap : String → SyncError) (answer : Except String α) : Local (orFail wrap answer) := by
  cases answer with
  | ok a => exact pure_local a
  | error message => exact fail_local _

variable (layer : KnowledgeLayer) (entry : KnowledgeEntry)

variable (path : String)

theorem getEntry_local : Local (getEntry env layer path) :=
  external_local env (fun _ _ same => by rw [same])

theorem headCommit_local : Local (headCommit env) :=
  (external_local env (fun _ _ same => by rw [same])).bind (fun answer => orFail_local _ answer)

theorem persistWorking_local : LocalUntilSave (persistWorking env) := by
  intro states persisted a b related
  unfold persistWorking
  cases failed : env.fault a.tick with
  | none =>
    have saveA : saveWorking env a = (.ok (.ok ()), { a with persisted := some a.working }.advance) := by
      simp [saveWorking, failed]
    have saveB : saveWorking env b = (.ok (.ok ()), { b with persisted := some b.working }.advance) := by
      rw [related.tick] at failed
      simp [saveWorking, failed]
    rw [Eff.bind_of_ok saveA, Eff.bind_of_ok saveB]
    refine ⟨rfl, ?_, ?_, ?_⟩
    · exact congrArg some related.working.symm
    · exact congrArg some related.working.symm
    · exact fun s published => published
  | some fault =>
    obtain ⟨message, landed⟩ := fault
    have failedB : env.fault b.tick = some ⟨message, landed⟩ := by rw [← related.tick, failed]
    cases landed with
    | true =>
      have saveA : saveWorking env a = (.ok (.error message), { a with persisted := some a.working }.advance) := by
        simp [saveWorking, failed]
      have saveB : saveWorking env b = (.ok (.error message), { b with persisted := some b.working }.advance) := by
        simp [saveWorking, failedB]
      rw [Eff.bind_of_ok saveA, Eff.bind_of_ok saveB]
      refine ⟨rfl, ?_, congrArg some related.working.symm, fun s published => ?_⟩
      · exact related.ended.states
      · exact absurd (related.unpublished.symm.trans published) (by simp)
    | false =>
      have saveA : saveWorking env a = (.ok (.error message), a.advance) := by simp [saveWorking, failed]
      have saveB : saveWorking env b = (.ok (.error message), b.advance) := by simp [saveWorking, failedB]
      rw [Eff.bind_of_ok saveA, Eff.bind_of_ok saveB]
      exact ⟨rfl, related.ended.states, related.ended.persisted, related.ended.saved⟩

theorem enforceValidation_local (label : String) (entry : KnowledgeEntry) (result : ValidationResult) :
    Local (enforceValidation env label entry result) := by
  unfold enforceValidation
  split
  · exact pure_local ()
  · refine (updateWorking_local _).bind (fun _ => ?_)
    split
    · exact pure_local ()
    · exact (currentTime_local env).bind (fun at_ => (updateWorking_local _).bind (fun _ => fail_local _))

theorem validateRemotely_local (content : String) : Local (validateRemotely env entry content) := by
  unfold validateRemotely
  split
  · split
    · exact (external_local env (fun _ _ same => by rw [same])).bind (fun answer => (orFail_local _ answer).bind
        (fun result => enforceValidation_local env _ entry result))
    · exact pure_local ()
  · exact pure_local ()

theorem validateLocally_local : Local (validateLocally env entry) := by
  unfold validateLocally
  split
  · exact pure_local ()
  · exact (external_local env (fun _ _ same => by rw [same])).bind (fun answer => (orFail_local _ answer).bind
      (fun result => enforceValidation_local env _ entry result))

theorem writePointer_local (content : String) : Local (writePointer env entry content) := by
  refine get_local (fun a b same => by simp only [same]) (fun w => ?_)
  simp only
  split
  · exact pure_local ()
  · exact (currentTime_local env).bind (fun at_ => (callMemory_local env _).bind (fun answer =>
      (orFail_local _ answer).bind (fun _ => updateWorking_local _)))

theorem syncEntry_local : Local (syncEntry env entry) := by
  unfold syncEntry
  split
  · exact fail_local _
  · exact (validateRemotely_local env entry _).bind (fun _ => (validateLocally_local env entry).bind
      (fun _ => writePointer_local env entry _))

theorem reportFailure_local (knowledgeId error : String) : Local (reportFailure env knowledgeId error) :=
  (currentTime_local env).bind (fun _ => pure_local _)

theorem attemptEntry_local : Local (attemptEntry env entry) := by
  refine (attempt_local (syncEntry_local env entry)).bind (fun outcome => ?_)
  cases outcome with
  | ok done => exact pure_local _
  | error e => exact (reportFailure_local env _ _).bind (fun _ => pure_local _)

theorem mergeSyncError_local (failure : SyncFailure) : Local (mergeSyncError env failure) := by
  refine get_local (fun a b same => by simp only [same]) (fun w => ?_)
  simp only
  split
  · exact modify_local (fun a b same _ => by rw [same]) (fun _ => ⟨rfl, rfl, rfl⟩)
  · exact updateWorking_local _

theorem finishSync_local (head : Option String) (attempts : List Attempt) :
    LocalUntilSave (finishSync env head attempts) := by
  refine (currentTime_local env).bind_save (fun at_ => (updateWorking_local _).bind_save (fun _ => ?_))
  refine (forEach_local (mergeSyncError_local env) _).bind_save (fun _ => ?_)
  refine Local.bind_save (modify_local (fun a b same tick => ?_) (fun _ => ⟨rfl, rfl, rfl⟩))
    (fun _ => persistWorking_local env)
  rw [same, tick]

theorem syncEntries_local (entries : List KnowledgeEntry) : Local (syncEntries env entries) := by
  induction entries with
  | nil => exact pure_local _
  | cons entry rest ih => exact (attemptEntry_local env entry).bind (fun _ => ih.bind (fun _ => pure_local _))

theorem syncLayer_local : Local (syncLayer env layer) := by
  refine (external_local env (fun _ _ same => by rw [same])).bind (fun answer => ?_)
  cases answer with
  | ok entries => exact (syncEntries_local env entries).bind (fun _ => pure_local _)
  | error message => exact (reportFailure_local env _ message).bind (fun _ => pure_local _)

theorem syncLayers_local (layers : List KnowledgeLayer) : Local (syncLayers env layers) := by
  induction layers with
  | nil => exact pure_local _
  | cons layer rest ih => exact (syncLayer_local env layer).bind (fun _ => ih.bind (fun _ => pure_local _))

theorem syncAllInternal_local : LocalUntilSave (syncAllInternal env) :=
  (headCommit_local env).bind_save (fun head => (syncLayers_local env _).bind_save (fun attempts =>
    finishSync_local env head attempts))

theorem dropEntry_local : Local (dropEntry env layer path) := by
  refine get_local (fun a b same => by simp only [same]) (fun w => ?_)
  split
  · exact pure_local ()
  · exact (callMemory_local env _).bind (fun answer => (orFail_local _ answer).bind (fun _ => updateWorking_local _))

theorem syncItem_local : Local (syncItem env layer path) := by
  refine (getEntry_local env layer path).bind (fun answer => ?_)
  match answer with
  | .ok (some entry) => exact (attemptEntry_local env entry).bind (fun _ => pure_local _)
  | .ok none => exact (dropEntry_local env layer path).bind (fun _ => pure_local _)
  | .error message => exact (reportFailure_local env _ message).bind (fun _ => pure_local _)

theorem syncItems_local (items : List (KnowledgeLayer × String)) : Local (syncItems env items) := by
  induction items with
  | nil => exact pure_local _
  | cons item rest ih => exact (syncItem_local env item.1 item.2).bind (fun _ => ih.bind (fun _ => pure_local _))

theorem syncIncrementalLoaded_local : LocalUntilSave (syncIncrementalLoaded env) := by
  refine get_localUntilSave (fun a b same => by simp only [same]) (fun w => ?_)
  split
  · exact syncAllInternal_local env
  · refine (headCommit_local env).bind_save (fun head => ?_)
    split
    · exact (pure_local ()).ended
    · exact (external_local env (fun _ _ same => by rw [same])).bind_save (fun answer =>
        (orFail_local _ answer).bind_save (fun items => (syncItems_local env items).bind_save (fun attempts =>
          finishSync_local env head attempts)))

theorem deleteEverywhere_local (memoryId : String) : Local (deleteEverywhere env memoryId) :=
  forEach_local (fun _ => ignore_local (callMemory_local env _)) _

theorem resyncFrom_local (knowledgeId : String) : Local (resyncFrom env layer knowledgeId) := by
  refine (getEntry_local env layer knowledgeId).bind (fun answer => (orFail_local _ answer).bind (fun found => ?_))
  cases found with
  | some entry => exact syncEntry_local env entry
  | none => exact pure_local ()

theorem resyncRecorded_local (knowledgeId : String) : Local (resyncRecorded env knowledgeId) :=
  get_local (fun a b same => by simp only [same]) (fun _ => resyncFrom_local env _ knowledgeId)

theorem resolveConflict_local (conflict : SyncConflict) : Local (resolveConflict env conflict) := by
  cases conflict with
  | hashMismatch knowledgeId _ _ _ =>
    exact (updateWorking_local _).bind (fun _ => resyncRecorded_local env knowledgeId)
  | missingPointer knowledgeId _ =>
    exact (updateWorking_local _).bind (fun _ => resyncRecorded_local env knowledgeId)
  | orphanedPointer memoryId knowledgeId =>
    exact (deleteEverywhere_local env memoryId).bind (fun _ => updateWorking_local _)
  | duplicatePointer knowledgeId memoryIds =>
    simp only [resolveConflict]
    split
    · exact fail_local _
    · refine Local.bind ?_ (fun _ => resyncRecorded_local env knowledgeId)
      exact forEach_local (fun memoryId => (deleteEverywhere_local env memoryId).bind
        (fun _ => updateWorking_local _)) _
  | statusChange knowledgeId _ _ => exact resyncRecorded_local env knowledgeId
  | layerMismatch knowledgeId memoryId expected actual =>
    exact (ignore_local (callMemory_local env _)).bind (fun _ => (updateWorking_local _).bind
      (fun _ => resyncFrom_local env actual knowledgeId))
  | detectionError _ _ => exact pure_local ()

theorem syncUpstreamOnce_local (upstreamId : String) : Local (syncUpstreamOnce env upstreamId) := by
  have asked : Local (fun w => (.ok (env.syncUpstream w.tick upstreamId), w.advance) : SyncM UpstreamOutcome) := by
    intro states persisted a b related
    exact ⟨congrArg (fun n => Except.ok (env.syncUpstream n upstreamId)) related.tick, related.working,
      congrArg (· + 1) related.tick, related.unpublished, related.unsaved, related.states, related.persisted⟩
  refine asked.bind (fun outcome => ?_)
  cases outcome with
  | synced => exact updateWorking_local _
  | failed message => exact pure_local ()
  | invalidPath message =>
    simp only
    split
    · exact (currentTime_local env).bind (fun at_ => updateWorking_local _)
    · exact pure_local ()

end Aeterna.Sync
