import Aeterna.Sync.Entry

/-!
The operations of `SyncManager` (`sync/src/bridge.rs`): state loading and saving, full and
incremental sync, failure bookkeeping, conflict detection and resolution, federation, and the
sync cycle with its checkpoint and rollback.
-/

namespace Aeterna.Sync
open Lib

/-- `persister.load`, which answers the default state for a tenant without a record. -/
def loadPersisted (env : Env) : SyncM (Except String SyncState) :=
  external env (fun w => w.persisted.getD {})

def getOrLoadState (env : Env) : SyncM SyncState := do
  let w ← Eff.get
  match w.states with
  | some state => pure state
  | none =>
    let answer ← loadPersisted env
    let state ← orFail .persistence answer
    Eff.modify (fun w => { w with states := some state })
    pure state

def saveWorking (env : Env) : SyncM (Except String Unit) := fun w =>
  match env.fault w.tick with
  | some fault =>
    (.ok (.error fault.message),
      (if fault.landed then { w with persisted := some w.working } else w).advance)
  | none => (.ok (.ok ()), { w with persisted := some w.working }.advance)

def updateState : SyncM Unit := Eff.modify (fun w => { w with states := some w.working })

def beginOperation (env : Env) : SyncM Unit := do
  let state ← getOrLoadState env
  updateWorking (fun _ => state)

def persistWorking (env : Env) : SyncM Unit := do
  let answer ← saveWorking env
  orFail .persistence answer
  updateState

def shutdown (env : Env) : SyncM Unit := do
  let w ← Eff.get
  match w.states with
  | none => pure ()
  | some state =>
    updateWorking (fun _ => state)
    let answer ← saveWorking env
    orFail .persistence answer

def mergeSyncError (env : Env) (failure : SyncFailure) : SyncM Unit := do
  let w ← Eff.get
  let items := w.working.failedItems
  let prior := items.find? (fun item => item.knowledgeId = failure.knowledgeId)
  let retryCount := (prior.map (fun existing => existing.retryCount + 1)).getD failure.retryCount
  let remaining := items.eraseP (fun item => item.knowledgeId = failure.knowledgeId)
  if retryCount ≥ maxSyncRetries then
    Eff.modify (fun w => { w with
      working := { w.working with failedItems := remaining }
      deadLetters := w.deadLetters ++
        [⟨"sync_entry", failure.knowledgeId, env.tenantId, failure.error, retryCount, maxSyncRetries⟩] })
  else
    updateWorking (fun s => { s with
      failedItems := remaining ++ [{ failure with retryCount := retryCount }] })

def mergeSyncErrors (env : Env) (failures : List SyncFailure) : SyncM Unit :=
  Eff.forEach (mergeSyncError env) failures

structure Attempt where
  knowledgeId : String
  failure : Option SyncFailure
  blocked : Bool := false

def SyncError.isBlock : SyncError → Bool
  | .governanceBlock _ => true
  | _ => false

def reportFailure (env : Env) (knowledgeId error : String) : SyncM Attempt := do
  let at_ ← currentTime env
  pure { knowledgeId := knowledgeId, failure := some ⟨knowledgeId, error, at_, 0⟩ }

def attemptEntry (env : Env) (entry : KnowledgeEntry) : SyncM Attempt := do
  match ← (syncEntry env entry).attempt with
  | .ok () => pure { knowledgeId := entry.path, failure := none }
  | .error e => do
    let attempt ← reportFailure env entry.path e.text
    pure { attempt with blocked := e.isBlock }

def finishSync (env : Env) (head : Option String) (attempts : List Attempt) : SyncM Unit := do
  let at_ ← currentTime env
  updateWorking (fun s => { s with lastSyncAt := some at_, lastKnowledgeCommit := head })
  mergeSyncErrors env (attempts.filterMap (·.failure))
  Eff.modify (fun w => { w with working := { w.working with
    stats := { w.working.stats with
      totalSyncs := w.working.stats.totalSyncs + 1
      avgSyncDurationMs := env.elapsedMillis w.tick } } })
  persistWorking env

def syncEntries (env : Env) : List KnowledgeEntry → SyncM (List Attempt)
  | [] => pure []
  | entry :: rest => do
    let attempt ← attemptEntry env entry
    let others ← syncEntries env rest
    pure (attempt :: others)

def syncLayer (env : Env) (layer : KnowledgeLayer) : SyncM (List Attempt) := do
  match ← external env (fun w => (env.knowledge w.tick).list layer) with
  | .ok entries =>
    let attempts ← syncEntries env entries
    pure ({ knowledgeId := "layer:" ++ layer.debug, failure := none } :: attempts)
  | .error message =>
    let attempt ← reportFailure env ("layer:" ++ layer.debug) message
    pure [attempt]

def syncLayers (env : Env) : List KnowledgeLayer → SyncM (List Attempt)
  | [] => pure []
  | layer :: rest => do
    let attempts ← syncLayer env layer
    let others ← syncLayers env rest
    pure (attempts ++ others)

def headCommit (env : Env) : SyncM (Option String) := do
  let answer ← external env (fun w => (env.knowledge w.tick).headCommit)
  orFail .knowledgeManager answer

def syncAllInternal (env : Env) : SyncM Unit := do
  let head ← headCommit env
  let attempts ← syncLayers env KnowledgeLayer.walk
  finishSync env head attempts

def syncAll (env : Env) : SyncM Unit := do
  beginOperation env
  syncAllInternal env

def SyncState.findMemoryId (s : SyncState) (knowledgeId : String) : Option String :=
  (s.pointerMapping.entries.find? (fun binding => binding.2 = knowledgeId)).map (·.1)

def SyncState.forget (s : SyncState) (knowledgeId memoryId : String) : SyncState :=
  { s with
    knowledgeHashes := s.knowledgeHashes.erase knowledgeId
    pointerMapping := s.pointerMapping.erase memoryId
    knowledgeLayers := s.knowledgeLayers.erase knowledgeId }

/-- The `Ok(None)` arm of `sync_incremental`: the entry is gone. -/
def dropEntry (env : Env) (layer : KnowledgeLayer) (path : String) : SyncM Unit := do
  let w ← Eff.get
  match w.working.findMemoryId path with
  | none => pure ()
  | some memoryId =>
    let answer ← callMemory env (.delete (mapLayer layer) memoryId)
    orFail .other answer
    updateWorking (·.forget path memoryId)

def syncItem (env : Env) (layer : KnowledgeLayer) (path : String) : SyncM (List Attempt) := do
  match ← getEntry env layer path with
  | .ok (some entry) =>
    let attempt ← attemptEntry env entry
    pure [attempt]
  | .ok none =>
    dropEntry env layer path
    pure []
  | .error message =>
    let attempt ← reportFailure env path message
    pure [attempt]

def syncItems (env : Env) : List (KnowledgeLayer × String) → SyncM (List Attempt)
  | [] => pure []
  | (layer, path) :: rest => do
    let attempts ← syncItem env layer path
    let others ← syncItems env rest
    pure (attempts ++ others)

def syncIncrementalLoaded (env : Env) : SyncM Unit := do
  let w ← Eff.get
  match w.working.lastKnowledgeCommit with
  | none => syncAllInternal env
  | some last =>
    let head ← headCommit env
    if head = some last then
      pure ()
    else
      let answer ← external env (fun w => (env.knowledge w.tick).affectedItems last)
      let items ← orFail .knowledgeManager answer
      let attempts ← syncItems env items
      finishSync env head attempts

def syncIncremental (env : Env) : SyncM Unit := do
  beginOperation env
  syncIncrementalLoaded env

def duplicatePointers (mapping : HashMap String String) : List SyncConflict :=
  (mapping.entries.map (·.2)).dedup.filterMap (fun knowledgeId =>
    let memoryIds := (mapping.entries.filter (fun binding => binding.2 = knowledgeId)).map (·.1)
    if memoryIds.length > 1 then some (.duplicatePointer knowledgeId memoryIds) else none)

def entryConflicts (env : Env) (recorded : Option String) (memoryId knowledgeId : String)
    (layer : KnowledgeLayer) (entry : KnowledgeEntry) : List SyncConflict :=
  let actualHash := env.contentHash.digest entry.content
  (match recorded with
    | some expected =>
      if expected ≠ actualHash then [.hashMismatch knowledgeId memoryId expected actualHash] else []
    | none => []) ++
  (if entry.status = .deprecated ∨ entry.status = .superseded then
    [.statusChange knowledgeId memoryId entry.status] else []) ++
  (if entry.layer ≠ layer then [.layerMismatch knowledgeId memoryId layer entry.layer] else [])

/-- The check of the pointer memory's content against the summary `sync_entry` would write. -/
def memoryConflicts (env : Env) (memoryId knowledgeId : String) (entry : KnowledgeEntry) :
    Except String (Option String) → List SyncConflict
  | .ok none => [.missingPointer knowledgeId memoryId]
  | .ok (some content) =>
    if content ≠ generateSummary entry (redactPii env.decimalDigit entry.content) then
      [.hashMismatch knowledgeId memoryId "summary_mismatch" "summary_mismatch"]
    else []
  | .error message => [.detectionError memoryId message]

def searchLayers (env : Env) (knowledgeId : String) : List KnowledgeLayer → SyncM (Option KnowledgeLayer)
  | [] => pure none
  | layer :: rest => do
    match ← getEntry env layer knowledgeId with
    | .ok (some _) => pure (some layer)
    | _ => searchLayers env knowledgeId rest

def detectPointer (env : Env) (s : SyncState) (memoryId knowledgeId : String) : SyncM (List SyncConflict) := do
  let layer := (s.knowledgeLayers.lookup knowledgeId).getD .tenant
  match ← getEntry env layer knowledgeId with
  | .ok (some entry) =>
    let memory ← external env (fun w => (w.memory (mapLayer entry.layer, memoryId)).map (·.content))
    pure (entryConflicts env (s.knowledgeHashes.lookup knowledgeId) memoryId knowledgeId layer entry ++
      memoryConflicts env memoryId knowledgeId entry memory)
  | .ok none =>
    match ← searchLayers env knowledgeId (KnowledgeLayer.walk.filter (fun other => other ≠ layer)) with
    | some other => pure [.layerMismatch knowledgeId memoryId layer other]
    | none => pure [.orphanedPointer memoryId knowledgeId]
  | .error message => pure [.detectionError knowledgeId message]

def detectPointers (env : Env) (s : SyncState) : List (Σ _ : String, String) → SyncM (List SyncConflict)
  | [] => pure []
  | ⟨memoryId, knowledgeId⟩ :: rest => do
    let found ← detectPointer env s memoryId knowledgeId
    let others ← detectPointers env s rest
    pure (found ++ others)

def detectConflicts (env : Env) : SyncM (List SyncConflict) := do
  let s ← getOrLoadState env
  let found ← detectPointers env s s.pointerMapping.entries
  pure (duplicatePointers s.pointerMapping ++ found)

def deleteEverywhere (env : Env) (memoryId : String) : SyncM Unit :=
  Eff.forEach (fun layer => (callMemory env (.delete (mapLayer layer) memoryId)).ignore)
    KnowledgeLayer.walk

def resyncFrom (env : Env) (layer : KnowledgeLayer) (knowledgeId : String) : SyncM Unit := do
  let answer ← getEntry env layer knowledgeId
  match ← orFail .knowledgeManager answer with
  | some entry => syncEntry env entry
  | none => pure ()

def resyncRecorded (env : Env) (knowledgeId : String) : SyncM Unit := do
  let w ← Eff.get
  resyncFrom env ((w.working.knowledgeLayers.lookup knowledgeId).getD .tenant) knowledgeId

def dropDuplicates (env : Env) (memoryIds : List String) : SyncM Unit :=
  Eff.forEach (fun memoryId => do
    deleteEverywhere env memoryId
    updateWorking (fun s => { s with pointerMapping := s.pointerMapping.erase memoryId })) memoryIds

def forgetHash (knowledgeId : String) : SyncM Unit :=
  updateWorking (fun s => { s with knowledgeHashes := s.knowledgeHashes.erase knowledgeId })

def resolveConflict (env : Env) : SyncConflict → SyncM Unit
  | .hashMismatch knowledgeId _ _ _ | .missingPointer knowledgeId _ => do
    forgetHash knowledgeId
    resyncRecorded env knowledgeId
  | .orphanedPointer memoryId knowledgeId => do
    deleteEverywhere env memoryId
    updateWorking (·.forget knowledgeId memoryId)
  | .duplicatePointer knowledgeId memoryIds =>
    match memoryIds.mergeSort (fun a b => decide (a ≤ b)) with
    | [] => Eff.fail (.other "removal index (is 0) should be < len (is 0)")
    | _ :: redundant => do
      dropDuplicates env redundant
      resyncRecorded env knowledgeId
  | .statusChange knowledgeId _ _ => resyncRecorded env knowledgeId
  | .layerMismatch knowledgeId memoryId expected actual => do
    (callMemory env (.delete (mapLayer expected) memoryId)).ignore
    updateWorking (·.forget knowledgeId memoryId)
    resyncFrom env actual knowledgeId
  | .detectionError _ _ => pure ()

def resolveLoaded (env : Env) (conflicts : List SyncConflict) : SyncM Unit :=
  Eff.forEach (resolveConflict env) conflicts

def resolveConflicts (env : Env) (conflicts : List SyncConflict) : SyncM Unit := do
  beginOperation env
  resolveLoaded env conflicts
  persistWorking env

def SyncState.dropUpstream (s : SyncState) (upstreamId : String) : SyncState :=
  { s with federationConflicts := s.federationConflicts.filter (fun c => c.upstreamId ≠ upstreamId) }

def syncUpstreamOnce (env : Env) (upstreamId : String) : SyncM Unit := do
  let outcome ← fun w => (.ok (env.syncUpstream w.tick upstreamId), w.advance)
  match outcome with
  | .synced => updateWorking (·.dropUpstream upstreamId)
  | .invalidPath message =>
    if containsText message "conflict" ∨ containsText message "upstream" then
      let at_ ← currentTime env
      updateWorking (fun s => { s.dropUpstream upstreamId with
        federationConflicts := (s.dropUpstream upstreamId).federationConflicts ++
          [⟨upstreamId, message, at_⟩] })
    else pure ()
  | .failed _ => pure ()

def syncFederation (env : Env) (upstreams : List String) : SyncM Unit := do
  beginOperation env
  Eff.forEach (syncUpstreamOnce env) upstreams
  persistWorking env

def resolveFederationConflict (env : Env) (upstreamId : String) : SyncM Unit := do
  beginOperation env
  updateWorking (·.dropUpstream upstreamId)
  persistWorking env

def SyncState.recentFailures (s : SyncState) (now daysOld : Int) : List SyncFailure :=
  s.failedItems.filter (fun item => now - item.failedAt < daysOld * 24 * 60 * 60)

def pruneFailedItems (env : Env) (daysOld : Int) : SyncM Unit := do
  beginOperation env
  let now ← currentTime env
  let w ← Eff.get
  let kept := w.working.recentFailures now daysOld
  if w.working.failedItems.length - kept.length > 0 then
    updateWorking (fun s => { s with failedItems := kept })
    persistWorking env
  else pure ()

def checkTriggers (env : Env) (thresholdMins : Nat) : SyncM (Option SyncTrigger) := do
  if env.mode = "remote" then
    pure (some .manual)
  else
    let s ← getOrLoadState env
    let head ← headCommit env
    match head, s.lastKnowledgeCommit with
    | some head, some last =>
      if head ≠ last then pure (some (.commitMismatch last head))
      else staleness s
    | some head, none => pure (some (.commitMismatch "none" head))
    | none, _ => staleness s
where
  staleness (s : SyncState) : SyncM (Option SyncTrigger) := do
    match s.lastSyncAt with
    | none => pure (some .manual)
    | some last =>
      let now ← currentTime env
      if (now - last).tdiv 60 ≥ thresholdMins then pure (some (.staleness last thresholdMins))
      else pure none

def createCheckpoint (env : Env) : SyncM Unit := do
  if containsText env.tenantId "TRIGGER_FAILURE" then
    Eff.fail (.internal "Simulated checkpoint failure")
  else
    let state ← getOrLoadState env
    Eff.modify (fun w => { w with checkpoint := some state })

def World.restore (w : World) (old : SyncState) : World :=
  { w with checkpoint := none, states := some old, working := old }

/-- `rollback`: the in-memory state is restored before the save, which may fail. -/
def rollback (env : Env) : SyncM Unit := do
  let w ← Eff.get
  match w.checkpoint with
  | none => pure ()
  | some old =>
    Eff.modify (·.restore old)
    let answer ← saveWorking env
    orFail .persistence answer

/-- The retry loop around `sync_incremental`. -/
def syncWithRetries (env : Env) : Nat → SyncM Unit
  | 0 => syncIncremental env
  | retries + 1 => do
    match ← (syncIncremental env).attempt with
    | .ok () => pure ()
    | .error _ => syncWithRetries env retries

/-- The end of `run_sync_cycle_body`: count the conflicts, then resolve them. -/
def settleConflicts (env : Env) (conflicts : List SyncConflict) : SyncM Unit :=
  if conflicts.isEmpty then pure ()
  else do
    beginOperation env
    updateWorking (fun s => { s with
      stats := { s.stats with totalConflicts := s.stats.totalConflicts + conflicts.length } })
    updateState
    resolveConflicts env conflicts

def runSyncCycleBody (env : Env) : SyncM Unit := do
  match env.upstreams with
  | some upstreams => syncFederation env upstreams
  | none => pure ()
  syncWithRetries env 3
  pruneFailedItems env 30
  let conflicts ← detectConflicts env
  settleConflicts env conflicts

def runSyncCycleInternal (env : Env) (intervalSecs : Nat) : SyncM Unit := do
  match ← checkTriggers env (intervalSecs / 60 % 2 ^ 32) with
  | none => pure ()
  | some _ =>
    createCheckpoint env
    match ← (runSyncCycleBody env).attempt with
    | .error e =>
      (rollback env).ignore
      Eff.fail e
    | .ok () => (getOrLoadState env).ignore

end Aeterna.Sync
