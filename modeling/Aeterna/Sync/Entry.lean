import Aeterna.Core.Redaction
import Aeterna.Knowledge.View
import Aeterna.Lib.Effect

/-!
The records of the sync bridge (`sync::state`, `sync::error`).
-/

namespace Aeterna.Sync

structure SyncFailure where
  (knowledgeId error : String)
  failedAt : Int
  retryCount : Nat
  deriving DecidableEq, Repr

structure FederationConflict where
  (upstreamId reason : String)
  detectedAt : Int
  deriving DecidableEq, Repr

structure SyncStats where
  totalSyncs : Nat := 0
  totalItemsSynced : Nat := 0
  totalConflicts : Nat := 0
  totalGovernanceBlocks : Nat := 0
  avgSyncDurationMs : Nat := 0
  deriving DecidableEq, Repr

structure SyncState where
  version : String := "1.0"
  lastSyncAt : Option Int := none
  lastKnowledgeCommit : Option String := none
  knowledgeHashes : HashMap String String := ∅
  pointerMapping : HashMap String String := ∅
  knowledgeLayers : HashMap String KnowledgeLayer := ∅
  failedItems : List SyncFailure := []
  federationConflicts : List FederationConflict := []
  stats : SyncStats := {}

inductive SyncConflict where
  | hashMismatch (knowledgeId memoryId expectedHash actualHash : String)
  | orphanedPointer (memoryId knowledgeId : String)
  | missingPointer (knowledgeId expectedMemoryId : String)
  | duplicatePointer (knowledgeId : String) (memoryIds : List String)
  | statusChange (knowledgeId memoryId : String) (newStatus : KnowledgeStatus)
  | layerMismatch (knowledgeId memoryId : String) (expectedLayer actualLayer : KnowledgeLayer)
  | detectionError (targetId error : String)
  deriving DecidableEq, Repr

def SyncConflict.isDetectionError : SyncConflict → Bool
  | .detectionError _ _ => true
  | _ => false

def SyncConflict.knowledgeId : SyncConflict → Option String
  | .hashMismatch k _ _ _ | .orphanedPointer _ k | .missingPointer k _ | .duplicatePointer k _
  | .statusChange k _ _ | .layerMismatch k _ _ _ => some k
  | .detectionError _ _ => none

inductive SyncTrigger where
  | staleness (lastSyncAt : Int) (thresholdMins : Nat)
  | commitMismatch (lastCommit headCommit : String)
  | manual
  deriving DecidableEq, Repr

inductive SyncError where
  | governanceBlock (message : String)
  | knowledgeManager (message : String)
  | persistence (message : String)
  | internal (message : String)
  | other (message : String)
  deriving DecidableEq, Repr

def SyncError.text : SyncError → String
  | .governanceBlock message => "Governance violation: " ++ message
  | .knowledgeManager message => "Knowledge manager error: " ++ message
  | .persistence message => "State persistence failed: " ++ message
  | .internal message => "Internal error: " ++ message
  | .other message => "Other error: " ++ message

/-- What `DeadLetterQueue::add` is given for a sync item. -/
structure DeadLetterItem where
  (itemType itemId tenantId error : String)
  (retryCount maxRetries : Nat)
  deriving DecidableEq, Repr

def maxSyncRetries : Nat := 5

def pointerId (knowledgeId : String) : String := "ptr_" ++ knowledgeId

theorem pointerId_injective : Function.Injective pointerId :=
  fun _ _ same => (String.append_right_inj "ptr_").mp same

open Lib

structure ValidationContext where
  (path content : String)
  layer : KnowledgeLayer

/-- What `fed.sync_upstream` answers. -/
inductive UpstreamOutcome where
  | synced
  | invalidPath (message : String)
  | failed (message : String)

/-- The configuration of a `SyncManager` and the answers of everything it calls. -/
structure Env where
  mode : String := "local"
  tenantId : String
  decimalDigit : Char → Bool
  contentHash : ContentHash
  knowledge : Nat → Knowledge
  fault : Nat → Option Fault := fun _ => none
  now : Nat → Int := fun _ => 0
  elapsedMillis : Nat → Nat := fun _ => 0
  governanceClient : Option (Nat → ValidationContext → ValidationResult) := none
  checkConstraints : Nat → ValidationContext → ValidationResult := fun _ _ => ⟨true, []⟩
  upstreams : Option (List String) := none
  syncUpstream : Nat → String → UpstreamOutcome := fun _ _ => .synced

inductive MemoryCall where
  | add (entry : MemoryEntry)
  | delete (layer : MemoryLayer) (id : String)

def MemoryCall.key : MemoryCall → MemoryLayer × String
  | .add entry => (entry.layer, entry.id)
  | .delete layer id => (layer, id)

def MemoryCall.stored : MemoryCall → Option MemoryEntry
  | .add entry => some entry
  | .delete _ _ => none

/-- One tenant's share of a `SyncManager`, and the stores it works on. `working` is the local
`SyncState` of the running operation; `landed` lists the memory writes that took effect. -/
structure World where
  states : Option SyncState := none
  persisted : Option SyncState := none
  checkpoint : Option SyncState := none
  working : SyncState := {}
  memory : MemoryStore := fun _ => none
  deadLetters : List DeadLetterItem := []
  landed : List MemoryCall := []
  tick : Nat := 0

abbrev SyncM : Type → Type := Eff World SyncError

def World.advance (w : World) : World := { w with tick := w.tick + 1 }

def World.land (w : World) (call : MemoryCall) : World :=
  { w with memory := Function.update w.memory call.key call.stored, landed := call :: w.landed }

variable (env : Env)

def external {α : Type} (env : Env) (answer : World → α) : SyncM (Except String α) := fun w =>
  match env.fault w.tick with
  | some fault => (.ok (.error fault.message), w.advance)
  | none => (.ok (.ok (answer w)), w.advance)

/-- `add_to_layer` and `delete_from_layer`. -/
def callMemory (call : MemoryCall) : SyncM (Except String Unit) := fun w =>
  match env.fault w.tick with
  | some fault => (.ok (.error fault.message), (if fault.landed then w.land call else w).advance)
  | none => (.ok (.ok ()), (w.land call).advance)

def orFail {α : Type} (wrap : String → SyncError) : Except String α → SyncM α
  | .ok a => pure a
  | .error message => Eff.fail (wrap message)

def currentTime : SyncM Int := fun w => (.ok (env.now w.tick), w)

def updateWorking (f : SyncState → SyncState) : SyncM Unit :=
  Eff.modify (fun w => { w with working := f w.working })

def getEntry (layer : KnowledgeLayer) (path : String) : SyncM (Except String (Option KnowledgeEntry)) :=
  external env (fun w => (env.knowledge w.tick).get layer path)

variable (entry : KnowledgeEntry)

def generateSummary (content : String) : String :=
  "[" ++ entry.kind.debug ++ "] [" ++ entry.status.debug ++ "] " ++ entry.path ++ "\n\n" ++
    firstLine content

/-- The reaction to a validation result, the same for both governance checks but for `label`. -/
def enforceValidation (label : String) (entry : KnowledgeEntry) (result : ValidationResult) : SyncM Unit := do
  if result.isValid then
    pure ()
  else
    updateWorking (fun s =>
      { s with stats := { s.stats with totalGovernanceBlocks := s.stats.totalGovernanceBlocks + 1 } })
    match result.firstBlock with
    | none => pure ()
    | some message =>
      let at_ ← currentTime env
      updateWorking (fun s => { s with
        failedItems := s.failedItems ++ [⟨entry.path, label ++ message, at_, 0⟩] })
      Eff.fail (.governanceBlock message)

def validateRemotely (content : String) : SyncM Unit :=
  match env.governanceClient with
  | some client =>
    if env.mode = "hybrid" ∨ env.mode = "remote" then do
      let answer ← external env (fun w => client w.tick ⟨entry.path, content, entry.layer⟩)
      let result ← orFail (fun message => .internal ("Remote validation failed: " ++ message)) answer
      enforceValidation env "Remote governance violation (BLOCK): " entry result
    else pure ()
  | none => pure ()

def validateLocally : SyncM Unit :=
  if env.mode = "remote" then pure ()
  else do
    let answer ← external env (fun w =>
      env.checkConstraints w.tick ⟨entry.path, entry.content, entry.layer⟩)
    let result ← orFail .knowledgeManager answer
    enforceValidation env "Governance violation (BLOCK): " entry result

def pointerMemory (content : String) (at_ : Int) : MemoryEntry where
  id := pointerId entry.path
  content := generateSummary entry content
  layer := mapLayer entry.layer
  knowledgePointer := some {
    sourceType := entry.kind
    sourceId := entry.path
    contentHash := env.contentHash.digest content
    syncedAt := at_
    sourceLayer := entry.layer
    isOrphaned := false }
  createdAt := at_
  updatedAt := at_

def SyncState.recordPointer (s : SyncState) (entry : KnowledgeEntry) (hash : String) : SyncState :=
  { s with
    knowledgeHashes := s.knowledgeHashes.insert entry.path hash
    pointerMapping := s.pointerMapping.insert (pointerId entry.path) entry.path
    knowledgeLayers := s.knowledgeLayers.insert entry.path entry.layer
    stats := { s.stats with totalItemsSynced := s.stats.totalItemsSynced + 1 } }

/-- The part of `sync_entry` after the governance checks. -/
def writePointer (content : String) : SyncM Unit := do
  let w ← Eff.get
  let hash := env.contentHash.digest content
  if w.working.knowledgeHashes.lookup entry.path = some hash then
    pure ()
  else
    let at_ ← currentTime env
    let answer ← callMemory env (.add (pointerMemory env entry content at_))
    orFail .other answer
    updateWorking (·.recordPointer entry hash)

/-- The test hook in `sync_entry`: such paths always fail. -/
def simulatesFailure (path : String) : Bool := containsText path "TRIGGER_FAILURE"

def syncEntry : SyncM Unit := do
  if simulatesFailure entry.path then
    Eff.fail (.internal "Simulated entry sync failure")
  else
    let content := redactPii env.decimalDigit entry.content
    validateRemotely env entry content
    validateLocally env entry
    writePointer env entry content

end Aeterna.Sync
