import Aeterna.Lib.KeyedFold
import Aeterna.Sync.Bridge

open Function List

namespace Aeterna.Sync
open Lib

structure Links where
  (hashes mapping : HashMap String String)
  layers : HashMap String KnowledgeLayer
  memory : MemoryLayer × String → Option String

def linksOf (s : SyncState) (memory : MemoryStore) : Links where
  hashes := s.knowledgeHashes
  mapping := s.pointerMapping
  layers := s.knowledgeLayers
  memory key := (memory key).map (·.content)

def World.links (w : World) : Links := linksOf w.working w.memory

/-- The tenant's state as the next operation loads it. -/
def World.current (w : World) : SyncState := w.states.getD (w.persisted.getD {})

variable (env : Env)

def syncedHash (entry : KnowledgeEntry) : String :=
  env.contentHash.digest (redactPii env.decimalDigit entry.content)

def syncedSummary (entry : KnowledgeEntry) : String :=
  generateSummary entry (redactPii env.decimalDigit entry.content)

def Links.record (entry : KnowledgeEntry) (l : Links) : Links where
  hashes := l.hashes.insert entry.path (syncedHash env entry)
  mapping := l.mapping.insert (pointerId entry.path) entry.path
  layers := l.layers.insert entry.path entry.layer
  memory := update l.memory (mapLayer entry.layer, pointerId entry.path)
    (some (syncedSummary env entry))

def Writes (recorded : Option String) (entry : KnowledgeEntry) : Prop :=
  simulatesFailure entry.path = false ∧ recorded ≠ some (syncedHash env entry)

instance (recorded : Option String) (entry : KnowledgeEntry) : Decidable (Writes env recorded entry) :=
  inferInstanceAs (Decidable (_ ∧ _))

def Links.settle (l : Links) (entry : KnowledgeEntry) : Links :=
  if Writes env (l.hashes.lookup entry.path) entry then l.record env entry else l

def Passes (result : ValidationResult) : Prop := result.isValid = true ∨ result.firstBlock = none

/-- No call fails and governance blocks nothing. -/
structure Env.Clean : Prop where
  faultless : ∀ n, env.fault n = none
  remotePasses : ∀ client, env.governanceClient = some client → ∀ n context, Passes (client n context)
  localPasses : ∀ n context, Passes (env.checkConstraints n context)

/-- Everything outside the links, the statistics and the call counter is as before. -/
structure SameRecords (w next : World) : Prop where
  states : next.states = w.states
  persisted : next.persisted = w.persisted
  checkpoint : next.checkpoint = w.checkpoint
  failedItems : next.working.failedItems = w.working.failedItems
  lastKnowledgeCommit : next.working.lastKnowledgeCommit = w.working.lastKnowledgeCommit
  deadLetters : next.deadLetters = w.deadLetters

theorem SameRecords.refl (w : World) : SameRecords w w := ⟨rfl, rfl, rfl, rfl, rfl, rfl⟩

theorem SameRecords.trans {a b c : World} (first : SameRecords a b) (second : SameRecords b c) : SameRecords a c :=
  ⟨second.states.trans first.states, second.persisted.trans first.persisted,
    second.checkpoint.trans first.checkpoint, second.failedItems.trans first.failedItems,
    second.lastKnowledgeCommit.trans first.lastKnowledgeCommit,
    second.deadLetters.trans first.deadLetters⟩

variable {env}

theorem external_clean (clean : env.Clean) {α : Type} (answer : World → α) (w : World) :
    external env answer w = (.ok (.ok (answer w)), w.advance) := by
  simp [external, clean.faultless]

theorem callMemory_clean (clean : env.Clean) (call : MemoryCall) (w : World) :
    callMemory env call w = (.ok (.ok ()), (w.land call).advance) := by
  simp [callMemory, clean.faultless]

theorem enforceValidation_passes {result : ValidationResult} (passes : Passes result) (label : String)
    (entry : KnowledgeEntry) (w : World) :
    ∃ next, enforceValidation env label entry result w = (.ok (), next) ∧
      next.links = w.links ∧ SameRecords w next := by
  unfold enforceValidation
  by_cases valid : result.isValid = true
  · exact ⟨w, by simp [valid], rfl, .refl w⟩
  · have unblocked : result.firstBlock = none := passes.resolve_left valid
    simp only [valid, unblocked, Bool.false_eq_true, if_false]
    exact ⟨_, rfl, rfl, ⟨rfl, rfl, rfl, rfl, rfl, rfl⟩⟩

theorem SameRecords.advance (w : World) : SameRecords w w.advance := ⟨rfl, rfl, rfl, rfl, rfl, rfl⟩

theorem validateRemotely_clean (clean : env.Clean) (entry : KnowledgeEntry) (content : String) (w : World) :
    ∃ next, validateRemotely env entry content w = (.ok (), next) ∧ next.links = w.links ∧ SameRecords w next := by
  cases configured : env.governanceClient with
  | none => exact ⟨w, by simp [validateRemotely, configured], rfl, .refl w⟩
  | some client =>
    by_cases remote : env.mode = "hybrid" ∨ env.mode = "remote"
    · obtain ⟨next, run, links, same⟩ := @enforceValidation_passes env _
        (clean.remotePasses client configured w.tick ⟨entry.path, content, entry.layer⟩)
        "Remote governance violation (BLOCK): " entry w.advance
      refine ⟨next, ?_, links, (SameRecords.advance w).trans same⟩
      simp only [validateRemotely, configured, remote, if_true]
      rw [Eff.bind_of_ok (external_clean clean _ w)]
      exact run
    · exact ⟨w, by simp [validateRemotely, configured, remote], rfl, .refl w⟩

theorem validateLocally_clean (clean : env.Clean) (entry : KnowledgeEntry) (w : World) :
    ∃ next, validateLocally env entry w = (.ok (), next) ∧ next.links = w.links ∧ SameRecords w next := by
  unfold validateLocally
  split
  · exact ⟨w, rfl, rfl, .refl w⟩
  · obtain ⟨next, run, links, same⟩ := @enforceValidation_passes env _
      (clean.localPasses w.tick ⟨entry.path, entry.content, entry.layer⟩)
      "Governance violation (BLOCK): " entry w.advance
    refine ⟨next, ?_, links, (SameRecords.advance w).trans same⟩
    rw [Eff.bind_of_ok (external_clean clean _ w)]
    exact run

theorem land_memory (w : World) (call : MemoryCall) (key : MemoryLayer × String) :
    ((w.land call).memory key).map (·.content) = update (fun key => (w.memory key).map (·.content)) call.key
        (call.stored.map (·.content)) key := by
  by_cases own : key = call.key
  · subst own
    simp [World.land]
  · simp [World.land, update_of_ne own]

theorem writePointer_clean (clean : env.Clean) (entry : KnowledgeEntry) (w : World) :
    ∃ next, writePointer env entry (redactPii env.decimalDigit entry.content) w = (.ok (), next) ∧
      next.links = (if w.links.hashes.lookup entry.path = some (syncedHash env entry) then w.links
        else w.links.record env entry) ∧ SameRecords w next := by
  by_cases recorded : w.links.hashes.lookup entry.path = some (syncedHash env entry)
  · refine ⟨w, ?_, by rw [if_pos recorded], .refl w⟩
    unfold writePointer
    rw [Eff.bind_of_ok (Eff.get_run w)]
    exact congrFun (if_pos recorded) w
  · rw [if_neg recorded]
    have written : writePointer env entry (redactPii env.decimalDigit entry.content) w = (.ok (),
        { (w.land (.add (pointerMemory env entry (redactPii env.decimalDigit entry.content)
          (env.now w.tick)))).advance with working := w.working.recordPointer entry (syncedHash env entry) }) := by
      unfold writePointer
      rw [Eff.bind_of_ok (Eff.get_run w)]
      refine (congrFun (if_neg recorded) w).trans ?_
      rw [Eff.bind_of_ok (show currentTime env w = (.ok (env.now w.tick), w) from rfl),
        Eff.bind_of_ok (callMemory_clean clean _ w)]
      rfl
    refine ⟨_, written, ?_, ⟨rfl, rfl, rfl, rfl, rfl, rfl⟩⟩
    simp only [World.links, linksOf, Links.record, Links.mk.injEq]
    refine ⟨rfl, rfl, rfl, funext fun key => ?_⟩
    exact land_memory w _ key

theorem syncEntry_clean (clean : env.Clean) (entry : KnowledgeEntry) (w : World) : ∃ next, syncEntry env entry w =
        (if simulatesFailure entry.path then .error (.internal "Simulated entry sync failure") else .ok (), next) ∧
      next.links = w.links.settle env entry ∧ SameRecords w next := by
  unfold syncEntry
  by_cases simulated : simulatesFailure entry.path = true
  · exact ⟨w, by simp [simulated], by simp [Links.settle, Writes, simulated], .refl w⟩
  · have real : simulatesFailure entry.path = false := Bool.eq_false_iff.mpr simulated
    obtain ⟨w₁, run₁, links₁, same₁⟩ := validateRemotely_clean clean entry
      (redactPii env.decimalDigit entry.content) w
    obtain ⟨w₂, run₂, links₂, same₂⟩ := validateLocally_clean clean entry w₁
    obtain ⟨w₃, run₃, links₃, same₃⟩ := writePointer_clean clean entry w₂
    refine ⟨w₃, ?_, ?_, (same₁.trans same₂).trans same₃⟩
    · simp only [real, Bool.false_eq_true, if_false]
      rw [Eff.bind_of_ok run₁, Eff.bind_of_ok run₂, run₃]
    · rw [links₃, links₂, links₁, Links.settle]
      by_cases recorded : w.links.hashes.lookup entry.path = some (syncedHash env entry)
      · simp [Writes, recorded]
      · simp [Writes, recorded, real]

theorem attemptEntry_clean (clean : env.Clean) (entry : KnowledgeEntry) (w : World) :
    ∃ attempt next, attemptEntry env entry w = (.ok attempt, next) ∧
      next.links = w.links.settle env entry ∧ SameRecords w next := by
  obtain ⟨next, run, links, same⟩ := syncEntry_clean clean entry w
  unfold attemptEntry
  rw [Eff.bind_of_ok (Eff.attempt_run _ w), run]
  cases simulatesFailure entry.path with
  | true => exact ⟨_, next, rfl, links, same⟩
  | false => exact ⟨_, next, rfl, links, same⟩

theorem syncEntries_clean (clean : env.Clean) (entries : List KnowledgeEntry) (w : World) :
    ∃ attempts next, syncEntries env entries w = (.ok attempts, next) ∧
      next.links = entries.foldl (Links.settle env) w.links ∧ SameRecords w next := by
  induction entries generalizing w with
  | nil => exact ⟨[], w, rfl, rfl, .refl w⟩
  | cons entry rest ih =>
    obtain ⟨attempt, w₁, run₁, links₁, same₁⟩ := attemptEntry_clean clean entry w
    obtain ⟨others, w₂, run₂, links₂, same₂⟩ := ih w₁
    refine ⟨attempt :: others, w₂, ?_, ?_, same₁.trans same₂⟩
    · unfold syncEntries
      rw [Eff.bind_of_ok run₁, Eff.bind_of_ok run₂]
      rfl
    · rw [links₂, links₁, foldl_cons]

/-- The repository does not change while the operation runs. -/
def Env.Steady (env : Env) (knowledge : Knowledge) : Prop := ∀ n, env.knowledge n = knowledge

variable {knowledge : Knowledge}

section
variable (clean : env.Clean) (steady : env.Steady knowledge)
include clean steady

theorem syncLayer_clean (layer : KnowledgeLayer) (w : World) :
    ∃ attempts next, syncLayer env layer w = (.ok attempts, next) ∧
      next.links = (knowledge.list layer).foldl (Links.settle env) w.links ∧ SameRecords w next := by
  obtain ⟨attempts, next, run, links, same⟩ := syncEntries_clean clean (knowledge.list layer) w.advance
  refine ⟨{ knowledgeId := "layer:" ++ layer.debug, failure := none } :: attempts, next, ?_, links,
    (SameRecords.advance w).trans same⟩
  unfold syncLayer
  rw [Eff.bind_of_ok (external_clean clean _ w), steady w.tick]
  exact Eff.bind_of_ok run

theorem syncLayers_clean (layers : List KnowledgeLayer) (w : World) :
    ∃ attempts next, syncLayers env layers w = (.ok attempts, next) ∧
      next.links = (layers.flatMap knowledge.list).foldl (Links.settle env) w.links ∧
      SameRecords w next := by
  induction layers generalizing w with
  | nil => exact ⟨[], w, rfl, rfl, .refl w⟩
  | cons layer rest ih =>
    obtain ⟨attempts, w₁, run₁, links₁, same₁⟩ := syncLayer_clean clean steady layer w
    obtain ⟨others, w₂, run₂, links₂, same₂⟩ := ih w₁
    refine ⟨attempts ++ others, w₂, ?_, ?_, same₁.trans same₂⟩
    · unfold syncLayers
      rw [Eff.bind_of_ok run₁, Eff.bind_of_ok run₂]
      rfl
    · rw [links₂, links₁, flatMap_cons, foldl_append]

theorem headCommit_clean (w : World) : headCommit env w = (.ok knowledge.headCommit, w.advance) := by
  unfold headCommit
  rw [Eff.bind_of_ok (external_clean clean _ w), steady w.tick]
  rfl

end

theorem mergeSyncErrors_run (env : Env) (failures : List SyncFailure) (w : World) :
    ∃ next, mergeSyncErrors env failures w = (.ok (), next) ∧ next.links = w.links ∧
      next.memory = w.memory ∧ next.states = w.states ∧ next.persisted = w.persisted ∧
      next.checkpoint = w.checkpoint ∧
      next.working.lastKnowledgeCommit = w.working.lastKnowledgeCommit := by
  induction failures generalizing w with
  | nil => exact ⟨w, rfl, rfl, rfl, rfl, rfl, rfl, rfl⟩
  | cons failure rest ih =>
    have step : ∃ next, mergeSyncError env failure w = (.ok (), next) ∧ next.links = w.links ∧
        next.memory = w.memory ∧ next.states = w.states ∧ next.persisted = w.persisted ∧
        next.checkpoint = w.checkpoint ∧
        next.working.lastKnowledgeCommit = w.working.lastKnowledgeCommit := by
      unfold mergeSyncError
      rw [Eff.bind_of_ok (Eff.get_run w)]
      simp only
      split
      · exact ⟨_, rfl, rfl, rfl, rfl, rfl, rfl, rfl⟩
      · exact ⟨_, rfl, rfl, rfl, rfl, rfl, rfl, rfl⟩
    obtain ⟨w₁, run₁, links₁, memory₁, states₁, persisted₁, checkpoint₁, commit₁⟩ := step
    obtain ⟨w₂, run₂, links₂, memory₂, states₂, persisted₂, checkpoint₂, commit₂⟩ := ih w₁
    refine ⟨w₂, ?_, links₂.trans links₁, memory₂.trans memory₁, states₂.trans states₁,
      persisted₂.trans persisted₁, checkpoint₂.trans checkpoint₁, commit₂.trans commit₁⟩
    unfold mergeSyncErrors Eff.forEach
    rw [Eff.bind_of_ok run₁]
    exact run₂

def Published (w : World) : Prop := w.states = some w.working ∧ w.persisted = some w.working

theorem Published.current {w : World} (published : Published w) : w.current = w.working := by
  simp [World.current, published.1]

section
variable (clean : env.Clean)
include clean

theorem persistWorking_clean (w : World) : ∃ next, persistWorking env w = (.ok (), next) ∧ next.working = w.working ∧
      next.memory = w.memory ∧ Published next := by
  refine ⟨{ w with persisted := some w.working, tick := w.tick + 1, states := some w.working },
    ?_, rfl, rfl, rfl, rfl⟩
  unfold persistWorking
  rw [Eff.bind_of_ok (show saveWorking env w = (.ok (.ok ()), { w with persisted := some w.working }.advance)
    by simp [saveWorking, clean.faultless])]
  rfl

theorem finishSync_clean (head : Option String) (attempts : List Attempt) (w : World) :
    ∃ next, finishSync env head attempts w = (.ok (), next) ∧ next.links = w.links ∧
      next.working.lastKnowledgeCommit = head ∧ Published next := by
  obtain ⟨w₁, run₁, links₁, -, -, -, -, commit₁⟩ := mergeSyncErrors_run env (attempts.filterMap (·.failure))
    { w with working := { w.working with lastSyncAt := some (env.now w.tick), lastKnowledgeCommit := head } }
  obtain ⟨w₂, run₂, working₂, memory₂, published⟩ := persistWorking_clean clean
    { w₁ with working := { w₁.working with stats := { w₁.working.stats with
      totalSyncs := w₁.working.stats.totalSyncs + 1, avgSyncDurationMs := env.elapsedMillis w₁.tick } } }
  refine ⟨w₂, ?_, ?_, ?_, published⟩
  · unfold finishSync
    rw [Eff.bind_of_ok (show currentTime env w = (.ok (env.now w.tick), w) from rfl)]
    exact (Eff.bind_of_ok (Eff.modify_run _ w)).trans
      ((Eff.bind_of_ok run₁).trans ((Eff.bind_of_ok (Eff.modify_run _ w₁)).trans run₂))
  · have kept : w₂.links = w₁.links := by
      simp only [World.links, working₂, memory₂]
      rfl
    exact kept.trans links₁
  · rw [working₂]
    exact commit₁

theorem getOrLoadState_clean (w : World) :
    ∃ next, getOrLoadState env w = (.ok w.current, next) ∧ next.states = some w.current ∧
      next.working = w.working ∧ next.memory = w.memory ∧ next.persisted = w.persisted := by
  unfold getOrLoadState
  rw [Eff.bind_of_ok (Eff.get_run w)]
  cases cached : w.states with
  | some state =>
    have current : w.current = state := by simp [World.current, cached]
    exact ⟨w, by rw [current]; rfl, by rw [cached, current], rfl, rfl, rfl⟩
  | none =>
    have current : w.current = w.persisted.getD {} := by simp [World.current, cached]
    refine ⟨{ w.advance with states := some w.current }, ?_, rfl, rfl, rfl, rfl⟩
    simp only [loadPersisted]
    rw [Eff.bind_of_ok (external_clean clean _ w), current]
    rfl

theorem beginOperation_clean (w : World) : ∃ next, beginOperation env w = (.ok (), next) ∧ next.working = w.current ∧
      next.memory = w.memory ∧ next.states = some w.current := by
  obtain ⟨w₁, run₁, states, -, memory, -⟩ := getOrLoadState_clean clean w
  refine ⟨{ w₁ with working := w.current }, ?_, rfl, memory, states⟩
  unfold beginOperation
  rw [Eff.bind_of_ok run₁]
  rfl

theorem syncAllInternal_clean (steady : env.Steady knowledge) (w : World) :
    ∃ next, syncAllInternal env w = (.ok (), next) ∧ next.links = knowledge.visited.foldl (Links.settle env) w.links ∧
      next.working.lastKnowledgeCommit = knowledge.headCommit ∧ Published next := by
  obtain ⟨attempts, w₁, run₁, links₁, -⟩ := syncLayers_clean clean steady KnowledgeLayer.walk w.advance
  obtain ⟨w₂, run₂, links₂, commit, published⟩ := finishSync_clean clean knowledge.headCommit attempts w₁
  refine ⟨w₂, ?_, ?_, commit, published⟩
  · unfold syncAllInternal
    rw [Eff.bind_of_ok (headCommit_clean clean steady w), Eff.bind_of_ok run₁, run₂]
  · rw [links₂, links₁]
    rfl

theorem syncAll_clean (steady : env.Steady knowledge) (w : World) : ∃ next, syncAll env w = (.ok (), next) ∧
      next.links = knowledge.visited.foldl (Links.settle env) (linksOf w.current w.memory) ∧
      next.working.lastKnowledgeCommit = knowledge.headCommit ∧ Published next := by
  obtain ⟨w₁, run₁, working, memory, -⟩ := beginOperation_clean clean w
  obtain ⟨w₂, run₂, links₂, commit, published⟩ := syncAllInternal_clean clean steady w₁
  refine ⟨w₂, ?_, ?_, commit, published⟩
  · unfold syncAll
    rw [Eff.bind_of_ok run₁, run₂]
  · rw [links₂, World.links, working, memory]

end

def Links.forget (knowledgeId memoryId : String) (l : Links) : Links :=
  { l with
    hashes := l.hashes.erase knowledgeId
    mapping := l.mapping.erase memoryId
    layers := l.layers.erase knowledgeId }

def Links.deleteMemory (layer : MemoryLayer) (memoryId : String) (l : Links) : Links :=
  { l with memory := update l.memory (layer, memoryId) none }

theorem forget_run (path memoryId : String) (w : World) :
    ∃ next, updateWorking (·.forget path memoryId) w = (.ok (), next) ∧
      next.links = w.links.forget path memoryId ∧ SameRecords w next :=
  ⟨_, rfl, rfl, ⟨rfl, rfl, rfl, rfl, rfl, rfl⟩⟩

theorem deleteMemory_clean (clean : env.Clean) (layer : MemoryLayer) (memoryId : String) (w : World) :
    ∃ next, (callMemory env (.delete layer memoryId)).ignore w = (.ok (), next) ∧
      next.links = w.links.deleteMemory layer memoryId ∧ SameRecords w next := by
  refine ⟨(w.land (.delete layer memoryId)).advance, ?_, ?_, ⟨rfl, rfl, rfl, rfl, rfl, rfl⟩⟩
  · rw [Eff.ignore_run, callMemory_clean clean]
  · simp only [World.links, linksOf, Links.deleteMemory, Links.mk.injEq]
    exact ⟨rfl, rfl, rfl, funext fun key => land_memory w _ key⟩

def elsewhere (knowledge : Knowledge) (layer : KnowledgeLayer) (path : String) : Option KnowledgeLayer :=
  (KnowledgeLayer.walk.filter (fun other => other ≠ layer)).find?
    (fun other => (knowledge.get other path).isSome)

variable (env knowledge) in
def Links.pointerConflicts (l : Links) (memoryId knowledgeId : String) : List SyncConflict :=
  let layer := (l.layers.lookup knowledgeId).getD .tenant
  match knowledge.get layer knowledgeId with
  | some entry =>
    entryConflicts env (l.hashes.lookup knowledgeId) memoryId knowledgeId layer entry ++
      memoryConflicts env memoryId knowledgeId entry (.ok (l.memory (mapLayer entry.layer, memoryId)))
  | none =>
    match elsewhere knowledge layer knowledgeId with
    | some other => [.layerMismatch knowledgeId memoryId layer other]
    | none => [.orphanedPointer memoryId knowledgeId]

variable (env knowledge) in
def Links.detect (l : Links) : List SyncConflict :=
  duplicatePointers l.mapping ++
    l.mapping.entries.flatMap (fun binding => l.pointerConflicts env knowledge binding.1 binding.2)

def SyncConflict.About (memoryId path : String) : SyncConflict → Prop
  | .hashMismatch k m _ _ | .missingPointer k m | .orphanedPointer m k | .statusChange k m _
  | .layerMismatch k m _ _ => k = path ∧ m = memoryId
  | .duplicatePointer _ _ | .detectionError _ _ => False

theorem SyncConflict.About.knowledgeId {conflict : SyncConflict} {memoryId path : String}
    (about : conflict.About memoryId path) : conflict.knowledgeId = some path := by
  cases conflict <;> first
    | exact congrArg some about.1
    | exact about.elim

theorem pointerConflicts_about {l : Links} {memoryId path : String} {conflict : SyncConflict}
    (member : conflict ∈ l.pointerConflicts env knowledge memoryId path) :
    conflict.About memoryId path := by
  unfold Links.pointerConflicts at member
  simp only at member
  split at member
  · rename_i entry _
    rcases mem_append.mp member with fromEntry | fromMemory
    · simp only [entryConflicts, mem_append] at fromEntry
      rcases fromEntry with (hash | status) | layer
      · split at hash
        · split at hash
          · rw [mem_singleton.mp hash]
            exact ⟨rfl, rfl⟩
          · simp at hash
        · simp at hash
      · split at status
        · rw [mem_singleton.mp status]
          exact ⟨rfl, rfl⟩
        · simp at status
      · split at layer
        · rw [mem_singleton.mp layer]
          exact ⟨rfl, rfl⟩
        · simp at layer
    · cases stored : l.memory (mapLayer entry.layer, memoryId) with
      | none =>
        rw [stored, memoryConflicts] at fromMemory
        rw [mem_singleton.mp fromMemory]
        exact ⟨rfl, rfl⟩
      | some text =>
        rw [stored, memoryConflicts] at fromMemory
        split at fromMemory
        · rw [mem_singleton.mp fromMemory]
          exact ⟨rfl, rfl⟩
        · simp at fromMemory
  · split at member <;> (rw [mem_singleton.mp member]; exact ⟨rfl, rfl⟩)

theorem getEntry_clean (clean : env.Clean) (steady : env.Steady knowledge) (layer : KnowledgeLayer)
    (path : String) (w : World) :
    getEntry env layer path w = (.ok (.ok (knowledge.get layer path)), w.advance) := by
  unfold getEntry
  rw [external_clean clean, steady w.tick]

/-- A step that only counts calls. -/
structure OnlyTicks (w next : World) : Prop where
  states : next.states = w.states
  persisted : next.persisted = w.persisted
  working : next.working = w.working
  memory : next.memory = w.memory

theorem OnlyTicks.refl (w : World) : OnlyTicks w w := ⟨rfl, rfl, rfl, rfl⟩

theorem OnlyTicks.trans {a b c : World} (first : OnlyTicks a b) (second : OnlyTicks b c) : OnlyTicks a c :=
  ⟨second.states.trans first.states, second.persisted.trans first.persisted,
    second.working.trans first.working, second.memory.trans first.memory⟩

theorem OnlyTicks.advance (w : World) : OnlyTicks w w.advance := ⟨rfl, rfl, rfl, rfl⟩

section
variable (clean : env.Clean) (steady : env.Steady knowledge)
include clean steady

theorem searchLayers_clean (knowledgeId : String) (layers : List KnowledgeLayer) (w : World) :
    ∃ next, searchLayers env knowledgeId layers w =
        (.ok (layers.find? (fun layer => (knowledge.get layer knowledgeId).isSome)), next) ∧
      OnlyTicks w next := by
  induction layers generalizing w with
  | nil => exact ⟨w, rfl, .refl w⟩
  | cons layer rest ih =>
    unfold searchLayers
    rw [Eff.bind_of_ok (getEntry_clean clean steady layer knowledgeId w)]
    cases found : knowledge.get layer knowledgeId with
    | some entry => exact ⟨w.advance, by simp [found], .advance w⟩
    | none =>
      obtain ⟨next, run, ticks⟩ := ih w.advance
      refine ⟨next, ?_, (OnlyTicks.advance w).trans ticks⟩
      simpa [found] using run

theorem detectPointer_clean (s : SyncState) (memoryId knowledgeId : String) (w : World) :
    ∃ next, detectPointer env s memoryId knowledgeId w =
        (.ok ((linksOf s w.memory).pointerConflicts env knowledge memoryId knowledgeId), next) ∧
      OnlyTicks w next := by
  unfold detectPointer Links.pointerConflicts
  simp only [linksOf]
  rw [Eff.bind_of_ok (getEntry_clean clean steady _ knowledgeId w)]
  cases found : knowledge.get ((s.knowledgeLayers.lookup knowledgeId).getD .tenant) knowledgeId with
  | some entry =>
    simp only
    rw [Eff.bind_of_ok (external_clean clean _ w.advance)]
    exact ⟨_, rfl, (OnlyTicks.advance w).trans (.advance _)⟩
  | none =>
    obtain ⟨next, run, ticks⟩ := searchLayers_clean clean steady knowledgeId
      (KnowledgeLayer.walk.filter (fun other => other ≠ (s.knowledgeLayers.lookup knowledgeId).getD .tenant))
      w.advance
    simp only
    rw [Eff.bind_of_ok run]
    refine ⟨next, ?_, (OnlyTicks.advance w).trans ticks⟩
    unfold elsewhere
    cases (KnowledgeLayer.walk.filter (fun other =>
      other ≠ (s.knowledgeLayers.lookup knowledgeId).getD .tenant)).find?
        (fun other => (knowledge.get other knowledgeId).isSome) <;> rfl

theorem detectPointers_clean (s : SyncState) (bindings : List (Σ _ : String, String)) (w : World) :
    ∃ next, detectPointers env s bindings w = (.ok (bindings.flatMap (fun binding =>
          (linksOf s w.memory).pointerConflicts env knowledge binding.1 binding.2)), next) ∧
      OnlyTicks w next := by
  induction bindings generalizing w with
  | nil => exact ⟨w, rfl, .refl w⟩
  | cons binding rest ih =>
    obtain ⟨w₁, run₁, ticks₁⟩ := detectPointer_clean clean steady s binding.1 binding.2 w
    obtain ⟨w₂, run₂, ticks₂⟩ := ih w₁
    refine ⟨w₂, ?_, ticks₁.trans ticks₂⟩
    unfold detectPointers
    rw [Eff.bind_of_ok run₁, Eff.bind_of_ok run₂, ticks₁.memory]
    rfl

theorem detectConflicts_clean (w : World) : ∃ next, detectConflicts env w =
        (.ok ((linksOf w.current w.memory).detect env knowledge), next) ∧
      next.states = some w.current ∧ next.memory = w.memory := by
  obtain ⟨w₁, run₁, states, -, memory, -⟩ := getOrLoadState_clean clean w
  obtain ⟨w₂, run₂, ticks⟩ := detectPointers_clean clean steady w.current
    w.current.pointerMapping.entries w₁
  refine ⟨w₂, ?_, ticks.states.trans states, ticks.memory.trans memory⟩
  unfold detectConflicts
  rw [Eff.bind_of_ok run₁, Eff.bind_of_ok run₂, memory]
  rfl

end

end Aeterna.Sync

namespace Aeterna.Sync
open Lib

@[ext] structure Cell where
  hash : Option String
  layer : Option KnowledgeLayer
  pointer : Option String
  memory : MemoryLayer → Option String

def Links.cell (l : Links) (path : String) : Cell where
  hash := l.hashes.lookup path
  layer := l.layers.lookup path
  pointer := l.mapping.lookup (pointerId path)
  memory layer := l.memory (layer, pointerId path)

variable (env : Env)

def Cell.record (entry : KnowledgeEntry) (c : Cell) : Cell where
  hash := some (syncedHash env entry)
  layer := some entry.layer
  pointer := some entry.path
  memory := update c.memory (mapLayer entry.layer) (some (syncedSummary env entry))

/-- `sync_entry` on the cell of the entry's path. -/
def Cell.settle (c : Cell) (entry : KnowledgeEntry) : Cell :=
  if Writes env c.hash entry then c.record env entry else c

variable {env}

theorem record_cell_same (l : Links) (entry : KnowledgeEntry) :
    (l.record env entry).cell entry.path = (l.cell entry.path).record env entry := by
  ext1
  · simp [Links.cell, Links.record, Cell.record]
  · simp [Links.cell, Links.record, Cell.record]
  · simp [Links.cell, Links.record, Cell.record]
  · funext layer
    by_cases own : layer = mapLayer entry.layer
    · subst own
      simp [Links.cell, Links.record, Cell.record]
    · simp [Links.cell, Links.record, Cell.record, update_of_ne, own]

variable {path other : String} {entries : List KnowledgeEntry}

theorem record_cell_other (l : Links) {entry : KnowledgeEntry} (other : path ≠ entry.path) :
    (l.record env entry).cell path = l.cell path := by
  have pointer : pointerId path ≠ pointerId entry.path := pointerId_injective.ne other
  ext1
  · simp [Links.cell, Links.record, AList.lookup_insert_ne other]
  · simp [Links.cell, Links.record, AList.lookup_insert_ne other]
  · simp [Links.cell, Links.record, AList.lookup_insert_ne pointer]
  · funext layer
    simp [Links.cell, Links.record, update_of_ne, pointer]

theorem Links.settle_eq (l : Links) (entry : KnowledgeEntry) : l.settle env entry =
      if Writes env (l.cell entry.path).hash entry then l.record env entry else l := rfl

theorem settle_keyed : Keyed (fun _ => True) Links.cell (fun entry : KnowledgeEntry => entry.path) (Links.settle env)
    (Cell.settle env) where
  same l entry _ := by
    by_cases writes : Writes env (l.cell entry.path).hash entry
    · rw [Links.settle_eq, if_pos writes, Cell.settle, if_pos writes, record_cell_same]
    · rw [Links.settle_eq, if_neg writes, Cell.settle, if_neg writes]
  other l entry path _ other := by
    unfold Links.settle
    split
    · exact record_cell_other l other
    · rfl

theorem settle_foreign {memoryId : String} (foreign : ∀ path, memoryId ≠ pointerId path)
    (entries : List KnowledgeEntry) (l : Links) :
    (entries.foldl (Links.settle env) l).mapping.lookup memoryId = l.mapping.lookup memoryId ∧
      ∀ layer, (entries.foldl (Links.settle env) l).memory (layer, memoryId) = l.memory (layer, memoryId) := by
  induction entries generalizing l with
  | nil => exact ⟨rfl, fun _ => rfl⟩
  | cons entry rest ih =>
    have step : (l.settle env entry).mapping.lookup memoryId = l.mapping.lookup memoryId ∧
        ∀ layer, (l.settle env entry).memory (layer, memoryId) = l.memory (layer, memoryId) := by
      unfold Links.settle
      split
      · refine ⟨AList.lookup_insert_ne (foreign entry.path), fun layer => ?_⟩
        simp [Links.record, update_of_ne, foreign entry.path]
      · exact ⟨rfl, fun _ => rfl⟩
    obtain ⟨mapping, memory⟩ := ih (l.settle env entry)
    exact ⟨mapping.trans step.1, fun layer => (memory layer).trans (step.2 layer)⟩

def versions (entries : List KnowledgeEntry) (path : String) : List KnowledgeEntry :=
  entries.filter (fun entry => entry.path = path)

theorem settled_cell (entries : List KnowledgeEntry) (l : Links) (path : String) :
    (entries.foldl (Links.settle env) l).cell path = (versions entries path).foldl (Cell.settle env) (l.cell path) :=
  settle_keyed.foldl (fun _ _ => trivial) l path

theorem versions_of_distinct
    (distinct : (entries.map (·.path)).Nodup) {entry : KnowledgeEntry} (member : entry ∈ entries) :
    versions entries entry.path = [entry] :=
  filter_eq_singleton (distinct.of_map _) member (by simp) (fun _ listed same =>
    inj_on_of_nodup_map distinct listed member (by simpa using same))

theorem versions_of_absent (absent : ∀ entry ∈ entries, entry.path ≠ path) : versions entries path = [] :=
  filter_eq_nil_iff.mpr (by simpa using absent)

def Cell.forget (c : Cell) : Cell := { c with hash := none, layer := none, pointer := none }

def Cell.deleteMemory (layer : MemoryLayer) (c : Cell) : Cell :=
  { c with memory := update c.memory layer none }

theorem cell_forget_same (l : Links) (path : String) :
    (l.forget path (pointerId path)).cell path = (l.cell path).forget := by
  simp [Links.cell, Links.forget, Cell.forget]

theorem cell_forget_other (l : Links) (different : other ≠ path) :
    (l.forget path (pointerId path)).cell other = l.cell other := by
  have pointers : pointerId other ≠ pointerId path := pointerId_injective.ne different
  simp [Links.cell, Links.forget, AList.lookup_erase_ne different, AList.lookup_erase_ne pointers]

theorem cell_deleteMemory_same (l : Links) (layer : MemoryLayer) (path : String) :
    (l.deleteMemory layer (pointerId path)).cell path = (l.cell path).deleteMemory layer := by
  ext1
  · rfl
  · rfl
  · rfl
  · funext other
    by_cases own : other = layer
    · subst own
      simp [Links.cell, Links.deleteMemory, Cell.deleteMemory]
    · simp [Links.cell, Links.deleteMemory, Cell.deleteMemory, update_of_ne, own]

theorem cell_deleteMemory_other (l : Links) (layer : MemoryLayer) (different : other ≠ path) :
    (l.deleteMemory layer (pointerId path)).cell other = l.cell other := by
  have pointers : pointerId other ≠ pointerId path := pointerId_injective.ne different
  simp [Links.cell, Links.deleteMemory, update_of_ne, pointers]

def Links.Named (l : Links) : Prop :=
  ∀ memoryId path, l.mapping.lookup memoryId = some path →
    memoryId = pointerId path ∧ simulatesFailure path = false

theorem Links.Named.unique {l : Links} (named : l.Named) (bound : (l.cell path).pointer = some path) :
    l.mapping.entries.filter (fun binding => binding.2 = path) = [⟨pointerId path, path⟩] := by
  refine filter_eq_singleton (List.NodupKeys.nodup l.mapping.nodupKeys)
    (AList.mem_lookup_iff.mp bound) (by simp) ?_
  rintro ⟨memoryId, other⟩ member same
  have equal : other = path := by simpa using same
  subst equal
  rw [(named memoryId other (AList.mem_lookup_iff.mpr member)).1]

end Aeterna.Sync
