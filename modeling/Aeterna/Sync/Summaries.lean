import Aeterna.Sync.Pointers
import Mathlib.Algebra.Group.Int.Defs

namespace Aeterna.Sync
open Lib (Table)
open Lib.Table List

structure SummaryConfig where
  layer : MemoryLayer
  (updateIntervalSecs updateOnChanges : Option Nat)
  depths : List SummaryDepth

inductive SummarySyncTrigger where
  | sourceContentChanged (entryId : String) (layer : MemoryLayer) (previousHash newHash : String)
  | timeThresholdExceeded (entryId : String) (layer : MemoryLayer) (ageSeconds thresholdSeconds : Nat)
  | changeCountExceeded (entryId : String) (layer : MemoryLayer) (changeCount threshold : Nat)
  | manualRefresh (entryId : String) (layer : MemoryLayer)

inductive SummaryUpdateReason where
  | sourceContentChanged | configurationChanged | manualRefresh | scheduledUpdate | personalizationContextChanged

inductive InvalidationReason where
  | sourceContentChanged (previousHash newHash : String)
  | sourceDeleted | configurationChanged | manualInvalidation
  | staleThresholdExceeded (ageSeconds : Nat)
  | parentLayerChanged (parentLayer : MemoryLayer)

inductive SummarySyncEvent where
  | created (entryId : String) (layer : MemoryLayer) (depth : SummaryDepth) (contentHash : String)
      (tokenCount : Nat) (createdAt : Int)
  | updated (entryId : String) (layer : MemoryLayer) (depth : SummaryDepth) (previousHash newHash : String)
      (tokenCount : Nat) (updatedAt : Int) (reason : SummaryUpdateReason)
  | invalidated (entryId : String) (layer : MemoryLayer) (depths : List SummaryDepth)
      (reason : InvalidationReason) (invalidatedAt : Int) (sourceContentHash : Option String)

def childLayers : MemoryLayer → List MemoryLayer
  | .tenant => [.org, .team, .project]
  | .org => [.team, .project]
  | .team => [.project]
  | _ => []

def ageSeconds (now syncedAt : Int) : Nat := ((now - syncedAt) % 2 ^ 64).toNat

structure IncrementalSummarySync where
  configByLayer : Table MemoryLayer SummaryConfig := {}
  changeCounts : Table String Nat := {}

namespace IncrementalSummarySync

def resetChangeCount (entryId : String) (sync : IncrementalSummarySync) : IncrementalSummarySync :=
  { sync with changeCounts := sync.changeCounts.keepOnly (fun key _ => key ≠ entryId) }

def getChangeCount (sync : IncrementalSummarySync) (entryId : String) : Nat :=
  (sync.changeCounts.get entryId).getD 0

section
variable (sync : IncrementalSummarySync) (entryId : String) (layer : MemoryLayer) (currentSourceHash : String)
  (state : SummaryPointerState) (now : Int)

/-- The body of the loop of `check_triggers`, which ends with the first trigger. -/
def depthTrigger (config : SummaryConfig) (depth : SummaryDepth) : Option SummarySyncTrigger :=
  match state.getPointer entryId depth with
  | some ptr =>
    if ptr.sourceContentHash ≠ currentSourceHash then
      some (.sourceContentChanged entryId layer ptr.sourceContentHash currentSourceHash)
    else
      let age := ageSeconds now ptr.syncedAt
      let count := sync.getChangeCount entryId
      ((config.updateIntervalSecs.filter (fun interval => age ≥ interval)).map
          (fun interval => .timeThresholdExceeded entryId layer age interval)).or
        ((config.updateOnChanges.filter (fun threshold => count ≥ threshold)).map
          (fun threshold => .changeCountExceeded entryId layer count threshold))
  | none => some (.manualRefresh entryId layer)

def checkTriggers : List SummarySyncTrigger :=
  match sync.configByLayer.get layer with
  | some config => (config.depths.findSome? (sync.depthTrigger entryId layer currentSourceHash state now config)).toList
  | none => []

/-- The body of the inner loop of `get_entries_needing_sync`. -/
def depthNeedsSync (config : SummaryConfig) (depth : SummaryDepth) : Bool :=
  match state.getPointer entryId depth with
  | some ptr =>
    ptr.isStale || ptr.sourceContentHash ≠ currentSourceHash ||
      config.updateIntervalSecs.any (fun interval => ageSeconds now ptr.syncedAt ≥ interval) ||
      config.updateOnChanges.any (fun threshold => sync.getChangeCount entryId ≥ threshold)
  | none => true

end

def getEntriesNeedingSync (sync : IncrementalSummarySync) (layer : MemoryLayer) (sourceHashes : Table String String)
    (state : SummaryPointerState) (now : Int) : List String :=
  match sync.configByLayer.get layer with
  | some config =>
    (sourceHashes.rows.filter (fun e =>
      config.depths.any (sync.depthNeedsSync e.1 e.2 state now config))).map Prod.fst
  | none => []

def syncSummary (computeContentHash : String → String) (entryId : String) (layer : MemoryLayer)
    (depth : SummaryDepth) (summary : LayerSummary) (sourceContentHash : String) (now : Int)
    (sync : IncrementalSummarySync) (state : SummaryPointerState) :
    Option SummarySyncEvent × IncrementalSummarySync × SummaryPointerState :=
  let contentHash := computeContentHash summary.content
  let ptr := SummaryPointer.new entryId layer depth contentHash sourceContentHash summary.tokenCount now
  match state.getPointer entryId depth with
  | some existing =>
    if existing.contentHash = contentHash ∧ ¬ existing.isStale then (none, sync, state)
    else
      let reason : SummaryUpdateReason :=
        if existing.sourceContentHash ≠ sourceContentHash then .sourceContentChanged
        else if existing.isStale then .scheduledUpdate
        else .manualRefresh
      (some (.updated entryId layer depth existing.contentHash contentHash summary.tokenCount now reason),
        sync.resetChangeCount entryId, state.setPointer ptr)
  | none =>
    (some (.created entryId layer depth contentHash summary.tokenCount now),
      sync.resetChangeCount entryId, state.setPointer ptr)

def invalidateSummariesForLayer (entryId : String) (layer : MemoryLayer) (reason : InvalidationReason) (now : Int)
    (state : SummaryPointerState) : Option SummarySyncEvent × SummaryPointerState :=
  let (count, marked) := state.markStaleForEntryAndLayer entryId layer
  if count = 0 then (none, marked)
  else
    let entry := ((marked.pointers.get entryId).map rows).getD []
    let depths := (entry.filter (fun e => e.2.layer = layer ∧ e.2.isStale)).map Prod.fst
    let sourceHash := (marked.getPointer entryId (depths.head?.getD .sentence)).map (·.sourceContentHash)
    (some (.invalidated entryId layer depths reason now sourceHash), marked)

def invalidateSummariesCascade (sync : IncrementalSummarySync) (entryId : String) (layer : MemoryLayer)
    (reason : InvalidationReason) (now : Int) (state : SummaryPointerState) :
    List SummarySyncEvent × SummaryPointerState :=
  let (first, state) := invalidateSummariesForLayer entryId layer reason now state
  (childLayers layer).foldl (fun (events, state) child =>
    if (sync.configByLayer.get child).isSome then
      let (event, state) := invalidateSummariesForLayer entryId child (.parentLayerChanged layer) now state
      (events ++ event.toList, state)
    else (events, state)) (first.toList, state)

/-- Out of date by its source, by its age or by the changes made since. -/
def Outdated (sync : IncrementalSummarySync) (config : SummaryConfig) (entryId sourceHash : String) (now : Int)
    (ptr : SummaryPointer) : Prop :=
  ptr.sourceContentHash ≠ sourceHash ∨
    (∃ interval, config.updateIntervalSecs = some interval ∧ interval ≤ ageSeconds now ptr.syncedAt) ∨
    ∃ threshold, config.updateOnChanges = some threshold ∧ threshold ≤ sync.getChangeCount entryId

section
variable {sync : IncrementalSummarySync} {config : SummaryConfig} {entryId sourceHash : String} {layer : MemoryLayer}
  {state : SummaryPointerState} {now : Int} {depth : SummaryDepth} {sourceHashes : Table String String}

theorem depthTrigger_isSome : (sync.depthTrigger entryId layer sourceHash state now config depth).isSome ↔
    ∀ ptr, state.getPointer entryId depth = some ptr → sync.Outdated config entryId sourceHash now ptr := by
  unfold depthTrigger Outdated
  cases state.getPointer entryId depth with
  | none => simp
  | some ptr =>
    by_cases changed : ptr.sourceContentHash ≠ sourceHash
    · simp [changed]
    · cases interval : config.updateIntervalSecs <;> cases threshold : config.updateOnChanges <;>
        simp [changed, Option.isSome_or, Option.isSome_filter]

theorem depthNeedsSync_iff : sync.depthNeedsSync entryId sourceHash state now config depth = true ↔
    ∀ ptr, state.getPointer entryId depth = some ptr →
      ptr.isStale ∨ sync.Outdated config entryId sourceHash now ptr := by
  unfold depthNeedsSync Outdated
  cases state.getPointer entryId depth with
  | none => simp
  | some ptr =>
    cases interval : config.updateIntervalSecs <;> cases threshold : config.updateOnChanges <;>
      simp [or_assoc]

theorem checkTriggers_ne_nil (configured : sync.configByLayer.get layer = some config) :
    sync.checkTriggers entryId layer sourceHash state now ≠ [] ↔ ∃ depth ∈ config.depths,
      ∀ ptr, state.getPointer entryId depth = some ptr → sync.Outdated config entryId sourceHash now ptr := by
  have filled : ∀ found : Option SummarySyncTrigger, found.toList ≠ [] ↔ found.isSome := by
    intro found
    cases found <;> simp
  unfold checkTriggers
  rw [configured]
  dsimp only
  rw [filled, findSome?_isSome_iff]
  simp only [depthTrigger_isSome]

theorem mem_getEntriesNeedingSync (configured : sync.configByLayer.get layer = some config)
    (listed : sourceHashes.get entryId = some sourceHash) :
    entryId ∈ sync.getEntriesNeedingSync layer sourceHashes state now ↔ ∃ depth ∈ config.depths,
      ∀ ptr, state.getPointer entryId depth = some ptr →
        ptr.isStale ∨ sync.Outdated config entryId sourceHash now ptr := by
  unfold getEntriesNeedingSync
  rw [configured, mem_map]
  simp only [← depthNeedsSync_iff, ← any_eq_true]
  constructor
  · rintro ⟨e, inside, rfl⟩
    obtain ⟨member, needs⟩ := mem_filter.mp inside
    rw [get_eq_some.mpr member] at listed
    cases listed
    exact needs
  · intro needs
    exact ⟨(entryId, sourceHash), mem_filter.mpr ⟨get_eq_some.mp listed, needs⟩, rfl⟩

/-- A stale pointer is a need, but no trigger. -/
theorem triggers_agree_iff (listed : sourceHashes.get entryId = some sourceHash) :
    (sync.checkTriggers entryId layer sourceHash state now ≠ [] ↔
        entryId ∈ sync.getEntriesNeedingSync layer sourceHashes state now) ↔
      ∀ config, sync.configByLayer.get layer = some config →
        (∃ depth ∈ config.depths, ∃ ptr, state.getPointer entryId depth = some ptr ∧ ptr.isStale) →
          ∃ depth ∈ config.depths, ∀ ptr, state.getPointer entryId depth = some ptr →
            sync.Outdated config entryId sourceHash now ptr := by
  cases configured : sync.configByLayer.get layer with
  | none => simp [checkTriggers, getEntriesNeedingSync, configured]
  | some config =>
    rw [checkTriggers_ne_nil configured, mem_getEntriesNeedingSync configured listed]
    constructor
    · intro agree other same stale
      cases same
      obtain ⟨depth, member, ptr, held, flag⟩ := stale
      apply agree.mpr
      refine ⟨depth, member, fun found same => Or.inl ?_⟩
      rw [held] at same
      cases same
      exact flag
    · intro covered
      constructor
      · rintro ⟨depth, member, outdated⟩
        exact ⟨depth, member, fun ptr held => Or.inr (outdated ptr held)⟩
      · rintro ⟨depth, member, needs⟩
        cases held : state.getPointer entryId depth with
        | none =>
          refine ⟨depth, member, fun ptr found => ?_⟩
          rw [held] at found
          cases found
        | some ptr =>
          rcases needs ptr held with stale | outdated
          · exact covered config rfl ⟨depth, member, ptr, held, stale⟩
          · refine ⟨depth, member, fun found same => ?_⟩
            rw [held] at same
            cases same
            exact outdated

def projectSync : IncrementalSummarySync where
  configByLayer := empty.upsert .project ⟨.project, none, none, [.sentence]⟩ id

def projectPointers : SummaryPointerState :=
  SummaryPointerState.setPointer (.new "e" .project .sentence "c" "s" 50 0) {}

theorem triggers_agree_fresh : projectSync.checkTriggers "e" .project "s" projectPointers 0 ≠ [] ↔
    "e" ∈ projectSync.getEntriesNeedingSync .project (empty.upsert "e" "s" id) projectPointers 0 := by
  apply (triggers_agree_iff rfl).mpr
  intro config configured stale
  cases configured
  obtain ⟨depth, member, ptr, held, flag⟩ := stale
  cases mem_singleton.mp member
  cases held
  cases flag

theorem cascade_triggers_nothing : ¬ (projectSync.checkTriggers "e" .project "s"
          (projectSync.invalidateSummariesCascade "e" .team .manualInvalidation 0 projectPointers).2 0 ≠ [] ↔
        "e" ∈ projectSync.getEntriesNeedingSync .project (empty.upsert "e" "s" id)
          (projectSync.invalidateSummariesCascade "e" .team .manualInvalidation 0 projectPointers).2 0) := by
  intro agree
  have needed : "e" ∈ projectSync.getEntriesNeedingSync .project (empty.upsert "e" "s" id)
      (projectSync.invalidateSummariesCascade "e" .team .manualInvalidation 0 projectPointers).2 0 := by
    decide +kernel
  exact agree.mpr needed rfl

end

/-- Whether `sync_summary` writes a pointer: it does not where the content is what it was. -/
def writes (existing : Option SummaryPointer) (contentHash : String) : Bool :=
  existing.all (fun ptr => ptr.contentHash ≠ contentHash || ptr.isStale)

structure CurrentPointer (sourceHash : String) (now : Int) (ptr : SummaryPointer) : Prop where
  source : ptr.sourceContentHash = sourceHash
  synced : ptr.syncedAt = now
  fresh : ptr.isStale = false

section
variable (computeContentHash : String → String) (entryId : String) (layer : MemoryLayer) (sourceHash : String)
  (now : Int) (calls : List (SummaryDepth × LayerSummary))

def syncDepths (held : IncrementalSummarySync × SummaryPointerState) : IncrementalSummarySync × SummaryPointerState :=
  calls.foldl (fun held call =>
    (syncSummary computeContentHash entryId layer call.1 call.2 sourceHash now held.1 held.2).2) held

/-- Some call for the depth writes over its pointer. -/
def renews (existing : Option SummaryPointer) (depth : SummaryDepth) : Bool :=
  calls.any (fun call => call.1 = depth && writes existing (computeContentHash call.2.content))

end

section
variable {computeContentHash : String → String} {entryId : String} {layer : MemoryLayer} {sourceHash : String}
  {now : Int} {calls : List (SummaryDepth × LayerSummary)} {depth : SummaryDepth}
  {held : IncrementalSummarySync × SummaryPointerState}

theorem syncSummary_skips {summary : LayerSummary}
    (same : writes (held.2.getPointer entryId depth) (computeContentHash summary.content) = false) :
    (syncSummary computeContentHash entryId layer depth summary sourceHash now held.1 held.2).2 = held := by
  unfold writes at same
  unfold syncSummary
  cases found : held.2.getPointer entryId depth with
  | none =>
    rw [found] at same
    cases same
  | some ptr =>
    rw [found] at same
    have skipped : ptr.contentHash = computeContentHash summary.content ∧ ¬ ptr.isStale := by simpa using same
    dsimp only
    rw [if_pos skipped]

theorem syncSummary_writes {summary : LayerSummary}
    (anew : writes (held.2.getPointer entryId depth) (computeContentHash summary.content) = true) :
    (syncSummary computeContentHash entryId layer depth summary sourceHash now held.1 held.2).2 =
      (held.1.resetChangeCount entryId, held.2.setPointer (.new entryId layer depth
        (computeContentHash summary.content) sourceHash summary.tokenCount now)) := by
  unfold writes at anew
  unfold syncSummary
  cases found : held.2.getPointer entryId depth with
  | none => rfl
  | some ptr =>
    rw [found] at anew
    have written : ¬ (ptr.contentHash = computeContentHash summary.content ∧ ¬ ptr.isStale) := by
      intro skipped
      simp [skipped.1, skipped.2] at anew
    dsimp only
    rw [if_neg written]

theorem current_new (contentHash : String) (tokenCount : Nat) : CurrentPointer sourceHash now
    (.new entryId layer depth contentHash sourceHash tokenCount now) := ⟨rfl, rfl, rfl⟩

theorem getPointer_setNew (state : SummaryPointerState) (written : SummaryDepth) (contentHash : String) (tokenCount : Nat) :
    (state.setPointer (.new entryId layer written contentHash sourceHash tokenCount now)).getPointer entryId depth =
      if depth = written then some (.new entryId layer written contentHash sourceHash tokenCount now)
      else state.getPointer entryId depth := by
  rw [SummaryPointerState.getPointer_setPointer]
  simp [SummaryPointer.new]

theorem syncDepths_cons (call : SummaryDepth × LayerSummary) :
    syncDepths computeContentHash entryId layer sourceHash now (call :: calls) held =
      syncDepths computeContentHash entryId layer sourceHash now calls
        (syncSummary computeContentHash entryId layer call.1 call.2 sourceHash now held.1 held.2).2 := rfl

variable (computeContentHash entryId layer sourceHash now)

theorem syncSummary_pointer (depth : SummaryDepth) (held : IncrementalSummarySync × SummaryPointerState)
    (call : SummaryDepth × LayerSummary) :
    if call.1 = depth && writes (held.2.getPointer entryId depth) (computeContentHash call.2.content) then
      ∃ ptr, (syncSummary computeContentHash entryId layer call.1 call.2 sourceHash now held.1
        held.2).2.2.getPointer entryId depth = some ptr ∧ CurrentPointer sourceHash now ptr
    else
      (syncSummary computeContentHash entryId layer call.1 call.2 sourceHash now held.1
        held.2).2.2.getPointer entryId depth = held.2.getPointer entryId depth := by
  cases anew : writes (held.2.getPointer entryId call.1) (computeContentHash call.2.content) with
  | false =>
    rw [syncSummary_skips anew]
    by_cases here : call.1 = depth
    · subst here
      simp [anew]
    · simp [here]
  | true =>
    rw [syncSummary_writes anew, getPointer_setNew]
    by_cases here : call.1 = depth
    · subst here
      rw [anew]
      simp [current_new]
    · simp [here, Ne.symm here]

theorem syncDepths_current (calls : List (SummaryDepth × LayerSummary))
    (current : ∃ ptr, held.2.getPointer entryId depth = some ptr ∧ CurrentPointer sourceHash now ptr) :
    ∃ ptr, (syncDepths computeContentHash entryId layer sourceHash now calls held).2.getPointer entryId depth =
      some ptr ∧ CurrentPointer sourceHash now ptr := by
  induction calls generalizing held with
  | nil => exact current
  | cons call rest ih =>
    rw [syncDepths_cons]
    apply ih
    have step := syncSummary_pointer computeContentHash entryId layer sourceHash now depth held call
    split at step
    · exact step
    · rw [step]
      exact current

theorem syncDepths_pointer (calls : List (SummaryDepth × LayerSummary)) (depth : SummaryDepth)
    (held : IncrementalSummarySync × SummaryPointerState) :
    if renews computeContentHash calls (held.2.getPointer entryId depth) depth then
      ∃ ptr, (syncDepths computeContentHash entryId layer sourceHash now calls held).2.getPointer entryId depth =
        some ptr ∧ CurrentPointer sourceHash now ptr
    else
      (syncDepths computeContentHash entryId layer sourceHash now calls held).2.getPointer entryId depth =
        held.2.getPointer entryId depth := by
  induction calls generalizing held with
  | nil => exact if_neg Bool.false_ne_true ▸ rfl
  | cons call rest ih =>
    have head : renews computeContentHash (call :: rest) (held.2.getPointer entryId depth) depth =
        (call.1 = depth && writes (held.2.getPointer entryId depth) (computeContentHash call.2.content) ||
          renews computeContentHash rest (held.2.getPointer entryId depth) depth) := any_cons
    have step := syncSummary_pointer computeContentHash entryId layer sourceHash now depth held call
    rw [head, syncDepths_cons]
    split at step
    · rename_i anew
      rw [anew, Bool.true_or, if_pos rfl]
      exact syncDepths_current computeContentHash entryId layer sourceHash now rest step
    · rename_i idle
      rw [Bool.eq_false_of_not_eq_true idle, Bool.false_or, ← step]
      exact ih _

theorem syncDepths_config (calls : List (SummaryDepth × LayerSummary))
    (held : IncrementalSummarySync × SummaryPointerState) :
    (syncDepths computeContentHash entryId layer sourceHash now calls held).1.configByLayer =
      held.1.configByLayer := by
  induction calls generalizing held with
  | nil => rfl
  | cons call rest ih =>
    rw [syncDepths_cons, ih]
    cases anew : writes (held.2.getPointer entryId call.1) (computeContentHash call.2.content) with
    | false => rw [syncSummary_skips anew]
    | true =>
      rw [syncSummary_writes anew]
      rfl

theorem getChangeCount_reset (sync : IncrementalSummarySync) (entryId : String) :
    (sync.resetChangeCount entryId).getChangeCount entryId = 0 := by
  unfold getChangeCount resetChangeCount
  rw [get_keepOnly]
  cases sync.changeCounts.get entryId <;> simp

theorem syncDepths_count (calls : List (SummaryDepth × LayerSummary))
    (held : IncrementalSummarySync × SummaryPointerState) :
    (syncDepths computeContentHash entryId layer sourceHash now calls held).1.getChangeCount entryId =
      if calls.any (fun call => writes (held.2.getPointer entryId call.1) (computeContentHash call.2.content)) then 0
      else held.1.getChangeCount entryId := by
  have zero : ∀ (calls : List (SummaryDepth × LayerSummary)) held', held'.1.getChangeCount entryId = 0 →
      (syncDepths computeContentHash entryId layer sourceHash now calls held').1.getChangeCount entryId = 0 := by
    intro calls
    induction calls with
    | nil => exact fun _ none => none
    | cons call rest ih =>
      intro held' none
      rw [syncDepths_cons]
      apply ih
      cases anew : writes (held'.2.getPointer entryId call.1) (computeContentHash call.2.content) with
      | false =>
        rw [syncSummary_skips anew]
        exact none
      | true =>
        rw [syncSummary_writes anew]
        exact getChangeCount_reset _ _
  induction calls with
  | nil => rfl
  | cons call rest ih =>
    rw [any_cons, syncDepths_cons]
    cases anew : writes (held.2.getPointer entryId call.1) (computeContentHash call.2.content) with
    | false =>
      rw [syncSummary_skips anew, Bool.false_or]
      exact ih
    | true =>
      rw [Bool.true_or, if_pos rfl]
      apply zero rest
      rw [syncSummary_writes anew]
      exact getChangeCount_reset _ _

variable {computeContentHash entryId layer sourceHash now}

theorem ageSeconds_self (now : Int) : ageSeconds now now = 0 := by simp [ageSeconds]

theorem not_outdated_iff {sync : IncrementalSummarySync} {config : SummaryConfig} {ptr : SummaryPointer} :
    ¬ sync.Outdated config entryId sourceHash now ptr ↔ ptr.sourceContentHash = sourceHash ∧
      (∀ interval, config.updateIntervalSecs = some interval → ageSeconds now ptr.syncedAt < interval) ∧
      ∀ threshold, config.updateOnChanges = some threshold → sync.getChangeCount entryId < threshold := by
  simp [Outdated, not_or]

theorem satisfied_current {sync : IncrementalSummarySync} {config : SummaryConfig} {ptr : SummaryPointer}
    (current : CurrentPointer sourceHash now ptr) :
    ¬ (ptr.isStale ∨ sync.Outdated config entryId sourceHash now ptr) ↔ config.updateIntervalSecs ≠ some 0 ∧
      ∀ threshold, config.updateOnChanges = some threshold → sync.getChangeCount entryId < threshold := by
  rw [not_or, not_outdated_iff, current.fresh, current.synced, ageSeconds_self]
  have positive : (∀ interval, config.updateIntervalSecs = some interval → 0 < interval) ↔
      config.updateIntervalSecs ≠ some 0 := by
    constructor
    · intro each none
      exact absurd (each 0 none) (Nat.lt_irrefl 0)
    · intro some interval configured
      apply Nat.pos_of_ne_zero
      rintro rfl
      exact some configured
  rw [positive]
  simp [current.source]

theorem satisfied_kept {sync : IncrementalSummarySync} {config : SummaryConfig} {existing : Option SummaryPointer}
    (covered : ∃ call ∈ calls, call.1 = depth)
    (kept : renews computeContentHash calls existing depth = false) :
    ¬ (∀ ptr, existing = some ptr → ptr.isStale ∨ sync.Outdated config entryId sourceHash now ptr) ↔
      (∃ ptr, existing = some ptr ∧ ptr.sourceContentHash = sourceHash ∧
        ∀ interval, config.updateIntervalSecs = some interval → ageSeconds now ptr.syncedAt < interval) ∧
      ∀ threshold, config.updateOnChanges = some threshold → sync.getChangeCount entryId < threshold := by
  obtain ⟨call, member, own⟩ := covered
  have idle := any_eq_false.mp kept call member
  cases existing with
  | none => simp [own, writes] at idle
  | some ptr =>
    have fresh : ptr.isStale = false := by
      by_contra flag
      simp [own, writes, flag] at idle
    simp [fresh, not_outdated_iff, and_assoc]

theorem sync_satisfies_iff {sync : IncrementalSummarySync} {state : SummaryPointerState}
    {sourceHashes : Table String String} (listed : sourceHashes.get entryId = some sourceHash)
    (covers : ∀ config, sync.configByLayer.get layer = some config → ∀ depth ∈ config.depths,
      ∃ call ∈ calls, call.1 = depth) :
    entryId ∉ (syncDepths computeContentHash entryId layer sourceHash now calls (sync, state)).1.getEntriesNeedingSync
        layer sourceHashes (syncDepths computeContentHash entryId layer sourceHash now calls (sync, state)).2 now ↔
      ∀ config, sync.configByLayer.get layer = some config → ∀ depth ∈ config.depths,
        (if renews computeContentHash calls (state.getPointer entryId depth) depth then
          config.updateIntervalSecs ≠ some 0
        else ∃ ptr, state.getPointer entryId depth = some ptr ∧ ptr.sourceContentHash = sourceHash ∧
          ∀ interval, config.updateIntervalSecs = some interval → ageSeconds now ptr.syncedAt < interval) ∧
        ∀ threshold, config.updateOnChanges = some threshold →
          (if calls.any (fun call => writes (state.getPointer entryId call.1) (computeContentHash call.2.content)) then
            0 else sync.getChangeCount entryId) < threshold := by
  have same := syncDepths_config computeContentHash entryId layer sourceHash now calls (sync, state)
  cases configured : sync.configByLayer.get layer with
  | none =>
    rw [← same] at configured
    simp [getEntriesNeedingSync, configured]
  | some config =>
    have count := syncDepths_count computeContentHash entryId layer sourceHash now calls (sync, state)
    have after := same ▸ configured
    rw [mem_getEntriesNeedingSync after listed, ← count]
    simp only [not_exists, not_and, Option.some.injEq, forall_eq']
    apply forall₂_congr
    intro depth member
    have pointer := syncDepths_pointer computeContentHash entryId layer sourceHash now calls depth (sync, state)
    cases renewed : renews computeContentHash calls (state.getPointer entryId depth) depth with
    | true =>
      rw [renewed, if_pos rfl] at pointer
      obtain ⟨ptr, held, current⟩ := pointer
      rw [if_pos rfl, ← satisfied_current current, held]
      simp
    | false =>
      rw [renewed, if_neg Bool.false_ne_true] at pointer
      rw [if_neg Bool.false_ne_true, pointer]
      exact satisfied_kept (covers config configured depth member) renewed

def sentence (content : String) : SummaryDepth × LayerSummary :=
  (.sentence, ⟨.sentence, content, 50, 0, "s2", none, false, none⟩)

theorem sync_satisfies_rewritten : "e" ∉ (syncDepths id "e" .project "s2" 0 [sentence "d"]
    (projectSync, projectPointers)).1.getEntriesNeedingSync .project (empty.upsert "e" "s2" id)
      (syncDepths id "e" .project "s2" 0 [sentence "d"] (projectSync, projectPointers)).2 0 := by
  apply (sync_satisfies_iff rfl ?_).mpr
  · intro config configured depth member
    cases configured
    cases mem_singleton.mp member
    exact ⟨by decide +kernel, fun _ absent => by cases absent⟩
  · intro config configured depth member
    cases configured
    exact ⟨_, mem_singleton_self _, (mem_singleton.mp member).symm⟩

theorem unchanged_summary_needed : "e" ∈ (syncDepths id "e" .project "s2" 0 [sentence "c"]
    (projectSync, projectPointers)).1.getEntriesNeedingSync .project (empty.upsert "e" "s2" id)
      (syncDepths id "e" .project "s2" 0 [sentence "c"] (projectSync, projectPointers)).2 0 := by
  decide +kernel

end

end IncrementalSummarySync

end Aeterna.Sync
