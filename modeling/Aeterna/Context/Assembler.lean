import Mathlib
import Aeterna.Knowledge.Requests
import Aeterna.Lib.TimedCache

namespace Aeterna.Context
open Lib (Stamped TimedCache Visit)

/-- `f32` and what the assembler computes with it. A literal is the value nearest to it. -/
structure Float where
  F : Type
  literal : Rat → F
  ofNat : Nat → F
  (add sub mul div : F → F → F)
  sqrt : F → F
  min : F → F → F
  sum : List F → F
  (le beq : F → F → Bool)
  partialCmp : F → F → Option Ordering
  /-- `floor() as u32`. -/
  floor : F → UInt32

structure Hashes (f : Float) where
  embedding : List f.F → UInt64
  computeXxhash64 : String → String

inductive ViewMode where
  | ax | ux | dx
  deriving DecidableEq, Repr

structure CacheKey where
  queryHash : UInt64
  tokenBudget : UInt32
  viewMode : ViewMode
  deriving DecidableEq, Repr

inductive StalenessStatus where
  | fresh | stale | unknown
  deriving DecidableEq, Repr

inductive SummaryDepth where
  | sentence | paragraph | detailed
  deriving DecidableEq, Repr

structure LayerSummary where
  content : String
  tokenCount : UInt32
  sourceHash : String
  contentHash : Option String

section
variable (f : Float)

structure AssemblerConfig where
  viewMode : ViewMode
  defaultTokenBudget : UInt32
  layerPriorities : List MemoryLayer
  minRelevanceScore : f.F
  enableCaching : Bool
  (cacheTtlSecs assemblyTimeoutMs : Nat)
  enableEarlyTermination : Bool

def AssemblerConfig.default : AssemblerConfig f where
  viewMode := .ax
  defaultTokenBudget := 4000
  layerPriorities := [.session, .project, .team, .org, .tenant]
  minRelevanceScore := f.literal 0.3
  enableCaching := true
  cacheTtlSecs := 300
  assemblyTimeoutMs := 100
  enableEarlyTermination := true

structure SummarySource where
  entryId : String
  layer : MemoryLayer
  summaries : SummaryDepth → Option LayerSummary
  contextVector : Option (List f.F)
  fullContent : Option String
  fullContentTokens : Option UInt32
  currentSourceContent : Option String
  variantRole : Option KnowledgeVariantRole

structure ContextEntry where
  entryId : String
  layer : MemoryLayer
  content : String
  tokenCount : UInt32
  depth : SummaryDepth
  relevanceScore : f.F
  contextVector : Option (List f.F)
  stalenessStatus : StalenessStatus

end

structure ContextMetadata where
  viewType : String
  (includesTrajectoryLogs includesMetrics includesTraces : Bool)
  deriving DecidableEq, Repr

structure ContextView where
  content : String
  metadata : ContextMetadata
  deriving DecidableEq, Repr

/-- `layers_included` lists a hash set, in no order of its own. -/
structure AssembledContext (f : Float) where
  view : ContextView
  entries : List (ContextEntry f)
  (totalTokens tokenBudget : UInt32)
  layersIncluded : Finset MemoryLayer
  queryEmbedding : Option (List f.F)
  staleEntries : List String
  (hasStaleContent timedOut partialReturn : Bool)

variable {f : Float}

def SummarySource.variantPrecedence (source : SummarySource f) : Nat :=
  match source.variantRole.getD .canonical with
  | .canonical => 5
  | .clarification => 4
  | .specialization => 3
  | .applicability => 2
  | .exception => 1
  | .superseded => 0

def ContextMetadata.minimal : ContextMetadata :=
  ⟨"agent_experience", false, false, false⟩

def cosineSimilarity (a b : List f.F) : f.F :=
  if a.length ≠ b.length ∨ a = [] then f.literal 0
  else
    let dotProduct := f.sum (a.zipWith f.mul b)
    let magnitudeA := f.sqrt (f.sum (a.map (fun x => f.mul x x)))
    let magnitudeB := f.sqrt (f.sum (b.map (fun x => f.mul x x)))
    if f.beq magnitudeA (f.literal 0) ∨ f.beq magnitudeB (f.literal 0) then f.literal 0
    else f.div dotProduct (f.mul magnitudeA magnitudeB)

namespace AssemblerConfig
variable (config : AssemblerConfig f) (hashes : Hashes f)

def layerBaseScore (layer : MemoryLayer) : f.F :=
  match config.layerPriorities.idxOf? layer with
  | some idx => f.sub (f.literal 1) (f.mul (f.ofNat idx) (f.literal 0.1))
  | none => f.literal 0.5

def computeRelevanceScore (queryEmbedding : Option (List f.F)) (source : SummarySource f) : f.F :=
  let base := match queryEmbedding, source.contextVector with
    | some query, some sourceVec => cosineSimilarity query sourceVec
    | _, _ => config.layerBaseScore source.layer
  let roleBonus := f.mul (f.sub (f.ofNat source.variantPrecedence) (f.literal 1)) (f.literal 0.01)
  f.min (f.add base roleBonus) (f.literal 1)

/-- `layer_order`; a layer without a priority comes last, at `usize::MAX`. -/
def layerOrder (layer : MemoryLayer) : Nat :=
  (config.layerPriorities.idxOf? layer).getD (2 ^ 64 - 1)

def distributeTokenBudget (scored : List (SummarySource f × f.F)) (budget : UInt32) : String → Option UInt32 :=
  if scored = [] then fun _ => none
  else
    let totalScore := f.sum (scored.map Prod.snd)
    if f.le totalScore (f.literal 0) then
      let perSource := budget / UInt32.ofNat scored.length
      scored.foldl (fun allocations s => Function.update allocations s.1.entryId (some perSource)) (fun _ => none)
    else
      scored.foldl (fun allocations s =>
        let tokens := f.floor (f.mul (f.ofNat budget.toNat) (f.div s.2 totalScore))
        Function.update allocations s.1.entryId (some (max tokens 50))) (fun _ => none)

variable (source : SummarySource f)

def checkStaleness (summary : LayerSummary) : StalenessStatus :=
  match source.currentSourceContent with
  | none => .unknown
  | some currentContent =>
    let currentHash := hashes.computeXxhash64 currentContent
    if summary.sourceHash = currentHash then .fresh
    else match summary.contentHash with
      | some contentHash => if contentHash = currentHash then .fresh else .stale
      | none => .stale

def depthOrder : List SummaryDepth := [.detailed, .paragraph, .sentence]

def summaryEntry (relevance : f.F) (depth : SummaryDepth) (summary : LayerSummary) : ContextEntry f :=
  ⟨source.entryId, source.layer, summary.content, summary.tokenCount, depth, relevance, source.contextVector,
    checkStaleness hashes source summary⟩

def selectBestSummary (allocation : UInt32) (relevance : f.F) : Option (ContextEntry f) :=
  let fitting := depthOrder.findSome? (fun depth =>
    ((source.summaries depth).filter (fun summary => summary.tokenCount ≤ allocation)).map
      (summaryEntry hashes source relevance depth))
  let deepest := depthOrder.findSome? (fun depth =>
    (source.summaries depth).map (summaryEntry hashes source relevance depth))
  let full := source.fullContent.map (fun content =>
    (⟨source.entryId, source.layer, content, source.fullContentTokens.getD 0, .detailed, relevance,
      source.contextVector, .fresh⟩ : ContextEntry f))
  fitting.or (deepest.or full)

def entryCmp (a b : ContextEntry f) : Ordering :=
  match compare (config.layerOrder a.layer) (config.layerOrder b.layer) with
  | .eq => (f.partialCmp b.relevanceScore a.relevanceScore).getD .eq
  | layers => layers

def selectEntries (scored : List (SummarySource f × f.F)) (allocations : String → Option UInt32) :
    List (ContextEntry f) :=
  (scored.filterMap (fun s => selectBestSummary hashes s.1 ((allocations s.1.entryId).getD 0) s.2)).insertionSort
    (fun a b => config.entryCmp a b ≠ .gt)

/-- The `retain` of early termination. The sum wraps as in a release build. -/
def retainWithin (budget : UInt32) : UInt32 → List (ContextEntry f) → List (ContextEntry f)
  | _, [] => []
  | total, e :: rest =>
    let total := total + e.tokenCount
    if total ≤ budget then e :: retainWithin budget total rest else retainWithin budget total rest

def viewContents (budget : UInt32) : UInt32 → List (ContextEntry f) → List String
  | _, [] => []
  | used, entry :: rest =>
    if used + entry.tokenCount > budget then []
    else entry.content :: viewContents budget (used + entry.tokenCount) rest

def createView (entries : List (ContextEntry f)) (budget : UInt32) : ContextView where
  content := "\n\n".intercalate (viewContents budget 0 entries)
  metadata := match config.viewMode with
    | .ax => ContextMetadata.minimal
    | .ux => ⟨"user_experience", false, false, false⟩
    | .dx => ⟨"developer_experience", true, true, true⟩

def assembleContextInternal (queryEmbedding : Option (List f.F)) (sources : List (SummarySource f))
    (tokenBudget : Option UInt32) : AssembledContext f :=
  let budget := tokenBudget.getD config.defaultTokenBudget
  let scored := (sources.map (fun s => (s, config.computeRelevanceScore queryEmbedding s))).filter
    (fun s => f.le config.minRelevanceScore s.2)
  let allocations := distributeTokenBudget scored budget
  let selected := config.selectEntries hashes scored allocations
  let entries := if config.enableEarlyTermination then retainWithin budget 0 selected else selected
  let stale := (entries.filter (fun e => e.stalenessStatus = .stale)).map ContextEntry.entryId
  { view := config.createView entries budget
    entries := entries
    totalTokens := (entries.map ContextEntry.tokenCount).sum
    tokenBudget := budget
    layersIncluded := (entries.map ContextEntry.layer).toFinset
    queryEmbedding := queryEmbedding
    staleEntries := stale
    hasStaleContent := !stale.isEmpty
    timedOut := false
    partialReturn := false }

end AssemblerConfig

def CacheKey.new (hashes : Hashes f) (queryEmbedding : Option (List f.F)) (tokenBudget : UInt32)
    (viewMode : ViewMode) : CacheKey where
  queryHash := match queryEmbedding with
    | some vec => hashes.embedding vec
    | none => 0
  tokenBudget := tokenBudget
  viewMode := viewMode

end Aeterna.Context
