import Aeterna.Access.Identity
import Aeterna.Lib.Programs
import Aeterna.Memory.Layers
import Mathlib.Algebra.Order.Ring.Int

/-!
Reasoning in searches (`memory/src/manager.rs`) and its circuit breaker (`memory/src/circuit_breaker.rs`).
-/

namespace Aeterna.Memory
open Lib (Program Pool Thread)

inductive CircuitState where
  | closed | opened | halfOpen
  deriving DecidableEq

/-- `rateReached failures total` compares the failure rate with `failure_threshold_percent`, in floats. -/
structure CircuitBreakerConfig where
  rateReached : Nat → Nat → Bool
  windowDurationSecs : Nat := 300
  minRequestsInWindow : Nat := 10
  recoveryTimeoutSecs : Nat := 60
  halfOpenMaxRequests : Nat := 3

structure WindowMetrics where
  successes : Nat := 0
  failures : Nat := 0
  windowStart : Nat

structure ReasoningCircuitBreaker where
  state : CircuitState := .closed
  metrics : WindowMetrics
  openedAt : Nat := 0
  halfOpenRequests : Nat := 0
  isOpen : Bool := false

namespace ReasoningCircuitBreaker
variable (config : CircuitBreakerConfig) (now : Nat) (breaker : ReasoningCircuitBreaker)

def new : ReasoningCircuitBreaker := { metrics := { windowStart := now } }

def maybeResetWindow : WindowMetrics :=
  if (config.windowDurationSecs : Int) ≤ now - breaker.metrics.windowStart then { windowStart := now }
    else breaker.metrics

def recordSuccess : ReasoningCircuitBreaker :=
  match breaker.state with
  | .closed =>
    let metrics := breaker.maybeResetWindow config now
    { breaker with metrics := { metrics with successes := metrics.successes + 1 } }
  | .halfOpen => { breaker with state := .closed, isOpen := false, halfOpenRequests := 0, metrics := { windowStart := now } }
  | .opened => breaker

def recordFailure : ReasoningCircuitBreaker :=
  match breaker.state with
  | .closed =>
    let reset := breaker.maybeResetWindow config now
    let metrics := { reset with failures := reset.failures + 1 }
    let total := metrics.successes + metrics.failures
    if config.minRequestsInWindow ≤ total ∧ config.rateReached metrics.failures total then
      { breaker with metrics, state := .opened, openedAt := now, isOpen := true }
    else { breaker with metrics }
  | .halfOpen => { breaker with state := .opened, openedAt := now, halfOpenRequests := 0 }
  | .opened => breaker

def transitionToHalfOpen : ReasoningCircuitBreaker :=
  if breaker.state = .opened then { breaker with state := .halfOpen, halfOpenRequests := 0 } else breaker

end ReasoningCircuitBreaker

inductive ReasoningStrategy where
  | exhaustive | targeted | semanticOnly
  deriving DecidableEq

structure ReasoningTrace where
  strategy : ReasoningStrategy
  thoughtProcess : String
  refinedQuery : Option String
  (startTime endTime : Int)
  timedOut : Bool := false
  durationMs : Nat := 0

inductive Reasoned where
  | traced (trace : ReasoningTrace)
  | failed (error : String)
  | timedOut (now : Int)

structure SearchInput where
  queryText : String
  limit : Nat
  contextSummary : Option String := none

inductive SearchCall where
  | executeRlm (query : String)
  | resolveEmbeddingService
  | loadState
  | loadOpenedAt
  | timestamp
  | transitionToHalfOpen
  | fetchAddHalfOpenRequests
  | cacheGet (query : String)
  | reason (query : String) (contextSummary : Option String)
  | recordSuccess
  | recordFailure (error : String)
  | cacheSet (query : String) (trace : ReasoningTrace)
  | searchLayers (query : String) (limit : Nat)

@[reducible] def SearchCall.Answer (Score : Type) : SearchCall → Type
  | .executeRlm _ => Option (List (LayerEntry Score))
  | .resolveEmbeddingService => Bool
  | .loadState => CircuitState
  | .loadOpenedAt => Nat
  | .timestamp => Nat
  | .transitionToHalfOpen => Unit
  | .fetchAddHalfOpenRequests => Nat
  | .cacheGet _ => Option ReasoningTrace
  | .reason _ _ => Reasoned
  | .recordSuccess => Unit
  | .recordFailure _ => Unit
  | .cacheSet _ _ => Unit
  | .searchLayers _ _ => Except String (List (LayerEntry Score))

abbrev SearchM (Score : Type) := Program SearchCall (SearchCall.Answer Score) String

structure ReasoningManager where
  enabled : Bool := false
  timeoutMs : Nat := 3000
  (reasoner reasoningCache : Bool)
  circuitBreaker : CircuitBreakerConfig

def isSimpleQuery (query : String) : Bool := ((query.toList.splitOnP isWhitespace).filter (· ≠ [])).length < 3

def calculateAdjustedLimit (trace : ReasoningTrace) (baseLimit : Nat) : Nat :=
  match trace.strategy with
  | .exhaustive => baseLimit * 2 % 2 ^ 64
  | .targeted => baseLimit
  | .semanticOnly => baseLimit / 2

def timedOutTrace (manager : ReasoningManager) (now : Int) : ReasoningTrace where
  strategy := .semanticOnly
  thoughtProcess := "Reasoning timed out, falling back to semantic only search"
  refinedQuery := none
  startTime := now
  endTime := now
  timedOut := true
  durationMs := manager.timeoutMs

section
variable {Score : Type} (manager : ReasoningManager)

def searchCall (c : SearchCall) : SearchM Score (c.Answer Score) := .ask c

def isAllowed : SearchM Score Bool := do
  match ← searchCall .loadState with
  | .closed => pure true
  | .opened =>
    let openedAt ← searchCall .loadOpenedAt
    let now ← searchCall .timestamp
    if openedAt + manager.circuitBreaker.recoveryTimeoutSecs ≤ now then
      searchCall .transitionToHalfOpen
      let current ← searchCall .fetchAddHalfOpenRequests
      pure (current < manager.circuitBreaker.halfOpenMaxRequests)
    else pure false
  | .halfOpen =>
    let current ← searchCall .fetchAddHalfOpenRequests
    pure (current < manager.circuitBreaker.halfOpenMaxRequests)

variable (input : SearchInput)

def finishReasoning (trace : ReasoningTrace) : Option String × ReasoningTrace × Nat :=
  (trace.refinedQuery, { trace with durationMs := ((trace.endTime - trace.startTime) % 2 ^ 64).toNat },
    calculateAdjustedLimit trace input.limit)

def applyReasoning : SearchM Score (Except String (Option String × ReasoningTrace × Nat)) := do
  if !manager.reasoner then pure (.error "Reasoner not configured")
  else
    match ← searchCall (.reason input.queryText input.contextSummary) with
    | .traced trace => pure (.ok (finishReasoning input trace))
    | .failed e => pure (.error e)
    | .timedOut now => pure (.ok (finishReasoning input (timedOutTrace manager now)))

def searchWith (query : String) (trace : Option ReasoningTrace) (adjustedLimit : Nat) :
    SearchM Score (List (LayerEntry Score) × Option ReasoningTrace) := do
  match ← searchCall (.searchLayers query adjustedLimit) with
  | .error e => .fail e
  | .ok results => pure (results.take input.limit, trace)

def ReasoningManager.reasons : Bool :=
  manager.enabled && manager.reasoner && !isSimpleQuery input.queryText

def reasonAnew : SearchM Score (List (LayerEntry Score) × Option ReasoningTrace) := do
  match ← applyReasoning manager input with
  | .ok (refinedQuery, trace, limit) =>
    searchCall .recordSuccess
    if manager.reasoningCache then searchCall (.cacheSet input.queryText trace)
    searchWith input (refinedQuery.getD input.queryText) (some trace) limit
  | .error e =>
    searchCall (.recordFailure e)
    searchWith input input.queryText none input.limit

def searchReasoning : SearchM Score (List (LayerEntry Score) × Option ReasoningTrace) := do
  let cached ← if manager.reasoningCache then searchCall (.cacheGet input.queryText) else pure none
  match cached with
  | some cached =>
    searchWith input (cached.refinedQuery.getD input.queryText) (some cached)
      (calculateAdjustedLimit cached input.limit)
  | none => reasonAnew manager input

def searchTextWithReasoning : SearchM Score (List (LayerEntry Score) × Option ReasoningTrace) := do
  match ← searchCall (.executeRlm input.queryText) with
  | some entries => pure (entries, none)
  | none =>
    if containsText input.queryText "TRIGGER_FAILURE" then .fail "Simulated embedding failure"
    else if !(← searchCall .resolveEmbeddingService) then .fail "Embedding service not configured"
    else
      let allowed ← isAllowed manager
      if manager.reasons input && allowed then searchReasoning manager input
      else searchWith input input.queryText none input.limit

structure SearchWorld (Score : Type) where
  breaker : ReasoningCircuitBreaker
  now : Nat
  rlm : String → Option (List (LayerEntry Score))
  embeddingService : Bool
  cached : String → Option ReasoningTrace
  reasoned : String → Option String → Reasoned
  layers : String → Nat → Except String (List (LayerEntry Score))

def searchExec : (c : SearchCall) → SearchWorld Score → c.Answer Score × SearchWorld Score
  | .executeRlm query, w => (w.rlm query, w)
  | .resolveEmbeddingService, w => (w.embeddingService, w)
  | .loadState, w => (w.breaker.state, w)
  | .loadOpenedAt, w => (w.breaker.openedAt, w)
  | .timestamp, w => (w.now, w)
  | .transitionToHalfOpen, w => ((), { w with breaker := w.breaker.transitionToHalfOpen })
  | .fetchAddHalfOpenRequests, w =>
    (w.breaker.halfOpenRequests, { w with breaker.halfOpenRequests := w.breaker.halfOpenRequests + 1 })
  | .cacheGet query, w => (w.cached query, w)
  | .reason query summary, w => (w.reasoned query summary, w)
  | .recordSuccess, w => ((), { w with breaker := w.breaker.recordSuccess manager.circuitBreaker w.now })
  | .recordFailure _, w => ((), { w with breaker := w.breaker.recordFailure manager.circuitBreaker w.now })
  | .cacheSet _ _, w => ((), w)
  | .searchLayers query limit, w => (w.layers query limit, w)

end

end Aeterna.Memory
