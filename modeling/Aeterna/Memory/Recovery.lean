import Aeterna.Memory.Breaker

namespace Aeterna.Memory
open Lib (Program Pool Thread)
open SearchCall Function Lib.Program Lib.Pool

def SearchCall.Pending : SearchCall → Prop
  | .cacheGet _ | .reason _ _ | .recordSuccess | .recordFailure _ => True
  | _ => False

section
variable {Score β : Type} (manager : ReasoningManager)

def Follows (reasons : Bool) : (c : SearchCall) → (c.Answer Score → SearchM Score β) → Prop
  | .loadState, next => ¬ (next .halfOpen).Awaits Pending
  | .fetchAddHalfOpenRequests, next => ∀ current,
    (next current).Awaits Pending ↔ current < manager.circuitBreaker.halfOpenMaxRequests ∧ reasons = true
  | .cacheGet _, next => (next none).Awaits Pending ∧ ∀ trace, ¬ (next (some trace)).Awaits Pending
  | .reason _ _, next => ∀ answer, (next answer).Awaits Pending
  | _, next => ∀ answer, ¬ (next answer).Awaits Pending

variable {manager} {input : SearchInput} {reasons : Bool}

theorem searchWith_each (query : String) (trace : Option ReasoningTrace) (limit : Nat) :
    (searchWith input query trace limit : SearchM Score _).Each (Follows manager reasons) := by
  refine ⟨?_, ?_⟩
  · intro answer
    cases answer <;> exact id
  · intro answer
    cases answer <;> trivial

theorem recorded_each (refinedQuery : Option String) (trace : ReasoningTrace) (limit : Nat) : (do
      searchCall .recordSuccess
      if manager.reasoningCache then searchCall (.cacheSet input.queryText trace)
      searchWith input (refinedQuery.getD input.queryText) (some trace) limit : SearchM Score _).Each
        (Follows manager reasons) := by
  cases manager.reasoningCache with
  | true => exact ⟨fun _ => id, fun _ => ⟨fun _ => id, fun _ => searchWith_each _ _ _⟩⟩
  | false => exact ⟨fun _ => id, fun _ => searchWith_each _ _ _⟩

section
variable (present : manager.reasoner = true)
include present

theorem reasonAnew_each : (reasonAnew manager input : SearchM Score _).Each (Follows manager reasons) := by
  unfold reasonAnew applyReasoning
  rw [present]
  refine ⟨fun answer => ?_, fun answer => ?_⟩
  · cases answer <;> trivial
  · cases answer with
    | traced trace => exact recorded_each _ _ _
    | failed e => exact ⟨fun _ => id, fun _ => searchWith_each _ _ _⟩
    | timedOut now => exact recorded_each _ _ _

theorem reasonAnew_awaits : (reasonAnew manager input : SearchM Score _).Awaits Pending := by
  unfold reasonAnew applyReasoning
  rw [present]
  trivial

theorem searchReasoning_each : (searchReasoning manager input : SearchM Score _).Each (Follows manager reasons) := by
  unfold searchReasoning
  dsimp only
  split
  · refine ⟨⟨reasonAnew_awaits present, fun trace => id⟩, fun answer => ?_⟩
    cases answer with
    | none => exact reasonAnew_each present
    | some trace => exact searchWith_each _ _ _
  · exact reasonAnew_each present

theorem searchReasoning_awaits : (searchReasoning manager input : SearchM Score _).Awaits Pending := by
  unfold searchReasoning
  dsimp only
  split
  · trivial
  · exact reasonAnew_awaits present

end

theorem reasons_reasoner (reasons : manager.reasons input = true) : manager.reasoner = true := by
  unfold ReasoningManager.reasons at reasons
  simp only [Bool.and_eq_true] at reasons
  exact reasons.1.2

theorem isAllowed_each {next : Bool → SearchM Score β}
    (each : ∀ allowed, (next allowed).Each (Follows manager reasons))
    (awaits : ∀ allowed, (next allowed).Awaits Pending ↔ allowed = true ∧ reasons = true) :
    (isAllowed manager >>= next).Each (Follows manager reasons) := by
  have counted : ∀ current, (next (decide
      (current < manager.circuitBreaker.halfOpenMaxRequests))).Awaits Pending ↔
      current < manager.circuitBreaker.halfOpenMaxRequests ∧ reasons = true := by
    intro current
    rw [awaits, decide_eq_true_iff]
  refine ⟨id, fun state => ?_⟩
  cases state with
  | closed => exact each true
  | halfOpen => exact ⟨counted, fun _ => each _⟩
  | opened =>
    refine ⟨fun _ => id, fun openedAt => ⟨fun now => ?_, fun now => ?_⟩⟩
    · show ¬ Awaits Pending (Program.bind (if _ then _ else _) next)
      split
      · exact id
      · exact fun pending => absurd ((awaits false).mp pending).1 Bool.false_ne_true
    · show Each _ (Program.bind (if _ then _ else _) next)
      split
      · exact ⟨fun _ => id, fun _ => ⟨counted, fun _ => each _⟩⟩
      · exact each false

theorem searchTextWithReasoning_each :
    (searchTextWithReasoning manager input : SearchM Score _).Each (Follows manager (manager.reasons input)) := by
  let next (allowed : Bool) : SearchM Score (List (LayerEntry Score) × Option ReasoningTrace) :=
    if manager.reasons input && allowed then searchReasoning manager input
      else searchWith input input.queryText none input.limit
  have asked : (isAllowed manager >>= next).Each (Follows manager (manager.reasons input)) := by
    refine isAllowed_each (fun allowed => ?_) (fun allowed => ?_)
    · dsimp only [next]
      split
      · rename_i both
        exact searchReasoning_each (reasons_reasoner (Bool.and_eq_true_iff.mp both).1)
      · exact searchWith_each _ _ _
    · dsimp only [next]
      split
      · rename_i both
        obtain ⟨reasons, admitted⟩ := Bool.and_eq_true_iff.mp both
        exact iff_of_true (searchReasoning_awaits (reasons_reasoner reasons)) ⟨admitted, reasons⟩
      · rename_i neither
        refine iff_of_false id (fun both => neither ?_)
        rw [both.1, both.2]
        rfl
  unfold searchTextWithReasoning
  refine ⟨fun found => ?_, fun found => ?_⟩
  · cases found with
    | some entries => exact id
    | none =>
      show ¬ Awaits _ (if _ then _ else _)
      split <;> exact id
  · cases found with
    | some entries => trivial
    | none =>
      show Each _ (if _ then _ else _)
      split
      · trivial
      · refine ⟨fun present => ?_, fun present => ?_⟩
        · cases present <;> exact id
        · cases present with
          | false => trivial
          | true => exact asked

abbrev Searches (ι Score : Type) : Type :=
  Pool ι SearchCall (Answer Score) String (List (LayerEntry Score) × Option ReasoningTrace)
    (SearchWorld Score)

abbrev SearchThread (Score : Type) : Type :=
  Thread SearchCall (Answer Score) String (List (LayerEntry Score) × Option ReasoningTrace)

variable {ι : Type} [DecidableEq ι] (manager) (inputs : ι → SearchInput) (w : SearchWorld Score)

def searches : Searches ι Score where
  state := { w with breaker := .new w.now }
  thread i := { program := searchTextWithReasoning manager (inputs i) }

def Elsewhere (w next : SearchWorld Score) : Prop := next.breaker = w.breaker

def Out (thread : SearchThread Score) : Prop := thread.program.Awaits Pending

def InProgress (thread : SearchThread Score) : Prop := thread.notes ≠ [] ∧ thread.program.Awaits (fun _ => True)

/-- After some time, the next `is_allowed` call returns `true`. -/
def Admits : Prop := ∃ wait, ∀ later, w.now + wait ≤ later →
  ((isAllowed manager).run (searchExec manager) { w with now := later }).1 = .ok true

/-- While the breaker is half open and no other search is out, the step does not spend the last admission on a
search that does not reason, nor answer the last search that is out from the cache. -/
def Spares (pool : Searches ι Score) (i : ι) : Prop :=
  pool.state.breaker.state = .halfOpen → (∀ j, j ≠ i → ¬ Out (pool.thread j)) →
    match (pool.thread i).program with
    | .call .fetchAddHalfOpenRequests _ =>
      pool.state.breaker.halfOpenRequests + 1 = manager.circuitBreaker.halfOpenMaxRequests →
        manager.reasons (inputs i) = true
    | .call (.cacheGet query) _ =>
      manager.circuitBreaker.halfOpenMaxRequests ≤ pool.state.breaker.halfOpenRequests →
        pool.state.cached query = none
    | _ => True

/-- Whenever no search is in progress, the breaker admits the next one after some time. -/
def Recovers (allowed : Searches ι Score → ι → Prop) : Prop :=
  ∀ pool, Course (searchExec manager) allowed Elsewhere (searches manager inputs w) pool →
    (∀ i, ¬ InProgress (pool.thread i)) → Admits manager pool.state

structure Awaited (pool : Searches ι Score) : Prop where
  out : pool.state.breaker.state = .halfOpen →
    manager.circuitBreaker.halfOpenMaxRequests ≤ pool.state.breaker.halfOpenRequests → ∃ i, Out (pool.thread i)
  each : ∀ i, (pool.thread i).program.Each (Follows manager (manager.reasons (inputs i)))

variable {manager inputs w} {pool : Searches ι Score} {i : ι}

variable {c : SearchCall} {thread : SearchThread Score} {allowed : Searches ι Score → ι → Prop}

variable {next : c.Answer Score → SearchM Score (List (LayerEntry Score) × Option ReasoningTrace)}

theorem out_other
    (shape : (pool.thread i).program = .call c next) (quiet : ¬ c.Pending) (out : ∃ j, Out (pool.thread j)) :
    ∃ j, Out (update pool.thread i thread j) := by
  obtain ⟨j, out⟩ := out
  have other : j ≠ i := by
    rintro rfl
    unfold Out at out
    rw [shape] at out
    exact quiet out
  refine ⟨j, ?_⟩
  rw [update_of_ne other]
  exact out

theorem out_self (out : Out thread) : ∃ j, Out (update pool.thread i thread j) :=
  ⟨i, by rwa [update_self]⟩

theorem recordSuccess_settles (config : CircuitBreakerConfig) (now : Nat) (breaker : ReasoningCircuitBreaker) :
    (breaker.recordSuccess config now).state ≠ .halfOpen := by
  unfold ReasoningCircuitBreaker.recordSuccess
  cases state : breaker.state with
  | closed => simp
  | opened => simp [state]
  | halfOpen => simp

theorem recordFailure_settles (config : CircuitBreakerConfig) (now : Nat) (breaker : ReasoningCircuitBreaker) :
    (breaker.recordFailure config now).state ≠ .halfOpen := by
  unfold ReasoningCircuitBreaker.recordFailure
  cases state : breaker.state with
  | opened => simp [state]
  | halfOpen => simp
  | closed =>
    dsimp only
    split <;> simp

theorem awaited_step (atLeastOne : 1 ≤ manager.circuitBreaker.halfOpenMaxRequests)
    (awaited : Awaited manager inputs pool) (spares : Spares manager inputs pool i)
    (shape : (pool.thread i).program = .call c next) :
    Awaited manager inputs ⟨(searchExec manager c pool.state).2, update pool.thread i
      ⟨next (searchExec manager c pool.state).1, ⟨c, (searchExec manager c pool.state).1⟩ ::
        (pool.thread i).notes⟩⟩ := by
  have each := awaited.each i
  rw [shape] at each
  obtain ⟨follows, later⟩ := each
  refine ⟨fun half spent => ?_, fun j => ?_⟩
  · dsimp only at half spent ⊢
    -- a step that leaves the breaker alone and that no search out takes
    have others : ∀ {thread : SearchThread Score}, ¬ c.Pending →
        (searchExec manager c pool.state).2.breaker = pool.state.breaker → ∃ j,
          Out (update pool.thread i thread j) := by
      intro thread quiet same
      rw [same] at half spent
      exact out_other shape quiet (awaited.out half spent)
    cases c with
    | executeRlm query => exact others id rfl
    | resolveEmbeddingService => exact others id rfl
    | loadState => exact others id rfl
    | loadOpenedAt => exact others id rfl
    | timestamp => exact others id rfl
    | cacheSet query trace => exact others id rfl
    | searchLayers query limit => exact others id rfl
    | recordSuccess => exact absurd half (recordSuccess_settles _ _ _)
    | recordFailure error => exact absurd half (recordFailure_settles _ _ _)
    | reason query summary => exact out_self (follows _)
    | transitionToHalfOpen =>
      by_cases was : pool.state.breaker.state = .opened
      · -- the admissions start anew
        have anew : pool.state.breaker.transitionToHalfOpen.halfOpenRequests = 0 := by
          rw [ReasoningCircuitBreaker.transitionToHalfOpen, if_pos was]
        have spent : manager.circuitBreaker.halfOpenMaxRequests ≤
            pool.state.breaker.transitionToHalfOpen.halfOpenRequests := spent
        omega
      · refine others id ?_
        simp [searchExec, ReasoningCircuitBreaker.transitionToHalfOpen, was]
    | fetchAddHalfOpenRequests =>
      have half : pool.state.breaker.state = .halfOpen := half
      have spent : manager.circuitBreaker.halfOpenMaxRequests ≤ pool.state.breaker.halfOpenRequests + 1 := spent
      by_cases before : manager.circuitBreaker.halfOpenMaxRequests ≤ pool.state.breaker.halfOpenRequests
      · exact out_other shape id (awaited.out half before)
      · by_cases another : ∃ j, j ≠ i ∧ Out (pool.thread j)
        · obtain ⟨j, _, out⟩ := another
          exact out_other shape id ⟨j, out⟩
        · have reasons := spares half (fun j apart out => another ⟨j, apart, out⟩)
          rw [shape] at reasons
          exact out_self ((follows _).mpr ⟨Nat.lt_of_not_le before, reasons (by omega)⟩)
    | cacheGet query =>
      by_cases another : ∃ j, j ≠ i ∧ Out (pool.thread j)
      · obtain ⟨j, apart, out⟩ := another
        refine ⟨j, ?_⟩
        rw [update_of_ne apart]
        exact out
      · have missed := spares half (fun j apart out => another ⟨j, apart, out⟩)
        rw [shape] at missed
        refine out_self ?_
        show Awaits Pending (next (pool.state.cached query))
        rw [missed spent]
        exact follows.1
  · by_cases same : j = i
    · subst same
      dsimp only
      rw [update_self]
      exact later _
    · dsimp only
      rw [update_of_ne same]
      exact awaited.each j

theorem course_awaited (atLeastOne : 1 ≤ manager.circuitBreaker.halfOpenMaxRequests)
    (course : Course (searchExec manager) (Spares manager inputs) Elsewhere (searches manager inputs w) pool) :
    Awaited manager inputs pool := by
  refine course.keeps ⟨fun half => ?_, fun i => searchTextWithReasoning_each⟩ ?_ ?_
  · cases half
  · exact fun pool i c next awaited spares shape => awaited_step atLeastOne awaited spares shape
  · intro pool t awaited same
    refine ⟨?_, awaited.each⟩
    dsimp only
    rw [same]
    exact awaited.out

theorem out_inProgress (course : Course (searchExec manager) allowed Elsewhere (searches manager inputs w) pool)
    (out : Out (pool.thread i)) :
    InProgress (pool.thread i) := by
  constructor
  · intro unstarted
    rw [Out, course.unstarted unstarted] at out
    exact out
  · unfold Out at out
    generalize (pool.thread i).program = program at out
    cases program with
    | call c next => trivial
    | done a => exact out
    | fail e => exact out

theorem isAllowed_run : ((isAllowed manager).run (searchExec manager) w).1 = .ok (match w.breaker.state with
    | .closed => true
    | .opened => w.breaker.openedAt + manager.circuitBreaker.recoveryTimeoutSecs ≤ w.now &&
      0 < manager.circuitBreaker.halfOpenMaxRequests
    | .halfOpen => w.breaker.halfOpenRequests < manager.circuitBreaker.halfOpenMaxRequests) := by
  rw [isAllowed, searchCall, run_bind, run_ask]
  dsimp only [searchExec]
  cases state : w.breaker.state with
  | closed => rfl
  | halfOpen => rfl
  | opened =>
    by_cases elapsed : w.breaker.openedAt + manager.circuitBreaker.recoveryTimeoutSecs ≤ w.now
    · simp only [searchCall, run_bind, run_ask, searchExec, if_pos elapsed]
      simp [ReasoningCircuitBreaker.transitionToHalfOpen, state, elapsed]
    · simp [searchCall, run_bind, searchExec, elapsed]

theorem admits_of_free (atLeastOne : 1 ≤ manager.circuitBreaker.halfOpenMaxRequests)
    (free : w.breaker.state = .halfOpen → w.breaker.halfOpenRequests < manager.circuitBreaker.halfOpenMaxRequests) :
    Admits manager w := by
  refine ⟨w.breaker.openedAt + manager.circuitBreaker.recoveryTimeoutSecs, fun later waited => ?_⟩
  rw [isAllowed_run]
  dsimp only
  cases state : w.breaker.state with
  | closed => rfl
  | halfOpen => exact congrArg Except.ok (decide_eq_true (free state))
  | opened =>
    have elapsed : w.breaker.openedAt + manager.circuitBreaker.recoveryTimeoutSecs ≤ later := by omega
    simp [elapsed, Nat.lt_of_lt_of_le Nat.zero_lt_one atLeastOne]

/-- Where no step wastes the last admission of a half-open breaker, the breaker is never stuck. -/
theorem breaker_recovers (manager : ReasoningManager) (atLeastOne : 1 ≤ manager.circuitBreaker.halfOpenMaxRequests)
    (inputs : ι → SearchInput) (w : SearchWorld Score) : Recovers manager inputs w (Spares manager inputs) := by
  intro pool course quiet
  have awaited := course_awaited atLeastOne course
  apply admits_of_free atLeastOne
  intro half
  apply Nat.lt_of_not_le
  intro spent
  obtain ⟨i, out⟩ := awaited.out half spent
  exact quiet i (out_inProgress course out)

structure Shut (manager : ReasoningManager) (inputs : ι → SearchInput) (pool : Searches ι Score) : Prop where
  half : pool.state.breaker.state = .halfOpen
  spent : manager.circuitBreaker.halfOpenMaxRequests ≤ pool.state.breaker.halfOpenRequests
  quiet : ∀ i, ¬ Out (pool.thread i)
  each : ∀ i, (pool.thread i).program.Each (Follows manager (manager.reasons (inputs i)))

omit [DecidableEq ι] in
theorem Shut.stuck (shut : Shut manager inputs pool) : ¬ Admits manager pool.state := by
  rintro ⟨wait, admits⟩
  have answer := admits _ (Nat.le_refl _)
  rw [isAllowed_run] at answer
  dsimp only at answer
  rw [shut.half] at answer
  have free := of_decide_eq_true (Except.ok.inj answer)
  have spent := shut.spent
  omega

theorem quiet_update (others : ∀ j, j ≠ i → ¬ Out (pool.thread j)) (quiet : ¬ Out thread) (j : ι) :
    ¬ Out (update pool.thread i thread j) := by
  by_cases same : j = i
  · subst same
    rwa [update_self]
  · rw [update_of_ne same]
    exact others j same

theorem each_update (each : ∀ j, (pool.thread j).program.Each (Follows manager (manager.reasons (inputs j))))
    (own : thread.program.Each (Follows manager (manager.reasons (inputs i)))) (j : ι) :
    (update pool.thread i thread j).program.Each (Follows manager (manager.reasons (inputs j))) := by
  by_cases same : j = i
  · subst same
    rwa [update_self]
  · rw [update_of_ne same]
    exact each j

theorem shut_step (shut : Shut manager inputs pool) (shape : (pool.thread i).program = .call c next) :
    Shut manager inputs ⟨(searchExec manager c pool.state).2, update pool.thread i
      ⟨next (searchExec manager c pool.state).1, ⟨c, (searchExec manager c pool.state).1⟩ ::
        (pool.thread i).notes⟩⟩ := by
  have each := shut.each i
  rw [shape] at each
  obtain ⟨follows, later⟩ := each
  have own : ¬ c.Pending := by
    have quiet := shut.quiet i
    rwa [Out, shape] at quiet
  have quiet : ¬ (next (searchExec manager c pool.state).1).Awaits Pending := by
    cases c with
    | cacheGet query => exact absurd trivial own
    | reason query summary => exact absurd trivial own
    | recordSuccess => exact absurd trivial own
    | recordFailure error => exact absurd trivial own
    | loadState =>
      show ¬ (next pool.state.breaker.state).Awaits Pending
      rw [shut.half]
      exact follows
    | fetchAddHalfOpenRequests => exact fun out => absurd ((follows _).mp out).1 (Nat.not_lt.mpr shut.spent)
    | executeRlm query => exact follows _
    | resolveEmbeddingService => exact follows _
    | loadOpenedAt => exact follows _
    | timestamp => exact follows _
    | transitionToHalfOpen => exact follows _
    | cacheSet query trace => exact follows _
    | searchLayers query limit => exact follows _
  have breaker : (searchExec manager c pool.state).2.breaker.state = .halfOpen ∧
      pool.state.breaker.halfOpenRequests ≤ (searchExec manager c pool.state).2.breaker.halfOpenRequests := by
    cases c with
    | recordSuccess => exact absurd trivial own
    | recordFailure error => exact absurd trivial own
    | fetchAddHalfOpenRequests => exact ⟨shut.half, Nat.le_succ _⟩
    | transitionToHalfOpen => simp [searchExec, ReasoningCircuitBreaker.transitionToHalfOpen, shut.half]
    | _ => exact ⟨shut.half, Nat.le_refl _⟩
  exact ⟨breaker.1, Nat.le_trans shut.spent breaker.2, quiet_update (fun j _ => shut.quiet j) quiet,
    each_update shut.each (later _)⟩

theorem Shut.stays {last : Searches ι Score} (shut : Shut manager inputs pool)
    (course : Course (searchExec manager) allowed Elsewhere pool last) : ¬ Admits manager last.state := by
  have kept : Shut manager inputs last := by
    refine course.keeps shut (fun pool i c next shut _ shape => shut_step shut shape) (fun pool t shut same => ?_)
    constructor
    · exact (congrArg ReasoningCircuitBreaker.state same).trans shut.half
    · exact Nat.le_trans shut.spent (Nat.le_of_eq (congrArg ReasoningCircuitBreaker.halfOpenRequests same).symm)
    · exact shut.quiet
    · exact shut.each
  exact kept.stuck

theorem wasted_shut (awaited : Awaited manager inputs pool) (wasted : ¬ Spares manager inputs pool i) :
    Shut manager inputs (pool.step (searchExec manager) i) := by
  obtain ⟨half, wasted⟩ := Classical.not_imp.mp wasted
  obtain ⟨others, wasted⟩ := Classical.not_imp.mp wasted
  have each := awaited.each i
  split at wasted
  · rename_i next shape
    obtain ⟨last, idle⟩ := Classical.not_imp.mp wasted
    rw [shape] at each
    rw [step_call shape]
    have quiet : ¬ (next pool.state.breaker.halfOpenRequests).Awaits Pending :=
      fun out => idle ((each.1 _).mp out).2
    exact ⟨half, Nat.le_of_eq last.symm, quiet_update others quiet, each_update awaited.each (each.2 _)⟩
  · rename_i query next shape
    obtain ⟨spent, hit⟩ := Classical.not_imp.mp wasted
    obtain ⟨trace, found⟩ := Option.ne_none_iff_exists'.mp hit
    rw [shape] at each
    rw [step_call shape]
    have quiet : ¬ (next (pool.state.cached query)).Awaits Pending := by
      rw [found]
      exact each.1.2 trace
    exact ⟨half, spent, quiet_update others quiet, each_update awaited.each (each.2 _)⟩
  · exact absurd trivial wasted

/-- One step that wastes the last admission stops reasoning for good, whatever searches follow. -/
theorem waste_is_final {last : Searches ι Score} (atLeastOne : 1 ≤ manager.circuitBreaker.halfOpenMaxRequests)
    (course : Course (searchExec manager) (Spares manager inputs) Elsewhere (searches manager inputs w) pool)
    (wasted : ¬ Spares manager inputs pool i)
    (later : Course (searchExec manager) allowed Elsewhere (pool.step (searchExec manager) i) last) :
    ¬ Admits manager last.state :=
  (wasted_shut (course_awaited atLeastOne course) wasted).stays later

end

def strictManager : ReasoningManager where
  enabled := true
  reasoner := true
  reasoningCache := false
  circuitBreaker :=
    { rateReached := fun failures total => total * 5 ≤ failures * 100, minRequestsInWindow := 1, halfOpenMaxRequests := 1 }

def someSearches : Bool → SearchInput
  | true => { queryText := "rust error handling", limit := 10 }
  | false => { queryText := "rust", limit := 10 }

def downWorld : SearchWorld Nat where
  breaker := .new 0
  now := 0
  rlm _ := none
  embeddingService := true
  cached _ := none
  reasoned _ _ := .failed "down"
  layers _ _ := .ok []

theorem breaker_recovers_sample : Recovers strictManager someSearches downWorld (Spares strictManager someSearches) :=
  breaker_recovers strictManager (by decide) someSearches downWorld

def afterFailure : Searches Bool Nat :=
  let pool := (List.replicate 7 true).foldl (step (searchExec strictManager))
      (searches strictManager someSearches downWorld)
  { pool with state := { pool.state with now := 60 } }

def afterSimple : Searches Bool Nat :=
  (List.replicate 9 false).foldl (step (searchExec strictManager)) afterFailure

theorem breaker_stuck : ¬ Recovers strictManager someSearches downWorld (fun _ _ => True) := by
  intro recovers
  have course : Course (searchExec strictManager) (fun _ _ => True) Elsewhere
      (searches strictManager someSearches downWorld) afterSimple := by
    refine .schedule (fun _ _ => trivial) (.drift (.schedule (fun _ _ => trivial) .start _) ?_) _
    exact rfl
  have quiet : ∀ i, ¬ InProgress (afterSimple.thread i) := by
    intro i progress
    have finished : ¬ (afterSimple.thread i).program.Awaits (fun _ => True) := by
      cases i <;> decide +kernel
    exact finished progress.2
  obtain ⟨wait, admits⟩ := recovers afterSimple course quiet
  have answer := admits _ (Nat.le_refl _)
  rw [isAllowed_run] at answer
  dsimp only at answer
  have half : afterSimple.state.breaker.state = .halfOpen := by decide +kernel
  have spent : afterSimple.state.breaker.halfOpenRequests = 1 := by decide +kernel
  rw [half] at answer
  have free := of_decide_eq_true (Except.ok.inj answer)
  rw [spent] at free
  exact absurd free (by decide)

theorem simple_search_is_final : ¬ Admits strictManager afterSimple.state := by
  have spared {pool : Searches Bool Nat} {i : Bool} (full : pool.state.breaker.state ≠ .halfOpen) :
      Spares strictManager someSearches pool i := fun half => absurd half full
  have course : Course (searchExec strictManager) (Spares strictManager someSearches) Elsewhere
      (searches strictManager someSearches downWorld)
      ((List.replicate 6 false).foldl (step (searchExec strictManager)) afterFailure) := by
    simp only [afterFailure, List.replicate, List.foldl]
    repeat refine .step false ?_ (spared (by decide +kernel))
    refine .drift ?_ rfl
    repeat refine .step true ?_ (spared (by decide +kernel))
    exact .start
  apply waste_is_final (by decide) course (i := false) _ (.schedule (fun _ _ => trivial) .start [false, false])
  intro spares
  have reasons := spares rfl (fun j apart => ?_) rfl
  · exact absurd reasons (by decide +kernel)
  · cases j with
    | false => exact absurd rfl apart
    | true => exact id

end Aeterna.Memory
