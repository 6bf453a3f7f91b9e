import Aeterna.Lib.Sequences
import Aeterna.Memory.Recovery

namespace Aeterna.Memory
open Lib (Ahead Program)
open List Lib.Program

/-- A registered provider, which answers with its best matches for a vector. -/
structure LayerProvider (Vector Score : Type) where
  layer : MemoryLayer
  search : Vector → Nat → Except String (List (LayerEntry Score))
  matching : Vector → List (LayerEntry Score)
  ranked : ∀ vector limit, search vector limit = .ok ((matching vector).take limit)

section
variable {Vector Score : Type} (providers : List (LayerProvider Vector Score)) (vector : Vector)

def returned (limit : Nat) : List (LayerEntry Score) :=
  (providers.map (fun p => (p.matching vector).take limit)).flatten

def held : List Nat := providers.map (fun p => (p.matching vector).length)

theorem returned_length (limit : Nat) :
    (returned providers vector limit).length = ((held providers vector).map (min limit)).sum := by
  simp [returned, held, length_flatten, Function.comp_def]

end

section
variable {Vector Score : Type} [LinearOrder Score] [Zero Score]

def MoreImportant (a b : LayerEntry Score) : Prop := b.importanceScore.getD 0 ≤ a.importanceScore.getD 0

instance : DecidableRel (@MoreImportant Score _ _) := fun a b =>
  inferInstanceAs (Decidable (b.importanceScore.getD 0 ≤ a.importanceScore.getD 0))

instance : Std.Total (@MoreImportant Score _ _) := ⟨fun _ _ => le_total _ _⟩

instance : IsTrans (LayerEntry Score) MoreImportant := ⟨fun _ _ _ first second => le_trans second first⟩

/-- The answers of the providers that the caller may search. -/
def searchProviders (embed : String → Except String Vector) (allowed : MemoryLayer → Bool)
    (providers : List (LayerProvider Vector Score)) (query : String) (limit : Nat) :
    Except String (List (LayerEntry Score)) := do
  let vector ← embed query
  let answers ← (providers.filter (fun p => allowed p.layer)).mapM (fun p => p.search vector limit)
  pure (answers.flatten.insertionSort MoreImportant)

theorem searchProviders_eq (embed : String → Vector) (allowed : MemoryLayer → Bool)
    (providers : List (LayerProvider Vector Score)) (query : String) (limit : Nat) :
    searchProviders (fun query => .ok (embed query)) allowed providers query limit =
      .ok ((returned (providers.filter (fun p => allowed p.layer)) (embed query) limit).insertionSort
        MoreImportant) := by
  have asked : (fun p : LayerProvider Vector Score => p.search (embed query) limit) =
      fun p => (pure ((p.matching (embed query)).take limit) : Except String _) :=
    funext (fun p => p.ranked (embed query) limit)
  have answers := mapM_pure (m := Except String) (l := providers.filter (fun p => allowed p.layer))
    (f := fun p => (p.matching (embed query)).take limit)
  have found : searchProviders (fun query => .ok (embed query)) allowed providers query limit =
      (providers.filter (fun p => allowed p.layer)).mapM (fun p => p.search (embed query) limit) >>=
        fun answers => pure (answers.flatten.insertionSort MoreImportant) := rfl
  rw [found, asked, answers]
  rfl

/-- A search over entries of which `held` match and some are returned finds as many as it can, the most important
of those returned. -/
structure Fed (limit held : Nat) (returned results : List (LayerEntry Score)) : Prop where
  count : results.length = min limit held
  chosen : ∃ rest, (results ++ rest).Perm returned ∧ Ahead MoreImportant results rest

theorem take_sorted (n : Nat) (entries : List (LayerEntry Score)) :
    ∃ rest, ((entries.insertionSort MoreImportant).take n ++ rest).Perm entries ∧
      Ahead MoreImportant ((entries.insertionSort MoreImportant).take n) rest := by
  have whole := take_append_drop n (entries.insertionSort MoreImportant)
  have sorted := pairwise_insertionSort MoreImportant entries
  rw [← whole] at sorted
  refine ⟨(entries.insertionSort MoreImportant).drop n, ?_, (pairwise_append.mp sorted).2.2⟩
  rw [whole]
  exact perm_insertionSort MoreImportant entries

def Enough (limit fetched : Nat) (sizes : List Nat) : Prop := min limit sizes.sum ≤ (sizes.map (min fetched)).sum

theorem sum_min_le (fetched : Nat) (sizes : List Nat) : (sizes.map (min fetched)).sum ≤ sizes.sum := by
  induction sizes with
  | nil => exact Nat.le_refl 0
  | cons size rest ih =>
    rw [map_cons, sum_cons, sum_cons]
    omega

theorem enough_of_le {limit fetched : Nat} (le : limit ≤ fetched) (sizes : List Nat) :
    Enough limit fetched sizes := by
  induction sizes with
  | nil => exact Nat.min_le_right limit 0
  | cons size rest ih =>
    unfold Enough at ih ⊢
    rw [map_cons, sum_cons, sum_cons]
    omega

theorem fed_iff (providers : List (LayerProvider Vector Score)) (vector : Vector) (limit fetched : Nat) :
    Fed limit (held providers vector).sum (returned providers vector fetched)
        (((returned providers vector fetched).insertionSort MoreImportant).take limit) ↔
      Enough limit fetched (held providers vector) := by
  have bound := sum_min_le fetched (held providers vector)
  have length : (((returned providers vector fetched).insertionSort MoreImportant).take limit).length =
      min limit (((held providers vector).map (min fetched)).sum) := by
    rw [length_take, length_insertionSort, returned_length]
  constructor
  · intro fed
    have count := fed.count
    rw [length] at count
    unfold Enough
    omega
  · intro enough
    refine ⟨?_, take_sorted limit _⟩
    rw [length]
    unfold Enough at enough
    omega

end

section
variable {Score : Type} (manager : ReasoningManager) (input : SearchInput) (w : SearchWorld Score)

def ReasoningManager.admitted : Bool :=
  match w.breaker.state with
  | .closed => true
  | .opened => w.breaker.openedAt + manager.circuitBreaker.recoveryTimeoutSecs ≤ w.now &&
    0 < manager.circuitBreaker.halfOpenMaxRequests
  | .halfOpen => w.breaker.halfOpenRequests < manager.circuitBreaker.halfOpenMaxRequests

def ReasoningManager.newTrace : Option ReasoningTrace :=
  match w.reasoned input.queryText input.contextSummary with
  | .traced trace => some trace
  | .timedOut now => some (timedOutTrace manager now)
  | .failed _ => none

/-- The trace a search goes by. -/
def ReasoningManager.guide : Option ReasoningTrace :=
  if manager.reasons input && manager.admitted w then
    (if manager.reasoningCache then w.cached input.queryText else none).or (manager.newTrace input w)
  else none

variable (guide : Option ReasoningTrace)

def guidedQuery : String := (guide.bind (·.refinedQuery)).getD input.queryText

def guidedLimit : Nat :=
  (guide.map (calculateAdjustedLimit · input.limit)).getD input.limit

theorem searchWith_run (query : String) (trace : Option ReasoningTrace) (limit : Nat) :
    ((searchWith input query trace limit).run (searchExec manager) w).1 =
      (w.layers query limit).map (fun found => (found.take input.limit, trace)) := by
  rw [searchWith, searchCall, run_bind, run_ask]
  dsimp only [searchExec]
  cases w.layers query limit with
  | error e => rfl
  | ok found => rfl

theorem isAllowed_frame : ∃ breaker,
    ((isAllowed manager).run (searchExec manager) w).2 = { w with breaker := breaker } := by
  rw [isAllowed, searchCall, run_bind, run_ask]
  dsimp only [searchExec]
  cases w.breaker.state with
  | closed => exact ⟨_, rfl⟩
  | halfOpen => exact ⟨_, rfl⟩
  | opened =>
    by_cases elapsed : w.breaker.openedAt + manager.circuitBreaker.recoveryTimeoutSecs ≤ w.now
    · simp only [searchCall, run_bind, run_ask, searchExec, if_pos elapsed]
      exact ⟨_, rfl⟩
    · simp only [searchCall, run_bind, run_ask, searchExec, if_neg elapsed]
      exact ⟨_, rfl⟩

def Goes (outcome : Except String (List (LayerEntry Score) × Option ReasoningTrace)) : Prop :=
  ∃ trace, outcome = (w.layers (guidedQuery input guide) (guidedLimit input guide)).map
    (fun found => (found.take input.limit, trace))

variable {manager input w}

theorem reasonAnew_run (able : manager.reasoner = true) :
    Goes input w (manager.newTrace input w) ((reasonAnew manager input).run (searchExec manager) w).1 := by
  rw [reasonAnew, applyReasoning, able, Bool.not_true, if_neg Bool.false_ne_true, searchCall, run_bind, run_bind, run_ask]
  dsimp only [searchExec]
  unfold ReasoningManager.newTrace
  cases w.reasoned input.queryText input.contextSummary with
  | failed e => exact ⟨none, searchWith_run ..⟩
  | traced trace =>
    cases manager.reasoningCache with
    | true => exact ⟨_, searchWith_run ..⟩
    | false => exact ⟨_, searchWith_run ..⟩
  | timedOut now =>
    cases manager.reasoningCache with
    | true => exact ⟨_, searchWith_run ..⟩
    | false => exact ⟨_, searchWith_run ..⟩

theorem searchReasoning_run (able : manager.reasoner = true) :
    Goes input w ((if manager.reasoningCache then w.cached input.queryText else none).or (manager.newTrace input w))
      ((searchReasoning manager input).run (searchExec manager) w).1 := by
  rw [searchReasoning]
  cases manager.reasoningCache with
  | false => exact reasonAnew_run able
  | true =>
    rw [if_pos rfl, if_pos rfl, searchCall, run_bind, run_ask]
    dsimp only [searchExec]
    cases w.cached input.queryText with
    | none => exact reasonAnew_run able
    | some cached => exact ⟨_, searchWith_run ..⟩

theorem searchTextWithReasoning_run (standard : w.rlm input.queryText = none)
    (unmarked : containsText input.queryText "TRIGGER_FAILURE" = false) (service : w.embeddingService = true) :
    Goes input w (manager.guide input w) ((searchTextWithReasoning manager input).run (searchExec manager) w).1 := by
  obtain ⟨breaker, frame⟩ := isAllowed_frame manager w
  have asked : (isAllowed manager).run (searchExec manager) w =
      (.ok (manager.admitted w), { w with breaker := breaker }) := Prod.ext isAllowed_run frame
  rw [searchTextWithReasoning, searchCall, run_bind, run_ask]
  dsimp only [searchExec]
  rw [standard, unmarked, searchCall]
  dsimp only
  rw [if_neg Bool.false_ne_true, run_bind, run_ask]
  dsimp only [searchExec]
  rw [service, Bool.not_true, if_neg Bool.false_ne_true, run_bind_of_ok asked]
  unfold ReasoningManager.guide
  cases goes : manager.reasons input && manager.admitted w with
  | true =>
    have able : manager.reasoner = true := by
      simp only [ReasoningManager.reasons, Bool.and_eq_true] at goes
      exact goes.1.1.2
    exact searchReasoning_run able
  | false => exact ⟨none, searchWith_run ..⟩

end

section
variable {Vector Score : Type} [LinearOrder Score] [Zero Score]

/-- What the strategy fetches is enough: always with a full limit; with half a limit, or one that overflows when it is
doubled, only if the providers return that many entries anyway. -/
def Feeds (limit : Nat) (sizes : List Nat) : Option ReasoningStrategy → Prop
  | none | some .targeted => True
  | some .exhaustive => limit < 2 ^ 63 ∨ Enough limit (limit * 2 % 2 ^ 64) sizes
  | some .semanticOnly => Enough limit (limit / 2) sizes

theorem enough_guided_iff (input : SearchInput) (guide : Option ReasoningTrace) (sizes : List Nat) :
    Enough input.limit (guidedLimit input guide) sizes ↔ Feeds input.limit sizes (guide.map (·.strategy)) := by
  cases guide with
  | none => exact iff_of_true (enough_of_le (Nat.le_refl _) sizes) trivial
  | some trace =>
    dsimp only [guidedLimit, Option.map_some, Option.getD_some, calculateAdjustedLimit]
    cases trace.strategy with
    | targeted => exact iff_of_true (enough_of_le (Nat.le_refl _) sizes) trivial
    | semanticOnly => exact Iff.rfl
    | exhaustive =>
      constructor
      · exact Or.inr
      · intro feeds
        cases feeds with
        | inl small =>
          have double : input.limit ≤ input.limit * 2 % 2 ^ 64 := by omega
          exact enough_of_le double sizes
        | inr enough => exact enough

/-- The search returns what it owes, of what the providers return for the query it goes by. -/
def Satisfies (manager : ReasoningManager) (input : SearchInput) (w : SearchWorld Score) (embed : String → Vector)
    (providers : List (LayerProvider Vector Score)) : Prop :=
  let guide := manager.guide input w
  let vector := embed (guidedQuery input guide)
  ∃ results trace, ((searchTextWithReasoning manager input).run (searchExec manager) w).1 = .ok (results, trace) ∧
    Fed input.limit (held providers vector).sum (returned providers vector (guidedLimit input guide)) results

/-- A standard search is not starved exactly when its strategy feeds it. -/
theorem search_fed_iff (manager : ReasoningManager) (input : SearchInput) (w : SearchWorld Score)
    (embed : String → Vector) (allowed : MemoryLayer → Bool) (providers : List (LayerProvider Vector Score))
    (standard : w.rlm input.queryText = none) (service : w.embeddingService = true)
    (layers : w.layers = searchProviders (fun query => .ok (embed query)) allowed providers) :
    Satisfies manager input w embed (providers.filter (fun p => allowed p.layer)) ↔
      containsText input.queryText "TRIGGER_FAILURE" = false ∧
        Feeds input.limit (held (providers.filter (fun p => allowed p.layer))
          (embed (guidedQuery input (manager.guide input w)))) ((manager.guide input w).map (·.strategy)) := by
  cases marked : containsText input.queryText "TRIGGER_FAILURE" with
  | true =>
    have failed : ((searchTextWithReasoning manager input).run (searchExec manager) w).1 =
        .error "Simulated embedding failure" := by
      rw [searchTextWithReasoning, searchCall, run_bind, run_ask]
      dsimp only [searchExec]
      rw [standard, marked]
      rfl
    refine iff_of_false ?_ (fun both => Bool.noConfusion both.1)
    intro owed
    obtain ⟨results, trace, answer, -⟩ := owed
    rw [failed] at answer
    cases answer
  | false =>
    have goes : Goes input w (manager.guide input w)
        ((searchTextWithReasoning manager input).run (searchExec manager) w).1 :=
      searchTextWithReasoning_run standard marked service
    obtain ⟨trace, outcome⟩ := goes
    rw [layers, searchProviders_eq] at outcome
    rw [and_iff_right rfl, ← enough_guided_iff, ← fed_iff]
    constructor
    · intro owed
      obtain ⟨results, trace', answer, fed⟩ := owed
      rw [outcome] at answer
      cases answer
      exact fed
    · exact fun fed => ⟨_, trace, outcome, fed⟩

end

/-- A provider that holds one entry for every query. -/
def soleProvider : LayerProvider String Nat where
  layer := .project
  search _ limit := .ok ([{ id := "m1", content := "postgres is the store", layer := .project }].take limit)
  matching _ := [{ id := "m1", content := "postgres is the store", layer := .project }]
  ranked _ _ := rfl

def slowWorld : SearchWorld Nat where
  breaker := .new 0
  now := 0
  rlm _ := none
  embeddingService := true
  cached _ := none
  reasoned _ _ := .timedOut 3
  layers := searchProviders .ok (fun _ => true) [soleProvider]

def oneEntry : SearchInput := { queryText := "database design patterns", limit := 1 }

theorem timeout_starves : ¬ Satisfies strictManager oneEntry slowWorld id [soleProvider] := by
  intro owed
  obtain ⟨results, trace, answer, fed⟩ := owed
  have none : ((searchTextWithReasoning strictManager oneEntry).run (searchExec strictManager) slowWorld).1.map
      (·.1.length) = .ok 0 := by decide +kernel
  rw [answer] at none
  have count := fed.count
  have empty : results.length = 0 := Except.ok.inj none
  rw [empty] at count
  exact absurd count (by decide +kernel)

def twoEntries : SearchInput := { oneEntry with limit := 2 }

theorem search_fed_sample : Satisfies strictManager twoEntries slowWorld id [soleProvider] :=
  (search_fed_iff strictManager twoEntries slowWorld id (fun _ => true) [soleProvider] rfl rfl rfl).mpr
    ⟨by decide +kernel, show 1 ≤ 1 from Nat.le_refl 1⟩

end Aeterna.Memory
