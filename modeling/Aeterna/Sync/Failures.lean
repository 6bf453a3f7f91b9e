import Aeterna.Sync.Convergence
import Aeterna.Sync.Moves

namespace Aeterna.Sync
open Lib Eff List

def retryCountAfter (items : List SyncFailure) (failure : SyncFailure) : Nat :=
  ((items.find? (fun item => item.knowledgeId = failure.knowledgeId)).map (·.retryCount + 1)).getD
    failure.retryCount

def mergeItems (items : List SyncFailure) (failure : SyncFailure) : List SyncFailure :=
  let remaining := items.eraseP (fun item => item.knowledgeId = failure.knowledgeId)
  if retryCountAfter items failure ≥ maxSyncRetries then remaining
  else remaining ++ [{ failure with retryCount := retryCountAfter items failure }]

def mergeLetters (tenantId : String) (items : List SyncFailure) (failure : SyncFailure) : List DeadLetterItem :=
  if retryCountAfter items failure ≥ maxSyncRetries then
    [⟨"sync_entry", failure.knowledgeId, tenantId, failure.error, retryCountAfter items failure, maxSyncRetries⟩]
  else []

theorem mergeSyncError_run (env : Env) (failure : SyncFailure) (w : World) :
    mergeSyncError env failure w = (.ok (), { w with
      working := { w.working with failedItems := mergeItems w.working.failedItems failure }
      deadLetters := w.deadLetters ++ mergeLetters env.tenantId w.working.failedItems failure }) := by
  unfold mergeSyncError
  rw [bind_of_ok (get_run w)]
  by_cases spent : retryCountAfter w.working.failedItems failure ≥ maxSyncRetries
  · simp only [mergeItems, mergeLetters, spent, if_true]
    exact congrFun (if_pos spent) w
  · simp only [mergeItems, mergeLetters, spent, if_false, append_nil]
    exact congrFun (if_neg spent) w

structure Tally where
  items : List SyncFailure
  letters : List DeadLetterItem
  nodup : (items.map (·.knowledgeId)).Nodup

variable {items : List SyncFailure} {α : Type} {w next : World}

theorem eraseP_of_nodup (nodup : (items.map (·.knowledgeId)).Nodup) (id : String) :
    items.eraseP (fun item => item.knowledgeId = id) = items.filter (fun item => item.knowledgeId ≠ id) := by
  induction items with
  | nil => rfl
  | cons item rest ih =>
    obtain ⟨fresh, later⟩ := nodup_cons.mp nodup
    by_cases own : item.knowledgeId = id
    · have others : rest.filter (fun item => item.knowledgeId ≠ id) = rest := by
        refine filter_eq_self.mpr (fun other member => ?_)
        have different : other.knowledgeId ≠ id := by
          intro same
          exact fresh (mem_map.mpr ⟨other, member, same.trans own.symm⟩)
        simp [different]
      simp only [ne_eq, decide_not] at others
      simp [own, others]
    · have shorter := ih later
      simp only [ne_eq, decide_not] at shorter
      simp [own, shorter]

theorem mergeItems_nodup (nodup : (items.map (·.knowledgeId)).Nodup) (failure : SyncFailure) :
    ((mergeItems items failure).map (·.knowledgeId)).Nodup := by
  unfold mergeItems
  simp only [eraseP_of_nodup nodup]
  have kept : ((items.filter (fun item => item.knowledgeId ≠ failure.knowledgeId)).map (·.knowledgeId)).Nodup :=
    nodup.sublist (filter_sublist.map _)
  split
  · exact kept
  · rw [map_append, nodup_append]
    refine ⟨kept, by simp, ?_⟩
    intro id listed other same
    obtain ⟨item, member, rfl⟩ := mem_map.mp listed
    have different := (mem_filter.mp member).2
    simp only [map_cons, map_nil, mem_singleton] at same
    rw [same]
    simpa using different

def Tally.merge (tenantId : String) (t : Tally) (failure : SyncFailure) : Tally where
  items := mergeItems t.items failure
  letters := t.letters ++ mergeLetters tenantId t.items failure
  nodup := mergeItems_nodup t.nodup failure

def Tally.book (tenantId : String) (attempts : List Attempt) (t : Tally) : Tally :=
  (attempts.filterMap (·.failure)).foldl (Tally.merge tenantId) t

def retryOf (items : List SyncFailure) (id : String) : Option Nat :=
  (items.find? (fun item => item.knowledgeId = id)).map (·.retryCount)

def Tally.view (t : Tally) (id : String) : Option Nat × List DeadLetterItem :=
  (retryOf t.items id, t.letters.filter (fun letter => letter.itemId = id))

def countFailure (tenantId : String) (held : Option Nat × List DeadLetterItem) (failure : SyncFailure) :
    Option Nat × List DeadLetterItem :=
  let count := (held.1.map (· + 1)).getD failure.retryCount
  if count ≥ maxSyncRetries then
    (none, held.2 ++ [⟨"sync_entry", failure.knowledgeId, tenantId, failure.error, count, maxSyncRetries⟩])
  else (some count, held.2)

theorem retryCountAfter_eq (items : List SyncFailure) (failure : SyncFailure) : retryCountAfter items failure =
      ((retryOf items failure.knowledgeId).map (· + 1)).getD failure.retryCount := by
  simp [retryCountAfter, retryOf, Option.map_map, Function.comp_def]

theorem retryOf_filter_same (items : List SyncFailure) (id : String) :
    retryOf (items.filter (fun item => item.knowledgeId ≠ id)) id = none := by
  simp [retryOf]

theorem retryOf_filter_other (items : List SyncFailure) {id other : String} (different : other ≠ id) :
    retryOf (items.filter (fun item => item.knowledgeId ≠ id)) other = retryOf items other := by
  unfold retryOf
  congr 1
  induction items with
  | nil => rfl
  | cons item rest ih =>
    by_cases own : item.knowledgeId = id
    · have skipped : item.knowledgeId ≠ other := by rw [own]; exact different.symm
      simpa [own, skipped, different.symm] using ih
    · by_cases hit : item.knowledgeId = other
      · simp [hit, different]
      · simpa [own, hit] using ih

theorem retryOf_append (items : List SyncFailure) (last : SyncFailure) (id : String) : retryOf (items ++ [last]) id =
      (retryOf items id).or (if last.knowledgeId = id then some last.retryCount else none) := by
  unfold retryOf
  rw [find?_append, Option.map_or]
  by_cases own : last.knowledgeId = id <;> simp [own]

theorem merge_keyed (tenantId : String) :
    Keyed (fun _ => True) Tally.view (fun failure : SyncFailure => failure.knowledgeId) (Tally.merge tenantId)
      (countFailure tenantId) where
  same t failure _ := by
    have count : ((t.view failure.knowledgeId).1.map (· + 1)).getD failure.retryCount =
        retryCountAfter t.items failure := (retryCountAfter_eq t.items failure).symm
    unfold countFailure
    simp only
    rw [count]
    simp only [Tally.view, Tally.merge, mergeItems, mergeLetters, eraseP_of_nodup t.nodup, filter_append]
    by_cases spent : retryCountAfter t.items failure ≥ maxSyncRetries
    · rw [if_pos spent, if_pos spent, if_pos spent, retryOf_filter_same]
      simp
    · rw [if_neg spent, if_neg spent, if_neg spent, retryOf_append, retryOf_filter_same]
      simp
  other t failure id _ different := by
    simp only [Tally.view, Tally.merge, mergeItems, mergeLetters, eraseP_of_nodup t.nodup, filter_append]
    by_cases spent : retryCountAfter t.items failure ≥ maxSyncRetries
    · rw [if_pos spent, if_pos spent, retryOf_filter_other _ different]
      simp [different.symm]
    · rw [if_neg spent, if_neg spent, retryOf_append, retryOf_filter_other _ different]
      simp [different.symm]

theorem mergeSyncErrors_tally (env : Env) (failures : List SyncFailure) (w : World)
    (nodup : (w.working.failedItems.map (·.knowledgeId)).Nodup) :
    let last := failures.foldl (Tally.merge env.tenantId) ⟨w.working.failedItems, [], nodup⟩
    mergeSyncErrors env failures w = (.ok (), { w with
      working := { w.working with failedItems := last.items }
      deadLetters := w.deadLetters ++ last.letters }) := by
  have general : ∀ (failures : List SyncFailure) (t : Tally) (base : List DeadLetterItem),
      let last := failures.foldl (Tally.merge env.tenantId) t
      mergeSyncErrors env failures { w with
        working := { w.working with failedItems := t.items }, deadLetters := base ++ t.letters } =
      (.ok (), { w with
        working := { w.working with failedItems := last.items }, deadLetters := base ++ last.letters }) := by
    intro failures
    induction failures with
    | nil => exact fun t base => rfl
    | cons failure rest ih =>
      intro t base
      have step := mergeSyncError_run env failure { w with
        working := { w.working with failedItems := t.items }, deadLetters := base ++ t.letters }
      refine (bind_of_ok step).trans ?_
      have next := ih (t.merge env.tenantId failure) base
      simp only [Tally.merge, ← append_assoc] at next
      exact next
  have start := general failures ⟨w.working.failedItems, [], nodup⟩ w.deadLetters
  simp only [append_nil] at start
  exact start

structure SameFailures (w next : World) : Prop where
  states : next.states = w.states
  deadLetters : next.deadLetters = w.deadLetters
  failedItems : next.working.failedItems = w.working.failedItems

theorem SameFailures.refl (w : World) : SameFailures w w := ⟨rfl, rfl, rfl⟩

theorem SameFailures.trans {a b c : World} (first : SameFailures a b) (second : SameFailures b c) :
    SameFailures a c :=
  ⟨second.states.trans first.states, second.deadLetters.trans first.deadLetters,
    second.failedItems.trans first.failedItems⟩

/-- Apart from a governance block, `x` leaves the failure records alone. -/
abbrev Spares {α : Type} (x : SyncM α) : Prop := Unless (fun e : SyncError => e.isBlock = true) SameFailures x

theorem Spares.bind {β : Type} {x : SyncM α} {f : α → SyncM β} (first : Spares x) (second : ∀ a, Spares (f a)) :
    Spares (x >>= f) :=
  Unless.bind (fun first second => first.trans second) first second

variable (env : Env)

theorem pure_spares (a : α) : Spares (pure a : SyncM α) :=
  Unless.of_always (fun w => .refl w)

theorem get_spares : Spares (Eff.get : SyncM World) := Unless.of_always (fun w => .refl w)

theorem external_spares (answer : World → α) : Spares (external env answer) := by
  refine Unless.of_always (fun w => ?_)
  unfold external
  split <;> exact ⟨rfl, rfl, rfl⟩

theorem callMemory_spares (call : MemoryCall) : Spares (callMemory env call) := by
  refine Unless.of_always (fun w => ?_)
  unfold callMemory
  split
  · rename_i fault _
    cases fault.landed <;> exact ⟨rfl, rfl, rfl⟩
  · exact ⟨rfl, rfl, rfl⟩

theorem orFail_spares (wrap : String → SyncError) (answer : Except String α) : Spares (orFail wrap answer) := by
  refine Unless.of_always (fun w => ?_)
  cases answer <;> exact .refl w

theorem currentTime_spares : Spares (currentTime env) := Unless.of_always (fun w => .refl w)

theorem updateWorking_spares {f : SyncState → SyncState} (kept : ∀ s, (f s).failedItems = s.failedItems) :
    Spares (updateWorking f) :=
  Unless.of_always (fun w => ⟨rfl, rfl, kept w.working⟩)

theorem enforceValidation_spares (label : String) (entry : KnowledgeEntry) (result : ValidationResult) :
    Spares (enforceValidation env label entry result) := by
  unfold enforceValidation
  split
  · exact pure_spares ()
  · refine Spares.bind (updateWorking_spares (fun _ => rfl)) (fun _ => ?_)
    split
    · exact pure_spares ()
    · -- the record is pushed here, and the error is a block
      rename_i message _
      intro w fine
      exact absurd rfl (fine (.governanceBlock message) rfl)

theorem syncEntry_spares (entry : KnowledgeEntry) : Spares (syncEntry env entry) := by
  unfold syncEntry
  split
  · exact Unless.of_always (fun w => .refl w)
  · refine Spares.bind ?_ (fun _ => Spares.bind ?_ (fun _ => ?_))
    · unfold validateRemotely
      split
      · split
        · exact (external_spares env _).bind (fun answer => (orFail_spares _ answer).bind
            (fun result => enforceValidation_spares env _ entry result))
        · exact pure_spares ()
      · exact pure_spares ()
    · unfold validateLocally
      split
      · exact pure_spares ()
      · exact (external_spares env _).bind (fun answer => (orFail_spares _ answer).bind
          (fun result => enforceValidation_spares env _ entry result))
    · refine get_spares.bind (fun w => ?_)
      simp only
      split
      · exact pure_spares ()
      · exact (currentTime_spares env).bind (fun _ => (callMemory_spares env _).bind (fun answer =>
          (orFail_spares _ answer).bind (fun _ => updateWorking_spares (fun _ => rfl))))

def Attempt.Formed (attempt : Attempt) : Prop :=
  ∀ failure, attempt.failure = some failure →
    failure.knowledgeId = attempt.knowledgeId ∧ failure.retryCount = 0

def Reports (x : SyncM (List Attempt)) : Prop :=
  ∀ w attempts next, x w = (.ok attempts, next) →
    (∀ attempt ∈ attempts, attempt.Formed) ∧
      ((∀ attempt ∈ attempts, attempt.blocked = false) → SameFailures w next)

theorem attemptEntry_reports (entry : KnowledgeEntry) (w : World) :
    ∃ attempt next, attemptEntry env entry w = (.ok attempt, next) ∧ attempt.Formed ∧
      (attempt.blocked = false → SameFailures w next) := by
  have spared := syncEntry_spares env entry w
  unfold attemptEntry
  rw [bind_of_ok (attempt_run _ w)]
  cases outcome : (syncEntry env entry w).1 with
  | ok done =>
    refine ⟨_, _, rfl, nofun, fun _ => spared (fun e failed => ?_)⟩
    cases outcome.symm.trans failed
  | error e =>
    refine ⟨_, _, rfl, ?_, fun fine => spared (fun other failed => ?_)⟩
    · intro failure same
      cases same
      exact ⟨rfl, rfl⟩
    · cases outcome.symm.trans failed
      exact fun blocked => by simp [blocked] at fine

theorem reportFailure_run (knowledgeId error : String) (w : World) :
    ∃ attempt, reportFailure env knowledgeId error w = (.ok attempt, w) ∧ attempt.Formed := by
  refine ⟨_, rfl, ?_⟩
  intro failure same
  cases same
  exact ⟨rfl, rfl⟩

theorem syncEntries_reports (entries : List KnowledgeEntry) : Reports (syncEntries env entries) := by
  induction entries with
  | nil =>
    intro w attempts next run
    cases run
    exact ⟨nofun, fun _ => .refl w⟩
  | cons entry rest ih =>
    intro w attempts next run
    obtain ⟨attempt, w₁, first, formed, spared⟩ := attemptEntry_reports env entry w
    unfold syncEntries at run
    rw [bind_of_ok first] at run
    obtain ⟨others, w₂, second, last⟩ := bind_ok run
    cases last
    obtain ⟨formedOthers, sparedOthers⟩ := ih _ _ _ second
    refine ⟨forall_mem_cons.mpr ⟨formed, formedOthers⟩, fun fine => ?_⟩
    obtain ⟨own, rest⟩ := forall_mem_cons.mp fine
    exact (spared own).trans (sparedOthers rest)

theorem Reports.append {x y : SyncM (List Attempt)} (first : Reports x) (second : Reports y) : Reports (do
      let attempts ← x
      let others ← y
      pure (attempts ++ others)) := by
  intro w attempts next run
  obtain ⟨front, w₁, run₁, run⟩ := bind_ok run
  obtain ⟨back, w₂, run₂, last⟩ := bind_ok run
  cases last
  obtain ⟨formed₁, spared₁⟩ := first _ _ _ run₁
  obtain ⟨formed₂, spared₂⟩ := second _ _ _ run₂
  refine ⟨forall_mem_append.mpr ⟨formed₁, formed₂⟩, fun fine => ?_⟩
  obtain ⟨own, rest⟩ := forall_mem_append.mp fine
  exact (spared₁ own).trans (spared₂ rest)

theorem Reports.after {x : SyncM α} (spares : Spares x) {f : α → SyncM (List Attempt)}
    (pass : ∀ a, Reports (f a)) : Reports (x >>= f) := by
  intro w attempts next run
  obtain ⟨a, w₁, first, rest⟩ := bind_ok run
  have spared := spares w (by rw [first]; exact nofun)
  rw [first] at spared
  obtain ⟨formed, sparedRest⟩ := pass a _ _ _ rest
  exact ⟨formed, fun fine => spared.trans (sparedRest fine)⟩

theorem reportFailure_reports (knowledgeId error : String) : Reports (do
      let attempt ← reportFailure env knowledgeId error
      pure [attempt]) := by
  intro w attempts next run
  obtain ⟨attempt, reported, formed⟩ := reportFailure_run env knowledgeId error w
  rw [bind_of_ok reported] at run
  cases run
  exact ⟨by simpa using formed, fun _ => .refl w⟩

variable (layer : KnowledgeLayer)

theorem syncLayer_reports : Reports (syncLayer env layer) := by
  refine Reports.after (external_spares env _) (fun answer => ?_)
  cases answer with
  | error message => exact reportFailure_reports env _ message
  | ok entries =>
    intro w attempts next run
    obtain ⟨own, w₁, first, last⟩ := bind_ok run
    cases last
    obtain ⟨formed, spared⟩ := syncEntries_reports env entries _ _ _ first
    exact ⟨forall_mem_cons.mpr ⟨nofun, formed⟩, fun fine => spared (forall_mem_cons.mp fine).2⟩

theorem syncLayers_reports (layers : List KnowledgeLayer) : Reports (syncLayers env layers) := by
  induction layers with
  | nil =>
    intro w attempts next run
    cases run
    exact ⟨nofun, fun _ => .refl w⟩
  | cons layer rest ih => exact (syncLayer_reports env layer).append ih

theorem dropEntry_spares (path : String) : Spares (dropEntry env layer path) := by
  refine get_spares.bind (fun w => ?_)
  split
  · exact pure_spares ()
  · exact (callMemory_spares env _).bind (fun answer => (orFail_spares _ answer).bind
      (fun _ => updateWorking_spares (fun _ => rfl)))

theorem syncItem_reports (path : String) : Reports (syncItem env layer path) := by
  refine Reports.after (external_spares env _) (fun answer => ?_)
  match answer with
  | .ok (some entry) =>
    intro w attempts next run
    obtain ⟨attempt, w₁, first, formed, spared⟩ := attemptEntry_reports env entry w
    replace run := (bind_of_ok first).symm.trans run
    cases run
    exact ⟨by simpa using formed, fun fine => spared (by simpa using fine)⟩
  | .ok none =>
    refine Reports.after (dropEntry_spares env layer path) (fun _ => ?_)
    intro w attempts next run
    cases run
    exact ⟨nofun, fun _ => .refl w⟩
  | .error message => exact reportFailure_reports env _ message

theorem syncItems_reports (items : List (KnowledgeLayer × String)) : Reports (syncItems env items) := by
  induction items with
  | nil =>
    intro w attempts next run
    cases run
    exact ⟨nofun, fun _ => .refl w⟩
  | cons item rest ih => exact (syncItem_reports env item.1 item.2).append ih

theorem headCommit_spares : Spares (headCommit env) :=
  (external_spares env _).bind (fun answer => orFail_spares _ answer)

inductive Cycle where
  | full
  | incremental
  deriving DecidableEq

def Cycle.run (env : Env) : Cycle → SyncM Unit
  | .full => syncAll env
  | .incremental => syncIncremental env

def fullPass (env : Env) : SyncM (List Attempt) := do
  let _ ← headCommit env
  syncLayers env KnowledgeLayer.walk

def incrementalPass (env : Env) (last : String) : SyncM (List Attempt) := do
  let head ← headCommit env
  if head = some last then
    pure []
  else
    let answer ← external env (fun w => (env.knowledge w.tick).affectedItems last)
    let items ← orFail .knowledgeManager answer
    syncItems env items

def Cycle.attempts (env : Env) : Cycle → SyncM (List Attempt)
  | .full => do
    beginOperation env
    fullPass env
  | .incremental => do
    beginOperation env
    let w ← Eff.get
    match w.working.lastKnowledgeCommit with
    | none => fullPass env
    | some last => incrementalPass env last

def Cycle.made (env : Env) (cycle : Cycle) (w : World) : List Attempt :=
  match (cycle.attempts env w).1 with
  | .ok attempts => attempts
  | .error _ => []

theorem fullPass_reports : Reports (fullPass env) :=
  Reports.after (headCommit_spares env) (fun _ => syncLayers_reports env _)

theorem incrementalPass_reports (last : String) : Reports (incrementalPass env last) := by
  refine Reports.after (headCommit_spares env) (fun head => ?_)
  split
  · intro w attempts next run
    cases run
    exact ⟨nofun, fun _ => .refl w⟩
  · exact Reports.after (external_spares env _) (fun answer => Reports.after (orFail_spares _ answer)
      (fun items => syncItems_reports env items))

variable {env}

theorem syncAllInternal_completed (run : syncAllInternal env w = (.ok (), next)) :
    ∃ attempts passed head, fullPass env w = (.ok attempts, passed) ∧
      finishSync env head attempts passed = (.ok (), next) := by
  obtain ⟨head, w₁, first, run⟩ := bind_ok run
  obtain ⟨attempts, w₂, second, last⟩ := bind_ok run
  refine ⟨attempts, w₂, head, ?_, last⟩
  unfold fullPass
  rw [bind_of_ok first, second]

theorem incremental_completed {last : String} (some_ : w.working.lastKnowledgeCommit = some last)
    (run : syncIncrementalLoaded env w = (.ok (), next)) :
    ∃ attempts passed, incrementalPass env last w = (.ok attempts, passed) ∧
      ((attempts = [] ∧ next = passed) ∨ ∃ head, finishSync env head attempts passed = (.ok (), next)) := by
  unfold syncIncrementalLoaded at run
  rw [bind_of_ok (get_run w)] at run
  simp only [some_] at run
  obtain ⟨head, w₁, first, run⟩ := bind_ok run
  unfold incrementalPass
  rw [bind_of_ok first]
  by_cases same : head = some last
  · rw [if_pos same] at run
    cases run
    refine ⟨[], next, ?_, .inl ⟨rfl, rfl⟩⟩
    rw [if_pos same]
    rfl
  · rw [if_neg same] at run
    obtain ⟨answer, w₂, second, run⟩ := bind_ok run
    obtain ⟨items, w₃, third, run⟩ := bind_ok run
    obtain ⟨attempts, w₄, fourth, finish⟩ := bind_ok run
    refine ⟨attempts, w₄, ?_, .inr ⟨head, finish⟩⟩
    rw [if_neg same, bind_of_ok second, bind_of_ok third, fourth]

theorem cycle_completed {cycle : Cycle} (run : cycle.run env w = (.ok (), next)) :
    ∃ started attempts passed, beginOperation env w = (.ok (), started) ∧
      cycle.attempts env w = (.ok attempts, passed) ∧
      (∀ attempt ∈ attempts, attempt.Formed) ∧
      ((∀ attempt ∈ attempts, attempt.blocked = false) → SameFailures started passed) ∧
      ((attempts = [] ∧ next = passed) ∨ ∃ head, finishSync env head attempts passed = (.ok (), next)) := by
  cases cycle with
  | full =>
    obtain ⟨_, started, begun, run⟩ := bind_ok run
    obtain ⟨attempts, passed, head, pass, finish⟩ := syncAllInternal_completed run
    obtain ⟨formed, spared⟩ := fullPass_reports env _ _ _ pass
    exact ⟨started, attempts, passed, begun, (bind_of_ok begun).trans pass, formed, spared,
      .inr ⟨head, finish⟩⟩
  | incremental =>
    obtain ⟨_, started, begun, run⟩ := bind_ok run
    cases synced : started.working.lastKnowledgeCommit with
    | none =>
      have full : syncAllInternal env started = (.ok (), next) := by
        unfold syncIncrementalLoaded at run
        rw [bind_of_ok (get_run started)] at run
        simpa only [synced] using run
      obtain ⟨attempts, passed, head, pass, finish⟩ := syncAllInternal_completed full
      obtain ⟨formed, spared⟩ := fullPass_reports env _ _ _ pass
      refine ⟨started, attempts, passed, begun, ?_, formed, spared, .inr ⟨head, finish⟩⟩
      refine (bind_of_ok begun).trans ((bind_of_ok (get_run started)).trans ?_)
      simpa only [synced] using pass
    | some last =>
      obtain ⟨attempts, passed, pass, ends⟩ := incremental_completed synced run
      obtain ⟨formed, spared⟩ := incrementalPass_reports env last _ _ _ pass
      refine ⟨started, attempts, passed, begun, ?_, formed, spared, ends⟩
      refine (bind_of_ok begun).trans ((bind_of_ok (get_run started)).trans ?_)
      simpa only [synced] using pass

theorem beginOperation_completed {started : World} (run : beginOperation env w = (.ok (), started)) :
    started.working = w.current ∧ started.states = some w.current ∧ started.deadLetters = w.deadLetters := by
  unfold beginOperation at run
  rcases getOrLoadState_cases env w with ⟨state, cached, load⟩ | ⟨_, _, _, load⟩ | ⟨uncached, _, load⟩
  · rw [bind_of_ok load] at run
    cases run
    simp [World.current, cached]
  · rw [bind_of_error load] at run
    cases run
  · rw [bind_of_ok load] at run
    cases run
    simp [World.current, uncached, World.advance]

theorem persistWorking_completed (run : persistWorking env w = (.ok (), next)) :
    next.states = some w.working ∧ next.deadLetters = w.deadLetters := by
  obtain ⟨answer, w₁, saved, run⟩ := bind_ok run
  obtain ⟨_, w₂, passed, last⟩ := bind_ok run
  cases last
  have kept : w₁.working = w.working ∧ w₁.deadLetters = w.deadLetters := by
    unfold saveWorking at saved
    split at saved
    · rename_i fault _
      cases saved
      cases fault.landed <;> exact ⟨rfl, rfl⟩
    · cases saved
      exact ⟨rfl, rfl⟩
  cases answer with
  | ok done =>
    cases passed
    exact ⟨congrArg some kept.1, kept.2⟩
  | error message => cases passed

theorem finishSync_completed {head : Option String} {attempts : List Attempt}
    (run : finishSync env head attempts w = (.ok (), next))
    (nodup : (w.working.failedItems.map (·.knowledgeId)).Nodup) :
    next.current.failedItems = (Tally.book env.tenantId attempts ⟨w.working.failedItems, [], nodup⟩).items ∧
      next.deadLetters =
        w.deadLetters ++ (Tally.book env.tenantId attempts ⟨w.working.failedItems, [], nodup⟩).letters := by
  obtain ⟨at_, w₁, timed, run⟩ := bind_ok run
  cases timed
  obtain ⟨_, w₂, stamped, run⟩ := bind_ok run
  cases stamped
  obtain ⟨_, w₃, merged, run⟩ := bind_ok run
  have tally := mergeSyncErrors_tally env (attempts.filterMap (·.failure))
    { w with working := { w.working with lastSyncAt := some (env.now w.tick), lastKnowledgeCommit := head } } nodup
  cases tally.symm.trans merged
  obtain ⟨_, w₄, counted, run⟩ := bind_ok run
  cases counted
  obtain ⟨states, letters⟩ := persistWorking_completed run
  exact ⟨by rw [World.current, states]; rfl, letters⟩

def FailedIn (attempts : List Attempt) (id : String) : Prop :=
  ∃ attempt ∈ attempts, attempt.knowledgeId = id ∧ attempt.failure.isSome

def AttemptedIn (attempts : List Attempt) (id : String) : Prop :=
  ∃ attempt ∈ attempts, attempt.knowledgeId = id

instance (attempts : List Attempt) (id : String) : Decidable (FailedIn attempts id) :=
  inferInstanceAs (Decidable (∃ attempt ∈ attempts, _))

instance (attempts : List Attempt) (id : String) : Decidable (AttemptedIn attempts id) :=
  inferInstanceAs (Decidable (∃ attempt ∈ attempts, _))

def nextStreak (attempts : List Attempt) (streak : String → Nat) (id : String) : Nat :=
  if FailedIn attempts id then streak id + 1 else if AttemptedIn attempts id then 0 else streak id

/-- A cycle the bookkeeping keeps up with: no item is blocked by governance, none fails twice, an item
that succeeds has no record, and an item already handed to the dead-letter queue does not fail again. -/
structure Fair (s : SyncState) (streak : String → Nat) (attempts : List Attempt) : Prop where
  unblocked : ∀ attempt ∈ attempts, attempt.blocked = false
  once : ((attempts.filterMap (·.failure)).map (·.knowledgeId)).Nodup
  cleared : ∀ attempt ∈ attempts, ¬ FailedIn attempts attempt.knowledgeId →
    ∀ item ∈ s.failedItems, item.knowledgeId ≠ attempt.knowledgeId
  notSpent : ∀ attempt ∈ attempts, attempt.failure.isSome → streak attempt.knowledgeId ≤ maxSyncRetries

instance (s : SyncState) (streak : String → Nat) (attempts : List Attempt) : Decidable (Fair s streak attempts) :=
  decidable_of_iff (_ ∧ _ ∧ _ ∧ _)
    ⟨fun ⟨unblocked, once, cleared, notSpent⟩ => ⟨unblocked, once, cleared, notSpent⟩,
      fun fair => ⟨fair.unblocked, fair.once, fair.cleared, fair.notSpent⟩⟩

/-- The count on record after `n` failures in a row; the last of them moves the item away. -/
def countOf (n : Nat) : Option Nat := if 1 ≤ n ∧ n ≤ maxSyncRetries then some (n - 1) else none

structure Counted (items : List SyncFailure) (streak : String → Nat) : Prop where
  nodup : (items.map (·.knowledgeId)).Nodup
  retry : ∀ id, retryOf items id = countOf (streak id)

theorem countFailure_streak {tenantId : String} {failure : SyncFailure} {n : Nat} (first : failure.retryCount = 0)
    (small : n ≤ maxSyncRetries) :
    (countFailure tenantId (countOf n, []) failure).1 = countOf (n + 1) ∧
      ((countFailure tenantId (countOf n, []) failure).2 ≠ [] ↔ n + 1 = maxSyncRetries + 1) := by
  unfold countFailure countOf maxSyncRetries at *
  by_cases fresh : n = 0
  · subst fresh
    simp [first]
  · have positive : 1 ≤ n := Nat.pos_of_ne_zero fresh
    have recorded : 1 ≤ n ∧ n ≤ 5 := ⟨positive, small⟩
    have again : n - 1 + 1 = n := by omega
    simp only [recorded, and_self, if_true, Option.map_some, Option.getD_some, again]
    by_cases spent : n ≥ 5
    · have five : n = 5 := by omega
      simp [five]
    · have more : 1 ≤ n + 1 ∧ n + 1 ≤ 5 := by omega
      have less : n ≠ 5 := by omega
      simp [spent, more, less]

theorem failures_of_item {attempts : List Attempt} (formed : ∀ attempt ∈ attempts, attempt.Formed)
    (once : ((attempts.filterMap (·.failure)).map (·.knowledgeId)).Nodup) (id : String) :
    (FailedIn attempts id → ∃ failure, failure.retryCount = 0 ∧
      (attempts.filterMap (·.failure)).filter (fun failure => failure.knowledgeId = id) = [failure]) ∧
    (¬ FailedIn attempts id →
      (attempts.filterMap (·.failure)).filter (fun failure => failure.knowledgeId = id) = []) := by
  constructor
  · rintro ⟨attempt, member, rfl, failed⟩
    obtain ⟨failure, reported⟩ := Option.isSome_iff_exists.mp failed
    obtain ⟨named, first⟩ := formed attempt member failure reported
    refine ⟨failure, first, filter_eq_singleton (once.of_map _)
      (mem_filterMap.mpr ⟨attempt, member, reported⟩) (by simpa using named) ?_⟩
    intro other listed same
    have equal : other.knowledgeId = failure.knowledgeId := by rw [named]; simpa using same
    exact inj_on_of_nodup_map once listed (mem_filterMap.mpr ⟨attempt, member, reported⟩) equal
  · intro spared
    refine filter_eq_nil_iff.mpr (fun failure listed same => spared ?_)
    obtain ⟨attempt, member, reported⟩ := mem_filterMap.mp listed
    have named := (formed attempt member failure reported).1
    exact ⟨attempt, member, by rw [← named]; simpa using same, by simp [reported]⟩

theorem retryOf_eq_none {id : String} (absent : ∀ item ∈ items, item.knowledgeId ≠ id) : retryOf items id = none := by
  have nothing : items.find? (fun item => item.knowledgeId = id) = none :=
    find?_eq_none.mpr (fun item member => by simpa using absent item member)
  simp [retryOf, nothing]

section
variable {tenantId : String} {s : SyncState} {streak : String → Nat} {attempts : List Attempt}

theorem booked_view (counted : Counted s.failedItems streak) (fair : Fair s streak attempts)
    (formed : ∀ attempt ∈ attempts, attempt.Formed) (id : String) :
    retryOf (Tally.book tenantId attempts ⟨s.failedItems, [], counted.nodup⟩).items id =
        countOf (nextStreak attempts streak id) ∧
      ((Tally.book tenantId attempts ⟨s.failedItems, [], counted.nodup⟩).letters.filter
          (fun letter => letter.itemId = id) ≠ [] ↔
        FailedIn attempts id ∧ nextStreak attempts streak id = maxSyncRetries + 1) := by
  have view : (Tally.book tenantId attempts ⟨s.failedItems, [], counted.nodup⟩).view id =
      ((attempts.filterMap (·.failure)).filter (fun failure => failure.knowledgeId = id)).foldl
        (countFailure tenantId) ((⟨s.failedItems, [], counted.nodup⟩ : Tally).view id) :=
    (merge_keyed tenantId).foldl (fun _ _ => trivial) _ id
  have before : (⟨s.failedItems, [], counted.nodup⟩ : Tally).view id = (countOf (streak id), []) := by
    simp [Tally.view, counted.retry id]
  rw [before] at view
  obtain ⟨one, quiet⟩ := failures_of_item formed fair.once id
  by_cases failed : FailedIn attempts id
  · obtain ⟨failure, first, only⟩ := one failed
    have small : streak id ≤ maxSyncRetries := by
      obtain ⟨attempt, member, rfl, reported⟩ := failed
      exact fair.notSpent attempt member reported
    obtain ⟨count, letters⟩ := @countFailure_streak tenantId failure (streak id) first small
    rw [only] at view
    have next : nextStreak attempts streak id = streak id + 1 := if_pos failed
    have items := congrArg Prod.fst view
    have moved := congrArg Prod.snd view
    simp only [Tally.view, foldl_cons, foldl_nil] at items moved
    rw [next, items, moved]
    exact ⟨count, by simpa [failed] using letters⟩
  · rw [quiet failed] at view
    have items := congrArg Prod.fst view
    have moved := congrArg Prod.snd view
    simp only [Tally.view, foldl_nil] at items moved
    rw [items, moved]
    refine ⟨?_, by simp [failed]⟩
    by_cases attempted : AttemptedIn attempts id
    · have reset : nextStreak attempts streak id = 0 := by simp [nextStreak, failed, attempted]
      have absent : retryOf s.failedItems id = none := by
        obtain ⟨attempt, member, rfl⟩ := attempted
        exact retryOf_eq_none (fair.cleared attempt member failed)
      rw [reset, ← counted.retry id, absent]
      rfl
    · have same : nextStreak attempts streak id = streak id := by simp [nextStreak, failed, attempted]
      rw [same]

end

theorem cycle_counted {cycle : Cycle} {streak : String → Nat}
    (counted : Counted w.current.failedItems streak) (completed : (cycle.run env w).1 = .ok ())
    (fair : Fair w.current streak (cycle.made env w)) :
    Counted (cycle.run env w).2.current.failedItems (nextStreak (cycle.made env w) streak) ∧
      ∃ moved, (cycle.run env w).2.deadLetters = w.deadLetters ++ moved ∧
        ∀ id, (∃ letter ∈ moved, letter.itemId = id) ↔
          FailedIn (cycle.made env w) id ∧ nextStreak (cycle.made env w) streak id = maxSyncRetries + 1 := by
  have run : cycle.run env w = (.ok (), (cycle.run env w).2) := Prod.ext completed rfl
  generalize (cycle.run env w).2 = next at run ⊢
  obtain ⟨started, attempts, passed, begun, made, formed, spared, ends⟩ := cycle_completed run
  have same : cycle.made env w = attempts := by simp [Cycle.made, made]
  rw [same] at fair ⊢
  obtain ⟨working, states, letters⟩ := beginOperation_completed begun
  have kept := spared fair.unblocked
  have items : passed.working.failedItems = w.current.failedItems := by rw [kept.failedItems, working]
  have deadLetters : passed.deadLetters = w.deadLetters := kept.deadLetters.trans letters
  rcases ends with ⟨rfl, rfl⟩ | ⟨head, finish⟩
  · -- nothing had changed in the repository
    have current : next.current = w.current := by rw [World.current, kept.states, states]; rfl
    refine ⟨?_, [], by simp [deadLetters], by simp [FailedIn]⟩
    rw [current]
    exact ⟨counted.nodup, fun id => by simp [nextStreak, FailedIn, AttemptedIn, counted.retry id]⟩
  · have nodup : (passed.working.failedItems.map (·.knowledgeId)).Nodup := by rw [items]; exact counted.nodup
    obtain ⟨after, moved⟩ := finishSync_completed finish nodup
    have start : (⟨passed.working.failedItems, [], nodup⟩ : Tally) =
        ⟨w.current.failedItems, [], counted.nodup⟩ := by simp only [items]
    rw [start] at after moved
    rw [deadLetters] at moved
    have view := @booked_view env.tenantId _ _ _ counted fair formed
    refine ⟨?_, _, moved, fun id => ?_⟩
    · rw [after]
      exact ⟨Tally.nodup _, fun id => (view id).1⟩
    · rw [← (view id).2, ne_eq, filter_eq_nil_iff]
      simp

/-- Any number of completed cycles, each against its own environment, with the failures in a row of
every item; `fair` restricts the cycles. -/
inductive CycleRun (fair : SyncState → (String → Nat) → List Attempt → Prop) :
    World → (String → Nat) → Prop where
  | start (memory : MemoryStore) : CycleRun fair { memory := memory } (fun _ => 0)
  | cycle {w : World} {streak : String → Nat} (env : Env) (cycle : Cycle) (run : CycleRun fair w streak)
      (completed : (cycle.run env w).1 = .ok ()) (allowed : fair w.current streak (cycle.made env w)) :
      CycleRun fair (cycle.run env w).2 (nextStreak (cycle.made env w) streak)

theorem run_counted {streak : String → Nat} (run : CycleRun Fair w streak) :
    Counted w.current.failedItems streak := by
  induction run with
  | start memory => exact ⟨nodup_nil, fun id => rfl⟩
  | cycle env cycle _ completed fair ih => exact (cycle_counted ih completed fair).1

/-- The bookkeeping as it is meant: one record per item, whose count is the number of failures in a row
less one, and the next cycle moves an item to the dead-letter queue when that reaches the maximum. -/
structure Bookkeeping (fair : SyncState → (String → Nat) → List Attempt → Prop) (w : World)
    (streak : String → Nat) : Prop where
  unique : (w.current.failedItems.map (·.knowledgeId)).Nodup
  retryCount : ∀ item ∈ w.current.failedItems, item.retryCount + 1 = streak item.knowledgeId
  moves : ∀ (env : Env) (cycle : Cycle), (cycle.run env w).1 = .ok () →
    fair w.current streak (cycle.made env w) →
    ∃ moved, (cycle.run env w).2.deadLetters = w.deadLetters ++ moved ∧
      ∀ id, (∃ letter ∈ moved, letter.itemId = id) ↔
        FailedIn (cycle.made env w) id ∧ nextStreak (cycle.made env w) streak id = maxSyncRetries + 1

/-- In every state that fair cycles lead to, the bookkeeping is as it is meant. -/
theorem fair_run_bookkeeping {w : World} {streak : String → Nat} (run : CycleRun Fair w streak) :
    Bookkeeping Fair w streak := by
  have counted := run_counted run
  refine ⟨counted.nodup, ?_, ?_⟩
  · intro item member
    have found : retryOf w.current.failedItems item.knowledgeId = some item.retryCount := by
      have only := filter_eq_singleton (counted.nodup.of_map _) member
        (p := fun other => other.knowledgeId = item.knowledgeId) (by simp)
        (fun other listed same => inj_on_of_nodup_map counted.nodup listed member (by simpa using same))
      have head := congrArg head? only
      rw [head?_filter] at head
      simp [retryOf, head]
    have count := (counted.retry item.knowledgeId).symm.trans found
    unfold countOf at count
    split at count
    · rename_i bounds
      have value := Option.some.inj count
      omega
    · cases count
  · intro env cycle completed fair
    exact (cycle_counted counted completed fair).2

def blockedEnv : Env :=
  { sampleEnv "plain" .accepted with
    checkConstraints := fun _ _ => ⟨false, [⟨.block, "no guides"⟩]⟩ }

/-- Two blocked cycles leave two records for the entry. -/
theorem blocked_run_bookkeeping_fails : ∃ w streak, CycleRun (fun _ _ _ => True) w streak ∧ streak "guide.md" = 2 ∧
      w.current.failedItems.map (fun item => (item.knowledgeId, item.retryCount)) =
        [("guide.md", 0), ("guide.md", 2)] ∧
      ¬ Bookkeeping (fun _ _ _ => True) w streak := by
  have first : CycleRun (fun _ _ _ => True) _ _ :=
    .cycle blockedEnv .full (.start (fun _ => none)) (by decide +kernel) trivial
  have second := first.cycle blockedEnv .full (by decide +kernel) trivial
  refine ⟨_, _, second, by decide +kernel, by decide +kernel, ?_⟩
  intro books
  have unique := books.unique
  revert unique
  decide +kernel

def refusingEnv : Env :=
  { sampleEnv "plain" .accepted with
    fault := fun n => if n % 8 = 6 then some ⟨"store down", false⟩ else none }

theorem refused_run_bookkeeping : ∃ w streak, Bookkeeping Fair w streak ∧ streak "guide.md" = 2 ∧
      w.current.failedItems.map (fun item => (item.knowledgeId, item.retryCount)) = [("guide.md", 1)] := by
  have first : CycleRun Fair _ _ :=
    .cycle refusingEnv .full (.start (fun _ => none)) (by decide +kernel) (by decide +kernel)
  have second := first.cycle refusingEnv .full (by decide +kernel) (by decide +kernel)
  exact ⟨_, _, fair_run_bookkeeping second, by decide +kernel, by decide +kernel⟩

end Aeterna.Sync
