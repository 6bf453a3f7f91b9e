import Aeterna.Lib.Effect
import Aeterna.Lib.Sequences
import Aeterna.Memory.Layers
import Mathlib.Algebra.Order.Ring.Int

namespace Aeterna.Memory
open Lib (Table Eff lastItems lastItems_map)
open Lib.Eff
open List hiding get

inductive MemoryOperation where
  | add | update | delete | retrieve | prune | compress | noop
  deriving DecidableEq

inductive RewardType where
  | helpful | irrelevant | outdated | inaccurate | duplicate
  deriving DecidableEq

structure RewardSignal (Score : Type) where
  rewardType : RewardType
  score : Score
  reasoning : Option String := none
  agentId : Option String := none
  timestamp : Int := 0

structure MemoryTrajectoryEvent (Score : Type) where
  operation : MemoryOperation
  entryId : String
  reward : Option (RewardSignal Score)
  reasoning : Option String
  timestamp : Int

abbrev Trajectories (Score : Type) : Type := Table String (List (MemoryTrajectoryEvent Score))

/-- The operations on scores that the code makes. -/
structure ScoreOps (Score : Type) where
  (zero half : Score)
  lt : Score → Score → Bool
  mean : Score → Score → Score
  clamp : Score → Score
  average : List Score → (count : Nat) → Score
  json : Score → Json

def layerDebug : MemoryLayer → String
  | .agent => "Agent"
  | .user => "User"
  | .session => "Session"
  | .project => "Project"
  | .team => "Team"
  | .org => "Org"
  | .tenant => "Tenant"

section
variable {Score : Type} (ops : ScoreOps Score)

def isNegative (event : MemoryTrajectoryEvent Score) : Bool :=
  match event.reward with
  | some reward => ops.lt reward.score ops.zero
  | none => false

def isUseful (event : MemoryTrajectoryEvent Score) : Bool := event.operation = .retrieve || event.reward.isSome

def evaluate (trajectories : Trajectories Score) (entry : LayerEntry Score) (threshold : Score) : Bool :=
  if ops.lt (entry.importanceScore.getD ops.half) threshold then true
  else
    match trajectories.get entry.id with
    | none => false
    | some history =>
      let lastEvents := lastItems 10 history
      if 3 ≤ lastEvents.countP (isNegative ops) then true
      else !lastEvents.any isUseful && 20 ≤ history.length

structure TenantUser where
  (tenantId userId : String)

structure Recorded (Score : Type) where
  context : TenantUser
  layer : MemoryLayer
  event : MemoryTrajectoryEvent Score
  (before after : Trajectories Score)

structure ManagerWorld (Score : Type) where
  store : LayerStore Score
  trajectories : Trajectories Score := {}
  recorded : List (Recorded Score) := []
  turn : Nat := 0

def Recorded.key (r : Recorded Score) : MemoryKey := ⟨r.context.tenantId, r.layer, r.event.entryId⟩

/-- The manager, what answers it and the memories of the system. Ids that it draws are nobody's. -/
structure ManagerSetup (Score : Type) (memories : MemoryKey → Prop) where
  ops : ScoreOps Score
  optimizationTriggerCount : Nat := 0
  knowledgeManager : Bool := true
  llmService : Bool := false
  clock : Nat → Int
  outcome : Nat → CallOutcome
  generate : Nat → (prompt : String) → Except String String
  checkPermission : Option (Nat → TenantUser → MemoryLayer → Except String Bool) := none
  embeddingService : Option (Nat → (content : String) → Except String Unit) := some (fun _ _ => .ok ())
  uuid : Nat → String
  undrawn : ∀ key, memories key → ∀ n, key.id ≠ "compressed_" ++ uuid n

end

section
variable {Score : Type} {memories : MemoryKey → Prop} (setup : ManagerSetup Score memories)

def recordTrajectory (context : TenantUser) (layer : MemoryLayer) (operation : MemoryOperation) (entryId : String)
    (reward : Option (RewardSignal Score)) (reasoning : Option String) : Eff (ManagerWorld Score) String Unit :=
      fun w =>
  let event : MemoryTrajectoryEvent Score :=
    { operation, entryId, reward, reasoning, timestamp := setup.clock w.turn }
  let trajectories := w.trajectories.upsert context.userId [event] (· ++ [event])
  (.ok (), { w with
    trajectories
    recorded := w.recorded ++ [{ context, layer, event, before := w.trajectories, after := trajectories }]
    turn := w.turn + 1 })

def getOperationCount (context : TenantUser) (w : ManagerWorld Score) : Nat :=
  ((w.trajectories.get context.userId).map length).getD 0

def callLayer {α : Type} (a : LayerStore Score → α) (f : LayerStore Score → LayerStore Score) :
    Eff (ManagerWorld Score) String α := fun w =>
  let outcome := setup.outcome w.turn
  (outcome.answer (a w.store), { w with
    store := if outcome.effective then f w.store else w.store
    turn := w.turn + 1 })

def managerAddToLayer (context : TenantUser) (layer : MemoryLayer) (entry : LayerEntry Score) :
    Eff (ManagerWorld Score) String String :=
  callLayer setup (fun _ => entry.id) (fun store => storeEntry store context.tenantId layer entry)

def managerDeleteFromLayer (context : TenantUser) (layer : MemoryLayer) (id : String) :
    Eff (ManagerWorld Score) String Unit :=
  callLayer setup (fun _ => ()) (fun store => dropEntry store ⟨context.tenantId, layer, id⟩)

def getFromLayer (context : TenantUser) (layer : MemoryLayer) (id : String) :
    Eff (ManagerWorld Score) String (Option (LayerEntry Score)) :=
  callLayer setup (fun store => store.get ⟨context.tenantId, layer, id⟩) (fun store => store)

def compressPrompt (entries : List (LayerEntry Score)) : String :=
  entries.zipIdx.foldl (fun prompt numbered => prompt ++ (numbered.2 + 1).repr ++ ". " ++ numbered.1.content ++ "\n")
    ("Compress the following related memories into a single, high-density summary. " ++
      "Preserve all key facts and entities:\n\n")

/-- The rewards that a compressed memory inherits. The `i`-th history counts as that of the `i`-th memory, also when
memories without a history come before it. -/
def inheritedEvents (trajectories : Trajectories Score) (entries : List (LayerEntry Score)) (id : String)
    (now : Int) :
    List (MemoryTrajectoryEvent Score) :=
  (entries.filterMap (fun entry => trajectories.get entry.id)).zipIdx.flatMap (fun numbered =>
    (numbered.1.filter (fun event => event.reward.isSome)).map (fun event =>
      { operation := .noop, entryId := id, reward := event.reward,
        reasoning := some ("Inherited reward from source memory " ++ ((entries[numbered.2]?).map (·.id)).getD ""),
        timestamp := now }))

def compress (entries : List (LayerEntry Score)) : Eff (ManagerWorld Score) String (LayerEntry Score) :=
  match entries with
  | [] => fail "No memories to compress"
  | first :: _ => fun w =>
    match setup.generate w.turn (compressPrompt entries) with
    | .error e => (.error e, { w with turn := w.turn + 1 })
    | .ok content =>
      let now := setup.clock w.turn
      let entry : LayerEntry Score :=
        { id := "compressed_" ++ setup.uuid w.turn, content, layer := first.layer
          importanceScore := some (setup.ops.average (entries.filterMap (·.importanceScore)) entries.length)
          metadata := ((∅ : HashMap String Json).insert "compressed_from"
            (.arr (entries.map (fun entry => .str entry.id)))).insert
            "compression_ratio" (.num entries.length)
          createdAt := now, updatedAt := now }
      let events := inheritedEvents w.trajectories entries entry.id now
      (.ok entry, { w with
        trajectories := if events.isEmpty then w.trajectories
          else w.trajectories.upsert entry.id events (fun _ => events)
        turn := w.turn + 1 })

/-- The promotion service and `prune` do nothing here. -/
def triggerAutonomousOptimization (context : TenantUser) (layer : MemoryLayer) :
    Eff (ManagerWorld Score) String Unit :=
  if !setup.knowledgeManager then fail "Knowledge manager not configured"
  else if !setup.llmService then pure ()
  else do
    let memories ← callLayer setup (fun store => listEntries store context.tenantId layer) (fun store => store)
    let _ ← compress setup memories
    pure ()

def prepare (turn : Nat) (context : TenantUser) (content : String) (layer : MemoryLayer) : Except String Unit := do
  if let some check := setup.checkPermission then
    unless ← check turn context layer do throw "Permission denied"
  match setup.embeddingService with
  | none => throw "Embedding service not configured"
  | some embed => embed turn content

def managerAdd (context : TenantUser) (content : String) (layer : MemoryLayer) :
    Eff (ManagerWorld Score) String String := do
  let w ← get
  ofExcept (prepare setup w.turn context content layer)
  let entry : LayerEntry Score :=
    { id := setup.uuid w.turn, content, layer, createdAt := setup.clock w.turn, updatedAt := setup.clock w.turn }
  let _ ← managerAddToLayer setup context layer entry
  recordTrajectory setup context layer .add entry.id none none
  let w ← get
  if 0 < setup.optimizationTriggerCount ∧ getOperationCount context w % setup.optimizationTriggerCount = 0 then
    triggerAutonomousOptimization setup context layer
  pure entry.id

def recordReward (context : TenantUser) (layer : MemoryLayer) (memoryId : String) (reward : RewardSignal Score) :
    Eff (ManagerWorld Score) String Unit := do
  match ← getFromLayer setup context layer memoryId with
  | none => fail ("Memory " ++ memoryId ++ " not found in layer " ++ layerDebug layer)
  | some entry =>
    let currentScore := entry.importanceScore.getD setup.ops.half
    let newScore := setup.ops.mean currentScore reward.score
    let rewarded := entry.metadata.insert "reward" (setup.ops.json reward.score)
    let entry := { entry with
      importanceScore := some (setup.ops.clamp newScore)
      metadata := match reward.reasoning with
        | some reasoning => rewarded.insert "reward_reasoning" (.str reasoning)
        | none => rewarded }
    let _ ← managerAddToLayer setup context layer entry
    recordTrajectory setup context layer .retrieve memoryId (some reward) none

inductive ManagerCall (Score : Type) where
  | add (context : TenantUser) (content : String) (layer : MemoryLayer)
  | recordReward (context : TenantUser) (layer : MemoryLayer) (memoryId : String) (reward : RewardSignal Score)
  | addToLayer (context : TenantUser) (layer : MemoryLayer) (entry : LayerEntry Score)
  | deleteFromLayer (context : TenantUser) (layer : MemoryLayer) (id : String)
  | optimizeLayer (context : TenantUser) (layer : MemoryLayer)

def ManagerCall.perform : ManagerCall Score → Eff (ManagerWorld Score) String Unit
  | .add context content layer => (managerAdd setup context content layer).ignore
  | .recordReward context layer memoryId reward => (Memory.recordReward setup context layer memoryId reward).ignore
  | .addToLayer context layer entry => (managerAddToLayer setup context layer entry).ignore
  | .deleteFromLayer context layer id => (managerDeleteFromLayer setup context layer id).ignore
  | .optimizeLayer context layer => (triggerAutonomousOptimization setup context layer).ignore

def managerAfter (store : LayerStore Score) (calls : List (ManagerCall Score)) : ManagerWorld Score :=
  (forEach (fun call => call.perform setup) calls { store }).2

def eventsFor (recorded : List (Recorded Score)) (key : MemoryKey) : List (MemoryTrajectoryEvent Score) :=
  (recorded.filter (fun r => r.key = key)).map (·.event)

/-- Three negative rewards among the last ten events of a memory prune it, and a reward changes no other memory's
answer. -/
structure Heard (ops : ScoreOps Score) (memories : MemoryKey → Prop) (w : ManagerWorld Score) : Prop where
  pruned : ∀ key, memories key → ∀ entry threshold, entry.id = key.id →
    3 ≤ (lastItems 10 (eventsFor w.recorded key)).countP (isNegative ops) →
      evaluate ops w.trajectories entry threshold = true
  apart : ∀ r ∈ w.recorded, r.event.reward.isSome = true → ∀ key, memories key → key ≠ r.key →
    ∀ entry threshold, entry.id = key.id →
      evaluate ops r.after entry threshold = evaluate ops r.before entry threshold

def ManagerCall.Direct (ops : ScoreOps Score) (memories : MemoryKey → Prop) : ManagerCall Score → Prop
  | .add context _ _ => ∀ key, memories key → key.id ≠ context.userId
  | .recordReward context layer memoryId reward =>
    (∀ key, memories key → key.id = context.userId → key = ⟨context.tenantId, layer, memoryId⟩) ∧
      (ops.lt reward.score ops.zero = true → memories ⟨context.tenantId, layer, memoryId⟩ → context.userId = memoryId)
  | _ => True

structure Namesake (ops : ScoreOps Score) (memories : MemoryKey → Prop) (w : ManagerWorld Score) : Prop where
  found : ∀ key, memories key → (w.trajectories.get key.id).getD [] =
    ((w.recorded.filter (fun r => r.key = key)).filter (fun r => r.context.userId = key.id)).map (·.event)
  own : ∀ r ∈ w.recorded, memories r.key → isNegative ops r.event = true → r.context.userId = r.key.id
  kept : ∀ r ∈ w.recorded, ∀ key, memories key → key ≠ r.key → r.after.get key.id = r.before.get key.id

variable {ops : ScoreOps Score} {w : ManagerWorld Score}

theorem evaluate_of_negative {trajectories : Trajectories Score} {entry : LayerEntry Score}
    {history : List (MemoryTrajectoryEvent Score)} (found : trajectories.get entry.id = some history)
    (three : 3 ≤ (lastItems 10 history).countP (isNegative ops)) (threshold : Score) :
    evaluate ops trajectories entry threshold = true := by
  unfold evaluate
  rw [found]
  dsimp only
  rw [if_pos three, ite_self]

theorem Namesake.heard (namesake : Namesake ops memories w) : Heard ops memories w where
  pruned key member entry threshold named three := by
    have found := namesake.found key member
    have window : 3 ≤ (lastItems 10 ((w.trajectories.get key.id).getD [])).countP (isNegative ops) := by
      have inside : ∀ r ∈ w.recorded.filter (fun r => r.key = key), isNegative ops r.event = true →
          decide (r.context.userId = key.id) = true := by
        intro r listed negative
        obtain ⟨listed, same⟩ := mem_filter.mp listed
        have same : r.key = key := of_decide_eq_true same
        rw [← same] at member ⊢
        exact decide_eq_true (namesake.own r listed member negative)
      have more := Lib.countP_lastItems_filter (n := 10) inside
      rw [found, lastItems_map, countP_map]
      rw [eventsFor, lastItems_map, countP_map] at three
      exact Nat.le_trans three more
    cases history : w.trajectories.get key.id with
    | none =>
      rw [history] at window
      exact absurd (show 3 ≤ 0 from window) (by decide)
    | some events =>
      rw [history] at window
      rw [← named] at history
      exact evaluate_of_negative history window threshold
  apart r listed _ key member other entry threshold named := by
    have same := namesake.kept r listed key member other
    rw [← named] at same
    unfold evaluate
    rw [same]

variable {setup : ManagerSetup Score memories} {context : TenantUser} {layer : MemoryLayer}

theorem Namesake.same {next : ManagerWorld Score} (namesake : Namesake ops memories w)
    (trajectories : next.trajectories = w.trajectories) (recorded : next.recorded = w.recorded) :
      Namesake ops memories next where
  found := by
    rw [trajectories, recorded]
    exact namesake.found
  own := by
    rw [recorded]
    exact namesake.own
  kept := by
    rw [recorded]
    exact namesake.kept

theorem callLayer_keeps {α : Type} (a : LayerStore Score → α) (f : LayerStore Score → LayerStore Score) :
    Keeps (Namesake ops memories) (callLayer setup a f) := fun _ namesake => namesake.same rfl rfl

theorem recordTrajectory_keeps {operation : MemoryOperation} {entryId : String} {reward : Option (RewardSignal Score)}
    {reasoning : Option String}
    (apart : ∀ key, memories key → key.id = context.userId → key = ⟨context.tenantId, layer, entryId⟩)
    (own : memories ⟨context.tenantId, layer, entryId⟩ →
      (∃ signal, reward = some signal ∧ ops.lt signal.score ops.zero = true) →
      context.userId = entryId) :
    Keeps (Namesake ops memories) (recordTrajectory setup context layer operation entryId reward reasoning) := by
  intro w namesake
  unfold recordTrajectory
  dsimp only
  constructor
  · intro key member
    dsimp only
    have before := namesake.found key member
    rw [Table.get_upsert, filter_append, filter_append, map_append, ← before]
    by_cases mine : key.id = context.userId
    · -- only the memory itself has the name of the user
      obtain rfl := apart key member mine
      have named : context.userId = entryId := mine.symm
      subst named
      rw [if_pos rfl]
      cases w.trajectories.get context.userId <;> simp [Recorded.key]
    · rw [if_neg mine]
      have skipped : (decide (context.userId = key.id)) = false := decide_eq_false (fun same => mine same.symm)
      by_cases same : (⟨context.tenantId, layer, entryId⟩ : MemoryKey) = key
      · simp [Recorded.key, same, skipped]
      · simp [Recorded.key, same]
  · intro r listed
    rcases mem_append.mp listed with earlier | last
    · exact namesake.own r earlier
    · obtain rfl := mem_singleton.mp last
      intro member negative
      refine own member ?_
      cases reward with
      | none => cases negative
      | some signal => exact ⟨signal, rfl, negative⟩
  · intro r listed
    rcases mem_append.mp listed with earlier | last
    · exact namesake.kept r earlier
    · obtain rfl := mem_singleton.mp last
      intro key member other
      dsimp only
      rw [Table.get_upsert, if_neg]
      intro mine
      exact other (apart key member mine)

theorem compress_keeps (entries : List (LayerEntry Score)) : Keeps (Namesake ops memories)
    (compress setup entries) := by
  intro w namesake
  unfold compress
  split
  · exact namesake
  · split
    · exact namesake.same rfl rfl
    · dsimp only
      split
      · exact namesake.same rfl rfl
      · constructor
        · intro key member
          dsimp only
          rw [Table.get_upsert, if_neg (setup.undrawn key member w.turn)]
          exact namesake.found key member
        · exact namesake.own
        · exact namesake.kept

theorem triggerAutonomousOptimization_keeps :
    Keeps (Namesake ops memories) (triggerAutonomousOptimization setup context layer) := by
  unfold triggerAutonomousOptimization
  split
  · exact Keeps.fail _
  · split
    · exact Keeps.pure _
    · refine Keeps.bind (callLayer_keeps _ _) (fun entries => ?_)
      exact Keeps.bind (compress_keeps entries) (fun _ => Keeps.pure _)

theorem managerAdd_keeps {content : String} (direct : ∀ key, memories key → key.id ≠ context.userId) :
    Keeps (Namesake ops memories) (managerAdd setup context content layer) := by
  have apart : ∀ entryId key, memories key → key.id = context.userId → key = ⟨context.tenantId, layer, entryId⟩ :=
    fun entryId key member same => absurd same (direct key member)
  refine Keeps.bind Keeps.get (fun w => Keeps.bind (Keeps.ofExcept _) (fun _ => ?_))
  refine Keeps.bind (callLayer_keeps _ _) (fun _ => ?_)
  refine Keeps.bind (recordTrajectory_keeps (apart _) ?_) (fun _ => Keeps.bind Keeps.get (fun w => ?_))
  · rintro _ ⟨signal, absent, _⟩
    cases absent
  · intro w namesake
    dsimp only
    split
    · exact Keeps.follow (fun _ => Keeps.pure _) (triggerAutonomousOptimization_keeps w namesake)
    · exact namesake

theorem recordReward_keeps {memoryId : String} {reward : RewardSignal Score}
    (direct : ManagerCall.Direct ops memories (.recordReward context layer memoryId reward)) :
    Keeps (Namesake ops memories) (recordReward setup context layer memoryId reward) := by
  refine Keeps.bind (callLayer_keeps _ _) (fun found => ?_)
  cases found with
  | none => exact Keeps.fail _
  | some entry =>
    refine Keeps.bind (callLayer_keeps _ _) (fun _ => recordTrajectory_keeps direct.1 ?_)
    rintro member ⟨signal, same, negative⟩
    cases same
    exact direct.2 negative member

theorem ManagerCall.perform_keeps {call : ManagerCall Score} (direct : call.Direct ops memories) :
    Keeps (Namesake ops memories) (call.perform setup) := by
  cases call with
  | add context content layer => exact managerAdd_keeps direct
  | recordReward context layer memoryId reward => exact recordReward_keeps direct
  | addToLayer context layer entry => exact fun _ namesake => namesake.same rfl rfl
  | deleteFromLayer context layer id => exact fun _ namesake => namesake.same rfl rfl
  | optimizeLayer context layer => exact triggerAutonomousOptimization_keeps

theorem managerAfter_namesake (setup : ManagerSetup Score memories) {calls : List (ManagerCall Score)}
    (direct : ∀ call ∈ calls, call.Direct ops memories) (store : LayerStore Score) :
    Namesake ops memories (managerAfter setup store calls) := by
  refine Keeps.forEach (fun call member => ManagerCall.perform_keeps (direct call member)) _ ?_
  exact ⟨fun _ _ => rfl, fun _ absent => absurd absent not_mem_nil, fun _ absent =>
    absurd absent not_mem_nil⟩

/-- Where users reward the memories of their own name, negative feedback reaches pruning. -/
theorem feedback_heard (setup : ManagerSetup Score memories) (calls : List (ManagerCall Score))
    (direct : ∀ call ∈ calls, call.Direct setup.ops memories) (store : LayerStore Score) :
    Heard setup.ops memories (managerAfter setup store calls) :=
  (managerAfter_namesake setup direct store).heard

end

def thousandths : ScoreOps Int where
  zero := 0
  half := 500
  lt a b := a < b
  mean a b := (a + b) / 2
  clamp a := max 0 (min 1000 a)
  average scores count := scores.sum / count
  json score := .num score

def dislikedKey : MemoryKey := ⟨"t", .user, "m"⟩

theorem dislikedKey_undrawn (drawn : String) : dislikedKey.id ≠ "compressed_" ++ drawn := by
  intro same
  have lengths := congrArg String.length same
  rw [String.length_append] at lengths
  have one : dislikedKey.id.length = 1 := by decide
  have eleven : "compressed_".length = 11 := by decide
  omega

def feedbackSetup : ManagerSetup Int (fun key => key = dislikedKey) where
  ops := thousandths
  clock n := n
  outcome _ := .done
  generate _ prompt := .ok prompt
  uuid _ := "u"
  undrawn := by
    rintro _ rfl n
    exact dislikedKey_undrawn _

def dislikedEntry : LayerEntry Int := { id := "m", content := "stuff", layer := .user }

def feedbackStore : LayerStore Int := Table.upsert dislikedKey dislikedEntry (fun _ => dislikedEntry) {}

def rewardBy (userId : String) (score : Int) : ManagerCall Int :=
  .recordReward ⟨"t", userId⟩ .user "m" { rewardType := .irrelevant, score }

theorem feedback_heard_sample : Heard thousandths (fun key => key = dislikedKey)
    (managerAfter feedbackSetup feedbackStore [rewardBy "m" (-100), rewardBy "m" (-100), rewardBy "m" (-100)]) := by
  apply feedback_heard feedbackSetup
  have one : (rewardBy "m" (-100)).Direct thousandths (fun key => key = dislikedKey) :=
    ⟨fun _ same _ => same, fun _ _ => rfl⟩
  intro call member
  simp only [mem_cons, not_mem_nil, or_false, or_self] at member
  rw [member]
  exact one

/-- Every second of six rewards is negative, but pruning looks under the name of the memory, not of the user. -/
theorem feedback_unheard : ¬ Heard thousandths (fun key => key = dislikedKey)
    (managerAfter feedbackSetup feedbackStore
    [rewardBy "alice" (-100), rewardBy "alice" 1000, rewardBy "alice" (-100), rewardBy "alice" 1000,
      rewardBy "alice" (-100), rewardBy "alice" 1000]) := by
  intro heard
  have pruned := heard.pruned dislikedKey rfl { dislikedEntry with importanceScore := some 631 } 300 rfl
      (by decide +kernel)
  revert pruned
  decide +kernel

end Aeterna.Memory
