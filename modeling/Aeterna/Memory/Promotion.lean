import Aeterna.Core.Redaction
import Aeterna.Lib.Effect
import Aeterna.Memory.Layers

namespace Aeterna.Memory
open Lib (Table Eff)
open Lib.Eff List

/-- A call on a provider that was carried out or not, and the layers right after it. -/
inductive StoreEvent where
  | added (key : MemoryKey) (original : Option String)
  | deleted (key : MemoryKey)
  | failed
  deriving DecidableEq

structure Moment (Score : Type) where
  event : StoreEvent
  store : LayerStore Score

structure PromotionWorld (Score : Type) where
  store : LayerStore Score
  moments : List (Moment Score) := []
  turn : Nat := 0

/-- The service, and what answers it: each question has a turn of its own. -/
structure PromotionService (Score : Type) (start : LayerStore Score) where
  promoteImportant : Bool := true
  cleanupAfterPromotion : Bool := false
  decimalDigit : Char → Bool
  score : (now : Int) → LayerEntry Score → Score
  meetsThreshold : Score → Bool
  scoreJson : Score → Json
  clock : Nat → Int
  checkConstraints : Nat → (tenantId : String) → KnowledgeLayer → List (String × Json) → Except String Bool
  outcome : Nat → CallOutcome
  uuid : Nat → String
  injective : ∀ {m n}, uuid m = uuid n → m = n
  unused : ∀ tenantId layer n, start.get ⟨tenantId, layer, uuid n⟩ = none

def PromotionWorld.land {Score : Type} (w : PromotionWorld Score) (event : StoreEvent) (store : LayerStore Score) :
    PromotionWorld Score :=
  { store, moments := w.moments ++ [⟨event, store⟩], turn := w.turn + 1 }

def originalMemoryId {Score : Type} (entry : LayerEntry Score) : Option String :=
  match entry.metadata.lookup "original_memory_id" with
  | some (.str id) => some id
  | _ => none

def determineTargetLayer : MemoryLayer → Option MemoryLayer
  | .agent => some .user
  | .session => some .project
  | _ => none

def mapMemoryLayerToKnowledge : MemoryLayer → KnowledgeLayer
  | .project => .project
  | .team => .team
  | .org => .org
  | .tenant => .tenant
  | _ => .project

section
variable {Score : Type} {start : LayerStore Score} (service : PromotionService Score start)

def ask : Eff (PromotionWorld Score) String Nat := fun w => (.ok w.turn, { w with turn := w.turn + 1 })

def peek : Eff (PromotionWorld Score) String Nat := fun w => (.ok w.turn, w)

def addToLayer (tenantId : String) (layer : MemoryLayer) (entry : LayerEntry Score) :
    Eff (PromotionWorld Score) String String :=
  fun w =>
    let outcome := service.outcome w.turn
    (outcome.answer entry.id,
      if outcome.effective then
        w.land (.added ⟨tenantId, layer, entry.id⟩ (originalMemoryId entry)) (storeEntry w.store tenantId layer entry)
      else w.land .failed w.store)

def deleteFromLayer (tenantId : String) (layer : MemoryLayer) (id : String) :
    Eff (PromotionWorld Score) String Unit :=
  fun w =>
    let outcome := service.outcome w.turn
    (outcome.answer (),
      if outcome.effective then w.land (.deleted ⟨tenantId, layer, id⟩) (dropEntry w.store ⟨tenantId, layer, id⟩)
      else w.land .failed w.store)

def listAllFromLayer (tenantId : String) (layer : MemoryLayer) :
    Eff (PromotionWorld Score) String (List (LayerEntry Score)) :=
  fun w => ((service.outcome w.turn).answer (listEntries w.store tenantId layer), { w with turn := w.turn + 1 })

def promotedEntry (entry : LayerEntry Score) (id : String) (target : MemoryLayer) (now : Int) (score : Score) :
    LayerEntry Score :=
  { entry with
    id
    layer := target
    content := redactPii service.decimalDigit entry.content
    metadata := ((entry.metadata.insert "original_memory_id" (.str entry.id)).insert "promoted_at" (.num now)).insert
      "promotion_score" (service.scoreJson score) }

def evaluateAndPromote (tenantId : String) (entry : LayerEntry Score) :
    Eff (PromotionWorld Score) String (Option String) :=
  if !service.promoteImportant then pure none
  else do
    let turn ← ask
    let isValid ← ofExcept (service.checkConstraints turn tenantId (mapMemoryLayerToKnowledge entry.layer)
      [("content", .str entry.content),
        ("metadata", .obj (entry.metadata.entries.map (fun field => (field.1, field.2))))])
    if !isValid then pure none
    else do
      let score := service.score (service.clock turn) entry
      match determineTargetLayer entry.layer with
      | none => pure none
      | some target =>
        if !service.meetsThreshold score then pure none
        else do
          let turn ← peek
          let newId ← (addToLayer service tenantId target
              (promotedEntry service entry (service.uuid turn) target (service.clock turn) score)).mapError
            (fun _ => "Failed to add promoted memory to target layer")
          if service.cleanupAfterPromotion then
            (deleteFromLayer service tenantId entry.layer entry.id).mapError
              (fun _ => "Failed to cleanup source memory after promotion")
          pure (some newId)

def promoteLayerMemories (tenantId : String) (layer : MemoryLayer) :
    Eff (PromotionWorld Score) String (List String) := do
  let entries ← listAllFromLayer service tenantId layer
  gather (fun entry => do
    let newId ← evaluateAndPromote service tenantId entry
    pure newId.toList) entries

inductive PromotionCall (Score : Type) where
  | evaluate (tenantId : String) (entry : LayerEntry Score)
  | promoteLayer (tenantId : String) (layer : MemoryLayer)

def PromotionCall.perform : PromotionCall Score → Eff (PromotionWorld Score) String Unit
  | .evaluate tenantId entry => (evaluateAndPromote service tenantId entry).ignore
  | .promoteLayer tenantId layer => (promoteLayerMemories service tenantId layer).ignore

def afterCalls (calls : List (PromotionCall Score)) : PromotionWorld Score :=
  (forEach (fun call => call.perform service) calls { store := start }).2

end

section
variable {Score : Type}

def copies (store : LayerStore Score) (tenantId : String) (layer : MemoryLayer) (id : String) : Nat :=
  store.rows.countP (fun e => e.1.tenantId = tenantId ∧ e.1.layer = layer ∧ originalMemoryId e.2 = some id)

def StoreEvent.copiesOf (tenantId : String) (layer : MemoryLayer) (id : String) : StoreEvent → Bool
  | .added key original => key.tenantId = tenantId ∧ key.layer = layer ∧ original = some id
  | _ => false

def storedCopies (moments : List (Moment Score)) (tenantId : String) (layer : MemoryLayer) (id : String) : Nat :=
  moments.countP (fun moment => moment.event.copiesOf tenantId layer id)

structure Accounted (start : LayerStore Score) (done : List (Moment Score)) (moment : Moment Score) : Prop where
  counted : ∀ tenantId layer id, layer = .user ∨ layer = .project → copies moment.store tenantId layer id =
    copies start tenantId layer id + storedCopies (done ++ [moment]) tenantId layer id
  copied : ∀ key, moment.event = .deleted key → ∃ target, determineTargetLayer key.layer = some target ∧
    1 ≤ copies moment.store key.tenantId target key.id

def AccountedThroughout (start : LayerStore Score) (moments : List (Moment Score)) : Prop :=
  ∀ done moment rest, moments = done ++ moment :: rest → Accounted start done moment

variable {start store : LayerStore Score} {tenantId : String} {layer : MemoryLayer} {entry : LayerEntry Score}

theorem copies_storeEntry (absent : store.get ⟨tenantId, layer, entry.id⟩ = none) (other : String)
    (place : MemoryLayer) (id : String) :
    copies (storeEntry store tenantId layer entry) other place id = copies store other place id +
      if StoreEvent.copiesOf other place id (.added ⟨tenantId, layer, entry.id⟩ (originalMemoryId entry)) then 1
        else 0 := by
  unfold copies storeEntry Table.upsert
  rw [dif_pos absent]
  show (store.rows ++ [_]).countP _ = _
  rw [countP_append, countP_singleton]
  rfl

theorem copies_dropEntry {key : MemoryKey} (other : String) {place : MemoryLayer} (apart : key.layer ≠ place)
    (id : String) :
    copies (dropEntry store key) other place id = copies store other place id := by
  unfold copies dropEntry Table.keepOnly
  dsimp only
  rw [countP_filter]
  apply countP_congr
  intro e _
  have kept : e.1.layer = place → e.1 ≠ key := by
    intro there same
    rw [← same] at apart
    exact apart there
  simp only [Bool.and_eq_true, decide_eq_true_eq]
  exact ⟨fun both => both.1, fun all => ⟨all, kept all.2.1⟩⟩

/-- The law, so far and now, and ids that are not taken. -/
structure Sound (service : PromotionService Score start) (w : PromotionWorld Score) : Prop where
  past : AccountedThroughout start w.moments
  now : ∀ tenantId layer id, layer = .user ∨ layer = .project → copies w.store tenantId layer id =
    copies start tenantId layer id + storedCopies w.moments tenantId layer id
  free : ∀ n, w.turn ≤ n → ∀ tenantId layer, w.store.get ⟨tenantId, layer, service.uuid n⟩ = none

variable {service : PromotionService Score start} {w : PromotionWorld Score} {event : StoreEvent}

section
variable (sound : Sound service w)
include sound

theorem Sound.land (counted : ∀ tenantId layer id, layer = .user ∨ layer = .project → copies store tenantId layer id =
      copies w.store tenantId layer id + if event.copiesOf tenantId layer id then 1 else 0)
    (copied : ∀ key, event = .deleted key → ∃ target, determineTargetLayer key.layer = some target ∧
      1 ≤ copies store key.tenantId target key.id)
    (free : ∀ n, w.turn + 1 ≤ n → ∀ tenantId layer, store.get ⟨tenantId, layer, service.uuid n⟩ = none) :
    Sound service (w.land event store) := by
  have now : ∀ tenantId layer id, layer = .user ∨ layer = .project → copies store tenantId layer id =
      copies start tenantId layer id + storedCopies (w.moments ++ [⟨event, store⟩]) tenantId layer id := by
    intro tenantId layer id target
    have before := sound.now tenantId layer id target
    rw [counted tenantId layer id target, before]
    unfold storedCopies
    rw [countP_append, countP_singleton]
    exact Nat.add_assoc ..
  refine ⟨fun done moment rest split => ?_, now, free⟩
  cases rest using reverseRecOn with
  | nil =>
    obtain ⟨rfl, same⟩ := append_inj' split rfl
    obtain ⟨rfl, -⟩ := List.cons.inj same
    exact ⟨now, copied⟩
  | append_singleton rest last =>
    rw [← cons_append, ← append_assoc] at split
    exact sound.past done moment rest (append_inj_left' split rfl)

theorem Sound.ask : Sound service { w with turn := w.turn + 1 } :=
  ⟨sound.past, sound.now, fun n later => sound.free n (by dsimp only at later; omega)⟩

theorem Sound.fail : Sound service (w.land .failed w.store) :=
  sound.land (fun _ _ _ _ => rfl) (fun _ absent => by cases absent) (fun n later => sound.free n (by omega))

theorem Sound.add (fresh : entry.id = service.uuid w.turn) :
    Sound service (addToLayer service tenantId layer entry w).2 := by
  unfold addToLayer
  dsimp only
  split
  · have absent : w.store.get ⟨tenantId, layer, entry.id⟩ = none := by
      rw [fresh]
      exact sound.free w.turn (Nat.le_refl _) tenantId layer
    refine sound.land (fun other place id _ => copies_storeEntry absent other place id)
      (fun _ other => by cases other) ?_
    intro n later other place
    rw [storeEntry, Table.get_upsert, if_neg]
    · exact sound.free n (by omega) other place
    · intro same
      have ids : service.uuid n = service.uuid w.turn := (congrArg MemoryKey.id same).trans fresh
      have turns := service.injective ids
      omega
  · exact sound.fail

end

theorem addToLayer_ok {id : String} {next : PromotionWorld Score}
    (ran : addToLayer service tenantId layer entry w = (.ok id, next)) :
    next.store = storeEntry w.store tenantId layer entry := by
  unfold addToLayer at ran
  dsimp only at ran
  cases answer : service.outcome w.turn with
  | done =>
    rw [answer] at ran
    cases ran
    rfl
  | refused reason =>
    rw [answer] at ran
    cases ran
  | lost reason =>
    rw [answer] at ran
    cases ran

variable {target : MemoryLayer}

theorem source_ne_target {source : MemoryLayer} (promoted : determineTargetLayer source = some target)
    {place : MemoryLayer} (final : place = .user ∨ place = .project) : source ≠ place := by
  rcases final with rfl | rfl <;> cases source <;> first | decide | cases promoted

theorem Sound.delete (sound : Sound service w) {id : String}
    (promoted : determineTargetLayer layer = some target) (copied : 1 ≤ copies w.store tenantId target id) :
    Sound service (deleteFromLayer service tenantId layer id w).2 := by
  have place : target = .user ∨ target = .project := by
    cases layer <;>
      first
      | exact .inl (Option.some.inj promoted).symm
      | exact .inr (Option.some.inj promoted).symm
      | cases promoted
  unfold deleteFromLayer
  dsimp only
  split
  · refine sound.land (fun other final memory at_ => ?_) (fun key same => ?_) (fun n later other final => ?_)
    · rw [copies_dropEntry other (source_ne_target promoted at_)]
      rfl
    · cases same
      refine ⟨target, promoted, ?_⟩
      rw [copies_dropEntry tenantId (source_ne_target promoted place)]
      exact copied
    · rw [dropEntry, Table.get_keepOnly, sound.free n (by omega)]
      rfl
  · exact sound.fail

theorem originalMemoryId_promoted (id : String) (target : MemoryLayer) (now : Int) (score : Score) :
    originalMemoryId (promotedEntry service entry id target now score) = some entry.id := by
  unfold originalMemoryId promotedEntry
  dsimp only
  rw [AList.lookup_insert_ne (by decide), AList.lookup_insert_ne (by decide), AList.lookup_insert]

theorem promote_keeps (promoted : determineTargetLayer entry.layer = some target)
    (now : Nat → Int) (score : Score) : Keeps (Sound service) (do
      let turn ← peek
      let newId ← (addToLayer service tenantId target
          (promotedEntry service entry (service.uuid turn) target (now turn) score)).mapError
        (fun _ => "Failed to add promoted memory to target layer")
      if service.cleanupAfterPromotion then
        (deleteFromLayer service tenantId entry.layer entry.id).mapError
          (fun _ => "Failed to cleanup source memory after promotion")
      pure (some newId)) := by
  intro w sound
  let copy := promotedEntry service entry (service.uuid w.turn) target (now w.turn) score
  have added : Sound service (addToLayer service tenantId target copy w).2 := sound.add rfl
  rw [bind_run]
  show Sound service (((addToLayer service tenantId target copy).mapError _ >>= _) w).2
  rw [bind_run, mapError_run]
  cases answer : addToLayer service tenantId target copy w with
  | mk outcome next =>
    rw [answer] at added
    cases outcome with
    | error e => exact added
    | ok id =>
      -- the source is deleted only now, with its copy stored
      have copied : 1 ≤ copies next.store tenantId target entry.id := by
        rw [addToLayer_ok answer, copies_storeEntry (sound.free w.turn (Nat.le_refl _) tenantId target)]
        have own : StoreEvent.copiesOf tenantId target entry.id
            (.added ⟨tenantId, target, copy.id⟩ (originalMemoryId copy)) = true := by
          simp [StoreEvent.copiesOf, copy, originalMemoryId_promoted]
        rw [if_pos own]
        omega
      dsimp only [Except.mapError]
      split
      · refine Keeps.follow (fun _ => Keeps.pure _) ?_
        exact added.delete promoted copied
      · exact added

theorem evaluateAndPromote_keeps : Keeps (Sound service) (evaluateAndPromote service tenantId entry) := by
  unfold evaluateAndPromote
  split
  · exact Keeps.pure _
  · refine Keeps.bind (fun w sound => sound.ask) (fun turn => ?_)
    refine Keeps.bind (Keeps.ofExcept _) (fun isValid => ?_)
    split
    · exact Keeps.pure _
    · dsimp only
      split
      · exact Keeps.pure _
      · rename_i target promoted
        split
        · exact Keeps.pure _
        · exact promote_keeps promoted _ _

theorem promoteLayerMemories_keeps : Keeps (Sound service) (promoteLayerMemories service tenantId layer) := by
  refine Keeps.bind (fun w sound => sound.ask) (fun entries => ?_)
  refine Keeps.gather (fun entry _ => ?_)
  exact Keeps.bind evaluateAndPromote_keeps (fun _ => Keeps.pure _)

theorem sound_start : Sound service { store := start } where
  past done moment rest split := by
    cases done <;> cases split
  now _ _ _ _ := rfl
  free n _ tenantId layer := service.unused tenantId layer n

theorem afterCalls_sound (calls : List (PromotionCall Score)) : Sound service (afterCalls service calls) := by
  refine Keeps.forEach (fun call _ => ?_) _ sound_start
  cases call with
  | evaluate tenantId entry => exact evaluateAndPromote_keeps
  | promoteLayer tenantId layer => exact promoteLayerMemories_keeps

/-- Each stored promotion adds one copy, and a source is deleted only once its copy is stored. -/
theorem promotion_accounted (service : PromotionService Score start) (calls : List (PromotionCall Score)) :
    AccountedThroughout start (afterCalls service calls).moments :=
  (afterCalls_sound calls).past

end

def sampleMemory : LayerEntry Nat := { id := "m", content := "stuff", layer := .session }

def sampleLayer : LayerStore Nat := Table.upsert ⟨"t", .session, "m"⟩ sampleMemory (fun _ => sampleMemory) {}

def sampleUuid (n : Nat) : String := String.ofList ('u' :: replicate n '0')

theorem sampleUuid_inj {m n : Nat} (same : sampleUuid m = sampleUuid n) : m = n := by
  have lengths := congrArg String.length same
  simpa [sampleUuid] using lengths

def sampleService : PromotionService Nat sampleLayer where
  decimalDigit := Char.isDigit
  score _ _ := 1
  meetsThreshold _ := true
  scoreJson score := .num score
  clock _ := 0
  checkConstraints _ _ _ _ := .ok true
  outcome _ := .done
  uuid := sampleUuid
  injective := sampleUuid_inj
  unused tenantId layer n := by
    have apart : sampleUuid n ≠ "m" := by
      intro same
      have first := congrArg (fun text => text.toList.head?) same
      simp [sampleUuid] at first
    unfold sampleLayer
    rw [Table.get_upsert, if_neg]
    · rfl
    · intro same
      exact apart (congrArg MemoryKey.id same)

def sampleRuns : List (PromotionCall Nat) := [.promoteLayer "t" .session, .promoteLayer "t" .session]

theorem sample_promoted_twice : copies sampleLayer "t" .project "m" = 0 ∧
    copies (afterCalls sampleService sampleRuns).store "t" .project "m" = 2 := by
  decide +kernel

end Aeterna.Memory
