import Aeterna.Core.Types
import Aeterna.Lib.Programs
import Aeterna.Lib.Runs

namespace Aeterna.Operations
open Lib (Along CallFault Throughout)
open List Lib.CallFault

structure UserMemory where
  (id tenantId : String)
  userId : Option String
  deriving DecidableEq

structure CreatedKnowledge where
  (id tenantId : String)
  createdBy : Option String

structure Consent where
  (tenantId userId purpose : String)
  granted : Bool
  revokedAt : Option Nat

structure DataAccess where
  (tenantId userId action resourceType : String)
  resourceId : Option String

/-- The tables of PostgreSQL that an erasure reads or writes, and the keys in Redis. -/
structure ErasureStore where
  memoryEntries : List UserMemory := []
  knowledgeItems : List CreatedKnowledge := []
  gdprConsents : List Consent := []
  gdprAuditLogs : List DataAccess := []
  redisKeys : List String := []

structure Subject where
  (tenantId userId : String)

namespace Subject
variable (subject : Subject) (store : ErasureStore)

def Owns (entry : UserMemory) : Prop := entry.tenantId = subject.tenantId ∧ entry.userId = some subject.userId

instance (entry : UserMemory) : Decidable (subject.Owns entry) := inferInstanceAs (Decidable (_ ∧ _))

def Created (item : CreatedKnowledge) : Prop := item.tenantId = subject.tenantId ∧
    item.createdBy = some subject.userId

instance (item : CreatedKnowledge) : Decidable (subject.Created item) := inferInstanceAs (Decidable (_ ∧ _))

def Gave (consent : Consent) : Prop := consent.tenantId = subject.tenantId ∧ consent.userId = subject.userId ∧
    consent.granted = true

instance (consent : Consent) : Decidable (subject.Gave consent) := inferInstanceAs (Decidable (_ ∧ _ ∧ _))

/-- The rows that the statements about memories select. -/
def memories : List UserMemory := store.memoryEntries.filter (fun entry => subject.Owns entry)

def knowledge : List CreatedKnowledge := store.knowledgeItems.filter (fun item => subject.Created item)

def logDataAccess : ErasureStore :=
  { store with gdprAuditLogs := store.gdprAuditLogs ++
      [⟨subject.tenantId, subject.userId, "right_to_be_forgotten", "user_data", some subject.userId⟩] }

def deleteMemories : ErasureStore :=
  { store with memoryEntries := store.memoryEntries.filter (fun entry => ¬ subject.Owns entry) }

def deleteKnowledge : ErasureStore :=
  { store with knowledgeItems := store.knowledgeItems.filter (fun item => ¬ subject.Created item) }

def revokeConsents (now : Nat) : ErasureStore :=
  { store with gdprConsents := store.gdprConsents.map (fun consent =>
      if subject.Gave consent then { consent with granted := false, revokedAt := some now } else consent) }

end Subject

def ErasureStore.del (store : ErasureStore) (keys : List String) : ErasureStore :=
  { store with redisKeys := store.redisKeys.filter (fun key => key ∉ keys) }

inductive GdprError where
  | database (error : String)
  | cacheDeletion (message : String)

structure GdprDeleteResult where
  (userId tenantId : String)
  deletedAt : Nat
  deletedMemoryIds : List String
  (deletedMemoryCount deletedKnowledgeCount deletedCacheKeyCount : Nat)

inductive KeyLoop where
  | user
  | embeddings
  deriving DecidableEq

inductive ErasureStatement where
  | logDataAccess
  | readIds
  | countMemories
  | deleteMemories
  | countKnowledge
  | deleteKnowledge
  | revokeConsents
  | scan (loop : KeyLoop) (cursor : Nat)
  | del (loop : KeyLoop) (keys : List String) (nextCursor : Nat)
  | ended (outcome : Except GdprError GdprDeleteResult)

/-- A call of `delete_user_data` with its variables. `removed` are the ids of the memories that its DELETE has
removed, which the code does not keep. -/
structure Erasing where
  next : ErasureStatement := .logDataAccess
  memoryIds : List String := []
  memoryCount : Nat := 0
  knowledgeCount : Nat := 0
  cacheKeyCount : Nat := 0
  removed : List String := []

structure Incident where
  fault : Option CallFault := none
  page : Nat × List String := (0, [])
  now : Nat := 0

namespace Erasing
variable (subject : Subject) (incident : Incident) (store : ErasureStore) (call : Erasing)

def issue {α : Type} (wrap : String → GdprError) (value : α) (after : ErasureStore) (next : α → Erasing) :
    Erasing × ErasureStore :=
  match settle value store after incident.fault with
  | (.ok a, reached) => (next a, reached)
  | (.error e, reached) => ({ call with next := .ended (.error (wrap e)) }, reached)

def counted (value : Nat) : Nat := (settle value store store incident.fault).1.toOption.getD 0

def result : GdprDeleteResult where
  userId := subject.userId
  tenantId := subject.tenantId
  deletedAt := incident.now
  deletedMemoryIds := call.memoryIds
  deletedMemoryCount := call.memoryCount
  deletedKnowledgeCount := call.knowledgeCount
  deletedCacheKeyCount := call.cacheKeyCount

def turn (loop : KeyLoop) (cursor : Nat) : Erasing :=
  if cursor ≠ 0 then { call with next := .scan loop cursor }
  else match loop with
    | .user => { call with next := .scan .embeddings 0 }
    | .embeddings => { call with next := .ended (.ok (call.result subject incident)) }

def scanFailed : KeyLoop → String → GdprError
  | .user, e => .cacheDeletion ("SCAN failed: " ++ e)
  | .embeddings, e => .cacheDeletion ("SCAN emb failed: " ++ e)

def delFailed : KeyLoop → String → GdprError
  | .user, e => .cacheDeletion ("DEL failed: " ++ e)
  | .embeddings, e => .cacheDeletion ("DEL emb failed: " ++ e)

def doomed : KeyLoop → List String → List String
  | .user, keys => keys
  | .embeddings, keys => keys.filter (fun key => containsText key subject.userId)

def deletedMemories : Erasing × ErasureStore :=
  match settle () ([], store)
    ((subject.memories store).map UserMemory.id, subject.deleteMemories store) incident.fault with
  | (.ok (), removed, reached) => ({ call with next := .countKnowledge, removed }, reached)
  | (.error e, removed, reached) => ({ call with next := .ended (.error (.database e)), removed }, reached)

def advance : Erasing × ErasureStore :=
  match call.next with
  | .logDataAccess => call.issue incident store .database () (subject.logDataAccess store)
      (fun _ => { call with next := .readIds })
  | .readIds =>
    call.issue incident store .database ((subject.memories store).map UserMemory.id) store
      (fun ids => { call with next := .countMemories, memoryIds := ids })
  | .countMemories =>
    ({ call with next := .deleteMemories, memoryCount := counted incident store (subject.memories store).length },
      store)
  | .deleteMemories => call.deletedMemories subject incident store
  | .countKnowledge =>
    ({ call with next := .deleteKnowledge, knowledgeCount := counted incident store (subject.knowledge store).length }, store)
  | .deleteKnowledge =>
    call.issue incident store .database () (subject.deleteKnowledge store)
      (fun _ => { call with next := .revokeConsents })
  | .revokeConsents =>
    call.issue incident store .database () (subject.revokeConsents store incident.now)
      (fun _ => { call with next := .scan .user 0 })
  | .scan loop _ =>
    call.issue incident store (scanFailed loop) incident.page store (fun page =>
      let keys := doomed subject loop page.2
      if keys = [] then call.turn subject incident loop page.1 else { call with next := .del loop keys page.1 })
  | .del loop keys nextCursor =>
    call.issue incident store (delFailed loop) () (store.del keys)
      (fun _ => { call with cacheKeyCount := call.cacheKeyCount + keys.length }.turn subject incident loop nextCursor)
  | .ended _ => (call, store)

def Early (call : Erasing) : Prop :=
  match call.next with
  | .logDataAccess | .readIds | .countMemories | .deleteMemories => True
  | _ => False

structure Sound (call : Erasing) : Prop where
  early : call.Early → call.removed = []
  read : ∀ id ∈ call.removed, id ∈ call.memoryIds
  reported : ∀ outcome, call.next = .ended outcome →
    call.removed = [] ∨ ∃ result, outcome = .ok result ∧ result.deletedMemoryIds = call.memoryIds

/-- The statement does not lose ids: its DELETE removes only memories that the call has read, and it does not
fail once some are removed. -/
def Careful : Prop :=
  match call.next with
  | .deleteMemories => CarriedOut incident.fault →
    ∀ entry ∈ subject.memories store, entry.id ∈ call.memoryIds ∧ incident.fault = none
  | .deleteKnowledge | .revokeConsents | .scan _ _ | .del _ _ _ => call.removed = [] ∨ incident.fault = none
  | _ => True

instance : (call : Erasing) → Decidable (call.Careful subject incident store)
  | { next := .deleteMemories, .. } => inferInstanceAs (Decidable (_ → _))
  | { next := .deleteKnowledge, .. } | { next := .revokeConsents, .. } | { next := .scan _ _, .. } | { next := .del _ _ _, .. } =>
    inferInstanceAs (Decidable (_ ∨ _))
  | { next := .logDataAccess, .. } | { next := .readIds, .. } | { next := .countMemories, .. } | { next := .countKnowledge, .. }
  | { next := .ended _, .. } => .isTrue trivial

variable {subject incident store call}

theorem Sound.init : ({} : Erasing).Sound := ⟨fun _ => rfl, fun _ absent => absurd absent not_mem_nil, nofun⟩

theorem sound_of_none (none : call.removed = []) : call.Sound where
  early _ := none
  read id member := by
    rw [none] at member
    exact absurd member not_mem_nil
  reported _ _ := .inl none

theorem Sound.goOn (sound : call.Sound) {later : Erasing} (late : ¬ later.Early)
    (goes : ∀ outcome, later.next ≠ .ended outcome) (ids : later.memoryIds = call.memoryIds)
    (removed : later.removed = call.removed) : later.Sound where
  early early := absurd early late
  read id member := by
    rw [ids]
    rw [removed] at member
    exact sound.read id member
  reported outcome ended := absurd ended (goes outcome)

theorem issue_sound {α : Type} {wrap : String → GdprError} {value : α} {after : ErasureStore} {next : α → Erasing}
    (safe : call.removed = [] ∨ incident.fault = none) (going : (next value).Sound) :
    (call.issue incident store wrap value after next).1.Sound := by
  obtain ⟨fault, page, now⟩ := incident
  cases fault with
  | none => exact going
  | some fault =>
    have none := safe.resolve_right nofun
    cases fault <;> exact sound_of_none none

theorem turn_sound (sound : call.Sound) {loop : KeyLoop} {cursor : Nat} :
    (call.turn subject incident loop cursor).Sound := by
  unfold turn
  split
  · exact sound.goOn id nofun rfl rfl
  · cases loop with
    | user => exact sound.goOn id nofun rfl rfl
    | embeddings =>
      refine ⟨fun early => early.elim, sound.read, fun outcome ended => .inr ?_⟩
      cases ended
      exact ⟨_, rfl, rfl⟩

theorem deletedMemories_sound
    (careful : CarriedOut incident.fault → ∀ entry ∈ subject.memories store, entry.id ∈ call.memoryIds ∧
      incident.fault = none) :
    (call.deletedMemories subject incident store).1.Sound := by
  obtain ⟨fault, page, now⟩ := incident
  rcases fault with _ | e | e
  · refine ⟨fun early => early.elim, fun id member => ?_, nofun⟩
    obtain ⟨entry, selected, rfl⟩ := mem_map.mp member
    exact (careful nofun entry selected).1
  · exact sound_of_none rfl
  · have nothing : subject.memories store = [] :=
      eq_nil_iff_forall_not_mem.mpr (fun entry member => nomatch (careful nofun entry member).2)
    exact sound_of_none (map_eq_nil_iff.mpr nothing)

theorem Sound.advance (sound : call.Sound) (careful : call.Careful subject incident store) :
    (call.advance subject incident store).1.Sound := by
  obtain ⟨next, ids, memories, knowledge, keys, removed⟩ := call
  cases next with
  | logDataAccess => exact issue_sound (.inl (sound.early trivial)) (sound_of_none (sound.early trivial))
  | readIds => exact issue_sound (.inl (sound.early trivial)) (sound_of_none (sound.early trivial))
  | countMemories => exact sound_of_none (sound.early trivial)
  | deleteMemories => exact deletedMemories_sound careful
  | countKnowledge => exact sound.goOn id nofun rfl rfl
  | deleteKnowledge => exact issue_sound careful (sound.goOn id nofun rfl rfl)
  | revokeConsents => exact issue_sound careful (sound.goOn id nofun rfl rfl)
  | scan loop cursor =>
    apply issue_sound careful
    dsimp only
    split
    · exact turn_sound sound
    · exact sound.goOn id nofun rfl rfl
  | del loop doomed nextCursor =>
    apply issue_sound careful
    apply turn_sound
    exact ⟨sound.early, sound.read, sound.reported⟩
  | ended outcome => exact sound

end Erasing

structure Erasures (ι : Type) where
  store : ErasureStore
  calls : ι → Erasing := fun _ => {}

inductive ErasureLabel (ι : Type) where
  | statement (i : ι) (incident : Incident)
  | insert (entry : UserMemory)

namespace Erasures
variable {ι : Type} [DecidableEq ι] (subject : Subject) (w : Erasures ι)

def step : ErasureLabel ι → Option (Erasures ι)
  | .statement i incident =>
    let advanced := (w.calls i).advance subject incident w.store
    some ⟨advanced.2, Function.update w.calls i advanced.1⟩
  | .insert entry =>
    if entry.id ∈ w.store.memoryEntries.map UserMemory.id then none
    else some { w with store := { w.store with memoryEntries := w.store.memoryEntries ++ [entry] } }

/-- A call has returned a result, and none is under way. -/
def Settled : Prop :=
  (∃ i result, (w.calls i).next = .ended (.ok result)) ∧
    ∀ i, (w.calls i).next = .logDataAccess ∨ ∃ outcome, (w.calls i).next = .ended outcome

def Reported : Prop :=
  w.Settled → ∀ i, ∀ id ∈ (w.calls i).removed, ∃ j result, (w.calls j).next = .ended (.ok result) ∧
    id ∈ result.deletedMemoryIds

def Careful : ErasureLabel ι → Prop
  | .statement i incident => (w.calls i).Careful subject incident w.store
  | .insert _ => True

instance : (label : ErasureLabel ι) → Decidable (w.Careful subject label)
  | .statement i incident => inferInstanceAs (Decidable ((w.calls i).Careful subject incident w.store))
  | .insert _ => .isTrue trivial

variable {subject w}

omit [DecidableEq ι] in
theorem reported_of_sound (sound : ∀ i, (w.calls i).Sound) : w.Reported := by
  rintro ⟨_, settled⟩ i id member
  rcases settled i with first | ⟨outcome, ended⟩
  · have early : (w.calls i).Early := by
      unfold Erasing.Early
      rw [first]
      trivial
    rw [(sound i).early early] at member
    exact absurd member not_mem_nil
  · rcases (sound i).reported outcome ended with none | ⟨result, rfl, same⟩
    · rw [none] at member
      exact absurd member not_mem_nil
    · refine ⟨i, result, ended, ?_⟩
      rw [same]
      exact (sound i).read id member

theorem sound_step {next : Erasures ι} {label : ErasureLabel ι} (sound : ∀ i, (w.calls i).Sound)
    (careful : w.Careful subject label) (stepped : w.step subject label = some next) : ∀ i, (next.calls i).Sound := by
  cases label with
  | insert entry =>
    obtain ⟨_, moved⟩ := Option.ite_none_left_eq_some.mp stepped
    cases moved
    exact sound
  | statement i incident =>
    cases stepped
    intro j
    by_cases same : j = i
    · subst same
      simp only [Function.update_self]
      exact (sound j).advance careful
    · simp only [Function.update_of_ne same]
      exact sound j

/-- Erasure reports what it has deleted in the runs whose statements lose no ids. -/
theorem careful_erasure_reports {store : ErasureStore} {labels : List (ErasureLabel ι)}
    (careful : Along (step subject) (Careful subject) ⟨store, fun _ => {}⟩ labels) :
    Throughout (step subject) Reported ⟨store, fun _ => {}⟩ labels :=
  Lib.throughout_of_along (fun _ => reported_of_sound)
    (fun _ _ _ sound careful stepped => sound_step sound careful stepped)
    (fun _ => .init) careful

def ada : Subject := ⟨"acme", "ada"⟩

def adasNote : UserMemory := ⟨"note-1", "acme", some "ada"⟩

def statements (n : Nat) (retry : Bool) : List (ErasureLabel Bool) := replicate n (.statement retry {})

def redisFails : List (ErasureLabel Bool) :=
  statements 7 false ++ .statement false { fault := some (.refused "connection reset") } :: statements 9 true

def insertedBetween : List (ErasureLabel Bool) := statements 2 false ++ .insert adasNote :: statements 7 false

theorem erasure_loses_ids :
    ¬ Throughout (step ada) Reported ⟨{ memoryEntries := [adasNote] }, fun _ => {}⟩ redisFails ∧
      ¬ Throughout (step ada) Reported ⟨{}, fun _ => {}⟩ insertedBetween := by
  constructor
  · intro held
    have reported := held redisFails [] _ (append_nil _).symm rfl
    obtain ⟨j, result, ended, listed⟩ :=
        reported ⟨⟨true, _, rfl⟩, fun i => .inr (by cases i <;> exact ⟨_, rfl⟩)⟩ false "note-1"
      (mem_singleton.mpr rfl)
    cases j with
    | false => cases ended
    | true =>
      cases ended
      cases listed
  · intro held
    have reported := held insertedBetween [] _ (append_nil _).symm rfl
    obtain ⟨j, result, ended, listed⟩ :=
        reported ⟨⟨false, _, rfl⟩, fun i => by cases i; exacts [.inr ⟨_, rfl⟩, .inl rfl]⟩ false "note-1"
      (mem_singleton.mpr rfl)
    cases j with
    | false =>
      cases ended
      cases listed
    | true => cases ended

theorem ada_is_erased : Along (step ada) (Careful ada) ⟨{}, fun _ => {}⟩ (.insert adasNote :: statements 9 false) ∧
      Throughout (step ada) Reported ⟨{}, fun _ => {}⟩ (.insert adasNote :: statements 9 false) :=
  have careful : Along (step ada) (Careful ada) ⟨{}, fun _ => {}⟩ (.insert adasNote :: statements 9 false) :=
    by decide
  ⟨careful, careful_erasure_reports careful⟩

end Erasures

end Aeterna.Operations
