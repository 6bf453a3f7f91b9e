import Aeterna.Core.Types
import Aeterna.Lib.Runs
import Aeterna.Lib.Table

namespace Aeterna.Sync
open Lib (Table Along Throughout run)
open Lib.Table Option List Function

structure SummaryPointer where
  entryId : String
  layer : MemoryLayer
  depth : SummaryDepth
  (contentHash sourceContentHash : String)
  tokenCount : Nat
  syncedAt : Int
  isStale : Bool := false
  personalized : Bool := false
  personalizationContext : Option String := none
  deriving DecidableEq

namespace SummaryPointer

def new (entryId : String) (layer : MemoryLayer) (depth : SummaryDepth) (contentHash sourceContentHash : String)
    (tokenCount : Nat) (now : Int) : SummaryPointer :=
  { entryId, layer, depth, contentHash, sourceContentHash, tokenCount, syncedAt := now }

def markStale (pointer : SummaryPointer) : SummaryPointer := { pointer with isStale := true }

def staleness (pointer : SummaryPointer) : Nat := if pointer.isStale then 1 else 0

end SummaryPointer

structure SummaryPointerState where
  pointers : Table String (Table SummaryDepth SummaryPointer) := {}
  totalSummaries : Nat := 0
  staleCount : Nat := 0

namespace SummaryPointerState

def getPointer (s : SummaryPointerState) (entryId : String) (depth : SummaryDepth) : Option SummaryPointer :=
  (s.pointers.get entryId).bind (fun entry => entry.get depth)

def setPointer (pointer : SummaryPointer) (s : SummaryPointerState) : SummaryPointerState where
  pointers := s.pointers.upsert pointer.entryId (Table.empty.upsert pointer.depth pointer (fun _ => pointer))
    (fun entry => entry.upsert pointer.depth pointer (fun _ => pointer))
  totalSummaries :=
    if (s.getPointer pointer.entryId pointer.depth).isNone then s.totalSummaries + 1 else s.totalSummaries
  staleCount := s.staleCount

def uncount (s : SummaryPointerState) (pointer : SummaryPointer) : SummaryPointerState :=
  { s with
    totalSummaries := s.totalSummaries - 1
    staleCount := if pointer.isStale then s.staleCount - 1 else s.staleCount }

def removePointer (entryId : String) (depth : SummaryDepth) (s : SummaryPointerState) :
    Option SummaryPointer × SummaryPointerState :=
  match s.getPointer entryId depth with
  | some pointer =>
    let left := s.pointers.update (fun key entry =>
      if key = entryId then entry.keepOnly (fun other _ => other ≠ depth) else entry)
    (some pointer,
      { s.uncount pointer with pointers := left.keepOnly (fun key entry => key ≠ entryId ∨ ¬ entry.rows.isEmpty) })
  | none => (none, s)

def removeAllForEntry (entryId : String) (s : SummaryPointerState) : List SummaryPointer × SummaryPointerState :=
  match s.pointers.get entryId with
  | some entry =>
    let removed := entry.rows.map Prod.snd
    (removed, { removed.foldl uncount s with pointers := s.pointers.keepOnly (fun key _ => key ≠ entryId) })
  | none => ([], s)

def markWhere (chosen : SummaryDepth → SummaryPointer → Bool) (entryId : String) (s : SummaryPointerState) :
    Nat × SummaryPointerState :=
  match s.pointers.get entryId with
  | some entry =>
    let count := (entry.rows.filter (fun e => chosen e.1 e.2 ∧ ¬ e.2.isStale)).length
    let marked := fun (entry : Table SummaryDepth SummaryPointer) =>
      entry.update (fun depth pointer => if chosen depth pointer then pointer.markStale else pointer)
    (count,
      { s with
        pointers := s.pointers.update (fun key entry => if key = entryId then marked entry else entry)
        staleCount := s.staleCount + count })
  | none => (0, s)

def markStale (entryId : String) (depth : SummaryDepth) (s : SummaryPointerState) : Bool × SummaryPointerState :=
  ((s.getPointer entryId depth).isSome, (s.markWhere (fun other _ => other = depth) entryId).2)

def markAllStaleForEntry (entryId : String) (s : SummaryPointerState) : Nat × SummaryPointerState :=
  s.markWhere (fun _ _ => true) entryId

def markStaleForEntryAndLayer (entryId : String) (layer : MemoryLayer) (s : SummaryPointerState) :
    Nat × SummaryPointerState :=
  s.markWhere (fun _ pointer => pointer.layer = layer) entryId

end SummaryPointerState

inductive SummaryPointerCall where
  | setPointer (pointer : SummaryPointer)
  | removePointer (entryId : String) (depth : SummaryDepth)
  | removeAllForEntry (entryId : String)
  | markStale (entryId : String) (depth : SummaryDepth)
  | markAllStaleForEntry (entryId : String)
  | markStaleForEntryAndLayer (entryId : String) (layer : MemoryLayer)

namespace SummaryPointerState

def after (s : SummaryPointerState) : SummaryPointerCall → SummaryPointerState
  | .setPointer pointer => s.setPointer pointer
  | .removePointer entryId depth => (s.removePointer entryId depth).2
  | .removeAllForEntry entryId => (s.removeAllForEntry entryId).2
  | .markStale entryId depth => (s.markStale entryId depth).2
  | .markAllStaleForEntry entryId => (s.markAllStaleForEntry entryId).2
  | .markStaleForEntryAndLayer entryId layer => (s.markStaleForEntryAndLayer entryId layer).2

def step (s : SummaryPointerState) (call : SummaryPointerCall) : Option SummaryPointerState := some (s.after call)

def weigh (weight : SummaryPointer → Nat) (s : SummaryPointerState) : Nat :=
  s.pointers.total (Table.total weight)

def stored (s : SummaryPointerState) : Nat := s.weigh (fun _ => 1)

def staleStored (s : SummaryPointerState) : Nat := s.weigh SummaryPointer.staleness

structure Recounted (s : SummaryPointerState) : Prop where
  total : s.totalSummaries = s.stored
  stale : s.staleCount = s.staleStored

/-- `set_pointer` puts a pointer in the place of one with the same flag, or a fresh one where there is none. -/
def KeepsFlag (s : SummaryPointerState) : SummaryPointerCall → Prop
  | .setPointer pointer =>
      ((s.getPointer pointer.entryId pointer.depth).map SummaryPointer.isStale).getD false = pointer.isStale
  | _ => True

section
variable {s : SummaryPointerState} {pointer : SummaryPointer} {entryId : String} {depth : SummaryDepth}
  {entry : Table SummaryDepth SummaryPointer}

theorem getPointer_setPointer (pointer : SummaryPointer) (s : SummaryPointerState) (entryId : String)
    (depth : SummaryDepth) : (s.setPointer pointer).getPointer entryId depth =
      if entryId = pointer.entryId ∧ depth = pointer.depth then some pointer else s.getPointer entryId depth := by
  unfold getPointer setPointer
  rw [get_upsert]
  by_cases own : entryId = pointer.entryId
  · subst own
    rw [if_pos rfl, bind_some]
    cases held : s.pointers.get pointer.entryId with
    | none =>
      have empty : (Table.empty : Table SummaryDepth SummaryPointer).get depth = none := rfl
      rw [map_none, getD_none, get_put, empty]
      simp
    | some entry =>
      rw [map_some, getD_some, get_put]
      simp
  · rw [if_neg own, if_neg (fun both => own both.1)]

variable (weight : SummaryPointer → Nat)

theorem weigh_setPointer (pointer : SummaryPointer) (s : SummaryPointerState) : (s.setPointer pointer).weigh weight +
        ((s.getPointer pointer.entryId pointer.depth).map weight).getD 0 = s.weigh weight + weight pointer := by
  have before := total_split (Table.total weight) s.pointers pointer.entryId
  have after := total_upsert (Table.total weight) s.pointers pointer.entryId
    (Table.empty.upsert pointer.depth pointer (fun _ => pointer))
    (fun entry => entry.upsert pointer.depth pointer (fun _ => pointer))
  unfold weigh setPointer getPointer
  rw [after, before]
  cases held : s.pointers.get pointer.entryId with
  | none =>
    have added := total_upsert weight Table.empty pointer.depth pointer (fun _ => pointer)
    have empty : (Table.empty : Table SummaryDepth SummaryPointer).get pointer.depth = none := rfl
    rw [empty] at added
    have nothing : (Table.empty.keepOnly (fun other (_ : SummaryPointer) => other ≠ pointer.depth)).total weight = 0 :=
      rfl
    simp only [map_none, getD_none, bind_none] at added ⊢
    omega
  | some entry =>
    have old := total_split weight entry pointer.depth
    have new := total_upsert weight entry pointer.depth pointer (fun _ => pointer)
    have same : ((entry.get pointer.depth).map (fun _ => pointer)).getD pointer = pointer := by
      cases entry.get pointer.depth <;> rfl
    rw [same] at new
    simp only [map_some, getD_some, bind_some]
    omega

theorem weigh_removePointer (found : s.getPointer entryId depth = some pointer) :
    (s.removePointer entryId depth).2.weigh weight + weight pointer = s.weigh weight := by
  obtain ⟨entry, held, inside⟩ := bind_eq_some_iff.mp found
  have before := total_split (Table.total weight) s.pointers entryId
  have after := total_update (Table.total weight)
    (fun entry => entry.keepOnly (fun other _ => other ≠ depth)) s.pointers entryId
  have old := total_split weight entry depth
  rw [held] at before after
  rw [inside] at old
  unfold removePointer weigh
  rw [found]
  dsimp only
  rw [total_keepOnly, after, before]
  · simp only [map_some, getD_some, comp_apply] at old ⊢
    omega
  · intro e _ dropped
    have none : e.2.rows = [] := by
      simp only [not_or, not_not, decide_eq_false_iff_not, List.isEmpty_iff] at dropped
      exact dropped.2
    rw [Table.total, none]
    rfl

theorem weigh_removeAll (held : s.pointers.get entryId = some entry) :
    (s.removeAllForEntry entryId).2.weigh weight + entry.total weight = s.weigh weight := by
  have before := total_split (Table.total weight) s.pointers entryId
  rw [held] at before
  unfold removeAllForEntry weigh
  rw [held, before]
  exact Nat.add_comm _ _

theorem weigh_update (f : Table SummaryDepth SummaryPointer → Table SummaryDepth SummaryPointer)
    (held : s.pointers.get entryId = some entry) :
    (s.pointers.update (fun key entry => if key = entryId then f entry else entry)).total
        (Table.total weight) + entry.total weight = s.weigh weight + (f entry).total weight := by
  have before := total_split (Table.total weight) s.pointers entryId
  have after := total_update (Table.total weight) f s.pointers entryId
  rw [held] at before after
  unfold weigh
  rw [after, before]
  simp only [map_some, getD_some, comp_apply]
  omega

theorem uncount_all (removed : List SummaryPointer) (s : SummaryPointerState) :
    (removed.foldl uncount s).totalSummaries = s.totalSummaries - removed.length ∧
      (removed.foldl uncount s).staleCount = s.staleCount - (removed.map SummaryPointer.staleness).sum := by
  induction removed generalizing s with
  | nil => exact ⟨rfl, rfl⟩
  | cons pointer rest ih =>
    obtain ⟨total, stale⟩ := ih (s.uncount pointer)
    rw [foldl_cons, total, stale, length_cons, map_cons, sum_cons]
    unfold uncount
    constructor
    · dsimp only
      omega
    · by_cases flag : pointer.isStale <;> simp [SummaryPointer.staleness, flag, Nat.sub_sub]

theorem marked_staleness (chosen : SummaryDepth → SummaryPointer → Bool) (rows : List (SummaryDepth × SummaryPointer)) :
    (rows.map (fun e => (if chosen e.1 e.2 then e.2.markStale else e.2).staleness)).sum =
      (rows.map (fun e => e.2.staleness)).sum + (rows.filter (fun e => chosen e.1 e.2 ∧ ¬ e.2.isStale)).length := by
  induction rows with
  | nil => rfl
  | cons e rest ih =>
    rw [map_cons, sum_cons, ih, map_cons, sum_cons, filter_cons]
    by_cases picked : chosen e.1 e.2
    · by_cases flag : e.2.isStale
      · simp [SummaryPointer.staleness, SummaryPointer.markStale, picked, flag]
        omega
      · simp [SummaryPointer.staleness, SummaryPointer.markStale, picked, flag]
        omega
    · simp [picked]
      omega

end

section
variable {s : SummaryPointerState}

theorem total_set (pointer : SummaryPointer) (before : s.totalSummaries = s.stored) :
    (s.setPointer pointer).totalSummaries = (s.setPointer pointer).stored := by
  have weighed := weigh_setPointer (fun _ => 1) pointer s
  show (if (s.getPointer pointer.entryId pointer.depth).isNone then s.totalSummaries + 1 else s.totalSummaries) = _
  unfold stored at before ⊢
  cases found : s.getPointer pointer.entryId pointer.depth with
  | none =>
    simp only [found, map_none, getD_none, isNone_none, if_true] at weighed ⊢
    omega
  | some old =>
    simp only [found, map_some, getD_some, isNone_some, Bool.false_eq_true, if_false]
      at weighed ⊢
    omega

theorem Recounted.remove (before : s.Recounted) (entryId : String) (depth : SummaryDepth) :
    (s.removePointer entryId depth).2.Recounted := by
  cases found : s.getPointer entryId depth with
  | none =>
    have same : s.removePointer entryId depth = (none, s) := by rw [removePointer, found]
    rw [same]
    exact before
  | some pointer =>
    have all := weigh_removePointer (fun _ => 1) found
    have stale := weigh_removePointer SummaryPointer.staleness found
    have total := before.total
    have count := before.stale
    unfold stored at total
    unfold staleStored at count
    constructor
    · have left : (s.removePointer entryId depth).2.totalSummaries = s.totalSummaries - 1 := by
        rw [removePointer, found]
        rfl
      unfold stored
      omega
    · have left : (s.removePointer entryId depth).2.staleCount = s.staleCount - pointer.staleness := by
        rw [removePointer, found]
        show (if pointer.isStale then s.staleCount - 1 else s.staleCount) = _
        by_cases flag : pointer.isStale <;> simp [SummaryPointer.staleness, flag]
      unfold staleStored
      omega

theorem Recounted.removeAll (before : s.Recounted) (entryId : String) :
    (s.removeAllForEntry entryId).2.Recounted := by
  cases held : s.pointers.get entryId with
  | none =>
    have same : s.removeAllForEntry entryId = ([], s) := by rw [removeAllForEntry, held]
    rw [same]
    exact before
  | some entry =>
    have all := weigh_removeAll (fun _ => 1) held
    have stale := weigh_removeAll SummaryPointer.staleness held
    obtain ⟨fewer, fewerStale⟩ := uncount_all (entry.rows.map Prod.snd) s
    have total := before.total
    have count := before.stale
    unfold stored at total
    unfold staleStored at count
    constructor
    · have left : (s.removeAllForEntry entryId).2.totalSummaries = s.totalSummaries - entry.rows.length := by
        rw [removeAllForEntry, held]
        simpa using fewer
      have number : entry.total (fun _ => 1) = entry.rows.length := by simp [Table.total]
      unfold stored
      omega
    · have left : (s.removeAllForEntry entryId).2.staleCount =
          s.staleCount - entry.total SummaryPointer.staleness := by
        rw [removeAllForEntry, held, Table.total]
        simpa [List.map_map, comp_def] using fewerStale
      unfold staleStored
      omega

theorem Recounted.mark (before : s.Recounted) (chosen : SummaryDepth → SummaryPointer → Bool) (entryId : String) :
    (s.markWhere chosen entryId).2.Recounted := by
  cases held : s.pointers.get entryId with
  | none =>
    have same : s.markWhere chosen entryId = (0, s) := by rw [markWhere, held]
    rw [same]
    exact before
  | some entry =>
    let marked := fun (entry : Table SummaryDepth SummaryPointer) =>
      entry.update (fun depth pointer => if chosen depth pointer then pointer.markStale else pointer)
    have all := weigh_update (fun _ => 1) marked held
    have stale := weigh_update SummaryPointer.staleness marked held
    have after : (s.markWhere chosen entryId).2 = { s with
        pointers := s.pointers.update (fun key entry => if key = entryId then marked entry else entry)
        staleCount :=
          s.staleCount + (entry.rows.filter (fun e => chosen e.1 e.2 ∧ ¬ e.2.isStale)).length } := by
      rw [markWhere, held]
    have number : (marked entry).total (fun _ => 1) = entry.total (fun _ => 1) := by
      simp [marked, Table.total, Table.update, comp_def]
    have flags : (marked entry).total SummaryPointer.staleness = entry.total SummaryPointer.staleness +
        (entry.rows.filter (fun e => chosen e.1 e.2 ∧ ¬ e.2.isStale)).length := by
      rw [Table.total, Table.total, ← marked_staleness]
      simp [marked, Table.update, comp_def]
    have total := before.total
    have count := before.stale
    rw [after]
    constructor
    · unfold stored at total
      show s.totalSummaries = Table.total _ (s.pointers.update _)
      omega
    · unfold staleStored at count
      show s.staleCount + _ = Table.total _ (s.pointers.update _)
      omega

theorem recounted_after (before : s.Recounted) (call : SummaryPointerCall) :
    (s.after call).totalSummaries = (s.after call).stored ∧ ((s.after call).Recounted ↔ s.KeepsFlag call) := by
  cases call with
  | setPointer pointer =>
    have total := total_set pointer before.total
    have weighed := weigh_setPointer SummaryPointer.staleness pointer s
    have count := before.stale
    have exact : (s.setPointer pointer).staleCount = (s.setPointer pointer).staleStored ↔
        ((s.getPointer pointer.entryId pointer.depth).map SummaryPointer.staleness).getD 0 = pointer.staleness := by
      show s.staleCount = _ ↔ _
      unfold staleStored at count ⊢
      omega
    refine ⟨total, Iff.trans ⟨Recounted.stale, fun stale => ⟨total, stale⟩⟩ (exact.trans ?_)⟩
    show _ ↔ _ = _
    cases s.getPointer pointer.entryId pointer.depth with
    | none => cases flag : pointer.isStale <;> simp [SummaryPointer.staleness, flag]
    | some old =>
      cases flag : pointer.isStale <;> cases was : old.isStale <;> simp [SummaryPointer.staleness, flag, was]
  | removePointer entryId depth =>
    have after := before.remove entryId depth
    exact ⟨after.total, fun _ => trivial, fun _ => after⟩
  | removeAllForEntry entryId =>
    have after := before.removeAll entryId
    exact ⟨after.total, fun _ => trivial, fun _ => after⟩
  | markStale entryId depth =>
    have after := before.mark (fun other _ => other = depth) entryId
    exact ⟨after.total, fun _ => trivial, fun _ => after⟩
  | markAllStaleForEntry entryId =>
    have after := before.mark (fun _ _ => true) entryId
    exact ⟨after.total, fun _ => trivial, fun _ => after⟩
  | markStaleForEntryAndLayer entryId layer =>
    have after := before.mark (fun _ pointer => pointer.layer = layer) entryId
    exact ⟨after.total, fun _ => trivial, fun _ => after⟩

end

end SummaryPointerState

structure HindsightPointer where
  errorSignatureId : String
  resolutionIds : List String

structure HindsightPointerState where
  pointers : Table String HindsightPointer := {}
  totalPatterns : Nat := 0
  totalResolutions : Nat := 0

inductive HindsightPointerCall where
  | setPointer (pointer : HindsightPointer)
  | removePointer (errorSignatureId : String)

namespace HindsightPointerState

def setPointer (pointer : HindsightPointer) (s : HindsightPointerState) : HindsightPointerState :=
  let existing := s.pointers.get pointer.errorSignatureId
  let totalResolutions :=
    match existing with
    | some existing => s.totalResolutions - existing.resolutionIds.length
    | none => s.totalResolutions
  { pointers := s.pointers.upsert pointer.errorSignatureId pointer (fun _ => pointer)
    totalPatterns := if existing.isNone then s.totalPatterns + 1 else s.totalPatterns
    totalResolutions := totalResolutions + pointer.resolutionIds.length }

def removePointer (errorSignatureId : String) (s : HindsightPointerState) :
    Option HindsightPointer × HindsightPointerState :=
  match s.pointers.get errorSignatureId with
  | some pointer =>
    (some pointer,
      { pointers := s.pointers.keepOnly (fun key _ => key ≠ errorSignatureId)
        totalPatterns := s.totalPatterns - 1
        totalResolutions := s.totalResolutions - pointer.resolutionIds.length })
  | none => (none, s)

def after (s : HindsightPointerState) : HindsightPointerCall → HindsightPointerState
  | .setPointer pointer => s.setPointer pointer
  | .removePointer errorSignatureId => (s.removePointer errorSignatureId).2

def step (s : HindsightPointerState) (call : HindsightPointerCall) : Option HindsightPointerState :=
  some (s.after call)

structure Recounted (s : HindsightPointerState) : Prop where
  patterns : s.totalPatterns = s.pointers.total (fun _ => 1)
  resolutions : s.totalResolutions = s.pointers.total (fun pointer => pointer.resolutionIds.length)

variable {s : HindsightPointerState}

theorem Recounted.set (before : s.Recounted) (pointer : HindsightPointer) : (s.setPointer pointer).Recounted := by
  obtain ⟨patterns, resolutions⟩ := before
  have number := total_split (fun _ => 1) s.pointers pointer.errorSignatureId
  have lengths := total_split (fun held => held.resolutionIds.length) s.pointers pointer.errorSignatureId
  have newNumber := total_upsert (fun _ => 1) s.pointers pointer.errorSignatureId pointer (fun _ => pointer)
  have newLengths := total_upsert (fun held => held.resolutionIds.length) s.pointers
    pointer.errorSignatureId pointer (fun _ => pointer)
  unfold setPointer
  cases held : s.pointers.get pointer.errorSignatureId with
  | none =>
    simp only [held, map_none, getD_none] at number lengths newNumber newLengths
    constructor
    · simp only [isNone_none, if_true]
      omega
    · dsimp only
      omega
  | some old =>
    simp only [held, map_some, getD_some] at number lengths newNumber newLengths
    constructor
    · simp only [isNone_some, Bool.false_eq_true, if_false]
      omega
    · dsimp only
      omega

theorem Recounted.remove (before : s.Recounted) (errorSignatureId : String) :
    (s.removePointer errorSignatureId).2.Recounted := by
  obtain ⟨patterns, resolutions⟩ := before
  have number := total_split (fun _ => 1) s.pointers errorSignatureId
  have lengths := total_split (fun held => held.resolutionIds.length) s.pointers errorSignatureId
  unfold removePointer
  cases held : s.pointers.get errorSignatureId with
  | none => exact ⟨patterns, resolutions⟩
  | some old =>
    simp only [held, map_some, getD_some] at number lengths
    constructor
    · dsimp only
      omega
    · dsimp only
      omega

theorem throughout_recounted (calls : List HindsightPointerCall) : Throughout step Recounted {} calls := by
  apply Lib.throughout_of_along (J := Recounted) (P := fun _ _ => True) (fun _ => id) ?_ ⟨rfl, rfl⟩
    (Lib.along_of_forall (fun _ _ => trivial))
  intro s call next before _ ran
  cases ran
  cases call with
  | setPointer pointer => exact before.set pointer
  | removePointer errorSignatureId => exact before.remove errorSignatureId

end HindsightPointerState

theorem pointers_recounted_iff (calls : List SummaryPointerCall) (hindsight : List HindsightPointerCall) :
    (Throughout SummaryPointerState.step SummaryPointerState.Recounted {} calls ↔
      Along SummaryPointerState.step SummaryPointerState.KeepsFlag {} calls) ∧
    Throughout HindsightPointerState.step HindsightPointerState.Recounted {} hindsight := by
  refine ⟨?_, HindsightPointerState.throughout_recounted hindsight⟩
  apply Lib.throughout_iff (J := SummaryPointerState.Recounted) id ?_ ?_ ⟨rfl, rfl⟩ Lib.run_total
  · intro s call next before kept ran
    cases ran
    exact (SummaryPointerState.recounted_after before call).2.mpr kept
  · intro s call next before ran exact
    cases ran
    exact (SummaryPointerState.recounted_after before call).2.mp exact

def sentencePointer : SummaryPointer := ⟨"a", .team, .sentence, "h1", "s1", 50, 0, false, false, none⟩

theorem stale_overwritten : ¬ Throughout SummaryPointerState.step SummaryPointerState.Recounted {}
    [.setPointer sentencePointer, .markStale "a" .sentence,
      .setPointer { sentencePointer with contentHash := "h2" }] := by
  intro exact
  have last := exact _ [] _ (append_nil _).symm rfl
  have counted : 1 = 0 := last.stale
  cases counted

end Aeterna.Sync
