import Aeterna.Lib.Runs
import Aeterna.Lib.Table
import Mathlib.Data.Finset.Basic

namespace Aeterna.Graph
open Lib (Table Along Throughout)
open List hiding set

structure VectorPointer (F : Type) where
  vectorId : String
  position : UInt32
  weight : F

structure SummaryPointers (F : Type) where
  summaryId : String
  level : UInt32
  pointers : List (VectorPointer F)

structure PositionalIndex (F : Type) where
  summaryToVectors : Table String (SummaryPointers F) := {}
  vectorToSummaries : Table String (Finset String) := {}

variable {F : Type}

namespace PositionalIndex

def registerWeighted (summaryId : String) (level : UInt32) (weightedMembers : List (String × F))
    (index : PositionalIndex F) :
    PositionalIndex F :=
  let pointers := weightedMembers.zipIdx.map (fun e => { vectorId := e.1.1, position := .ofNat e.2, weight := e.1.2 })
  let entry : SummaryPointers F := { summaryId, level, pointers }
  { vectorToSummaries := weightedMembers.foldl (fun t e => t.upsert e.1 {summaryId} (insert summaryId)) index.vectorToSummaries
    summaryToVectors := index.summaryToVectors.upsert summaryId entry (fun _ => entry) }

def registerSummary [One F] (summaryId : String) (level : UInt32) (memberNodeIds : List String) : PositionalIndex F →
    PositionalIndex F :=
  registerWeighted summaryId level (memberNodeIds.map (fun nodeId => (nodeId, 1)))

def getVectorsForSummary (summaryId : String) (index : PositionalIndex F) : Option (SummaryPointers F) :=
  index.summaryToVectors.get summaryId

def getSummariesForVector (vectorId : String) (index : PositionalIndex F) : Finset String :=
  (index.vectorToSummaries.get vectorId).getD ∅

def unlist (summaryId vectorId : String) (t : Table String (Finset String)) : Table String (Finset String) :=
  match t.get vectorId with
  | none => t
  | some set =>
    if set.erase summaryId = ∅ then t.keepOnly (fun other _ => other ≠ vectorId)
    else t.update (fun other set => if other = vectorId then set.erase summaryId else set)

def removeSummary (summaryId : String) (index : PositionalIndex F) : Bool × PositionalIndex F :=
  match index.summaryToVectors.get summaryId with
  | none => (false, index)
  | some entry =>
    (true, { vectorToSummaries := entry.pointers.foldl (fun t p => unlist summaryId p.vectorId t) index.vectorToSummaries
             summaryToVectors := index.summaryToVectors.keepOnly (fun other _ => other ≠ summaryId) })

def removeVector (vectorId : String) (index : PositionalIndex F) : Finset String × PositionalIndex F :=
  let affectedSummaries := index.getSummariesForVector vectorId
  let retain := fun summaryId (entry : SummaryPointers F) =>
    if summaryId ∈ affectedSummaries then { entry with pointers := entry.pointers.filter (fun p => p.vectorId ≠ vectorId) } else entry
  (affectedSummaries,
    { vectorToSummaries := index.vectorToSummaries.keepOnly (fun other _ => other ≠ vectorId)
      summaryToVectors := index.summaryToVectors.update retain })

def pointed (summaryId : String) (index : PositionalIndex F) : List String :=
  ((index.getVectorsForSummary summaryId).map (fun entry => entry.pointers.map VectorPointer.vectorId)).getD []

end PositionalIndex

inductive IndexCall (F : Type) where
  | registerSummary (summaryId : String) (level : UInt32) (memberNodeIds : List String)
  | registerWeighted (summaryId : String) (level : UInt32) (weightedMembers : List (String × F))
  | removeSummary (summaryId : String)
  | removeVector (vectorId : String)

def IndexCall.registers : IndexCall F → Option (String × List String)
  | registerSummary summaryId _ memberNodeIds => some (summaryId, memberNodeIds)
  | registerWeighted summaryId _ weightedMembers => some (summaryId, weightedMembers.map Prod.fst)
  | _ => none

structure IndexWorld (F : Type) where
  index : PositionalIndex F := {}
  removedSummaries : Finset String := ∅
  removedVectors : Finset String := ∅

def indexStep [One F] (w : IndexWorld F) (call : IndexCall F) : IndexWorld F :=
  match call with
  | .registerSummary summaryId level memberNodeIds =>
    { index := w.index.registerSummary summaryId level memberNodeIds
      removedSummaries := w.removedSummaries.erase summaryId
      removedVectors := w.removedVectors \ memberNodeIds.toFinset }
  | .registerWeighted summaryId level weightedMembers =>
    { index := w.index.registerWeighted summaryId level weightedMembers
      removedSummaries := w.removedSummaries.erase summaryId
      removedVectors := w.removedVectors \ (weightedMembers.map Prod.fst).toFinset }
  | .removeSummary summaryId =>
    { w with index := (w.index.removeSummary summaryId).2, removedSummaries := insert summaryId w.removedSummaries }
  | .removeVector vectorId =>
    { w with index := (w.index.removeVector vectorId).2, removedVectors := insert vectorId w.removedVectors }

/-- Both maps say the same, and neither speaks of what was removed. -/
structure IndexWorld.Consistent (w : IndexWorld F) : Prop where
  listed : ∀ summaryId vectorId, summaryId ∈ w.index.getSummariesForVector vectorId ↔
    vectorId ∈ w.index.pointed summaryId
  noSummary : ∀ summaryId ∈ w.removedSummaries, w.index.getVectorsForSummary summaryId = none ∧
    ∀ vectorId, summaryId ∉ w.index.getSummariesForVector vectorId
  noVector : ∀ vectorId ∈ w.removedVectors, w.index.vectorToSummaries.get vectorId = none ∧
    ∀ summaryId, vectorId ∉ w.index.pointed summaryId

def KeepsMembers (w : IndexWorld F) (call : IndexCall F) : Prop :=
  ∀ summaryId members, call.registers = some (summaryId, members) → ∀ vectorId ∈ w.index.pointed summaryId,
    vectorId ∈ members

namespace PositionalIndex

theorem get_dropped {ρ : Type} (t : Table String ρ) (key other : String) :
    (t.keepOnly (fun other _ => other ≠ key)).get other = if other = key then none else t.get other := by
  rw [Table.get_keepOnly]
  by_cases same : other = key
  · simp [same]
  · cases t.get other <;> simp [same]

section
variable (summaryId : String) (t : Table String (Finset String))

theorem mem_unlist (vectorId other s : String) : s ∈ ((unlist summaryId vectorId t).get other).getD ∅ ↔
    s ∈ (t.get other).getD ∅ ∧ ¬ (s = summaryId ∧ other = vectorId) := by
  unfold unlist
  cases found : t.get vectorId with
  | none =>
    dsimp only
    refine (and_iff_left_of_imp ?_).symm
    rintro member ⟨rfl, rfl⟩
    rw [found] at member
    exact absurd member (Finset.notMem_empty _)
  | some set =>
    dsimp only
    by_cases same : other = vectorId
    · subst same
      split
      · rename_i empty
        rw [get_dropped, if_pos rfl]
        rw [found]
        refine iff_of_false (by simp) (fun both => ?_)
        have left : s ∈ set.erase summaryId := Finset.mem_erase.mpr ⟨fun same => both.2 ⟨same, rfl⟩, both.1⟩
        rw [empty] at left
        exact absurd left (Finset.notMem_empty _)
      · rw [Table.get_update, found]
        simp [and_comm]
    · split
      · rw [get_dropped, if_neg same]
        simp [same]
      · rw [Table.get_update]
        cases t.get other <;> simp [same]

variable {other : String}

theorem unlist_none (vectorId : String) (absent : t.get other = none) :
    (unlist summaryId vectorId t).get other = none := by
  unfold unlist
  split
  · exact absent
  · split
    · rw [get_dropped, absent, ite_self]
    · rw [Table.get_update, absent]
      rfl

theorem mem_unlistAll (pointers : List (VectorPointer F)) (other s : String) :
    s ∈ ((pointers.foldl (fun t p => unlist summaryId p.vectorId t) t).get other).getD ∅ ↔
      s ∈ (t.get other).getD ∅ ∧ ¬ (s = summaryId ∧ other ∈ pointers.map VectorPointer.vectorId) := by
  induction pointers generalizing t with
  | nil => simp
  | cons p rest ih =>
    rw [foldl_cons, ih, mem_unlist, map_cons, mem_cons]
    tauto

theorem unlistAll_none (pointers : List (VectorPointer F)) (absent : t.get other = none) :
    (pointers.foldl (fun t p => unlist summaryId p.vectorId t) t).get other = none := by
  induction pointers generalizing t with
  | nil => exact absent
  | cons p rest ih => exact ih _ (unlist_none summaryId t p.vectorId absent)

theorem get_listAll_other (members : List (String × F)) (apart : other ∉ members.map Prod.fst) :
    (members.foldl (fun t e => t.upsert e.1 {summaryId} (insert summaryId)) t).get other = t.get other := by
  induction members generalizing t with
  | nil => rfl
  | cons e rest ih =>
    rw [map_cons, mem_cons, not_or] at apart
    rw [foldl_cons, ih _ apart.2, Table.get_upsert, if_neg apart.1]

theorem mem_listAll (members : List (String × F)) (other s : String) :
    s ∈ ((members.foldl (fun t e => t.upsert e.1 {summaryId} (insert summaryId)) t).get other).getD ∅ ↔
      s ∈ (t.get other).getD ∅ ∨ s = summaryId ∧ other ∈ members.map Prod.fst := by
  induction members generalizing t with
  | nil => simp
  | cons e rest ih =>
    rw [foldl_cons, ih, Table.get_upsert, map_cons, mem_cons]
    by_cases same : other = e.1
    · subst same
      rw [if_pos rfl]
      cases t.get e.1 <;> simp <;> tauto
    · simp [same]

end

section
variable (index : PositionalIndex F) (summaryId vectorId s v : String)

theorem pointed_registerWeighted (level : UInt32) (members : List (String × F)) :
    (index.registerWeighted summaryId level members).pointed s =
      if s = summaryId then members.map Prod.fst else index.pointed s := by
  unfold pointed getVectorsForSummary registerWeighted
  dsimp only
  rw [Table.get_upsert]
  by_cases same : s = summaryId
  · rw [if_pos same, if_pos same]
    have ids : ((members.zipIdx.map (fun e =>
        ({ vectorId := e.1.1, position := .ofNat e.2, weight := e.1.2 } : VectorPointer F))).map
        VectorPointer.vectorId) = members.map Prod.fst := by
      conv_rhs => rw [← zipIdx_map_fst 0 members, map_map]
      rw [map_map]
      rfl
    cases index.summaryToVectors.get summaryId <;> exact ids
  · rw [if_neg same, if_neg same]

theorem pointed_removeSummary : (index.removeSummary summaryId).2.pointed s = if s = summaryId then []
    else index.pointed s := by
  unfold removeSummary
  split
  · rename_i absent
    split
    · rename_i same
      simp [pointed, getVectorsForSummary, same, absent]
    · rfl
  · unfold pointed getVectorsForSummary
    dsimp only
    rw [get_dropped]
    by_cases same : s = summaryId
    · rw [if_pos same, if_pos same]
      rfl
    · rw [if_neg same, if_neg same]

theorem mem_pointed_removeVector (consistent : s ∈ index.getSummariesForVector vectorId ↔
    vectorId ∈ index.pointed s) :
    v ∈ (index.removeVector vectorId).2.pointed s ↔ v ∈ index.pointed s ∧ v ≠ vectorId := by
  unfold pointed getVectorsForSummary removeVector at *
  dsimp only at *
  rw [Table.get_update]
  cases found : index.summaryToVectors.get s with
  | none => simp
  | some entry =>
    rw [found] at consistent
    simp only [Option.map_some, Option.getD_some] at consistent ⊢
    split
    · rw [mem_map, mem_map]
      constructor
      · rintro ⟨p, member, rfl⟩
        obtain ⟨inside, apart⟩ := mem_filter.mp member
        exact ⟨⟨p, inside, rfl⟩, of_decide_eq_true apart⟩
      · rintro ⟨⟨p, inside, rfl⟩, apart⟩
        exact ⟨p, mem_filter.mpr ⟨inside, decide_eq_true apart⟩, rfl⟩
    · rename_i unaffected
      refine (and_iff_left_of_imp ?_).symm
      rintro member rfl
      exact unaffected (consistent.mpr member)

end

end PositionalIndex

open PositionalIndex

section
variable [One F] {w : IndexWorld F}

theorem registered_step (summaryId : String) (level : UInt32) (members : List (String × F))
    (consistent : w.Consistent) :
    (indexStep w (.registerWeighted summaryId level members)).Consistent ↔
      ∀ vectorId ∈ w.index.pointed summaryId, vectorId ∈ members.map Prod.fst := by
  have lists : ∀ s v, s ∈ (w.index.registerWeighted summaryId level members).getSummariesForVector v ↔
      s ∈ w.index.getSummariesForVector v ∨ s = summaryId ∧ v ∈ members.map Prod.fst := by
    intro s v
    exact mem_listAll summaryId w.index.vectorToSummaries members v s
  have points : ∀ s, (w.index.registerWeighted summaryId level members).pointed s =
      if s = summaryId then members.map Prod.fst else w.index.pointed s :=
        fun s => pointed_registerWeighted w.index summaryId s level members
  constructor
  · intro after vectorId pointed
    have stays := (lists summaryId vectorId).mpr (.inl ((consistent.listed summaryId vectorId).mpr pointed))
    have kept := (after.listed summaryId vectorId).mp stays
    have kept : vectorId ∈ (w.index.registerWeighted summaryId level members).pointed summaryId := kept
    rw [points, if_pos rfl] at kept
    exact kept
  · intro keeps
    constructor
    · intro s v
      show s ∈ (w.index.registerWeighted summaryId level members).getSummariesForVector v ↔
        v ∈ (w.index.registerWeighted summaryId level members).pointed s
      rw [lists, points, consistent.listed]
      by_cases same : s = summaryId
      · subst same
        rw [if_pos rfl]
        exact ⟨fun either => either.elim (keeps v) And.right, fun member => .inr ⟨rfl, member⟩⟩
      · simp [same]
    · intro s removed
      obtain ⟨apart, before⟩ := Finset.mem_erase.mp removed
      obtain ⟨absent, unlisted⟩ := consistent.noSummary s before
      refine ⟨?_, fun v listed => ?_⟩
      · show (w.index.registerWeighted summaryId level members).getVectorsForSummary s = none
        unfold getVectorsForSummary registerWeighted
        dsimp only
        rw [Table.get_upsert, if_neg apart]
        exact absent
      · rcases (lists s v).mp listed with old | ⟨same, _⟩
        · exact unlisted v old
        · exact apart same
    · intro v removed
      obtain ⟨before, apart⟩ := Finset.mem_sdiff.mp removed
      have apart : v ∉ members.map Prod.fst := fun member => apart (mem_toFinset.mpr member)
      obtain ⟨absent, unpointed⟩ := consistent.noVector v before
      refine ⟨(get_listAll_other summaryId w.index.vectorToSummaries members apart).trans absent, fun s pointed => ?_⟩
      have pointed : v ∈ (w.index.registerWeighted summaryId level members).pointed s := pointed
      rw [points] at pointed
      split at pointed
      · exact apart pointed
      · exact unpointed s pointed

theorem removedSummary_step (summaryId : String) (consistent : w.Consistent) :
    (indexStep w (.removeSummary summaryId)).Consistent := by
  have points := pointed_removeSummary w.index summaryId
  have lists : ∀ s v, s ∈ (w.index.removeSummary summaryId).2.getSummariesForVector v ↔
      s ∈ w.index.getSummariesForVector v ∧ s ≠ summaryId := by
    intro s v
    have unpointed := consistent.listed summaryId v
    unfold removeSummary
    split
    · rename_i absent
      rw [pointed, getVectorsForSummary, absent] at unpointed
      refine (and_iff_left_of_imp ?_).symm
      rintro listed rfl
      exact absurd (unpointed.mp listed) not_mem_nil
    · rename_i entry found
      have pointers : w.index.pointed summaryId = entry.pointers.map VectorPointer.vectorId := by
        rw [pointed, getVectorsForSummary, found]
        rfl
      rw [pointers] at unpointed
      refine (mem_unlistAll summaryId w.index.vectorToSummaries entry.pointers v s).trans ?_
      refine and_congr_right (fun listed => ⟨fun kept same => kept ⟨same, ?_⟩, fun apart gone => apart gone.1⟩)
      subst same
      exact unpointed.mp listed
  constructor
  · intro s v
    show s ∈ (w.index.removeSummary summaryId).2.getSummariesForVector v ↔
      v ∈ (w.index.removeSummary summaryId).2.pointed s
    rw [lists, points, consistent.listed]
    by_cases same : s = summaryId <;> simp [same]
  · intro s removed
    have gone : s = summaryId ∨ s ∈ w.removedSummaries := Finset.mem_insert.mp removed
    refine ⟨?_, fun v listed => ?_⟩
    · show (w.index.removeSummary summaryId).2.getVectorsForSummary s = none
      unfold removeSummary getVectorsForSummary
      split
      · rename_i absent
        rcases gone with rfl | before
        · exact absent
        · exact (consistent.noSummary s before).1
      · dsimp only
        rw [get_dropped]
        rcases gone with rfl | before
        · exact if_pos rfl
        · have absent : w.index.summaryToVectors.get s = none := (consistent.noSummary s before).1
          rw [absent, ite_self]
    · obtain ⟨before, apart⟩ := (lists s v).mp listed
      rcases gone with same | removed
      · exact apart same
      · exact (consistent.noSummary s removed).2 v before
  · intro v removed
    obtain ⟨absent, unpointed⟩ := consistent.noVector v removed
    refine ⟨?_, fun s pointed => ?_⟩
    · show (w.index.removeSummary summaryId).2.vectorToSummaries.get v = none
      unfold removeSummary
      split
      · exact absent
      · exact unlistAll_none summaryId _ _ absent
    · have pointed : v ∈ (w.index.removeSummary summaryId).2.pointed s := pointed
      rw [points] at pointed
      split at pointed
      · exact absurd pointed not_mem_nil
      · exact unpointed s pointed

theorem removedVector_step (vectorId : String) (consistent : w.Consistent) :
    (indexStep w (.removeVector vectorId)).Consistent := by
  have points : ∀ s v, v ∈ (w.index.removeVector vectorId).2.pointed s ↔ v ∈ w.index.pointed s ∧ v ≠ vectorId :=
    fun s v => mem_pointed_removeVector w.index vectorId s v (consistent.listed s vectorId)
  have buckets : ∀ v, (w.index.removeVector vectorId).2.vectorToSummaries.get v =
      if v = vectorId then none else w.index.vectorToSummaries.get v :=
    get_dropped w.index.vectorToSummaries vectorId
  have lists : ∀ s v, s ∈ (w.index.removeVector vectorId).2.getSummariesForVector v ↔
      s ∈ w.index.getSummariesForVector v ∧ v ≠ vectorId := by
    intro s v
    unfold getSummariesForVector
    rw [buckets]
    by_cases same : v = vectorId <;> simp [same]
  constructor
  · intro s v
    exact (lists s v).trans ((and_congr_left' (consistent.listed s v)).trans (points s v).symm)
  · intro s removed
    obtain ⟨absent, unlisted⟩ := consistent.noSummary s removed
    refine ⟨?_, fun v listed => unlisted v ((lists s v).mp listed).1⟩
    show (w.index.removeVector vectorId).2.summaryToVectors.get s = none
    unfold removeVector
    dsimp only
    rw [Table.get_update]
    exact Option.map_eq_none_iff.mpr absent
  · intro v removed
    have gone : v = vectorId ∨ v ∈ w.removedVectors := Finset.mem_insert.mp removed
    refine ⟨?_, fun s pointed => ?_⟩
    · have bucket := buckets v
      refine bucket.trans ?_
      rcases gone with same | before
      · exact if_pos same
      · rw [(consistent.noVector v before).1, ite_self]
    · obtain ⟨before, apart⟩ := (points s v).mp pointed
      rcases gone with same | removed
      · exact apart same
      · exact (consistent.noVector v removed).2 s before

theorem indexStep_iff (call : IndexCall F) (consistent : w.Consistent) : (indexStep w call).Consistent ↔
    KeepsMembers w call := by
  unfold KeepsMembers
  cases call with
  | registerWeighted summaryId level members =>
    rw [registered_step summaryId level members consistent]
    simp [IndexCall.registers]
  | registerSummary summaryId level members =>
    have same : indexStep w (.registerSummary summaryId level members) =
        indexStep w (.registerWeighted summaryId level (members.map (fun nodeId => (nodeId, 1)))) := by
      simp [indexStep, registerSummary, Function.comp_def]
    rw [same, registered_step summaryId level _ consistent]
    simp [IndexCall.registers, Function.comp_def]
  | removeSummary summaryId =>
    exact iff_of_true (removedSummary_step summaryId consistent)
      (fun _ _ made => nomatch made)
  | removeVector vectorId => exact iff_of_true (removedVector_step vectorId consistent) (fun _ _ made => nomatch made)

end

/-- Along a run of calls on a new index both maps say the same exactly if no summary is registered again
without one of its vectors. -/
theorem index_consistent_iff [One F] (calls : List (IndexCall F)) :
    Throughout (fun w call => some (indexStep w call)) IndexWorld.Consistent {} calls ↔
      Along (fun w call => some (indexStep w call)) KeepsMembers {} calls := by
  have start : IndexWorld.Consistent ({} : IndexWorld F) := by
    constructor
    · intro s v
      exact iff_of_false (Finset.notMem_empty s) not_mem_nil
    · exact fun s absent => absurd absent (Finset.notMem_empty s)
    · exact fun v absent => absurd absent (Finset.notMem_empty v)
  refine Lib.throughout_iff (J := IndexWorld.Consistent) id ?_ ?_ start Lib.run_total
  · intro w call next consistent keeps made
    cases made
    exact (indexStep_iff call consistent).mpr keeps
  · intro w call next consistent made after
    cases made
    exact (indexStep_iff call consistent).mp after

def registeredAgain : List (IndexCall Nat) :=
  [.registerSummary "s1" 0 ["vec_001"], .registerSummary "s1" 0 ["vec_002"]]

theorem registeredAgain_inconsistent :
    ¬ Throughout (fun w call => some (indexStep w call)) IndexWorld.Consistent {} registeredAgain := by
  intro held
  have consistent := held registeredAgain [] _ (append_nil _).symm Lib.run_total
  exact absurd ((consistent.listed "s1" "vec_001").mp (by decide)) (by decide)

end Aeterna.Graph
