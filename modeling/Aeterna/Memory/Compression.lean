import Aeterna.Memory.Feedback
import Mathlib.Data.List.Dedup
import Mathlib.Data.List.Flatten

namespace Aeterna.Memory
open Lib (Table)
open List

variable {Score : Type}

def inherited (id : String) (now : Int) (source : String) (event : MemoryTrajectoryEvent Score) :
    MemoryTrajectoryEvent Score where
  operation := .noop
  entryId := id
  reward := event.reward
  reasoning := some ("Inherited reward from source memory " ++ source)
  timestamp := now

def rewarded (trajectories : Trajectories Score) (id : String) : List (MemoryTrajectoryEvent Score) :=
  ((trajectories.get id).getD []).filter (fun event => event.reward.isSome)

/-- The rewarded events of the listed memories, each once, under the name of the memory that has it. -/
def attributedEvents (trajectories : Trajectories Score) (entries : List (LayerEntry Score)) (id : String) (now : Int) :
    List (MemoryTrajectoryEvent Score) :=
  (entries.map (·.id)).dedup.flatMap (fun source => (rewarded trajectories source).map (inherited id now source))

def hasHistory (trajectories : Trajectories Score) (entry : LayerEntry Score) : Bool :=
  (trajectories.get entry.id).isSome

/-- A memory with rewards has the name at the place that its history is counted to. -/
def InPlace (trajectories : Trajectories Score) (entries : List (LayerEntry Score)) : Prop :=
  ∀ earlier entry later, entries = earlier ++ entry :: later → rewarded trajectories entry.id ≠ [] →
    (entries[earlier.countP (hasHistory trajectories)]?).map (·.id) = some entry.id

/-- No memory with rewards is listed twice. -/
def ListedOnce (trajectories : Trajectories Score) (entries : List (LayerEntry Score)) : Prop :=
  ∀ id, 2 ≤ (entries.map (·.id)).count id → rewarded trajectories id = []

section
variable {trajectories : Trajectories Score} {id : String} {now : Int} {names : Nat → String}

theorem inherited_inj {first second : String} {event : MemoryTrajectoryEvent Score}
    (same : inherited id now first event = inherited id now second event) : first = second := by
  have texts := Option.some.inj (congrArg MemoryTrajectoryEvent.reasoning same)
  exact (String.append_right_inj _).mp texts

theorem map_inherited_iff {first second : String} {events : List (MemoryTrajectoryEvent Score)} :
    events.map (inherited id now first) = events.map (inherited id now second) ↔ (events ≠ [] → first = second) := by
  cases events with
  | nil => simp
  | cons event rest =>
    constructor
    · intro same _
      exact inherited_inj (List.cons.inj same).1
    · intro same
      rw [same (cons_ne_nil _ _)]

theorem splits_cons {α : Type} {P : List α → α → Prop} {a : α} {rest : List α} :
    (∀ earlier entry later, a :: rest = earlier ++ entry :: later → P earlier entry) ↔
      P [] a ∧ ∀ earlier entry later, rest = earlier ++ entry :: later → P (a :: earlier) entry := by
  constructor
  · intro all
    refine ⟨all [] a rest rfl, fun earlier entry later split => all (a :: earlier) entry later ?_⟩
    rw [split, cons_append]
  · rintro ⟨first, others⟩ earlier entry later split
    cases earlier with
    | nil =>
      cases split
      exact first
    | cons head tail =>
      cases split
      exact others tail entry later rfl

theorem numbered_iff (trajectories : Trajectories Score) (id : String) (now : Int) (names : Nat → String)
    (entries : List (LayerEntry Score)) (start : Nat) :
    ((entries.filterMap (fun entry => trajectories.get entry.id)).zipIdx start).flatMap (fun numbered =>
        (numbered.1.filter (fun event => event.reward.isSome)).map (inherited id now (names numbered.2))) =
      entries.flatMap (fun entry => (rewarded trajectories entry.id).map (inherited id now entry.id)) ↔
    ∀ earlier entry later, entries = earlier ++ entry :: later → rewarded trajectories entry.id ≠ [] →
      names (start + earlier.countP (hasHistory trajectories)) = entry.id := by
  induction entries generalizing start with
  | nil => simp
  | cons entry rest ih =>
    rw [splits_cons, flatMap_cons]
    cases held : trajectories.get entry.id with
    | none =>
      have nothing : rewarded trajectories entry.id = [] := by rw [rewarded, held]; rfl
      have absent : hasHistory trajectories entry = false := by rw [hasHistory, held]; rfl
      simp only [filterMap_cons, held]
      rw [nothing, map_nil, nil_append, ih start]
      simp [absent]
    | some history =>
      have events : rewarded trajectories entry.id = history.filter (fun event => event.reward.isSome) := by
        rw [rewarded, held]
        rfl
      have present : hasHistory trajectories entry = true := by rw [hasHistory, held]; rfl
      simp only [filterMap_cons, held]
      rw [zipIdx_cons, flatMap_cons]
      dsimp only
      rw [← events, append_eq_append_iff_of_size_eq_left (by simp), map_inherited_iff, ih (start + 1)]
      simp only [countP_nil, Nat.add_zero, countP_cons, present, if_true, Nat.add_assoc, Nat.add_comm 1]

theorem numbered_length (trajectories : Trajectories Score) (id : String) (now : Int) (names : Nat → String)
    (entries : List (LayerEntry Score)) (start : Nat) :
    (((entries.filterMap (fun entry => trajectories.get entry.id)).zipIdx start).flatMap (fun numbered =>
        (numbered.1.filter (fun event => event.reward.isSome)).map (inherited id now (names numbered.2)))).length =
      (entries.flatMap (fun entry => (rewarded trajectories entry.id).map (inherited id now entry.id))).length := by
  induction entries generalizing start with
  | nil => rfl
  | cons entry rest ih =>
    rw [flatMap_cons, length_append, length_map]
    cases held : trajectories.get entry.id with
    | none =>
      have nothing : rewarded trajectories entry.id = [] := by rw [rewarded, held]; rfl
      simp only [filterMap_cons, held]
      rw [ih, nothing, length_nil, Nat.zero_add]
    | some history =>
      have events : rewarded trajectories entry.id = history.filter (fun event => event.reward.isSome) := by
        rw [rewarded, held]
        rfl
      simp only [filterMap_cons, held, zipIdx_cons, flatMap_cons, length_append]
      rw [ih, events, length_map]

theorem dedup_sublist {α β : Type} [DecidableEq α] (f : α → List β) (listed : List α) :
    (listed.dedup.flatMap f).Sublist (listed.flatMap f) := (List.dedup_sublist listed).flatMap f

theorem dedup_flatMap_iff {α β : Type} [DecidableEq α] (f : α → List β) (listed : List α) :
    listed.dedup.flatMap f = listed.flatMap f ↔ ∀ a, 2 ≤ listed.count a → f a = [] := by
  induction listed with
  | nil => simp
  | cons a rest ih =>
    by_cases again : a ∈ rest
    · rw [dedup_cons_of_mem again, flatMap_cons]
      constructor
      · intro same
        have fewer := (dedup_sublist f rest).length_le
        have lengths := congrArg length same
        rw [length_append] at lengths
        have nothing : f a = [] := eq_nil_of_length_eq_zero (by omega)
        rw [nothing, nil_append] at same
        intro b often
        by_cases own : b = a
        · rw [own, nothing]
        · rw [count_cons_of_ne (Ne.symm own)] at often
          exact ih.mp same b often
      · intro none
        have twice : 2 ≤ (a :: rest).count a := by
          have once := count_pos_iff.mpr again
          rw [count_cons_self]
          omega
        rw [none a twice, nil_append]
        exact ih.mpr (fun b often => none b (often.trans count_le_count_cons))
    · rw [dedup_cons_of_notMem again, flatMap_cons, flatMap_cons, append_right_inj, ih]
      constructor
      · intro none b often
        by_cases own : b = a
        · rw [own, count_cons_self, count_eq_zero.mpr again] at often
          omega
        · rw [count_cons_of_ne (Ne.symm own)] at often
          exact none b often
      · exact fun none b often => none b (often.trans count_le_count_cons)

variable {entries : List (LayerEntry Score)}

theorem inheritedEvents_eq : inheritedEvents trajectories entries id now =
    (entries.filterMap (fun entry => trajectories.get entry.id)).zipIdx.flatMap (fun numbered =>
      (numbered.1.filter (fun event => event.reward.isSome)).map
        (inherited id now (((entries[numbered.2]?).map (·.id)).getD ""))) := rfl

theorem length_inheritedEvents : (inheritedEvents trajectories entries id now).length =
    (entries.flatMap (fun entry => (rewarded trajectories entry.id).map (inherited id now entry.id))).length := by
  rw [inheritedEvents_eq]
  exact numbered_length trajectories id now (fun n => ((entries[n]?).map LayerEntry.id).getD "") entries 0

theorem inPlace_iff : InPlace trajectories entries ↔
    ∀ earlier entry later, entries = earlier ++ entry :: later → rewarded trajectories entry.id ≠ [] →
      ((entries[0 + earlier.countP (hasHistory trajectories)]?).map (·.id)).getD "" = entry.id := by
  unfold InPlace
  apply forall₄_congr
  intro earlier entry later split
  apply imp_congr_right
  intro _
  have bound : 0 + earlier.countP (hasHistory trajectories) < entries.length := by
    have fewer := countP_le_length (p := hasHistory trajectories) (l := earlier)
    rw [split, length_append, length_cons]
    omega
  rw [Nat.zero_add] at bound ⊢
  rw [getElem?_eq_getElem bound]
  simp

theorem inheritedEvents_attributed_iff :
    inheritedEvents trajectories entries id now = attributedEvents trajectories entries id now ↔
      InPlace trajectories entries ∧ ListedOnce trajectories entries := by
  have plain : (entries.map (·.id)).flatMap (fun source => (rewarded trajectories source).map (inherited id now source)) =
      entries.flatMap (fun entry => (rewarded trajectories entry.id).map (inherited id now entry.id)) :=
    flatMap_map ..
  have named := numbered_iff trajectories id now (fun n => ((entries[n]?).map (·.id)).getD "") entries 0
  rw [← inPlace_iff, ← inheritedEvents_eq] at named
  have once := dedup_flatMap_iff (fun source => (rewarded trajectories source).map (inherited id now source))
    (entries.map (·.id))
  simp only [map_eq_nil_iff] at once
  have shorter := dedup_sublist (fun source => (rewarded trajectories source).map (inherited id now source))
    (entries.map (·.id))
  unfold attributedEvents
  rw [← named]
  constructor
  · intro same
    have all := shorter.eq_of_length (by rw [← same, length_inheritedEvents, plain])
    exact ⟨same.trans (all.trans plain), once.mp all⟩
  · rintro ⟨same, single⟩
    rw [same, once.mpr single, plain]

variable {memories : MemoryKey → Prop} {setup : ManagerSetup Score memories} {w left : ManagerWorld Score}
  {entry : LayerEntry Score}

theorem compress_events (ran : compress setup entries w = (.ok entry, left))
    (fresh : w.trajectories.get entry.id = none) : (left.trajectories.get entry.id).getD [] =
      inheritedEvents w.trajectories entries entry.id (setup.clock w.turn) := by
  unfold compress at ran
  cases entries with
  | nil => cases ran
  | cons first rest =>
    dsimp only at ran
    split at ran
    · cases ran
    · cases ran
      dsimp only at fresh ⊢
      split
      · rename_i empty
        rw [fresh, List.isEmpty_iff.mp empty]
        rfl
      · rw [Table.get_put, if_pos rfl]
        rfl

theorem compress_attributes_iff (ran : compress setup entries w = (.ok entry, left))
    (fresh : w.trajectories.get entry.id = none) :
    (left.trajectories.get entry.id).getD [] = attributedEvents w.trajectories entries entry.id (setup.clock w.turn) ↔
      InPlace w.trajectories entries ∧ ListedOnce w.trajectories entries := by
  rw [compress_events ran fresh]
  exact inheritedEvents_attributed_iff

def listedMemory (id : String) : LayerEntry Int := { id, content := "stuff", layer := .user }

def rewardedWorld : ManagerWorld Int where
  store := Table.empty
  trajectories := Table.empty.upsert "b"
    [⟨.noop, "b", some { rewardType := .helpful, score := 500 }, none, 0⟩] (fun events => events)

theorem compress_attributes_sample :
    ((compress feedbackSetup [listedMemory "b"] rewardedWorld).2.trajectories.get "compressed_u").getD [] =
      attributedEvents rewardedWorld.trajectories [listedMemory "b"] "compressed_u" 0 := by
  have ran : ∃ entry left, compress feedbackSetup [listedMemory "b"] rewardedWorld = (.ok entry, left) ∧
      entry.id = "compressed_u" := ⟨_, _, rfl, rfl⟩
  obtain ⟨entry, left, ran, named⟩ := ran
  have fresh : rewardedWorld.trajectories.get entry.id = none := by
    rw [named]
    decide +kernel
  have stored := (compress_attributes_iff ran fresh).mpr
  rw [named] at stored
  rw [ran]
  apply stored
  constructor
  · intro earlier other later split _
    cases earlier with
    | nil =>
      cases split
      rfl
    | cons head tail =>
      have lengths := congrArg length split
      simp at lengths
  · intro id often
    have few := count_le_length (a := id) (l := [listedMemory "b"].map (·.id))
    exact absurd (often.trans few) (by decide)

theorem reward_misattributed : ¬
    ((compress feedbackSetup [listedMemory "a", listedMemory "b"] rewardedWorld).2.trajectories.get
      "compressed_u").getD [] =
      attributedEvents rewardedWorld.trajectories [listedMemory "a", listedMemory "b"] "compressed_u" 0 := by
  intro same
  have texts := congrArg (map MemoryTrajectoryEvent.reasoning) same
  revert texts
  decide +kernel

end

end Aeterna.Memory
