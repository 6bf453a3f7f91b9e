import Mathlib.Logic.Function.Basic
import Mathlib.Order.Lattice

/-!
A record with a version. A client looks at the version, and later overwrites the record under a version of its own
choice; nothing guards the record in between.
-/

namespace Aeterna.Lib
open List

structure Versioned (ι ν : Type) where
  version : ν
  writes : List (ι × ν) := []
  /-- The version that a client last saw, and how many writes there were by then. -/
  seen : ι → ν × Nat

inductive Move (ι ν : Type) where
  | look (i : ι)
  | write (i : ι) (v : ν)

namespace Versioned

section
variable {ι ν : Type}

def rivals (r : Versioned ι ν) (i : ι) : List (ι × ν) := r.writes.drop (r.seen i).2

def next [DecidableEq ι] (r : Versioned ι ν) : Move ι ν → Versioned ι ν
  | .look i => { r with seen := Function.update r.seen i (r.version, r.writes.length) }
  | .write i v => { r with version := v, writes := r.writes ++ [(i, v)] }

variable [LinearOrder ν]

/-- The version is newer than the one the client saw and than all that were written since. -/
def Ahead (r : Versioned ι ν) (i : ι) (v : ν) : Prop := (r.seen i).1 < v ∧ ∀ rival ∈ r.rivals i, rival.2 < v

structure Sound (r : Versioned ι ν) : Prop where
  within : ∀ i, (r.seen i).2 ≤ r.writes.length
  last : ∀ i, r.version = ((r.rivals i).getLast?.map (·.2)).getD (r.seen i).1
  bounded : ∀ w ∈ r.writes, w.2 ≤ r.version
  seen_le : ∀ i, (r.seen i).1 ≤ r.version
  sorted : (r.writes.map (·.2)).Pairwise (· < ·)

variable {r : Versioned ι ν} {i : ι} {v : ν}

theorem sound_start (v : ν) : Sound { version := v, seen := fun _ : ι => (v, 0) } :=
  ⟨fun _ => Nat.zero_le _, fun _ => rfl, fun _ member => absurd member not_mem_nil, fun _ => le_rfl, .nil⟩

theorem Sound.lt_iff (sound : r.Sound) : r.version < v ↔ r.Ahead i v := by
  constructor
  · intro raises
    refine ⟨(sound.seen_le i).trans_lt raises, fun rival member => ?_⟩
    exact (sound.bounded rival (mem_of_mem_drop member)).trans_lt raises
  · rintro ⟨saw, ahead⟩
    rw [sound.last i]
    cases last : (r.rivals i).getLast? with
    | none => exact saw
    | some rival => exact ahead rival (mem_of_getLast? last)

theorem Sound.newest {w : ι × ν} (sound : r.Sound) (top : ∀ last, r.writes.getLast? = some last → last.2 = r.version)
    (member : w ∈ r.writes) (current : w.2 = r.version) : r.writes.getLast? = some w := by
  obtain ⟨last, ends⟩ := Option.ne_none_iff_exists'.mp (mt getLast?_eq_none_iff.mp (ne_nil_of_mem member))
  obtain ⟨before, split⟩ := getLast?_eq_some_iff.mp ends
  have order := sound.sorted
  rw [split] at member order
  rcases mem_append.mp member with earlier | same
  · rw [map_append, pairwise_append] at order
    have below := order.2.2 w.2 (mem_map_of_mem earlier) last.2 (by simp)
    rw [current, top last ends] at below
    exact absurd below (lt_irrefl _)
  · rw [ends, mem_singleton.mp same]

variable [DecidableEq ι]

theorem Sound.look (sound : r.Sound) : (r.next (.look i)).Sound := by
  constructor
  · intro j
    by_cases same : j = i
    · subst same
      simp [next]
    · simpa [next, Function.update_of_ne same] using sound.within j
  · intro j
    by_cases same : j = i
    · subst same
      simp [next, rivals]
    · simpa [next, rivals, Function.update_of_ne same] using sound.last j
  · exact sound.bounded
  · intro j
    by_cases same : j = i
    · subst same
      simp [next]
    · simpa [next, Function.update_of_ne same] using sound.seen_le j
  · exact sound.sorted

theorem Sound.write (sound : r.Sound) (raises : r.version < v) : (r.next (.write i v)).Sound := by
  constructor
  · intro j
    have within := sound.within j
    simp only [next, length_append, length_singleton]
    omega
  · intro j
    have rivals : (r.next (.write i v)).rivals j = r.rivals j ++ [(i, v)] :=
      drop_append_of_le_length (sound.within j)
    rw [rivals, getLast?_concat]
    rfl
  · intro w member
    rcases mem_append.mp member with old | new
    · exact (sound.bounded w old).trans raises.le
    · obtain rfl := mem_singleton.mp new
      exact le_rfl
  · exact fun j => (sound.seen_le j).trans raises.le
  · show ((r.writes ++ [(i, v)]).map (·.2)).Pairwise (· < ·)
    rw [map_append, pairwise_append]
    refine ⟨sound.sorted, pairwise_singleton _ _, fun old member new single => ?_⟩
    obtain ⟨w, inside, rfl⟩ := mem_map.mp member
    obtain rfl := mem_singleton.mp single
    exact (sound.bounded w inside).trans_lt raises

end

end Versioned

end Aeterna.Lib
