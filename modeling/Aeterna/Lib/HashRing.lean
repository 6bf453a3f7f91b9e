import Mathlib.Data.List.Pairwise
import Mathlib.Order.Lattice

/-!
Points on a ring: the first one at or after a key, and if there is none, the first of all.
-/

namespace Aeterna.Lib
open List

variable {α β : Type} [LinearOrder α] {key a b : α} {nodes more : List (α × β)} {node other : α × β}

def NoLater (key a b : α) : Prop := (key ≤ a ∧ (b < key ∨ a ≤ b)) ∨ (a < key ∧ b < key ∧ a ≤ b)

theorem NoLater.antisymm (there : NoLater key a b) (back : NoLater key b a) : a = b := by
  rcases there with ⟨low, wrapped | le⟩ | ⟨low, high, le⟩
  · rcases back with ⟨other, _⟩ | ⟨_, under, _⟩
    · exact absurd wrapped (not_lt.mpr other)
    · exact absurd under (not_lt.mpr low)
  · rcases back with ⟨_, under | ge⟩ | ⟨under, _, _⟩
    · exact absurd under (not_lt.mpr low)
    · exact le_antisymm le ge
    · exact absurd (low.trans le) (not_le.mpr under)
  · rcases back with ⟨past, _⟩ | ⟨_, _, ge⟩
    · exact absurd high (not_lt.mpr past)
    · exact le_antisymm le ge

def IsSuccessor (key : α) (nodes : List (α × β)) (node : α × β) : Prop :=
  node ∈ nodes ∧ ∀ other ∈ nodes, NoLater key node.1 other.1

theorem isSuccessor_find {first : α × β} (sorted : (first :: nodes).Pairwise (fun a b => a.1 ≤ b.1)) :
    IsSuccessor key (first :: nodes) (((first :: nodes).find? (fun node => node.1 ≥ key)).getD first) := by
  cases found : (first :: nodes).find? (fun node => node.1 ≥ key) with
  | none =>
    have below : ∀ other ∈ first :: nodes, other.1 < key := by
      intro other member
      simpa using find?_eq_none.mp found other member
    refine ⟨mem_cons_self, fun other member => Or.inr ⟨below first mem_cons_self, below other member, ?_⟩⟩
    rcases mem_cons.mp member with rfl | later
    · exact le_refl _
    · exact rel_of_pairwise_cons sorted later
  | some node =>
    obtain ⟨reaches, seen, rest, split, before⟩ := find?_eq_some_iff_append.mp found
    have above : key ≤ node.1 := of_decide_eq_true reaches
    refine ⟨mem_of_find?_eq_some found, fun other member => Or.inl ⟨above, ?_⟩⟩
    rw [split] at member sorted
    rcases mem_append.mp member with early | late
    · exact Or.inl (by simpa using before other early)
    · rcases mem_cons.mp late with rfl | later
      · exact Or.inr (le_refl _)
      · exact Or.inr (rel_of_pairwise_cons (pairwise_append.mp sorted).2.1 later)

theorem IsSuccessor.point (first : IsSuccessor key nodes node) (second : IsSuccessor key nodes other) :
    node.1 = other.1 := (first.2 other second.1).antisymm (second.2 node first.1)

theorem IsSuccessor.among (successor : IsSuccessor key more node) (fewer : nodes ⊆ more) (member : node ∈ nodes) :
    IsSuccessor key nodes node := ⟨member, fun other inside => successor.2 other (fewer inside)⟩

end Aeterna.Lib
