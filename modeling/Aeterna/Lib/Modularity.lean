import Mathlib.Algebra.BigOperators.Group.Finset.Sigma
import Mathlib.Algebra.BigOperators.Ring.Finset
import Mathlib.Algebra.Field.Rat
import Mathlib.Tactic.Ring

/-!
The modularity of a partition of the nodes of a weighted graph, and what the move of a node and the union of
two classes add to it.
-/

namespace Aeterna.Lib
open Finset Function
variable {V L : Type} [Fintype V] [DecidableEq L]

def agreement (weight : V → V → ℚ) (c : V → L) : ℚ := ∑ i, ∑ j, if c i = c j then weight i j else 0

def towards (weight : V → V → ℚ) (c : V → L) (v : V) (l : L) : ℚ := ∑ j, if c j = l then weight v j else 0

/-- What a class has to another. -/
def between (weight : V → V → ℚ) (c : V → L) (a b : L) : ℚ := ∑ i, if c i = a then towards weight c i b else 0

variable {weight : V → V → ℚ}

theorem agreement_union (symmetric : ∀ i j, weight i j = weight j i) (c : V → L) {a b : L} (apart : a ≠ b) :
    agreement weight (fun i => if c i = b then a else c i) = agreement weight c + 2 * between weight c a b := by
  have pair : ∀ i j, (if (if c i = b then a else c i) = (if c j = b then a else c j) then weight i j else 0) =
      (if c i = c j then weight i j else 0) + ((if c i = a then (if c j = b then weight i j else 0) else 0) +
        (if c j = a then (if c i = b then weight j i else 0) else 0)) := by
    intro i j
    rw [symmetric j i]
    by_cases left : c i = b
    · by_cases right : c j = b
      · simp [left, right, apart.symm]
      · have differ : b ≠ c j := fun same => right same.symm
        simp [left, right, differ, apart.symm, eq_comm]
    · by_cases right : c j = b
      · simp [left, right, apart.symm]
      · simp [left, right]
  have swap : (∑ i, ∑ j, if c j = a then (if c i = b then weight j i else 0) else 0) = ∑ i, ∑ j,
      if c i = a then (if c j = b then weight i j else 0) else 0 :=
    sum_comm
  have gathered : ∀ i, (if c i = a then (∑ j, if c j = b then weight i j else 0) else 0) = ∑ j,
      if c i = a then (if c j = b then weight i j else 0) else 0 := by
    intro i
    split
    · rfl
    · rw [sum_const_zero]
  unfold agreement between towards
  simp only [pair, sum_add_distrib, gathered]
  rw [swap]
  ring

variable [DecidableEq V]

theorem sum_apart (f : V → ℚ) (v : V) : ∑ i, f i = f v + ∑ i ∈ univ.erase v, f i :=
  (add_sum_erase _ f (mem_univ v)).symm

theorem agreement_apart (symmetric : ∀ i j, weight i j = weight j i) (c : V → L) (v : V) :
    agreement weight c = weight v v + 2 * (∑ j ∈ univ.erase v, if c v = c j then weight v j else 0) +
      ∑ i ∈ univ.erase v, ∑ j ∈ univ.erase v, if c i = c j then weight i j else 0 := by
  have column : ∑ i ∈ univ.erase v, (if c i = c v then weight i v else 0) = ∑ j ∈ univ.erase v,
      if c v = c j then weight v j else 0 := by
    refine sum_congr rfl (fun i _ => ?_)
    rw [symmetric i v]
    exact if_congr eq_comm rfl rfl
  unfold agreement
  rw [sum_apart _ v, sum_apart _ v, if_pos rfl]
  simp only [sum_apart (fun j => if c _ = c j then weight _ j else 0) v]
  rw [sum_add_distrib, column]
  ring

theorem towards_apart (c : V → L) (v : V) (l : L) :
    towards weight c v l = (if c v = l then weight v v else 0) + ∑ j ∈ univ.erase v, if c j = l then weight v j
      else 0 := by
  unfold towards
  rw [sum_apart _ v]

theorem agreement_update (symmetric : ∀ i j, weight i j = weight j i) (c : V → L) (v : V) {l : L} (apart : c v ≠ l) :
    agreement weight (update c v l) = agreement weight c +
      2 * (towards weight c v l - towards weight c v (c v) + weight v v) := by
  have rest : ∀ i ∈ univ.erase v, update c v l i = c i :=
    fun i member => update_of_ne (ne_of_mem_erase member) _ _
  have inner : ∑ i ∈ univ.erase v,
      (∑ j ∈ univ.erase v, if update c v l i = update c v l j then weight i j else 0) =
      ∑ i ∈ univ.erase v, ∑ j ∈ univ.erase v, if c i = c j then weight i j else 0 := by
    refine sum_congr rfl (fun i left => sum_congr rfl (fun j right => ?_))
    rw [rest i left, rest j right]
  have row : ∑ j ∈ univ.erase v,
      (if update c v l v = update c v l j then weight v j else 0) =
      ∑ j ∈ univ.erase v, if c j = l then weight v j else 0 := by
    refine sum_congr rfl (fun j right => ?_)
    rw [rest j right, update_self]
    exact if_congr eq_comm rfl rfl
  have old : ∑ j ∈ univ.erase v, (if c v = c j then weight v j else 0) = ∑ j ∈ univ.erase v,
      if c j = c v then weight v j else 0 :=
    sum_congr rfl (fun j _ => if_congr eq_comm rfl rfl)
  rw [agreement_apart symmetric _ v, agreement_apart symmetric c v, inner, row, old, towards_apart c v l,
    towards_apart c v (c v), if_neg apart, if_pos rfl]
  ring

end Aeterna.Lib
