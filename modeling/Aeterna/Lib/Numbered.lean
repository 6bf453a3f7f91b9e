import Mathlib.Data.List.Nodup

/-!
A table whose rows are numbered as they come (`AUTOINCREMENT`): no number is given out twice.
-/

namespace Aeterna.Lib
open List

structure NumberedRows (α : Type) where
  rows : List (Nat × α) := []
  next : Nat := 0
  increasing : rows.Pairwise (fun a b => a.1 < b.1) := by exact List.Pairwise.nil
  below : ∀ e ∈ rows, e.1 < next := by exact fun _ member => absurd member List.not_mem_nil

namespace NumberedRows
variable {α : Type}

def push (a : α) (t : NumberedRows α) : NumberedRows α where
  rows := t.rows ++ [(t.next, a)]
  next := t.next + 1
  increasing := by
    refine pairwise_append.mpr ⟨t.increasing, pairwise_singleton _ _, ?_⟩
    intro e member other single
    rw [mem_singleton.mp single]
    exact t.below e member
  below := by
    intro e member
    rcases mem_append.mp member with old | new
    · exact Nat.lt_succ_of_lt (t.below e old)
    · rw [mem_singleton.mp new]
      exact Nat.lt_succ_self _

/-- `DELETE` of the rows that are not to be kept. -/
def keepOnly (p : Nat → α → Bool) (t : NumberedRows α) : NumberedRows α where
  rows := t.rows.filter (fun e => p e.1 e.2)
  next := t.next
  increasing := t.increasing.sublist filter_sublist
  below := fun e member => t.below e (mem_of_mem_filter member)

def get (n : Nat) (t : NumberedRows α) : Option α := (t.rows.find? (fun e => e.1 = n)).map Prod.snd

variable {t : NumberedRows α} {a b : α} {n : Nat} {p : Nat → α → Bool}

theorem mem_push {e : Nat × α} : e ∈ (t.push a).rows ↔ e ∈ t.rows ∨ e = (t.next, a) := by
  simp [push]

theorem mem_keepOnly {e : Nat × α} : e ∈ (t.keepOnly p).rows ↔ e ∈ t.rows ∧ p e.1 e.2 = true :=
  mem_filter

theorem row_unique (first : (n, a) ∈ t.rows) (second : (n, b) ∈ t.rows) : a = b := by
  have unique : (t.rows.map Prod.fst).Nodup := pairwise_map.mpr (t.increasing.imp Nat.ne_of_lt)
  exact congrArg Prod.snd (inj_on_of_nodup_map unique first second rfl)

theorem get_eq_some : t.get n = some a ↔ (n, a) ∈ t.rows := by
  constructor
  · intro found
    obtain ⟨⟨m, row⟩, first, rfl⟩ := Option.map_eq_some_iff.mp found
    have same : m = n := by simpa using find?_some first
    subst same
    exact mem_of_find?_eq_some first
  · intro member
    cases found : t.rows.find? (fun e => e.1 = n) with
    | none =>
      have missing := find?_eq_none.mp found _ member
      simp at missing
    | some e =>
      have same : e.1 = n := by simpa using find?_some found
      have inside : (n, e.2) ∈ t.rows := same ▸ mem_of_find?_eq_some found
      rw [get, found, row_unique member inside]
      rfl

theorem get_next : t.get t.next = none := by
  cases found : t.get t.next with
  | none => rfl
  | some a => exact absurd (t.below _ (get_eq_some.mp found)) (Nat.lt_irrefl _)

theorem get_push_of_ne (apart : n ≠ t.next) : (t.push a).get n = t.get n := by
  have other : t.next ≠ n := Ne.symm apart
  simp [get, push, find?_append, other]

theorem get_keepOnly (found : (t.keepOnly p).get n = some a) : t.get n = some a :=
  get_eq_some.mpr (mem_keepOnly.mp (get_eq_some.mp found)).1

theorem get_push : (t.push a).get t.next = some a :=
  get_eq_some.mpr (mem_push.mpr (Or.inr rfl))

structure Later (t t' : NumberedRows α) : Prop where
  next : t.next ≤ t'.next
  rows : ∀ e ∈ t'.rows, e ∈ t.rows ∨ t.next ≤ e.1

theorem later_refl : t.Later t := ⟨Nat.le_refl _, fun _ member => Or.inl member⟩

theorem later_push : t.Later (t.push a) := by
  refine ⟨Nat.le_succ _, fun e member => ?_⟩
  rcases mem_push.mp member with old | rfl
  · exact Or.inl old
  · exact Or.inr (Nat.le_refl _)

end NumberedRows

end Aeterna.Lib
