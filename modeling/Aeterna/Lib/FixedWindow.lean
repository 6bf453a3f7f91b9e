import Mathlib

/-!
A counter over windows of one length. It starts over when it is used after its window has passed.
Against the log of all that was counted, it holds the sum since the window's start.
-/

namespace Aeterna.Lib

structure FixedWindow where
  (used start : Nat)

namespace FixedWindow

def reading (length now : Nat) (w : FixedWindow) : Nat := if length ≤ now - w.start then 0 else w.used

def roll (length now : Nat) (w : FixedWindow) : FixedWindow := if length ≤ now - w.start then ⟨0, now⟩ else w

def add (length now amount : Nat) (w : FixedWindow) : FixedWindow :=
  if length ≤ now - w.start then ⟨amount, now⟩ else { w with used := w.used + amount }

def spentSince (start : Nat) (log : List (Nat × Nat)) : Nat :=
  ((log.filter (fun e => start ≤ e.1)).map Prod.snd).sum

theorem spentSince_concat {start now : Nat} (begun : start ≤ now) (log : List (Nat × Nat)) (amount : Nat) :
    spentSince start (log ++ [(now, amount)]) = spentSince start log + amount := by
  simp [spentSince, List.filter_append, begun]

theorem spentSince_later {start : Nat} {log : List (Nat × Nat)} (past : ∀ e ∈ log, e.1 < start) :
    spentSince start log = 0 := by
  have empty : log.filter (fun e => start ≤ e.1) = [] := by
    refine List.filter_eq_nil_iff.mpr (fun e member => ?_)
    have before := past e member
    simp only [decide_eq_true_eq]
    omega
  rw [spentSince, empty]
  rfl

structure Counts (length : Nat) (w : FixedWindow) (log : List (Nat × Nat)) (now : Nat) : Prop where
  started : w.start ≤ now
  within : ∀ e ∈ log, e.1 < w.start + length
  spent : spentSince w.start log = w.used

section
variable {length read now limit amount : Nat} {w : FixedWindow} {log : List (Nat × Nat)}

theorem Counts.fresh (length now : Nat) : Counts length ⟨0, now⟩ [] now :=
  ⟨Nat.le_refl now, fun _ member => absurd member List.not_mem_nil, rfl⟩

theorem Counts.later (counts : w.Counts length log read) (order : read ≤ now) : w.Counts length log now :=
  ⟨Nat.le_trans counts.started order, counts.within, counts.spent⟩

theorem Counts.roll (counts : w.Counts length log now) : (w.roll length now).Counts length log now := by
  obtain ⟨started, within, spent⟩ := counts
  unfold FixedWindow.roll
  split
  · rename_i expired
    have past : ∀ e ∈ log, e.1 < now := by
      intro e member
      have bound := within e member
      omega
    refine ⟨Nat.le_refl now, fun e member => ?_, spentSince_later past⟩
    exact Nat.lt_of_lt_of_le (past e member) (Nat.le_add_right now length)
  · exact ⟨started, within, spent⟩

theorem Counts.add (positive : 0 < length) (counts : w.Counts length log now) (amount : Nat) :
    (w.add length now amount).Counts length (log ++ [(now, amount)]) now := by
  obtain ⟨started, within, spent⟩ := counts
  unfold FixedWindow.add
  split
  · rename_i expired
    have past : ∀ e ∈ log, e.1 < now := by
      intro e member
      have bound := within e member
      omega
    refine ⟨Nat.le_refl now, fun e member => ?_, ?_⟩
    · rcases List.mem_append.mp member with old | new
      · have before := past e old
        show e.1 < now + length
        omega
      · obtain rfl := List.mem_singleton.mp new
        show now < now + length
        omega
    · rw [spentSince_concat (Nat.le_refl now), spentSince_later past, Nat.zero_add]
  · rename_i running
    refine ⟨started, fun e member => ?_, ?_⟩
    · rcases List.mem_append.mp member with old | new
      · exact within e old
      · obtain rfl := List.mem_singleton.mp new
        show now < w.start + length
        omega
    · show spentSince w.start (log ++ [(now, amount)]) = w.used + amount
      rw [spentSince_concat started, spent]

theorem reading_le (length now : Nat) (w : FixedWindow) : w.reading length now ≤ w.used := by
  unfold reading
  split
  · exact Nat.zero_le _
  · exact Nat.le_refl _

theorem add_le (bounded : w.used ≤ limit) (order : read ≤ now) (fits : amount ≤ limit - w.reading length read) :
    (w.add length now amount).used ≤ limit := by
  unfold add
  split
  · show amount ≤ limit
    omega
  · rename_i running
    have counted : w.reading length read = w.used := if_neg (by omega)
    rw [counted] at fits
    show w.used + amount ≤ limit
    omega

theorem roll_le (bounded : w.used ≤ limit) : (w.roll length now).used ≤ limit := by
  unfold roll
  split
  · exact Nat.zero_le _
  · exact bounded

theorem reading_roll (order : read ≤ now) : (w.roll length read).reading length now = w.reading length now := by
  unfold roll
  split
  · have past : w.reading length now = 0 := if_pos (by omega)
    rw [past]
    exact Nat.le_zero.mp (reading_le length now ⟨0, read⟩)
  · rfl

end

end FixedWindow

end Aeterna.Lib
