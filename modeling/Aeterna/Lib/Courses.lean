import Aeterna.Lib.Programs
import Mathlib.Data.Finset.Card

/-!
Rules for courses of programs: what is known all along is known before and after each step, and calls that pay for an
earlier one are counted.
-/

namespace Aeterna.Lib.Pool
open Finset

variable {C : Type} {A : C → Type} {E α S ι : Type} [DecidableEq ι] {exec : (c : C) → S → A c × S}
  {allowed : Pool ι C A E α S → ι → Prop} {drift : S → S → Prop} {start pool : Pool ι C A E α S}

theorem Course.along {J : S → Prop} (course : Course exec allowed drift start pool)
    (along : ∀ pool, Course exec allowed drift start pool → J pool.state) :
    Course exec (fun pool i => allowed pool i ∧ J (pool.step exec i).state)
      (fun s t => drift s t ∧ J t) start pool := by
  induction course with
  | start => exact .start
  | step i before permitted ih => exact .step i ih ⟨permitted, along _ (.step i before permitted)⟩
  | drift before moved ih => exact .drift ih ⟨moved, along _ (.drift before moved)⟩

theorem Course.invariant {J : S → Prop} (course : Course exec allowed drift start pool) (holds : J start.state)
    (step : ∀ (pool : Pool ι C A E α S) i c next, Course exec allowed drift start pool → J pool.state →
      allowed pool i →
      (pool.thread i).program = .call c next → J (exec c pool.state).2)
    (moves : ∀ s t, J s → drift s t → J t) : J pool.state := by
  induction course with
  | start => exact holds
  | @step pool i before permitted ih =>
    cases shape : (pool.thread i).program with
    | call c next =>
      rw [step_call shape]
      exact step pool i c next before ih permitted shape
    | done a =>
      unfold Pool.step
      rw [shape]
      exact ih
    | fail e =>
      unfold Pool.step
      rw [shape]
      exact ih
  | drift _ moved ih => exact moves _ _ ih moved

theorem Course.mono {allowed' : Pool ι C A E α S → ι → Prop} {drift' : S → S → Prop}
    (course : Course exec allowed drift start pool) (steps : ∀ pool i, allowed pool i → allowed' pool i)
    (drifts : ∀ s t, drift s t → drift' s t) : Course exec allowed' drift' start pool := by
  induction course with
  | start => exact .start
  | step i _ permitted ih => exact .step i ih (steps _ _ permitted)
  | drift _ moved ih => exact .drift ih (drifts _ _ moved)

omit [DecidableEq ι] in
theorem meets_watched {β : Type} {inv : S → Prop} {c : C} {f : A c → Program C A E β}
    {post : Except E β → List (Note A) → S → Prop} {notes : List (Note A)} {s : S}
    (each : ∀ answer t, (f answer).Meets (watching exec inv) post (⟨c, answer⟩ :: notes) t) :
    (Program.ask c >>= f).Meets (watching exec inv) post notes s :=
  .asked (fun _ _ _ _ => ⟨trivial, trivial, each _ _⟩)

omit [DecidableEq ι] in
/-- The threads in `Q`, and as much left of what was made as there are of them. -/
def Tallied (Q : Thread C A E α → Prop) (made paid : S → Nat) (pool : Pool ι C A E α S) : Prop :=
  ∃ counted : Finset ι, (∀ i, i ∈ counted ↔ Q (pool.thread i)) ∧ paid pool.state + counted.card ≤ made pool.state

theorem card_erase_add (counted : Finset ι) (i : ι) {q : Prop} [Decidable q] (member : i ∈ counted ↔ q) :
    counted.card = (counted.erase i).card + if q then 1 else 0 := by
  split
  · rename_i holds
    exact (card_erase_add_one (member.mpr holds)).symm
  · rename_i fails
    rw [erase_eq_of_notMem (fun inside => fails (member.mp inside))]
    rfl

theorem Course.tallied (Q : Thread C A E α → Prop) [DecidablePred Q] (made paid : S → Nat)
    (course : Course exec allowed drift start pool) (none : ∀ i, ¬ Q (start.thread i))
    (holds : paid start.state ≤ made start.state)
    (step : ∀ (pool : Pool ι C A E α S) i c next, Course exec allowed drift start pool →
      (pool.thread i).program = .call c next →
      paid (exec c pool.state).2 + made pool.state +
          (if Q ⟨next (exec c pool.state).1, ⟨c, (exec c pool.state).1⟩ :: (pool.thread i).notes⟩ then 1 else 0) ≤
        paid pool.state + made (exec c pool.state).2 + if Q (pool.thread i) then 1 else 0)
    (drifts : ∀ s t, drift s t → paid t = paid s ∧ made t = made s) : pool.Tallied Q made paid := by
  induction course with
  | start =>
    refine ⟨∅, fun i => iff_of_false (notMem_empty i) (none i), ?_⟩
    rw [card_empty]
    exact holds
  | drift _ moved ih =>
    obtain ⟨counted, members, bound⟩ := ih
    obtain ⟨samePaid, sameMade⟩ := drifts _ _ moved
    refine ⟨counted, members, ?_⟩
    dsimp only
    rw [samePaid, sameMade]
    exact bound
  | @step pool i before permitted ih =>
    cases shape : (pool.thread i).program with
    | done a =>
      unfold Pool.step
      rw [shape]
      exact ih
    | fail e =>
      unfold Pool.step
      rw [shape]
      exact ih
    | call c next =>
      obtain ⟨counted, members, bound⟩ := ih
      have card := card_erase_add counted i (members i)
      have acted := step pool i c next before shape
      have absent : i ∉ counted.erase i := notMem_erase i counted
      have others : ∀ j, j ≠ i → (j ∈ counted.erase i ↔ Q (pool.thread j)) := by
        intro j apart
        rw [mem_erase, members j]
        exact and_iff_right apart
      rw [step_call shape]
      generalize now : (⟨next (exec c pool.state).1, ⟨c, (exec c pool.state).1⟩ :: (pool.thread i).notes⟩ :
        Thread C A E α) = thread at acted ⊢
      by_cases inside : Q thread
      · refine ⟨insert i (counted.erase i), fun j => ?_, ?_⟩
        · by_cases same : j = i
          · subst same
            simp only [Function.update_self]
            exact iff_of_true (mem_insert_self _ _) inside
          · simp only [Function.update_of_ne same, mem_insert, same, false_or]
            exact others j same
        · rw [card_insert_of_notMem absent]
          rw [if_pos inside] at acted
          dsimp only
          omega
      · refine ⟨counted.erase i, fun j => ?_, ?_⟩
        · by_cases same : j = i
          · subst same
            simp only [Function.update_self]
            exact iff_of_false absent inside
          · simp only [Function.update_of_ne same]
            exact others j same
        · rw [if_neg inside] at acted
          dsimp only
          omega

end Aeterna.Lib.Pool
