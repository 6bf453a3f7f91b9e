import Mathlib.Data.List.Basic

/-!
A row that is written once and may be marked as deleted, never unmarked.
-/

namespace Aeterna.Lib
open List

structure Marked (α : Type) where
  row : α
  deleted : Bool := false
  deriving DecidableEq

def Marked.live {α : Type} : Option (Marked α) → Option α
  | some ⟨row, false⟩ => some row
  | _ => none

namespace Marked
variable {E α : Type} (puts : E → Option α) (kills : E → α → Bool)

def step : Option (Marked α) → E → Option (Marked α)
  | none, e => (puts e).map (fun row => ⟨row, false⟩)
  | some m, e => some ⟨m.row, m.deleted || kills e m.row⟩

def run (cell : Option (Marked α)) (events : List E) : Option (Marked α) := events.foldl (step puts kills) cell

def Quiet (events : List E) : Prop := ∀ e ∈ events, puts e = none

variable {puts kills}

theorem run_append (cell : Option (Marked α)) (first second : List E) :
    run puts kills cell (first ++ second) = run puts kills (run puts kills cell first) second :=
  foldl_append

theorem run_some (row : α) (deleted : Bool) (events : List E) :
    run puts kills (some ⟨row, deleted⟩) events = some ⟨row, deleted || events.any (fun e => kills e row)⟩ := by
  induction events generalizing deleted with
  | nil => simp [run]
  | cons e rest ih =>
    show run puts kills (some ⟨row, deleted || kills e row⟩) rest = _
    rw [ih, any_cons, Bool.or_assoc]

theorem run_quiet {events : List E} (quiet : Quiet puts events) : run puts kills none events = none := by
  induction events with
  | nil => rfl
  | cons e rest ih =>
    have first := quiet e mem_cons_self
    show run puts kills ((puts e).map _) rest = none
    rw [first]
    exact ih (fun other member => quiet other (mem_cons_of_mem _ member))

theorem run_put {before after : List E} {a : E} {row : α} (quiet : Quiet puts before) (put : puts a = some row) :
    run puts kills none (before ++ a :: after) = some ⟨row, after.any (fun e => kills e row)⟩ := by
  rw [run_append, run_quiet quiet]
  show run puts kills ((puts a).map _) after = _
  rw [put]
  exact (run_some row false after).trans (by rw [Bool.false_or])

theorem quiet_or_put (puts : E → Option α) (events : List E) :
    Quiet puts events ∨ ∃ before a after row, events = before ++ a :: after ∧ Quiet puts before ∧
      puts a = some row := by
  induction events with
  | nil => exact .inl (fun _ member => absurd member not_mem_nil)
  | cons e rest ih =>
    cases put : puts e with
    | some row => exact .inr ⟨[], e, rest, row, rfl, fun _ member => absurd member not_mem_nil, put⟩
    | none =>
      rcases ih with quiet | ⟨before, a, after, row, rfl, quiet, later⟩
      · refine .inl (fun other member => ?_)
        rcases mem_cons.mp member with rfl | inside
        · exact put
        · exact quiet other inside
      · refine .inr ⟨e :: before, a, after, row, rfl, fun other member => ?_, later⟩
        rcases mem_cons.mp member with rfl | inside
        · exact put
        · exact quiet other inside

theorem put_unique {p q p' q' : List E} {a a' : E} {row row' : α} (same : p ++ a :: q = p' ++ a' :: q')
    (quiet : Quiet puts p) (put : puts a = some row) (quiet' : Quiet puts p') (put' : puts a' = some row') :
    p = p' ∧ a = a' ∧ q = q' := by
  induction p generalizing p' with
  | nil =>
    cases p' with
    | nil =>
      simp only [nil_append, List.cons.injEq] at same
      exact ⟨rfl, same.1, same.2⟩
    | cons e rest =>
      simp only [nil_append, cons_append, List.cons.injEq] at same
      rw [same.1, quiet' e mem_cons_self] at put
      cases put
  | cons e rest ih =>
    cases p' with
    | nil =>
      simp only [nil_append, cons_append, List.cons.injEq] at same
      rw [← same.1, quiet e mem_cons_self] at put'
      cases put'
    | cons e' rest' =>
      simp only [cons_append, List.cons.injEq] at same
      obtain ⟨rfl, same⟩ := same
      obtain ⟨rfl, equal⟩ := ih same (fun other member => quiet other (mem_cons_of_mem _ member))
        (fun other member => quiet' other (mem_cons_of_mem _ member))
      exact ⟨rfl, equal⟩

def Replayable (puts : E → Option α) (kills : E → α → Bool) (first middle rest : List E) : Prop :=
  ∀ before a after row, middle = before ++ a :: after → Quiet puts (first ++ before) → puts a = some row →
    (∃ d ∈ before, kills d row = true) → ∃ d ∈ after ++ rest, kills d row = true

theorem replay_present (m : Marked α) (middle rest : List E) :
    run puts kills (some m) (middle ++ (middle ++ rest)) = run puts kills (some m) (middle ++ rest) := by
  obtain ⟨row, deleted⟩ := m
  rw [run_some, run_some]
  congr 2
  simp only [any_append]
  cases middle.any fun e => kills e row <;> simp

theorem live_eq_iff (row : α) (d d' : Bool) : live (some ⟨row, d⟩) = live (some ⟨row, d'⟩) ↔ d = d' := by
  cases d <;> cases d' <;> simp [live]

section
variable (apart : ∀ e row other, puts e = some row → kills e other = false)
include apart

theorem live_twice_iff {first before after rest : List E} {a : E} {row : α} (quiet : Quiet puts (first ++ before))
    (put : puts a = some row) :
    live (run puts kills none (first ++ (before ++ a :: after) ++ (before ++ a :: after ++ rest))) =
        live (run puts kills none (first ++ (before ++ a :: after) ++ rest)) ↔
      ((∃ d ∈ before, kills d row = true) → ∃ d ∈ after ++ rest, kills d row = true) := by
  have twice : first ++ (before ++ a :: after) ++ (before ++ a :: after ++ rest) =
      (first ++ before) ++ a :: (after ++ before ++ a :: (after ++ rest)) := by simp
  have once : first ++ (before ++ a :: after) ++ rest = (first ++ before) ++ a :: (after ++ rest) := by simp
  have spared : kills a row = false := apart a row row put
  rw [twice, once, run_put quiet put, run_put quiet put, live_eq_iff, ← any_eq_true, ← any_eq_true]
  simp only [any_append, any_cons, spared, Bool.false_or]
  cases before.any (fun e => kills e row) <;> cases after.any (fun e => kills e row) <;>
    cases rest.any (fun e => kills e row) <;> simp

theorem replay_live (cell : Option (Marked α)) (first middle rest : List E) :
    live (run puts kills cell (first ++ middle ++ (middle ++ rest))) =
        live (run puts kills cell (first ++ middle ++ rest)) ↔
      (cell = none → Replayable puts kills first middle rest) := by
  have present : ∀ m, run puts kills cell first = some m →
      live (run puts kills cell (first ++ middle ++ (middle ++ rest))) =
      live (run puts kills cell (first ++ middle ++ rest)) := by
    intro m there
    rw [append_assoc, append_assoc, run_append, run_append cell first, there, replay_present]
  cases cell with
  | some m =>
    obtain ⟨row, deleted⟩ := m
    exact iff_of_true (present _ (run_some row deleted first)) (fun absent => by cases absent)
  | none =>
    simp only [forall_const]
    rcases quiet_or_put puts first with quiet | ⟨before, a, after, row, rfl, quiet, put⟩
    · rcases quiet_or_put puts middle with calm | ⟨before, a, after, row, rfl, calm, put⟩
      · refine iff_of_true ?_ (fun before a after row split _ put _ => ?_)
        · have nothing : run puts kills none (first ++ middle) = none := by
            rw [run_append, run_quiet quiet, run_quiet calm]
          rw [run_append, run_append none (first ++ middle), nothing, run_append none middle, run_quiet calm]
        · rw [calm a (by rw [split]; simp)] at put
          cases put
      · have silent : Quiet puts (first ++ before) := by
          intro e member
          rcases mem_append.mp member with early | late
          · exact quiet e early
          · exact calm e late
        rw [live_twice_iff apart silent put]
        constructor
        · intro covered before' a' after' row' split silent' put'
          have calm' : Quiet puts before' := fun e member => silent' e (mem_append_right _ member)
          obtain ⟨rfl, rfl, rfl⟩ := put_unique split calm put calm' put'
          obtain rfl : row = row' := Option.some.inj (put.symm.trans put')
          exact covered
        · intro replayable
          exact replayable before a after row rfl silent put
    · refine iff_of_true (present _ (run_put quiet put)) (fun start e after' row' _ silent _ _ => ?_)
      have blank := silent a (by simp)
      rw [put] at blank
      cases blank

end

end Marked

end Aeterna.Lib
