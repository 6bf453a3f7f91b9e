import Mathlib.Data.List.Perm.Basic
import Mathlib.Order.Lattice

/-!
A register that the latest write wins, where a deletion only marks the value that it finds.
-/

namespace Aeterna.Lib
open List

def OneOutcome {σ ε : Type} (step : σ → ε → σ) (s : σ) (entries : List ε) : Prop :=
  ∀ l l' : List ε, l.Perm entries → l'.Perm entries → l.foldl step s = l'.foldl step s

/-- How the writes to a register are read. A write with a `deletion` marks, any other one puts its value. -/
structure Writes (ε V T D : Type) where
  time : ε → T
  deletion : ε → Option D
  value : ε → V

structure Held (V T D : Type) where
  value : V
  time : T
  deleted : Option D

namespace Writes
variable {ε V T D : Type} [LinearOrder T] (w : Writes ε V T D)

def arrive (held : Option (Held V T D)) (e : ε) : Option (Held V T D) :=
  match held with
  | none =>
    match w.deletion e with
    | none => some ⟨w.value e, w.time e, none⟩
    | some _ => none
  | some h =>
    if w.time e < h.time then some h
    else
      match w.deletion e with
      | none => some ⟨w.value e, w.time e, none⟩
      | some d => some ⟨h.value, w.time e, some d⟩

def run (held : Option (Held V T D)) (entries : List ε) : Option (Held V T D) := entries.foldl w.arrive held

def Counts (held : Option (Held V T D)) (e : ε) : Prop := ∀ h ∈ held, h.time ≤ w.time e

/-- If the latest write is a deletion, then no other write would have it mark another value. -/
def Settled (held : Option (Held V T D)) (entries : List ε) : Prop :=
  ∀ last ∈ entries, w.Counts held last → (∀ e ∈ entries, w.time e ≤ w.time last) → w.deletion last ≠ none →
    ∀ e ∈ entries, w.Counts held e → w.deletion e = none → held.map (·.value) = some (w.value e)

variable {w} {held : Option (Held V T D)} {entries l : List ε} {e last : ε} {h : Held V T D}

theorem counts_none : w.Counts none e := by simp [Counts]

theorem arrive_older (older : w.time e < h.time) : w.arrive (some h) e = some h := if_pos older

theorem arrive_value (counts : w.Counts held e) (value : w.deletion e = none) :
    w.arrive held e = some ⟨w.value e, w.time e, none⟩ := by
  cases held with
  | none => simp [arrive, value]
  | some h =>
    have newer : ¬ w.time e < h.time := not_lt.mpr (counts h rfl)
    simp [arrive, value, newer]

theorem arrive_deletion {d : D} (counts : w.Counts (some h) e) (deletion : w.deletion e = some d) :
    w.arrive (some h) e = some ⟨h.value, w.time e, some d⟩ := by
  have newer : ¬ w.time e < h.time := not_lt.mpr (counts h rfl)
  simp [arrive, deletion, newer]

theorem arrive_time (found : w.arrive held e = some h) : held = some h ∨ w.time e = h.time := by
  unfold arrive at found
  split at found
  · split at found
    · cases found
      exact Or.inr rfl
    · cases found
  · split at found
    · exact Or.inl found
    · split at found <;>
      · cases found
        exact Or.inr rfl

theorem run_older (older : ∀ e ∈ l, w.time e < h.time) : w.run (some h) l = some h := by
  induction l with
  | nil => rfl
  | cons e rest ih =>
    obtain ⟨first, others⟩ := forall_mem_cons.mp older
    show w.run (w.arrive (some h) e) rest = _
    rw [arrive_older first]
    exact ih others

theorem run_time (ran : w.run held l = some h) : held = some h ∨ ∃ e ∈ l, w.time e = h.time := by
  induction l generalizing held with
  | nil => exact Or.inl ran
  | cons e rest ih =>
    rcases ih (show w.run (w.arrive held e) rest = some h from ran) with kept | ⟨other, member, same⟩
    · exact (arrive_time kept).imp id (fun same => ⟨e, mem_cons_self, same⟩)
    · exact Or.inr ⟨other, mem_cons_of_mem _ member, same⟩

theorem run_none (deletions : ∀ e ∈ l, w.deletion e ≠ none) : w.run none l = none := by
  induction l with
  | nil => rfl
  | cons e rest ih =>
    obtain ⟨first, others⟩ := forall_mem_cons.mp deletions
    obtain ⟨d, found⟩ := Option.ne_none_iff_exists'.mp first
    have left : w.arrive none e = none := by simp [arrive, found]
    show w.run (w.arrive none e) rest = _
    rw [left]
    exact ih others

theorem run_value (again : ∀ e ∈ l, w.Counts (some h) e → w.deletion e = none → w.value e = h.value) :
    ∃ t d, w.run (some h) l = some ⟨h.value, t, d⟩ := by
  induction l generalizing h with
  | nil => exact ⟨h.time, h.deleted, rfl⟩
  | cons e rest ih =>
    obtain ⟨first, others⟩ := forall_mem_cons.mp again
    by_cases older : w.time e < h.time
    · obtain ⟨t, d, ran⟩ := ih others
      exact ⟨t, d, by show w.run (w.arrive (some h) e) rest = _; rw [arrive_older older, ran]⟩
    · have counts : w.Counts (some h) e := fun other same => by
        cases same
        exact not_lt.mp older
      obtain ⟨d, arrived⟩ : ∃ d, w.arrive (some h) e = some ⟨h.value, w.time e, d⟩ := by
        cases deletion : w.deletion e with
        | none => exact ⟨none, by rw [arrive_value counts deletion, first counts deletion]⟩
        | some d => exact ⟨some d, arrive_deletion counts deletion⟩
      obtain ⟨t, d', ran⟩ := ih (h := ⟨h.value, w.time e, d⟩) (fun other member later => others other member
        (fun h' same => by
          cases same
          exact le_trans (counts h rfl) (later _ rfl)))
      exact ⟨t, d', by show w.run (w.arrive (some h) e) rest = _; rw [arrived, ran]⟩

theorem exists_last (some : l ≠ []) : ∃ last ∈ l, ∀ e ∈ l, w.time e ≤ w.time last := by
  induction l with
  | nil => exact absurd rfl some
  | cons e rest ih =>
    by_cases single : rest = []
    · subst single
      exact ⟨e, mem_cons_self, by simp⟩
    · obtain ⟨last, member, latest⟩ := ih single
      rcases le_total (w.time e) (w.time last) with before | after
      · exact ⟨last, mem_cons_of_mem _ member, forall_mem_cons.mpr ⟨before, latest⟩⟩
      · refine ⟨e, mem_cons_self, forall_mem_cons.mpr ⟨le_refl _, ?_⟩⟩
        exact fun other inside => le_trans (latest other inside) after

theorem exists_fronts (member : last ∈ l) (inside : e ∈ l) (apart : e ≠ last) :
    ∃ rest, (last :: e :: rest).Perm l ∧ (e :: last :: rest).Perm l := by
  obtain ⟨s, t, rfl⟩ := append_of_mem member
  have rest : e ∈ s ++ t := by
    simp only [mem_append, mem_cons] at inside ⊢
    tauto
  obtain ⟨s', t', shape⟩ := append_of_mem rest
  have late : (last :: e :: (s' ++ t')).Perm (s ++ last :: t) := by
    refine Perm.trans (Perm.cons _ ?_) perm_middle.symm
    rw [shape]
    exact perm_middle.symm
  exact ⟨s' ++ t', late, (Perm.swap _ _ _).trans late⟩

theorem run_latest (distinct : l.Pairwise (fun a b => w.time a ≠ w.time b)) (member : last ∈ l)
    (latest : ∀ e ∈ l, w.time e ≤ w.time last) (counts : w.Counts held last) :
    ∃ before, (∀ e ∈ before, e ∈ l) ∧ w.Counts (w.run held before) last ∧
      ∀ h, w.arrive (w.run held before) last = some h → h.time = w.time last → w.run held l = some h := by
  obtain ⟨before, after, rfl⟩ := append_of_mem member
  rw [pairwise_append, pairwise_cons] at distinct
  obtain ⟨-, ⟨apart, -⟩, across⟩ := distinct
  refine ⟨before, fun e inside => mem_append_left _ inside, ?_, ?_⟩
  · intro h found
    rcases run_time found with kept | ⟨e, inside, same⟩
    · exact counts h kept
    · rw [← same]
      exact latest e (mem_append_left _ inside)
  · intro h arrived same
    show (before ++ last :: after).foldl w.arrive held = _
    rw [foldl_append, foldl_cons]
    show w.run (w.arrive (w.run held before) last) after = _
    rw [arrived]
    refine run_older (fun e inside => ?_)
    rw [same]
    exact lt_of_le_of_ne (latest e (by simp [inside])) (fun equal => apart e inside equal.symm)

theorem run_settled (settled : w.Settled held entries)
    (distinct : entries.Pairwise (fun a b => w.time a ≠ w.time b)) :
    ∃ outcome, ∀ l, l.Perm entries → w.run held l = outcome := by
  by_cases any : ∃ e ∈ entries, w.Counts held e
  · obtain ⟨e, inside, counts⟩ := any
    obtain ⟨last, member, latest⟩ := exists_last (w := w) (ne_nil_of_mem inside)
    have lastCounts : w.Counts held last := fun h found => le_trans (counts h found) (latest e inside)
    have decides : ∀ {l}, l.Perm entries → ∃ before, (∀ e ∈ before, e ∈ entries) ∧ w.Counts (w.run held before) last ∧
        ∀ h, w.arrive (w.run held before) last = some h → h.time = w.time last → w.run held l = some h := by
      intro l perm
      obtain ⟨before, within, rest⟩ := run_latest ((perm.pairwise_iff (fun {a b} => Ne.symm)).mpr distinct)
        (perm.mem_iff.mpr member) (fun e inside => latest e (perm.mem_iff.mp inside)) lastCounts
      exact ⟨before, fun e inside => perm.mem_iff.mp (within e inside), rest⟩
    cases deletion : w.deletion last with
    | none =>
      refine ⟨some ⟨w.value last, w.time last, none⟩, fun l perm => ?_⟩
      obtain ⟨before, -, counts, ends⟩ := decides perm
      exact ends _ (arrive_value counts deletion) rfl
    | some d =>
      have again := settled last member lastCounts latest (by simp [deletion])
      cases held with
      | none =>
        refine ⟨none, fun l perm => run_none (fun e inside value => ?_)⟩
        cases again e (perm.mem_iff.mp inside) counts_none value
      | some h =>
        refine ⟨some ⟨h.value, w.time last, some d⟩, fun l perm => ?_⟩
        obtain ⟨before, within, counts, ends⟩ := decides perm
        obtain ⟨t, d', ran⟩ := run_value (w := w) (h := h) (l := before)
          (fun e inside counts value => (Option.some.inj (again e (within e inside) counts value)).symm)
        rw [ran] at counts ends
        exact ends _ (arrive_deletion counts deletion) rfl
  · cases held with
    | none =>
      refine ⟨none, fun l perm => run_none (fun e inside _ => ?_)⟩
      exact any ⟨e, perm.mem_iff.mp inside, counts_none⟩
    | some h =>
      refine ⟨some h, fun l perm => run_older (fun e inside => ?_)⟩
      by_contra newer
      refine any ⟨e, perm.mem_iff.mp inside, fun other same => ?_⟩
      cases same
      exact not_lt.mp newer

theorem settled_of_converges (distinct : entries.Pairwise (fun a b => w.time a ≠ w.time b))
    (converges : OneOutcome w.arrive held entries) : w.Settled held entries := by
  intro last member counts latest deletes e inside counts' value
  obtain ⟨d, deletion⟩ := Option.ne_none_iff_exists'.mp deletes
  have apart : e ≠ last := by
    rintro rfl
    exact deletes value
  obtain ⟨rest, late, early⟩ := exists_fronts member inside apart
  have older : ∀ other ∈ e :: rest, w.time other < w.time last := by
    have symm : ∀ a b, w.time a ≠ w.time b → w.time b ≠ w.time a := fun _ _ => Ne.symm
    have separate := (late.pairwise_iff (fun {a b} => symm a b)).mpr distinct
    intro other within
    refine lt_of_le_of_ne (latest other (late.subset (mem_cons_of_mem _ within))) ?_
    exact fun same => (pairwise_cons.mp separate).1 other within same.symm
  have ended : w.run held _ = w.run held _ := converges _ _ early late
  have first : w.run held (e :: last :: rest) = some ⟨w.value e, w.time last, some d⟩ := by
    show w.run (w.arrive (w.arrive held e) last) rest = _
    rw [arrive_value counts' value, arrive_deletion (fun h same => ?_) deletion]
    · exact run_older (fun other within => older other (mem_cons_of_mem _ within))
    · cases same
      exact le_of_lt (older e mem_cons_self)
  rw [first] at ended
  cases held with
  | none =>
    have lost : w.arrive none last = none := by simp [arrive, deletion]
    have again : w.run none (e :: rest) = some ⟨w.value e, w.time last, some d⟩ := by
      rw [ended]
      show _ = w.run (w.arrive none last) _
      rw [lost]
    rcases run_time again with none | ⟨other, within, same⟩
    · cases none
    · exact absurd same (ne_of_lt (older other within))
  | some h =>
    have marked : w.run (some h) (last :: e :: rest) = some ⟨h.value, w.time last, some d⟩ := by
      show w.run (w.arrive (some h) last) (e :: rest) = _
      rw [arrive_deletion counts deletion]
      exact run_older older
    rw [marked] at ended
    have same := congrArg (Option.map Held.value) ended
    exact same.symm

theorem converges_iff (distinct : entries.Pairwise (fun a b => w.time a ≠ w.time b)) :
    OneOutcome w.arrive held entries ↔ w.Settled held entries := by
  constructor
  · exact settled_of_converges distinct
  · intro settled l l' perm perm'
    obtain ⟨outcome, ends⟩ := run_settled settled distinct
    exact (ends l perm).trans (ends l' perm').symm

def overwrite (w : Writes ε V T D) (held : Option (Held V T D)) (e : ε) : Option (Held V T D) :=
  match w.deletion e with
  | none => some ⟨w.value e, w.time e, none⟩
  | some _ => held

def puts (w : Writes ε V T D) (e : ε) : Bool := (w.deletion e).isNone

omit [LinearOrder T] in
theorem overwrite_eq (e : ε) : w.overwrite held e = if w.puts e then some ⟨w.value e, w.time e, none⟩ else held := by
  unfold overwrite puts
  cases w.deletion e <;> rfl

omit [LinearOrder T] in
theorem foldl_overwrite : l.foldl w.overwrite held = (l.filter w.puts).foldl w.overwrite held := by
  rw [foldl_filter]
  refine congrArg (fun f => l.foldl f held) (funext fun held => funext fun e => ?_)
  rw [overwrite_eq]
  cases w.puts e <;> rfl

omit [LinearOrder T] in
theorem overwrite_converges_iff (distinct : entries.Pairwise (fun a b => w.time a ≠ w.time b)) :
    OneOutcome w.overwrite held entries ↔ (entries.filter w.puts).length ≤ 1 := by
  constructor
  · intro converges
    by_contra several
    obtain ⟨e, e', rest, shape⟩ : ∃ e e' rest, entries.filter w.puts = e :: e' :: rest := by
      match found : entries.filter w.puts with
      | [] => simp [found] at several
      | [e] => simp [found] at several
      | e :: e' :: rest => exact ⟨e, e', rest, rfl⟩
    have found : ∀ other, other = e ∨ other = e' → other ∈ entries ∧ w.puts other = true := by
      intro other either
      have member : other ∈ entries.filter w.puts := by
        rw [shape]
        rcases either with rfl | rfl <;> simp
      exact mem_filter.mp member
    have apart : w.time e ≠ w.time e' := by
      have separate := distinct.sublist (filter_sublist (p := w.puts))
      rw [shape] at separate
      exact (pairwise_cons.mp separate).1 e' mem_cons_self
    have ends : ∀ others last, w.puts last = true →
        (others ++ [last]).foldl w.overwrite held = some ⟨w.value last, w.time last, none⟩ := by
      intro others last own
      rw [foldl_append, foldl_cons, foldl_nil, overwrite_eq, if_pos own]
    obtain ⟨others, first, second⟩ := exists_fronts (found e (Or.inl rfl)).1 (found e' (Or.inr rfl)).1
      (fun same => apart (congrArg w.time same.symm))
    have turned : ∀ a b : ε, (others ++ [b] ++ [a]).Perm (a :: b :: others) := fun a b =>
      (perm_append_singleton a _).trans ((perm_append_singleton b _).cons a)
    have same := converges _ _ ((turned _ _).trans first) ((turned _ _).trans second)
    rw [ends _ e (found e (Or.inl rfl)).2, ends _ e' (found e' (Or.inr rfl)).2] at same
    exact apart (congrArg Held.time (Option.some.inj same))
  · intro single l l' perm perm'
    have same : l.filter w.puts = l'.filter w.puts := by
      have one := (perm.filter w.puts).length_eq
      have both := (perm.trans perm'.symm).filter w.puts
      match found : l.filter w.puts with
      | [] =>
        rw [found] at both
        exact (nil_perm.mp both).symm
      | [e] =>
        rw [found] at both
        exact singleton_perm.mp both
      | e :: e' :: rest =>
        rw [found] at one
        simp only [length_cons] at one
        omega
    rw [foldl_overwrite, same, ← foldl_overwrite]

end Writes

end Aeterna.Lib
