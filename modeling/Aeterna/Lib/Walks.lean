import Mathlib.Order.WellFounded
import Mathlib.Data.List.Induction

/-!
Walks along the edges of a graph, and recursive queries that extend walks edge by edge.
-/

open List

namespace Aeterna.Lib

section
variable {ε ν : Type} (source target : ε → ν)

def Leads : ν → List ε → ν → Prop
  | a, [], b => a = b
  | a, e :: rest, b => source e = a ∧ Leads (target e) rest b

/-- Some of the edges lead from one node to another, one at least and so many at most. -/
def Within (edges : List ε) (a b : ν) (n : Nat) : Prop :=
  ∃ walk, walk ≠ [] ∧ walk.length ≤ n ∧ (∀ e ∈ walk, e ∈ edges) ∧ Leads source target a walk b

end

section
variable {ε ν : Type} {source target : ε → ν} {a b : ν}

theorem leads_append {p q : List ε} :
    Leads source target a (p ++ q) b ↔ ∃ m, Leads source target a p m ∧ Leads source target m q b := by
  induction p generalizing a with
  | nil => simp [Leads]
  | cons e rest ih =>
    show source e = a ∧ Leads source target (target e) (rest ++ q) b ↔
      ∃ m, (source e = a ∧ Leads source target (target e) rest m) ∧ _
    rw [ih]
    constructor
    · rintro ⟨here, m, first, second⟩
      exact ⟨m, ⟨here, first⟩, second⟩
    · rintro ⟨m, ⟨here, first⟩, second⟩
      exact ⟨here, m, first, second⟩

theorem leads_concat {p : List ε} {e : ε} :
    Leads source target a (p ++ [e]) b ↔ Leads source target a p (source e) ∧ target e = b := by
  rw [leads_append]
  constructor
  · rintro ⟨m, first, rfl, last⟩
    exact ⟨first, last⟩
  · rintro ⟨first, last⟩
    exact ⟨_, first, rfl, last⟩

theorem nodup_of_split {l : List ε} (each : ∀ p x s, l = p ++ x :: s → x ∉ s) : l.Nodup := by
  induction l with
  | nil => exact nodup_nil
  | cons x rest ih =>
    refine nodup_cons.mpr ⟨each [] x rest rfl, ih (fun p y s split => each (x :: p) y s ?_)⟩
    rw [split]
    rfl

theorem Within.shortest {edges : List ε} {n : Nat} (within : Within source target edges a b n) :
    ∃ walk, walk ≠ [] ∧ walk.length ≤ n ∧ (∀ e ∈ walk, e ∈ edges) ∧ Leads source target a walk b ∧ walk.Nodup ∧
      ∀ front rest, walk = front ++ rest → front ≠ [] → rest ≠ [] → ¬ Leads source target a front b := by
  obtain ⟨start, some, short, inside, leads⟩ := within
  obtain ⟨walk, ⟨here, among, reaches⟩, least⟩ := (measure List.length).wf.has_min
    {walk | walk ≠ [] ∧ (∀ e ∈ walk, e ∈ edges) ∧ Leads source target a walk b} ⟨start, some, inside, leads⟩
  have minimal : ∀ other, other ≠ [] → (∀ e ∈ other, e ∈ edges) → Leads source target a other b →
      walk.length ≤ other.length :=
    fun other filled among reaches => Nat.le_of_not_lt (least other ⟨filled, among, reaches⟩)
  refine ⟨walk, here, Nat.le_trans (minimal start some inside leads) short, among, reaches, nodup_of_split ?_, ?_⟩
  · intro p e s split again
    obtain ⟨q, r, rfl⟩ := append_of_mem again
    subst split
    -- without the part between the two visits the walk is shorter
    obtain ⟨m, first, turn, later⟩ := leads_append.mp reaches
    obtain ⟨_, _, _, last⟩ := leads_append.mp later
    have shorter := minimal (p ++ e :: r) (by simp)
        (fun x member => among x (by simp only [mem_append, mem_cons] at member ⊢; tauto))
      (leads_append.mpr ⟨m, first, turn, last⟩)
    simp only [length_append, length_cons] at shorter
    omega
  · rintro front rest rfl filled more early
    have shorter := minimal front filled (fun e member => among e (mem_append_left _ member)) early
    have some := length_pos_iff.mpr more
    rw [length_append] at shorter
    omega

variable {ρ : Type}

/-- `WITH RECURSIVE ... UNION ALL`, in so many rounds: each round puts out the working table and replaces it
by what its rows lead to. -/
def recursive (step : ρ → List ρ) : Nat → List ρ → List ρ
  | 0, _ => []
  | rounds + 1, working => working ++ recursive step rounds (working.flatMap step)

theorem mem_recursive_iff_iterate {step : ρ → List ρ} {r : ρ} (rounds : Nat) (working : List ρ) :
    r ∈ recursive step rounds working ↔ ∃ k < rounds, r ∈ (flatMap step)^[k] working := by
  induction rounds generalizing working with
  | zero => simp [recursive]
  | succ rounds ih =>
    rw [recursive, mem_append, ih]
    constructor
    · rintro (here | ⟨k, below, later⟩)
      · exact ⟨0, Nat.succ_pos _, here⟩
      · exact ⟨k + 1, by omega, later⟩
    · rintro ⟨k, below, here⟩
      cases k with
      | zero => exact .inl here
      | succ k => exact .inr ⟨k, by omega, here⟩

theorem recursive_enough {step : ρ → List ρ} (rank : ρ → Nat) {bound : Nat}
    (rises : ∀ r, ∀ next ∈ step r, rank next = rank r + 1) (stops : ∀ r, bound ≤ rank r → step r = [])
    {k rounds : Nat} {working : List ρ} (ranked : ∀ r ∈ working, rank r = k) (enough : bound < k + rounds)
    (filled : 0 < rounds) (more : Nat) : recursive step (rounds + more) working = recursive step rounds working := by
  induction rounds generalizing k working with
  | zero => omega
  | succ rounds ih =>
    rw [Nat.succ_add, recursive, recursive]
    cases rounds with
    | zero =>
      have last : working.flatMap step = [] := by
        apply flatMap_eq_nil_iff.mpr
        intro r member
        apply stops
        rw [ranked r member]
        omega
      rw [last, recursive]
      have none : ∀ n, recursive step n [] = [] := by
        intro n
        induction n with
        | zero => rfl
        | succ n ih => exact ih
      rw [none]
    | succ rounds =>
      rw [ih (k := k + 1) ?_ (by omega) (by omega)]
      intro r member
      obtain ⟨before, there, here⟩ := mem_flatMap.mp member
      rw [rises before r here, ranked before there]

inductive Grown (edges : List ε) (starts : ε → Bool) (admits : List ε → ε → Bool) : List ε → Prop where
  | single {e : ε} (inside : e ∈ edges) (may : starts e = true) : Grown edges starts admits [e]
  | extend {walk : List ε} {e : ε} (grown : Grown edges starts admits walk) (inside : e ∈ edges)
      (may : admits walk e = true) :
      Grown edges starts admits (walk ++ [e])

variable {edges : List ε} {starts : ε → Bool} {admits : List ε → ε → Bool} {row : List ε → ρ} {step : ρ → List ρ}

variable {walk : List ε}

theorem Grown.filled (grown : Grown edges starts admits walk) : walk ≠ [] := by
  cases grown <;> simp

section
variable (steps : ∀ walk, Grown edges starts admits walk → step (row walk) = (edges.filter (admits walk)).map (fun e => row (walk ++ [e])))
include steps

theorem mem_recursive_from {k : Nat} (some : 1 ≤ k) {working : List ρ}
    (rows : ∀ r, r ∈ working ↔ ∃ walk, Grown edges starts admits walk ∧ walk.length = k ∧ row walk = r)
    (rounds : Nat) (r : ρ) :
    r ∈ recursive step rounds working ↔ ∃ walk, Grown edges starts admits walk ∧ k ≤ walk.length ∧
      walk.length < k + rounds ∧ row walk = r := by
  induction rounds generalizing k working with
  | zero =>
    refine ⟨fun member => absurd member not_mem_nil, ?_⟩
    rintro ⟨walk, _, low, high, _⟩
    omega
  | succ rounds ih =>
    have next : ∀ r, r ∈ working.flatMap step ↔ ∃ walk, Grown edges starts admits walk ∧ walk.length = k + 1 ∧
        row walk = r := by
      intro r
      rw [mem_flatMap]
      constructor
      · rintro ⟨_, member, here⟩
        obtain ⟨walk, grown, length, rfl⟩ := (rows _).mp member
        rw [steps walk grown] at here
        obtain ⟨e, admitted, rfl⟩ := mem_map.mp here
        obtain ⟨inside, may⟩ := mem_filter.mp admitted
        exact ⟨walk ++ [e], grown.extend inside may, by simp [length], rfl⟩
      · rintro ⟨_, grown, length, rfl⟩
        cases grown with
        | single => simp only [length_singleton] at length; omega
        | @extend walk e grown inside may =>
          refine ⟨row walk, (rows _).mpr ⟨walk, grown, by simpa using length, rfl⟩, ?_⟩
          rw [steps walk grown]
          exact mem_map.mpr ⟨e, mem_filter.mpr ⟨inside, may⟩, rfl⟩
    rw [recursive, mem_append, rows, ih (by omega) next]
    constructor
    · rintro (⟨walk, grown, length, same⟩ | ⟨walk, grown, low, high, same⟩)
      · exact ⟨walk, grown, by omega, by omega, same⟩
      · exact ⟨walk, grown, by omega, by omega, same⟩
    · rintro ⟨walk, grown, low, high, same⟩
      by_cases now : walk.length = k
      · exact .inl ⟨walk, grown, now, same⟩
      · exact .inr ⟨walk, grown, by omega, by omega, same⟩

theorem mem_recursive (rounds : Nat) (r : ρ) :
    r ∈ recursive step rounds ((edges.filter starts).map (fun e => row [e])) ↔
      ∃ walk, Grown edges starts admits walk ∧ walk.length ≤ rounds ∧ row walk = r := by
  have first : ∀ r, r ∈ (edges.filter starts).map (fun e => row [e]) ↔ ∃ walk, Grown edges starts admits walk ∧
      walk.length = 1 ∧ row walk = r := by
    intro r
    rw [mem_map]
    constructor
    · rintro ⟨e, member, rfl⟩
      obtain ⟨inside, may⟩ := mem_filter.mp member
      exact ⟨[e], .single inside may, rfl, rfl⟩
    · rintro ⟨_, grown, length, rfl⟩
      cases grown with
      | @single e inside may => exact ⟨e, mem_filter.mpr ⟨inside, may⟩, rfl⟩
      | @extend walk e grown =>
        have filled := length_pos_iff.mpr grown.filled
        rw [length_append, length_singleton] at length
        omega
  rw [mem_recursive_from steps (Nat.le_refl 1) first]
  constructor
  · rintro ⟨walk, grown, _, high, same⟩
    exact ⟨walk, grown, by omega, same⟩
  · rintro ⟨walk, grown, high, same⟩
    have filled := length_pos_iff.mpr grown.filled
    exact ⟨walk, grown, by omega, by omega, same⟩

end

def WithinBy (source target : ε → ν) (passes : List ε → ε → Prop) (edges : List ε) (a b : ν) : Prop :=
  ∃ walk, walk ≠ [] ∧ (∀ e ∈ walk, e ∈ edges) ∧ Leads source target a walk b ∧
    ∀ front e rest, walk = front ++ e :: rest → front ≠ [] → passes front e

theorem leads_last {e : ε} (leads : Leads source target a walk b) (last : walk.getLast? = some e) : target e = b := by
  obtain ⟨front, rfl⟩ := getLast?_eq_some_iff.mp last
  exact (leads_concat.mp leads).2

theorem grown_iff {passes : List ε → ε → Prop} (begins : ∀ e, starts e = true ↔ source e = a)
    (goes : ∀ walk last e, walk.getLast? = some last →
    (admits walk e = true ↔ source e = target last ∧ passes walk e)) :
    Grown edges starts admits walk ↔ walk ≠ [] ∧ (∀ e ∈ walk, e ∈ edges) ∧ (∃ b, Leads source target a walk b) ∧
      ∀ front e rest, walk = front ++ e :: rest → front ≠ [] → passes front e := by
  constructor
  · intro grown
    induction grown with
    | @single e inside may =>
      refine ⟨by simp, by simpa using inside, ⟨target e, (begins e).mp may, rfl⟩,
        fun front other rest split filled => ?_⟩
      obtain ⟨x, others, rfl⟩ := exists_cons_of_ne_nil filled
      simp at split
    | @extend walk e grown inside may ih =>
      obtain ⟨filled, among, ⟨b, leads⟩, each⟩ := ih
      obtain ⟨last, ends⟩ := getLast?_isSome.mpr filled |> Option.isSome_iff_exists.mp
      obtain ⟨joins, lets⟩ := (goes walk last e ends).mp may
      refine ⟨by simp, ?_, ⟨target e, leads_concat.mpr ⟨?_, rfl⟩⟩, fun front other rest split more => ?_⟩
      · exact fun x member => (mem_append.mp member).elim (among x)
          (fun same => mem_singleton.mp same ▸ inside)
      · rw [joins, leads_last leads ends]
        exact leads
      · rcases eq_nil_or_concat rest with rfl | ⟨others, final, rfl⟩
        · obtain ⟨rfl, same⟩ := append_inj' split rfl
          obtain rfl : e = other := List.cons.inj same |>.1
          exact lets
        · have split : walk ++ [e] = (front ++ other :: others) ++ [final] := by simpa using split
          exact each front other others (append_inj' split rfl).1 more
  · rintro ⟨filled, among, ⟨b, leads⟩, each⟩
    induction walk using reverseRecOn generalizing b with
    | nil => exact absurd rfl filled
    | append_singleton walk e ih =>
      have inside := among e (mem_append_right _ (mem_singleton_self _))
      obtain ⟨leads, _⟩ := leads_concat.mp leads
      by_cases empty : walk = []
      · subst empty
        exact .single inside ((begins e).mpr leads.symm)
      · obtain ⟨last, ends⟩ := getLast?_isSome.mpr empty |> Option.isSome_iff_exists.mp
        refine .extend (ih empty (fun x member => among x (mem_append_left _ member))
          (fun front x rest split more => ?_) _ leads) inside ?_
        · exact each front x (rest ++ [e]) (by simp [split]) more
        · exact (goes walk last e ends).mpr ⟨(leads_last leads ends).symm, each walk e [] rfl empty⟩

end

end Aeterna.Lib

/-!
Loops that repeat their body while it asks for another round.
-/

namespace Aeterna.Lib
variable {σ : Type}

/-- `let mut again = true; while again { again = false; body }`, none where the fuel runs out. -/
def repeatWhile (body : σ → σ × Bool) : Nat → σ → Option σ
  | 0, _ => none
  | fuel + 1, s => if (body s).2 then repeatWhile body fuel (body s).1 else some (body s).1

variable {body : σ → σ × Bool}

theorem repeatWhile_more {fuel more : Nat} {s t : σ} (ends : repeatWhile body fuel s = some t)
    (enough : fuel ≤ more) :
    repeatWhile body more s = some t := by
  induction fuel generalizing more s with
  | zero => cases ends
  | succ fuel ih =>
    obtain ⟨rest, rfl⟩ := Nat.exists_eq_add_of_le' (Nat.lt_of_lt_of_le (Nat.succ_pos fuel) enough)
    rw [repeatWhile] at ends ⊢
    split at ends
    · rename_i again
      rw [if_pos again]
      exact ih ends (by omega)
    · rename_i last
      rw [if_neg last]
      exact ends

theorem repeatWhile_keeps (holds : σ → Prop) (keeps : ∀ s, holds s → holds (body s).1) {fuel : Nat} {s t : σ}
    (start : holds s) (ends : repeatWhile body fuel s = some t) : holds t := by
  induction fuel generalizing s with
  | zero => cases ends
  | succ fuel ih =>
    rw [repeatWhile] at ends
    split at ends
    · exact ih (keeps s start) ends
    · cases ends
      exact keeps s start

theorem repeatWhile_ends {below : σ → σ → Prop} (order : WellFounded below)
    (descends : ∀ s, (body s).2 = true → below (body s).1 s) (s : σ) :
    ∃ fuel t, repeatWhile body fuel s = some t := by
  induction s using order.induction with
  | _ s ih =>
    by_cases again : (body s).2 = true
    · obtain ⟨fuel, t, ends⟩ := ih _ (descends s again)
      refine ⟨fuel + 1, t, ?_⟩
      rw [repeatWhile, if_pos again]
      exact ends
    · refine ⟨1, (body s).1, ?_⟩
      rw [repeatWhile, if_neg again]

end Aeterna.Lib
