import Mathlib.Data.List.Induction
import Mathlib.Logic.Function.Basic

/-!
A cache whose entries live for a while. A visit looks its key up; if nothing fresh is there, it drops
what has expired, makes a value and keeps it. The cache that keeps the visits themselves says which
visit a value comes from, whatever the values are.
-/

namespace Aeterna.Lib
open Function

structure Stamped (V : Type) where
  value : V
  createdAt : Nat

def Stamped.fresh {V : Type} (ttl now : Nat) (entry : Stamped V) : Bool := now - entry.createdAt < ttl

/-- A use of the cache, with the time from the end of the use before to its look-up, from there to the
dropping of old entries, and from there to the keeping of the new one. -/
structure Visit (A : Type) where
  args : A
  (looked swept kept : Nat)

structure TimedCache (K V : Type) where
  entries : K → Option (Stamped V) := fun _ => none
  now : Nat := 0

namespace TimedCache
variable {A K V W : Type} [DecidableEq K]

def find (ttl : Nat) (cache : TimedCache K V) (k : K) : Option V :=
  ((cache.entries k).filter (Stamped.fresh ttl cache.now)).map Stamped.value

def wait (cache : TimedCache K V) (duration : Nat) : TimedCache K V :=
  { cache with now := cache.now + duration }

def sweep (ttl : Nat) (cache : TimedCache K V) : TimedCache K V :=
  { cache with entries := fun k => (cache.entries k).filter (Stamped.fresh ttl cache.now) }

def keep (k : K) (value : V) (cache : TimedCache K V) : TimedCache K V :=
  { cache with entries := update cache.entries k (some ⟨value, cache.now⟩) }

def map (f : V → W) (cache : TimedCache K V) : TimedCache K W where
  entries := fun k => (cache.entries k).map (fun entry => ⟨f entry.value, entry.createdAt⟩)
  now := cache.now

section
variable (ttl : Nat) (key : A → K) (make : Visit A → V)

def visit (cache : TimedCache K V) (v : Visit A) : Option V × TimedCache K V :=
  let asked := cache.wait v.looked
  match asked.find ttl (key v.args) with
  | some value => (some value, asked)
  | none => (none, (((asked.wait v.swept).sweep ttl).wait v.kept).keep (key v.args) (make v))

def after (visits : List (Visit A)) : TimedCache K V :=
  visits.foldl (fun cache v => (cache.visit ttl key make v).2) {}

variable (earlier : List (Visit A)) (f : V → W)

def origin (v : Visit A) : Option (Visit A) :=
  ((after ttl key id earlier).visit ttl key id v).1

theorem visit_found {cache : TimedCache K V} {v : Visit A} {value : V}
    (found : (cache.wait v.looked).find ttl (key v.args) = some value) :
    cache.visit ttl key make v = (some value, cache.wait v.looked) := by
  simp only [visit, found]

theorem visit_missed {cache : TimedCache K V} {v : Visit A}
    (missed : (cache.wait v.looked).find ttl (key v.args) = none) :
    cache.visit ttl key make v =
      (none, ((((cache.wait v.looked).wait v.swept).sweep ttl).wait v.kept).keep (key v.args) (make v)) := by
  simp only [visit, missed]

theorem after_concat (v : Visit A) :
    after ttl key make (earlier ++ [v]) = ((after ttl key make earlier).visit ttl key make v).2 := by
  simp [after]

omit [DecidableEq K] in
theorem map_wait (cache : TimedCache K V) (duration : Nat) :
    (cache.map f).wait duration = (cache.wait duration).map f := rfl

theorem filter_stamped (now : Nat) (stored : Option (Stamped V)) :
    (stored.map (fun entry => (⟨f entry.value, entry.createdAt⟩ : Stamped W))).filter (Stamped.fresh ttl now) =
      (stored.filter (Stamped.fresh ttl now)).map (fun entry => ⟨f entry.value, entry.createdAt⟩) := by
  cases stored with
  | none => rfl
  | some entry => cases live : entry.fresh ttl now <;> simp_all [Option.filter, Stamped.fresh]

omit [DecidableEq K] in
theorem find_map (cache : TimedCache K V) (k : K) : (cache.map f).find ttl k = (cache.find ttl k).map f := by
  simp only [find, map, filter_stamped, Option.map_map]
  rfl

omit [DecidableEq K] in
theorem sweep_map (cache : TimedCache K V) : (cache.map f).sweep ttl = (cache.sweep ttl).map f := by
  simp only [sweep, map, filter_stamped]

omit ttl key make in
theorem keep_map (k : K) (value : V) (cache : TimedCache K V) :
    (cache.map f).keep k (f value) = (cache.keep k value).map f := by
  unfold keep map
  congr 1
  funext other
  by_cases same : other = k
  · subst same; simp
  · simp [update_of_ne same]

theorem visit_map (cache : TimedCache K V) (v : Visit A) : (cache.map f).visit ttl key (f ∘ make) v =
      (((cache.visit ttl key make v).1).map f, ((cache.visit ttl key make v).2).map f) := by
  have seen := find_map ttl f (cache.wait v.looked) (key v.args)
  cases answer : (cache.wait v.looked).find ttl (key v.args) with
  | some value =>
    rw [visit_found ttl key make answer, visit_found ttl key (f ∘ make) (by rw [map_wait, seen, answer]; rfl)]
    rfl
  | none =>
    rw [visit_missed ttl key make answer, visit_missed ttl key (f ∘ make) (by rw [map_wait, seen, answer]; rfl)]
    simp only [map_wait, sweep_map, comp_apply, keep_map, Option.map_none]

theorem after_map (visits : List (Visit A)) : after ttl key make visits = (after ttl key id visits).map make := by
  induction visits using List.reverseRecOn with
  | nil => rfl
  | append_singleton earlier v ih =>
    rw [after_concat, after_concat, ih]
    exact congrArg Prod.snd (visit_map ttl key id make (after ttl key id earlier) v)

theorem answer_eq (v : Visit A) :
    ((after ttl key make earlier).visit ttl key make v).1 = (origin ttl key earlier v).map make := by
  rw [after_map]
  exact congrArg Prod.fst (visit_map ttl key id make (after ttl key id earlier) v)

end

section
variable {ttl : Nat} {key : A → K}

def Filed (key : A → K) (cache : TimedCache K (Visit A)) : Prop :=
  ∀ k entry, cache.entries k = some entry → key entry.value.args = k

omit [DecidableEq K] in
theorem find_filed {cache : TimedCache K (Visit A)} (filed : cache.Filed key) {k : K} {v : Visit A}
    (found : cache.find ttl k = some v) : key v.args = k := by
  obtain ⟨entry, kept, rfl⟩ := Option.map_eq_some_iff.mp found
  exact filed k entry (Option.filter_eq_some_iff.mp kept).1

theorem visit_filed {cache : TimedCache K (Visit A)} (filed : cache.Filed key) (v : Visit A) :
    (cache.visit ttl key id v).2.Filed key := by
  cases answer : (cache.wait v.looked).find ttl (key v.args) with
  | some value =>
    rw [visit_found ttl key id answer]
    exact filed
  | none =>
    rw [visit_missed ttl key id answer]
    intro k entry stored
    by_cases same : k = key v.args
    · subst same
      simp only [keep, update_self, Option.some.injEq] at stored
      subst stored
      rfl
    · simp only [keep, update_of_ne same] at stored
      exact filed k entry (Option.filter_eq_some_iff.mp stored).1

theorem after_filed (visits : List (Visit A)) : (after ttl key id visits).Filed key := by
  induction visits using List.reverseRecOn with
  | nil => intro k entry stored; cases stored
  | append_singleton earlier v ih =>
    rw [after_concat]
    exact visit_filed ih v

theorem origin_key {earlier : List (Visit A)} {v w : Visit A} (served : origin ttl key earlier v = some w) :
    key w.args = key v.args := by
  have filed : ((after ttl key id earlier).wait v.looked).Filed key := after_filed earlier
  cases answer : ((after ttl key id earlier).wait v.looked).find ttl (key v.args) with
  | none => simp [origin, visit_missed ttl key id answer] at served
  | some value =>
    simp only [origin, visit_found ttl key id answer, Option.some.injEq] at served
    subst served
    exact find_filed filed answer

end

end TimedCache

end Aeterna.Lib
