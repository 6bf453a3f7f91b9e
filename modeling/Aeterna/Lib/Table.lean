import Mathlib.Algebra.GroupWithZero.Nat
import Mathlib.Data.List.Nodup

/-!
A table with a primary key, and the statements that write to it: insert-or-ignore, upsert, and update.
-/

namespace Aeterna.Lib
open List Option

structure Table (κ ρ : Type) where
  rows : List (κ × ρ) := []
  unique : (rows.map Prod.fst).Nodup := by exact List.nodup_nil

namespace Table
variable {κ ρ : Type} [DecidableEq κ]

def empty : Table κ ρ := {}

def get (t : Table κ ρ) (k : κ) : Option ρ := (t.rows.find? (fun e => e.1 = k)).map Prod.snd

variable {t : Table κ ρ} {rows : List (κ × ρ)}

theorem get_eq_none {k : κ} : t.get k = none ↔ k ∉ t.rows.map Prod.fst := by
  rw [get, map_eq_none_iff, find?_eq_none]
  constructor
  · intro absent member
    obtain ⟨e, inside, same⟩ := List.mem_map.mp member
    exact absent e inside (by simpa using same)
  · intro absent e inside same
    exact absent (List.mem_map.mpr ⟨e, inside, by simpa using same⟩)

theorem get_eq_some {k : κ} {r : ρ} : t.get k = some r ↔ (k, r) ∈ t.rows := by
  constructor
  · intro found
    obtain ⟨⟨key, row⟩, first, rfl⟩ := map_eq_some_iff.mp found
    have same : key = k := by simpa using find?_some first
    subst same
    exact mem_of_find?_eq_some first
  · intro member
    cases found : t.get k with
    | none => exact absurd (List.mem_map.mpr ⟨_, member, rfl⟩) (get_eq_none.mp found)
    | some other =>
      obtain ⟨⟨key, row⟩, first, rfl⟩ := map_eq_some_iff.mp found
      have same : key = k := by simpa using find?_some first
      subst same
      have equal := inj_on_of_nodup_map t.unique member (mem_of_find?_eq_some first) rfl
      cases equal
      rfl

def insert (t : Table κ ρ) (k : κ) (r : ρ) (absent : t.get k = none) : Table κ ρ where
  rows := t.rows ++ [(k, r)]
  unique := by
    rw [map_append]
    refine Nodup.append t.unique (nodup_singleton k) ?_
    simpa using get_eq_none.mp absent

/-- `UPDATE` of every row; a row that the condition leaves out is kept as it is. -/
def update (f : κ → ρ → ρ) (t : Table κ ρ) : Table κ ρ where
  rows := t.rows.map (fun e => (e.1, f e.1 e.2))
  unique := by
    rw [List.map_map]
    exact t.unique

def insertOrIgnore (k : κ) (r : ρ) (t : Table κ ρ) : Table κ ρ :=
  if absent : t.get k = none then t.insert k r absent else t

def upsert (k : κ) (r : ρ) (f : ρ → ρ) (t : Table κ ρ) : Table κ ρ :=
  if absent : t.get k = none then t.insert k r absent
  else t.update (fun key row => if key = k then f row else row)

variable (p : κ → ρ → Bool)

/-- `DELETE` of the rows that are not to be kept. -/
def keepOnly (t : Table κ ρ) : Table κ ρ where
  rows := t.rows.filter (fun e => p e.1 e.2)
  unique := t.unique.sublist (List.Sublist.map _ filter_sublist)

/-- `INSERT ... SELECT`, which fails on a key that is already held. -/
def insertAll : List (κ × ρ) → Table κ ρ → Option (Table κ ρ)
  | [], t => some t
  | (k, r) :: rest, t => if absent : t.get k = none then insertAll rest (t.insert k r absent) else none

def insertOrIgnoreAll (rows : List (κ × ρ)) (t : Table κ ρ) : Table κ ρ :=
  rows.foldl (fun t e => t.insertOrIgnore e.1 e.2) t

@[simp] theorem get_empty (k : κ) : ({} : Table κ ρ).get k = none := rfl

theorem get_insert {k : κ} {r : ρ} (absent : t.get k = none) (other : κ) :
    (t.insert k r absent).get other = if other = k then some r else t.get other := by
  by_cases same : other = k
  · subst same
    have missing : t.rows.find? (fun e => e.1 = other) = none := map_eq_none_iff.mp absent
    simp [get, insert, find?_append, missing]
  · have apart : k ≠ other := Ne.symm same
    simp [get, insert, find?_append, same, apart]

@[simp] theorem get_update (f : κ → ρ → ρ) (t : Table κ ρ) (k : κ) : (t.update f).get k = (t.get k).map (f k) := by
  simp only [get, update, find?_map, Option.map_map]
  cases found : t.rows.find? (fun e => e.1 = k) with
  | none =>
    have same : t.rows.find? ((fun e => decide (e.1 = k)) ∘ fun e => (e.1, f e.1 e.2)) = none := found
    rw [same]
    rfl
  | some e =>
    have same : t.rows.find? ((fun e => decide (e.1 = k)) ∘ fun e => (e.1, f e.1 e.2)) = some e := found
    have key : e.1 = k := by simpa using find?_some found
    rw [same]
    simp [key]

@[simp] theorem get_insertOrIgnore (k : κ) (r : ρ) (t : Table κ ρ) (other : κ) :
    (t.insertOrIgnore k r).get other = if other = k then some ((t.get k).getD r) else t.get other := by
  unfold insertOrIgnore
  split
  · rename_i absent
    rw [get_insert absent, absent]
    rfl
  · rename_i present
    obtain ⟨row, found⟩ := ne_none_iff_exists'.mp present
    by_cases same : other = k
    · subst same
      simp [found]
    · rw [if_neg same]

@[simp] theorem get_upsert (k : κ) (r : ρ) (f : ρ → ρ) (t : Table κ ρ) (other : κ) :
    (t.upsert k r f).get other = if other = k then some (((t.get k).map f).getD r) else t.get other := by
  unfold upsert
  split
  · rename_i absent
    rw [get_insert absent, absent]
    rfl
  · rename_i present
    obtain ⟨row, found⟩ := ne_none_iff_exists'.mp present
    rw [get_update]
    by_cases same : other = k
    · subst same
      simp [found]
    · simp [same]

theorem get_put (k : κ) (r : ρ) (t : Table κ ρ) (other : κ) :
    (t.upsert k r (fun _ => r)).get other = if other = k then some r else t.get other := by
  rw [get_upsert]
  cases t.get k <;> rfl

omit [DecidableEq κ] in
theorem keepOnly_empty : ({} : Table κ ρ).keepOnly p = {} := rfl

theorem insertOrIgnore_rows {k : κ} {r : ρ} (absent : t.get k = none) :
    (t.insertOrIgnore k r).rows = t.rows ++ [(k, r)] := by
  unfold insertOrIgnore
  rw [dif_pos absent]
  rfl

theorem upsert_absent {k : κ} {r : ρ} (absent : t.get k = none) (f : ρ → ρ) :
    t.upsert k r f = t.insertOrIgnore k r := by
  unfold upsert insertOrIgnore
  rw [dif_pos absent, dif_pos absent]

def find (rows : List (κ × ρ)) (k : κ) : Option ρ := (rows.find? (fun e => e.1 = k)).map Prod.snd

theorem find_cons (e : κ × ρ) (rows : List (κ × ρ)) (k : κ) :
    find (e :: rows) k = if e.1 = k then some e.2 else find rows k := by
  by_cases same : e.1 = k <;> simp [find, same]

theorem find_map {σ : Type} (g : ρ → σ) (rows : List (κ × ρ)) (k : κ) :
    find (rows.map (fun e => (e.1, g e.2))) k = (find rows k).map g := by
  induction rows with
  | nil => rfl
  | cons e rest ih =>
    rw [map_cons, find_cons, find_cons, ih]
    by_cases same : e.1 = k <;> simp [same]

theorem find_isSome (rows : List (κ × ρ)) (k : κ) : (find rows k).isSome ↔ ∃ e ∈ rows, e.1 = k := by
  rw [find, isSome_map, find?_isSome]
  simp

theorem get_insertOrIgnoreAll (rows : List (κ × ρ)) (t : Table κ ρ) (k : κ) :
    (t.insertOrIgnoreAll rows).get k = (t.get k).or (find rows k) := by
  induction rows generalizing t with
  | nil => simp [insertOrIgnoreAll, find]
  | cons e rest ih =>
    show ((t.insertOrIgnore e.1 e.2).insertOrIgnoreAll rest).get k = _
    rw [ih, find_cons, get_insertOrIgnore]
    by_cases same : e.1 = k
    · subst same
      cases t.get e.1 <;> simp
    · simp [same, Ne.symm same]

theorem find_of_mem (unique : (rows.map Prod.fst).Nodup) {e : κ × ρ} (member : e ∈ rows) :
    find rows e.1 = some e.2 := by
  let held : Table κ ρ := ⟨rows, unique⟩
  exact (get_eq_some (t := held)).mpr member

theorem insertAll_eq (unique : (rows.map Prod.fst).Nodup) (apart : ∀ e ∈ rows, t.get e.1 = none) :
    t.insertAll rows = some (t.insertOrIgnoreAll rows) := by
  induction rows generalizing t with
  | nil => rfl
  | cons e rest ih =>
    have absent := apart e mem_cons_self
    obtain ⟨fresh, others⟩ := nodup_cons.mp unique
    have same : t.insertOrIgnore e.1 e.2 = t.insert e.1 e.2 absent := dif_pos absent
    show (if absent : t.get e.1 = none then (t.insert e.1 e.2 absent).insertAll rest else none) =
      some ((t.insertOrIgnore e.1 e.2).insertOrIgnoreAll rest)
    rw [dif_pos absent, same]
    refine ih others (fun other member => ?_)
    have apartKey : other.1 ≠ e.1 := by
      intro equal
      exact fresh (equal ▸ List.mem_map.mpr ⟨other, member, rfl⟩)
    rw [get_insert, if_neg apartKey]
    exact apart other (mem_cons_of_mem _ member)

theorem insertAll_fails (clash : ¬ ((rows.map Prod.fst).Nodup ∧ ∀ e ∈ rows, t.get e.1 = none)) :
    t.insertAll rows = none := by
  induction rows generalizing t with
  | nil => exact absurd ⟨nodup_nil, fun _ member => absurd member not_mem_nil⟩ clash
  | cons e rest ih =>
    show (if absent : t.get e.1 = none then (t.insert e.1 e.2 absent).insertAll rest else none) = none
    split
    · rename_i absent
      refine ih (fun ⟨unique, apart⟩ => clash ⟨nodup_cons.mpr ⟨?_, unique⟩, ?_⟩)
      · intro member
        obtain ⟨other, inside, same⟩ := List.mem_map.mp member
        have free := apart other inside
        rw [get_insert, if_pos same] at free
        cases free
      · intro other member
        rcases mem_cons.mp member with rfl | inside
        · exact absent
        · have free := apart other inside
          rw [get_insert] at free
          split at free
          · cases free
          · exact free
    · rfl

omit [DecidableEq κ] in
theorem selected_unique (t : Table κ ρ) (p : κ × ρ → Bool) : ((t.rows.filter p).map Prod.fst).Nodup :=
  t.unique.sublist (List.Sublist.map _ filter_sublist)

theorem find_filter (t : Table κ ρ) (p : κ × ρ → Bool) (k : κ) :
    find (t.rows.filter p) k = (t.get k).filter (fun r => p (k, r)) := by
  cases held : t.get k with
  | none =>
    have absent : k ∉ (t.rows.filter p).map Prod.fst := by
      intro member
      obtain ⟨e, inside, rfl⟩ := List.mem_map.mp member
      exact get_eq_none.mp held (List.mem_map.mpr ⟨e, mem_of_mem_filter inside, rfl⟩)
    show find (t.rows.filter p) k = none
    rw [find, map_eq_none_iff, find?_eq_none]
    intro e inside same
    exact absent (List.mem_map.mpr ⟨e, inside, by simpa using same⟩)
  | some r =>
    have member := get_eq_some.mp held
    let selected : Table κ ρ := ⟨t.rows.filter p, selected_unique t p⟩
    show selected.get k = _
    cases passes : p (k, r) with
    | true =>
      have inside : (k, r) ∈ selected.rows := mem_filter.mpr ⟨member, passes⟩
      rw [get_eq_some.mpr inside]
      simp [Option.filter, passes]
    | false =>
      have absent : selected.get k = none := by
        cases found : selected.get k with
        | none => rfl
        | some other =>
          obtain ⟨old, kept⟩ := mem_filter.mp (get_eq_some.mp found)
          rw [get_eq_some.mpr old] at held
          cases held
          rw [passes] at kept
          cases kept
      rw [absent]
      simp [Option.filter, passes]

theorem get_keepOnly (t : Table κ ρ) (k : κ) : (t.keepOnly p).get k = (t.get k).filter (fun r => p k r) :=
  find_filter t (fun e => p e.1 e.2) k

def Kept (kind : κ → ρ → Prop) (start now : Table κ ρ) : Prop := ∀ k r, start.get k = some r → kind k r →
    now.get k = some r

section
variable {kind : κ → ρ → Prop} {start now : Table κ ρ} {k : κ} {r : ρ}

theorem kept_refl : Kept kind start start := fun _ _ held _ => held

theorem kept_upsert {f : ρ → ρ} (kept : Kept kind start now) :
    Kept kind start (now.upsert k r f) ↔ ∀ old, start.get k = some old → kind k old → f old = old := by
  constructor
  · intro after old held own
    have written := after k old held own
    rw [get_upsert, if_pos rfl, kept k old held own] at written
    simpa using written
  · intro left key old held own
    rw [get_upsert]
    by_cases same : key = k
    · subst same
      rw [if_pos rfl, kept key old held own]
      simpa using left old held own
    · rw [if_neg same]
      exact kept key old held own

theorem kept_insertOrIgnore (kept : Kept kind start now) : Kept kind start (now.insertOrIgnore k r) := by
  intro key old held own
  have found := kept key old held own
  rw [get_insertOrIgnore]
  by_cases same : key = k
  · subst same
    rw [if_pos rfl, found]
    rfl
  · rw [if_neg same]
    exact found

end

variable (f : ρ → Nat)

def total (t : Table κ ρ) : Nat := (t.rows.map (fun e => f e.2)).sum

theorem sum_split (unique : (rows.map Prod.fst).Nodup) (k : κ) : (rows.map (fun e => f e.2)).sum =
      ((find rows k).map f).getD 0 + ((rows.filter (fun e => e.1 ≠ k)).map (fun e => f e.2)).sum := by
  induction rows with
  | nil => rfl
  | cons e rest ih =>
    obtain ⟨absent, unique⟩ := nodup_cons.mp unique
    rw [map_cons, sum_cons, find_cons]
    by_cases same : e.1 = k
    · subst same
      have kept : rest.filter (fun other => other.1 ≠ e.1) = rest := by
        apply filter_eq_self.mpr
        intro other member
        have apart : other.1 ≠ e.1 := fun equal => absent (equal ▸ List.mem_map.mpr ⟨other, member, rfl⟩)
        simpa using apart
      rw [if_pos rfl, filter_cons_of_neg (by simp), kept]
      rfl
    · rw [if_neg same, filter_cons_of_pos (by simpa using same), map_cons, sum_cons, ih unique]
      omega

theorem total_split (t : Table κ ρ) (k : κ) :
    t.total f = ((t.get k).map f).getD 0 + (t.keepOnly (fun other _ => other ≠ k)).total f :=
  sum_split f t.unique k

omit [DecidableEq κ] in
theorem total_keepOnly {f : ρ → Nat} {p : κ → ρ → Bool}
    (weightless : ∀ e ∈ t.rows, p e.1 e.2 = false → f e.2 = 0) : (t.keepOnly p).total f = t.total f := by
  unfold total keepOnly
  dsimp only
  revert weightless
  induction t.rows with
  | nil => exact fun _ => rfl
  | cons e rest ih =>
    intro weightless
    obtain ⟨first, others⟩ := forall_mem_cons.mp weightless
    rw [filter_cons, map_cons, sum_cons]
    cases passes : p e.1 e.2 with
    | true => rw [if_pos rfl, map_cons, sum_cons, ih others]
    | false => rw [if_neg Bool.false_ne_true, ih others, first passes, Nat.zero_add]

theorem total_update (g : ρ → ρ) (t : Table κ ρ) (k : κ) :
    (t.update (fun key row => if key = k then g row else row)).total f =
      ((t.get k).map (f ∘ g)).getD 0 + (t.keepOnly (fun other _ => other ≠ k)).total f := by
  rw [total_split f _ k, get_update, Option.map_map]
  congr 1
  · cases t.get k with
    | none => rfl
    | some row => simp
  · unfold total keepOnly update
    dsimp only
    rw [List.filter_map, List.map_map]
    apply congrArg sum
    apply map_congr_left
    intro e member
    have apart : e.1 ≠ k := by simpa using (mem_filter.mp member).2
    simp [apart]

theorem total_upsert (t : Table κ ρ) (k : κ) (r : ρ) (g : ρ → ρ) : (t.upsert k r g).total f =
      f (((t.get k).map g).getD r) + (t.keepOnly (fun other _ => other ≠ k)).total f := by
  unfold upsert
  split
  · rename_i absent
    have before := total_split f t k
    rw [absent] at before
    have added : (t.insert k r absent).total f = t.total f + f r := by simp [total, insert]
    rw [added, before, absent]
    simp only [map_none, getD_none]
    omega
  · rename_i present
    obtain ⟨row, held⟩ := ne_none_iff_exists'.mp present
    rw [total_update, held]
    rfl

end Table

end Aeterna.Lib
