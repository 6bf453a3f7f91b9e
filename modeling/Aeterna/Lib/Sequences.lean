import Mathlib.Data.List.DropRight
import Mathlib.Data.List.Sort
import Mathlib.Data.List.Infix

/-!
Lists that are split at a separator, and searches in sorted lists.
-/

open List

namespace Aeterna.Lib
variable {α : Type} {sep : α}

variable {a b items : List α}

theorem separated_inj {c d : List α} (left : sep ∉ a) (left' : sep ∉ c) (same : a ++ sep :: b = c ++ sep :: d) :
    a = c ∧ b = d := by
  induction a generalizing c with
  | nil =>
    cases c with
    | nil => simpa using same
    | cons x c =>
      obtain ⟨rfl, -⟩ := List.cons.inj same
      simp at left'
  | cons x a ih =>
    cases c with
    | nil =>
      obtain ⟨rfl, -⟩ := List.cons.inj same
      simp at left
    | cons y c =>
      obtain ⟨rfl, rest⟩ := List.cons.inj same
      obtain ⟨rfl, rfl⟩ := ih (not_mem_of_not_mem_cons left) (not_mem_of_not_mem_cons left') rest
      exact ⟨rfl, rfl⟩

theorem infix_separated_iff {piece : List α} (plain : sep ∉ piece) :
    piece <:+: a ++ sep :: b ↔ piece <:+: a ∨ piece <:+: b := by
  constructor
  · rintro ⟨before, after, same⟩
    rw [append_assoc, append_eq_append_iff] at same
    obtain ⟨rest, rfl, split⟩ | ⟨rest, rfl, split⟩ := same
    · rw [append_eq_append_iff] at split
      obtain ⟨tail, rfl, -⟩ | ⟨tail, rfl, cut⟩ := split
      · exact Or.inl ⟨before, tail, by simp⟩
      · cases tail with
        | nil => exact Or.inl ⟨before, [], by simp⟩
        | cons x tail =>
          obtain ⟨rfl, -⟩ := List.cons.inj cut
          simp at plain
    · cases rest with
      | nil =>
        cases piece with
        | nil => exact Or.inl ⟨[], a, by simp⟩
        | cons x piece =>
          obtain ⟨rfl, -⟩ := List.cons.inj split
          simp at plain
      | cons x rest =>
        obtain ⟨-, rfl⟩ := List.cons.inj split
        exact Or.inr ⟨rest, after, by simp⟩
  · rintro (⟨before, after, rfl⟩ | ⟨before, after, rfl⟩)
    · exact ⟨before, after ++ sep :: b, by simp⟩
    · exact ⟨a ++ sep :: before, after, by simp⟩

theorem infix_of_intercalate {piece : List α} (plain : sep ∉ piece) {parts : List (List α)} (filled : parts ≠ [])
    (inside : piece <:+: [sep].intercalate parts) : ∃ part ∈ parts, piece <:+: part := by
  induction parts with
  | nil => exact absurd rfl filled
  | cons part rest ih =>
    by_cases single : rest = []
    · subst single
      rw [intercalate_singleton] at inside
      exact ⟨part, mem_cons_self, inside⟩
    · rw [intercalate_cons_of_ne_nil single, append_assoc, singleton_append] at inside
      rcases (infix_separated_iff plain).mp inside with here | later
      · exact ⟨part, mem_cons_self, here⟩
      · obtain ⟨other, member, found⟩ := ih single later
        exact ⟨other, mem_cons_of_mem _ member, found⟩

theorem lead_shorten {lead : List α} (unsplit : sep ∉ b) (leads : lead ++ [sep] <+: a ++ b) :
    lead ++ [sep] <+: a := by
  rcases prefix_or_prefix_of_prefix leads (prefix_append a b) with short | ⟨rest, same⟩
  · exact short
  · cases rest using reverseRecOn with
    | nil =>
      rw [append_nil] at same
      rw [← same]
    | append_singleton rest last =>
      rw [← append_assoc] at same
      have ends : last = sep := singleton_inj.mp (append_inj_right' same rfl)
      subst ends
      rw [← same, append_assoc, prefix_append_right_inj] at leads
      exact absurd (leads.subset (by simp)) unsplit

theorem lead_passes {name seg lead : List α} (unsplit : sep ∉ seg) (plain : sep ∉ name) (apart : seg ≠ name)
    (leads : lead ++ sep :: name ++ [sep] <+: a ++ [sep] ++ seg ++ [sep]) :
      lead ++ sep :: name ++ [sep] <+: a ++ [sep] := by
  rcases prefix_concat_iff.mp leads with same | shorter
  · have ends := append_inj_left' same rfl
    have turned := congrArg reverse ends
    simp only [reverse_append, reverse_cons, singleton_append, append_assoc] at turned
    have names := (separated_inj (by simpa using plain) (by simpa using unsplit) turned).1
    exact absurd (reverse_injective names).symm apart
  · exact lead_shorten unsplit shorter

theorem find?_least {less : α → α → Prop} {hit : α → Bool} {x : α} (sorted : items.Pairwise less)
    (found : items.find? hit = some x) : ∀ y ∈ items, hit y = true → y = x ∨ less x y := by
  induction items with
  | nil => simp
  | cons first rest ih =>
    rw [pairwise_cons] at sorted
    intro y member passes
    rw [find?_cons] at found
    split at found
    · cases found
      rcases mem_cons.mp member with rfl | later
      · exact Or.inl rfl
      · exact Or.inr (sorted.1 y later)
    · rename_i missed
      rcases mem_cons.mp member with rfl | later
      · rw [passes] at missed
        cases missed
      · exact ih sorted.2 found y later passes

variable (n : Nat)

def lastItems (items : List α) : List α := items.drop (items.length - n)

theorem lastItems_length_le (items : List α) : (lastItems n items).length ≤ n := by
  rw [lastItems, length_drop]
  omega

theorem lastItems_map {β : Type} (f : α → β) (items : List α) :
    lastItems n (items.map f) = (lastItems n items).map f := by
  rw [lastItems, length_map, lastItems, map_drop]

theorem countP_lastItems_filter {n : Nat} {hit keep : α → Bool} (kept : ∀ x ∈ items, hit x = true → keep x = true) :
    (lastItems n items).countP hit ≤ (lastItems n (items.filter keep)).countP hit := by
  have split := take_append_drop (items.length - n) items
  have hits : ((lastItems n items).filter keep).countP hit = (lastItems n items).countP hit := by
    rw [countP_filter]
    apply countP_congr
    intro x member
    have whole := kept x (mem_of_mem_drop member)
    simp only [Bool.and_eq_true]
    exact ⟨fun both => both.1, fun one => ⟨one, whole one⟩⟩
  have short : ((lastItems n items).filter keep).length ≤ n :=
    Nat.le_trans (length_filter_le _ _) (lastItems_length_le n items)
  have whole : items.filter keep = (items.take (items.length - n)).filter keep ++
      (lastItems n items).filter keep := by
    rw [← filter_append]
    exact congrArg _ split.symm
  rw [whole, ← hits]
  generalize (items.take (items.length - n)).filter keep = early
  generalize (lastItems n items).filter keep = late at short
  -- the window reaches back at least as far as what is left of the old one
  have back : (early ++ late).length - n ≤ early.length := by
    rw [length_append]
    omega
  rw [lastItems, drop_append_of_le_length back, countP_append]
  omega

theorem mapM_eq_ok {ε β : Type} {f : α → Except ε β} {answers : List β} :
    items.mapM f = .ok answers ↔ items.map f = answers.map .ok := by
  induction items generalizing answers with
  | nil =>
    rw [mapM_nil, map_nil, eq_comm (a := []), map_eq_nil_iff]
    exact ⟨fun read => (Except.ok.inj read).symm, fun empty => by rw [empty]; rfl⟩
  | cons item rest ih =>
    rw [mapM_cons, map_cons]
    constructor
    · intro read
      cases first : f item with
      | error e =>
        rw [first] at read
        cases read
      | ok answer =>
        cases later : rest.mapM f with
        | error e =>
          rw [first, later] at read
          cases read
        | ok found =>
          rw [first, later] at read
          cases read
          rw [ih.mp later]
          rfl
    · intro same
      cases answers with
      | nil => cases same
      | cons answer found =>
        obtain ⟨first, others⟩ := List.cons.inj same
        rw [first, ih.mpr others]
        rfl

end Aeterna.Lib

/-!
The first items of a sorted list. Ties keep the order they had before sorting.
-/

namespace Aeterna.Lib
variable {α : Type} (le : α → α → Prop) [DecidableRel le]

def best (n : Nat) (items : List α) : List α := (items.insertionSort le).take n

/-- No item of the second list comes before one of the first. -/
def Ahead (front back : List α) : Prop := ∀ a ∈ front, ∀ b ∈ back, le a b

instance (front back : List α) : Decidable (Ahead le front back) :=
  inferInstanceAs (Decidable (∀ a ∈ front, ∀ b ∈ back, le a b))

variable {le}

theorem orderedInsert_append {a : α} {front back : List α} (before : ∀ b ∈ back, le a b) :
    (front ++ back).orderedInsert le a = front.orderedInsert le a ++ back := by
  induction front with
  | nil =>
    cases back with
    | nil => rfl
    | cons b rest => simp [before b mem_cons_self]
  | cons x rest ih =>
    simp only [cons_append, orderedInsert_cons, ih]
    split <;> rfl

theorem insertionSort_append {front back : List α} (ahead : Ahead le front back) :
    (front ++ back).insertionSort le = front.insertionSort le ++ back.insertionSort le := by
  induction front with
  | nil => rfl
  | cons a rest ih =>
    have tail : Ahead le rest back := fun x among => ahead x (mem_cons_of_mem _ among)
    have head : ∀ b ∈ back.insertionSort le, le a b := by
      intro b among
      exact ahead a mem_cons_self b ((mem_insertionSort le).mp among)
    rw [cons_append, insertionSort_cons, ih tail, orderedInsert_append head, insertionSort_cons]

theorem sort_take_iff [Std.Total le] [IsTrans α le] (n : Nat) (items : List α) :
    (items.take n).insertionSort le = best le n items ↔ Ahead le (items.take n) (items.drop n) := by
  by_cases short : items.length ≤ n
  · have all : best le n items = items.insertionSort le :=
      take_of_length_le (by rw [length_insertionSort]; exact short)
    rw [all, take_of_length_le short, drop_of_length_le short]
    exact ⟨fun _ a _ b none => absurd none not_mem_nil, fun _ => rfl⟩
  · have enough : (items.take n).length = n := by rw [length_take]; omega
    constructor
    · intro same
      have split : items.insertionSort le = (items.take n).insertionSort le ++ (items.insertionSort le).drop n := by
        rw [same, best, take_append_drop]
      have perm : ((items.insertionSort le).drop n).Perm (items.drop n) := by
        have whole : ((items.take n).insertionSort le ++ (items.insertionSort le).drop n).Perm
            (items.take n ++ items.drop n) := by
          rw [← split, take_append_drop]
          exact perm_insertionSort le items
        have front := perm_insertionSort le (items.take n)
        exact (perm_append_left_iff _).mp ((front.symm.append_right _).trans whole)
      have sorted := pairwise_insertionSort le items
      rw [split] at sorted
      intro a among b after
      exact (pairwise_append.mp sorted).2.2 a ((mem_insertionSort le).mpr among) b (perm.mem_iff.mpr after)
    · intro ahead
      have sorted := insertionSort_append ahead
      rw [take_append_drop] at sorted
      rw [best, sorted, take_left' (by rw [length_insertionSort, enough])]

end Aeterna.Lib

/-!
A walk that only takes an item whose key differs from that of the one it holds. It ends with the
first item of the last run of equal keys.
-/

namespace Aeterna.Lib

variable {α κ : Type} [DecidableEq κ] (key : α → κ)

def takeChanged (held item : α) : α := if key held = key item then held else item

variable (first : α)

variable (later : List α)

def lastRun : α :=
  (((first :: later).rtakeWhile (fun item => key item = key (later.getLastD first))).head?).getD first

variable {key}

theorem lastRun_nonempty : (first :: later).rtakeWhile (fun item => key item = key (later.getLastD first)) ≠ [] := by
  intro empty
  have stops := (rtakeWhile_eq_nil_iff ..).mp empty (by simp)
  rw [getLast_eq_getLastD] at stops
  simp at stops

theorem lastRun_key : key (lastRun key first later) = key (later.getLastD first) := by
  obtain ⟨head, rest, shape⟩ := exists_cons_of_ne_nil (@lastRun_nonempty α κ _ key first later)
  have inside : head ∈ (first :: later).rtakeWhile (fun item => key item = key (later.getLastD first)) := by
    rw [shape]
    exact mem_cons_self
  have same := mem_rtakeWhile_imp inside
  rw [lastRun, shape]
  simpa using same

theorem lastRun_concat (first last : α) (later : List α) :
    lastRun key first (later ++ [last]) = takeChanged key (lastRun key first later) last := by
  have ends : key (lastRun key first later) = key (later.getLastD first) := lastRun_key first later
  unfold takeChanged
  rw [ends]
  have shape : (first :: (later ++ [last])).rtakeWhile (fun item => key item = key last) =
      (first :: later).rtakeWhile (fun item => key item = key last) ++ [last] :=
    rtakeWhile_concat_pos _ (first :: later) last (by simp)
  by_cases same : key (later.getLastD first) = key last
  · rw [if_pos same]
    obtain ⟨head, rest, run⟩ := exists_cons_of_ne_nil (@lastRun_nonempty α κ _ key first later)
    rw [lastRun, lastRun, getLastD_concat, shape, ← same, run]
    rfl
  · have empty : (first :: later).rtakeWhile (fun item => key item = key last) = [] := by
      refine (rtakeWhile_eq_nil_iff ..).mpr (fun _ => ?_)
      rw [getLast_eq_getLastD]
      simpa using same
    rw [if_neg same, lastRun, getLastD_concat, shape, empty]
    rfl

theorem foldl_takeChanged : later.foldl (takeChanged key) first = lastRun key first later := by
  induction later using reverseRecOn with
  | nil => simp [lastRun, rtakeWhile]
  | append_singleton later last ih => rw [foldl_append, ih, lastRun_concat, foldl_cons, foldl_nil]

end Aeterna.Lib
