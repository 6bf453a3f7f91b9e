import Mathlib.Data.List.Nodup
import Mathlib.Data.List.Infix
import Mathlib.Data.Int.Order.Basic

/-!
Reading a sorted list page by page. A page starts behind a cursor, takes so many rows at most, and may see a
part of what is behind the cursor only. The last row of a page leaves the cursor of the next one.
-/

namespace Aeterna.Lib
open List

structure Pager (α ι : Type) where
  rows : List α
  key : α → Int
  name : α → ι
  sorted : rows.Pairwise (fun a b => key a ≤ key b)
  unique : (rows.map name).Nodup
  size : Nat
  positive : 0 < size
  seen : Int → Nat
  mark : Int → Int
  mark_eq : ∀ r, mark (key r) = key r ∨ mark (key r) = 0

namespace Pager
variable {α ι : Type} (p : Pager α ι)

def behind (c : Int) : List α := p.rows.filter (fun r => c < p.key r)

def visible (c : Int) : List α := (p.behind c).take (p.seen c)

def page (c : Int) : List α := (p.visible c).take p.size

def more (c : Int) : Bool := p.size < (p.visible c).length

def next (c : Int) : Int := (p.page c).getLast?.elim c (fun r => p.mark (p.key r))

def pull : Nat → Int → Option (List α)
  | 0, _ => none
  | fuel + 1, c => if p.more c then (pull fuel (p.next c)).map (p.page c ++ ·) else some (p.page c)

/-- Each row behind the cursor comes once. -/
def Complete [DecidableEq ι] (c : Int) (out : List α) : Prop :=
  ∀ r ∈ p.behind c, (out.map p.name).count (p.name r) = 1

/-- The first page sees enough, and so does each later one. No page ends before a row that its cursor leaves
out, or with a row that its cursor brings back. -/
structure Fits (c : Int) : Prop where
  first : min (p.size + 1) (p.behind c).length ≤ p.seen c
  breaks : ∀ done a b rest, p.behind c = done ++ a :: b :: rest → p.size ∣ done.length + 1 →
    p.key a ≤ p.mark (p.key a) ∧ p.mark (p.key a) < p.key b ∧
      min (p.size + 1) (rest.length + 1) ≤ p.seen (p.mark (p.key a))

variable {p} {c : Int} {out : List α} {fuel : Nat} {a b : α}

variable {r : α} {rest : List α}

theorem mem_behind : r ∈ p.behind c ↔ r ∈ p.rows ∧ c < p.key r := by
  simp [behind]

theorem behind_sorted : (p.behind c).Pairwise (fun a b => p.key a ≤ p.key b) :=
  p.sorted.sublist filter_sublist

theorem behind_unique : ((p.behind c).map p.name).Nodup :=
  p.unique.sublist (List.Sublist.map _ filter_sublist)

theorem page_leads : p.page c <+: p.behind c :=
  ( take_prefix _ _).trans ( take_prefix _ _)

theorem key_of_mem_page (member : r ∈ p.page c) : c < p.key r :=
  (mem_behind.mp (page_leads.subset member)).2

theorem behind_between {done : List α} {x : Int} (split : p.behind c = done ++ a :: b :: rest)
    (low : p.key a ≤ x) (high : x < p.key b) : p.behind x = b :: rest := by
  have ordered := behind_sorted (p := p) (c := c)
  rw [split, pairwise_append, pairwise_cons, pairwise_cons] at ordered
  obtain ⟨-, ⟨-, after, -⟩, before⟩ := ordered
  have passed : c < p.key a := (mem_behind.mp (by rw [split]; simp)).2
  have narrowed : p.behind x = (p.behind c).filter (fun r => x < p.key r) := by
    rw [behind, behind, filter_filter]
    refine filter_congr (fun r _ => ?_)
    by_cases beyond : x < p.key r
    · have also : c < p.key r := by omega
      simp [beyond, also]
    · simp [beyond]
  have left : done.filter (fun r => decide (x < p.key r)) = [] := by
    rw [filter_eq_nil_iff]
    intro r member
    have below := before r member a mem_cons_self
    simp only [decide_eq_true_eq]
    omega
  have right : rest.filter (fun r => decide (x < p.key r)) = rest := by
    rw [filter_eq_self]
    intro r member
    have above := after r member
    simp only [decide_eq_true_eq]
    omega
  rw [narrowed, split, filter_append, left, filter_cons_of_neg (by simpa using low),
    filter_cons_of_pos (by simpa using high), right]
  rfl

theorem page_short (few : (p.behind c).length ≤ p.size) (enough : (p.behind c).length ≤ p.seen c) :
    p.page c = p.behind c ∧ p.more c = false := by
  have all : p.visible c = p.behind c := take_of_length_le enough
  refine ⟨?_, ?_⟩
  · rw [page, all, take_of_length_le few]
  · simpa [more, all] using few

theorem more_iff : p.more c = true ↔ p.size < p.seen c ∧ p.size < (p.behind c).length := by
  simp only [more, visible, length_take, decide_eq_true_eq]
  omega

theorem page_full (follows : p.more c = true) : ∃ done a b rest, p.behind c = done ++ a :: b :: rest ∧
    done.length + 1 = p.size ∧ p.page c = done ++ [a] ∧ p.next c = p.mark (p.key a) := by
  obtain ⟨wide, long⟩ := more_iff.mp follows
  have positive := p.positive
  have length : ((p.behind c).take p.size).length = p.size := by
    rw [length_take]
    omega
  have page : p.page c = (p.behind c).take p.size := by
    rw [page, visible, take_take, min_eq_left (by omega)]
  have nonempty : (p.behind c).take p.size ≠ [] := by
    intro empty
    rw [empty, length_nil] at length
    omega
  obtain ⟨done, a, shape⟩ : ∃ done a, (p.behind c).take p.size = done ++ [a] :=
    ⟨_, _, (dropLast_append_getLast nonempty).symm⟩
  obtain ⟨b, rest, later⟩ : ∃ b rest, (p.behind c).drop p.size = b :: rest := by
    apply exists_cons_of_ne_nil
    intro empty
    have short := drop_eq_nil_iff.mp empty
    omega
  refine ⟨done, a, b, rest, ?_, ?_, page.trans shape, ?_⟩
  · rw [← take_append_drop p.size (p.behind c), shape, later, append_assoc]
    rfl
  · rw [shape, length_append] at length
    simpa using length
  · rw [next, page, shape, getLast?_concat]
    rfl

theorem order_unique {l : List α} (distinct : l.Nodup) (forth : [a, b].Sublist l) (back : [b, a].Sublist l) :
    False := by
  induction l with
  | nil => cases forth
  | cons x l ih =>
    obtain ⟨fresh, distinct⟩ := nodup_cons.mp distinct
    cases forth with
    | cons _ forth =>
      cases back with
      | cons _ back => exact ih distinct forth back
      | cons_cons _ back => exact fresh (forth.subset (by simp))
    | cons_cons _ forth =>
      cases back with
      | cons _ back => exact fresh (back.subset (by simp))
      | cons_cons _ back => exact fresh (forth.subset (by simp))

theorem page_before (order : [a, b].Sublist p.rows) (within : c < p.key a) (member : b ∈ p.page c) :
    a ∈ p.page c := by
  obtain ⟨tail, split⟩ := page_leads (p := p) (c := c)
  have present : a ∈ p.page c ++ tail := by
    rw [split]
    exact mem_behind.mpr ⟨order.subset (by simp), within⟩
  rcases mem_append.mp present with found | later
  · exact found
  · have back : [b, a].Sublist (p.page c ++ tail) :=
      Sublist.append (singleton_sublist.mpr member) (singleton_sublist.mpr later)
    rw [split] at back
    exact (order_unique (Nodup.of_map _ p.unique) order (back.trans filter_sublist)).elim

theorem pull_succ (pulled : p.pull (fuel + 1) c = some out) : (p.more c = false ∧ out = p.page c) ∨
      (p.more c = true ∧ ∃ later, p.pull fuel (p.next c) = some later ∧ out = p.page c ++ later) := by
  rw [pull] at pulled
  split at pulled
  · rename_i follows
    obtain ⟨later, went, rfl⟩ := Option.map_eq_some_iff.mp pulled
    exact Or.inr ⟨follows, later, went, rfl⟩
  · rename_i ends
    exact Or.inl ⟨by simpa using ends, (Option.some.inj pulled).symm⟩

theorem pull_subset (pulled : p.pull fuel c = some out) : out ⊆ p.rows := by
  have own : ∀ c, p.page c ⊆ p.rows := fun c _ member => mem_of_mem_filter (page_leads.subset member)
  induction fuel generalizing c out with
  | zero => cases pulled
  | succ fuel ih =>
    obtain ⟨-, rfl⟩ | ⟨-, later, went, rfl⟩ := pull_succ pulled
    · exact own c
    · exact append_subset.mpr ⟨own c, ih went⟩

theorem pull_before (order : [a, b].Sublist p.rows)
    (within : p.key a = p.key b ∨ c < p.key a ∧ p.mark (p.key a) < p.key a) (pulled : p.pull fuel c = some out)
    (member : b ∈ out) : a ∈ out := by
  have below : p.key a ≤ p.key b := pairwise_iff_forall_sublist.mp p.sorted order
  have here : ∀ {c}, (p.key a = p.key b ∨ c < p.key a ∧ p.mark (p.key a) < p.key a) → b ∈ p.page c →
      a ∈ p.page c := by
    intro c within found
    have passed := key_of_mem_page found
    exact page_before order (by omega) found
  induction fuel generalizing c out with
  | zero => cases pulled
  | succ fuel ih =>
    obtain ⟨-, rfl⟩ | ⟨follows, later, went, rfl⟩ := pull_succ pulled
    · exact here within member
    · rw [mem_append]
      rcases mem_append.mp member with found | found
      · exact Or.inl (here within found)
      · by_cases already : a ∈ p.page c
        · exact Or.inl already
        · refine Or.inr (ih ?_ went found)
          rcases within with tied | ⟨within, back⟩
          · exact Or.inl tied
          · -- the page ends before `a`, and its last row leaves a cursor that `a` is behind
            obtain ⟨done, last, following, rest, split, -, page, next⟩ := page_full follows
            refine Or.inr ⟨?_, back⟩
            have ahead : a ∈ p.behind c := mem_behind.mpr ⟨order.subset (by simp), within⟩
            have sorted := behind_sorted (p := p) (c := c)
            have shape : p.behind c = p.page c ++ following :: rest := by rw [split, page]; simp
            rw [shape] at ahead sorted
            have beyond := (mem_append.mp ahead).resolve_left already
            have least := (pairwise_append.mp sorted).2.2 last (by rw [page]; simp) a beyond
            rw [next]
            have own := p.mark_eq a
            rcases p.mark_eq last with same | same
            · rcases Int.lt_or_eq_of_le least with less | equal
              · omega
              · rw [equal]
                exact back
            · omega

theorem pull_positive (start : 0 ≤ c) (pulled : p.pull fuel c = some out) : ∀ r ∈ out, 0 < p.key r := by
  have here : ∀ {c}, 0 ≤ c → ∀ r ∈ p.page c, 0 < p.key r := by
    intro c start r member
    have passed := key_of_mem_page member
    omega
  induction fuel generalizing c out with
  | zero => cases pulled
  | succ fuel ih =>
    obtain ⟨-, rfl⟩ | ⟨follows, later, went, rfl⟩ := pull_succ pulled
    · exact here start
    · obtain ⟨done, last, following, rest, -, -, page, next⟩ := page_full follows
      have passed := here start last (by rw [page]; simp)
      have marked := p.mark_eq last
      intro r member
      rcases mem_append.mp member with found | found
      · exact here start r found
      · exact ih (by omega) went r found

theorem fits_iff {done : List α} (split : p.behind c = done ++ a :: b :: rest) (full : done.length + 1 = p.size) :
    p.Fits c ↔ p.size < p.seen c ∧ p.key a ≤ p.mark (p.key a) ∧ p.mark (p.key a) < p.key b ∧
      p.Fits (p.mark (p.key a)) := by
  have length : (p.behind c).length = p.size + 1 + rest.length := by
    rw [split, length_append, length_cons, length_cons]
    omega
  constructor
  · intro fits
    obtain ⟨low, high, sees⟩ := fits.breaks done a b rest split ⟨1, by rw [Nat.mul_one]; exact full⟩
    have behind := behind_between split low high
    have first := fits.first
    refine ⟨by omega, low, high, ⟨by rw [behind]; exact sees, ?_⟩⟩
    intro done' a' b' rest' split' whole
    rw [behind] at split'
    refine fits.breaks (done ++ a :: done') a' b' rest' (by rw [split, split']; simp) ?_
    have longer : (done ++ a :: done').length + 1 = p.size + (done'.length + 1) := by
      rw [length_append, length_cons]
      omega
    rw [longer]
    exact Nat.dvd_add_right (Nat.dvd_refl _) |>.mpr whole
  · rintro ⟨wide, low, high, fits⟩
    have behind := behind_between split low high
    refine ⟨by omega, ?_⟩
    intro done' a' b' rest' split' whole
    have least := Nat.le_of_dvd (by omega) whole
    by_cases here : done'.length = done.length
    · rw [split] at split'
      obtain ⟨-, same⟩ := append_inj split' here.symm
      simp only [List.cons.injEq] at same
      obtain ⟨rfl, rfl, rfl⟩ := same
      have first := fits.first
      rw [behind, length_cons] at first
      exact ⟨low, high, first⟩
    · obtain ⟨tail, rfl⟩ : ∃ tail, done' = done ++ a :: tail := by
        have into : done ++ [a] <+: done' :=
          prefix_of_prefix_length_le ⟨b :: rest, by rw [split]; simp⟩ ⟨a' :: b' :: rest', split'.symm⟩
            (by rw [length_append, length_singleton]; omega)
        obtain ⟨tail, shape⟩ := into
        exact ⟨tail, by rw [← shape]; simp⟩
      refine fits.breaks tail a' b' rest' ?_ ?_
      · rw [split] at split'
        rw [behind]
        simpa using split'
      · have longer : (done ++ a :: tail).length + 1 = p.size + (tail.length + 1) := by
          rw [length_append, length_cons]
          omega
        rw [longer] at whole
        exact (Nat.dvd_add_right (Nat.dvd_refl _)).mp whole

theorem fits_of_short (few : (p.behind c).length ≤ p.size) : p.Fits c ↔ (p.behind c).length ≤ p.seen c := by
  constructor
  · intro fits
    have first := fits.first
    omega
  · intro enough
    refine ⟨by omega, ?_⟩
    intro done a b rest split whole
    have least := Nat.le_of_dvd (by omega) whole
    rw [split, length_append, length_cons, length_cons] at few
    omega

theorem pull_of_fits (fits : p.Fits c) : ∃ fuel, p.pull fuel c = some (p.behind c) := by
  induction size : (p.behind c).length using Nat.strong_induction_on generalizing c with
  | h size' ih =>
    by_cases few : (p.behind c).length ≤ p.size
    · obtain ⟨page, ends⟩ := page_short few ((fits_of_short few).mp fits)
      exact ⟨1, by simp [pull, ends, page]⟩
    · have first := fits.first
      have follows : p.more c = true := more_iff.mpr ⟨by omega, by omega⟩
      obtain ⟨done, a, b, rest, split, full, page, next⟩ := page_full follows
      obtain ⟨-, low, high, later⟩ := (fits_iff split full).mp fits
      have behind := behind_between split low high
      obtain ⟨fuel, went⟩ := ih _ (by rw [← size, behind, split]; simp; omega) later rfl
      refine ⟨fuel + 1, ?_⟩
      rw [pull, if_pos follows, next, went, behind, page, split]
      simp

variable [DecidableEq ι]

theorem complete_behind : p.Complete c (p.behind c) :=
  fun _ member => count_eq_one_of_mem behind_unique (mem_map_of_mem member)

omit [DecidableEq ι] in
theorem mem_of_named (own : out ⊆ p.rows) (row : r ∈ p.rows) (named : p.name r ∈ out.map p.name) : r ∈ out := by
  obtain ⟨other, member, same⟩ := mem_map.mp named
  rwa [← inj_on_of_nodup_map p.unique (own member) row same]

theorem once_later {first later : List α} (distinct : ((first ++ rest).map p.name).Nodup)
    (once : ∀ r ∈ first ++ rest, ((first ++ later).map p.name).count (p.name r) = 1) :
    (∀ r ∈ first, r ∉ later) ∧ ∀ r ∈ rest, (later.map p.name).count (p.name r) = 1 := by
  rw [map_append] at distinct
  simp only [map_append, count_append] at once
  constructor
  · intro r member again
    have total := once r (mem_append_left _ member)
    have here := count_pos_iff.mpr (mem_map_of_mem (f := p.name) member)
    have there := count_pos_iff.mpr (mem_map_of_mem (f := p.name) again)
    omega
  · intro r member
    have total := once r (mem_append_right _ member)
    have apart : p.name r ∉ first.map p.name :=
      fun early => disjoint_of_nodup_append distinct early (mem_map_of_mem member)
    rw [count_eq_zero_of_not_mem apart] at total
    omega

theorem fits_of_complete (pulled : p.pull fuel c = some out) (complete : p.Complete c out) : p.Fits c := by
  have came : ∀ {c fuel out}, p.pull fuel c = some out → p.Complete c out → ∀ r ∈ p.behind c, r ∈ out := by
    intro c fuel out pulled complete r member
    refine mem_of_named (pull_subset pulled) (mem_behind.mp member).1 (count_pos_iff.mp ?_)
    rw [complete r member]
    decide
  induction fuel generalizing c out with
  | zero => cases pulled
  | succ fuel ih =>
    have all := came pulled complete
    obtain ⟨ends, rfl⟩ | ⟨follows, later, went, rfl⟩ := pull_succ pulled
    · have length := (Nodup.of_map _ behind_unique).length_le_of_subset all
      rw [page, visible, length_take, length_take] at length
      exact (fits_of_short (by omega)).mpr (by omega)
    · obtain ⟨done, a, b, rest, split, full, page, next⟩ := page_full follows
      rw [next] at went
      have order : [a, b].Sublist p.rows := by
        refine Sublist.trans ?_ (filter_sublist (p := fun r => decide (c < p.key r)))
        show [a, b].Sublist (p.behind c)
        rw [split]
        exact Sublist.append (nil_sublist done) (by simp)
      have shape : p.behind c = (done ++ [a]) ++ b :: rest := by rw [split]; simp
      have distinct := behind_unique (p := p) (c := c)
      rw [page] at complete
      unfold Complete at complete
      rw [shape] at distinct complete
      obtain ⟨gone, once⟩ := once_later distinct complete
      have missing : a ∉ later := gone a (by simp)
      have comes : b ∈ later := by
        refine mem_of_named (pull_subset went) (order.subset (by simp)) (count_pos_iff.mp ?_)
        rw [once b mem_cons_self]
        decide
      have below := pairwise_iff_forall_sublist.mp p.sorted order
      have passed : c < p.key a := (mem_behind.mp (by rw [split]; simp)).2
      -- a cursor before `a` brings `a` back, and one that is not before `b` leaves `b` out
      have low : p.key a ≤ p.mark (p.key a) := by
        by_contra back
        exact missing (pull_before order (Or.inr ⟨by omega, by omega⟩) went comes)
      have high : p.mark (p.key a) < p.key b := by
        by_contra past
        rcases p.mark_eq a with same | zero
        · exact missing (pull_before order (Or.inl (by omega)) went comes)
        · have positive := pull_positive (by omega) went b comes
          omega
      have behind := behind_between split low high
      refine (fits_iff split full).mpr ⟨(more_iff.mp follows).1, low, high, ih went ?_⟩
      intro r member
      rw [behind] at member
      exact once r member

theorem complete_iff : (∃ fuel out, p.pull fuel c = some out ∧ p.Complete c out) ↔ p.Fits c := by
  constructor
  · rintro ⟨fuel, out, pulled, complete⟩
    exact fits_of_complete pulled complete
  · intro fits
    obtain ⟨fuel, pulled⟩ := pull_of_fits fits
    exact ⟨fuel, _, pulled, complete_behind⟩

end Pager

end Aeterna.Lib
