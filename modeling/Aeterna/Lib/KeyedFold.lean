import Std.Data.ExtTreeMap.Lemmas
import Mathlib.Data.String.Basic
import Mathlib.Order.Basic
import Mathlib.Data.List.Nodup

/-!
Folds whose steps each touch one key. Seen through a single key, such a fold only does the steps
that carry this key.
-/

open List

namespace Aeterna.Lib

section
variable {σ α κ β : Type} [DecidableEq κ]

structure Keyed (valid : α → Prop) (view : σ → κ → β) (key : α → κ) (step : σ → α → σ)
    (act : β → α → β) : Prop where
  same : ∀ s a, valid a → view (step s a) (key a) = act (view s (key a)) a
  other : ∀ s a k, valid a → k ≠ key a → view (step s a) k = view s k

theorem Keyed.foldl {valid : α → Prop} {view : σ → κ → β} {key : α → κ} {step : σ → α → σ}
    {act : β → α → β} (keyed : Keyed valid view key step act) {items : List α}
    (all : ∀ a ∈ items, valid a) (s : σ) (k : κ) :
    view (items.foldl step s) k = (items.filter (fun a => key a = k)).foldl act (view s k) := by
  induction items generalizing s with
  | nil => rfl
  | cons a rest ih =>
    have first := all a mem_cons_self
    rw [foldl_cons, ih (fun b member => all b (mem_cons_of_mem _ member))]
    by_cases own : key a = k
    · subst own
      rw [keyed.same s a first]
      simp
    · rw [keyed.other s a k first (Ne.symm own)]
      simp [own]

end

theorem filter_flatMap_of_key {α β : Type} {items : List α} {f : α → List β} {p : β → Bool} {q : α → Bool}
    (own : ∀ a ∈ items, ∀ b ∈ f a, p b = q a) : (items.flatMap f).filter p = (items.filter q).flatMap f := by
  induction items with
  | nil => rfl
  | cons a rest ih =>
    have later := ih (fun other member => own other (mem_cons_of_mem _ member))
    have first := own a mem_cons_self
    rw [flatMap_cons, filter_append, later]
    cases selected : q a with
    | true =>
      have all : (f a).filter p = f a := filter_eq_self.mpr (fun b member => by rw [first b member, selected])
      simp [selected, all]
    | false =>
      have none : (f a).filter p = [] :=
        filter_eq_nil_iff.mpr (fun b member => by simp [first b member, selected])
      simp [selected, none]

theorem filter_eq_singleton {α : Type} {items : List α} {p : α → Bool} {x : α} (nodup : items.Nodup)
    (member : x ∈ items) (holds : p x = true) (only : ∀ y ∈ items, p y = true → y = x) :
    items.filter p = [x] := by
  have inside : ∀ y ∈ items.filter p, y = x := fun y found =>
    only y (mem_filter.mp found).1 (mem_filter.mp found).2
  have present : x ∈ items.filter p := mem_filter.mpr ⟨member, holds⟩
  match found : items.filter p with
  | [] => simp [found] at present
  | [single] => rw [inside single (by simp [found])]
  | first :: second :: rest =>
    have distinct := nodup.filter p
    rw [found] at distinct inside
    have same : first = second := (inside first (by simp)).trans (inside second (by simp)).symm
    simp [same] at distinct

end Aeterna.Lib

/-!
Lists of upserts. A row keeps what it was given when it was inserted, and takes the rest from the last write to its
key, so that a second run of one list changes nothing.
-/

namespace Aeterna.Lib
open Std (ExtTreeMap TransCmp LawfulEqCmp)

section
variable {κ ρ α : Type} {cmp : κ → κ → Ordering} [TransCmp cmp]

def upsertAll (write : κ → Option ρ → α → ρ) (entries : List (κ × α)) (t : ExtTreeMap κ ρ cmp) : ExtTreeMap κ ρ cmp :=
  entries.foldl (fun t e => t.insert e.1 (write e.1 t[e.1]? e.2)) t

def rewrite (write : Option ρ → α → ρ) (contents : List α) (row : Option ρ) : Option ρ :=
  contents.foldl (fun row content => some (write row content)) row

def contentsOf [DecidableEq κ] (entries : List (κ × α)) (k : κ) : List α :=
  (entries.filter (fun e => e.1 = k)).map (·.2)

variable [LawfulEqCmp cmp] [DecidableEq κ] {write write' : κ → Option ρ → α → ρ} {entries : List (κ × α)}
  {t : ExtTreeMap κ ρ cmp}

theorem upsertAll_getElem? {k : κ} : (upsertAll write entries t)[k]? = rewrite (write k)
    (contentsOf entries k) t[k]? := by
  have keyed : Keyed (fun _ => True) (fun (t : ExtTreeMap κ ρ cmp) k => t[k]?) Prod.fst
      (fun t e => t.insert e.1 (write e.1 t[e.1]? e.2)) (fun row (e : κ × α) => some (write e.1 row e.2)) :=
    { same := fun t e _ => by simp
      other := fun t e k _ apart => by
        have differs : cmp e.1 k ≠ .eq := fun same => apart (LawfulEqCmp.eq_of_compare same).symm
        simp [ExtTreeMap.getElem?_insert, differs] }
  refine (keyed.foldl (fun _ _ => trivial) t k).trans ?_
  unfold rewrite contentsOf
  rw [foldl_map]
  refine foldl_ext _ _ _ (fun row e member => ?_)
  have own : e.1 = k := by simpa using (mem_filter.mp member).2
  rw [own]

theorem upsertAll_again
    (again : ∀ k row, rewrite (write' k) (contentsOf entries k) (rewrite (write k) (contentsOf entries k) row) =
      rewrite (write k) (contentsOf entries k) row) :
    upsertAll write' entries (upsertAll write entries t) = upsertAll write entries t := by
  apply ExtTreeMap.ext_getElem?
  intro k
  rw [upsertAll_getElem?, upsertAll_getElem?, again]

end

section
variable {ρ α : Type} {write write' : Option ρ → α → ρ}

theorem rewrite_concat {contents : List α} {last : α} {row : Option ρ} :
    rewrite write (contents ++ [last]) row = some (write (rewrite write contents row) last) := by
  simp [rewrite, foldl_append]

structure Overwrites (write write' : Option ρ → α → ρ) : Prop where
  kept : ∀ row content, write' (some row) content = write (some row) content
  last : ∀ row content other, write (some (write (some row) content)) other = write (some row) other
  same : ∀ row content, write (some (write row content)) content = write row content

namespace Overwrites
variable (overwrites : Overwrites write write')
include overwrites

theorem rewrite_some {contents : List α} {last : α} {row : ρ} :
    rewrite write' (contents ++ [last]) (some row) = some (write (some row) last) := by
  induction contents generalizing row with
  | nil => exact congrArg some (overwrites.kept row last)
  | cons content rest ih =>
    show rewrite write' (rest ++ [last]) (some (write' (some row) content)) = _
    rw [ih, overwrites.kept, overwrites.last]

theorem again (contents : List α) (row : Option ρ) :
    rewrite write' contents (rewrite write contents row) = rewrite write contents row := by
  rcases eq_nil_or_concat contents with rfl | ⟨before, last, rfl⟩
  · rfl
  · have first : rewrite write (before ++ [last]) row = some (write (rewrite write before row) last) := rewrite_concat
    rw [concat_eq_append, first, overwrites.rewrite_some, overwrites.same]

end Overwrites

end

structure Raises {ρ α ι : Type} [Preorder ι] (write : ρ → α → ρ) (version : ρ → ι) (brought : α → ι) : Prop where
  kept : ∀ row content, ¬ version row < brought content → write row content = row
  raised : ∀ row content, version row < brought content → version (write row content) = brought content

namespace Raises
variable {ρ α ι : Type} [Preorder ι] {write : ρ → α → ρ} {version : ρ → ι} {brought : α → ι}
  {contents : List α} {row : ρ}

theorem grows (raises : Raises write version brought) : version row ≤ version (contents.foldl write row) := by
  induction contents generalizing row with
  | nil => exact le_refl _
  | cons content rest ih =>
    have later_rows : version (write row content) ≤ _ := ih
    refine le_trans ?_ later_rows
    by_cases later : version row < brought content
    · rw [raises.raised row content later]
      exact le_of_lt later
    · rw [raises.kept row content later]

theorem same_iff (raises : Raises write version brought) :
    contents.foldl write row = row ↔ ∀ content ∈ contents, ¬ version row < brought content := by
  induction contents with
  | nil => exact ⟨fun _ _ absent => absurd absent not_mem_nil, fun _ => rfl⟩
  | cons content rest ih =>
    rw [foldl_cons, forall_mem_cons]
    by_cases later : version row < brought content
    · refine ⟨fun same => absurd later ?_, fun ⟨none_, _⟩ => absurd later none_⟩
      have grown : version (write row content) ≤ version (rest.foldl write (write row content)) := raises.grows
      rw [same, raises.raised row content later] at grown
      exact not_lt_of_ge grown
    · rw [raises.kept row content later, ih]
      exact ⟨fun others => ⟨later, others⟩, And.right⟩

end Raises

section
variable {κ ρ α ν : Type} {cmp : κ → κ → Ordering} [TransCmp cmp] [LawfulEqCmp cmp] [DecidableEq κ]
  {write : κ → Option ρ → α → ρ} {entries : List (κ × α)} {t : ExtTreeMap κ ρ cmp} {label : ρ → ν} {name : α → ν}
    {key : ν → κ}

def Labels (write : κ → Option ρ → α → ρ) (label : ρ → ν) (name : α → ν) : Prop :=
  ∀ k row content, label (write k row content) = name content

theorem Labels.getElem? (labels : Labels write label name) (k : κ) :
    (upsertAll write entries t)[k]?.map label = ((contentsOf entries k).getLast?.map name).or (t[k]?.map label) := by
  rw [upsertAll_getElem?]
  rcases eq_nil_or_concat (contentsOf entries k) with none_ | ⟨before, last, same⟩
  · rw [none_]
    rfl
  · rw [same, concat_eq_append, rewrite_concat]
    simp [labels k]

theorem mem_contentsOf {k : κ} {content : α} : content ∈ contentsOf entries k ↔ (k, content) ∈ entries := by
  constructor
  · intro member
    obtain ⟨⟨k', content'⟩, inside, rfl⟩ := mem_map.mp member
    obtain ⟨stored, own⟩ := mem_filter.mp inside
    have own : k' = k := of_decide_eq_true own
    exact own ▸ stored
  · intro member
    exact mem_map.mpr ⟨_, mem_filter.mpr ⟨member, decide_eq_true rfl⟩, rfl⟩

theorem Labels.of_written (labels : Labels write label name) {k : κ} {row : ρ}
    (written : k ∈ entries.map Prod.fst) (stored : (upsertAll write entries t)[k]? = some row) :
    ∃ e ∈ entries, e.1 = k ∧ name e.2 = label row := by
  obtain ⟨⟨k, content⟩, member, rfl⟩ := mem_map.mp written
  have labelled : (upsertAll write entries t)[k]?.map label = _ := labels.getElem? k
  rw [stored] at labelled
  cases last : (contentsOf entries k).getLast? with
  | none =>
    have empty : contentsOf entries k = [] := getLast?_eq_none_iff.mp last
    have there : content ∈ contentsOf entries k := mem_contentsOf.mpr member
    rw [empty] at there
    cases there
  | some found =>
    have there : found ∈ contentsOf entries k := mem_of_getLast? last
    rw [last] at labelled
    exact ⟨(k, found), mem_contentsOf.mp there, rfl, (Option.some.inj labelled).symm⟩

theorem Labels.kept_iff (labels : Labels write label name) (entries : List (κ × α)) (t : ExtTreeMap κ ρ cmp) :
    (∀ e ∈ entries, (upsertAll write entries t)[e.1]?.map label = some (name e.2)) ↔
    ∀ a ∈ entries, ∀ b ∈ entries, a.1 = b.1 → name a.2 = name b.2 := by
  constructor
  · intro kept a first b second same
    have left := kept a first
    rw [same, kept b second] at left
    exact (Option.some.inj left).symm
  · intro alike e member
    cases stored : (upsertAll write entries t)[e.1]? with
    | none =>
      have labelled : (upsertAll write entries t)[e.1]?.map label = _ := labels.getElem? e.1
      have there : e.2 ∈ contentsOf entries e.1 := mem_contentsOf.mpr member
      rw [stored] at labelled
      cases last : (contentsOf entries e.1).getLast? with
      | none => exact absurd there (by rw [getLast?_eq_none_iff.mp last]; exact not_mem_nil)
      | some found =>
        rw [last] at labelled
        cases labelled
    | some row =>
      obtain ⟨b, other, same, named⟩ := labels.of_written (mem_map_of_mem member) stored
      exact congrArg some (named.symm.trans (alike b other e member same))

theorem Labels.filter_iff [DecidableEq ν] (labels : Labels write label name)
    (keyed : ∀ e ∈ entries, e.1 = key (name e.2)) {shown : List (κ × ρ)} (distinct : (shown.map Prod.fst).Nodup)
    (stored : ∀ e, e ∈ shown ↔ (upsertAll write entries t)[e.1]? = some e.2) {n : ν} {e : κ × ρ} :
    shown.filter (fun e => e.1 ∈ entries.map Prod.fst ∧ label e.2 = n) = [e] ↔
    e ∈ shown ∧ e.1 ∈ entries.map Prod.fst ∧ label e.2 = n := by
  have own : ∀ e ∈ shown, e.1 ∈ entries.map Prod.fst → label e.2 = n → e.1 = key n := by
    rintro e member written rfl
    obtain ⟨entry, inside, same, named⟩ := labels.of_written written ((stored e).mp member)
    rw [← named, ← same, keyed entry inside]
  constructor
  · intro only
    have member : e ∈ shown.filter (fun e => e.1 ∈ entries.map Prod.fst ∧ label e.2 = n) := by
      rw [only]
      exact mem_singleton_self e
    obtain ⟨here, holds⟩ := mem_filter.mp member
    exact ⟨here, of_decide_eq_true holds⟩
  · rintro ⟨here, written, named⟩
    have each : ∀ other ∈ shown.filter (fun e => e.1 ∈ entries.map Prod.fst ∧ label e.2 = n), other = e := by
      intro other inside
      obtain ⟨there, holds⟩ := mem_filter.mp inside
      obtain ⟨otherWritten, otherNamed⟩ := of_decide_eq_true holds
      exact inj_on_of_nodup_map distinct there here
        ((own other there otherWritten otherNamed).trans (own e here written named).symm)
    have once : (shown.filter (fun e => e.1 ∈ entries.map Prod.fst ∧ label e.2 = n)).Nodup :=
      (Nodup.of_map _ distinct).filter _
    have member : e ∈ shown.filter (fun e => e.1 ∈ entries.map Prod.fst ∧ label e.2 = n) :=
      mem_filter.mpr ⟨here, decide_eq_true ⟨written, named⟩⟩
    exact perm_singleton.mp ((perm_ext_iff_of_nodup once (nodup_singleton e)).mpr (fun other =>
      ⟨fun inside => mem_singleton.mpr (each other inside), fun same => mem_singleton.mp same ▸ member⟩))

end

end Aeterna.Lib
