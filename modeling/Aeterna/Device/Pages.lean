import Aeterna.Device.Entries
import Aeterna.Lib.Paging

namespace Aeterna.Device
open Lib List

theorem digits_isDigit (n : Nat) : (Nat.toDigits 10 n).all Char.isDigit = true :=
  all_eq_true.mpr (fun _ member => Nat.isDigit_of_mem_toDigits (by decide) (by decide) member)

theorem splitSign_digits (n : Nat) : splitSign (Nat.toDigits 10 n) = (false, Nat.toDigits 10 n) := by
  have digit := digits_isDigit n
  unfold splitSign
  split
  · rename_i shape
    rw [shape] at digit
    exact absurd digit (by simp)
  · rename_i shape
    rw [shape] at digit
    exact absurd digit (by simp)
  · rfl

theorem parseI64_toString (t : Int64) : parseI64 (toString t) = some t := by
  have low := t.le_toInt
  have high := t.toInt_lt
  have own : Int64.ofInt t.toInt = t := Int64.ofInt_toInt t
  have shown : toString t = Int.repr t.toInt := rfl
  unfold parseI64
  cases value : t.toInt with
  | ofNat n =>
    rw [value] at low high own shown
    have text : (toString t).toList = Nat.toDigits 10 n := by rw [shown]; simp [Int.repr, Nat.repr]
    have whole := Nat.ofDigitChars_toDigits (b := 10) (n := n) (by decide) (by decide)
    have bounded : (-2 ^ 63 ≤ (n : Int)) ∧ (n : Int) < 2 ^ 63 := ⟨low, high⟩
    rw [text, splitSign_digits]
    simp only [whole, Bool.false_eq_true, if_false]
    rw [if_pos ⟨Nat.toDigits_ne_nil, digits_isDigit n, bounded⟩]
    exact congrArg some own
  | negSucc n =>
    rw [value] at low high own shown
    have text : (toString t).toList = '-' :: Nat.toDigits 10 (n + 1) := by rw [shown]; simp [Int.repr, Nat.repr]
    have whole := Nat.ofDigitChars_toDigits (b := 10) (n := n + 1) (by decide) (by decide)
    have bounded : (-2 ^ 63 ≤ -((n + 1 : Nat) : Int)) ∧ -((n + 1 : Nat) : Int) < 2 ^ 63 := ⟨low, high⟩
    rw [text]
    simp only [splitSign, whole, if_true]
    rw [if_pos ⟨Nat.toDigits_ne_nil, digits_isDigit (n + 1), bounded⟩]
    exact congrArg some own

namespace Chrono
variable (chrono : Chrono)

def reparse (t : Int64) : Int64 := (chrono.parseTimestamp (chrono.formatTimestamp t)).getD 0

theorem reparse_eq (t : Int64) : chrono.reparse t = t ∨ chrono.reparse t = 0 := by
  unfold reparse formatTimestamp parseTimestamp
  cases shown : chrono.toRfc3339 t with
  | none =>
    have number := parseI64_toString t
    rw [Option.getD_none, chrono.number_not_own _ _ number, number]
    exact Or.inl rfl
  | some s =>
    rw [Option.getD_some, chrono.own_not_number t s shown]
    rcases chrono.parse_own t s shown with read | unread
    · rw [read]
      exact Or.inl rfl
    · rw [unread]
      exact Or.inr rfl

end Chrono

section
variable (chrono : Chrono) (collation : Collation) (decimalDigit : Char → Bool) (tenant : String)
  (table : MemoryEntries)
  (query : SyncPullQuery)

def pullAll : Nat → SyncPullQuery → Option (List SyncPullEntry)
  | 0, _ => none
  | fuel + 1, query =>
    let response := pullHandler chrono collation decimalDigit tenant table query
    if response.hasMore then
      (pullAll fuel { query with sinceCursor := some response.cursor }).map (response.entries ++ ·)
    else some response.entries

def liveRows : List (String × EntryRow) :=
  (table.rows.filter (fun row => row.2.tenantId = tenant ∧ row.2.deletedAt = none)).mergeSort collation.rowLe

def SyncPullQuery.window : Nat := ((query.pageLimit + 1) * 2).toInt.toNat

def fetched (cursor : Int) : List (String × EntryRow) :=
  (((liveRows collation tenant table).filter (fun row => cursor < row.2.updatedAt.toInt)).take query.window).filter
    (fun row => row.2.memoryLayer ∈ query.layerSet)

theorem rowLe_iff {a b : String × EntryRow} : collation.rowLe a b = true ↔ a.2.updatedAt.toInt < b.2.updatedAt.toInt ∨
      a.2.updatedAt.toInt = b.2.updatedAt.toInt ∧ collation.le a.1 b.1 = true := by
  simp only [Collation.rowLe, Bool.or_eq_true, Bool.and_eq_true, decide_eq_true_eq, Int64.lt_iff_toInt_lt,
    Int64.toInt_inj]

theorem rowLe_total (a b : String × EntryRow) : (collation.rowLe a b || collation.rowLe b a) = true := by
  have texts := collation.total a.1 b.1
  rw [Bool.or_eq_true] at texts ⊢
  rw [rowLe_iff, rowLe_iff]
  rcases Int.lt_trichotomy a.2.updatedAt.toInt b.2.updatedAt.toInt with less | same | more
  · exact Or.inl (Or.inl less)
  · exact texts.imp (fun le => Or.inr ⟨same, le⟩) (fun le => Or.inr ⟨same.symm, le⟩)
  · exact Or.inr (Or.inl more)

theorem rowLe_trans (a b c : String × EntryRow) (first : collation.rowLe a b = true)
    (second : collation.rowLe b c = true) :
    collation.rowLe a c = true := by
  rw [rowLe_iff] at first second ⊢
  rcases first with first | ⟨same, le⟩ <;> rcases second with second | ⟨same', le'⟩
  · exact Or.inl (by omega)
  · exact Or.inl (by omega)
  · exact Or.inl (by omega)
  · exact Or.inr ⟨by omega, collation.trans _ _ _ le le'⟩

theorem rowLe_antisymm {a b : String × EntryRow} (first : a ∈ table.rows) (second : b ∈ table.rows)
    (le : collation.rowLe a b = true) (ge : collation.rowLe b a = true) : a = b := by
  rw [rowLe_iff] at le ge
  have ids : a.1 = b.1 := by
    rcases le with less | ⟨same, le⟩ <;> rcases ge with more | ⟨same', ge⟩
    · omega
    · omega
    · omega
    · exact collation.antisymm _ _ le ge
  exact inj_on_of_nodup_map table.unique first second ids

theorem selected_eq (since : Int64) : selected collation tenant since table =
    (liveRows collation tenant table).filter (fun row => since.toInt < row.2.updatedAt.toInt) := by
  have sorted : ∀ l : List (String × EntryRow), (l.mergeSort collation.rowLe).Pairwise (collation.rowLe · ·) :=
    pairwise_mergeSort (rowLe_trans collation) (rowLe_total collation)
  have same : (table.rows.filter fun row => row.2.tenantId = tenant ∧ since < row.2.updatedAt ∧
      row.2.deletedAt = none) =
      (table.rows.filter fun row => row.2.tenantId = tenant ∧ row.2.deletedAt = none).filter
        (fun row => since.toInt < row.2.updatedAt.toInt) := by
    rw [filter_filter]
    refine filter_congr (fun row _ => ?_)
    have order : since < row.2.updatedAt ↔ since.toInt < row.2.updatedAt.toInt := Int64.lt_iff_toInt_lt
    simp only [order]
    by_cases later : since.toInt < row.2.updatedAt.toInt <;> simp [later]
  refine Perm.eq_of_pairwise ?_ (sorted _) ((sorted _).sublist filter_sublist) ?_
  · intro a b first second le ge
    have inside : ∀ {row}, row ∈ selected collation tenant since table → row ∈ table.rows :=
      fun member => mem_of_mem_filter (mem_mergeSort.mp member)
    have inside' : ∀ {row}, row ∈ liveRows collation tenant table → row ∈ table.rows :=
      fun member => mem_of_mem_filter (mem_mergeSort.mp member)
    exact rowLe_antisymm collation table (inside first) (inside' (mem_of_mem_filter second)) le ge
  · refine (mergeSort_perm _ _).trans ?_
    rw [same]
    exact ((mergeSort_perm _ _).filter _).symm

def pages : Pager (String × EntryRow) String where
  rows := (liveRows collation tenant table).filter (fun row => row.2.memoryLayer ∈ query.layerSet)
  key := fun row => row.2.updatedAt.toInt
  name := Prod.fst
  sorted := by
    refine List.Pairwise.sublist filter_sublist (List.Pairwise.imp ?_
      (pairwise_mergeSort (rowLe_trans collation) (rowLe_total collation) _))
    intro a b le
    rcases (rowLe_iff collation).mp le with less | ⟨same, -⟩ <;> omega
  unique := by
    refine Nodup.sublist (List.Sublist.map _ filter_sublist) ?_
    refine ((mergeSort_perm _ _).map Prod.fst).nodup_iff.mpr ?_
    exact table.unique.sublist (List.Sublist.map _ filter_sublist)
  size := query.pageLimit.toInt.toNat
  positive := by
    show 0 < (if query.limit ≤ 1 then (1 : Int64) else query.limit).toInt.toNat
    split
    · decide
    · rename_i above
      rw [Int64.le_iff_toInt_le] at above
      have one : (1 : Int64).toInt = 1 := by decide
      omega
  seen := fun cursor => (fetched collation tenant table query cursor).length
  mark := fun key => (chrono.reparse (Int64.ofInt key)).toInt
  mark_eq := by
    intro row
    rw [Int64.ofInt_toInt]
    rcases chrono.reparse_eq row.2.updatedAt with same | zero
    · exact Or.inl (congrArg _ same)
    · exact Or.inr (congrArg _ zero)

theorem visible_eq (cursor : Int) :
    (pages chrono collation tenant table query).visible cursor = fetched collation tenant table query cursor := by
  have behind : (pages chrono collation tenant table query).behind cursor =
      ((liveRows collation tenant table).filter (fun row => cursor < row.2.updatedAt.toInt)).filter
        (fun row => row.2.memoryLayer ∈ query.layerSet) := filter_comm ..
  have first : fetched collation tenant table query cursor <+:
      (pages chrono collation tenant table query).behind cursor := by
    rw [behind]
    exact ( take_prefix _ _).filter _
  exact (prefix_iff_eq_take.mp first).symm

theorem sqlLimit_getD {α : Type} (limit : Int64) (rows : List α) :
    (sqlLimit limit rows).getD [] = rows.take limit.toInt.toNat := by
  unfold sqlLimit
  split
  · rename_i negative
    rw [Int64.lt_iff_toInt_lt] at negative
    have zero : (0 : Int64).toInt = 0 := by decide
    have none : limit.toInt.toNat = 0 := by omega
    rw [none]
    rfl
  · rfl

theorem pullHandler_eq : ∃ next : Int64,
    next.toInt = (pages chrono collation tenant table query).next query.since.toInt ∧
    pullHandler chrono collation decimalDigit tenant table query =
      { entries := ((pages chrono collation tenant table query).page query.since.toInt).map (pullEntry chrono decimalDigit)
        cursor := toString next
        hasMore := (pages chrono collation tenant table query).more query.since.toInt } := by
  have matching : ((sqlLimit ((query.pageLimit + 1) * 2)
      (selected collation tenant query.since table)).getD []).filter
      (fun row => row.2.memoryLayer ∈ query.layerSet) =
        (pages chrono collation tenant table query).visible query.since.toInt := by
    rw [sqlLimit_getD, selected_eq, visible_eq]
    rfl
  have page : ((pages chrono collation tenant table query).visible query.since.toInt).take query.pageLimit.toInt.toNat =
      (pages chrono collation tenant table query).page query.since.toInt := rfl
  have cursor : ∀ entry : Option (String × EntryRow),
      ((entry.map (pullEntry chrono decimalDigit)).elim query.since
        (fun entry => (chrono.parseTimestamp entry.updatedAt).getD 0)).toInt =
      entry.elim query.since.toInt (fun row => (chrono.reparse (Int64.ofInt row.2.updatedAt.toInt)).toInt) := by
    intro entry
    cases entry with
    | none => rfl
    | some row => rw [Option.elim_some, Int64.ofInt_toInt]; rfl
  refine ⟨_, (cursor _).trans rfl, ?_⟩
  rw [← getLast?_map]
  unfold pullHandler
  simp only [matching, page]
  rfl

theorem pullAll_eq (fuel : Nat) : pullAll chrono collation decimalDigit tenant table fuel query =
    ((pages chrono collation tenant table query).pull fuel query.since.toInt).map
      (·.map (pullEntry chrono decimalDigit)) := by
  induction fuel generalizing query with
  | zero => rfl
  | succ fuel ih =>
    obtain ⟨next, value, response⟩ := pullHandler_eq chrono collation decimalDigit tenant table query
    have since : ({ query with sinceCursor := some (toString next) } : SyncPullQuery).since = next := by
      show ((parseI64 (toString next)).getD 0) = next
      rw [parseI64_toString]
      rfl
    have later := ih { query with sinceCursor := some (toString next) }
    rw [since, value] at later
    unfold pullAll Pager.pull
    rw [response]
    dsimp only
    split
    · rw [later, Option.map_map, Option.map_map]
      refine congrArg (fun f => Option.map f _) (funext fun rows => ?_)
      exact map_append.symm
    · rfl

/-- What a device asks for: the rows of the tenant in the requested layers that were updated behind the cursor
and are not deleted. -/
def Requested (row : String × EntryRow) : Prop :=
  row ∈ table.rows ∧ row.2.tenantId = tenant ∧ row.2.deletedAt = none ∧ row.2.memoryLayer ∈ query.layerSet ∧
    query.since < row.2.updatedAt

theorem mem_behind_pages {row : String × EntryRow} :
    row ∈ (pages chrono collation tenant table query).behind query.since.toInt ↔
      Requested tenant table query row := by
  rw [Pager.mem_behind]
  show row ∈ filter _ (liveRows collation tenant table) ∧ query.since.toInt < row.2.updatedAt.toInt ↔ _
  rw [mem_filter, liveRows, mem_mergeSort, mem_filter, ← Int64.lt_iff_toInt_lt]
  simp only [Requested, decide_eq_true_eq]
  tauto

theorem complete_entries_iff {out : List (String × EntryRow)} :
    (pages chrono collation tenant table query).Complete query.since.toInt out ↔
      ∀ row, Requested tenant table query row →
        (((out.map (pullEntry chrono decimalDigit)).map (·.id)).count row.1 = 1) := by
  have names : (out.map (pullEntry chrono decimalDigit)).map (·.id) = out.map Prod.fst := by
    rw [map_map]
    rfl
  rw [names]
  exact forall_congr' fun row => by rw [mem_behind_pages]; rfl

theorem pulled_iff : (∃ fuel entries, pullAll chrono collation decimalDigit tenant table fuel query = some entries ∧
      ∀ row, Requested tenant table query row → (entries.map (·.id)).count row.1 = 1) ↔
    (pages chrono collation tenant table query).Fits query.since.toInt := by
  rw [← Pager.complete_iff]
  constructor
  · rintro ⟨fuel, entries, pulled, complete⟩
    rw [pullAll_eq] at pulled
    obtain ⟨out, went, rfl⟩ := Option.map_eq_some_iff.mp pulled
    exact ⟨fuel, out, went, (complete_entries_iff chrono collation decimalDigit tenant table query).mpr complete⟩
  · rintro ⟨fuel, out, went, complete⟩
    refine ⟨fuel, out.map (pullEntry chrono decimalDigit), ?_,
      (complete_entries_iff chrono collation decimalDigit tenant table query).mp complete⟩
    rw [pullAll_eq, went]
    rfl

/-- All pages together bring every requested row once if and only if the pages fit: no page ends between two
rows that were updated at one time, or with a row whose time is not read back, and what the statement behind
each page fetches has enough rows of the requested layers. -/
theorem pull_complete_iff : (∃ fuel entries, pullAll chrono collation decimalDigit tenant table fuel query =
    some entries ∧ ∀ row, Requested tenant table query row → (entries.map (·.id)).count row.1 = 1) ↔
    (pages chrono collation tenant table query).Fits query.since.toInt :=
  pulled_iff chrono collation decimalDigit tenant table query

end

def codePoints : Collation where
  le a b := decide (a ≤ b)
  total a b := by simpa using le_total a b
  trans a b c := by simpa using fun le le' => le_trans le le'
  antisymm a b := by simpa using fun le ge => le_antisymm le ge

def twin (content : String) : EntryRow where
  tenantId := "acme"
  content := content
  memoryLayer := "team"
  properties := none
  importanceScore := none
  deviceId := none
  createdAt := 5
  updatedAt := 5
  deletedAt := none

/-- Two memories that were updated at one time. -/
def twins : MemoryEntries where
  rows := [("first", twin "one"), ("second", twin "two")]
  unique := by decide

def oneByOne : SyncPullQuery where
  sinceCursor := none
  layers := none
  limit := 1

theorem twins_miss_one : ¬ ∃ fuel entries,
    pullAll sampleChrono codePoints Char.isDigit "acme" twins fuel oneByOne = some entries ∧
      ∀ row, Requested "acme" twins oneByOne row → (entries.map (·.id)).count row.1 = 1 := by
  rw [pulled_iff]
  intro fits
  have behind : (pages sampleChrono codePoints "acme" twins oneByOne).behind oneByOne.since.toInt =
      [("first", twin "one"), ("second", twin "two")] := by
    have live : liveRows codePoints "acme" twins = twins.rows := by
      rw [liveRows, filter_eq_self.mpr (by decide)]
      exact mergeSort_of_pairwise (by decide)
    show filter _ (filter _ (liveRows codePoints "acme" twins)) = twins.rows
    rw [live, filter_eq_self.mpr (by decide), filter_eq_self.mpr (by decide)]
  obtain ⟨low, high, -⟩ := fits.breaks [] _ _ _ behind ⟨1, rfl⟩
  have left := (pages sampleChrono codePoints "acme" twins oneByOne).mark_eq ("first", twin "one")
  have first : (pages sampleChrono codePoints "acme" twins oneByOne).key ("first", twin "one") = 5 := by decide
  have second : (pages sampleChrono codePoints "acme" twins oneByOne).key ("second", twin "two") = 5 := by decide
  omega

end Aeterna.Device
