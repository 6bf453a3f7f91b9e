import Mathlib.Data.String.Basic

/-!
File paths: texts with a slash between names, and the location such a text leads to from a directory.
-/

namespace Aeterna.Lib
open List

abbrev Location : Type := List String

structure PlainName (name : String) : Prop where
  nonempty : name ≠ ""
  notHere : name ≠ "."
  notUp : name ≠ ".."
  unsplit : '/' ∉ name.toList

def PlainLocation (location : Location) : Prop := ∀ name ∈ location, PlainName name

def pathNames (text : String) : List String := (text.toList.splitOn '/').map String.ofList

def joinNames (names : List String) : String := String.ofList (['/'].intercalate (names.map String.toList))

def enter (location : Location) (name : String) : Location :=
  if name = "" ∨ name = "." then location
  else if name = ".." then location.dropLast
  else location ++ [name]

def locate (directory : Location) (text : String) : Location :=
  (pathNames text).foldl enter (if text.toList.head? = some '/' then [] else directory)

theorem pathNames_joinNames {names : List String} (present : names ≠ []) (plain : PlainLocation names) :
    pathNames (joinNames names) = names := by
  have split : (['/'].intercalate (names.map String.toList)).splitOn '/' = names.map String.toList := by
    apply splitOn_intercalate
    · intro chars member
      obtain ⟨name, listed, rfl⟩ := mem_map.mp member
      exact (plain name listed).unsplit
    · simpa using present
  simp [pathNames, joinNames, split]

theorem joinNames_injective {a b : List String} (someA : a ≠ []) (someB : b ≠ []) (plainA : PlainLocation a)
    (plainB : PlainLocation b) (same : joinNames a = joinNames b) : a = b := by
  rw [← pathNames_joinNames someA plainA, same, pathNames_joinNames someB plainB]

theorem unsplit_of_mem_splitOn {chars piece : List Char} (member : piece ∈ chars.splitOn '/') : '/' ∉ piece := by
  induction chars generalizing piece with
  | nil => simp_all
  | cons c rest ih =>
    rw [splitOn_cons_eq_if_modifyHead] at member
    obtain ⟨first, others, shape⟩ := exists_cons_of_ne_nil (splitOn_ne_nil '/' rest)
    rw [shape] at member ih
    by_cases slash : c = '/'
    · simp only [slash, beq_self_eq_true, if_true, mem_cons] at member
      rcases member with rfl | member
      · simp
      · exact ih (mem_cons.mpr member)
    · have other : (c == '/') = false := by simpa using slash
      simp only [other, Bool.false_eq_true, if_false, modifyHead_cons, mem_cons] at member
      rcases member with rfl | member
      · have tail := ih mem_cons_self
        simp [tail, Ne.symm slash]
      · exact ih (mem_cons_of_mem _ member)

variable {name : String} {directory : Location}

theorem unsplit_of_mem_pathNames {text : String} (member : name ∈ pathNames text) : '/' ∉ name.toList := by
  obtain ⟨piece, split, rfl⟩ := mem_map.mp member
  simpa using unsplit_of_mem_splitOn split

theorem enter_plain {location : Location} (plain : PlainLocation location) (unsplit : '/' ∉ name.toList) :
    PlainLocation (enter location name) := by
  unfold enter
  split
  · exact plain
  · rename_i moves
    split
    · exact fun other member => plain other (dropLast_subset _ member)
    · rename_i down
      intro other member
      rcases mem_append.mp member with earlier | last
      · exact plain other earlier
      · rw [mem_singleton.mp last]
        exact ⟨fun empty => moves (Or.inl empty), fun here => moves (Or.inr here), down, unsplit⟩

theorem locate_plain (plain : PlainLocation directory) (text : String) : PlainLocation (locate directory text) := by
  have along : ∀ (names : List String) (location : Location), PlainLocation location →
      (∀ name ∈ names, '/' ∉ name.toList) → PlainLocation (names.foldl enter location) := by
    intro names
    induction names with
    | nil => exact fun location start _ => start
    | cons name rest ih =>
      intro location start unsplit
      exact ih _ (enter_plain start (unsplit name mem_cons_self))
        (fun other member => unsplit other (mem_cons_of_mem _ member))
  unfold locate
  apply along
  · split
    · exact fun _ member => absurd member (not_mem_nil)
    · exact plain
  · exact fun name member => unsplit_of_mem_pathNames member

theorem enter_of_plain {location : Location} (plain : PlainName name) : enter location name = location ++ [name] := by
  unfold enter
  rw [if_neg (not_or.mpr ⟨plain.nonempty, plain.notHere⟩), if_neg plain.notUp]

theorem locate_joinNames {names : List String} (present : names ≠ []) (plain : PlainLocation names) :
    locate directory (joinNames names) = directory ++ names := by
  have along : ∀ (names : List String) (location : Location), PlainLocation names →
      names.foldl enter location = location ++ names := by
    intro names
    induction names with
    | nil => exact fun location _ => (append_nil location).symm
    | cons name rest ih =>
      intro location plain
      rw [foldl_cons, enter_of_plain (plain name mem_cons_self),
        ih _ (fun other member => plain other (mem_cons_of_mem _ member)), append_assoc]
      rfl
  have relative : (joinNames names).toList.head? ≠ some '/' := by
    obtain ⟨first, rest, rfl⟩ := exists_cons_of_ne_nil present
    have name := plain first mem_cons_self
    obtain ⟨c, tail, shape⟩ := exists_cons_of_ne_nil (show first.toList ≠ [] by simpa using name.nonempty)
    have different : c ≠ '/' := by
      intro same
      apply name.unsplit
      rw [shape, same]
      exact mem_cons_self
    cases rest <;> simp [joinNames, intercalate, shape, different]
  unfold locate
  rw [if_neg relative, pathNames_joinNames present plain, along names directory plain]

theorem locate_name (plain : PlainName name) : locate directory name = directory ++ [name] := by
  have single : joinNames [name] = name := by
    simp [joinNames, intercalate]
  rw [← single, locate_joinNames (by simp), single]
  intro other member
  rw [mem_singleton.mp member]
  exact plain

theorem splitOn_append_unsplit (front : List Char) {back : List Char} (unsplit : '/' ∉ back) :
    ∃ init piece, (front ++ back).splitOn '/' = init ++ [piece ++ back] := by
  induction front with
  | nil => exact ⟨[], [], by simpa using splitOn_eq_singleton unsplit⟩
  | cons c rest ih =>
    obtain ⟨init, piece, shape⟩ := ih
    rw [cons_append, splitOn_cons_eq_if_modifyHead, shape]
    split
    · exact ⟨[] :: init, piece, rfl⟩
    · cases init with
      | nil => exact ⟨[], c :: piece, rfl⟩
      | cons first others => exact ⟨(c :: first) :: others, piece, rfl⟩

theorem locate_append (directory : Location) (text : String) (extension : String) (unsplit : '/' ∉ extension.toList)
    (long : 2 < extension.length) : ∃ parent stem, locate directory (text ++ extension) = parent ++
      [stem ++ extension] := by
  obtain ⟨init, piece, shape⟩ := splitOn_append_unsplit text.toList unsplit
  have names : pathNames (text ++ extension) = init.map String.ofList ++ [String.ofList piece ++ extension] := by
    simp [pathNames, String.toList_append, shape, String.ofList_append]
  have length : 2 < (String.ofList piece ++ extension).length := by
    rw [String.length_append]
    omega
  have entered : ∀ location, enter location (String.ofList piece ++ extension) =
      location ++ [String.ofList piece ++ extension] := by
    intro location
    unfold enter
    rw [if_neg ?_, if_neg ?_]
    · intro same
      rw [same] at length
      exact absurd length (by decide)
    · rintro (same | same)
      · rw [same] at length
        exact absurd length (by decide)
      · rw [same] at length
        exact absurd length (by decide)
  unfold locate
  rw [names, foldl_append]
  exact ⟨_, _, entered _⟩

end Aeterna.Lib
