import Aeterna.Tenancy.DiffLocations

namespace Aeterna.Tenancy
open Lib (JsonValue)
open List

def pathOf (location : List Segment) : String := location.foldl (fun lead s => joinPath lead s.text) ""

def Located (current : Option JsonValue) (incoming : JsonValue) (location : List Segment) : Prop :=
  (∃ value ∈ current, (valueAt location value).isSome = true) ∨ (valueAt location incoming).isSome = true

def dotted (location : List Segment) : List Char := location.flatMap (fun s => '.' :: s.text.toList)

/-- No key is taken for something else: none is empty at the top, none is a number beside an index, and none
goes on behind a dot as a location does that is beside it. -/
structure Legible (current : Option JsonValue) (incoming : JsonValue) : Prop where
  top : ¬ Located current incoming [.key ""]
  numbers : ∀ p i, Located current incoming (p ++ [.index i]) → ¬ Located current incoming (p ++ [.key (toString i)])
  dots : ∀ p (s : Segment) t r r', Located current incoming (p ++ s :: r) →
    Located current incoming (p ++ .key (s.text ++ "." ++ t) :: r') →
    dotted r ≠ dotted (.key t :: r')

section
variable {current : Option JsonValue} {incoming : JsonValue}

theorem valueAt_append (p q : List Segment) (value : JsonValue) :
    valueAt (p ++ q) value = (valueAt p value).bind (valueAt q) := by
  induction p generalizing value with
  | nil => rfl
  | cons s rest ih =>
    rw [cons_append, valueAt, valueAt, Option.bind_assoc]
    exact congrArg _ (funext ih)

variable {p : List Segment} {s : Segment}

theorem Located.front {q : List Segment} (located : Located current incoming (p ++ q)) :
    Located current incoming p := by
  have prefix_ : ∀ value, (valueAt (p ++ q) value).isSome = true → (valueAt p value).isSome = true := by
    intro value there
    rw [valueAt_append] at there
    exact Option.isSome_of_isSome_bind there
  rcases located with ⟨value, member, there⟩ | there
  · exact .inl ⟨value, member, prefix_ value there⟩
  · exact .inr (prefix_ incoming there)

theorem located_root : Located current incoming [] := .inr rfl

theorem index_text (i : Nat) : '.' ∉ (Segment.index i).text.toList ∧ (Segment.index i).text ≠ "" := by
  show '.' ∉ (Nat.repr i).toList ∧ Nat.repr i ≠ ""
  constructor
  · intro dot
    rw [Nat.toList_repr] at dot
    have digit : Char.isDigit '.' = true := Nat.isDigit_of_mem_toDigits (by decide) (by decide) dot
    exact absurd digit (by decide)
  · intro empty
    have none := congrArg String.toList empty
    rw [Nat.toList_repr] at none
    exact Nat.toDigits_ne_nil none

theorem foldl_joinPath {lead : String} (some : lead ≠ "") (location : List Segment) :
    (location.foldl (fun lead s => joinPath lead s.text) lead).toList = lead.toList ++ dotted location := by
  induction location generalizing lead with
  | nil => simp [dotted]
  | cons s rest ih =>
    have joined : joinPath lead s.text = lead ++ "." ++ s.text := if_neg some
    have more : lead ++ "." ++ s.text ≠ "" := by
      intro empty
      have none := congrArg String.toList empty
      simp at none
    rw [foldl_cons, joined, ih more]
    simp [dotted]

theorem pathOf_cons (some : s.text ≠ "") (rest : List Segment) :
    '.' :: (pathOf (s :: rest)).toList = dotted (s :: rest) := by
  have first : joinPath "" s.text = s.text := if_pos rfl
  rw [pathOf, foldl_cons, first, foldl_joinPath some]
  simp [dotted]

theorem top_text (top : ¬ Located current incoming [.key ""]) {rest : List Segment}
    (located : Located current incoming (s :: rest)) : s.text ≠ "" := by
  cases s with
  | key name =>
    rintro rfl
    exact top (Located.front (p := [.key ""]) (q := rest) located)
  | index i => exact (index_text i).2

theorem dotted_of_path (top : ¬ Located current incoming [.key ""]) {l l' : List Segment}
    (here : Located current incoming l) (there : Located current incoming l') (same : pathOf l = pathOf l') :
    dotted l = dotted l' := by
  have empty : ∀ {s : Segment} {rest : List Segment}, Located current incoming (s :: rest) →
      pathOf (s :: rest) ≠ "" := by
    intro s rest located none
    have read := pathOf_cons (top_text top located) rest
    have some := top_text top located
    rw [none] at read
    simp only [dotted, flatMap_cons, cons_append, List.cons.injEq, true_and] at read
    have nothing := append_eq_nil_iff.mp read.symm
    exact some (String.toList_eq_nil_iff.mp nothing.1)
  cases l with
  | nil =>
    cases l' with
    | nil => rfl
    | cons s rest => exact absurd same.symm (empty there)
  | cons s rest =>
    cases l' with
    | nil => exact absurd same (empty here)
    | cons s' rest' => rw [← pathOf_cons (top_text top here), ← pathOf_cons (top_text top there), same]

theorem text_inj_index {i j : Nat} (same : (Segment.index i).text = (Segment.index j).text) : i = j := by
  have digits : Nat.toDigits 10 i = Nat.toDigits 10 j := by
    rw [← Nat.toList_repr, ← Nat.toList_repr]
    exact congrArg String.toList same
  have value := congrArg (fun l => Nat.ofDigitChars 10 l 0) digits
  simpa [Nat.ofDigitChars_toDigits] using value

theorem Legible.not_longer (legible : Legible current incoming) {r r' : List Segment} {s' : Segment}
    (here : Located current incoming (p ++ s :: r)) (there : Located current incoming (p ++ s' :: r'))
    {more : List Char} (longer : s'.text.toList = s.text.toList ++ more) (read : dotted r = more ++ dotted r') :
    more = [] := by
  cases more with
  | nil => rfl
  | cons x t =>
    have dot : x = '.' := by
      cases r with
      | nil => cases read
      | cons first rest =>
        obtain ⟨head, _⟩ := List.cons.inj read
        exact head.symm
    subst dot
    have text : s'.text = s.text ++ "." ++ String.ofList t := by
      apply String.toList_inj.mp
      rw [longer]
      simp
    cases s' with
    | index i =>
      refine absurd ?_ (index_text i).1
      rw [longer]
      exact mem_append_right _ mem_cons_self
    | key name =>
      obtain rfl : name = s.text ++ "." ++ String.ofList t := text
      refine absurd ?_ (legible.dots p s (String.ofList t) r r' here there)
      rw [read]
      simp [dotted, Segment.text]

theorem Legible.segment_eq (legible : Legible current incoming) {s' : Segment}
    (here : Located current incoming (p ++ [s])) (there : Located current incoming (p ++ [s']))
    (same : s.text = s'.text) : s = s' := by
  cases s with
  | key name =>
    cases s' with
    | key other => rw [show name = other from same]
    | index i =>
      obtain rfl : name = toString i := same
      exact absurd here (legible.numbers p i there)
  | index i =>
    cases s' with
    | key other =>
      obtain rfl : toString i = other := same
      exact absurd there (legible.numbers p i here)
    | index j => rw [text_inj_index same]

theorem Legible.dotted_inj (legible : Legible current incoming) {l l' : List Segment}
    (here : Located current incoming (p ++ l)) (there : Located current incoming (p ++ l'))
    (same : dotted l = dotted l') : l = l' := by
  induction l generalizing p l' with
  | nil =>
    cases l' with
    | nil => rfl
    | cons s' r' => cases same
  | cons s r ih =>
    cases l' with
    | nil => cases same
    | cons s' r' =>
      have split : s.text.toList ++ dotted r = s'.text.toList ++ dotted r' := (List.cons.inj same).2
      have texts : s.text = s'.text ∧ dotted r = dotted r' := by
        rcases append_eq_append_iff.mp split with ⟨more, longer, read⟩ | ⟨more, longer, read⟩
        · obtain rfl := legible.not_longer here there longer read
          exact ⟨String.toList_inj.mp (by simpa using longer.symm), read⟩
        · obtain rfl := legible.not_longer there here longer read
          exact ⟨String.toList_inj.mp (by simpa using longer), read.symm⟩
      rw [append_cons] at here there
      obtain rfl := legible.segment_eq here.front there.front texts.1
      rw [ih here there texts.2]

theorem pathOf_inj_iff : (∀ l l', Located current incoming l → Located current incoming l' → pathOf l = pathOf l' →
    l = l') ↔ Legible current incoming := by
  constructor
  · intro inj
    have top : ¬ Located current incoming [.key ""] := fun located => by cases inj _ _ located located_root rfl
    have read : ∀ {l}, l ≠ [] → Located current incoming l → '.' :: (pathOf l).toList = dotted l := by
      intro l some located
      obtain ⟨s, rest, rfl⟩ := exists_cons_of_ne_nil some
      exact pathOf_cons (top_text top located) rest
    have paths : ∀ {p l l'}, l ≠ [] → l' ≠ [] → Located current incoming (p ++ l) →
        Located current incoming (p ++ l') → dotted l = dotted l' → l = l' := by
      intro p l l' some some' here there same
      have whole := read (append_ne_nil_of_right_ne_nil p some) here
      have whole' := read (append_ne_nil_of_right_ne_nil p some') there
      have texts : dotted (p ++ l) = dotted (p ++ l') :=
        by simp only [dotted, flatMap_append] at same ⊢; rw [same]
      rw [texts, ← whole'] at whole
      exact append_cancel_left (inj _ _ here there (String.toList_inj.mp (List.cons.inj whole).2))
    refine ⟨top, fun p i here there => ?_, fun p s t r r' here there same => ?_⟩
    · cases paths (cons_ne_nil _ _) (cons_ne_nil _ _) here there rfl
    · have alike : dotted (s :: r) = dotted (.key (s.text ++ "." ++ t) :: r') := by
        simp only [dotted, flatMap_cons] at same ⊢
        rw [same]
        simp [Segment.text]
      obtain ⟨longer, _⟩ := List.cons.inj (paths (cons_ne_nil _ _) (cons_ne_nil _ _) here there alike)
      have text : s.text = s.text ++ "." ++ t := congrArg Segment.text longer
      have lengths := congrArg String.length text
      have dot : ".".length = 1 := rfl
      rw [String.length_append, String.length_append] at lengths
      omega
  · intro legible l l' here there same
    exact legible.dotted_inj (p := []) here there (dotted_of_path legible.top here there same)

theorem locations_nodup (a b : JsonValue) : ((differences a b).map LocatedChange.location).Nodup := by
  induction a using child_induct generalizing b with
  | step a ih =>
    rw [differences_eq]
    split
    · exact nodup_nil
    · cases parts : segments a b with
      | none => exact nodup_singleton _
      | some segs =>
        dsimp only
        rw [map_flatMap]
        have heads : ∀ s, ((memberDifferences (child s a) (child s b)).map (.below s)).map LocatedChange.location =
            ((memberDifferences (child s a) (child s b)).map LocatedChange.location).map (s :: ·) := by
          intro s
          rw [map_map, map_map]
          rfl
        apply nodup_flatMap.mpr
        constructor
        · intro s _
          rw [heads]
          apply List.Nodup.map (fun _ _ same => (List.cons.inj same).2)
          cases here : child s a with
          | none => cases child s b <;> simp [memberDifferences]
          | some x =>
            cases child s b with
            | none => simp [memberDifferences]
            | some y => exact ih s x here y
        · refine (segments_nodup parts).imp (fun {s t} apart => ?_)
          rw [Function.onFun_apply, heads, heads]
          intro location left right
          obtain ⟨_, _, rfl⟩ := mem_map.mp left
          obtain ⟨_, _, same⟩ := mem_map.mp right
          exact apart (List.cons.inj same).1.symm

theorem valueAt_stripEnvelope {location : List Segment} {value : JsonValue}
    (there : (valueAt location (stripEnvelope value)).isSome = true) :
    (valueAt location value).isSome = true := by
  cases location with
  | nil => rfl
  | cons s rest =>
    cases value with
    | object fields =>
      cases s with
      | index i => cases there
      | key name =>
        by_cases envelope : name ∈ envelopeKeys
        · have hidden : child (.key name) (stripEnvelope (.object fields)) = none := by
            rw [← Option.not_isSome_iff_eq_none]
            show ¬ (lookMember name (fields.filter (fun field => field.1 ∉ envelopeKeys))).isSome = true
            rw [lookMember_isSome]
            intro member
            obtain ⟨field, kept, rfl⟩ := mem_map.mp member
            exact of_decide_eq_true (mem_filter.mp kept).2 envelope
          rw [valueAt, hidden] at there
          cases there
        · have shown : child (.key name) (stripEnvelope (.object fields)) = child (.key name) (.object fields) :=
            member?_stripEnvelope envelope (.object fields)
          rwa [valueAt, shown] at there
    | _ => exact there

theorem located_of_change {c : LocatedChange}
    (member : c ∈ differences (comparedState current) (stripEnvelope incoming)) :
    Located current incoming c.location := by
  obtain ⟨before, after, added, removed⟩ := differences_between _ _ c member
  cases here : c.after with
  | some y => exact .inr (valueAt_stripEnvelope (by rw [← after, here]; rfl))
  | none =>
    cases there : c.before with
    | none => exact absurd ((removed.mpr here).symm.trans (added.mpr there)) (by decide)
    | some x =>
      rw [there] at before
      cases current with
      | some value => exact .inl ⟨value, rfl, valueAt_stripEnvelope (Option.isSome_iff_exists.mpr ⟨x, before.symm⟩)⟩
      | none =>
        cases place : c.location with
        | nil => exact located_root
        | cons s rest =>
          rw [place] at before
          cases s <;> cases before

end

/-- The paths of a diff tell its changes apart, and the locations of its documents, exactly if these are legible. -/
theorem paths_determine_iff (slug : String) (current : Option JsonValue) (incoming : JsonValue)
    (left : ∀ value ∈ current, value.distinct = true) (right : incoming.distinct = true) :
    (((computeDiff slug current incoming).changes.map FieldChange.path).Nodup ∧
        ∀ l l', Located current incoming l → Located current incoming l' → pathOf l = pathOf l' → l = l') ↔
          Legible current incoming := by
  rw [← pathOf_inj_iff]
  refine ⟨And.right, fun inj => ⟨?_, inj⟩⟩
  have paths : (computeDiff slug current incoming).changes.map FieldChange.path =
      ((differences (comparedState current) (stripEnvelope incoming)).map LocatedChange.location).map pathOf := by
    rw [computeDiff_changes slug left right, map_map, map_map]
    rfl
  rw [paths]
  apply Nodup.map_on _ (locations_nodup _ _)
  intro l member l' member' same
  obtain ⟨c, inside, rfl⟩ := mem_map.mp member
  obtain ⟨c', inside', rfl⟩ := mem_map.mp member'
  exact inj _ _ (located_of_change inside) (located_of_change inside') same

theorem paths_determine_iff_sample :
    (((computeDiff "acme" none (.object [("config", .array [.null])])).changes.map FieldChange.path).Nodup ∧
        ∀ l l', Located none (.object [("config", .array [.null])]) l →
          Located none (.object [("config", .array [.null])]) l' → pathOf l = pathOf l' → l = l') ↔
      Legible none (.object [("config", .array [.null])]) :=
  paths_determine_iff "acme" none (.object [("config", .array [.null])]) (fun _ none => by cases none) (by decide)

def dottedKey (value : String) : JsonValue := .object [("a.b", .string value), ("a", .object [("b", .string value)])]

theorem paths_collide : ¬ ∀ (slug : String) (current : Option JsonValue) (incoming : JsonValue),
    (∀ value ∈ current, value.distinct = true) →
    incoming.distinct = true → ((computeDiff slug current incoming).changes.map FieldChange.path).Nodup ∧
      ∀ l l', Located current incoming l → Located current incoming l' → pathOf l = pathOf l' → l = l' := by
  intro all
  have apart := (all "acme" (some (dottedKey "1")) (dottedKey "2") (fun value member => by cases member; decide)
      (by decide)).1
  have paths : (computeDiff "acme" (some (dottedKey "1")) (dottedKey "2")).changes.map FieldChange.path =
      ["a.b", "a.b"] := by decide +kernel
  rw [paths] at apart
  exact absurd apart (by decide)

end Aeterna.Tenancy
