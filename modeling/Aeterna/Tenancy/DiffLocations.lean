import Aeterna.Tenancy.Documents
import Mathlib.Data.List.Perm.Subperm

namespace Aeterna.Tenancy
open Lib (JsonValue)
open List Option

inductive Segment where
  | key (name : String)
  | index (i : Nat)
  deriving DecidableEq

def Segment.text : Segment → String
  | key name => name
  | index i => toString i

def child : Segment → JsonValue → Option JsonValue
  | .key name, .object fields => lookMember name fields
  | .index i, .array items => items[i]?
  | _, _ => none

def valueAt : List Segment → JsonValue → Option JsonValue
  | [], value => some value
  | s :: rest, value => (child s value).bind (valueAt rest)

variable {s : Segment} {value x a b : JsonValue} {fields others : List (String × JsonValue)}

theorem sizeOf_child (here : child s value = some x) : sizeOf x < sizeOf value := by
  cases value with
  | array items =>
    cases s with
    | key name => cases here
    | index i =>
      have smaller := sizeOf_lt_of_mem (mem_of_getElem? here)
      simp only [JsonValue.array.sizeOf_spec]
      omega
  | object fields =>
    cases s with
    | key name =>
      have smaller := sizeOf_lt_of_mem (mem_of_lookMember here)
      simp only [JsonValue.object.sizeOf_spec, Prod.mk.sizeOf_spec] at smaller ⊢
      omega
    | index i => cases here
  | _ => cases s <;> cases here

theorem distinct_child (distinct : value.distinct = true) (here : child s value = some x) : x.distinct = true := by
  cases value with
  | array items =>
    cases s with
    | key name => cases here
    | index i => exact JsonValue.distinct_array.mp distinct x (mem_of_getElem? here)
  | object fields =>
    cases s with
    | key name => exact (JsonValue.distinct_object.mp distinct).2 _ (mem_of_lookMember here)
    | index i => cases here
  | _ => cases s <;> cases here

def segments : JsonValue → JsonValue → Option (List Segment)
  | .object before, .object after =>
      some ((((before.map Prod.fst ++ after.map Prod.fst).dedup).insertionSort (· ≤ ·)).map Segment.key)
  | .array before, .array after => some ((range (max before.length after.length)).map Segment.index)
  | _, _ => none

def Same : JsonValue → JsonValue → Prop := SameUpTo (fun _ => false)

theorem same_children (same : Same a b) (s : Segment) : Option.Rel Same (child s a) (child s b) := by
  cases same with
  | @array items others length each =>
    cases s with
    | key name => exact .none
    | index i =>
      by_cases below : i < items.length
      · have below' := length ▸ below
        show Option.Rel Same items[i]? others[i]?
        rw [getElem?_eq_getElem below, getElem?_eq_getElem below']
        exact .some (each i _ _ (getElem?_eq_getElem below) (getElem?_eq_getElem below'))
      · show Option.Rel Same items[i]? others[i]?
        rw [getElem?_eq_none (by omega), getElem?_eq_none (by omega)]
        exact .none
  | @object fields others keys each =>
    cases s with
    | key name =>
      show Option.Rel Same (lookMember name fields) (lookMember name others)
      have present := keys name
      cases here : lookMember name fields <;> cases there : lookMember name others
      · exact .none
      · simp [here, there] at present
      · simp [here, there] at present
      · exact .some (each name _ _ rfl here there)
    | index i => exact .none
  | _ => cases s <;> exact .none

theorem isSome_of_rel {o o' : Option JsonValue} (related : Option.Rel Same o o') : o.isSome = o'.isSome := by
  cases related <;> rfl

theorem isSome_item (items : List JsonValue) (i : Nat) : items[i]?.isSome = true ↔ i < items.length := by
  rw [isSome_iff_ne_none, ne_eq, List.getElem?_eq_none_iff, Nat.not_le]

theorem same_of_children (both : (segments a b).isSome = true)
    (each : ∀ s, Option.Rel Same (child s a) (child s b)) : Same a b := by
  have values : ∀ {o o' : Option JsonValue} {x y : JsonValue}, Option.Rel Same o o' → o = some x → o' = some y →
      Same x y := by
    intro o o' x y related here there
    subst here there
    cases related
    assumption
  unfold segments at both
  split at both
  · rename_i before after
    exact .object (fun key => isSome_of_rel (each (.key key)))
      (fun key x y _ here there => values (each (.key key)) here there)
  · rename_i before after
    refine .array ?_ (fun i x y here there => values (each (.index i)) here there)
    have lengths : ∀ i, i < before.length ↔ i < after.length := by
      intro i
      have same := isSome_of_rel (each (.index i))
      simp only [child] at same
      rw [← isSome_item, ← isSome_item, same]
    have first := lengths before.length
    have second := lengths after.length
    omega
  · cases both

theorem Same.symm (same : Same a b) : Same b a := by
  induction same with
  | null => exact .null
  | bool b => exact .bool b
  | number text => exact .number text
  | string text => exact .string text
  | array length _ ih => exact .array length.symm (fun i x y here there => ih i y x there here)
  | object keys _ ih =>
    exact .object (fun key => (keys key).symm)
      (fun key x y shown here there => ih key y x shown there here)

theorem sameFields_iff : sameFields fields others = true ↔
    ∀ field ∈ fields, ∃ b, lookMember field.1 others = some b ∧ sameValue field.2 b = true := by
  induction fields with
  | nil => simp [sameFields]
  | cons field rest ih =>
    obtain ⟨key, a⟩ := field
    rw [sameFields, Bool.and_eq_true, ih, forall_mem_cons]
    apply and_congr _ Iff.rfl
    cases lookMember key others with
    | none => simp
    | some b => simp

theorem sameItems_iff {items others : List JsonValue} : sameItems items others = true ↔
    items.length = others.length ∧ ∀ (i : Nat) (a b : JsonValue), items[i]? = some a → others[i]? = some b →
      sameValue a b = true := by
  induction items generalizing others with
  | nil =>
    cases others with
    | nil => simp [sameItems]
    | cons => simp [sameItems]
  | cons a rest ih =>
    cases others with
    | nil => simp [sameItems]
    | cons b rest' =>
      rw [sameItems, Bool.and_eq_true, ih, length_cons, length_cons, Nat.add_right_cancel_iff]
      constructor
      · rintro ⟨head, length, tail⟩
        refine ⟨length, fun i x y here there => ?_⟩
        cases i with
        | zero =>
          cases here
          cases there
          exact head
        | succ i => exact tail i x y here there
      · rintro ⟨length, each⟩
        exact ⟨each 0 a b rfl rfl, length, fun i x y here there => each (i + 1) x y here there⟩

theorem sameValue_array {items others : List JsonValue}
    (each : ∀ (i : Nat) (x y : JsonValue), items[i]? = some x → others[i]? = some y →
      (sameValue x y = true ↔ Same x y)) :
    sameValue (.array items) (.array others) = true ↔ Same (.array items) (.array others) := by
  rw [sameValue, sameItems_iff, Same, sameUpTo_array]
  apply and_congr Iff.rfl
  exact forall₅_congr each

theorem keys_iff (nodup : (fields.map Prod.fst).Nodup) (nodup' : (others.map Prod.fst).Nodup) :
    fields.length = others.length ∧ (∀ field ∈ fields, (lookMember field.1 others).isSome = true) ↔
      ∀ key, (lookMember key fields).isSome = (lookMember key others).isSome := by
  constructor
  · rintro ⟨length, each⟩ key
    have into : fields.map Prod.fst ⊆ others.map Prod.fst := by
      intro key member
      obtain ⟨field, here, rfl⟩ := List.mem_map.mp member
      exact lookMember_isSome.mp (each field here)
    have perm : (fields.map Prod.fst).Perm (others.map Prod.fst) :=
      (subperm_of_subset nodup into).perm_of_length_le (by simp [length])
    rw [Bool.eq_iff_iff, lookMember_isSome, lookMember_isSome, perm.mem_iff]
  · intro keys
    have members : ∀ key, key ∈ fields.map Prod.fst ↔ key ∈ others.map Prod.fst := by
      intro key
      rw [← lookMember_isSome, ← lookMember_isSome, keys key]
    have perm := (perm_ext_iff_of_nodup nodup nodup').mpr members
    refine ⟨by simpa using perm.length_eq, fun field member => ?_⟩
    exact lookMember_isSome.mpr ((members field.1).mp (List.mem_map_of_mem member))

theorem sameValue_object (nodup : (fields.map Prod.fst).Nodup) (nodup' : (others.map Prod.fst).Nodup)
    (each : ∀ key x y, lookMember key fields = some x → lookMember key others = some y →
    (sameValue x y = true ↔ Same x y)) :
    sameValue (.object fields) (.object others) = true ↔ Same (.object fields) (.object others) := by
  rw [sameValue, Bool.and_eq_true, beq_iff_eq, sameFields_iff, Same, sameUpTo_object, ← keys_iff nodup nodup']
  constructor
  · rintro ⟨length, found⟩
    refine ⟨⟨length, fun field member => ?_⟩, fun key x y _ here there => ?_⟩
    · obtain ⟨b, there, _⟩ := found field member
      exact there ▸ rfl
    · obtain ⟨b, there', same⟩ := found (key, x) (mem_of_lookMember here)
      cases there.symm.trans there'
      exact (each key x y here there).mp same
  · rintro ⟨⟨length, keys⟩, same⟩
    refine ⟨length, fun field member => ?_⟩
    have here := lookMember_of_mem nodup (show (field.1, field.2) ∈ fields from member)
    obtain ⟨b, there⟩ := isSome_iff_exists.mp (keys field member)
    exact ⟨b, there, (each _ _ _ here there).mpr (same _ _ _ rfl here there)⟩

theorem sameValue_scalar {other : JsonValue} (items : ∀ items, value ≠ .array items)
    (fields : ∀ fields, value ≠ .object fields) : sameValue value other = true ↔ Same value other := by
  rw [Same, sameUpTo_scalar items fields]
  cases value with
  | array list => exact absurd rfl (items list)
  | object list => exact absurd rfl (fields list)
  | _ => cases other <;> simp [sameValue]

/-- `==` on documents without repeated keys. -/
theorem sameValue_iff (left : a.distinct = true) (right : b.distinct = true) : sameValue a b = true ↔ Same a b := by
  induction a using JsonValue.induct generalizing b with
  | array items ih =>
    have inner := JsonValue.distinct_array.mp left
    cases b with
    | array others =>
      have inner' := JsonValue.distinct_array.mp right
      apply sameValue_array
      intro i x y here there
      have known := mem_of_getElem? here
      exact ih x known (inner x known) (inner' y (mem_of_getElem? there))
    | _ => exact iff_of_false (by simp [sameValue]) (fun same => by cases same)
  | object fields ih =>
    obtain ⟨nodup, inner⟩ := JsonValue.distinct_object.mp left
    cases b with
    | object others =>
      obtain ⟨nodup', inner'⟩ := JsonValue.distinct_object.mp right
      apply sameValue_object nodup nodup'
      intro key x y here there
      have known := mem_of_lookMember here
      exact ih _ known (inner _ known) (inner' _ (mem_of_lookMember there))
    | _ => exact iff_of_false (by simp [sameValue]) (fun same => by cases same)
  | null => exact sameValue_scalar (by simp) (by simp)
  | bool x => exact sameValue_scalar (by simp) (by simp)
  | number text => exact sameValue_scalar (by simp) (by simp)
  | string text => exact sameValue_scalar (by simp) (by simp)

structure LocatedChange where
  location : List Segment
  kind : ChangeKind
  (before after : Option JsonValue)

namespace LocatedChange

def added (value : JsonValue) : LocatedChange := ⟨[], .added, none, some value⟩
def removed (value : JsonValue) : LocatedChange := ⟨[], .removed, some value, none⟩
def modified (a b : JsonValue) : LocatedChange := ⟨[], .modified, some a, some b⟩

def below (s : Segment) (c : LocatedChange) : LocatedChange := { c with location := s :: c.location }

def toChange (path : String) (c : LocatedChange) : FieldChange :=
  ⟨c.location.foldl (fun lead s => joinPath lead s.text) path, c.kind, c.before, c.after⟩

end LocatedChange

def differences (a b : JsonValue) : List LocatedChange :=
  if sameValue a b then []
  else
    match segments a b with
    | none => [.modified a b]
    | some segs => segs.flatMap (fun s =>
      match _ : child s a, child s b with
      | some x, some y => (differences x y).map (.below s)
      | none, some y => [(LocatedChange.added y).below s]
      | some x, none => [(LocatedChange.removed x).below s]
      | none, none => [])
termination_by sizeOf a
decreasing_by
  rename_i here
  exact sizeOf_child here

def memberDifferences : Option JsonValue → Option JsonValue → List LocatedChange
  | some x, some y => differences x y
  | none, some y => [.added y]
  | some x, none => [.removed x]
  | none, none => []

theorem differences_eq (a b : JsonValue) : differences a b = if sameValue a b then [] else
    match segments a b with
    | none => [.modified a b]
    | some segs => segs.flatMap (fun s => (memberDifferences (child s a) (child s b)).map (.below s)) := by
  rw [differences]
  split
  · rfl
  · split
    · rfl
    · apply flatMap_congr
      intro s _
      split <;> rename_i here there <;> rw [here, there] <;> rfl

variable (path : String)

def walkMember : Option JsonValue → Option JsonValue → List FieldChange
  | some x, some y => walk path x y
  | none, some y => [.added path y]
  | some x, none => [.removed path x]
  | none, none => []

theorem walkFields_eq (before after : List (String × JsonValue)) : walkFields path before after = before.map
      (fun field => (field.1, walkMember (joinPath path field.1) (some field.2) (lookMember field.1 after))) := by
  induction before with
  | nil => rfl
  | cons field rest ih =>
    obtain ⟨key, a⟩ := field
    rw [walkFields, ih, map_cons]
    cases lookMember key after with
    | none => rfl
    | some b => rfl

theorem addedItems_eq (i : Nat) (items : List JsonValue) : addedItems path i items = (range items.length).flatMap
      (fun j => walkMember (joinPath path (toString (i + j))) none items[j]?) := by
  induction items generalizing i with
  | nil => rfl
  | cons item rest ih =>
    rw [addedItems, ih, length_cons, range_succ_eq_map, flatMap_cons, flatMap_map]
    have next : ∀ j, i + 1 + j = i + (j + 1) := fun j => by omega
    simp only [next]
    rfl

theorem walkItems_eq (i : Nat) (before after : List JsonValue) : walkItems path i before after =
    (range (max before.length after.length)).flatMap
      (fun j => walkMember (joinPath path (toString (i + j))) before[j]? after[j]?) := by
  induction before generalizing i after with
  | nil =>
    rw [walkItems, addedItems_eq, length_nil, Nat.zero_max]
    rfl
  | cons a rest ih =>
    have next : ∀ j, i + 1 + j = i + (j + 1) := fun j => by omega
    cases after with
    | nil =>
      rw [walkItems, ih, length_nil, Nat.max_zero, Nat.max_zero, length_cons, range_succ_eq_map,
        flatMap_cons, flatMap_map]
      simp only [next]
      rfl
    | cons b rest' =>
      rw [walkItems, ih, length_cons, length_cons, Nat.succ_max_succ, range_succ_eq_map,
        flatMap_cons, flatMap_map]
      simp only [next]
      rfl

theorem sorted_keys {keys others : List String} (perm : keys.Perm others) :
    keys.insertionSort (· ≤ ·) = others.insertionSort (· ≤ ·) :=
  Perm.eq_of_pairwise (fun _ _ _ _ below above => le_antisymm below above) (pairwise_insertionSort _ keys)
    (pairwise_insertionSort _ others)
    (((perm_insertionSort _ keys).trans perm).trans (perm_insertionSort _ others).symm)

theorem inKeyOrder_eq (keys : List String) (changes : String → List FieldChange) :
    inKeyOrder (keys.map (fun key => (key, changes key))) = (keys.insertionSort (· ≤ ·)).flatMap changes := by
  have sorted : (keys.map (fun key => (key, changes key))).insertionSort (fun a b => a.1 ≤ b.1) =
      (keys.insertionSort (· ≤ ·)).map (fun key => (key, changes key)) :=
    (map_insertionSort (· ≤ ·) (fun a b : String × List FieldChange => a.1 ≤ b.1) _ keys
      (fun _ _ _ _ => Iff.rfl)).symm
  unfold inKeyOrder
  rw [sorted, flatMap_map]

theorem walkObject_eq {before after : List (String × JsonValue)}
    (nodup : (before.map Prod.fst).Nodup) (nodup' : (after.map Prod.fst).Nodup) :
    inKeyOrder (walkFields path before after ++ addedFields path before after) =
      (((before.map Prod.fst ++ after.map Prod.fst).dedup).insertionSort (· ≤ ·)).flatMap
        (fun key => walkMember (joinPath path key) (lookMember key before) (lookMember key after)) := by
  have kept : walkFields path before after = (before.map Prod.fst).map
      (fun key => (key, walkMember (joinPath path key) (lookMember key before) (lookMember key after))) := by
    rw [walkFields_eq, List.map_map]
    refine map_congr_left (fun field member => ?_)
    rw [Function.comp_apply, lookMember_of_mem nodup (show (field.1, field.2) ∈ before from member)]
  have new : addedFields path before after =
      ((after.filter (fun field => (lookMember field.1 before).isNone)).map Prod.fst).map
      (fun key => (key, walkMember (joinPath path key) (lookMember key before) (lookMember key after))) := by
    unfold addedFields
    rw [List.map_map]
    refine map_congr_left (fun field member => ?_)
    obtain ⟨inside, absent⟩ := mem_filter.mp member
    rw [Function.comp_apply, lookMember_of_mem nodup' (show (field.1, field.2) ∈ after from inside),
      isNone_iff_eq_none.mp absent]
    rfl
  rw [kept, new, ← map_append, inKeyOrder_eq]
  congr 1
  apply sorted_keys
  apply (perm_ext_iff_of_nodup ?_ (nodup_dedup _)).mpr
  · intro key
    rw [mem_dedup, mem_append, mem_append]
    constructor
    · rintro (known | member)
      · exact .inl known
      · obtain ⟨field, inside, rfl⟩ := List.mem_map.mp member
        exact .inr (List.mem_map.mpr ⟨field, (mem_filter.mp inside).1, rfl⟩)
    · rintro (known | member)
      · exact .inl known
      · by_cases known : key ∈ before.map Prod.fst
        · exact .inl known
        · obtain ⟨field, inside, rfl⟩ := List.mem_map.mp member
          refine .inr (List.mem_map.mpr ⟨field, mem_filter.mpr ⟨inside, ?_⟩, rfl⟩)
          rw [isNone_iff_eq_none, ← not_isSome_iff_eq_none, lookMember_isSome]
          exact known
  · apply nodup_append.mpr
    refine ⟨nodup, nodup'.sublist (filter_sublist.map _), fun key known key' member same => ?_⟩
    subst same
    obtain ⟨field, inside, rfl⟩ := List.mem_map.mp member
    have absent := isNone_iff_eq_none.mp (mem_filter.mp inside).2
    rw [← not_isSome_iff_eq_none, lookMember_isSome] at absent
    exact absent known

theorem walk_eq (left : a.distinct = true) (right : b.distinct = true) (path : String) : walk path a b =
    if sameValue a b then [] else
    match segments a b with
    | none => [{ path, kind := .modified, before := some a, after := some b }]
    | some segs => segs.flatMap (fun s => walkMember (joinPath path s.text) (child s a) (child s b)) := by
  rw [walk.eq_def]
  apply if_congr Iff.rfl rfl
  cases a with
  | object before =>
    cases b with
    | object after =>
      dsimp only [segments]
      rw [walkObject_eq path (JsonValue.distinct_object.mp left).1 (JsonValue.distinct_object.mp right).1,
        flatMap_map]
      rfl
    | _ => rfl
  | array before =>
    cases b with
    | array after =>
      dsimp only [segments]
      rw [walkItems_eq, flatMap_map]
      simp only [Nat.zero_add]
      rfl
    | _ => rfl
  | _ => rfl

@[elab_as_elim]
theorem child_induct {holds : JsonValue → Prop}
    (step : ∀ value, (∀ s x, child s value = some x → holds x) → holds value) (value : JsonValue) :
    holds value :=
  step value (fun _ x here => have := sizeOf_child here; child_induct step x)
termination_by sizeOf value

theorem toChange_below (s : Segment) (changes : List LocatedChange) :
    (changes.map (.below s)).map (LocatedChange.toChange path) = changes.map
      (LocatedChange.toChange (joinPath path s.text)) := by
  rw [List.map_map]
  rfl

theorem walk_located (left : a.distinct = true) (right : b.distinct = true) (path : String) :
    walk path a b = (differences a b).map (LocatedChange.toChange path) := by
  induction a using child_induct generalizing b path with
  | step a ih =>
    rw [walk_eq left right, differences_eq]
    split
    · rfl
    · cases segments a b with
      | none => rfl
      | some segs =>
        dsimp only
        rw [map_flatMap]
        refine flatMap_congr (fun s _ => ?_)
        rw [toChange_below]
        cases here : child s a with
        | none =>
          cases child s b with
          | none => rfl
          | some y => rfl
        | some x =>
          cases there : child s b with
          | none => rfl
          | some y => exact ih s x here (distinct_child left here) (distinct_child right there) _

theorem mem_segments {segs : List Segment} (parts : segments a b = some segs)
    (here : child s a = some x ∨ child s b = some x) : s ∈ segs := by
  unfold segments at parts
  split at parts
  · rename_i before after
    cases parts
    cases s with
    | key name =>
      refine List.mem_map.mpr ⟨name, (mem_insertionSort _).mpr (mem_dedup.mpr (mem_append.mpr ?_)),
        rfl⟩
      rcases here with found | found
      · exact .inl (lookMember_isSome.mp (isSome_iff_exists.mpr ⟨x, found⟩))
      · exact .inr (lookMember_isSome.mp (isSome_iff_exists.mpr ⟨x, found⟩))
    | index i => rcases here with found | found <;> cases found
  · rename_i before after
    cases parts
    cases s with
    | key name => rcases here with found | found <;> cases found
    | index i =>
      refine List.mem_map.mpr ⟨i, mem_range.mpr ?_, rfl⟩
      rcases here with found | found
      · exact lt_max_of_lt_left (List.getElem?_eq_some_iff.mp found).1
      · exact lt_max_of_lt_right (List.getElem?_eq_some_iff.mp found).1
  · cases parts

theorem segments_nodup {segs : List Segment} (parts : segments a b = some segs) : segs.Nodup := by
  unfold segments at parts
  split at parts
  · cases parts
    exact ((perm_insertionSort _ _).nodup_iff.mpr (nodup_dedup _)).map
      (fun _ _ same => Segment.key.inj same)
  · cases parts
    exact nodup_range.map (fun _ _ same => Segment.index.inj same)
  · cases parts

theorem segments_comm (a b : JsonValue) : segments b a = segments a b := by
  cases a with
  | object before =>
    cases b with
    | object after =>
      have keys : (after.map Prod.fst ++ before.map Prod.fst).dedup.Perm
          (before.map Prod.fst ++ after.map Prod.fst).dedup := perm_append_comm.dedup
      simp only [segments, sorted_keys keys]
    | _ => rfl
  | array before =>
    cases b with
    | array after => simp only [segments, Nat.max_comm]
    | _ => rfl
  | _ => cases b <;> rfl

theorem differences_nil_iff (left : a.distinct = true) (right : b.distinct = true) :
    differences a b = [] ↔ Same a b := by
  induction a using child_induct generalizing b with
  | step a ih =>
    rw [differences_eq]
    by_cases same : sameValue a b = true
    · rw [if_pos same]
      exact iff_of_true rfl ((sameValue_iff left right).mp same)
    · rw [if_neg same]
      refine iff_of_false (fun none => ?_) (fun equal => same ((sameValue_iff left right).mpr equal))
      cases parts : segments a b with
      | none =>
        rw [parts] at none
        cases none
      | some segs =>
        rw [parts] at none
        have quiet : ∀ s ∈ segs, memberDifferences (child s a) (child s b) = [] := by
          intro s member
          exact map_eq_nil_iff.mp (flatMap_eq_nil_iff.mp none s member)
        apply same
        apply (sameValue_iff left right).mpr
        apply same_of_children (parts ▸ rfl)
        intro s
        cases here : child s a with
        | none =>
          cases there : child s b with
          | none => exact .none
          | some y =>
            have change := quiet s (mem_segments parts (.inr there))
            rw [here, there] at change
            cases change
        | some x =>
          have change := quiet s (mem_segments parts (.inl here))
          cases there : child s b with
          | none =>
            rw [here, there] at change
            cases change
          | some y =>
            rw [here, there] at change
            exact .some ((ih s x here (distinct_child left here) (distinct_child right there)).mp change)

theorem memberDifferences_nil (left : a.distinct = true) (right : b.distinct = true) (same : Same a b) (s : Segment) :
    memberDifferences (child s a) (child s b) = [] := by
  have related := same_children same s
  cases here : child s a with
  | none =>
    rw [here] at related
    cases there : child s b with
    | none => rfl
    | some y =>
      rw [there] at related
      cases related
  | some x =>
    rw [here] at related
    cases there : child s b with
    | none =>
      rw [there] at related
      cases related
    | some y =>
      rw [there] at related
      cases related with
      | some equal => exact (differences_nil_iff (distinct_child left here) (distinct_child right there)).mpr equal

def LocatedChange.Between (a b : JsonValue) (c : LocatedChange) : Prop :=
  c.before = valueAt c.location a ∧ c.after = valueAt c.location b ∧ (c.kind = .added ↔ c.before = none) ∧
    (c.kind = .removed ↔ c.after = none)

theorem differences_between (a b : JsonValue) : ∀ c ∈ differences a b, c.Between a b := by
  induction a using child_induct generalizing b with
  | step a ih =>
    intro c member
    rw [differences_eq] at member
    split at member
    · cases member
    · split at member
      · obtain rfl := mem_singleton.mp member
        exact ⟨rfl, rfl, by simp [LocatedChange.modified], by simp [LocatedChange.modified]⟩
      · obtain ⟨s, _, inside⟩ := mem_flatMap.mp member
        obtain ⟨inner, found, rfl⟩ := List.mem_map.mp inside
        unfold LocatedChange.Between LocatedChange.below valueAt
        dsimp only
        cases here : child s a with
        | none =>
          cases there : child s b with
          | none =>
            rw [here, there] at found
            cases found
          | some y =>
            rw [here, there] at found
            obtain rfl := mem_singleton.mp found
            exact ⟨rfl, rfl, by simp [LocatedChange.added], by simp [LocatedChange.added]⟩
        | some x =>
          cases there : child s b with
          | none =>
            rw [here, there] at found
            obtain rfl := mem_singleton.mp found
            exact ⟨rfl, rfl, by simp [LocatedChange.removed], by simp [LocatedChange.removed]⟩
          | some y =>
            rw [here, there] at found
            exact ih s x here y inner found

def ChangeKind.swap : ChangeKind → ChangeKind
  | .added => .removed
  | .removed => .added
  | .modified => .modified

def LocatedChange.swap (c : LocatedChange) : LocatedChange := ⟨c.location, c.kind.swap, c.after, c.before⟩

theorem differences_swap (left : a.distinct = true) (right : b.distinct = true) :
    differences b a = (differences a b).map .swap := by
  induction a using child_induct generalizing b with
  | step a ih =>
    have same : sameValue b a = true ↔ sameValue a b = true := by
      rw [sameValue_iff left right, sameValue_iff right left]
      exact ⟨Same.symm, Same.symm⟩
    rw [differences_eq, differences_eq a b, segments_comm a b]
    by_cases equal : sameValue a b = true
    · rw [if_pos equal, if_pos (same.mpr equal)]
      rfl
    · rw [if_neg equal, if_neg (fun other => equal (same.mp other))]
      cases segments a b with
      | none => rfl
      | some segs =>
        dsimp only
        rw [map_flatMap]
        refine flatMap_congr (fun s _ => ?_)
        have swapped : memberDifferences (child s b)
            (child s a) = (memberDifferences (child s a) (child s b)).map .swap := by
          cases here : child s a with
          | none => cases there : child s b <;> rfl
          | some x =>
            cases there : child s b with
            | none => rfl
            | some y => exact ih s x here (distinct_child left here) (distinct_child right there)
        rw [swapped, List.map_map, List.map_map]
        rfl

def under (s : Segment) (changes : List LocatedChange) : List LocatedChange :=
  changes.filterMap (fun c =>
    match c.location with
    | [] => none
    | first :: rest => if first = s then some { c with location := rest } else none)

def firstKey (c : LocatedChange) : Option String :=
  match c.location with
  | .key name :: _ => some name
  | _ => none

def itemBound (changes : List LocatedChange) (length : Nat) : Nat :=
  changes.foldr (fun c bound =>
    match c.location with
    | .index i :: _ => max (i + 1) bound
    | _ => bound) length

def patch (changes : List LocatedChange) (old : Option JsonValue) : Option JsonValue :=
  match changes.find? (fun c => c.location = []) with
  | some c => c.after
  | none =>
    match old with
    | some (.object fields) => some (.object
        ((fields.map Prod.fst ++ changes.filterMap firstKey).dedup.filterMap (fun key =>
        match _ : lookMember key fields with
        | some value => (patch (under (.key key) changes) (some value)).map (key, ·)
        | none => (patch (under (.key key) changes) none).map (key, ·))))
    | some (.array items) => some (.array ((range (itemBound changes items.length)).filterMap (fun i =>
        match _ : items[i]? with
        | some value => patch (under (.index i) changes) (some value)
        | none => patch (under (.index i) changes) none)))
    | old => old
termination_by sizeOf old
decreasing_by
  · rename_i here
    have smaller := @sizeOf_child (.key _) (.object _) _ here
    simp only [Option.some.sizeOf_spec]
    omega
  · simp only [Option.some.sizeOf_spec, Option.none.sizeOf_spec, JsonValue.object.sizeOf_spec]
    omega
  · rename_i here
    have smaller := @sizeOf_child (.index _) (.array _) _ here
    simp only [Option.some.sizeOf_spec]
    omega
  · simp only [Option.some.sizeOf_spec, Option.none.sizeOf_spec, JsonValue.array.sizeOf_spec]
    omega

theorem patch_root {changes : List LocatedChange} {c : LocatedChange}
    (root : changes.find? (fun c => c.location = []) = some c) (old : Option JsonValue) :
    patch changes old = c.after := by
  rw [patch.eq_def, root]

section
variable {changes : List LocatedChange} (inside : changes.find? (fun c => c.location = []) = none)
include inside

theorem patch_object (fields : List (String × JsonValue)) : patch changes (some (.object fields)) = some
      (.object ((fields.map Prod.fst ++ changes.filterMap firstKey).dedup.filterMap (fun key =>
      (patch (under (.key key) changes) (lookMember key fields)).map (key, ·)))) := by
  rw [patch.eq_def, inside]
  refine congrArg (fun list => some (JsonValue.object list)) (filterMap_congr (fun key _ => ?_))
  split <;> rename_i here <;> rw [here]

theorem patch_array (items : List JsonValue) : patch changes (some (.array items)) = some
      (.array ((range (itemBound changes items.length)).filterMap (fun i =>
      patch (under (.index i) changes) items[i]?))) := by
  rw [patch.eq_def, inside]
  refine congrArg (fun list => some (JsonValue.array list)) (filterMap_congr (fun i _ => ?_))
  split <;> rename_i here <;> rw [here]

end

theorem under_below (s t : Segment) (changes : List LocatedChange) :
    under s (changes.map (.below t)) = if t = s then changes else [] := by
  unfold under
  rw [filterMap_map]
  by_cases same : t = s
  · rw [if_pos same]
    have each : (fun c : LocatedChange =>
        if t = s then some ({ LocatedChange.below t c with location := c.location } : LocatedChange) else none) =
        some := by
      funext c
      rw [if_pos same]
      rfl
    exact (congrArg (fun f => changes.filterMap f) each).trans filterMap_some
  · rw [if_neg same]
    apply filterMap_eq_nil_iff.mpr
    intro c _
    exact if_neg same

theorem flatMap_single {l : List Segment} (nodup : l.Nodup) (s : Segment) (f : Segment → List LocatedChange) :
    l.flatMap (fun t => if t = s then f t else []) = if s ∈ l then f s else [] := by
  induction l with
  | nil => rfl
  | cons t rest ih =>
    rw [nodup_cons] at nodup
    rw [flatMap_cons, ih nodup.2]
    by_cases here : t = s
    · subst here
      rw [if_pos rfl, if_neg nodup.1, if_pos mem_cons_self, append_nil]
    · rw [if_neg here, nil_append]
      exact if_congr (by simp [Ne.symm here]) rfl rfl

theorem under_differences (left : a.distinct = true) (right : b.distinct = true)
    (moved : sameValue a b = true ∨ (segments a b).isSome = true) (s : Segment) :
    under s (differences a b) = memberDifferences (child s a) (child s b) := by
  rw [differences_eq]
  by_cases same : sameValue a b = true
  · rw [if_pos same, memberDifferences_nil left right ((sameValue_iff left right).mp same)]
    rfl
  · rw [if_neg same]
    obtain ⟨segs, parts⟩ := isSome_iff_exists.mp (moved.resolve_left same)
    rw [parts]
    dsimp only
    have nodup := segments_nodup parts
    have spread : under s (segs.flatMap (fun t => (memberDifferences (child t a) (child t b)).map (.below t))) =
        segs.flatMap (fun t => if t = s then memberDifferences (child t a) (child t b) else []) := by
      unfold under
      rw [filterMap_flatMap]
      exact flatMap_congr (fun t _ => under_below s t _)
    rw [spread, flatMap_single nodup]
    by_cases known : s ∈ segs
    · rw [if_pos known]
    · rw [if_neg known]
      cases here : child s a with
      | some x => exact absurd (mem_segments parts (.inl here)) known
      | none =>
        cases there : child s b with
        | some y => exact absurd (mem_segments parts (.inr there)) known
        | none => rfl

theorem differences_inside (moved : sameValue a b = true ∨ (segments a b).isSome = true) :
    (differences a b).find? (fun c => c.location = []) = none := by
  apply find?_eq_none.mpr
  intro c member
  rw [differences_eq] at member
  split at member
  · cases member
  · rename_i differ
    obtain ⟨segs, parts⟩ := isSome_iff_exists.mp (moved.resolve_left differ)
    rw [parts] at member
    obtain ⟨s, _, inside⟩ := mem_flatMap.mp member
    obtain ⟨inner, _, rfl⟩ := List.mem_map.mp inside
    simp [LocatedChange.below]

theorem lookMember_patched (keys : List String) (nodup : keys.Nodup) (value : String → Option JsonValue)
    (key : String) :
    lookMember key (keys.filterMap (fun key => (value key).map (key, ·))) = if key ∈ keys then value key
      else none := by
  induction keys with
  | nil => rfl
  | cons first rest ih =>
    rw [nodup_cons] at nodup
    rw [filterMap_cons]
    by_cases here : first = key
    · subst here
      cases made : value first with
      | none =>
        simp only [map_none]
        rw [ih nodup.2, if_neg nodup.1, if_pos mem_cons_self]
      | some v => simp [lookMember]
    · have skip : lookMember key (rest.filterMap (fun key => (value key).map (key, ·))) =
          if key ∈ first :: rest then value key else none := by
        rw [ih nodup.2]
        simp [Ne.symm here]
      cases value first with
      | none => exact skip
      | some v =>
        simp only [map_some]
        rw [← skip]
        simp [lookMember, here]

theorem filterMap_range_from (value : Nat → Option JsonValue) {n : Nat}
    (filled : ∀ i, (value i).isSome = true ↔ i < n) (bound : Nat) :
    ((range bound).filterMap value).length = min n bound ∧
      ∀ i, ((range bound).filterMap value)[i]? = if i < bound then value i else none := by
  induction bound with
  | zero => simp
  | succ bound ih =>
    obtain ⟨length, each⟩ := ih
    have state := filled bound
    rw [range_succ, filterMap_append]
    cases made : value bound with
    | none =>
      rw [made] at state
      have past : n ≤ bound := Nat.le_of_not_lt (fun less => by simpa using state.mpr less)
      have alone : [bound].filterMap value = [] := by simp [made]
      rw [alone, append_nil]
      refine ⟨by omega, fun i => ?_⟩
      rw [each]
      by_cases last : i = bound
      · subst last
        simp [made]
      · exact if_congr (by omega) rfl rfl
    | some v =>
      rw [made] at state
      have before : bound < n := state.mp rfl
      have alone : [bound].filterMap value = [v] := by simp [made]
      rw [alone]
      refine ⟨by simp; omega, fun i => ?_⟩
      rcases Nat.lt_trichotomy i bound with less | rfl | more
      · rw [getElem?_append_left (by omega), each, if_pos less, if_pos (by omega)]
      · rw [getElem?_append_right (by omega), length, Nat.min_eq_right (by omega), Nat.sub_self,
          if_pos (by omega), made]
        rfl
      · rw [getElem?_eq_none (by simp; omega), if_neg (by omega)]

theorem filterMap_range (value : Nat → Option JsonValue) {n bound : Nat} (within : n ≤ bound)
    (filled : ∀ i, (value i).isSome = true ↔ i < n) (i : Nat) :
    ((range bound).filterMap value)[i]? = value i := by
  rw [(filterMap_range_from value filled bound).2]
  split
  · rfl
  · rename_i past
    have none := mt (filled i).mp (by omega)
    rw [not_isSome_iff_eq_none] at none
    rw [none]

theorem Same.refl (a : JsonValue) : Same a a := by
  induction a using child_induct with
  | step a ih =>
    cases a with
    | null => exact .null
    | bool b => exact .bool b
    | number text => exact .number text
    | string text => exact .string text
    | array items =>
      refine .array rfl (fun i x y here there => ?_)
      obtain rfl := Option.some.inj (here.symm.trans there)
      exact ih (.index i) x here
    | object fields =>
      refine .object (fun _ => rfl) (fun key x y _ here there => ?_)
      obtain rfl := Option.some.inj (here.symm.trans there)
      exact ih (.key key) x here

theorem patch_none_nil : patch [] none = none := by
  rw [patch.eq_def]
  rfl

theorem under_nil {changes : List LocatedChange} (apart : ∀ c ∈ changes, ∀ rest, c.location ≠ s :: rest) :
    under s changes = [] := by
  apply filterMap_eq_nil_iff.mpr
  intro c member
  have other := apart c member
  cases here : c.location with
  | nil => rfl
  | cons first rest => exact if_neg (fun same => other rest (by rw [here, same]))

theorem lookMember_patch {changes : List LocatedChange} (fields : List (String × JsonValue)) (key : String) :
    lookMember key ((fields.map Prod.fst ++ changes.filterMap firstKey).dedup.filterMap (fun key =>
      (patch (under (.key key) changes) (lookMember key fields)).map (key, ·))) = patch (under (.key key) changes)
        (lookMember key fields) := by
  rw [lookMember_patched _ (nodup_dedup _)]
  split
  · rfl
  · rename_i unknown
    rw [mem_dedup, mem_append, not_or, ← lookMember_isSome, not_isSome_iff_eq_none] at unknown
    have quiet : under (.key key) changes = [] := by
      apply under_nil
      intro c member rest here
      exact unknown.2 (mem_filterMap.mpr ⟨c, member, by rw [firstKey, here]⟩)
    rw [quiet, unknown.1, patch_none_nil]

theorem lt_itemBound {changes : List LocatedChange} {length i : Nat}
    (held : i < length ∨ ∃ c ∈ changes, ∃ rest, c.location = .index i :: rest) :
    i < itemBound changes length := by
  induction changes with
  | nil =>
    rcases held with short | ⟨c, member, _⟩
    · exact short
    · cases member
  | cons c rest ih =>
    have later : i < itemBound rest length → i < itemBound (c :: rest) length := by
      intro below
      refine Nat.lt_of_lt_of_le below ?_
      show itemBound rest length ≤ match c.location with
        | .index i :: _ => max (i + 1) (itemBound rest length)
        | _ => itemBound rest length
      split
      · exact Nat.le_max_right _ _
      · exact Nat.le_refl _
    rcases held with short | ⟨other, member, tail, here⟩
    · exact later (ih (.inl short))
    · rcases mem_cons.mp member with rfl | member
      · show i < match other.location with
          | .index i :: _ => max (i + 1) (itemBound rest length)
          | _ => itemBound rest length
        rw [here]
        exact lt_max_of_lt_left (Nat.lt_succ_self i)
      · exact later (ih (.inr ⟨other, member, tail, here⟩))

theorem patch_member {old new : Option JsonValue}
    (both : ∀ x y, old = some x → new = some y → Option.Rel Same (patch (differences x y) (some x)) (some y)) :
    Option.Rel Same (patch (memberDifferences old new) old) new := by
  cases old with
  | none =>
    cases new with
    | none =>
      rw [memberDifferences, patch_none_nil]
      exact .none
    | some y =>
      rw [memberDifferences, patch_root rfl]
      exact .some (Same.refl y)
  | some x =>
    cases new with
    | none =>
      rw [memberDifferences, patch_root rfl]
      exact .none
    | some y => exact both x y rfl rfl

section
variable {changes : List LocatedChange} (inside : changes.find? (fun c => c.location = []) = none)
include inside

theorem patch_object_same {fields others : List (String × JsonValue)}
    (members : ∀ key, Option.Rel Same (patch (under (.key key) changes) (lookMember key fields))
      (lookMember key others)) :
    Option.Rel Same (patch changes (some (.object fields))) (some (.object others)) := by
  rw [patch_object inside]
  refine .some (same_of_children rfl (fun s => ?_))
  cases s with
  | key name =>
    show Option.Rel Same (lookMember name _) (lookMember name others)
    rw [lookMember_patch]
    exact members name
  | index i => exact .none

theorem patch_array_same {items others : List JsonValue}
    (members : ∀ i, Option.Rel Same (patch (under (.index i) changes) items[i]?) others[i]?) :
    Option.Rel Same (patch changes (some (.array items))) (some (.array others)) := by
  rw [patch_array inside]
  have filled : ∀ i, (patch (under (.index i) changes) items[i]?).isSome = true ↔ i < others.length := by
    intro i
    rw [isSome_of_rel (members i), isSome_item]
  -- beyond the old items and the places of the changes nothing is filled
  have within : others.length ≤ itemBound changes items.length := by
    by_contra short
    have some := (filled _).mpr (Nat.lt_of_not_le short)
    have bound := fun held => Nat.lt_irrefl _ (@lt_itemBound changes items.length _ held)
    have quiet : under (.index _) changes = [] :=
      under_nil (fun c member rest here => bound (.inr ⟨c, member, rest, here⟩))
    rw [quiet, getElem?_eq_none (Nat.le_of_not_lt (fun less => bound (.inl less))), patch_none_nil] at some
    cases some
  refine .some (same_of_children rfl (fun s => ?_))
  cases s with
  | key name => exact .none
  | index i =>
    show Option.Rel Same (filterMap _ _)[i]? others[i]?
    rw [filterMap_range _ within filled]
    exact members i

end

theorem patch_nil (same : sameValue a b = true) (apart : segments a b = none) : patch [] (some a) = some a := by
  cases a with
  | object fields =>
    cases b with
    | object others => cases apart
    | _ => simp [sameValue] at same
  | array items =>
    cases b with
    | array others => cases apart
    | _ => simp [sameValue] at same
  | _ =>
    rw [patch.eq_def]
    rfl

theorem patch_differences (left : a.distinct = true) (right : b.distinct = true) :
    Option.Rel Same (patch (differences a b) (some a)) (some b) := by
  induction a using child_induct generalizing b with
  | step a ih =>
    by_cases moved : sameValue a b = true ∨ (segments a b).isSome = true
    · have inside := differences_inside moved
      have members : ∀ s, Option.Rel Same (patch (under s (differences a b)) (child s a)) (child s b) := by
        intro s
        rw [under_differences left right moved]
        exact patch_member (fun x y here there =>
          ih s x here (distinct_child left here) (distinct_child right there))
      cases parts : segments a b with
      | some segs =>
        unfold segments at parts
        split at parts
        · exact patch_object_same inside (fun key => members (.key key))
        · exact patch_array_same inside (fun i => members (.index i))
        · cases parts
      | none =>
        have same : sameValue a b = true := moved.resolve_right (by rw [parts]; exact Bool.false_ne_true)
        rw [differences_eq, if_pos same, patch_nil same parts]
        exact .some ((sameValue_iff left right).mp same)
    · obtain ⟨differ, apart⟩ := not_or.mp moved
      rw [differences_eq, if_neg differ, not_isSome_iff_eq_none.mp apart, patch_root rfl]
      exact .some (Same.refl b)

theorem distinct_stripEnvelope (distinct : value.distinct = true) : (stripEnvelope value).distinct = true := by
  cases value with
  | object fields =>
    obtain ⟨nodup, inner⟩ := JsonValue.distinct_object.mp distinct
    apply JsonValue.distinct_object.mpr
    exact ⟨nodup.sublist (filter_sublist.map _), fun field member => inner field (mem_filter.mp member).1⟩
  | _ => exact distinct

def comparedState (current : Option JsonValue) : JsonValue := (current.map stripEnvelope).getD (.object [])

theorem distinct_comparedState {current : Option JsonValue} (distinct : ∀ value ∈ current, value.distinct = true) :
    (comparedState current).distinct = true := by
  cases current with
  | none => decide
  | some value => exact distinct_stripEnvelope (distinct value rfl)

theorem computeDiff_changes (slug : String) {current : Option JsonValue} {incoming : JsonValue}
    (left : ∀ value ∈ current, value.distinct = true) (right : incoming.distinct = true) :
    (computeDiff slug current incoming).changes =
      (differences (comparedState current) (stripEnvelope incoming)).map (LocatedChange.toChange "") :=
  walk_located (distinct_comparedState left) (distinct_stripEnvelope right) ""

def sampleCurrent : JsonValue :=
  .object [("kind", .string "TenantManifest"),
    ("config", .object [("b", .array [.number "1", .number "2"]), ("a", .bool true)])]

def sampleIncoming : JsonValue :=
  .object [("config", .object [("b", .array [.number "3"]), ("c", .null)]), ("kind", .string "Other")]

end Aeterna.Tenancy
