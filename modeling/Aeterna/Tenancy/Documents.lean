import Aeterna.Tenancy.Diff
import Aeterna.Tenancy.Fingerprint
import Mathlib.Order.Defs.LinearOrder

open List

namespace Aeterna.Lib.JsonValue

@[elab_as_elim]
theorem induct {holds : JsonValue → Prop} (null : holds .null) (bool : ∀ b, holds (.bool b))
    (number : ∀ text, holds (.number text)) (string : ∀ text, holds (.string text))
    (array : ∀ items, (∀ item ∈ items, holds item) → holds (.array items))
    (object : ∀ fields, (∀ field ∈ fields, holds field.2) → holds (.object fields)) (value : JsonValue) :
      holds value :=
  @JsonValue.rec holds (fun items => ∀ item ∈ items, holds item) (fun fields => ∀ field ∈ fields, holds field.2)
    (fun field => holds field.2) null bool number string (fun items each => array items each)
    (fun fields each => object fields each)
    (fun _ none => absurd none not_mem_nil) (fun _ _ head tail => forall_mem_cons.mpr ⟨head, tail⟩)
    (fun _ none => absurd none not_mem_nil) (fun _ _ head tail => forall_mem_cons.mpr ⟨head, tail⟩)
      (fun _ _ value => value) value

mutual

/-- No object has a key twice. -/
def distinct : JsonValue → Bool
  | array items => distinctItems items
  | object fields => decide (fields.map Prod.fst).Nodup && distinctFields fields
  | _ => true

def distinctItems : List JsonValue → Bool
  | [] => true
  | item :: rest => item.distinct && distinctItems rest

def distinctFields : List (String × JsonValue) → Bool
  | [] => true
  | (_, value) :: rest => value.distinct && distinctFields rest

end

theorem distinct_array {items : List JsonValue} : (array items).distinct = true ↔ ∀ item ∈ items,
    item.distinct = true := by
  rw [distinct]
  induction items with
  | nil => simp [distinctItems]
  | cons item rest ih => simp [distinctItems, ih]

theorem distinct_object {fields : List (String × JsonValue)} :
    (object fields).distinct = true ↔ (fields.map Prod.fst).Nodup ∧ ∀ field ∈ fields, field.2.distinct = true := by
  rw [distinct, Bool.and_eq_true, decide_eq_true_iff]
  apply and_congr Iff.rfl
  induction fields with
  | nil => simp [distinctFields]
  | cons field rest ih =>
    obtain ⟨key, value⟩ := field
    simp only [distinctFields, Bool.and_eq_true, ih, forall_mem_cons]

end Aeterna.Lib.JsonValue

namespace Aeterna.Tenancy
open Lib (JsonValue)

section
variable {key : String} {fields others : List (String × JsonValue)} {value : JsonValue}

theorem mem_of_lookMember (found : lookMember key fields = some value) : (key, value) ∈ fields := by
  obtain ⟨⟨name, _⟩, here, rfl⟩ := Option.map_eq_some_iff.mp found
  obtain rfl : name = key := by simpa using find?_some here
  exact mem_of_find?_eq_some here

theorem lookMember_of_mem (nodup : (fields.map Prod.fst).Nodup) (member : (key, value) ∈ fields) :
    lookMember key fields = some value := by
  induction fields with
  | nil => cases member
  | cons first rest ih =>
    obtain ⟨name, other⟩ := first
    rw [map_cons, nodup_cons] at nodup
    rcases mem_cons.mp member with same | later
    · cases same
      simp [lookMember]
    · have apart : name ≠ key := by
        rintro rfl
        exact nodup.1 (mem_map.mpr ⟨_, later, rfl⟩)
      have skipped : lookMember key ((name, other) :: rest) = lookMember key rest := by simp [lookMember, apart]
      rw [skipped]
      exact ih nodup.2 later

theorem lookMember_iff (nodup : (fields.map Prod.fst).Nodup) : lookMember key fields = some value ↔
    (key, value) ∈ fields :=
  ⟨mem_of_lookMember, lookMember_of_mem nodup⟩

theorem lookMember_isSome : (lookMember key fields).isSome = true ↔ key ∈ fields.map Prod.fst := by
  unfold lookMember
  rw [Option.isSome_map, find?_isSome]
  simp

theorem lookMember_map (f : String → JsonValue → JsonValue) :
    lookMember key (fields.map (fun field => (field.1, f field.1 field.2))) = (lookMember key fields).map
      (f key) := by
  induction fields with
  | nil => rfl
  | cons first rest ih =>
    obtain ⟨name, other⟩ := first
    by_cases here : name = key
    · subst here
      simp [lookMember]
    · simpa [lookMember, here] using ih

theorem sorted_eq_iff (nodup : (fields.map Prod.fst).Nodup) (nodup' : (others.map Prod.fst).Nodup) :
    fields.insertionSort (fun a b => a.1 ≤ b.1) = others.insertionSort (fun a b => a.1 ≤ b.1) ↔
      ∀ key, lookMember key fields = lookMember key others := by
  constructor
  · intro same key
    have perm : fields.Perm others := by
      have sorted := perm_insertionSort (fun a b : String × JsonValue => a.1 ≤ b.1) fields
      rw [same] at sorted
      exact sorted.symm.trans (perm_insertionSort _ others)
    apply Option.ext
    intro value
    rw [lookMember_iff nodup, lookMember_iff nodup', perm.mem_iff]
  · intro each
    have perm : fields.Perm others := by
      apply (perm_ext_iff_of_nodup nodup.of_map nodup'.of_map).mpr
      rintro ⟨key, value⟩
      rw [← lookMember_iff nodup, ← lookMember_iff nodup', each]
    have sorted : ∀ l : List (String × JsonValue), (l.insertionSort (fun a b => a.1 ≤ b.1)).Pairwise
        (fun a b => a.1 ≤ b.1) := by
      have total : Std.Total (fun a b : String × JsonValue => a.1 ≤ b.1) := ⟨fun a b => le_total a.1 b.1⟩
      have trans : IsTrans (String × JsonValue) (fun a b => a.1 ≤ b.1) := ⟨fun _ _ _ => le_trans⟩
      exact pairwise_insertionSort _
    refine Perm.eq_of_pairwise (fun a b left right below above => ?_) (sorted fields) (sorted others)
      (((perm_insertionSort _ fields).trans perm).trans (perm_insertionSort _ others).symm)
    obtain ⟨key, value⟩ := a
    obtain ⟨key', value'⟩ := b
    obtain rfl : key = key' := le_antisymm below above
    have here := lookMember_of_mem nodup ((mem_insertionSort _).mp left)
    have there := lookMember_of_mem nodup' ((mem_insertionSort _).mp right)
    rw [each, there] at here
    rw [Option.some.inj here]

end

/-- Equal but for the order of the keys of objects and for what stands under the hidden keys. -/
inductive SameUpTo (hidden : String → Bool) : JsonValue → JsonValue → Prop where
  | null : SameUpTo hidden .null .null
  | bool (b : Bool) : SameUpTo hidden (.bool b) (.bool b)
  | number (text : String) : SameUpTo hidden (.number text) (.number text)
  | string (text : String) : SameUpTo hidden (.string text) (.string text)
  | array {items others : List JsonValue} (length : items.length = others.length)
      (each : ∀ (i : Nat) (a b : JsonValue), items[i]? = some a → others[i]? = some b → SameUpTo hidden a b) :
      SameUpTo hidden (.array items) (.array others)
  | object {fields others : List (String × JsonValue)}
      (keys : ∀ key, (lookMember key fields).isSome = (lookMember key others).isSome)
      (each : ∀ (key : String) (a b : JsonValue), hidden key = false → lookMember key fields = some a →
        lookMember key others = some b → SameUpTo hidden a b) :
      SameUpTo hidden (.object fields) (.object others)

section
variable {hidden : String → Bool}

theorem sameUpTo_array {items others : List JsonValue} :
    SameUpTo hidden (.array items) (.array others) ↔ items.length = others.length ∧
      ∀ (i : Nat) (a b : JsonValue), items[i]? = some a → others[i]? = some b → SameUpTo hidden a b := by
  constructor
  · intro same
    cases same with
    | array length each => exact ⟨length, each⟩
  · rintro ⟨length, each⟩
    exact .array length each

theorem sameUpTo_object {fields others : List (String × JsonValue)} :
    SameUpTo hidden (.object fields) (.object others) ↔
      (∀ key, (lookMember key fields).isSome = (lookMember key others).isSome) ∧
      ∀ (key : String) (a b : JsonValue), hidden key = false → lookMember key fields = some a →
        lookMember key others = some b → SameUpTo hidden a b := by
  constructor
  · intro same
    cases same with
    | object keys each => exact ⟨keys, each⟩
  · rintro ⟨keys, each⟩
    exact .object keys each

theorem sameUpTo_scalar {value other : JsonValue} (items : ∀ items, value ≠ .array items)
    (fields : ∀ fields, value ≠ .object fields) : SameUpTo hidden value other ↔ value = other := by
  constructor
  · intro same
    cases same with
    | array => exact absurd rfl (items _)
    | object => exact absurd rfl (fields _)
    | _ => rfl
  · rintro rfl
    cases value with
    | null => exact .null
    | bool b => exact .bool b
    | number text => exact .number text
    | string text => exact .string text
    | array list => exact absurd rfl (items list)
    | object list => exact absurd rfl (fields list)

end

end Aeterna.Tenancy
