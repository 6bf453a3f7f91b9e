import Aeterna.Lib.JsonValue
import Mathlib.Data.List.Dedup
import Mathlib.Data.List.Sort

namespace Aeterna.Tenancy
open Lib (JsonValue)

def lookMember (key : String) (fields : List (String × JsonValue)) : Option JsonValue :=
  (fields.find? (fun field => field.1 = key)).map Prod.snd

def member? (key : String) : JsonValue → Option JsonValue
  | .object fields => lookMember key fields
  | _ => none

mutual

/-- `==`. The order of the keys of an object does not count. -/
def sameValue : JsonValue → JsonValue → Bool
  | .null, .null => true
  | .bool a, .bool b => a == b
  | .number a, .number b => a == b
  | .string a, .string b => a == b
  | .array a, .array b => sameItems a b
  | .object a, .object b => a.length == b.length && sameFields a b
  | _, _ => false

def sameItems : List JsonValue → List JsonValue → Bool
  | [], [] => true
  | a :: as, b :: bs => sameValue a b && sameItems as bs
  | _, _ => false

def sameFields : List (String × JsonValue) → List (String × JsonValue) → Bool
  | [], _ => true
  | (key, a) :: rest, other =>
    (match lookMember key other with
      | some b => sameValue a b
      | none => false) && sameFields rest other

end

inductive ChangeKind where
  | added | removed | modified
  deriving DecidableEq

structure FieldChange where
  path : String
  kind : ChangeKind
  before : Option JsonValue := none
  after : Option JsonValue := none

inductive DiffOperation where
  | create | update | noOp
  deriving DecidableEq

structure DiffSummary where
  (added removed modified : Nat)
  changedSections : List String

structure TenantDiff where
  slug : String
  operation : DiffOperation
  changes : List FieldChange
  summary : DiffSummary

def joinPath (lead segment : String) : String := if lead = "" then segment else lead ++ "." ++ segment

def topLevelSection (path : String) : Option String :=
  if path = "" then none else some (String.ofList (path.toList.takeWhile (· ≠ '.')))

def FieldChange.added (path : String) (value : JsonValue) : FieldChange :=
  { path, kind := .added, after := some value }

def FieldChange.removed (path : String) (value : JsonValue) : FieldChange :=
  { path, kind := .removed, before := some value }

def inKeyOrder (changes : List (String × List FieldChange)) : List FieldChange :=
  (changes.insertionSort (fun a b => a.1 ≤ b.1)).flatMap (·.2)

def addedFields (path : String) (before after : List (String × JsonValue)) : List (String × List FieldChange) :=
  (after.filter (fun field => (lookMember field.1 before).isNone)).map (fun field =>
    (field.1, [.added (joinPath path field.1) field.2]))

def addedItems (path : String) : Nat → List JsonValue → List FieldChange
  | _, [] => []
  | i, item :: rest => .added (joinPath path (toString i)) item :: addedItems path (i + 1) rest

mutual

def walk (path : String) (a b : JsonValue) : List FieldChange :=
  if sameValue a b then []
  else
    match a, b with
    | .object before, .object after => inKeyOrder (walkFields path before after ++ addedFields path before after)
    | .array before, .array after => walkItems path 0 before after
    -- a value of another type is a change as a whole
    | a, b => [{ path, kind := .modified, before := some a, after := some b }]

def walkFields (path : String) : List (String × JsonValue) → List (String × JsonValue) →
    List (String × List FieldChange)
  | [], _ => []
  | (key, a) :: rest, after =>
    (key, match lookMember key after with
      | some b => walk (joinPath path key) a b
      | none => [.removed (joinPath path key) a]) :: walkFields path rest after

def walkItems (path : String) : Nat → List JsonValue → List JsonValue → List FieldChange
  | i, [], after => addedItems path i after
  | i, a :: before, [] => .removed (joinPath path (toString i)) a :: walkItems path (i + 1) before []
  | i, a :: before, b :: after => walk (joinPath path (toString i)) a b ++ walkItems path (i + 1) before after

end

def envelopeKeys : List String := ["apiVersion", "kind", "metadata", "notRendered"]

def stripEnvelope : JsonValue → JsonValue
  | .object fields => .object (fields.filter (fun field => field.1 ∉ envelopeKeys))
  | value => value

def holdsSomething : JsonValue → Bool
  | .object fields => !fields.isEmpty
  | _ => false

def DiffSummary.of (changes : List FieldChange) : DiffSummary where
  added := changes.countP (·.kind = .added)
  removed := changes.countP (·.kind = .removed)
  modified := changes.countP (·.kind = .modified)
  changedSections := (changes.filterMap (topLevelSection ·.path)).dedup.insertionSort (· ≤ ·)

def computeDiff (slug : String) (current : Option JsonValue) (incoming : JsonValue) : TenantDiff :=
  let current := (current.map stripEnvelope).getD (.object [])
  let changes := walk "" current (stripEnvelope incoming)
  { slug
    operation := if changes.isEmpty then .noOp else if holdsSomething current then .update else .create
    changes
    summary := .of changes }

theorem inKeyOrder_nil_iff {changes : List (String × List FieldChange)} :
    inKeyOrder changes = [] ↔ ∀ entry ∈ changes, entry.2 = [] := by
  unfold inKeyOrder
  simp

variable {before after : List (String × JsonValue)} {key path : String} {a b : JsonValue}

theorem sameFields_member (same : sameFields before after = true) (present : lookMember key before = some a) :
    ∃ b, lookMember key after = some b ∧ sameValue a b = true := by
  induction before with
  | nil => cases present
  | cons first rest ih =>
    obtain ⟨name, value⟩ := first
    simp only [sameFields, Bool.and_eq_true] at same
    by_cases own : name = key
    · subst own
      obtain rfl : value = a := by simpa [lookMember] using present
      cases found : lookMember name after with
      | none => simp [found] at same
      | some b => exact ⟨b, rfl, by simpa [found] using same.1⟩
    · exact ih same.2 (by simpa [lookMember, own] using present)

theorem walkFields_member
    (quiet : ∀ entry ∈ walkFields path before after, entry.2 = []) (present : lookMember key before = some a) :
    ∃ b, lookMember key after = some b ∧ walk (joinPath path key) a b = [] := by
  induction before with
  | nil => cases present
  | cons first rest ih =>
    obtain ⟨name, value⟩ := first
    rw [walkFields, List.forall_mem_cons] at quiet
    by_cases own : name = key
    · subst own
      obtain rfl : value = a := by simpa [lookMember] using present
      cases found : lookMember name after with
      | none => simp [found] at quiet
      | some b => exact ⟨b, rfl, by simpa [found] using quiet.1⟩
    · exact ih quiet.2 (by simpa [lookMember, own] using present)

theorem walk_of_same (same : sameValue a b = true) : walk path a b = [] := by
  unfold walk
  rw [if_pos same]

theorem walk_member {value : JsonValue} (quiet : walk path a b = []) (present : member? key a = some value) :
    ∃ other, member? key b = some other ∧ walk (joinPath path key) value other = [] := by
  cases a with
  | object before =>
    unfold walk at quiet
    split at quiet
    · rename_i same
      cases b with
      | object after =>
        simp only [sameValue, Bool.and_eq_true] at same
        obtain ⟨other, found, equal⟩ := sameFields_member same.2 present
        exact ⟨other, found, walk_of_same equal⟩
      | _ => simp [sameValue] at same
    · cases b with
      | object after =>
        have each := inKeyOrder_nil_iff.mp quiet
        exact walkFields_member (fun entry inside => each entry (List.mem_append_left _ inside)) present
      | _ => cases quiet
  | _ => cases present

theorem walk_string {text : String} (quiet : walk path (.string text) b = []) : b = .string text := by
  unfold walk at quiet
  split at quiet
  · rename_i same
    cases b with
    | string other =>
      rw [sameValue, beq_iff_eq] at same
      rw [same]
    | _ => simp [sameValue] at same
  · cases b <;> cases quiet

theorem member?_stripEnvelope (state : key ∉ envelopeKeys) (value : JsonValue) :
    member? key (stripEnvelope value) = member? key value := by
  cases value with
  | object fields =>
    unfold stripEnvelope member? lookMember
    dsimp only
    rw [List.find?_filter]
    have own : (fun field : String × JsonValue =>
        decide (decide (field.1 ∉ envelopeKeys) = true ∧ decide (field.1 = key) = true)) =
        fun field => decide (field.1 = key) := by
      funext field
      by_cases same : field.1 = key
      · simp [same, state]
      · simp [same]
    rw [own]
  | _ => rfl

end Aeterna.Tenancy
