import Aeterna.Lib.JsonText

/-!
JSON values: looking into them and writing them out.
-/

namespace Aeterna.Lib

inductive JsonValue where
  | null
  | bool (b : Bool)
  | number (text : String)
  | string (text : String)
  | array (items : List JsonValue)
  | object (fields : List (String × JsonValue))

namespace JsonValue

def get (key : String) : JsonValue → JsonValue
  | object fields => ((fields.find? (fun field => field.1 = key)).map Prod.snd).getD null
  | _ => null

def asStr : JsonValue → Option String
  | string text => some text
  | _ => none

def quote (text : String) : String := Wire.string.render text

mutual

def text : JsonValue → String
  | null => "null"
  | bool b => if b then "true" else "false"
  | number digits => digits
  | string value => quote value
  | array items => "[" ++ ",".intercalate (texts items) ++ "]"
  | object fields => "\x7b" ++ ",".intercalate (members fields) ++ "\x7d"

def texts : List JsonValue → List String
  | [] => []
  | item :: rest => item.text :: texts rest

def members : List (String × JsonValue) → List String
  | [] => []
  | (key, value) :: rest => (quote key ++ ":" ++ value.text) :: members rest

end

end JsonValue

end Aeterna.Lib

/-!
Reading records and enumerations from JSON values, in the manner of derived deserializers: a record is an object, or
an array of its fields in order, and fields that are not its own are passed over.
-/

namespace Aeterna.Lib.Deserialize
variable {α β : Type}

abbrev Reader (α : Type) : Type := JsonValue → Option α

def readString : Reader String
  | .string text => some text
  | _ => none

def readU64 : Reader UInt64
  | .number text =>
    match text.toNat? with
    | some n => if n < 2 ^ 64 then some (UInt64.ofNat n) else none
    | none => none
  | _ => none

def readOption (read : Reader α) : Reader (Option α)
  | .null => some none
  | value => (read value).map some

def readList (read : Reader α) : Reader (List α)
  | .array items => items.mapM read
  | _ => none

def readEntries (read : Reader α) : Reader (List (String × α))
  | .object fields => fields.mapM (fun field => (read field.2).map (field.1, ·))
  | _ => none

def readVariant (variants : List (String × α)) : Reader α
  | .string name => variants.lookup name
  | .object [(name, .null)] => variants.lookup name
  | _ => none

def readTag (names : List String) : Reader String
  | .string name => if name ∈ names then some name else none
  | .number text => text.toNat?.bind (names[·]?)
  | _ => none

structure Fields where
  field : String → Option JsonValue
  /-- The record was given as an array, where an optional field has to be there. -/
  positional : Bool

def fields (names : List String) : Reader Fields
  | .object members => some ⟨fun name => (members.find? (fun member => member.1 = name)).map (·.2), false⟩
  | .array items => if items.length ≤ names.length then some ⟨fun name => items[names.idxOf name]?, true⟩ else none
  | _ => none

namespace Fields
variable (record : Fields)

def required (name : String) (read : Reader α) : Option α := (record.field name).bind read

def withDefault (name : String) (default : α) (read : Reader α) : Option α :=
  match record.field name with
  | some value => read value
  | none => some default

def optional (name : String) (read : Reader α) : Option (Option α) := record.withDefault name none (readOption read)

def nullable (name : String) (read : Reader α) : Option (Option α) :=
  if record.positional then record.required name (readOption read) else record.optional name read

variable {record : Fields} {name : String} {read : Reader α}

theorem read_of_optional {a : α} (found : record.optional name read = some (some a)) :
    ∃ value, read value = some a := by
  unfold optional withDefault at found
  split at found
  · rename_i value _
    unfold readOption at found
    split at found
    · cases found
    · obtain ⟨b, was, same⟩ := Option.map_eq_some_iff.mp found
      cases same
      exact ⟨_, was⟩
  · cases found

end Fields

theorem read_of_readList {read : Reader α} {value : JsonValue} {items : List α}
    (found : readList read value = some items) {a : α} (member : a ∈ items) : ∃ value, read value = some a := by
  unfold readList at found
  split at found
  · rename_i values
    induction values generalizing items with
    | nil =>
      cases found
      cases member
    | cons first rest ih =>
      simp only [List.mapM_cons, Option.bind_eq_bind, Option.bind_eq_some_iff] at found
      obtain ⟨b, was, later, others, same⟩ := found
      cases same
      rcases List.mem_cons.mp member with rfl | member
      · exact ⟨first, was⟩
      · exact ih member others
  · cases found

end Aeterna.Lib.Deserialize
