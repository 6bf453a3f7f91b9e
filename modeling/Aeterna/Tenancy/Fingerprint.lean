import Aeterna.Lib.JsonValue
import Mathlib.Data.List.Sort

namespace Aeterna.Tenancy
open Lib (JsonValue)

def isPlaintextKey (key : String) : Bool := key == "secretValue" || key == "secret_value"

mutual

def stripPlaintext : JsonValue → JsonValue
  | .object fields => .object (stripFields fields)
  | .array items => .array (stripItems items)
  | value => value

def stripFields : List (String × JsonValue) → List (String × JsonValue)
  | [] => []
  | (key, child) :: rest =>
    (key, if isPlaintextKey key then .string "<stripped>" else stripPlaintext child) :: stripFields rest

def stripItems : List JsonValue → List JsonValue
  | [] => []
  | item :: rest => stripPlaintext item :: stripItems rest

end

mutual

def canonicalize : JsonValue → JsonValue
  | .object fields => .object ((canonicalFields fields).insertionSort (fun a b => a.1 ≤ b.1))
  | .array items => .array (canonicalItems items)
  | value => value

def canonicalFields : List (String × JsonValue) → List (String × JsonValue)
  | [] => []
  | (key, child) :: rest => (key, canonicalize child) :: canonicalFields rest

def canonicalItems : List JsonValue → List JsonValue
  | [] => []
  | item :: rest => canonicalize item :: canonicalItems rest

end

/-- What the digest is taken of. -/
def canonicalForm (raw : JsonValue) : JsonValue := canonicalize (stripPlaintext raw)

def hashManifestValue (digest : JsonValue → String) (raw : JsonValue) : String :=
  "sha256:" ++ digest (canonicalForm raw)

end Aeterna.Tenancy
