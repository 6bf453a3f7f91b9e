import Aeterna.Tenancy.Documents

namespace Aeterna.Tenancy
open Lib (JsonValue)
open List

def canonicalMember (key : String) (value : JsonValue) : JsonValue := if isPlaintextKey key then .string "<stripped>"
    else canonicalForm value

variable (fields : List (String × JsonValue))

theorem canonicalFields_stripFields :
    canonicalFields (stripFields fields) = fields.map (fun field => (field.1, canonicalMember field.1 field.2)) := by
  induction fields with
  | nil => rfl
  | cons field rest ih =>
    obtain ⟨key, value⟩ := field
    rw [stripFields, canonicalFields, ih, map_cons]
    unfold canonicalMember canonicalForm
    split
    · rfl
    · rfl

theorem canonicalForm_object : canonicalForm (.object fields) =
    .object ((fields.map (fun field => (field.1, canonicalMember field.1 field.2))).insertionSort
      (fun a b => a.1 ≤ b.1)) := by
  rw [← canonicalFields_stripFields]
  rfl

theorem canonicalForm_array (items : List JsonValue) :
    canonicalForm (.array items) = .array (items.map canonicalForm) := by
  have each : canonicalItems (stripItems items) = items.map canonicalForm := by
    induction items with
    | nil => rfl
    | cons item rest ih =>
      rw [stripItems, canonicalItems, ih]
      rfl
  rw [← each]
  rfl

theorem canonicalMember_keys :
    (fields.map (fun field => (field.1, canonicalMember field.1 field.2))).map Prod.fst = fields.map Prod.fst := by
  rw [map_map]
  rfl

theorem canonicalForm_object_iff {fields others : List (String × JsonValue)}
    (nodup : (fields.map Prod.fst).Nodup) (nodup' : (others.map Prod.fst).Nodup) :
    canonicalForm (.object fields) = canonicalForm (.object others) ↔
      ∀ key, (lookMember key fields).map (canonicalMember key) = (lookMember key others).map
        (canonicalMember key) := by
  rw [canonicalForm_object, canonicalForm_object, JsonValue.object.injEq,
    sorted_eq_iff (by rwa [canonicalMember_keys]) (by rwa [canonicalMember_keys])]
  simp only [lookMember_map]

theorem canonicalForm_scalar {value other : JsonValue} (items : ∀ items, value ≠ .array items)
    (fields : ∀ fields, value ≠ .object fields) :
    canonicalForm value = canonicalForm other ↔ value = other := by
  have own : canonicalForm value = value := by
    cases value with
    | array list => exact absurd rfl (items list)
    | object list => exact absurd rfl (fields list)
    | _ => rfl
  rw [own]
  cases other with
  | array list =>
    rw [canonicalForm_array]
    exact iff_of_false (items _) (items _)
  | object list =>
    rw [canonicalForm_object]
    exact iff_of_false (fields _) (fields _)
  | _ => exact Iff.rfl

theorem map_eq_map_iff {items others : List JsonValue} {f : JsonValue → JsonValue} :
    items.map f = others.map f ↔ items.length = others.length ∧
      ∀ (i : Nat) (a b : JsonValue), items[i]? = some a → others[i]? = some b → f a = f b := by
  constructor
  · intro same
    refine ⟨by simpa using congrArg List.length same, fun i a b here there => ?_⟩
    have at_i := congrArg (·[i]?) same
    simpa only [getElem?_map, here, there, Option.map_some, Option.some.injEq] using at_i
  · rintro ⟨length, each⟩
    apply ext_getElem (by simpa using length)
    intro i below below'
    rw [length_map] at below below'
    rw [getElem_map, getElem_map]
    exact each i _ _ (getElem?_eq_getElem below) (getElem?_eq_getElem below')

theorem option_map_eq_iff {here there : Option JsonValue} {f : JsonValue → JsonValue} :
    here.map f = there.map f ↔ here.isSome = there.isSome ∧ ∀ a b, here = some a → there = some b → f a = f b := by
  cases here with
  | none => cases there <;> simp
  | some a => cases there <;> simp

theorem canonicalMember_iff {key : String} {a b : JsonValue} : canonicalMember key a = canonicalMember key b ↔
    (isPlaintextKey key = false → canonicalForm a = canonicalForm b) := by
  unfold canonicalMember
  cases isPlaintextKey key with
  | true => simp
  | false => simp

theorem canonicalForm_eq_iff {a b : JsonValue} (left : a.distinct = true) (right : b.distinct = true) :
    canonicalForm a = canonicalForm b ↔ SameUpTo isPlaintextKey a b := by
  induction a using JsonValue.induct generalizing b with
  | null => rw [canonicalForm_scalar (by simp) (by simp), sameUpTo_scalar (by simp) (by simp)]
  | bool x => rw [canonicalForm_scalar (by simp) (by simp), sameUpTo_scalar (by simp) (by simp)]
  | number text => rw [canonicalForm_scalar (by simp) (by simp), sameUpTo_scalar (by simp) (by simp)]
  | string text => rw [canonicalForm_scalar (by simp) (by simp), sameUpTo_scalar (by simp) (by simp)]
  | array items ih =>
    have inner := JsonValue.distinct_array.mp left
    cases b with
    | array others =>
      have inner' := JsonValue.distinct_array.mp right
      rw [canonicalForm_array, canonicalForm_array, JsonValue.array.injEq, map_eq_map_iff, sameUpTo_array]
      apply and_congr Iff.rfl
      apply forall₅_congr
      intro i x y here there
      have known := mem_of_getElem? here
      exact ih x known (inner x known) (inner' y (mem_of_getElem? there))
    | object others =>
      rw [canonicalForm_array, canonicalForm_object]
      exact iff_of_false (by simp) (fun same => by cases same)
    | _ =>
      rw [canonicalForm_array]
      exact iff_of_false (fun same => by cases same) (fun same => by cases same)
  | object fields ih =>
    obtain ⟨nodup, inner⟩ := JsonValue.distinct_object.mp left
    cases b with
    | object others =>
      obtain ⟨nodup', inner'⟩ := JsonValue.distinct_object.mp right
      rw [canonicalForm_object_iff nodup nodup', sameUpTo_object, ← forall_and]
      apply forall_congr'
      intro key
      rw [option_map_eq_iff]
      apply and_congr Iff.rfl
      have member : ∀ x y, lookMember key fields = some x → lookMember key others = some y →
          (canonicalForm x = canonicalForm y ↔ SameUpTo isPlaintextKey x y) := by
        intro x y here there
        have known := mem_of_lookMember here
        exact ih _ known (inner _ known) (inner' _ (mem_of_lookMember there))
      constructor
      · intro each x y shown here there
        exact (member x y here there).mp (canonicalMember_iff.mp (each x y here there) shown)
      · intro each x y here there
        exact canonicalMember_iff.mpr (fun shown => (member x y here there).mpr (each x y shown here there))
    | array others =>
      rw [canonicalForm_array, canonicalForm_object]
      exact iff_of_false (by simp) (fun same => by cases same)
    | _ =>
      rw [canonicalForm_object]
      exact iff_of_false (fun same => by cases same) (fun same => by cases same)

def hexByte (byte : UInt8) : List Char := [Lib.hexDigit (byte.toNat / 16), Lib.hexDigit (byte.toNat % 16)]

def hexDigest (bytes : List UInt8) : String := String.ofList (bytes.flatMap hexByte)

/-- `serde_json::to_vec` and the digest of its bytes. -/
def sha256Hex (sha256 : ByteArray → List UInt8) (canonical : JsonValue) : String :=
  hexDigest (sha256 canonical.text.toByteArray)

theorem hexByte_inj {a b : UInt8} (same : hexByte a = hexByte b) : a = b := by
  obtain ⟨high, low⟩ := List.cons.inj same
  have first := congrArg Lib.hexValue high
  have second := congrArg Lib.hexValue (List.cons.inj low).1
  have := a.toNat_lt
  have := b.toNat_lt
  rw [Lib.hexValue_hexDigit _ (by omega), Lib.hexValue_hexDigit _ (by omega)] at first second
  apply UInt8.toNat_inj.mp
  omega

theorem hexDigest_inj {a b : List UInt8} (same : hexDigest a = hexDigest b) : a = b := by
  have digits : a.flatMap hexByte = b.flatMap hexByte := String.ofList_inj.mp same
  clear same
  induction a generalizing b with
  | nil =>
    cases b with
    | nil => rfl
    | cons => cases digits
  | cons byte rest ih =>
    cases b with
    | nil => cases digits
    | cons byte' rest' =>
      obtain ⟨head, tail⟩ := append_inj
          (show hexByte byte ++ rest.flatMap hexByte = hexByte byte' ++ rest'.flatMap hexByte from digits) rfl
      rw [hexByte_inj head, ih tail]

/-- Fingerprints agree exactly where the manifests are equal but for plaintext and the order of keys. -/
theorem hash_identifies (sha256 : ByteArray → List UInt8) (a b : JsonValue) (left : a.distinct = true)
    (right : b.distinct = true)
    (collisionFree : sha256 (canonicalForm a).text.toByteArray = sha256 (canonicalForm b).text.toByteArray →
      (canonicalForm a).text.toByteArray = (canonicalForm b).text.toByteArray)
    (printing : (canonicalForm a).text = (canonicalForm b).text → canonicalForm a = canonicalForm b) :
    hashManifestValue (sha256Hex sha256) a = hashManifestValue (sha256Hex sha256) b ↔
      SameUpTo isPlaintextKey a b := by
  rw [← canonicalForm_eq_iff left right]
  unfold hashManifestValue
  constructor
  · intro same
    exact printing (String.toByteArray_inj.mp (collisionFree (hexDigest_inj ((String.append_right_inj _).mp same))))
  · intro same
    rw [same]

def acmeSection : String × JsonValue := ("tenant", .object fields)

def lockedManifest : JsonValue :=
  .object [("apiVersion", .string "aeterna.io/v1"), ("kind", .string "TenantManifest"),
    acmeSection [("slug", .string "acme"), ("name", .string "Acme")]]

def reorderedManifest : JsonValue :=
  .object [acmeSection [("name", .string "Acme"), ("slug", .string "acme")], ("kind", .string "TenantManifest"),
    ("apiVersion", .string "aeterna.io/v1")]

def lockedDigest : List UInt8 :=
  [0xc2, 0x62, 0xfb, 0x0d, 0x40, 0xd2, 0xfa, 0xfb, 0xef, 0x7d, 0x4f, 0x4b, 0xf2, 0x77, 0xb7, 0x47, 0x60, 0xca, 0x87,
    0xea, 0xd3, 0x1e, 0xfc, 0xbf, 0x15, 0x49,
    0x65, 0x05, 0x51, 0xc5, 0xa4, 0x83]

theorem locked_canonical : canonicalForm lockedManifest = canonicalForm reorderedManifest := by rfl

theorem hash_identifies_sample : hashManifestValue (sha256Hex (fun _ => lockedDigest)) lockedManifest =
    hashManifestValue (sha256Hex (fun _ => lockedDigest)) reorderedManifest ↔
      SameUpTo isPlaintextKey lockedManifest reorderedManifest :=
  hash_identifies (fun _ => lockedDigest) lockedManifest reorderedManifest (by decide) (by decide)
    (fun _ => by rw [locked_canonical]) (fun _ => locked_canonical)

end Aeterna.Tenancy
