import Aeterna.Tenancy.Flattening

/-!
The providers of a tenant, as they are read back from its config document (`cli/src/server/manifest_render.rs`).
-/

namespace Aeterna.Tenancy
open Lib (JsonValue)

structure RenderedProvider where
  kind : String
  model : Option String := none
  secretRef : Option String := none
  config : BTreeMap String := ∅

structure RenderedProviders where
  llm : Option RenderedProvider := none
  embedding : Option RenderedProvider := none
  memoryLayers : BTreeMap RenderedProvider := ∅

def fieldAsString (fields : BTreeMap TenantConfigField) (key : String) : Option String :=
  fields[key]?.bind (·.value.asStr)

def resolveOperatorSecretRef (secretReferences : BTreeMap TenantSecretReference) (canonicalKey : String) :
    Option String :=
  secretReferences[canonicalKey]?.map (fun canonical =>
    match secretReferences.toList.find? (fun entry =>
      entry.1 ≠ canonicalKey ∧ entry.2.reference = canonical.reference) with
    | some entry => entry.1
    | none => canonicalKey)

section
variable (fields : BTreeMap TenantConfigField) (secretReferences : BTreeMap TenantSecretReference) (redact : Bool)

def renderOneProvider (providerKey modelKey apiKeyKey : String) (extras : List (String × String)) :
    Option RenderedProvider :=
  (fieldAsString fields providerKey).map (fun kind =>
    { kind
      model := fieldAsString fields modelKey
      secretRef := if redact then none else resolveOperatorSecretRef secretReferences apiKeyKey
      config := extras.foldl (fun config (manifestName, storageName) =>
        match fieldAsString fields storageName with
        | some value => config.insert manifestName value
        | none => config) ∅ })

def renderSlot (slot : Slot) : Option RenderedProvider :=
  renderOneProvider fields secretReferences redact (slot.key "provider") (slot.key "model") slot.apiKey
    [("projectId", slot.key "google_project_id"), ("location", slot.key "google_location"),
     ("region", slot.key "bedrock_region")]

def beforeTrailing (piece text : String) : Option String :=
  if piece.toList <:+ text.toList then some (String.ofList (text.toList.take (text.length - piece.length))) else none

def layerOfKey (key : String) : Option String :=
  ((afterLeading "memory_layer." key).bind (beforeTrailing ".provider")).filter (fun layer =>
    layer ≠ "" ∧ '.' ∉ layer.toList)

def renderMemoryLayers : BTreeMap RenderedProvider :=
  fields.keys.foldl (fun out key =>
    match layerOfKey key with
    | none => out
    | some layer =>
      match renderSlot fields secretReferences redact (.layer layer) with
      | some rendered => out.insert layer rendered
      | none => out) ∅

def renderProviders : Option RenderedProviders :=
  let llm := renderSlot fields secretReferences redact .llm
  let embedding := renderSlot fields secretReferences redact .embedding
  let memoryLayers := renderMemoryLayers fields secretReferences redact
  if llm.isNone && embedding.isNone && memoryLayers.isEmpty then none else some { llm, embedding, memoryLayers }

end

theorem afterLeading_iff {piece text rest : String} : afterLeading piece text = some rest ↔ text = piece ++ rest := by
  unfold afterLeading
  rw [← String.toList_inj, String.toList_append]
  split
  · rename_i leads
    obtain ⟨tail, same⟩ := leads
    rw [← same, ← String.length_toList, List.drop_left, Option.some_inj, ← String.toList_inj, String.toList_ofList,
      List.append_cancel_left_eq]
  · rename_i leads
    exact iff_of_false (by simp) (fun same => leads ⟨rest.toList, same.symm⟩)

theorem beforeTrailing_iff {piece text front : String} :
    beforeTrailing piece text = some front ↔ text = front ++ piece := by
  unfold beforeTrailing
  rw [← String.toList_inj, String.toList_append]
  split
  · rename_i ends
    obtain ⟨tail, same⟩ := ends
    have size : text.length - piece.length = tail.length := by
      rw [← String.length_toList, ← String.length_toList, ← same, List.length_append]
      omega
    rw [size, ← same, List.take_left, Option.some_inj, ← String.toList_inj, String.toList_ofList,
      List.append_cancel_right_eq]
  · rename_i ends
    exact iff_of_false (by simp) (fun same => ends ⟨front.toList, same.symm⟩)

theorem layerOfKey_iff {key layer : String} :
    layerOfKey key = some layer ↔ (Slot.layer layer).Named ∧ key = (Slot.layer layer).key "provider" := by
  have shape : (Slot.layer layer).key "provider" = "memory_layer." ++ (layer ++ ".provider") := by
    rw [← String.toList_inj]
    simp [Slot.key, Slot.lead]
  rw [shape]
  simp only [layerOfKey, Option.filter_eq_some_iff, Option.bind_eq_some_iff, afterLeading_iff, beforeTrailing_iff,
    Slot.Named, decide_eq_true_eq]
  constructor
  · rintro ⟨⟨rest, rfl, rfl⟩, named⟩
    exact ⟨named, rfl⟩
  · rintro ⟨named, rfl⟩
    exact ⟨⟨_, rfl, rfl⟩, named⟩

section
variable {fields : BTreeMap TenantConfigField} {secretReferences : BTreeMap TenantSecretReference} {redact : Bool}

theorem mem_of_fieldAsString {key value : String} (found : fieldAsString fields key = some value) :
    key ∈ fields.keys := by
  obtain ⟨field, found, -⟩ := Option.bind_eq_some_iff.mp found
  exact Std.ExtTreeMap.mem_keys.mpr (Std.ExtTreeMap.mem_iff_isSome_getElem?.mpr (by simp [found]))

variable {layer : String}

theorem collected_getElem? {keys : List String} {start : BTreeMap RenderedProvider} : (keys.foldl (fun out key =>
      match layerOfKey key with
      | none => out
      | some layer =>
        match renderSlot fields secretReferences redact (.layer layer) with
        | some rendered => out.insert layer rendered
        | none => out) start)[layer]? =
      if ∃ key ∈ keys, layerOfKey key = some layer then
        (renderSlot fields secretReferences redact (.layer layer)).or start[layer]?
      else start[layer]? := by
  induction keys generalizing start with
  | nil => simp
  | cons key rest ih =>
    rw [List.foldl_cons, ih]
    cases found : layerOfKey key with
    | none => simp [found]
    | some other =>
      by_cases same : other = layer
      · subst same
        cases rendered : renderSlot fields secretReferences redact (.layer other) <;> simp [found, rendered]
      · cases rendered : renderSlot fields secretReferences redact (.layer other) <;>
          simp [found, rendered, same, Std.ExtTreeMap.getElem?_insert]

theorem renderMemoryLayers_getElem? (named : (Slot.layer layer).Named) :
    (renderMemoryLayers fields secretReferences redact)[layer]? =
      renderSlot fields secretReferences redact (.layer layer) := by
  unfold renderMemoryLayers
  rw [collected_getElem?]
  split
  · simp
  · rename_i missing
    cases rendered : renderSlot fields secretReferences redact (.layer layer) with
    | none => simp
    | some p =>
      obtain ⟨kind, found, -⟩ := Option.map_eq_some_iff.mp rendered
      exact absurd ⟨_, mem_of_fieldAsString found, layerOfKey_iff.mpr ⟨named, rfl⟩⟩ missing

theorem renderMemoryLayers_unnamed (unnamed : ¬ (Slot.layer layer).Named) :
    (renderMemoryLayers fields secretReferences redact)[layer]? = none := by
  unfold renderMemoryLayers
  rw [collected_getElem?, if_neg]
  · simp
  · rintro ⟨key, -, found⟩
    exact unnamed (layerOfKey_iff.mp found).1

end

end Aeterna.Tenancy
