import Aeterna.Tenancy.Manifest
import Aeterna.Lib.Sequences

namespace Aeterna.Tenancy
open Lib (JsonValue)
open Slot
open List hiding set

def Slot.Named : Slot → Prop
  | .layer name => name ≠ "" ∧ '.' ∉ name.toList
  | _ => True

theorem Slot.key_inj {a b : Slot} {s t : String} (named : a.Named) (named' : b.Named) (same : a.key s = b.key t) :
    a = b ∧ s = t := by
  have texts := congrArg String.toList same
  cases a with
  | llm =>
    cases b with
    | llm => exact ⟨rfl, by simpa [Slot.key, lead, String.toList_inj] using texts⟩
    | embedding => simp [Slot.key, lead] at texts
    | layer name => simp [Slot.key, lead] at texts
  | embedding =>
    cases b with
    | llm => simp [Slot.key, lead] at texts
    | embedding => exact ⟨rfl, by simpa [Slot.key, lead, String.toList_inj] using texts⟩
    | layer name => simp [Slot.key, lead] at texts
  | layer name =>
    cases b with
    | llm => simp [Slot.key, lead] at texts
    | embedding => simp [Slot.key, lead] at texts
    | layer other =>
      have split : name.toList ++ '.' :: s.toList = other.toList ++ '.' :: t.toList := by
        simpa [Slot.key, lead] using texts
      obtain ⟨names, rest⟩ := Lib.separated_inj named.2 named'.2 split
      exact ⟨by rw [String.toList_inj.mp names], String.toList_inj.mp rest⟩

namespace ManifestProviders
variable (providers : ManifestProviders)

def provider? : Slot → Option ManifestProvider
  | .llm => providers.llm
  | .embedding => providers.embedding
  | .layer name => providers.memoryLayers[name]?

def Named : Prop := ∀ slot p, providers.provider? slot = some p → slot.Named

variable {providers}

theorem mem_slots {slot : Slot} {p : ManifestProvider} :
    (slot, p) ∈ providers.slots ↔ providers.provider? slot = some p := by
  cases slot <;> simp [slots, provider?, Std.ExtTreeMap.mem_toList_iff_getElem?_eq_some]

theorem slots_distinct : providers.slots.Pairwise (fun a b => a.1 ≠ b.1) := by
  have layers : (providers.memoryLayers.toList.map (fun entry => (Slot.layer entry.1, entry.2))).Pairwise
      (fun a b => a.1 ≠ b.1) := by
    rw [pairwise_map]
    refine Std.ExtTreeMap.distinct_keys_toList.imp ?_
    intro a b different same
    exact different (Std.LawfulEqCmp.compare_eq_iff_eq.mpr (Slot.layer.inj same))
  unfold slots
  rw [pairwise_append, pairwise_append]
  refine ⟨⟨?_, ?_, ?_⟩, layers, ?_⟩
  · cases providers.llm <;> simp
  · cases providers.embedding <;> simp
  · rintro ⟨slot, p⟩ member ⟨slot', p'⟩ member' same
    simp at member member'
    grind
  · rintro ⟨slot, p⟩ member ⟨slot', p'⟩ member' same
    simp at member member'
    grind

def writes (providers : ManifestProviders) : List (String × TenantConfigField) :=
  providers.slots.flatMap (fun entry => entry.1.writes entry.2)

end ManifestProviders

theorem Slot.mem_writes {slot : Slot} {p : ManifestProvider} {entry : String × TenantConfigField} :
    entry ∈ slot.writes p ↔ ∃ suffix ∈ settingSuffixes, ∃ value, p.setting suffix = some value ∧
      entry = (slot.key suffix, platformField value) := by
  simp only [Slot.writes, mem_filterMap, Option.map_eq_some_iff]
  exact exists_congr fun suffix => and_congr_right fun _ => exists_congr fun value => and_congr_right fun _ => eq_comm

theorem Slot.key_right_inj {slot : Slot} {s t : String} (same : slot.key s = slot.key t) : s = t := by
  have texts := congrArg String.toList same
  simpa [Slot.key, String.toList_inj] using texts

theorem Slot.writes_distinct (slot : Slot) (p : ManifestProvider) :
    (slot.writes p).Pairwise (fun a b => a.1 ≠ b.1) := by
  have suffixes : settingSuffixes.Pairwise (· ≠ ·) := by decide
  unfold Slot.writes
  rw [pairwise_filterMap]
  refine suffixes.imp ?_
  intro s t different a first b second same
  simp only [Option.map_eq_some_iff] at first second
  obtain ⟨v, -, rfl⟩ := first
  obtain ⟨w, -, rfl⟩ := second
  exact different (key_right_inj same)

namespace ManifestProviders
variable {providers : ManifestProviders}

theorem mem_writes {entry : String × TenantConfigField} :
    entry ∈ providers.writes ↔ ∃ slot p, providers.provider? slot = some p ∧ entry ∈ slot.writes p := by
  simp only [writes, mem_flatMap, Prod.exists, mem_slots]

theorem writes_distinct (named : providers.Named) : providers.writes.Pairwise (fun a b => a.1 ≠ b.1) := by
  unfold writes
  rw [pairwise_flatMap]
  refine ⟨fun entry _ => Slot.writes_distinct _ _, ?_⟩
  refine slots_distinct.imp_of_mem ?_
  rintro ⟨slot, p⟩ ⟨slot', p'⟩ member member' different a written b written' same
  obtain ⟨s, -, v, -, rfl⟩ := Slot.mem_writes.mp written
  obtain ⟨t, -, w, -, rfl⟩ := Slot.mem_writes.mp written'
  exact different (key_inj (named _ _ (mem_slots.mp member)) (named _ _ (mem_slots.mp member')) same).1

end ManifestProviders

namespace TenantConfigDocument
variable {doc : TenantConfigDocument} {providers : ManifestProviders}

@[simp] theorem aliasSecret_fields (canonical : String) (secretRef : Option String) :
    (doc.aliasSecret canonical secretRef).fields = doc.fields := by
  unfold aliasSecret
  split <;> rfl

theorem applyManifestProviders_fields :
    (doc.applyManifestProviders providers).fields = doc.fields.insertMany providers.writes := by
  unfold applyManifestProviders ManifestProviders.writes
  induction providers.slots generalizing doc with
  | nil => simp
  | cons entry rest ih =>
    rw [foldl_cons, ih, flatMap_cons, Std.ExtTreeMap.insertMany_append]
    simp [applyOne]

theorem field_written (named : providers.Named) {key : String} {field : TenantConfigField}
    (written : (key, field) ∈ providers.writes) :
    (doc.applyManifestProviders providers).fields[key]? = some field := by
  rw [applyManifestProviders_fields]
  refine Std.ExtTreeMap.getElem?_insertMany_list_of_mem Std.ReflCmp.compare_self ?_ written
  exact (ManifestProviders.writes_distinct named).imp
    (fun different same => different (Std.LawfulEqCmp.compare_eq_iff_eq.mp same))

theorem field_other {key : String} (other : ∀ field, (key, field) ∉ providers.writes) :
    (doc.applyManifestProviders providers).fields[key]? = doc.fields[key]? := by
  rw [applyManifestProviders_fields]
  apply Std.ExtTreeMap.getElem?_insertMany_list_of_contains_eq_false
  simpa using other

variable {slot : Slot} {p : ManifestProvider} {name : String}

theorem field_of_slot (named : providers.Named)
    (declared : providers.provider? slot = some p) {suffix : String} (known : suffix ∈ settingSuffixes) :
    (doc.applyManifestProviders providers).fields[slot.key suffix]? =
      ((p.setting suffix).map platformField).or doc.fields[slot.key suffix]? := by
  cases set : p.setting suffix with
  | some value =>
    refine field_written named (ManifestProviders.mem_writes.mpr ⟨slot, p, declared, ?_⟩)
    exact Slot.mem_writes.mpr ⟨suffix, known, value, set, rfl⟩
  | none =>
    rw [field_other]
    · rfl
    intro field written
    obtain ⟨slot', p', declared', written⟩ := ManifestProviders.mem_writes.mp written
    obtain ⟨suffix', -, value, set', same⟩ := Slot.mem_writes.mp written
    obtain ⟨rfl, rfl⟩ := key_inj (named _ _ declared) (named _ _ declared') (Prod.mk.inj same).1
    rw [declared] at declared'
    cases declared'
    rw [set] at set'
    cases set'

theorem applyOne_secretReferences : (doc.applyOne slot p).secretReferences =
      match p.secretRef.bind (doc.secretReferences[·]?) with
      | some source => doc.secretReferences.insert slot.apiKey source
      | none => doc.secretReferences := by
  simp only [applyOne, aliasSecret]
  cases p.secretRef.bind (doc.secretReferences[·]?) <;> rfl

theorem applyOne_reference_other (other : name ≠ slot.apiKey) :
    (doc.applyOne slot p).secretReferences[name]? = doc.secretReferences[name]? := by
  rw [applyOne_secretReferences]
  split
  · rw [Std.ExtTreeMap.getElem?_insert, if_neg]
    simpa using other.symm
  · rfl

theorem applyAll_reference_other {slots : List (Slot × ManifestProvider)}
    (other : ∀ entry ∈ slots, name ≠ entry.1.apiKey) :
    (slots.foldl (fun doc entry => doc.applyOne entry.1 entry.2) doc).secretReferences[name]? =
      doc.secretReferences[name]? := by
  induction slots generalizing doc with
  | nil => rfl
  | cons entry rest ih =>
    rw [forall_mem_cons] at other
    rw [foldl_cons, ih other.2, applyOne_reference_other other.1]

end TenantConfigDocument

theorem named_of_validKey {name : String} (valid : isValidMemoryLayerKey name = true) : (Slot.layer name).Named := by
  unfold isValidMemoryLayerKey at valid
  cases chars : name.toList with
  | nil =>
    rw [chars] at valid
    cases valid
  | cons first rest =>
    rw [chars] at valid
    simp only [Bool.and_eq_true, all_eq_true] at valid
    obtain ⟨⟨-, letter⟩, others⟩ := valid
    refine ⟨by rintro rfl; simp at chars, ?_⟩
    rw [chars, mem_cons, not_or]
    constructor
    · rintro rfl
      simp [isAsciiLowercase] at letter
    · intro dot
      have allowed := others '.' dot
      revert allowed
      decide

section
variable {m : TenantManifest} {providers : ManifestProviders}

section
variable (valid : validateManifest m = []) (given : m.providers = some providers)
include valid given

theorem providers_checked : validateProviders m.secretReferences.keys providers = [] := by
  simp only [validateManifest, append_eq_nil_iff, given] at valid
  exact valid.1.1.2

theorem provider_checked {slot : Slot} {p : ManifestProvider} (declared : providers.provider? slot = some p) :
    isBlank p.kind = false ∧ ∀ name, p.secretRef = some name → name ∈ m.secretReferences.keys := by
  obtain ⟨text, checked⟩ : ∃ text, checkProvider text p m.secretReferences.keys = [] := by
    have all := providers_checked valid given
    simp only [validateProviders, append_eq_nil_iff, flatMap_eq_nil_iff] at all
    cases slot with
    | llm => exact ⟨_, by simpa [show providers.llm = some p from declared] using all.1.1⟩
    | embedding => exact ⟨_, by simpa [show providers.embedding = some p from declared] using all.1.2⟩
    | layer name =>
      have entry := all.2 (name, p) (Std.ExtTreeMap.mem_toList_iff_getElem?_eq_some.mpr declared)
      exact ⟨_, (append_eq_nil_iff.mp entry).2⟩
  obtain ⟨kind, reference⟩ := append_eq_nil_iff.mp checked
  refine ⟨errorIf_eq_nil.mp kind, ?_⟩
  intro name same
  simpa [same] using reference

theorem providers_named : providers.Named := by
  intro slot p declared
  cases slot with
  | llm => trivial
  | embedding => trivial
  | layer name =>
    have all := providers_checked valid given
    simp only [validateProviders, append_eq_nil_iff, flatMap_eq_nil_iff] at all
    have entry := all.2 (name, p) (Std.ExtTreeMap.mem_toList_iff_getElem?_eq_some.mpr declared)
    have key := (append_eq_nil_iff.mp entry).1
    split at key
    · cases key
    · exact named_of_validKey (by simpa using key)

end

theorem logicalName_checked (valid : validateManifest m = []) {name : String} {entry : TenantSecretReference}
    (declared : m.secretReferences[name]? = some entry) : isBlank entry.logicalName = false := by
  simp only [validateManifest, append_eq_nil_iff, flatMap_eq_nil_iff] at valid
  have checked := valid.2 (name, entry) (Std.ExtTreeMap.mem_toList_iff_getElem?_eq_some.mpr declared)
  simp only [validateEntry, append_eq_nil_iff] at checked
  exact errorIf_eq_nil.mp checked.1.2

end

end Aeterna.Tenancy
