import Aeterna.Tenancy.Flattening

namespace Aeterna.Tenancy
open Lib (JsonValue)
open TenantConfigDocument ManifestProviders

theorem containsRawSecretMaterial_eq_false {fields : BTreeMap TenantConfigField} :
    containsRawSecretMaterial fields = false ↔
      ∀ key field, fields[key]? = some field → valueContainsRawSecretMaterial key field.value = false := by
  simp [containsRawSecretMaterial, Std.ExtTreeMap.mem_toList_iff_getElem?_eq_some]

theorem forM_ok {α ε : Type} {check : α → Except ε Unit} {items : List α} :
    items.forM check = .ok () ↔ ∀ item ∈ items, check item = .ok () := by
  induction items with
  | nil => simp [pure, Except.pure]
  | cons item rest ih =>
    show (check item >>= fun _ => rest.forM check) = _ ↔ _
    rw [List.forall_mem_cons, ← ih]
    cases checked : check item with
    | error e => simp [bind, Except.bind]
    | ok u => simp [bind, Except.bind]

variable (references : BTreeMap TenantSecretReference)

/-- The names of a document's references stand in the references themselves, and are not blank. -/
def SelfNamed : Prop :=
  ∀ (name : String) (reference : TenantSecretReference), references[name]? = some reference →
    name = reference.logicalName

def Titled : Prop :=
  ∀ (name : String) (reference : TenantSecretReference), references[name]? = some reference →
    isBlank reference.logicalName = false

theorem validateSecretName_ok {name : String} {reference : TenantSecretReference} :
    validateSecretName name reference = .ok () ↔
      name = reference.logicalName ∧ isBlank reference.logicalName = false := by
  unfold validateSecretName
  split
  · simp_all
  · split <;> simp_all

theorem validate_ok {uuids : UuidParser} {id : Uuid} {doc : TenantConfigDocument} (tenant : doc.tenantId = id.text) :
    doc.validate uuids = .ok () ↔ containsRawSecretMaterial doc.fields = false ∧ SelfNamed doc.secretReferences ∧
        Titled doc.secretReferences := by
  unfold validate tenantUuid
  rw [tenant, uuids.parse_text]
  have entries : doc.secretReferences.toList.forM (fun entry => validateSecretName entry.1 entry.2) = .ok () ↔
      SelfNamed doc.secretReferences ∧ Titled doc.secretReferences := by
    rw [forM_ok]
    simp only [Prod.forall, Std.ExtTreeMap.mem_toList_iff_getElem?_eq_some, validateSecretName_ok]
    exact ⟨fun all => ⟨fun n r s => (all n r s).1, fun n r s => (all n r s).2⟩,
      fun all n r s => ⟨all.1 n r s, all.2 n r s⟩⟩
  cases raw : containsRawSecretMaterial doc.fields
  · simpa [bind, Except.bind, pure, Except.pure] using entries
  · simp [bind, Except.bind, throw, throwThe, MonadExceptOf.throw]

theorem needles_undotted : ∀ needle ∈ secretNeedles, '.' ∉ needle.toList := by decide

theorem suspiciousKey_iff {text : String} :
    suspiciousKey text = true ↔ ∃ needle ∈ secretNeedles, needle.toList <:+: asciiLower text := by
  simp [suspiciousKey, containsText]

theorem asciiLower_layerKey (name suffix : String) : asciiLower ((Slot.layer name).key suffix) =
      asciiLower "memory_layer" ++ '.' :: (asciiLower name ++ '.' :: asciiLower suffix) := by
  simp [asciiLower, Slot.key, Slot.lead]

theorem suspiciousKey_layer {name suffix : String} (known : suffix ∈ settingSuffixes) :
    suspiciousKey ((Slot.layer name).key suffix) = suspiciousKey name := by
  have plain : ∀ needle ∈ secretNeedles, ¬ needle.toList <:+: asciiLower "memory_layer" := by decide
  have suffixes : ∀ text ∈ settingSuffixes, ∀ needle ∈ secretNeedles, ¬ needle.toList <:+: asciiLower text :=
    by decide
  rw [Bool.eq_iff_iff, suspiciousKey_iff, suspiciousKey_iff]
  refine exists_congr fun needle => and_congr_right fun member => ?_
  have undotted := needles_undotted needle member
  rw [asciiLower_layerKey, Lib.infix_separated_iff undotted, Lib.infix_separated_iff undotted]
  have first := plain needle member
  have last := suffixes suffix known needle member
  tauto

def Slot.Unsuspicious : Slot → Prop
  | .layer name => suspiciousKey name = false
  | _ => True

theorem suspiciousKey_slot {slot : Slot} {suffix : String} (known : suffix ∈ settingSuffixes) :
    suspiciousKey (slot.key suffix) = false ↔ slot.Unsuspicious := by
  cases slot with
  | llm => exact iff_of_true (by revert suffix; decide) trivial
  | embedding => exact iff_of_true (by revert suffix; decide) trivial
  | layer name => rw [suspiciousKey_layer known, Slot.Unsuspicious]

section
variable {doc : TenantConfigDocument} {providers : ManifestProviders}

theorem raw_applyManifestProviders (named : providers.Named) (clean : containsRawSecretMaterial doc.fields = false)
    (kinds : ∀ slot p, providers.provider? slot = some p → isBlank p.kind = false) :
    containsRawSecretMaterial (doc.applyManifestProviders providers).fields = false ↔
      ∀ slot p, providers.provider? slot = some p → slot.Unsuspicious := by
  rw [containsRawSecretMaterial_eq_false] at clean ⊢
  constructor
  · intro unflagged slot p declared
    have kind : "provider" ∈ settingSuffixes := by decide
    have stored : (doc.applyManifestProviders providers).fields[slot.key "provider"]? =
        ((p.setting "provider").map platformField).or doc.fields[slot.key "provider"]? :=
      field_of_slot named declared kind
    have fine := unflagged _ _ stored
    have present := kinds slot p declared
    apply (suspiciousKey_slot kind).mp
    simpa [platformField, valueContainsRawSecretMaterial, present] using fine
  · intro unsuspicious key field found
    by_cases written : ∃ other, (key, other) ∈ providers.writes
    · obtain ⟨other, written⟩ := written
      rw [field_written named written] at found
      cases found
      obtain ⟨slot, p, declared, written⟩ := mem_writes.mp written
      obtain ⟨suffix, known, value, -, same⟩ := Slot.mem_writes.mp written
      obtain ⟨rfl, rfl⟩ := Prod.mk.inj same
      have plain := (suspiciousKey_slot known).mpr (unsuspicious slot p declared)
      simp [platformField, valueContainsRawSecretMaterial, plain]
    · rw [field_other (not_exists.mp written)] at found
      exact clean key field found

theorem applyOne_reference_canonical {slot : Slot} {p : ManifestProvider}
    (canonical : ∀ name, p.secretRef = some name → name = slot.apiKey) :
    (doc.applyOne slot p).secretReferences = doc.secretReferences := by
  rw [applyOne_secretReferences]
  split
  · rename_i source found
    obtain ⟨name, given, found⟩ := Option.bind_eq_some_iff.mp found
    rw [canonical name given] at found
    apply Std.ExtTreeMap.ext_getElem?
    intro key
    rw [Std.ExtTreeMap.getElem?_insert]
    split
    · rename_i same
      rw [← Std.LawfulEqCmp.compare_eq_iff_eq.mp same]
      exact found.symm
    · rfl
  · rfl

variable {slots : List (Slot × ManifestProvider)}

theorem applyAll_reference_canonical
    (canonical : ∀ entry ∈ slots, ∀ name, entry.2.secretRef = some name → name = entry.1.apiKey) :
    (slots.foldl (fun doc entry => doc.applyOne entry.1 entry.2) doc).secretReferences = doc.secretReferences := by
  induction slots generalizing doc with
  | nil => rfl
  | cons entry rest ih =>
    rw [List.forall_mem_cons] at canonical
    rw [List.foldl_cons, ih canonical.2, applyOne_reference_canonical canonical.1]

theorem canonical_of_selfNamed
    (distinct : slots.Pairwise (fun a b => a.1 ≠ b.1)) (named : ∀ entry ∈ slots, entry.1.Named)
    (declared : ∀ entry ∈ slots, ∀ name, entry.2.secretRef = some name → name ∈ doc.secretReferences)
    (selfNamed : SelfNamed doc.secretReferences)
    (still : SelfNamed (slots.foldl (fun doc entry => doc.applyOne entry.1 entry.2) doc).secretReferences) :
    ∀ entry ∈ slots, ∀ name, entry.2.secretRef = some name → name = entry.1.apiKey := by
  induction slots generalizing doc with
  | nil => simp
  | cons entry rest ih =>
    rw [List.pairwise_cons] at distinct
    rw [List.forall_mem_cons] at named declared ⊢
    rw [List.foldl_cons] at still
    have canonical : ∀ name, entry.2.secretRef = some name → name = entry.1.apiKey := by
      intro name given
      obtain ⟨source, found⟩ := Option.isSome_iff_exists.mp
        (Std.ExtTreeMap.mem_iff_isSome_getElem?.mp (declared.1 name given))
      have aliased : (doc.applyOne entry.1 entry.2).secretReferences[entry.1.apiKey]? = some source := by
        simp [applyOne_secretReferences, given, found]
      have others : ∀ other ∈ rest, entry.1.apiKey ≠ other.1.apiKey := by
        intro other member same
        exact distinct.1 other member (Slot.key_inj named.1 (named.2 other member) same).1
      rw [← applyAll_reference_other others] at aliased
      exact (selfNamed _ _ found).trans (still _ _ aliased).symm
    have same : (doc.applyOne entry.1 entry.2).secretReferences = doc.secretReferences :=
      applyOne_reference_canonical canonical
    refine ⟨canonical, ih distinct.2 named.2 ?_ ?_ still⟩
    · rw [same]
      exact declared.2
    · rwa [same]

end

def TenantManifest.provider? (m : TenantManifest) (slot : Slot) : Option ManifestProvider :=
  m.providers.bind (·.provider? slot)

@[simp] theorem applyManifestProviders_tenantId {doc : TenantConfigDocument} {providers : ManifestProviders} :
    (doc.applyManifestProviders providers).tenantId = doc.tenantId := by
  unfold applyManifestProviders
  induction providers.slots generalizing doc with
  | nil => rfl
  | cons entry rest ih =>
    rw [List.foldl_cons, ih]
    unfold applyOne aliasSecret
    split <;> rfl

theorem configDocument_tenantId {m : TenantManifest} {tenantId : String} :
    (m.configDocument tenantId).tenantId = tenantId := by
  unfold TenantManifest.configDocument
  split
  · exact applyManifestProviders_tenantId
  · rfl

/-- The config write of a validated manifest is accepted exactly if every provider's secret goes by its canonical
name and the name of no layer looks like that of a secret. -/
theorem config_write_accepted_iff {uuids : UuidParser} {id : Uuid} {m : TenantManifest} {maps : ConfigMaps}
    (valid : validateManifest m = []) (selfNamed : SelfNamed m.secretReferences)
    (clean : containsRawSecretMaterial m.fields = false) :
    ((m.configDocument id.text).validate uuids = .ok () ∧ ∃ written,
        maps.upsertConfig uuids (m.configDocument id.text) = .ok written) ↔
      ∀ slot p, m.provider? slot = some p →
        (∀ name, p.secretRef = some name → name = slot.apiKey) ∧ slot.Unsuspicious := by
  have written : (m.configDocument id.text).validate uuids = .ok () →
      ∃ written, maps.upsertConfig uuids (m.configDocument id.text) = .ok written := by
    intro accepted
    exact ⟨_, by simp [ConfigMaps.upsertConfig, accepted, bind, Except.bind, pure, Except.pure]; rfl⟩
  rw [and_iff_left_of_imp written, validate_ok configDocument_tenantId]
  have titled : Titled m.secretReferences := fun name reference declared => logicalName_checked valid declared
  cases given : m.providers with
  | none =>
    have plain : m.configDocument id.text = m.declaredConfig id.text := by simp [TenantManifest.configDocument, given]
    rw [plain]
    exact iff_of_true ⟨clean, selfNamed, titled⟩ (by simp [TenantManifest.provider?, given])
  | some providers =>
    have built : m.configDocument id.text = (m.declaredConfig id.text).applyManifestProviders providers := by
      simp [TenantManifest.configDocument, given]
    have lookup : ∀ slot, m.provider? slot = providers.provider? slot := by simp [TenantManifest.provider?, given]
    have named := providers_named valid given
    have checked := fun slot p => @provider_checked m providers valid given slot p
    rw [built, raw_applyManifestProviders named clean (fun slot p declared => (checked slot p declared).1)]
    simp only [lookup]
    constructor
    · rintro ⟨unsuspicious, still, -⟩ slot p declared
      refine ⟨?_, unsuspicious slot p declared⟩
      refine canonical_of_selfNamed slots_distinct ?_ ?_ selfNamed still (slot, p)
        (mem_slots.mpr declared)
      · rintro ⟨other, q⟩ member
        exact named other q (mem_slots.mp member)
      · rintro ⟨other, q⟩ member name secret
        exact Std.ExtTreeMap.mem_keys.mp ((checked other q (mem_slots.mp member)).2 name secret)
    · intro all
      have same : ((m.declaredConfig id.text).applyManifestProviders providers).secretReferences =
          m.secretReferences := by
        refine applyAll_reference_canonical ?_
        rintro ⟨slot, p⟩ member
        exact (all slot p (mem_slots.mp member)).1
      rw [same]
      exact ⟨fun slot p declared => (all slot p declared).2, selfNamed, titled⟩

def canonicalUuids : UuidParser where
  parse text := if canonical : uuidText text then some ⟨text, canonical⟩ else none
  parse_text id := dif_pos id.canonical

def acmeId : Uuid := ⟨"9f1c2b7e-0d4a-4c1e-8b53-6a2f0e7d9c11", by decide +kernel⟩

def openaiManifest (secretName : String) : TenantManifest where
  tenant := { slug := "acme", name := "Acme" }
  config := some { secretReferences := (∅ : BTreeMap _).insert secretName ⟨secretName, .tenant, .env "OPENAI_KEY"⟩ }
  providers := some { llm := some { kind := "openai", model := some "gpt-4o", secretRef := some secretName } }

theorem openaiManifest_selfNamed (secretName : String) : SelfNamed (openaiManifest secretName).secretReferences := by
  intro name reference found
  simp only [TenantManifest.secretReferences, openaiManifest, Option.map_some, Option.getD_some,
    Std.ExtTreeMap.getElem?_insert] at found
  split at found
  · rename_i same
    cases found
    exact (Std.LawfulEqCmp.compare_eq_iff_eq.mp same).symm
  · simp at found

theorem canonical_key_accepted :
    ((openaiManifest "llm_api_key").configDocument acmeId.text).validate canonicalUuids = .ok () ∧ ∃ written,
      ConfigMaps.upsertConfig canonicalUuids ∅ ((openaiManifest "llm_api_key").configDocument acmeId.text) =
        .ok written := by
  refine (config_write_accepted_iff (by decide +kernel) (openaiManifest_selfNamed _) (by decide +kernel)).mpr ?_
  intro slot p declared
  cases slot with
  | llm =>
    obtain rfl : _ = p := Option.some.inj declared
    refine ⟨?_, trivial⟩
    rintro name ⟨⟩
    decide
  | embedding => simp [TenantManifest.provider?, openaiManifest, provider?] at declared
  | layer name => simp [TenantManifest.provider?, openaiManifest, provider?] at declared

/-- A name of the operator's own passes the validation of the manifest, but not that of the document. -/
theorem operator_key_rejected :
    ¬ ∀ (uuids : UuidParser) (id : Uuid) (m : TenantManifest) (maps : ConfigMaps), validateManifest m = [] →
      SelfNamed m.secretReferences → containsRawSecretMaterial m.fields = false →
      ((m.configDocument id.text).validate uuids = .ok () ∧ ∃ written,
        maps.upsertConfig uuids (m.configDocument id.text) = .ok written) := by
  intro claim
  have accepted := (claim canonicalUuids acmeId (openaiManifest "openai_key") ∅ (by decide +kernel)
    (openaiManifest_selfNamed _) (by decide +kernel)).1
  revert accepted
  decide +kernel

end Aeterna.Tenancy
