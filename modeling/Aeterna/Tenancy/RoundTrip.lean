import Aeterna.Tenancy.Acceptance
import Aeterna.Tenancy.Rendering

namespace Aeterna.Tenancy
open TenantConfigDocument ManifestProviders List

def ManifestProvider.rendered (p : ManifestProvider) : RenderedProvider := ⟨p.kind, p.model, p.secretRef, p.config⟩

def ManifestProviders.rendered (providers : ManifestProviders) : RenderedProviders where
  llm := providers.llm.map ManifestProvider.rendered
  embedding := providers.embedding.map ManifestProvider.rendered
  memoryLayers := providers.memoryLayers.map (fun _ p => p.rendered)

def supportedKeys (kind : String) : List String :=
  if kind = "google" then ["projectId", "location"] else if kind = "bedrock" then ["region"] else []

def ManifestProvider.Supported (p : ManifestProvider) : Prop := ∀ key ∈ p.config, key ∈ supportedKeys p.kind

theorem ManifestProvider.supported_of_empty {p : ManifestProvider} (empty : p.config = ∅) : p.Supported := by
  intro key member
  simp [empty] at member

/-- What each name stands for, once the canonical name of every provider is taken for the one in its `secretRef`. -/
def TenantConfigDocument.meaning (config : TenantConfigDocument) (slots : List (Slot × ManifestProvider)) :
    String → Option SecretReference :=
  slots.foldl (fun meaning entry =>
    match entry.2.secretRef with
    | some name => Function.update meaning entry.1.apiKey ((meaning name).or (meaning entry.1.apiKey))
    | none => meaning) (fun name => config.secretReferences[name]?.map (·.reference))

def FirstName (meaning : String → Option SecretReference) (canonical name : String) : Prop :=
  (name ≠ canonical ∧ meaning name = meaning canonical ∧
    ∀ other, other ≠ canonical → meaning other = meaning canonical → name ≤ other) ∨
  (name = canonical ∧ ∀ other, other ≠ canonical → meaning other ≠ meaning canonical)

/-- What the config has to leave free, and the names that secrets have to go by, for the providers to be read back. -/
structure Recoverable (config : TenantConfigDocument) (providers : ManifestProviders) : Prop where
  settings : ∀ slot p, providers.provider? slot = some p → ∀ suffix ∈ settingSuffixes, p.setting suffix = none →
    fieldAsString config.fields (slot.key suffix) = none
  undeclared : ∀ slot, slot.Named → providers.provider? slot = none →
    fieldAsString config.fields (slot.key "provider") = none
  keyless : ∀ slot p, providers.provider? slot = some p → p.secretRef = none → slot.apiKey ∉ config.secretReferences
  secrets : ∀ slot p name, providers.provider? slot = some p → p.secretRef = some name →
    FirstName (config.meaning providers.slots) slot.apiKey name

variable {refs : BTreeMap TenantSecretReference}

theorem resolve_none {canonical : String} : resolveOperatorSecretRef refs canonical = none ↔ canonical ∉ refs := by
  simp [resolveOperatorSecretRef]

theorem resolve_iff {canonical name : String}
    {meaning : String → Option SecretReference} (means : ∀ name, meaning name = refs[name]?.map (·.reference))
    (present : canonical ∈ refs) :
    resolveOperatorSecretRef refs canonical = some name ↔ FirstName meaning canonical name := by
  obtain ⟨source, found⟩ := Option.isSome_iff_exists.mp (Std.ExtTreeMap.mem_iff_isSome_getElem?.mp present)
  have own : meaning canonical = some source.reference := by simp [means, found]
  have hits : ∀ other, other ≠ canonical → (meaning other = meaning canonical ↔
      ∃ entry ∈ refs.toList, entry.1 = other ∧ entry.2.reference = source.reference) := by
    intro other different
    rw [own, means, Option.map_eq_some_iff]
    constructor
    · rintro ⟨reference, stored, same⟩
      exact ⟨(other, reference), Std.ExtTreeMap.mem_toList_iff_getElem?_eq_some.mpr stored, rfl, same⟩
    · rintro ⟨entry, member, rfl, same⟩
      exact ⟨entry.2, Std.ExtTreeMap.mem_toList_iff_getElem?_eq_some.mp member, same⟩
  unfold resolveOperatorSecretRef
  rw [found, Option.map_some, Option.some_inj]
  split
  · rename_i entry first
    have member := mem_of_find?_eq_some first
    have passes := find?_some first
    simp only [decide_eq_true_eq] at passes
    have least : ∀ other, other ≠ canonical → meaning other = meaning canonical → entry.1 ≤ other := by
      intro other different same
      obtain ⟨entry', member', rfl, equal⟩ := (hits other different).mp same
      rcases Lib.find?_least Std.ExtTreeMap.ordered_keys_toList first entry' member' (by simp [different, equal]) with
        rfl | less
      · exact le_rfl
      · exact le_of_lt (compare_lt_iff_lt.mp less)
    have same : meaning entry.1 = meaning canonical := (hits _ passes.1).mpr ⟨entry, member, rfl, passes.2⟩
    constructor
    · rintro rfl
      exact Or.inl ⟨passes.1, same, least⟩
    · rintro (⟨different, equal, lowest⟩ | ⟨-, alone⟩)
      · exact le_antisymm (least name different equal) (lowest entry.1 passes.1 same)
      · exact absurd same (alone entry.1 passes.1)
  · rename_i missing
    rw [find?_eq_none] at missing
    have alone : ∀ other, other ≠ canonical → meaning other ≠ meaning canonical := by
      intro other different same
      obtain ⟨entry, member, rfl, equal⟩ := (hits other different).mp same
      exact missing entry member (by simp [different, equal])
    constructor
    · rintro rfl
      exact Or.inr ⟨rfl, alone⟩
    · rintro (⟨different, same, -⟩ | ⟨rfl, -⟩)
      · exact absurd same (alone name different)
      · rfl

section
variable {config : TenantConfigDocument} {providers : ManifestProviders}

theorem applyOne_meaning (entry : Slot × ManifestProvider) :
    (fun name => (config.applyOne entry.1 entry.2).secretReferences[name]?.map (·.reference)) =
      config.meaning [entry] := by
  funext name
  rw [applyOne_secretReferences]
  unfold TenantConfigDocument.meaning
  rw [foldl_cons, foldl_nil]
  cases given : entry.2.secretRef with
  | none => rfl
  | some operatorName =>
    by_cases own : name = entry.1.apiKey
    · subst own
      cases found : config.secretReferences[operatorName]? <;> simp [found]
    · have apart : ¬ compare entry.1.apiKey name = .eq := fun same =>
        own (Std.LawfulEqCmp.compare_eq_iff_eq.mp same).symm
      cases found : config.secretReferences[operatorName]? <;>
        simp [found, own, Function.update_of_ne, Std.ExtTreeMap.getElem?_insert, apart]

variable {slots : List (Slot × ManifestProvider)} {name : String}

theorem applyAll_meaning : config.meaning slots name =
      (slots.foldl (fun doc entry => doc.applyOne entry.1 entry.2) config).secretReferences[name]?.map
        (·.reference) := by
  induction slots generalizing config with
  | nil => rfl
  | cons entry rest ih =>
    rw [foldl_cons, ← ih]
    show (rest.foldl _ (config.meaning [entry])) name = _
    rw [← applyOne_meaning]
    rfl

theorem mem_applyOne {entry : Slot × ManifestProvider}
    (declared : ∀ secret, entry.2.secretRef = some secret → secret ∈ config.secretReferences) :
    name ∈ (config.applyOne entry.1 entry.2).secretReferences ↔
      name ∈ config.secretReferences ∨ (name = entry.1.apiKey ∧ entry.2.secretRef.isSome) := by
  rw [applyOne_secretReferences]
  cases given : entry.2.secretRef with
  | none => simp
  | some secret =>
    obtain ⟨source, found⟩ := Option.isSome_iff_exists.mp
      (Std.ExtTreeMap.mem_iff_isSome_getElem?.mp (declared secret given))
    simp only [Option.bind_some, found, Option.isSome_some, and_true]
    rw [Std.ExtTreeMap.mem_insert, Std.LawfulEqCmp.compare_eq_iff_eq, or_comm, eq_comm]

theorem mem_applyAll
    (declared : ∀ entry ∈ slots, ∀ secret, entry.2.secretRef = some secret → secret ∈ config.secretReferences) :
    name ∈ (slots.foldl (fun doc entry => doc.applyOne entry.1 entry.2) config).secretReferences ↔
      name ∈ config.secretReferences ∨ ∃ entry ∈ slots, name = entry.1.apiKey ∧ entry.2.secretRef.isSome := by
  induction slots generalizing config with
  | nil => simp
  | cons entry rest ih =>
    rw [forall_mem_cons] at declared
    rw [foldl_cons, ih, mem_applyOne declared.1, or_assoc]
    · simp
    · intro other member secret given
      exact (mem_applyOne declared.1).mpr (Or.inl (declared.2 other member secret given))

section
variable (named : providers.Named) {slot : Slot} {p : ManifestProvider}
  (given : providers.provider? slot = some p)
  (declared : ∀ slot p, providers.provider? slot = some p → ∀ secret, p.secretRef = some secret → secret ∈ config.secretReferences)
include named given declared

theorem mem_apiKey : slot.apiKey ∈ (config.applyManifestProviders providers).secretReferences ↔
      slot.apiKey ∈ config.secretReferences ∨ p.secretRef.isSome := by
  unfold applyManifestProviders
  rw [mem_applyAll (fun entry member => declared _ _ (mem_slots.mp member))]
  refine or_congr_right ⟨?_, fun secret => ⟨(slot, p), mem_slots.mpr given, rfl, secret⟩⟩
  rintro ⟨⟨other, q⟩, member, same, secret⟩
  have given' := mem_slots.mp member
  obtain ⟨rfl, -⟩ := Slot.key_inj (named _ _ given) (named _ _ given') same
  rw [given] at given'
  cases given'
  exact secret

theorem resolve_apiKey_iff :
    resolveOperatorSecretRef (config.applyManifestProviders providers).secretReferences slot.apiKey = p.secretRef ↔
      (p.secretRef = none → slot.apiKey ∉ config.secretReferences) ∧
        ∀ name, p.secretRef = some name → FirstName (config.meaning providers.slots) slot.apiKey name := by
  have present := mem_apiKey named given declared
  cases secret : p.secretRef with
  | none =>
    rw [resolve_none, present, secret]
    simp
  | some name =>
    have read : resolveOperatorSecretRef (config.applyManifestProviders providers).secretReferences slot.apiKey =
        some name ↔ FirstName (config.meaning providers.slots) slot.apiKey name :=
      resolve_iff (fun _ => applyAll_meaning) (present.mpr (Or.inr (by simp [secret])))
    rw [read]
    simp

end

end

section
variable {config : TenantConfigDocument} {providers : ManifestProviders}

theorem text_of_slot (named : providers.Named) {slot : Slot} {p : ManifestProvider}
    (given : providers.provider? slot = some p) {suffix : String} (known : suffix ∈ settingSuffixes) :
    fieldAsString (config.applyManifestProviders providers).fields (slot.key suffix) =
      (p.setting suffix).or (fieldAsString config.fields (slot.key suffix)) := by
  unfold fieldAsString
  rw [field_of_slot named given known]
  cases p.setting suffix <;> rfl

theorem text_of_undeclared (named : providers.Named) {slot : Slot} (own : slot.Named)
    (missing : providers.provider? slot = none) (suffix : String) :
    fieldAsString (config.applyManifestProviders providers).fields (slot.key suffix) =
      fieldAsString config.fields (slot.key suffix) := by
  unfold fieldAsString
  rw [field_other]
  intro field written
  obtain ⟨other, p, given, written⟩ := mem_writes.mp written
  obtain ⟨suffix', -, value, -, same⟩ := Slot.mem_writes.mp written
  obtain ⟨rfl, -⟩ := Slot.key_inj own (named _ _ given) (Prod.mk.inj same).1
  rw [missing] at given
  cases given

theorem or_eq_left_iff {value before : Option String} : value.or before = value ↔ (value = none → before = none) := by
  cases value <;> simp

def collected (projectId location region : Option String) : BTreeMap String :=
  [("projectId", projectId), ("location", location), ("region", region)].foldl (fun config (name, value) =>
    match value with
    | some value => config.insert name value
    | none => config) ∅

theorem getElem?_collected {projectId location region : Option String} {key : String} :
    (collected projectId location region)[key]? =
      if key = "projectId" then projectId else if key = "location" then location
      else if key = "region" then region else none := by
  have self : ∀ (text : String), compare text key = .eq ↔ key = text := fun text =>
    Std.LawfulEqCmp.compare_eq_iff_eq.trans eq_comm
  cases projectId <;> cases location <;> cases region <;>
    simp only [collected, foldl_cons, foldl_nil, Std.ExtTreeMap.getElem?_insert, self,
      Std.ExtTreeMap.getElem?_empty] <;>
    grind

theorem ManifestProvider.Supported.getElem? {p : ManifestProvider} (supported : p.Supported) (key : String) :
    p.config[key]? =
      if key = "projectId" then p.setting "google_project_id"
        else if key = "location" then p.setting "google_location"
      else if key = "region" then p.setting "bedrock_region" else none := by
  have missing : key ∉ supportedKeys p.kind → p.config[key]? = none := by
    intro unsupported
    exact Std.ExtTreeMap.getElem?_eq_none (fun member => unsupported (supported key member))
  by_cases google : p.kind = "google"
  · by_cases project : key = "projectId"
    · simp [google, project]
    by_cases location : key = "location"
    · simp [google, location]
    · rw [missing (by simp [supportedKeys, google, project, location])]
      simp [google, project, location]
  by_cases bedrock : p.kind = "bedrock"
  · by_cases region : key = "region"
    · simp [bedrock, region]
    · rw [missing (by simp [supportedKeys, bedrock, region])]
      simp [bedrock, region]
  · rw [missing (by simp [supportedKeys, google, bedrock])]
    simp [google, bedrock]

theorem collected_eq_iff {p : ManifestProvider} (supported : p.Supported)
    {projectId location region : Option String} :
    collected ((p.setting "google_project_id").or projectId) ((p.setting "google_location").or location)
        ((p.setting "bedrock_region").or region) = p.config ↔
      (p.setting "google_project_id" = none → projectId = none) ∧
        (p.setting "google_location" = none → location = none) ∧
        (p.setting "bedrock_region" = none → region = none) := by
  simp only [← or_eq_left_iff]
  constructor
  · intro same
    have read := fun key => (getElem?_collected.symm.trans (congrArg (·[key]?) same)).trans (supported.getElem? key)
    exact ⟨by simpa using read "projectId", by simpa using read "location", by simpa using read "region"⟩
  · rintro ⟨first, second, third⟩
    apply Std.ExtTreeMap.ext_getElem?
    intro key
    rw [getElem?_collected, supported.getElem?, first, second, third]

theorem renderSlot_eq {fields : BTreeMap TenantConfigField} {references : BTreeMap TenantSecretReference}
    {slot : Slot} :
    renderSlot fields references false slot = (fieldAsString fields (slot.key "provider")).map (fun kind =>
      { kind
        model := fieldAsString fields (slot.key "model")
        secretRef := resolveOperatorSecretRef references slot.apiKey
        config := collected (fieldAsString fields (slot.key "google_project_id"))
          (fieldAsString fields (slot.key "google_location")) (fieldAsString fields (slot.key "bedrock_region")) }) :=
            rfl

theorem renderSlot_declared_iff (named : providers.Named) {slot : Slot} {p : ManifestProvider}
    (given : providers.provider? slot = some p) (supported : p.Supported)
    (declared : ∀ slot p, providers.provider? slot = some p → ∀ secret, p.secretRef = some secret →
      secret ∈ config.secretReferences) :
    renderSlot (config.applyManifestProviders providers).fields
        (config.applyManifestProviders providers).secretReferences false slot = some p.rendered ↔
      (∀ suffix ∈ settingSuffixes, p.setting suffix = none → fieldAsString config.fields (slot.key suffix) = none) ∧
        (p.secretRef = none → slot.apiKey ∉ config.secretReferences) ∧
        ∀ name, p.secretRef = some name → FirstName (config.meaning providers.slots) slot.apiKey name := by
  have texts := fun suffix known => @text_of_slot config providers named slot p given suffix known
  have read : renderSlot (config.applyManifestProviders providers).fields
      (config.applyManifestProviders providers).secretReferences false slot = some
        { kind := p.kind
          model := p.model.or (fieldAsString config.fields (slot.key "model"))
          secretRef :=
            resolveOperatorSecretRef (config.applyManifestProviders providers).secretReferences slot.apiKey
          config := collected
            ((p.setting "google_project_id").or (fieldAsString config.fields (slot.key "google_project_id")))
            ((p.setting "google_location").or (fieldAsString config.fields (slot.key "google_location")))
            ((p.setting "bedrock_region").or (fieldAsString config.fields (slot.key "bedrock_region"))) } := by
    rw [renderSlot_eq, texts _ (by decide), texts _ (by decide), texts _ (by decide), texts _ (by decide),
      texts _ (by decide)]
    rfl
  rw [read, ← resolve_apiKey_iff named given declared]
  have kind : p.setting "provider" ≠ none := nofun
  have model : p.setting "model" = p.model := rfl
  simp only [Option.some_inj, ManifestProvider.rendered, RenderedProvider.mk.injEq, true_and, or_eq_left_iff,
    collected_eq_iff supported, settingSuffixes, forall_mem_cons, not_mem_nil, false_implies, implies_true,
    and_true, kind, model]
  tauto

theorem renderSlot_undeclared_iff (named : providers.Named) {slot : Slot} (own : slot.Named)
    (missing : providers.provider? slot = none) :
    renderSlot (config.applyManifestProviders providers).fields
        (config.applyManifestProviders providers).secretReferences false slot = none ↔
      fieldAsString config.fields (slot.key "provider") = none := by
  rw [renderSlot, renderOneProvider, Option.map_eq_none_iff, text_of_undeclared named own missing]

end

section
variable {config : TenantConfigDocument} {providers : ManifestProviders}

theorem rendered_eq_iff {llm embedding : Option RenderedProvider} {layers : BTreeMap RenderedProvider} :
    (⟨llm, embedding, layers⟩ : RenderedProviders) = providers.rendered ↔
      llm = (providers.provider? .llm).map (·.rendered) ∧
        embedding = (providers.provider? .embedding).map (·.rendered) ∧
        ∀ name, layers[name]? = (providers.provider? (.layer name)).map (·.rendered) := by
  have layered : layers = providers.memoryLayers.map (fun _ p => p.rendered) ↔
      ∀ name : String, layers[name]? = providers.memoryLayers[name]?.map ManifestProvider.rendered := by
    constructor
    · rintro rfl name
      exact Std.ExtTreeMap.getElem?_map
    · intro same
      apply Std.ExtTreeMap.ext_getElem?
      intro name
      rw [same, Std.ExtTreeMap.getElem?_map]
  simp only [ManifestProviders.rendered, RenderedProviders.mk.injEq, layered]
  rfl

theorem renderProviders_getD {fields : BTreeMap TenantConfigField} {references : BTreeMap TenantSecretReference}
    {redact : Bool} :
    (renderProviders fields references redact).getD {} =
      ⟨renderSlot fields references redact .llm, renderSlot fields references redact .embedding,
        renderMemoryLayers fields references redact⟩ := by
  simp only [renderProviders]
  split
  · rename_i nothing
    simp only [Bool.and_eq_true, Option.isNone_iff_eq_none, Std.ExtTreeMap.isEmpty_iff] at nothing
    simp [nothing]
  · rfl

theorem renders_iff (named : providers.Named) : (renderProviders (config.applyManifestProviders providers).fields
        (config.applyManifestProviders providers).secretReferences false).getD {} = providers.rendered ↔
      ∀ slot, slot.Named → renderSlot (config.applyManifestProviders providers).fields
        (config.applyManifestProviders providers).secretReferences false slot =
          (providers.provider? slot).map (·.rendered) := by
  rw [renderProviders_getD, rendered_eq_iff]
  constructor
  · rintro ⟨llm, embedding, layers⟩ slot own
    cases slot with
    | llm => exact llm
    | embedding => exact embedding
    | layer name => rw [← renderMemoryLayers_getElem? own, layers]
  · intro each
    refine ⟨each .llm trivial, each .embedding trivial, fun name => ?_⟩
    by_cases own : (Slot.layer name).Named
    · rw [renderMemoryLayers_getElem? own, each _ own]
    · rw [renderMemoryLayers_unnamed own]
      cases given : providers.provider? (.layer name) with
      | none => rfl
      | some p => exact absurd (named _ _ given) own

end

/-- Rendering gives back the providers of a validated manifest exactly if the manifest's own config leaves
their places free and each secret goes by the first of its names. -/
theorem providers_round_trip_iff {m : TenantManifest} {providers : ManifestProviders} {tenantId : String}
    (valid : validateManifest m = []) (given : m.providers = some providers)
    (supported : ∀ slot p, providers.provider? slot = some p → p.Supported) :
    (renderProviders ((m.declaredConfig tenantId).applyManifestProviders providers).fields
        ((m.declaredConfig tenantId).applyManifestProviders providers).secretReferences false).getD {} =
        providers.rendered ↔
      Recoverable (m.declaredConfig tenantId) providers := by
  have named := providers_named valid given
  have declared : ∀ slot p, providers.provider? slot = some p → ∀ secret, p.secretRef = some secret →
      secret ∈ (m.declaredConfig tenantId).secretReferences := by
    intro slot p found secret same
    exact Std.ExtTreeMap.mem_keys.mp ((provider_checked valid given found).2 secret same)
  have slots := fun slot p found => @renderSlot_declared_iff (m.declaredConfig tenantId) providers named slot p found
    (supported slot p found) declared
  rw [renders_iff named]
  constructor
  · intro each
    have read : ∀ slot p (found : providers.provider? slot = some p), _ := fun slot p found =>
      (slots slot p found).mp ((each slot (named slot p found)).trans (by rw [found]; rfl))
    refine ⟨fun slot p found => (read slot p found).1, ?_, fun slot p found => (read slot p found).2.1,
      fun slot p name found => (read slot p found).2.2 name⟩
    intro slot own missing
    exact (renderSlot_undeclared_iff named own missing).mp ((each slot own).trans (by rw [missing]; rfl))
  · intro recoverable slot own
    cases found : providers.provider? slot with
    | none => exact (renderSlot_undeclared_iff named own found).mpr (recoverable.undeclared slot own found)
    | some p =>
      exact (slots slot p found).mpr ⟨recoverable.settings slot p found, recoverable.keyless slot p found,
        fun name => recoverable.secrets slot p name found⟩

theorem openai_only (slot : Slot) (p : ManifestProvider)
    (given : ((openaiManifest "openai_key").providers.getD {}).provider? slot = some p) :
    slot = .llm ∧ p.secretRef = some "openai_key" := by
  cases slot with
  | llm =>
    cases given
    exact ⟨rfl, rfl⟩
  | embedding => simp [openaiManifest, provider?] at given
  | layer name => simp [openaiManifest, provider?] at given

theorem openai_recoverable : Recoverable ((openaiManifest "openai_key").declaredConfig acmeId.text)
      ((openaiManifest "openai_key").providers.getD {}) := by
  have free : ∀ key, fieldAsString ((openaiManifest "openai_key").declaredConfig acmeId.text).fields key = none := by
    intro key
    simp [TenantManifest.declaredConfig, TenantManifest.fields, openaiManifest, fieldAsString]
  refine ⟨fun _ _ _ _ _ _ => free _, fun _ _ _ => free _, ?_, ?_⟩
  · intro slot p given missing
    rw [(openai_only slot p given).2] at missing
    cases missing
  · intro slot p name given secret
    obtain ⟨rfl, same⟩ := openai_only slot p given
    obtain rfl : "openai_key" = name := Option.some.inj (same.symm.trans secret)
    refine Or.inl ⟨by decide, by decide +kernel, ?_⟩
    intro other different stands
    by_cases own : other = "openai_key"
    · exact le_of_eq own.symm
    have slots : ((openaiManifest "openai_key").providers.getD {}).slots =
        [(.llm, { kind := "openai", model := some "gpt-4o", secretRef := some "openai_key" })] := rfl
    have nothing : ((openaiManifest "openai_key").declaredConfig acmeId.text).meaning
        ((openaiManifest "openai_key").providers.getD {}).slots other = none := by
      rw [slots]
      simp [TenantConfigDocument.meaning, openaiManifest, TenantManifest.declaredConfig,
        TenantManifest.secretReferences, Function.update_of_ne different, Std.ExtTreeMap.getElem?_insert, Ne.symm own]
    have something : ((openaiManifest "openai_key").declaredConfig acmeId.text).meaning
        ((openaiManifest "openai_key").providers.getD {}).slots Slot.llm.apiKey ≠ none := by
      decide +kernel
    exact absurd (stands.symm.trans nothing) something

theorem openai_round_trip :
    (renderProviders (((openaiManifest "openai_key").declaredConfig acmeId.text).applyManifestProviders
        ((openaiManifest "openai_key").providers.getD {})).fields
      (((openaiManifest "openai_key").declaredConfig acmeId.text).applyManifestProviders
        ((openaiManifest "openai_key").providers.getD {})).secretReferences false).getD {} =
      ((openaiManifest "openai_key").providers.getD {}).rendered := by
  refine (providers_round_trip_iff (by decide +kernel) rfl ?_).mpr openai_recoverable
  intro slot p given
  obtain ⟨rfl, -⟩ := openai_only slot p given
  cases given
  exact ManifestProvider.supported_of_empty rfl

def sharedKeyManifest : TenantManifest where
  tenant := { slug := "acme", name := "Acme" }
  config := some { secretReferences := (∅ : BTreeMap _).insert "openai_key" ⟨"openai_key", .tenant, .env "OPENAI_KEY"⟩ }
  providers := some {
    llm := some { kind := "openai", secretRef := some "openai_key" }
    embedding := some { kind := "openai", secretRef := some "openai_key" } }

/-- The LLM's key is read back under the name of the other provider's alias, which comes first. -/
theorem shared_key_renamed :
    ¬ ∀ (m : TenantManifest) (providers : ManifestProviders) (tenantId : String), validateManifest m = [] →
      m.providers = some providers → (∀ slot p, providers.provider? slot = some p → p.Supported) →
      (renderProviders ((m.declaredConfig tenantId).applyManifestProviders providers).fields
        ((m.declaredConfig tenantId).applyManifestProviders providers).secretReferences false).getD {} =
        providers.rendered := by
  intro claim
  have same := claim sharedKeyManifest (sharedKeyManifest.providers.getD {}) acmeId.text (by decide +kernel) rfl ?_
  · have secrets := congrArg (fun rendered => rendered.llm.bind (·.secretRef)) same
    revert secrets
    decide +kernel
  · intro slot p given
    cases slot with
    | llm =>
      cases given
      exact ManifestProvider.supported_of_empty rfl
    | embedding =>
      cases given
      exact ManifestProvider.supported_of_empty rfl
    | layer name => simp [sharedKeyManifest, provider?] at given

end Aeterna.Tenancy
