import Aeterna.Knowledge.Promotion

namespace Aeterna
open Lib List

structure Interruption where
  message : String
  written : Nat := 0

/-- A repository and everything else that answers a `KnowledgeManager`. The `n`-th answer of the clock,
the governance engine and the surroundings is the one at `n`. -/
structure ManagerEnv where
  repository : RepositoryConfig
  toLowercase : String → String
  newId : Nat → String
  newId_injective : Function.Injective newId
  newId_plain : ∀ n, PlainName (newId n)
  newId_undotted : ∀ n, '.' ∉ (newId n).toList
  parseRequest : String → Except String PromotionRequest
  parseRequest_render : ∀ request, parseRequest (PromotionRequest.json.render request) = .ok request
  parseRelation : String → Except String KnowledgeRelation
  parseRelation_render : ∀ relation, parseRelation (KnowledgeRelation.json.render relation) = .ok relation
  parseRelation_sidecar : ∀ sidecar relation, parseRelation (repository.renderSidecar sidecar) ≠ .ok relation
  parseRelation_request : ∀ request relation, parseRelation (PromotionRequest.json.render request) ≠ .ok relation
  parseRequest_sidecar : ∀ sidecar request, parseRequest (repository.renderSidecar sidecar) ≠ .ok request
  parseRequest_relation : ∀ relation request, parseRequest (KnowledgeRelation.json.render relation) ≠ .ok request
  now : Nat → Int := fun _ => 0
  validate : Nat → TenantContext → KnowledgeLayer → PolicyContext → Except String ValidationResult :=
    fun _ _ _ _ => .ok ⟨true, []⟩
  fault : Nat → Option Interruption := fun _ => none

/-- A repository, and how many ids and answers were given out. -/
structure Workspace where
  repo : GitRepository := .empty
  drawn : Nat := 0
  tick : Nat := 0

structure FileWrite where
  location : Location
  plain : PlainLocation location
  text : String

def Files.writeAll (files : Files) : List FileWrite → Files × Option String
  | [] => (files, none)
  | write :: rest =>
    match files.write write.location write.plain write.text with
    | .ok next => next.writeAll rest
    | .error message => (files, some message)

def GitRepository.perform (config : RepositoryConfig) (fault : Option Interruption) (writes : List FileWrite)
    (message : String) (repo : GitRepository) : Except String String × GitRepository :=
  match fault with
  | some fault => (.error fault.message, { repo with files := (repo.files.writeAll (writes.take fault.written)).1 })
  | none =>
    match repo.files.writeAll writes with
    | (files, some error) => (.error error, { repo with files := files })
    | (files, none) =>
      let committed := ({ repo with files := files } : GitRepository).commit config message
      (.ok committed.1, committed.2)

theorem GitRepository.perform_files (config : RepositoryConfig) (fault : Option Interruption)
    (writes : List FileWrite) (message : String) (repo : GitRepository) :
    ∃ n, (repo.perform config fault writes message).2.files = (repo.files.writeAll (writes.take n)).1 := by
  unfold GitRepository.perform
  cases fault with
  | some fault => exact ⟨fault.written, rfl⟩
  | none =>
    refine ⟨writes.length, ?_⟩
    rw [take_length]
    cases shape : repo.files.writeAll writes with
    | mk files error =>
      cases error with
      | some message => rfl
      | none => rfl

theorem GitRepository.perform_ok {config : RepositoryConfig} {fault : Option Interruption}
    {writes : List FileWrite} {message id : String} {repo next : GitRepository}
    (done : repo.perform config fault writes message = (.ok id, next)) :
    repo.files.writeAll writes = (next.files, none) := by
  unfold GitRepository.perform at done
  cases fault with
  | some fault => cases done
  | none =>
    cases shape : repo.files.writeAll writes with
    | mk files error =>
      rw [shape] at done
      cases error with
      | some message => cases done
      | none =>
        cases done
        rfl

section
variable (config : RepositoryConfig)

def RepositoryConfig.metaDirectory (kind : String) : Location :=
  locate (locate (locate config.root config.tenantId) "_meta") kind

def RepositoryConfig.metaPath (kind id : String) : Location := locate (config.metaDirectory kind) (id ++ ".json")

theorem RepositoryConfig.metaPath_plain (kind id : String) : PlainLocation (config.metaPath kind id) :=
  locate_plain (locate_plain (locate_plain (locate_plain config.root_plain _) _) _) _

theorem RepositoryConfig.resolvePath_plain (layer : KnowledgeLayer) (path : String) :
    PlainLocation (config.resolvePath layer path) :=
  locate_plain (enter_plain (locate_plain config.root_plain _) layer.layerDir_plain.unsplit) _

def RepositoryConfig.entryWrites (entry : KnowledgeEntry) : List FileWrite :=
  [⟨config.resolvePath entry.layer entry.path, config.resolvePath_plain _ _, entry.content⟩,
    ⟨metadataPath (config.resolvePath entry.layer entry.path), metadataPath_plain (config.resolvePath_plain _ _),
      config.renderSidecar ⟨entry.kind, entry.status, entry.summaries, entry.metadata, entry.author,
        entry.updatedAt⟩⟩]

end

section
variable (env : ManagerEnv)

def ManagerEnv.config (tenantId : String) (tick : Nat) : RepositoryConfig :=
  { env.repository with tenantId := tenantId, now := env.now tick }

def ManagerEnv.requestPath (tenantId id : String) : Location := (env.config tenantId 0).metaPath "promotions" id

def ManagerEnv.relationPath (tenantId id : String) : Location := (env.config tenantId 0).metaPath "relations" id

variable (files : Files)

def Files.requestAt (location : Location) : Option PromotionRequest :=
  (files.contents.lookup location).bind (fun text => (env.parseRequest text).toOption)

def Files.relationAt (location : Location) : Option KnowledgeRelation :=
  (files.contents.lookup location).bind (fun text => (env.parseRelation text).toOption)

namespace GitRepository
variable (repo : GitRepository)

def getPromotionRequest (tenantId id : String) : Except String (Option PromotionRequest) :=
  match repo.files.read (env.requestPath tenantId id) with
  | .error message => .error message
  | .ok none => .ok none
  | .ok (some text) => (env.parseRequest text).map some

def metaFiles (tenantId kind : String) : List Location :=
  repo.files.contents.keys.filter (fun key => (env.config tenantId 0).metaDirectory kind <+: key)

def listPromotionRequests (tenantId : String) : List PromotionRequest :=
  (repo.metaFiles env tenantId "promotions").filterMap (repo.files.requestAt env)

def getRelationsForItem (tenantId itemId : String) : List KnowledgeRelation :=
  ((repo.metaFiles env tenantId "relations").filterMap (repo.files.relationAt env)).filter
    (fun relation => relation.sourceId = itemId || relation.targetId = itemId)

end GitRepository

def Workspace.advance (w : Workspace) : Workspace := { w with tick := w.tick + 1 }

namespace ManagerCall

/-- The files that a call writes if nothing stops it. -/
def writes : ManagerCall → List FileWrite
  | storePromotionRequest tenantId request =>
    [⟨env.requestPath tenantId request.id, (env.config tenantId 0).metaPath_plain _ _,
      PromotionRequest.json.render request⟩]
  | store tenantId entry _ => (env.config tenantId 0).entryWrites entry
  | storeRelation tenantId relation =>
    [⟨env.relationPath tenantId relation.id, (env.config tenantId 0).metaPath_plain _ _,
      KnowledgeRelation.json.render relation⟩]
  | _ => []

def commitMessage : ManagerCall → String
  | storePromotionRequest _ request => "[promotion] upsert " ++ request.id
  | store _ _ message => message
  | storeRelation _ relation => "[relation] upsert " ++ relation.id
  | _ => ""

def perform (c : ManagerCall) (w : Workspace) : Except String String × Workspace :=
  let done := w.repo.perform env.repository (env.fault w.tick) (c.writes env) c.commitMessage
  (done.1, ({ w with repo := done.2 } : Workspace).advance)

def reading {α : Type} (w : Workspace) (answer : Except String α) : Except String α × Workspace :=
  match env.fault w.tick with
  | some fault => (.error fault.message, w.advance)
  | none => (answer, w.advance)

/-- How a call is answered, and what it leaves behind. -/
def exec : (c : ManagerCall) → Workspace → c.Answer × Workspace
  | getPromotionRequest tenantId id, w => reading env w (w.repo.getPromotionRequest env tenantId id)
  | listPromotionRequests tenantId, w => reading env w (.ok (w.repo.listPromotionRequests env tenantId))
  | storePromotionRequest tenantId request, w =>
    let done := perform env (storePromotionRequest tenantId request) w
    (done.1.map (fun _ => request), done.2)
  | get tenantId layer path, w => reading env w (w.repo.getInner (env.config tenantId w.tick) layer path)
  | store tenantId entry message, w => perform env (store tenantId entry message) w
  | getRelationsForItem tenantId itemId, w => reading env w (.ok (w.repo.getRelationsForItem env tenantId itemId))
  | storeRelation tenantId relation, w =>
    let done := perform env (storeRelation tenantId relation) w
    (done.1.map (fun _ => relation), done.2)
  | validateWithContext ctx layer context, w => (env.validate w.tick ctx layer context, w.advance)
  | timestamp, w => (env.now w.tick, w.advance)
  | newId, w => (env.newId w.drawn, ({ w with drawn := w.drawn + 1 } : Workspace).advance)

end ManagerCall

variable {env}

theorem Files.write_lookup {files next : Files} {location : Location} {plain : PlainLocation location} {text : String}
    (written : files.write location plain text = .ok next) (other : Location) :
    next.contents.lookup other = if other = location then some text else files.contents.lookup other := by
  unfold Files.write at written
  split at written
  · cases written
  split at written
  · cases written
  cases written
  by_cases same : other = location
  · rw [if_pos same, same]
    exact AList.lookup_insert files.contents
  · rw [if_neg same]
    exact AList.lookup_insert_ne same

theorem Files.writeAll_lookup (writes : List FileWrite) (location : Location) :
    (files.writeAll writes).1.contents.lookup location = files.contents.lookup location ∨
      ∃ write ∈ writes, write.location = location ∧
        (files.writeAll writes).1.contents.lookup location = some write.text := by
  induction writes generalizing files with
  | nil => exact Or.inl rfl
  | cons write rest ih =>
    unfold Files.writeAll
    cases first : files.write write.location write.plain write.text with
    | error message => exact Or.inl rfl
    | ok next =>
      rcases ih next with same | ⟨later, listed, here, stored⟩
      · simp only
        rw [same, Files.write_lookup first]
        by_cases here : location = write.location
        · rw [if_pos here]
          exact Or.inr ⟨write, mem_cons_self, here.symm, rfl⟩
        · rw [if_neg here]
          exact Or.inl rfl
      · exact Or.inr ⟨later, mem_cons_of_mem _ listed, here, stored⟩

variable (env) in
theorem exec_lookup (c : ManagerCall) (w : Workspace) (location : Location) :
    (c.exec env w).2.repo.files.contents.lookup location = w.repo.files.contents.lookup location ∨
      ∃ write ∈ c.writes env, write.location = location ∧
        (c.exec env w).2.repo.files.contents.lookup location = some write.text := by
  have performed : (c.perform env w).2.repo.files.contents.lookup location =
      w.repo.files.contents.lookup location ∨
      ∃ write ∈ c.writes env, write.location = location ∧
        (c.perform env w).2.repo.files.contents.lookup location = some write.text := by
    obtain ⟨n, shape⟩ := w.repo.perform_files env.repository (env.fault w.tick) (c.writes env) c.commitMessage
    have files : (c.perform env w).2.repo.files = (w.repo.files.writeAll ((c.writes env).take n)).1 := shape
    rw [files]
    rcases w.repo.files.writeAll_lookup ((c.writes env).take n) location with same | ⟨write, listed, here, stored⟩
    · exact Or.inl same
    · exact Or.inr ⟨write, mem_of_mem_take listed, here, stored⟩
  have read : ∀ {α : Type} (answer : Except String α),
      (ManagerCall.reading env w answer).2.repo = w.repo := by
    intro α answer
    unfold ManagerCall.reading
    split <;> rfl
  cases c with
  | storePromotionRequest tenantId request => exact performed
  | store tenantId entry message => exact performed
  | storeRelation tenantId relation => exact performed
  | getPromotionRequest tenantId id => exact Or.inl (by rw [ManagerCall.exec, read])
  | listPromotionRequests tenantId => exact Or.inl (by rw [ManagerCall.exec, read])
  | get tenantId layer path => exact Or.inl (by rw [ManagerCall.exec, read])
  | getRelationsForItem tenantId itemId => exact Or.inl (by rw [ManagerCall.exec, read])
  | validateWithContext ctx layer context => exact Or.inl rfl
  | timestamp => exact Or.inl rfl
  | newId => exact Or.inl rfl

end

variable (sidecar : Sidecar)

def sampleSidecarText : String :=
  let quoted (text : String) : String := "\"" ++ text ++ "\""
  let fields := sidecar.metadata.entries.map (fun field =>
    quoted field.1 ++ ":" ++ match field.2 with
      | .str text => quoted text
      | _ => "null")
  "\x7b\"author\":" ++ ((sidecar.author.map quoted).getD "null" ++ ",\"kind\":" ++ quoted sidecar.kind.debug ++
    ",\"metadata\":\x7b" ++ ",".intercalate fields ++ "\x7d,\"status\":" ++ quoted sidecar.status.debug ++
    ",\"summaries\":\x7b\x7d,\"updated_at\":" ++ toString sidecar.updatedAt ++ "\x7d")

theorem sampleSidecarText_no_relation (relation : KnowledgeRelation) :
    KnowledgeRelation.json.parse (sampleSidecarText sidecar) ≠ .ok relation := by
  have other : ∀ rest, Wire.expect "\x7b\"id\":".toList ("\x7b\"author\":".toList ++ rest) = none := fun _ => rfl
  have unread : KnowledgeRelation.json.read (sampleSidecarText sidecar).toList = none := by
    unfold sampleSidecarText
    rw [String.toList_append]
    simp only [KnowledgeRelation.json, Wire.via, Wire.both, Wire.after, other]
    rfl
  simp [Wire.parse, unread]

theorem sampleSidecarText_no_request (request : PromotionRequest) :
    PromotionRequest.json.parse (sampleSidecarText sidecar) ≠ .ok request := by
  have other : ∀ rest, Wire.expect "\x7b\"id\":".toList ("\x7b\"author\":".toList ++ rest) = none := fun _ => rfl
  have unread : PromotionRequest.json.read (sampleSidecarText sidecar).toList = none := by
    unfold sampleSidecarText
    rw [String.toList_append]
    simp only [PromotionRequest.json, Wire.via, Wire.both, Wire.after, other]
    rfl
  simp [Wire.parse, unread]

theorem relation_no_request (relation : KnowledgeRelation) (request : PromotionRequest) :
    PromotionRequest.json.parse (KnowledgeRelation.json.render relation) ≠ .ok request := by
  have other : ∀ rest, Wire.expect ",\"sourceItemId\":".toList (",\"sourceId\":".toList ++ rest) = none :=
    fun _ => rfl
  have unread : PromotionRequest.json.read (KnowledgeRelation.json.write relation) = none := by
    simp only [PromotionRequest.json, KnowledgeRelation.json, Wire.via, Wire.both, Wire.after, append_assoc,
      Wire.expect_append, Option.bind_some, Wire.string.read_write, other]
    rfl
  simp [Wire.parse, Wire.render, unread]

theorem request_no_relation (request : PromotionRequest) (relation : KnowledgeRelation) :
    KnowledgeRelation.json.parse (PromotionRequest.json.render request) ≠ .ok relation := by
  have other : ∀ rest, Wire.expect ",\"sourceId\":".toList (",\"sourceItemId\":".toList ++ rest) = none :=
    fun _ => rfl
  have unread : KnowledgeRelation.json.read (PromotionRequest.json.write request) = none := by
    simp only [PromotionRequest.json, KnowledgeRelation.json, Wire.via, Wire.both, Wire.after, append_assoc,
      Wire.expect_append, Option.bind_some, Wire.string.read_write, other]
    rfl
  simp [Wire.parse, Wire.render, unread]

def sampleManager : ManagerEnv where
  repository := {
    root := ["srv"]
    root_plain := srv_plain
    tenantId := "acme"
    renderSidecar := sampleSidecarText
    parseSidecar := fun _ => .ok {}
    commitId := fun n => String.ofList ('c' :: replicate n '0')
    commitId_injective := commitIds_injective }
  toLowercase text := String.ofList (text.toList.map Char.toLower)
  newId n := String.ofList ('u' :: replicate n '0')
  newId_injective := padded_injective 'u'
  newId_plain n := by
    refine ⟨?_, ?_, ?_, by simp⟩ <;> intro same <;> simpa using congrArg String.toList same
  newId_undotted n := by simp
  parseRequest := PromotionRequest.json.parse
  parseRequest_render := PromotionRequest.json.parse_render
  parseRelation := KnowledgeRelation.json.parse
  parseRelation_render := KnowledgeRelation.json.parse_render
  parseRelation_sidecar := sampleSidecarText_no_relation
  parseRelation_request := request_no_relation
  parseRequest_sidecar := sampleSidecarText_no_request
  parseRequest_relation := relation_no_request

def guideFiles : Files where
  contents := (∅ : HashMap Location String).insert ["srv", "acme", "project", "guide"] "plain"
  plain := by
    intro location member
    rcases (AList.mem_insert _).mp member with rfl | impossible
    swap
    · exact absurd impossible (AList.notMem_empty _)
    intro name listed
    simp only [mem_cons, not_mem_nil, or_false] at listed
    rcases listed with rfl | rfl | rfl | rfl <;> exact ⟨by decide, by decide, by decide, by decide⟩

def guideWorkspace : Workspace where
  repo := { files := guideFiles }

def guideRequest (id : String) : PromotionRequest where
  id := id
  sourceItemId := "guide"
  sourceLayer := .project
  sourceStatus := .accepted
  targetLayer := .team
  promotionMode := .full
  sharedContent := "plain"
  residualContent := none
  residualRole := none
  justification := none
  status := .draft
  requestedBy := "ann"
  tenantId := "acme"
  sourceVersion := ""
  latestDecision := none
  promotedItemId := none
  residualItemId := none
  createdAt := 0
  updatedAt := 0

/-- Someone who may review requests. -/
def reviewer : TenantContext where
  tenantId := "acme"
  userId := "bob"
  roles := [.known .admin]

end Aeterna
