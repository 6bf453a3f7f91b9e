import Aeterna.Knowledge.PromotionRuns
import Aeterna.Knowledge.PromotionSource

namespace Aeterna
open Lib KnowledgeManager ManagerCall List Option

section
variable (env : ManagerEnv) (tenantId : String)

def ManagerEnv.promotedItem (n : Nat) : String := "promoted/" ++ env.newId n

def ManagerEnv.promotedPath (layer : KnowledgeLayer) (n : Nat) : Location :=
  (env.config tenantId 0).resolvePath layer (env.promotedItem n)

def ManagerEnv.relationsDirectory : Location := (env.config tenantId 0).metaDirectory "relations"

namespace Workspace
variable (w : Workspace)

def PromotedEntry (layer : KnowledgeLayer) (n : Nat) : Prop :=
  w.repo.files.contents.lookup (env.promotedPath tenantId layer n) ≠ none

/-- The file holds a promoted-to relation that leads to the entry of the `n`-th id. -/
def PromotedRelation (location : Location) (n : Nat) : Prop :=
  env.relationsDirectory tenantId <+: location ∧ ∃ relation, w.repo.files.relationAt env location = some relation ∧
    relation.relationType = .promotedTo ∧ relation.targetId = env.promotedItem n

structure Fresh : Prop where
  entry : ∀ layer n, w.drawn ≤ n → ¬ w.PromotedEntry env tenantId layer n
  relation : ∀ location n, w.drawn ≤ n → ¬ w.PromotedRelation env tenantId location n

/-- What the attempts leave behind, whose ids are those from `since` on. -/
structure AppliedOnce (promotionId : String) (since : Nat) : Prop where
  entry : ∀ layer n layer' n', since ≤ n → since ≤ n' → w.PromotedEntry env tenantId layer n →
    w.PromotedEntry env tenantId layer' n' → layer = layer' ∧ n = n'
  relation : ∀ location n location' n', since ≤ n → since ≤ n' → w.PromotedRelation env tenantId location n →
    w.PromotedRelation env tenantId location' n' → location = location'
  recorded : ∀ request, w.stored env tenantId promotionId = some request → request.status = .applied →
    ∃ n, since ≤ n ∧ request.promotedItemId = some (env.promotedItem n) ∧
      w.PromotedEntry env tenantId request.targetLayer n

def Clean (promotionId : String) (since : Nat) : Prop :=
  (∃ request, w.stored env tenantId promotionId = some request ∧ request.status = .applied) ∨
    ∀ layer n, since ≤ n → ¬ w.PromotedEntry env tenantId layer n

end Workspace

inductive ApplyRun (promotionId : String) (allowed : Workspace → Prop) (start : Workspace) : Workspace → Prop where
  | start : ApplyRun promotionId allowed start start
  | call {w : Workspace} (ctx : TenantContext) : ctx.tenantId = tenantId →
    ApplyRun promotionId allowed start w → allowed w →
    ApplyRun promotionId allowed start ((applyPromotion ctx promotionId).run (exec env) w).2

structure Harmless (location : Location) (text : String) : Prop where
  entry : ∀ otherTenant layer n, location ≠ env.promotedPath otherTenant layer n
  request : ∀ otherTenant id request, location = env.requestPath otherTenant id → env.parseRequest text ≠ .ok request
  relation : env.relationsDirectory tenantId <+: location → ∀ relation, env.parseRelation text = .ok relation →
    relation.relationType ≠ .promotedTo

/-- Ids were drawn, and files were written as `allowed` or without harm. -/
structure Confined (allowed : Location → String → Prop) (w next : Workspace) : Prop where
  drawn : w.drawn ≤ next.drawn
  files : ∀ location, next.repo.files.contents.lookup location = w.repo.files.contents.lookup location ∨
    ∃ text, next.repo.files.contents.lookup location = some text ∧
      (allowed location text ∨ Harmless env tenantId location text)

end

section
variable {env : ManagerEnv} {tenantId : String}

variable (layer : KnowledgeLayer) (location : Location)

theorem layerPath_config (tick : Nat) : (env.config tenantId tick).layerPath layer =
    locate env.repository.root tenantId ++ [layer.layerDir] :=
  enter_of_plain layer.layerDir_plain

theorem relationsDirectory_eq : env.relationsDirectory tenantId =
    locate env.repository.root tenantId ++ ["_meta", "relations"] := by
  have first : PlainName "_meta" := ⟨by decide, by decide, by decide, by decide⟩
  have second : PlainName "relations" := ⟨by decide, by decide, by decide, by decide⟩
  show locate (locate (locate env.repository.root tenantId) "_meta") "relations" = _
  rw [locate_name first, locate_name second, append_assoc]
  rfl

theorem resolvePath_drawn {directory : String} (plain : PlainName directory) (layer : KnowledgeLayer) (n tick : Nat) :
    (env.config tenantId tick).resolvePath layer (joinNames [directory, env.newId n]) =
      locate env.repository.root tenantId ++ [layer.layerDir, directory, env.newId n] := by
  have names : PlainLocation [directory, env.newId n] := by
    intro name listed
    rcases mem_cons.mp listed with rfl | last
    · exact plain
    · rw [mem_singleton.mp last]
      exact env.newId_plain n
  rw [resolvePath_joinNames (by simp) names, layerPath_config, append_assoc]
  rfl

theorem promotedPath_eq (n : Nat) : env.promotedPath tenantId layer n =
    locate env.repository.root tenantId ++ [layer.layerDir, "promoted", env.newId n] := by
  have joined : env.promotedItem n = joinNames ["promoted", env.newId n] := by
    apply String.toList_injective
    simp [ManagerEnv.promotedItem, joinNames, intercalate]
  unfold ManagerEnv.promotedPath
  rw [joined, resolvePath_drawn ⟨by decide, by decide, by decide, by decide⟩]

theorem residualPath_eq (n tick : Nat) : (env.config tenantId tick).resolvePath layer ("residual/" ++ env.newId n) =
      locate env.repository.root tenantId ++ [layer.layerDir, "residual", env.newId n] := by
  have joined : "residual/" ++ env.newId n = joinNames ["residual", env.newId n] := by
    apply String.toList_injective
    simp [joinNames, intercalate]
  rw [joined, resolvePath_drawn ⟨by decide, by decide, by decide, by decide⟩]

theorem promotedPath_injective {layer layer' : KnowledgeLayer} {n n' : Nat}
    (same : env.promotedPath tenantId layer n = env.promotedPath tenantId layer' n') : layer = layer' ∧ n = n' := by
  rw [promotedPath_eq, promotedPath_eq] at same
  have last := append_cancel_left same
  simp only [List.cons.injEq, and_true, true_and] at last
  refine ⟨?_, env.newId_injective last.2⟩
  have layers := last.1
  cases layer <;> cases layer' <;> first | rfl | exact absurd layers (by decide)

def Dotted : Prop := ∃ name, location.getLast? = some name ∧ '.' ∈ name.toList

theorem locate_dotted (directory : Location) (text : String) : Dotted (locate directory (text ++ ".json")) := by
  obtain ⟨parent, stem, shape⟩ := locate_append directory text ".json" (by decide) (by decide)
  rw [shape]
  exact ⟨stem ++ ".json", getLast?_concat, by simp⟩

theorem metadataPath_dotted {location : Location} (present : location ≠ []) : Dotted (metadataPath location) := by
  obtain ⟨name, last⟩ := isSome_iff_exists.mp (getLast?_isSome.mpr present)
  unfold metadataPath
  rw [last]
  exact ⟨fileStem name ++ ".metadata.json", getLast?_concat, by simp⟩

theorem undotted_drawn (directory : Location) (n : Nat) (names : Location) :
    ¬ Dotted (directory ++ (names ++ [env.newId n])) := by
  rintro ⟨name, last, dot⟩
  rw [← append_assoc, getLast?_concat] at last
  cases last
  exact env.newId_undotted n dot

theorem promotedPath_undotted (n : Nat) : ¬ Dotted (env.promotedPath tenantId layer n) := by
  rw [promotedPath_eq]
  exact undotted_drawn _ n [layer.layerDir, "promoted"]

theorem metadataPath_ne_promotedPath (layer : KnowledgeLayer) (n : Nat) :
    metadataPath location ≠ env.promotedPath tenantId layer n := by
  intro same
  by_cases present : location = []
  · rw [present, promotedPath_eq] at same
    simp [metadataPath] at same
  · have dotted := metadataPath_dotted present
    rw [same] at dotted
    exact promotedPath_undotted layer n dotted

theorem layerDir_unrelated (names : Location) : ¬ ["_meta", "relations"] <+: layer.layerDir :: names := by
  intro within
  have same := (cons_prefix_cons.mp within).1
  cases layer <;> exact absurd same (by decide)

theorem promotedPath_unrelated (n : Nat) :
    ¬ env.relationsDirectory tenantId <+: env.promotedPath tenantId layer n := by
  rw [relationsDirectory_eq, promotedPath_eq, prefix_append_right_inj]
  exact layerDir_unrelated layer _

theorem harmless_sidecar (sidecar : Sidecar) :
    Harmless env tenantId (metadataPath location) (env.repository.renderSidecar sidecar) where
  entry _ layer n := metadataPath_ne_promotedPath location layer n
  request _ _ request _ := env.parseRequest_sidecar sidecar request
  relation _ relation parsed := absurd parsed (env.parseRelation_sidecar sidecar relation)

theorem harmless_residual (n tick : Nat) (text : String) :
    Harmless env tenantId ((env.config tenantId tick).resolvePath layer ("residual/" ++ env.newId n)) text where
  entry otherTenant layer' n' same := by
    rw [residualPath_eq, promotedPath_eq] at same
    have last := (append_inj' same rfl).2
    simp at last
  request otherTenant id request same := by
    have dotted : Dotted (env.requestPath otherTenant id) := locate_dotted _ id
    rw [← same, residualPath_eq] at dotted
    exact absurd dotted (undotted_drawn _ n [layer.layerDir, "residual"])
  relation within := by
    rw [residualPath_eq, relationsDirectory_eq, prefix_append_right_inj] at within
    exact absurd within (layerDir_unrelated layer _)

theorem harmless_relation {relation : KnowledgeRelation} (other : relation.relationType ≠ .promotedTo) (id : String) :
    Harmless env tenantId (env.relationPath tenantId id) (KnowledgeRelation.json.render relation) where
  entry _ layer n same := by
    have dotted : Dotted (env.relationPath tenantId id) := locate_dotted _ id
    rw [same] at dotted
    exact promotedPath_undotted layer n dotted
  request _ _ request _ := env.parseRequest_relation relation request
  relation _ parsed same := by
    rw [env.parseRelation_render] at same
    cases same
    exact other

section
variable {allowed wider : Location → String → Prop} {a b c : Workspace}

theorem Confined.refl (w : Workspace) : Confined env tenantId allowed w w := ⟨le_refl _, fun _ => Or.inl rfl⟩

theorem Confined.mono (confined : Confined env tenantId allowed a b)
    (more : ∀ location text, allowed location text → wider location text) : Confined env tenantId wider a b where
  drawn := confined.drawn
  files location := by
    rcases confined.files location with same | ⟨text, written, fine | fine⟩
    · exact Or.inl same
    · exact Or.inr ⟨text, written, Or.inl (more location text fine)⟩
    · exact Or.inr ⟨text, written, Or.inr fine⟩

theorem Confined.trans (first : Confined env tenantId allowed a b) (second : Confined env tenantId allowed b c) :
    Confined env tenantId allowed a c where
  drawn := first.drawn.trans second.drawn
  files location := by
    rcases second.files location with same | written
    · rw [same]
      exact first.files location
    · exact Or.inr written

theorem Confined.harmless (confined : Confined env tenantId (fun _ _ => False) a b) :
    Confined env tenantId allowed a b :=
  confined.mono (fun _ _ impossible => impossible.elim)

theorem Confined.entry (confined : Confined env tenantId allowed a b) {layer : KnowledgeLayer} {n : Nat}
    (there : a.PromotedEntry env tenantId layer n) : b.PromotedEntry env tenantId layer n := by
  intro missing
  rcases confined.files (env.promotedPath tenantId layer n) with same | ⟨text, written, -⟩
  · exact there (same.symm.trans missing)
  · rw [written] at missing
    cases missing

end

theorem exec_confined {allowed : Location → String → Prop} {c : ManagerCall} {w : Workspace}
    (each : ∀ write ∈ c.writes env, allowed write.location write.text ∨
      Harmless env tenantId write.location write.text ∨
      w.repo.files.contents.lookup write.location = some write.text) :
    Confined env tenantId allowed w (c.exec env w).2 where
  drawn := exec_drawn c w
  files location := by
    rcases exec_lookup env c w location with same | ⟨write, listed, rfl, written⟩
    · exact Or.inl same
    · rcases each write listed with fine | fine | same
      · exact Or.inr ⟨write.text, written, Or.inl fine⟩
      · exact Or.inr ⟨write.text, written, Or.inr fine⟩
      · exact Or.inl (written.trans same.symm)

theorem Untouched.confined {allowed : Location → String → Prop} {w last : Workspace} (untouched : Untouched w last) :
    Confined env tenantId allowed w last :=
  ⟨untouched.drawn, fun location => Or.inl (by rw [untouched.repo])⟩

theorem reads_lookup {c : ManagerCall} (reads : c.Reads) (w : Workspace) (location : Location) :
    (c.exec env w).2.repo.files.contents.lookup location = w.repo.files.contents.lookup location := by
  rcases exec_lookup env c w location with same | ⟨write, listed, -⟩
  · exact same
  · rw [reads.writes] at listed
    cases listed

theorem reads_confined {allowed : Location → String → Prop} {c : ManagerCall} {w : Workspace} (reads : c.Reads) :
    Confined env tenantId allowed w (c.exec env w).2 := by
  refine exec_confined (fun write listed => ?_)
  rw [reads.writes] at listed
  cases listed

end

section
variable (env : ManagerEnv) (tenantId : String)

inductive Attempt (request : PromotionRequest) (n k : Nat) : Location → String → Prop where
  | entry : Attempt request n k (env.promotedPath tenantId request.targetLayer n) request.sharedContent
  | relation {relation : KnowledgeRelation} : relation.relationType = .promotedTo →
    relation.targetId = env.promotedItem n →
    Attempt request n k (env.relationPath tenantId (env.newId k)) (KnowledgeRelation.json.render relation)
  | request (residualItemId : Option String) (now : Int) :
    Attempt request n k (env.requestPath tenantId request.id) (PromotionRequest.json.render { request with
      promotedItemId := some (env.promotedItem n)
      residualItemId := residualItemId
      status := .applied
      updatedAt := now })

end

section
variable {env : ManagerEnv} {ctx : TenantContext} {allowed : Location → String → Prop}
  {notes : List (Note Answer)} {w : Workspace} {α : Type}

theorem confined_meets {program : ManagerM α} {calls : ManagerCall → Prop} (uses : program.Uses calls)
    (each : ∀ c, calls c → ∀ t, Confined env ctx.tenantId allowed t (c.exec env t).2) :
    program.Meets (aloneContract env) (fun _ _ last => Confined env ctx.tenantId allowed w last) notes w := by
  refine (uses.meets .refl .trans ?_ ?_).mono (fun _ _ _ reached => reached.2)
  · rintro a b rfl
    exact .refl a
  · exact fun c called _ t _ _ => ⟨trivial, trivial, each c called t⟩

theorem confined_seq {β : Type} {program : ManagerM α} {f : α → ManagerM β} {start : Workspace}
    (before : Confined env ctx.tenantId allowed start w)
    (first : program.Meets (aloneContract env) (fun _ _ last => Confined env ctx.tenantId allowed w last) notes w)
    (rest : ∀ a later last, Confined env ctx.tenantId allowed start last →
      (f a).Meets (aloneContract env) (fun _ _ last => Confined env ctx.tenantId allowed start last) later last) :
    (program >>= f).Meets (aloneContract env)
      (fun _ _ last => Confined env ctx.tenantId allowed start last) notes w := by
  refine first.seq (fun _ _ last reached => before.trans reached) ?_
  intro a later last reached
  exact rest a later last (before.trans reached)

theorem createRelation_meets {relation : KnowledgeRelation}
    (fine : allowed (env.relationPath ctx.tenantId relation.id) (KnowledgeRelation.json.render relation) ∨
      relation.relationType ≠ .promotedTo) :
    (createRelation ctx relation).Meets (aloneContract env)
      (fun _ _ last => Confined env ctx.tenantId allowed w last) notes w := by
  refine confined_meets (createRelation_uses ctx relation) ?_
  rintro c (reads | rfl) t
  · exact reads_confined reads
  · refine exec_confined (fun write listed => ?_)
    rw [mem_singleton.mp listed]
    rcases fine with fine | other
    · exact Or.inl fine
    · exact Or.inr (Or.inl (harmless_relation other _))

variable {now : Int} {relationType : KnowledgeRelationType} {decision : Option PromotionDecision}
variable {message : String} {source : KnowledgeEntry}

theorem relate_meets {sourceId targetId : String} (other : relationType ≠ .promotedTo) :
    (relate ctx now sourceId targetId relationType).Meets (aloneContract env)
      (fun _ _ last => Confined env ctx.tenantId allowed w last) notes w := by
  refine confined_seq (.refl w) (confined_meets (Program.Uses.ask (show Reads .newId from trivial))
    (fun _ reads _ => reads_confined reads)) (fun id later last reached => ?_)
  exact (createRelation_meets (Or.inr other)).mono (fun _ _ _ more => reached.trans more)

theorem variantRelationType_other (variant : variantRelationType decision = some relationType) :
    relationType ≠ .promotedTo := by
  rintro rfl
  unfold variantRelationType at variant
  split at variant <;> cases variant

theorem forSome_meets {value : Option α} {f : α → ManagerM Unit}
    (each : ∀ a, value = some a → (f a).Meets (aloneContract env)
      (fun _ _ last => Confined env ctx.tenantId allowed w last) notes w) :
    (Program.forSome value f).Meets (aloneContract env)
      (fun _ _ last => Confined env ctx.tenantId allowed w last) notes w := by
  cases value with
  | none => exact .refl w
  | some a => exact each a rfl

theorem persistPromotionRelations_meets (request : PromotionRequest) {n : Nat} {sourceId : String}
    {residualId : Option String} :
    (persistPromotionRelations ctx sourceId (env.promotedItem n) residualId decision now).Meets (aloneContract env)
      (fun _ _ last => ∃ k, Confined env ctx.tenantId (Attempt env ctx.tenantId request n k) w last) notes w := by
  refine Program.Meets.bind (Program.Meets.bind ?_)
  rintro _ rfl - -
  -- the id that is drawn here is that of the promoted-to relation
  have landed : ∀ relation : KnowledgeRelation, relation.relationType = .promotedTo →
      relation.targetId = env.promotedItem n → relation.id = env.newId w.drawn →
      Attempt env ctx.tenantId request n w.drawn (env.relationPath ctx.tenantId relation.id)
        (KnowledgeRelation.json.render relation) := by
    intro relation kind target drawn
    rw [drawn]
    exact .relation kind target
  refine ⟨trivial, trivial, ?_⟩
  refine (createRelation_meets (Or.inl (landed _ rfl rfl rfl))).mono ?_
  intro outcome later last reached
  have first : Confined env ctx.tenantId (Attempt env ctx.tenantId request n w.drawn) w last :=
    (reads_confined (c := .newId) trivial).trans reached
  cases outcome with
  | error e => exact ⟨w.drawn, first⟩
  | ok _ =>
    refine Program.Meets.mono ?_ (fun _ _ _ confined => ⟨w.drawn, confined⟩)
    refine confined_seq first (relate_meets (by decide)) (fun _ _ _ second => ?_)
    refine confined_seq second (forSome_meets (fun relationType variant =>
      relate_meets (variantRelationType_other variant))) (fun _ _ _ third => ?_)
    exact (forSome_meets (fun _ _ => relate_meets (by decide))).mono (fun _ _ _ fourth => third.trans fourth)

theorem writeAll_present {files next : Files} {writes : List FileWrite}
    (done : files.writeAll writes = (next, none)) :
    ∀ write ∈ writes, next.contents.lookup write.location ≠ none := by
  induction writes generalizing files with
  | nil => exact fun _ listed => absurd listed not_mem_nil
  | cons first rest ih =>
    unfold Files.writeAll at done
    cases written : files.write first.location first.plain first.text with
    | error message =>
      rw [written] at done
      cases done
    | ok middle =>
      rw [written] at done
      intro write listed
      rcases mem_cons.mp listed with rfl | later
      · have grows := middle.writeAll_lookup rest write.location
        rw [show middle.writeAll rest = (next, none) from done] at grows
        rcases grows with same | ⟨_, -, -, text⟩
        · rw [same, Files.write_lookup written, if_pos rfl]
          exact some_ne_none _
        · rw [text]
          exact some_ne_none _
      · exact ih done write later

theorem exec_store_present {entry : KnowledgeEntry} {id : String}
    (done : ((store ctx.tenantId entry message).exec env w).1 = .ok id) :
    ((store ctx.tenantId entry message).exec env w).2.repo.files.contents.lookup
      ((env.config ctx.tenantId 0).resolvePath entry.layer entry.path) ≠ none := by
  have performed : w.repo.perform env.repository (env.fault w.tick)
      ((store ctx.tenantId entry message).writes env) message =
        (.ok id, ((store ctx.tenantId entry message).exec env w).2.repo) :=
    Prod.ext done rfl
  exact writeAll_present (GitRepository.perform_ok performed) _ mem_cons_self

theorem store_confined {entry : KnowledgeEntry} (content : Harmless env ctx.tenantId
    ((env.config ctx.tenantId 0).resolvePath entry.layer entry.path) entry.content ∨
    allowed ((env.config ctx.tenantId 0).resolvePath entry.layer entry.path) entry.content ∨
    w.repo.files.contents.lookup ((env.config ctx.tenantId 0).resolvePath entry.layer entry.path) =
    some entry.content) :
    Confined env ctx.tenantId allowed w ((store ctx.tenantId entry message).exec env w).2 := by
  refine exec_confined (fun write listed => ?_)
  rcases mem_cons.mp listed with rfl | listed
  · rcases content with harmless | fine | same
    · exact Or.inr (Or.inl harmless)
    · exact Or.inl fine
    · exact Or.inr (Or.inr same)
  · rw [mem_singleton.mp listed]
    exact Or.inr (Or.inl (harmless_sidecar _ _))

theorem updateStatus_meets {layer : KnowledgeLayer} {path : String} {status : KnowledgeStatus} :
    (updateStatus ctx layer path status message).Meets (aloneContract env)
      (fun _ _ last => Confined env ctx.tenantId allowed w last) notes w := by
  have got : Confined env ctx.tenantId allowed w ((ManagerCall.get ctx.tenantId layer path).exec env w).2 :=
    reads_confined trivial
  refine Program.Meets.bind ?_
  rintro _ rfl - -
  refine ⟨trivial, trivial, Program.Meets.bind (Program.Meets.orFail ?_ (fun _ _ => got))⟩
  intro found answer
  cases found with
  | none => exact got
  | some entry =>
    obtain ⟨rfl, rfl, stored⟩ := getInner_sound (exec_get answer)
    let now := ManagerCall.timestamp.exec env ((ManagerCall.get ctx.tenantId entry.layer entry.path).exec env w).2
    have kept : now.2.repo.files.contents.lookup ((env.config ctx.tenantId 0).resolvePath entry.layer entry.path) =
        some entry.content :=
      (reads_lookup (c := .timestamp) trivial _ _).trans
        ((reads_lookup (c := .get ctx.tenantId entry.layer entry.path) trivial _ _).trans stored)
    have written : Confined env ctx.tenantId allowed now.2 ((store ctx.tenantId
        { entry with status := status, updatedAt := now.1 } message).exec env now.2).2 :=
      store_confined (Or.inr (Or.inr kept))
    have whole := got.trans ((reads_confined (c := .timestamp) trivial).trans written)
    refine Program.Meets.bind ?_
    rintro _ rfl - -
    refine ⟨trivial, trivial, Program.Meets.bind ?_⟩
    rintro _ rfl - -
    refine ⟨trivial, trivial, Program.Meets.bind ?_⟩
    exact Program.Meets.orFail (fun _ _ => whole) (fun _ _ => whole)

theorem settleSource_meets {promotionId : String} {request : PromotionRequest} :
    (settleSource ctx promotionId request source now).Meets (aloneContract env)
      (fun _ _ last => Confined env ctx.tenantId allowed w last) notes w := by
  unfold settleSource
  cases request.promotionMode with
  | full => exact confined_seq (.refl w) updateStatus_meets (fun _ _ _ reached => reached)
  | partial_ =>
    cases request.residualContent with
    | none => exact .refl w
    | some content =>
      simp only
      split
      · exact .refl w
      refine Program.Meets.bind ?_
      rintro _ rfl - -
      refine ⟨trivial, trivial, Program.Meets.bind ?_⟩
      rintro _ rfl - -
      have drawn : Confined env ctx.tenantId allowed w (newId.exec env w).2 := reads_confined trivial
      have written : Confined env ctx.tenantId allowed (newId.exec env w).2
          ((store ctx.tenantId
            (residualEntry ctx request source ("residual/" ++ env.newId w.drawn) content
            now) ("[residual] " ++ promotionId)).exec env (newId.exec env w).2).2 :=
        store_confined (Or.inl (harmless_residual source.layer w.drawn 0 content))
      refine ⟨trivial, trivial, Program.Meets.bind ?_⟩
      exact Program.Meets.orFail (fun _ _ => drawn.trans written) (fun _ _ => drawn.trans written)

def Tried (env : ManagerEnv) (tenantId promotionId : String) (w last : Workspace) : Prop :=
  Confined env tenantId (fun _ _ => False) w last ∨
    ∃ request n k layer status, w.stored env tenantId promotionId = some request ∧ request.status = .approved ∧
      request.tenantId = tenantId ∧ w.source env tenantId request.sourceItemId = some (layer, status) ∧ w.drawn ≤ n ∧
      Confined env tenantId (Attempt env tenantId request n k) w last ∧
      (last.PromotedEntry env tenantId request.targetLayer n ∨
        Confined env tenantId (fun location text => location = env.promotedPath tenantId request.targetLayer n ∧
          text = request.sharedContent) w last)

theorem finish_meets {promotionId : String} {request : PromotionRequest} {n : Nat} : (do
      let residual ← settleSource ctx promotionId request source now
      persistPromotionRelations ctx request.sourceItemId (env.promotedItem n) residual request.latestDecision now
      let answer ← Program.ask (.storePromotionRequest ctx.tenantId { request with
        promotedItemId := some (env.promotedItem n)
        residualItemId := residual.or request.residualItemId
        status := .applied
        updatedAt := now })
      Program.orFail .repository answer : ManagerM PromotionRequest).Meets (aloneContract env)
        (fun _ _ last => ∃ k, Confined env ctx.tenantId (Attempt env ctx.tenantId request n k) w last) notes w := by
  refine settleSource_meets.seq (fun _ _ _ settled => ⟨0, settled.harmless⟩) (fun residual _ w₁ settled => ?_)
  refine (persistPromotionRelations_meets request).seq ?_ ?_
  · rintro _ _ last ⟨k, related⟩
    exact ⟨k, (settled.harmless).trans related⟩
  rintro _ _ w₂ ⟨k, related⟩
  refine Program.Meets.bind ?_
  rintro _ rfl - -
  have stored : Confined env ctx.tenantId (Attempt env ctx.tenantId request n k) w₂
      ((storePromotionRequest ctx.tenantId { request with
        promotedItemId := some (env.promotedItem n)
        residualItemId := residual.or request.residualItemId
        status := .applied
        updatedAt := now }).exec env w₂).2 := by
    refine exec_confined (fun write listed => ?_)
    rw [mem_singleton.mp listed]
    exact Or.inl (.request _ now)
  have whole := (settled.harmless).trans (related.trans stored)
  refine ⟨trivial, trivial, ?_⟩
  exact Program.Meets.orFail (fun _ _ => ⟨k, whole⟩) (fun _ _ => ⟨k, whole⟩)

theorem promote_meets {promotionId promotedPath : String} {request : PromotionRequest}
    {n : Nat} (item : promotedPath = env.promotedItem n) :
    (do
      let answer ← Program.ask (.store ctx.tenantId (promotedEntry ctx request source promotedPath now)
        ("[promote] " ++ promotionId))
      let _ ← Program.orFail .repository answer
      let residual ← settleSource ctx promotionId request source now
      persistPromotionRelations ctx request.sourceItemId promotedPath residual request.latestDecision now
      let answer ← Program.ask (.storePromotionRequest ctx.tenantId { request with
        promotedItemId := some promotedPath
        residualItemId := residual.or request.residualItemId
        status := .applied
        updatedAt := now })
      Program.orFail .repository answer : ManagerM PromotionRequest).Meets (aloneContract env)
        (fun _ _ last => ∃ k, Confined env ctx.tenantId (Attempt env ctx.tenantId request n k) w last ∧
          (last.PromotedEntry env ctx.tenantId request.targetLayer n ∨ Confined env ctx.tenantId
            (fun location text => location = env.promotedPath ctx.tenantId request.targetLayer n ∧
        text = request.sharedContent) w last)) notes w := by
  subst item
  let call : ManagerCall := .store ctx.tenantId (promotedEntry ctx request source (env.promotedItem n) now)
    ("[promote] " ++ promotionId)
  have written : Confined env ctx.tenantId
      (fun location text => location = env.promotedPath ctx.tenantId request.targetLayer n ∧
        text = request.sharedContent) w (call.exec env w).2 :=
    store_confined (Or.inr (Or.inl ⟨rfl, rfl⟩))
  have partly : ∀ k, Confined env ctx.tenantId (Attempt env ctx.tenantId request n k) w (call.exec env w).2 := by
    intro k
    refine written.mono ?_
    rintro _ _ ⟨rfl, rfl⟩
    exact .entry
  refine Program.Meets.bind ?_
  rintro _ rfl - -
  refine ⟨trivial, trivial, Program.Meets.bind (Program.Meets.orFail ?_ ?_)⟩
  · intro id done
    have ended : (call.exec env w).1 = .ok id := done
    have there := exec_store_present ended
    refine finish_meets.mono ?_
    rintro _ _ last ⟨k, finished⟩
    exact ⟨k, (partly k).trans finished, Or.inl (finished.entry there)⟩
  · exact fun _ _ => ⟨0, partly 0, Or.inr written⟩

theorem applyPromotion_tries (promotionId : String) : (applyPromotion ctx promotionId).Meets (aloneContract env)
    (fun _ _ last => Tried env ctx.tenantId promotionId w last) notes w := by
  have failed : ∀ {last}, Untouched w last → Tried env ctx.tenantId promotionId w last :=
    fun untouched => Or.inl untouched.confined
  refine loadPromotion_seq (fun _ _ _ => failed) (fun request _ w₁ read₁ stored => ?_)
  refine enforceTenantMatch_alone (fun _ => failed read₁) (fun own => ?_)
  split
  · exact failed read₁
  refine Program.Meets.bind (Program.Meets.failIf (fun approved => ?_) (fun _ => failed read₁))
  refine findSource_seq (fun _ _ _ untouched => failed (read₁.trans untouched)) (fun source _ w₂ read₂ found => ?_)
  refine reads_seq (Program.Uses.ask trivial) (fun _ _ _ untouched => failed (read₁.trans (read₂.trans untouched)))
    (fun now _ w₃ read₃ => ?_)
  have read : Untouched w w₃ := read₁.trans (read₂.trans read₃)
  -- the id of this attempt is the next one
  refine Program.Meets.bind ?_
  rintro _ rfl - -
  refine ⟨trivial, trivial, (promote_meets (n := w₃.drawn) rfl).mono ?_⟩
  rintro _ _ last ⟨k, confined, there⟩
  have drawn : Untouched w (newId.exec env w₃).2 := read.trans (reads_untouched (c := .newId) trivial _)
  rw [read₁.source] at found
  exact Or.inr ⟨request, w₃.drawn, k, source.layer, source.status, stored, not_not.mp approved, own.symm, found,
    read.drawn, drawn.confined.trans confined, there.imp_right drawn.confined.trans⟩

end

section
variable {env : ManagerEnv} {tenantId promotionId : String} {allowed : Location → String → Prop} {w last : Workspace}
  {since : Nat}

section
variable (confined : Confined env tenantId allowed w last)
include confined

theorem Confined.content_back {otherTenant : String} {layer : KnowledgeLayer} {n : Nat} {text : String}
    (there : last.repo.files.contents.lookup (env.promotedPath otherTenant layer n) = some text) :
    w.repo.files.contents.lookup (env.promotedPath otherTenant layer n) = some text ∨
      allowed (env.promotedPath otherTenant layer n) text := by
  rcases confined.files (env.promotedPath otherTenant layer n) with same | ⟨written, found, fine | harmless⟩
  · exact Or.inl (same.symm.trans there)
  · rw [there] at found
    cases found
    exact Or.inr fine
  · exact absurd rfl (harmless.entry otherTenant layer n)

theorem Confined.entry_back {layer : KnowledgeLayer} {n : Nat} (there : last.PromotedEntry env tenantId layer n) :
    w.PromotedEntry env tenantId layer n ∨ ∃ text, allowed (env.promotedPath tenantId layer n) text := by
  obtain ⟨text, found⟩ := ne_none_iff_exists'.mp there
  rcases confined.content_back found with before | fine
  · exact Or.inl (ne_none_iff_exists'.mpr ⟨text, before⟩)
  · exact Or.inr ⟨text, fine⟩

theorem Confined.relation_back {location : Location} {n : Nat}
    (there : last.PromotedRelation env tenantId location n) : w.PromotedRelation env tenantId location n ∨
      ∃ text relation, allowed location text ∧ env.parseRelation text = .ok relation ∧
        relation.targetId = env.promotedItem n := by
  obtain ⟨within, relation, found, kind, target⟩ := there
  rcases confined.files location with same | ⟨text, written, permitted⟩
  · refine Or.inl ⟨within, relation, ?_, kind, target⟩
    unfold Files.relationAt at found ⊢
    rwa [same] at found
  · have parsed : env.parseRelation text = .ok relation := by
      unfold Files.relationAt at found
      rw [written, bind_some] at found
      cases reading : env.parseRelation text with
      | error message =>
        rw [reading] at found
        cases found
      | ok other =>
        rw [reading] at found
        cases found
        rfl
    rcases permitted with fine | harmless
    · exact Or.inr ⟨text, relation, fine, parsed, target⟩
    · exact absurd kind (harmless.relation within relation parsed)

theorem Confined.stored_back {otherTenant id : String}
    {request : PromotionRequest} (there : last.stored env otherTenant id = some request) :
    w.stored env otherTenant id = some request ∨
      ∃ text, allowed (env.requestPath otherTenant id) text ∧ env.parseRequest text = .ok request := by
  rcases confined.files (env.requestPath otherTenant id) with same | ⟨text, written, permitted⟩
  · rw [stored_of_lookup same] at there
    exact Or.inl there
  · have parsed : env.parseRequest text = .ok request := by
      unfold Workspace.stored Files.requestAt at there
      rw [written, bind_some] at there
      cases reading : env.parseRequest text with
      | error message =>
        rw [reading] at there
        cases there
      | ok other =>
        rw [reading] at there
        cases there
        rfl
    rcases permitted with fine | harmless
    · exact Or.inr ⟨text, fine, parsed⟩
    · exact absurd parsed (harmless.request otherTenant id request rfl)

end

/-- What holds between the calls: the relation of an attempt is written after its entry. -/
structure Settled (env : ManagerEnv) (tenantId promotionId : String) (since : Nat) (w : Workspace) : Prop where
  once : w.AppliedOnce env tenantId promotionId since
  linked : ∀ location n, since ≤ n → w.PromotedRelation env tenantId location n →
    ∃ layer, w.PromotedEntry env tenantId layer n
  drawn : since ≤ w.drawn

theorem Settled.harmless (settled : Settled env tenantId promotionId since w)
    (confined : Confined env tenantId (fun _ _ => False) w last) : Settled env tenantId promotionId since last := by
  have entries : ∀ {layer n}, last.PromotedEntry env tenantId layer n → w.PromotedEntry env tenantId layer n :=
    fun there => (confined.entry_back there).elim id (fun ⟨_, impossible⟩ => impossible.elim)
  have relations : ∀ {location n}, last.PromotedRelation env tenantId location n →
      w.PromotedRelation env tenantId location n :=
    fun there => (confined.relation_back there).elim id (fun ⟨_, _, impossible, _⟩ => impossible.elim)
  refine ⟨⟨?_, ?_, ?_⟩, ?_, settled.drawn.trans confined.drawn⟩
  · intro layer n layer' n' late late' there there'
    exact settled.once.entry layer n layer' n' late late' (entries there) (entries there')
  · intro location n location' n' late late' there there'
    exact settled.once.relation location n location' n' late late' (relations there) (relations there')
  · intro request stored applied
    rcases confined.stored_back stored with stored | ⟨_, impossible, _⟩
    · obtain ⟨n, late, item, there⟩ := settled.once.recorded request stored applied
      exact ⟨n, late, item, confined.entry there⟩
    · exact impossible.elim
  · intro location n late there
    obtain ⟨layer, entry⟩ := settled.linked location n late (relations there)
    exact ⟨layer, confined.entry entry⟩

section
variable {request : PromotionRequest} {n k : Nat}

theorem promotedItem_injective {m : Nat} (same : env.promotedItem m = env.promotedItem n) : m = n := by
  apply env.newId_injective
  apply String.toList_injective
  have chars := congrArg String.toList same
  simpa [ManagerEnv.promotedItem, String.toList_append] using chars

variable {text : String}

theorem Attempt.at_entry {otherTenant : String} {layer : KnowledgeLayer} {m : Nat}
    (attempt : Attempt env tenantId request n k (env.promotedPath otherTenant layer m) text) :
    env.promotedPath otherTenant layer m = env.promotedPath tenantId request.targetLayer n ∧
      text = request.sharedContent := by
  generalize place : env.promotedPath otherTenant layer m = location at attempt
  cases attempt with
  | entry => exact ⟨rfl, rfl⟩
  | relation =>
    have dotted : Dotted (env.relationPath tenantId (env.newId k)) := locate_dotted _ _
    exact absurd (place ▸ dotted) (promotedPath_undotted layer m)
  | request =>
    have dotted : Dotted (env.requestPath tenantId request.id) := locate_dotted _ _
    exact absurd (place ▸ dotted) (promotedPath_undotted layer m)

theorem Attempt.at_relation {location : Location} {relation : KnowledgeRelation}
    (attempt : Attempt env tenantId request n k location text) (within : env.relationsDirectory tenantId <+: location)
    (parsed : env.parseRelation text = .ok relation) :
    location = env.relationPath tenantId (env.newId k) ∧ relation.targetId = env.promotedItem n := by
  cases attempt with
  | entry => exact absurd within (promotedPath_unrelated _ _)
  | relation _ target =>
    rw [env.parseRelation_render] at parsed
    cases parsed
    exact ⟨rfl, target⟩
  | request => exact absurd parsed (env.parseRelation_request _ _)

theorem Attempt.at_request {id : String} {stored : PromotionRequest}
    {otherTenant : String} (attempt : Attempt env tenantId request n k (env.requestPath otherTenant id) text)
    (parsed : env.parseRequest text = .ok stored) :
    env.requestPath otherTenant id = env.requestPath tenantId request.id ∧ ∃ residualItemId now,
      stored = { request with
      promotedItemId := some (env.promotedItem n)
      residualItemId := residualItemId
      status := .applied
      updatedAt := now } := by
  generalize place : env.requestPath otherTenant id = location at attempt
  cases attempt with
  | entry =>
    have dotted : Dotted (env.requestPath otherTenant id) := locate_dotted _ _
    exact absurd (place ▸ dotted) (promotedPath_undotted _ _)
  | relation => exact absurd parsed (env.parseRequest_relation _ _)
  | request residualItemId now =>
    rw [env.parseRequest_render] at parsed
    cases parsed
    exact ⟨rfl, residualItemId, now, rfl⟩

theorem Settled.attempt (settled : Settled env tenantId promotionId since w)
    (none : ∀ layer m, since ≤ m → ¬ w.PromotedEntry env tenantId layer m)
    (stored : w.stored env tenantId promotionId = some request) (approved : request.status = .approved)
    (late : w.drawn ≤ n) (confined : Confined env tenantId (Attempt env tenantId request n k) w last)
    (there : last.PromotedEntry env tenantId request.targetLayer n ∨
      Confined env tenantId (fun location text => location = env.promotedPath tenantId request.targetLayer n ∧
          text = request.sharedContent) w last) :
    Settled env tenantId promotionId since last := by
  have unrelated : ∀ {location m}, since ≤ m → ¬ w.PromotedRelation env tenantId location m := by
    intro location m old related
    obtain ⟨layer, entry⟩ := settled.linked location m old related
    exact none layer m old entry
  have entries : ∀ {layer m}, since ≤ m → last.PromotedEntry env tenantId layer m →
      layer = request.targetLayer ∧ m = n := by
    intro layer m old entry
    rcases confined.entry_back entry with before | ⟨text, attempt⟩
    · exact absurd before (none layer m old)
    · exact promotedPath_injective attempt.at_entry.1
  have relations : ∀ {location m}, since ≤ m → last.PromotedRelation env tenantId location m →
      location = env.relationPath tenantId (env.newId k) ∧ m = n := by
    intro location m old related
    rcases confined.relation_back related with before | ⟨text, relation, attempt, parsed, target⟩
    · exact absurd before (unrelated old)
    · obtain ⟨place, item⟩ := attempt.at_relation related.1 parsed
      exact ⟨place, promotedItem_injective (target.symm.trans item)⟩
  refine ⟨⟨?_, ?_, ?_⟩, ?_, settled.drawn.trans confined.drawn⟩
  · intro layer m layer' m' old old' entry entry'
    obtain ⟨rfl, rfl⟩ := entries old entry
    obtain ⟨rfl, rfl⟩ := entries old' entry'
    exact ⟨rfl, rfl⟩
  · intro location m location' m' old old' related related'
    rw [(relations old related).1, (relations old' related').1]
  · intro now found applied
    rcases confined.stored_back found with before | ⟨text, attempt, parsed⟩
    · rw [stored] at before
      cases before
      rw [approved] at applied
      cases applied
    · obtain ⟨-, residualItemId, now, rfl⟩ := attempt.at_request parsed
      refine ⟨n, settled.drawn.trans late, rfl, ?_⟩
      refine there.resolve_right (fun only => ?_)
      -- had only the entry been written, the request would be as before
      rcases only.stored_back found with before | ⟨_, place, -⟩
      · have status := congrArg PromotionRequest.status (Option.some.inj (stored.symm.trans before))
        rw [approved] at status
        cases status
      · have dotted : Dotted (env.requestPath tenantId promotionId) := locate_dotted _ _
        exact promotedPath_undotted _ _ (place.1 ▸ dotted)
  · intro location m old related
    obtain ⟨-, rfl⟩ := relations old related
    refine ⟨request.targetLayer, there.resolve_right (fun only => ?_)⟩
    rcases only.relation_back related with before | ⟨_, _, place, -⟩
    · exact unrelated old before
    · exact promotedPath_unrelated _ _ (place.1 ▸ related.1)

end

/-- In every run in which no attempt follows one that has left an entry behind, the promotion is applied
once at most. -/
theorem clean_run_applies_once {start w : Workspace} (fresh : start.Fresh env tenantId)
    (unapplied : ∀ request, start.stored env tenantId promotionId = some request → request.status ≠ .applied)
    (run : ApplyRun env tenantId promotionId (fun w => w.Clean env tenantId promotionId start.drawn) start w) :
    w.AppliedOnce env tenantId promotionId start.drawn := by
  have settled : Settled env tenantId promotionId start.drawn w := by
    induction run with
    | start =>
      refine ⟨⟨?_, ?_, ?_⟩, ?_, le_refl _⟩
      · exact fun layer n _ _ late _ there => absurd there (fresh.entry layer n late)
      · exact fun location n _ _ late _ there => absurd there (fresh.relation location n late)
      · exact fun request stored applied => absurd applied (unapplied request stored)
      · exact fun location n late there => absurd there (fresh.relation location n late)
    | @call w ctx own _ clean ih =>
      subst own
      have meets : (applyPromotion ctx promotionId).Meets (aloneContract env)
          (fun _ _ last => Tried env ctx.tenantId promotionId w last) [] w := applyPromotion_tries promotionId
      obtain ⟨-, -, _, tried⟩ := meets.run (fun _ => rfl) trivial (.of_all (fun _ _ _ => trivial))
      rcases tried with harmless | ⟨request, n, k, _, _, stored, approved, -, -, late, confined, there⟩
      · exact ih.harmless harmless
      · refine ih.attempt (clean.resolve_left ?_) stored approved late confined there
        rintro ⟨other, found, applied⟩
        rw [stored] at found
        cases found
        rw [approved] at applied
        cases applied
  exact settled.once

end

/-- The sample, where the calls at some ticks fail and write nothing. -/
def fullDisk (ticks : List Nat) : ManagerEnv :=
  { sampleManager with fault := fun n => if n ∈ ticks then some ⟨"No space left on device", 0⟩ else none }

def guideApproved : Workspace := guideWorkspace.keep sampleManager (approvedGuide "p1") 0

def attempted (ticks : List Nat) (w : Workspace) : Workspace :=
  ((applyPromotion reviewer "p1").run (exec (fullDisk ticks)) w).2

theorem guideApproved_text : guideApproved.repo.files.contents.lookup (sampleManager.requestPath "acme" "p1") =
    some (PromotionRequest.json.render (approvedGuide "p1")) :=
  (keep_lookup (approvedGuide "p1") guide_facts.1 0 _).trans (if_pos rfl)

def guideAttempt : ManagerM PromotionRequest := do
  let source ← findSource reviewer "guide"
  let now ← Program.ask .timestamp
  let promotedId ← Program.ask .newId
  let answer ← Program.ask (.store "acme" (promotedEntry reviewer (approvedGuide "p1") source
    ("promoted/" ++ promotedId) now) ("[promote] " ++ "p1"))
  let _ ← Program.orFail .repository answer
  let residual ← settleSource reviewer "p1" (approvedGuide "p1") source now
  persistPromotionRelations reviewer "guide" ("promoted/" ++ promotedId) residual (some .approveAsReplacement) now
  let answer ← Program.ask (.storePromotionRequest "acme" { approvedGuide "p1" with
    promotedItemId := some ("promoted/" ++ promotedId)
    residualItemId := residual.or none
    status := .applied
    updatedAt := now })
  Program.orFail .repository answer

theorem attempted_eq (ticks : List Nat) {w : Workspace} (undisturbed : w.tick ∉ ticks)
    (text : w.repo.files.contents.lookup ((fullDisk ticks).requestPath "acme" "p1") =
      some (PromotionRequest.json.render (approvedGuide "p1"))) :
    attempted ticks w = (guideAttempt.run (exec (fullDisk ticks)) w.advance).2 := by
  have fine : (fullDisk ticks).fault w.tick = none := if_neg undisturbed
  unfold attempted applyPromotion
  rw [Program.run_bind_of_ok (loadPromotion_run reviewer fine text)]
  rfl

theorem run_lookup {env : ManagerEnv} {α : Type} {program : ManagerM α} {location : Location}
    {notes : List (Note Answer)} {w : Workspace}
    (elsewhere : program.Permits (exec env)
      (fun _ c _ => ∀ write ∈ c.writes env, write.location ≠ location) notes w) :
    (program.run (exec env) w).2.repo.files.contents.lookup location = w.repo.files.contents.lookup location := by
  induction program generalizing notes w with
  | done a => rfl
  | fail e => rfl
  | call c next ih =>
    refine (ih _ elsewhere.2).trans ?_
    rcases exec_lookup env c w location with same | ⟨write, listed, here, -⟩
    · exact same
    · exact absurd here (elsewhere.1 write listed)

theorem run_present {env : ManagerEnv} {α : Type} (program : ManagerM α) {location : Location} {w : Workspace}
    (there : w.repo.files.contents.lookup location ≠ none) :
    (program.run (exec env) w).2.repo.files.contents.lookup location ≠ none := by
  induction program generalizing w with
  | done a => exact there
  | fail e => exact there
  | call c next ih =>
    refine ih _ ?_
    rcases exec_lookup env c w location with same | ⟨write, -, -, text⟩
    · rwa [same]
    · rw [text]
      exact nofun

theorem attempted_run {ticks : List Nat} {allowed : Workspace → Prop} {start w : Workspace}
    (run : ApplyRun (fullDisk ticks) "acme" "p1" allowed start w) (permitted : allowed w) :
    ApplyRun (fullDisk ticks) "acme" "p1" allowed start (attempted ticks w) :=
  .call reviewer rfl run permitted

theorem attempted_keeps {ticks : List Nat} {w : Workspace} {layer : KnowledgeLayer} {n : Nat}
    (there : w.PromotedEntry (fullDisk ticks) "acme" layer n) :
    (attempted ticks w).PromotedEntry (fullDisk ticks) "acme" layer n :=
  run_present _ there

theorem exec_store_lands {env : ManagerEnv} (tenantId message : String) (entry : KnowledgeEntry) {w : Workspace}
    (undisturbed : env.fault w.tick = none)
    (room : w.repo.files.Room ((env.config tenantId 0).resolvePath entry.layer entry.path)) :
    ((store tenantId entry message).exec env w).2.repo.files.contents.lookup
      ((env.config tenantId 0).resolvePath entry.layer entry.path) ≠ none := by
  obtain ⟨next, written⟩ := Files.write_of_room room ((env.config tenantId 0).resolvePath_plain _ _) entry.content
  have files : ∀ repo : GitRepository, (repo.perform env.repository none
      ((store tenantId entry message).writes env) message).2.files =
        (repo.files.writeAll ((store tenantId entry message).writes env)).1 := by
    intro repo
    unfold GitRepository.perform
    cases shape : repo.files.writeAll ((store tenantId entry message).writes env) with
    | mk files error => cases error <;> rfl
  show (w.repo.perform env.repository (env.fault w.tick) ((store tenantId entry message).writes env)
    message).2.files.contents.lookup _ ≠ none
  rw [undisturbed, files]
  unfold ManagerCall.writes RepositoryConfig.entryWrites Files.writeAll
  rw [written]
  rcases next.writeAll_lookup [_] ((env.config tenantId 0).resolvePath entry.layer entry.path) with
    same | ⟨_, -, -, text⟩
  · rw [same, Files.write_lookup written, if_pos rfl]
    exact some_ne_none _
  · rw [text]
    exact some_ne_none _

theorem guideAttempt_promotes {ticks : List Nat} {w : Workspace} (finds : w.tick ∉ ticks)
    (stores : w.tick + 3 ∉ ticks)
    (source : w.repo.files.contents.lookup ["srv", "acme", "project", "guide"] = some "plain")
    (bare : w.repo.files.read ["srv", "acme", "project", "guide.metadata.json"] = .ok none)
    (room : w.repo.files.Room ((fullDisk ticks).promotedPath "acme" .team w.drawn)) :
    (guideAttempt.run (exec (fullDisk ticks)) w).2.PromotedEntry (fullDisk ticks) "acme" .team w.drawn := by
  have place : locate (enter (locate ["srv"] "acme") "project") "guide" = ["srv", "acme", "project", "guide"] := by
    decide +kernel
  have path : ((fullDisk ticks).config "acme" w.tick).resolvePath .project "guide" =
      ["srv", "acme", "project", "guide"] := place
  have beside : metadataPath ["srv", "acme", "project", "guide"] =
      ["srv", "acme", "project", "guide.metadata.json"] := by
    decide +kernel
  have fine : (fullDisk ticks).fault w.tick = none := if_neg finds
  have works : (fullDisk ticks).fault (w.tick + 3) = none := if_neg stores
  have text : w.repo.files.contents.lookup (((fullDisk ticks).config reviewer.tenantId w.tick).resolvePath .project
      "guide") = some "plain" := by
    rw [show ((fullDisk ticks).config reviewer.tenantId w.tick).resolvePath .project "guide" = _ from path]
    exact source
  have missing : w.repo.files.read (metadataPath (((fullDisk ticks).config reviewer.tenantId w.tick).resolvePath
      .project "guide")) = .ok none := by
    rw [show ((fullDisk ticks).config reviewer.tenantId w.tick).resolvePath .project "guide" = _ from path, beside]
    exact bare
  obtain ⟨entry, found, -⟩ := findSource_run reviewer w "guide" "plain" fine text missing
  have clock : (Program.ask ManagerCall.timestamp : ManagerM Int).run (exec (fullDisk ticks)) w.advance =
      (.ok ((fullDisk ticks).now (w.tick + 1)), w.advance.advance) := rfl
  have drawn : (Program.ask newId : ManagerM String).run
      (exec (fullDisk ticks)) w.advance.advance =
      (.ok ((fullDisk ticks).newId w.drawn), { repo := w.repo, drawn := w.drawn + 1, tick := w.tick + 3 }) := rfl
  unfold guideAttempt
  rw [Program.run_bind_of_ok found, Program.run_bind_of_ok clock, Program.run_bind_of_ok drawn]
  let promoted := promotedEntry reviewer (approvedGuide "p1") entry ((fullDisk ticks).promotedItem w.drawn)
    ((fullDisk ticks).now (w.tick + 1))
  have landed := exec_store_lands "acme" ("[promote] " ++ "p1") promoted
    (w := { repo := w.repo, drawn := w.drawn + 1, tick := w.tick + 3 }) works room
  rw [Program.run_bind_of_ok (Program.run_ask _ _ _)]
  exact run_present _ landed

def justApproved : List Location := [["srv", "acme", "_meta", "promotions", "p1.json"],
    ["srv", "acme", "project", "guide"]]

theorem fullDisk_root (ticks : List Nat) : locate (fullDisk ticks).repository.root "acme" = ["srv", "acme"] :=
  show locate ["srv"] "acme" = _ by decide +kernel

section
variable {ticks : List Nat} {w : Workspace} (keys : w.repo.files.contents.keys = justApproved)
include keys

theorem justApproved_present {location : Location} (there : w.repo.files.contents.lookup location ≠ none) :
    location ∈ justApproved := by
  rw [← keys]
  exact AList.mem_keys.mp (AList.lookup_isSome.mp (isSome_iff_ne_none.mpr there))

theorem justApproved_unpromoted (layer : KnowledgeLayer) (n : Nat) :
    ¬ w.PromotedEntry (fullDisk ticks) "acme" layer n := by
  intro there
  have listed := justApproved_present keys there
  rw [promotedPath_eq, fullDisk_root] at listed
  cases layer <;> simp [justApproved, KnowledgeLayer.layerDir] at listed

theorem justApproved_fresh : w.Fresh (fullDisk ticks) "acme" where
  entry layer n _ := justApproved_unpromoted keys layer n
  relation location n _ := by
    rintro ⟨within, relation, found, -⟩
    have there : w.repo.files.contents.lookup location ≠ none := by
      intro missing
      simp [Files.relationAt, missing] at found
    have listed := justApproved_present keys there
    rw [relationsDirectory_eq, fullDisk_root] at within
    simp only [justApproved, mem_cons, not_mem_nil, or_false] at listed
    rcases listed with rfl | rfl <;> exact absurd within (by decide)

end

theorem guideApproved_stored (ticks : List Nat) :
    guideApproved.stored (fullDisk ticks) "acme" "p1" = some (approvedGuide "p1") :=
  stored_of_text guideApproved_text

theorem guideApproved_keys : guideApproved.repo.files.contents.keys = justApproved := by
  decide +kernel

/-- An attempt that cannot load the request, and one that cannot write its source back. -/
theorem clean_run_promotes :
    (attempted [0, 8] (attempted [0, 8] guideApproved)).PromotedEntry (fullDisk [0, 8]) "acme" .team 0 ∧
    (attempted [0, 8] (attempted [0, 8] guideApproved)).AppliedOnce (fullDisk [0, 8]) "acme" "p1" 0 := by
  have first : attempted [0, 8] guideApproved = guideApproved.advance := rfl
  have second := attempted_eq [0, 8] (w := guideApproved.advance) (by decide) guideApproved_text
  constructor
  · rw [first, second]
    exact guideAttempt_promotes (by decide) (by decide) (by decide +kernel) (by decide +kernel) (by decide +kernel)
  · refine clean_run_applies_once (justApproved_fresh guideApproved_keys) ?_ ?_
    · intro request stored
      rw [guideApproved_stored] at stored
      cases stored
      exact nofun
    · refine attempted_run (attempted_run .start ?_) ?_
      · exact Or.inr (fun layer n _ => justApproved_unpromoted guideApproved_keys layer n)
      · rw [first]
        exact Or.inr (fun layer n _ => justApproved_unpromoted guideApproved_keys layer n)

theorem retried_apply_promotes_twice : guideApproved.Fresh (fullDisk [7, 15]) "acme" ∧
    guideApproved.stored (fullDisk [7, 15]) "acme" "p1" = some (approvedGuide "p1") ∧
    ApplyRun (fullDisk [7, 15]) "acme" "p1" (fun _ => True) guideApproved
      (attempted [7, 15] (attempted [7, 15] guideApproved)) ∧
    (attempted [7, 15] (attempted [7, 15] guideApproved)).PromotedEntry (fullDisk [7, 15]) "acme" .team 0 ∧
    (attempted [7, 15] (attempted [7, 15] guideApproved)).PromotedEntry (fullDisk [7, 15]) "acme" .team 1 ∧
    ¬ (attempted [7, 15] (attempted [7, 15] guideApproved)).AppliedOnce (fullDisk [7, 15]) "acme" "p1" 0 := by
  have first := attempted_eq [7, 15] (w := guideApproved) (by decide) guideApproved_text
  have promoted : (attempted [7, 15] guideApproved).PromotedEntry (fullDisk [7, 15]) "acme" .team 0 := by
    rw [first]
    exact guideAttempt_promotes (by decide) (by decide) (by decide +kernel) (by decide +kernel) (by decide +kernel)
  have still : (attempted [7, 15] guideApproved).repo.files.contents.lookup
      ((fullDisk [7, 15]).requestPath "acme" "p1") = some (PromotionRequest.json.render (approvedGuide "p1")) := by
    rw [first, @run_lookup _ _ _ _ [] _ (by decide +kernel)]
    exact guideApproved_text
  have tick : (attempted [7, 15] guideApproved).tick = 8 := by
    rw [first]
    decide +kernel
  have later : (attempted [7, 15] guideApproved).advance.tick = 9 := by
    rw [first]
    decide +kernel
  have drawn : (attempted [7, 15] guideApproved).advance.drawn = 1 := by
    rw [first]
    decide +kernel
  have again : (attempted [7, 15] (attempted [7, 15] guideApproved)).PromotedEntry
      (fullDisk [7, 15]) "acme" .team 1 := by
    rw [attempted_eq _ (by rw [tick]; decide) still, ← drawn]
    refine guideAttempt_promotes ?_ ?_ ?_ ?_ ?_
    · rw [later]
      decide
    · rw [later]
      decide
    · rw [first]
      decide +kernel
    · rw [first]
      decide +kernel
    · rw [drawn, first]
      decide +kernel
  have before := attempted_keeps promoted
  refine ⟨justApproved_fresh guideApproved_keys, guideApproved_stored _,
    attempted_run (attempted_run .start trivial) trivial, before, again, ?_⟩
  intro once
  have same := once.entry .team 0 .team 1 (Nat.zero_le _) (Nat.zero_le _) before again
  exact absurd same.2 (by decide)

end Aeterna
