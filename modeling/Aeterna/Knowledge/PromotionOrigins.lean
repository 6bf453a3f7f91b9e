import Aeterna.Knowledge.PromotionSteps

namespace Aeterna
open Lib KnowledgeManager ManagerCall

abbrev Origins : Type := Location → Option (KnowledgeLayer × KnowledgeStatus)

section
variable (env : ManagerEnv)

def Origins.record (born : Origins) (ctx : TenantContext) (w next : Workspace) : Operation → Origins
  | .create request, location =>
    if next.repo.files.requestAt env location = w.repo.files.requestAt env location then born location
    else w.source env ctx.tenantId request.sourceItemId
  | _, location => born location

/-- Operations one after the other, each of them allowed; in between, anything may happen to the files but to
the requests. -/
inductive OriginRun (allowed : TenantContext → Operation → Workspace → Prop) (start : Workspace) :
    Workspace → Origins → Prop where
  | start : OriginRun allowed start start (fun _ => none)
  | edit {w next : Workspace} {born : Origins} : OriginRun allowed start w born →
    (∀ tenantId id, next.stored env tenantId id = w.stored env tenantId id) → OriginRun allowed start next born
  | call {w next : Workspace} {born : Origins} (ctx : TenantContext) (operation : Operation) :
    OriginRun allowed start w born → allowed ctx operation w →
    ((operation.program env.toLowercase ctx).run (exec env) w).2 = next →
    OriginRun allowed start next (born.record env ctx w next operation)

/-- A request tells the truth about its source, or puts it too high, and when it is applied its source is not
above the layer that it tells. -/
def Honest (ctx : TenantContext) : Operation → Workspace → Prop
  | .create request, w => ∀ layer status, w.source env ctx.tenantId request.sourceItemId = some (layer, status) →
    layer.precedence ≤ request.sourceLayer.precedence ∧ status = request.sourceStatus
  | .apply promotionId, w => ∀ request layer status, w.stored env ctx.tenantId promotionId = some request →
    w.source env ctx.tenantId request.sourceItemId = some (layer, status) →
    layer.precedence ≤ request.sourceLayer.precedence
  | _, _ => True

/-- What was applied is now in a layer above the one of its source, and its source was accepted when the request
was created. -/
def PromotedUpward (w last : Workspace) (born : Origins) (request : PromotionRequest) : Prop :=
  ∃ n layer status origin, request.promotedItemId = some (env.promotedItem n) ∧
    last.PromotedEntry env request.tenantId request.targetLayer n ∧
    w.source env request.tenantId request.sourceItemId = some (layer, status) ∧
    layer.precedence < request.targetLayer.precedence ∧
    born (env.requestPath request.tenantId request.id) = some (origin, .accepted) ∧
    origin.precedence < request.targetLayer.precedence

structure Traced (born : Origins) (tenantId id : String) (request : PromotionRequest) : Prop where
  placed : env.requestPath request.tenantId request.id = env.requestPath tenantId id
  upward : request.sourceLayer.precedence < request.targetLayer.precedence
  born : ∃ origin, born (env.requestPath tenantId id) = some (origin, .accepted) ∧
    origin.precedence ≤ request.sourceLayer.precedence

end

section
variable {env : ManagerEnv} {ctx : TenantContext} {w last : Workspace} {born : Origins} {operation : Operation}

variable {request : PromotionRequest}

theorem validateLayerDirection_ok (valid : request.validateLayerDirection = .ok ()) :
    request.sourceLayer.precedence < request.targetLayer.precedence ∧ request.sourceStatus = .accepted := by
  unfold PromotionRequest.validateLayerDirection at valid
  split at valid
  · cases valid
  split at valid
  · cases valid
  split at valid
  · cases valid
  · rename_i upward accepted
    exact ⟨not_le.mp upward, not_not.mp accepted⟩

theorem Origins.record_same {location : Location}
    (same : last.repo.files.requestAt env location = w.repo.files.requestAt env location) :
    born.record env ctx w last operation location = born location := by
  cases operation with
  | create request => exact if_pos same
  | _ => rfl

theorem Traced.rewritten {promotionId tenantId id : String} {found : PromotionRequest}
    (traced : Traced env born ctx.tenantId promotionId found) (own : found.tenantId = ctx.tenantId)
    (place : env.requestPath tenantId id = env.requestPath ctx.tenantId request.id) (sameId : request.id = found.id)
    (sameTenant : request.tenantId = found.tenantId) (sameLayer : request.sourceLayer = found.sourceLayer)
    (upward : request.sourceLayer.precedence < request.targetLayer.precedence) :
    Traced env born tenantId id request := by
  have here : env.requestPath tenantId id = env.requestPath ctx.tenantId promotionId := by
    rw [place, sameId, ← traced.placed, own]
  refine ⟨?_, upward, ?_⟩
  · rw [sameTenant, own]
    exact place.symm
  · rw [here, sameLayer]
    exact traced.born

theorem Effect.traced (effect : Effect env ctx w last operation) (honest : Honest env ctx operation w)
    (traced : ∀ tenantId id request, w.stored env tenantId id = some request → Traced env born tenantId id request)
    {tenantId id : String} (found : last.stored env tenantId id = some request) :
    Traced env (born.record env ctx w last operation) tenantId id request := by
  by_cases before : w.stored env tenantId id = some request
  · obtain ⟨placed, upward, origin⟩ := traced tenantId id request before
    have same : born.record env ctx w last operation (env.requestPath tenantId id) = born
        (env.requestPath tenantId id) :=
      Origins.record_same (found.trans before.symm)
    exact ⟨placed, upward, by rw [same]; exact origin⟩
  obtain ⟨place, wrote⟩ := (effect.stored tenantId id request found).resolve_left before
  cases wrote with
  | create _ _ _ own valid source plain =>
    obtain ⟨upward, accepted⟩ := validateLayerDirection_ok valid
    obtain ⟨below, status⟩ := honest _ _ source
    refine ⟨?_, upward, _, ?_, below⟩
    · rw [place, ← own]
    · have changed : last.stored env tenantId id ≠ w.stored env tenantId id :=
        fun same => before (same.symm.trans found)
      refine (if_neg changed).trans ?_
      rw [source, status, accepted]
  | approve now stored own =>
    have earlier := traced _ _ _ stored
    exact earlier.rewritten own place rfl rfl rfl earlier.upward
  | reject now stored own =>
    have earlier := traced _ _ _ stored
    exact earlier.rewritten own place rfl rfl rfl earlier.upward
  | retarget now stored own pending valid =>
    exact (traced _ _ _ stored).rewritten own place rfl rfl rfl (validateLayerDirection_ok valid).1
  | apply n residualItemId now stored own =>
    have earlier := traced _ _ _ stored
    exact earlier.rewritten own place rfl rfl rfl earlier.upward

theorem OriginRun.traced {start : Workspace} (run : OriginRun env (Honest env) start w born)
    (empty : ∀ tenantId id, start.stored env tenantId id = none) :
    ∀ tenantId id request, w.stored env tenantId id = some request → Traced env born tenantId id request := by
  induction run with
  | start =>
    intro tenantId id request found
    rw [empty] at found
    cases found
  | edit _ kept ih =>
    intro tenantId id request found
    exact ih tenantId id request ((kept tenantId id).symm.trans found)
  | call ctx operation _ honest ended ih =>
    subst ended
    intro tenantId id request found
    exact (operation_effect operation ctx _).traced honest ih found

/-- Whatever an honest operation applies after honest operations goes strictly upwards from an accepted source. -/
theorem honest_run_promotes_upward {start : Workspace} (empty : ∀ tenantId id, start.stored env tenantId id = none)
    (run : OriginRun env (Honest env) start w born) (honest : Honest env ctx operation w)
    (ended : ((operation.program env.toLowercase ctx).run (exec env) w).2 = last) {tenantId id : String}
    {request : PromotionRequest} (found : last.stored env tenantId id = some request)
    (applied : request.status = .applied) (now : w.stored env tenantId id ≠ some request) :
    PromotedUpward env w last born request := by
  subst ended
  have effect : Effect env ctx w _ operation := operation_effect operation ctx w
  obtain ⟨-, wrote⟩ := (effect.stored tenantId id request found).resolve_left now
  cases wrote with
  | create => cases applied
  | approve => cases applied
  | reject => cases applied
  | retarget _ _ _ pending => exact absurd (pending.symm.trans applied) nofun
  | apply n residualItemId now stored own _ source there =>
    obtain ⟨placed, upward, origin, accepted, below⟩ := run.traced empty _ _ _ stored
    have actual := honest _ _ _ stored source
    rw [← own] at source there
    refine ⟨n, _, _, origin, rfl, there, source, lt_of_le_of_lt actual upward, ?_, lt_of_le_of_lt below upward⟩
    rw [← accepted]
    exact congrArg born placed

end

def guideIn (layer : KnowledgeLayer) : Workspace where
  repo := { files := {
    contents := (∅ : HashMap Location String).insert ["srv", "acme", layer.layerDir, "guide"] "plain"
    plain := by
      intro location member
      rcases (AList.mem_insert _).mp member with rfl | impossible
      swap
      · exact absurd impossible (AList.notMem_empty _)
      intro name listed
      simp only [List.mem_cons, List.not_mem_nil, or_false] at listed
      rcases listed with rfl | rfl | rfl | rfl
      · exact ⟨by decide, by decide, by decide, by decide⟩
      · exact ⟨by decide, by decide, by decide, by decide⟩
      · exact layer.layerDir_plain
      · exact ⟨by decide, by decide, by decide, by decide⟩ } }

def sharedGuide : PromotionRequest :=
  { waitingGuide "p1" with status := .approved, latestDecision := some .retargetLayer }

def Workspace.requested (found : Workspace) : Workspace := found.advance.keep sampleManager (waitingGuide "p1") 2

def Workspace.shared (found : Workspace) : Workspace :=
  found.requested.advance.advance.advance.advance.keep sampleManager sharedGuide 1

def applySharedGuide : ManagerM PromotionRequest := do
  let source ← findSource reviewer "guide"
  let now ← Program.ask .timestamp
  let promotedId ← Program.ask .newId
  let answer ← Program.ask (.store "acme" (promotedEntry reviewer sharedGuide source ("promoted/" ++ promotedId) now)
    ("[promote] " ++ "p1"))
  let _ ← Program.orFail .repository answer
  let residual ← settleSource reviewer "p1" sharedGuide source now
  persistPromotionRelations reviewer "guide" ("promoted/" ++ promotedId) residual (some .retargetLayer) now
  let answer ← Program.ask (.storePromotionRequest "acme" { sharedGuide with
    promotedItemId := some ("promoted/" ++ promotedId)
    residualItemId := residual.or none
    status := .applied
    updatedAt := now })
  Program.orFail .repository answer

theorem guideIn_requestAt (layer : KnowledgeLayer) (location : Location) :
    (guideIn layer).repo.files.requestAt sampleManager location = none := by
  unfold Files.requestAt
  by_cases here : location = ["srv", "acme", layer.layerDir, "guide"]
  · have text : (guideIn layer).repo.files.contents.lookup location = some "plain" := by
      rw [here]
      exact AList.lookup_insert _
    rw [text]
    decide +kernel
  · have text : (guideIn layer).repo.files.contents.lookup location = none := by
      refine (AList.lookup_insert_ne here).trans ?_
      exact AList.lookup_empty _
    rw [text]
    rfl

section
variable {env : ManagerEnv} {α β : Type} {notes : List (Note Answer)} {w : Workspace}

theorem any_seq {program : ManagerM α} {f : α → ManagerM β}
    {post : Except KnowledgeManagerError β → List (Note Answer) → Workspace → Prop}
    (failed : ∀ e later last, post (.error e) later last)
    (rest : ∀ a later last, (f a).Meets (aloneContract env) post later last) :
    (program >>= f).Meets (aloneContract env) post notes w := by
  refine Program.Meets.bind ?_
  induction program generalizing notes w with
  | done a => exact rest a notes w
  | fail e => exact failed e notes w
  | call c next ih => exact fun _ _ _ _ => ⟨trivial, trivial, ih _⟩

theorem exec_stores {tenantId : String} {request stored : PromotionRequest}
    (answer : ((storePromotionRequest tenantId request).exec env w).1 = .ok stored) :
    stored = request ∧ ((storePromotionRequest tenantId request).exec env w).2.stored env tenantId request.id =
        some request := by
  simp only [exec, perform] at answer ⊢
  cases done : w.repo.perform env.repository (env.fault w.tick)
    ((storePromotionRequest tenantId request).writes env)
    (storePromotionRequest tenantId request).commitMessage with
  | mk result next =>
    rw [done] at answer
    cases result with
    | error message => cases answer
    | ok id =>
      cases answer
      have all := GitRepository.perform_ok done
      simp only [writes, Files.writeAll] at all
      cases written : w.repo.files.write (env.requestPath tenantId request.id)
        ((env.config tenantId 0).metaPath_plain _ _) (PromotionRequest.json.render request) with
      | error message =>
        rw [written] at all
        simp at all
      | ok files =>
        rw [written] at all
        obtain ⟨rfl, -⟩ := Prod.mk.inj all
        exact ⟨rfl, stored_of_text ((Files.write_lookup written _).trans (if_pos rfl))⟩

theorem applySharedGuide_stores : applySharedGuide.Meets (aloneContract env) (fun outcome _ last =>
    ∀ request, outcome = .ok request → last.stored env "acme" "p1" = some request ∧ request.status = .applied ∧
      request.targetLayer = .team ∧ request.sourceItemId = "guide" ∧ request.tenantId = "acme") notes w := by
  refine any_seq (fun _ _ _ _ => nofun) (fun source _ _ => any_seq (fun _ _ _ _ => nofun) (fun now _ _ => ?_))
  refine any_seq (fun _ _ _ _ => nofun) (fun promotedId _ _ => any_seq (fun _ _ _ _ => nofun) (fun answer _ _ => ?_))
  refine any_seq (fun _ _ _ _ => nofun) (fun _ _ _ => any_seq (fun _ _ _ _ => nofun) (fun residual _ _ => ?_))
  refine any_seq (fun _ _ _ _ => nofun) (fun _ _ t => Program.Meets.bind ?_)
  rintro _ rfl - -
  refine ⟨trivial, trivial, Program.Meets.orFail (fun stored answer request outcome => ?_) (fun _ _ _ => nofun)⟩
  cases outcome
  obtain ⟨rfl, there⟩ := exec_stores answer
  exact ⟨there, rfl, rfl, rfl, rfl⟩

end

/-- A program ended well. -/
def ended {α : Type} (outcome : Except KnowledgeManagerError α) : Bool :=
  match outcome with
  | .ok _ => true
  | .error _ => false

section
variable {start found : Workspace} {layer : KnowledgeLayer} {entry : KnowledgeEntry}
  (source : (findSource reviewer "guide").run (exec sampleManager) (guideIn layer) = (.ok entry, found))
  (version : entry.commitHash = none) (same : found.repo = (guideIn layer).repo)
  (room : found.repo.files.Room (sampleManager.requestPath "acme" "p1"))
  (again : found.requested.repo.files.Room (sampleManager.requestPath "acme" "p1"))

include source version room in
theorem guide_requested : (createPromotionRequest reviewer sampleManager.toLowercase (guideRequest "p1")).run
    (exec sampleManager) (guideIn layer) = (.ok (waitingGuide "p1"), found.requested) := by
  have run := createPromotionRequest_calm sampleManager_calm (guideRequest "p1") sampleManager.toLowercase
    (reviewer_authorized _) rfl source rfl guide_facts.2 rfl (by decide) room
  rw [version] at run
  exact run

include room

theorem requested_lookup (location : Location) : found.requested.repo.files.contents.lookup location =
    if location = sampleManager.requestPath "acme" "p1" then some (PromotionRequest.json.render (waitingGuide "p1"))
    else found.repo.files.contents.lookup location :=
  keep_lookup (waitingGuide "p1") (w := found.advance) room 2 location

include same

theorem requested_unopposed : (found.requested.repo.listPromotionRequests sampleManager "acme").find?
    (conflicts (waitingGuide "p1")) = none := by
  refine List.find?_eq_none.mpr (fun other listed clash => ?_)
  obtain ⟨location, -, read⟩ := List.mem_filterMap.mp listed
  have text := requested_lookup room location
  split at text
  · rw [requestAt_of_text text] at read
    cases read
    simp [conflicts] at clash
  · rw [same] at text
    rw [requestAt_of_lookup text, guideIn_requestAt] at read
    cases read

include again

theorem guide_shared : (approvePromotion reviewer sampleManager.toLowercase "p1" .retargetLayer none).run
    (exec sampleManager) found.requested = (.ok sharedGuide, found.shared) := by
  have reached := @approvePromotion_reaches sampleManager sampleManager_calm reviewer (waitingGuide "p1")
    found.requested sampleManager.toLowercase "p1" .retargetLayer none (reviewer_authorized _)
      ((requested_lookup room _).trans (if_pos rfl))
    guide_facts.2 rfl (fun _ => nofun) rfl (by decide) rfl (requested_unopposed same room)
  rw [reached.run_eq]
  have stored := exec_store_calm sampleManager_calm sharedGuide
    (w := found.requested.advance.advance.advance.advance) again
  have asked : (Program.ask (.storePromotionRequest "acme" sharedGuide) : ManagerM _).run
      (exec sampleManager) found.requested.advance.advance.advance.advance =
        (.ok (.ok sharedGuide), found.shared) :=
    congrArg (fun answered => (Except.ok answered.1, answered.2)) stored
  exact Program.run_bind_of_ok asked

omit same room in
theorem shared_text : found.shared.repo.files.contents.lookup (sampleManager.requestPath "acme" "p1") =
    some (PromotionRequest.json.render sharedGuide) :=
  (keep_lookup sharedGuide (w := found.requested.advance.advance.advance.advance) again 1 _).trans
    (if_pos rfl)

omit same room in
theorem shared_stored : found.shared.stored sampleManager "acme" "p1" = some sharedGuide :=
  stored_of_text (shared_text again)

include source version in
theorem shared_run (allowed : TenantContext → Operation → Workspace → Prop)
    (creates : allowed reviewer (.create (guideRequest "p1")) (guideIn layer))
    (approves : allowed reviewer (.approve "p1" .retargetLayer none) found.requested) :
    ∃ born, OriginRun sampleManager allowed (guideIn layer) found.shared born := by
  have requested := congrArg Prod.snd (guide_requested source version room)
  have shared := congrArg Prod.snd (guide_shared same room again)
  exact ⟨_, (OriginRun.start.call reviewer (.create (guideRequest "p1")) creates requested).call reviewer
    (.approve "p1" .retargetLayer none) approves shared⟩

omit same room in
theorem shared_applies (well : ended (applySharedGuide.run (exec sampleManager) found.shared.advance).1) :
    ∃ request, ((applyPromotion reviewer "p1").run (exec sampleManager) found.shared).2.stored
        sampleManager "acme" "p1" = some request ∧ request.status = .applied ∧ request.targetLayer = .team ∧
      request.sourceItemId = "guide" ∧ request.tenantId = "acme" := by
  have loaded : (applyPromotion reviewer "p1").run (exec sampleManager) found.shared =
      applySharedGuide.run (exec sampleManager) found.shared.advance := by
    unfold applyPromotion
    rw [Program.run_bind_of_ok (loadPromotion_run reviewer (sampleManager_calm.fault _) (shared_text again))]
    rfl
  obtain ⟨-, -, _, stores⟩ := (@applySharedGuide_stores sampleManager [] found.shared.advance).run
      (fun _ => rfl) trivial (.of_all (fun _ _ _ => trivial))
  rw [loaded]
  cases outcome : (applySharedGuide.run (exec sampleManager) found.shared.advance).1 with
  | error e =>
    rw [outcome] at well
    cases well
  | ok request => exact ⟨request, stores request outcome⟩

end

theorem guide_promoted_upward : ∃ w last born request,
    OriginRun sampleManager (Honest sampleManager) (guideIn .project) w born ∧
    ((applyPromotion reviewer "p1").run (exec sampleManager) w).2 = last ∧
    last.stored sampleManager "acme" "p1" = some request ∧ request.status = .applied ∧
    PromotedUpward sampleManager w last born request := by
  obtain ⟨entry, source, hash⟩ := findSource_run reviewer (guideIn .project) "guide" "plain"
    (sampleManager_calm.fault _) (by decide +kernel) (by decide +kernel)
  have version : entry.commitHash = none := hash.trans (by decide +kernel)
  have room : (guideIn .project).advance.repo.files.Room (sampleManager.requestPath "acme" "p1") := by decide +kernel
  have again : (guideIn .project).advance.requested.repo.files.Room (sampleManager.requestPath "acme" "p1") := by
    decide +kernel
  have creates : Honest sampleManager reviewer (.create (guideRequest "p1")) (guideIn .project) := by
    intro layer status found
    have actual : (guideIn .project).source sampleManager "acme" "guide" = some (.project, .accepted) :=
      by decide +kernel
    cases actual.symm.trans found
    exact ⟨le_refl _, rfl⟩
  have stored := shared_stored again
  have applies : Honest sampleManager reviewer (.apply "p1") (guideIn .project).advance.shared := by
    intro request layer status loaded found
    cases stored.symm.trans loaded
    have actual : (guideIn .project).advance.shared.source sampleManager "acme" "guide" = some
        (.project, .accepted) := by
      decide +kernel
    cases actual.symm.trans found
    exact le_refl _
  obtain ⟨born, run⟩ := shared_run source version rfl room again (Honest sampleManager) creates trivial
  obtain ⟨request, there, applied, -⟩ := shared_applies again (by decide +kernel)
  have now : (guideIn .project).advance.shared.stored sampleManager "acme" "p1" ≠ some request := by
    intro before
    cases stored.symm.trans before
    cases applied
  exact ⟨_, _, born, request, run, rfl, there, applied,
    honest_run_promotes_upward (fun _ _ => guideIn_requestAt _ _) run
    (show Honest sampleManager reviewer (.apply "p1") _ from applies) rfl there applied now⟩

/-- The guide of the team, of which the request says that it is one of the project, is promoted to the team. -/
theorem misplaced_guide_promoted : ∃ w last born request,
    (∀ tenantId id, (guideIn .team).stored sampleManager tenantId id = none) ∧
    OriginRun sampleManager (fun _ _ _ => True) (guideIn .team) w born ∧
    ((applyPromotion reviewer "p1").run (exec sampleManager) w).2 = last ∧
    last.stored sampleManager "acme" "p1" = some request ∧ request.status = .applied ∧
    w.stored sampleManager "acme" "p1" ≠ some request ∧ ¬ PromotedUpward sampleManager w last born request := by
  obtain ⟨entry, found, hash⟩ := findInLayers_finds_bare reviewer (guideIn .team).advance "guide" "plain" .team
    [.org, .tenant] (sampleManager_calm.fault _) (by decide +kernel) (by decide +kernel)
  have passed := findInLayers_passes reviewer (guideIn .team) "guide" .project [.team, .org, .tenant]
    (sampleManager_calm.fault _) (by decide +kernel)
  have source := findSource_of_layers (passed.trans found)
  have version : entry.commitHash = none := hash.trans (by decide +kernel)
  have room : (guideIn .team).advance.advance.repo.files.Room (sampleManager.requestPath "acme" "p1") :=
    by decide +kernel
  have again : (guideIn .team).advance.advance.requested.repo.files.Room (sampleManager.requestPath "acme" "p1") := by
    decide +kernel
  obtain ⟨born, run⟩ := shared_run source version rfl room again (fun _ _ _ => True) trivial trivial
  obtain ⟨request, there, applied, target, item, own⟩ := shared_applies again (by decide +kernel)
  refine ⟨_, _, born, request, fun _ _ => guideIn_requestAt _ _, run, rfl, there, applied, ?_, ?_⟩
  · intro before
    cases (shared_stored again).symm.trans before
    cases applied
  · rintro ⟨n, layer, status, origin, -, -, actual, above, -⟩
    have team : (guideIn .team).advance.advance.shared.source sampleManager "acme" "guide" = some
        (.team, .accepted) := by
      decide +kernel
    rw [own, item, team] at actual
    cases actual
    rw [target] at above
    exact absurd above (lt_irrefl _)

end Aeterna
