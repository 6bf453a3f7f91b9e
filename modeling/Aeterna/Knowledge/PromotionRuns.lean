import Aeterna.Knowledge.PromotionStore

namespace Aeterna
open Lib KnowledgeManager ManagerCall

structure ManagerEnv.Calm (env : ManagerEnv) : Prop where
  fault : ∀ n, env.fault n = none
  validate : ∀ n ctx layer context, env.validate n ctx layer context = .ok ⟨true, []⟩

def Files.Room (files : Files) (location : Location) : Prop :=
  files.isDirectory location = false ∧
    files.contents.keys.any (fun key => decide (key <+: location ∧ key ≠ location)) = false

instance (files : Files) (location : Location) : Decidable (files.Room location) :=
  inferInstanceAs (Decidable (_ ∧ _))

section
variable (env : ManagerEnv)

/-- The workspace after a request was stored and `ticks` answers were given. -/
def Workspace.keep (request : PromotionRequest) (ticks : Nat) (w : Workspace) : Workspace :=
  let call := storePromotionRequest request.tenantId request
  { w with
    repo := (w.repo.perform env.repository none (call.writes env) call.commitMessage).2
    tick := w.tick + ticks }

structure Authorized (ctx : TenantContext) (tenantId : String) (layer : KnowledgeLayer) : Prop where
  tenant : ctx.tenantId = tenantId
  target : ctx.targetTenantId = none
  authority : enforceReviewerLayerAuthority ctx layer = pure ()

end

section
variable {env : ManagerEnv} (calm : env.Calm) {ctx : TenantContext} {request : PromotionRequest} {w : Workspace}

theorem Files.write_of_room {files : Files} {location : Location} (room : files.Room location)
    (plain : PlainLocation location) (text : String) : ∃ next, files.write location plain text = .ok next := by
  unfold Files.write
  rw [if_neg (by rw [room.1]; exact Bool.false_ne_true), if_neg (by rw [room.2]; exact Bool.false_ne_true)]
  exact ⟨_, rfl⟩

theorem perform_of_room (room : w.repo.files.Room (env.requestPath request.tenantId request.id)) :
    ∃ id next, w.repo.perform env.repository none ((storePromotionRequest request.tenantId request).writes env)
        (storePromotionRequest request.tenantId request).commitMessage = (.ok id, next) ∧
      w.repo.files.write (env.requestPath request.tenantId request.id)
        ((env.config request.tenantId 0).metaPath_plain _ _) (PromotionRequest.json.render request) =
          .ok next.files := by
  obtain ⟨files, written⟩ := Files.write_of_room room ((env.config request.tenantId 0).metaPath_plain _ _)
    (PromotionRequest.json.render request)
  have all : w.repo.files.writeAll ((storePromotionRequest request.tenantId request).writes env) =
      (files, none) := by
    simp [writes, Files.writeAll, written]
  have performed := GitRepository.perform.eq_def env.repository none
    ((storePromotionRequest request.tenantId request).writes env)
    (storePromotionRequest request.tenantId request).commitMessage w.repo
  rw [all] at performed
  exact ⟨_, _, performed, written⟩

variable (request) in
theorem keep_lookup (room : w.repo.files.Room (env.requestPath request.tenantId request.id)) (ticks : Nat)
    (location : Location) : (w.keep env request ticks).repo.files.contents.lookup location =
      if location = env.requestPath request.tenantId request.id then some (PromotionRequest.json.render request)
      else w.repo.files.contents.lookup location := by
  obtain ⟨id, next, performed, written⟩ := perform_of_room room
  have kept : (w.keep env request ticks).repo = next := by
    simp only [Workspace.keep, performed]
  rw [kept, Files.write_lookup written]

variable (request) in
theorem keep_stored (room : w.repo.files.Room (env.requestPath request.tenantId request.id)) (ticks : Nat)
    (tenantId id : String) : (w.keep env request ticks).stored env tenantId id =
      if env.requestPath tenantId id = env.requestPath request.tenantId request.id then some request
      else w.stored env tenantId id := by
  unfold Workspace.stored Files.requestAt
  rw [keep_lookup request room]
  split
  · simp [env.parseRequest_render, Except.toOption]
  · rfl

variable (request) in
theorem keep_placed (placed : w.Placed env)
    (room : w.repo.files.Room (env.requestPath request.tenantId request.id)) (ticks : Nat) :
    (w.keep env request ticks).Placed env := by
  intro tenantId id stored found
  rw [keep_stored request room] at found
  split at found
  · rename_i here
    cases found
    exact here.symm
  · exact placed tenantId id stored found

include calm

variable (request) in
theorem exec_store_calm (room : w.repo.files.Room (env.requestPath request.tenantId request.id)) :
    (storePromotionRequest request.tenantId request).exec env w = (.ok request, w.keep env request 1) := by
  obtain ⟨id, next, performed, -⟩ := perform_of_room room
  simp [exec, perform, calm.fault, performed, Except.map, Workspace.keep, Workspace.advance]

omit calm in
theorem enforceTenantMatch_of_authorized {layer : KnowledgeLayer}
    (authorized : Authorized ctx request.tenantId layer) :
    enforceTenantMatch ctx request.tenantId = pure () := by
  simp [enforceTenantMatch, authorized.tenant, authorized.target, Program.failIf]
  rfl

theorem storing_calm {f : Int → PromotionRequest} {tenantId : String} (own : (f (env.now w.tick)).tenantId = tenantId)
    (room : w.repo.files.Room (env.requestPath tenantId (f (env.now w.tick)).id)) :
    (do
      let now ← Program.ask .timestamp
      let answer ← Program.ask (.storePromotionRequest tenantId (f now))
      Program.orFail .repository answer : ManagerM PromotionRequest).run (exec env) w =
        (.ok (f (env.now w.tick)), w.keep env (f (env.now w.tick)) 2) := by
  subst own
  have asked : (Program.ask ManagerCall.timestamp : ManagerM Int).run (exec env) w =
      (.ok (env.now w.tick), w.advance) := rfl
  have final := exec_store_calm calm (f (env.now w.tick)) (w := w.advance) room
  rw [Program.run_bind_of_ok asked]
  have stored : (Program.ask (.storePromotionRequest (f (env.now w.tick)).tenantId (f (env.now w.tick))) :
      ManagerM _).run (exec env) w.advance =
        (.ok (.ok (f (env.now w.tick))), w.advance.keep env (f (env.now w.tick)) 1) := by
    rw [Program.run_ask, final]
  rw [Program.run_bind_of_ok stored]
  rfl

omit calm in
theorem failIf_passes {condition : Prop} [Decidable condition] {e : KnowledgeManagerError} (fine : ¬ condition) :
    (Program.failIf condition e : ManagerM Unit) = pure () := by
  unfold Program.failIf
  rw [if_neg fine]
  rfl

omit calm in
theorem checkVersion_passes {clientVersion : Option Int}
    (current : ∀ v, clientVersion = some v → v = request.updatedAt) :
    checkVersion clientVersion request = pure () := by
  refine failIf_passes ?_
  cases clientVersion with
  | none => exact Bool.false_ne_true
  | some v => simp [current v rfl]

variable (request) in
theorem rejectPromotion_calm {promotionId : String} {clientVersion : Option Int}
    (authorized : Authorized ctx request.tenantId request.targetLayer)
    (stored : w.repo.files.contents.lookup (env.requestPath ctx.tenantId promotionId) =
      some (PromotionRequest.json.render request)) (current : ∀ v, clientVersion = some v → v = request.updatedAt)
    (pending : request.status = .pendingReview)
    (room : w.repo.files.Room (env.requestPath request.tenantId request.id)) :
    let rejected := { request with
      status := .rejected
      latestDecision := some .reject
      updatedAt := env.now (w.tick + 1) }
    (rejectPromotion ctx promotionId clientVersion).run (exec env) w =
      (.ok rejected, w.advance.keep env rejected 2) := by
  unfold rejectPromotion
  rw [Program.run_bind_of_ok (loadPromotion_run ctx (calm.fault _) stored),
    enforceTenantMatch_of_authorized authorized,
    authorized.authority, checkVersion_passes current, failIf_passes (not_not.mpr pending), authorized.tenant]
  simp only [pending, reduceCtorEq, if_false]
  exact storing_calm calm (w := w.advance) rfl room

theorem retargetPromotion_calm {promotionId : String} {newTargetLayer : KnowledgeLayer} {clientVersion : Option Int}
    (authorized : Authorized ctx request.tenantId request.targetLayer)
    (further : Authorized ctx request.tenantId newTargetLayer)
    (stored : w.repo.files.contents.lookup (env.requestPath ctx.tenantId promotionId) =
      some (PromotionRequest.json.render request)) (current : ∀ v, clientVersion = some v → v = request.updatedAt)
    (pending : request.status = .pendingReview)
    (upward : { request with targetLayer := newTargetLayer }.validateLayerDirection = .ok ())
    (room : w.repo.files.Room (env.requestPath request.tenantId request.id)) :
    let retargeted := { request with
      targetLayer := newTargetLayer
      latestDecision := some .retargetLayer
      updatedAt := env.now (w.tick + 1) }
    (retargetPromotion ctx promotionId newTargetLayer clientVersion).run (exec env) w =
      (.ok retargeted, w.advance.keep env retargeted 2) := by
  unfold retargetPromotion
  rw [Program.run_bind_of_ok (loadPromotion_run ctx (calm.fault _) stored),
    enforceTenantMatch_of_authorized authorized,
    authorized.authority, checkVersion_passes current, failIf_passes (not_not.mpr pending), upward, further.authority,
    authorized.tenant]
  exact storing_calm calm (w := w.advance) rfl room

theorem enforcePromotionPolicy_calm {toLowercase : String → String} {layer : KnowledgeLayer} {shared action : String}
    {residual : Option String} (plain : containsSensitiveContent toLowercase shared = false)
    (others : residual.any (containsSensitiveContent toLowercase) = false) :
    (enforcePromotionPolicy ctx toLowercase layer shared residual action).run (exec env) w = (.ok (), w.advance) := by
  unfold enforcePromotionPolicy
  rw [failIf_passes (by simp [plain, others])]
  have asked : (Program.ask (.validateWithContext ctx layer ⟨action, shared, layer, residual⟩) : ManagerM _).run
      (exec env) w = (.ok (.ok ⟨true, []⟩), w.advance) := by
    rw [Program.run_ask, exec, calm.validate]
  show (Program.ask _ >>= _ : ManagerM Unit).run _ _ = _
  rw [Program.run_bind_of_ok asked]
  rfl

variable (request) in
theorem approvePromotion_reaches (toLowercase : String → String) {promotionId : String} {decision : PromotionDecision}
    {clientVersion : Option Int} (authorized : Authorized ctx request.tenantId request.targetLayer)
    (stored : w.repo.files.contents.lookup (env.requestPath ctx.tenantId promotionId) =
      some (PromotionRequest.json.render request))
    (plain : containsSensitiveContent toLowercase request.sharedContent = false)
    (others : request.residualContent.any (containsSensitiveContent toLowercase) = false)
    (current : ∀ v, clientVersion = some v → v = request.updatedAt) (pending : request.status = .pendingReview)
    (approval : ¬ (decision = .reject ∨ decision = .needsRefinement)) (unversioned : request.sourceVersion = "")
    (unopposed : (w.repo.listPromotionRequests env ctx.tenantId).find? (conflicts request) = none) :
    (approvePromotion ctx toLowercase promotionId decision clientVersion).Reaches (exec env) w (do
        let answer ← Program.ask (.storePromotionRequest ctx.tenantId { request with
          status := .approved
          latestDecision := some decision
          updatedAt := env.now (w.tick + 3) })
        Program.orFail .repository answer) w.advance.advance.advance.advance := by
  unfold approvePromotion
  refine (Program.reaches_of_ok (loadPromotion_run ctx (calm.fault _) stored)).trans ?_
  rw [enforceTenantMatch_of_authorized authorized, authorized.authority]
  refine (Program.reaches_of_ok (enforcePromotionPolicy_calm calm plain others)).trans ?_
  rw [checkVersion_passes current, failIf_passes (not_not.mpr pending), failIf_passes approval]
  have fine : checkSourceVersion ctx request = pure () := by
    unfold checkSourceVersion
    rw [if_pos unversioned]
  simp only [pending, reduceCtorEq, if_false, fine]
  have listed : (Program.ask (.listPromotionRequests ctx.tenantId) : ManagerM _).run (exec env)
      w.advance.advance = (.ok (.ok (w.repo.listPromotionRequests env ctx.tenantId)), w.advance.advance.advance) := by
    rw [Program.run_ask, exec, reading, calm.fault]
    rfl
  refine (Program.reaches_of_ok listed).trans ((Program.reaches_of_ok (Program.run_orFail_ok _ _ _ _)).trans ?_)
  rw [unopposed]
  exact Program.reaches_of_ok (Program.run_ask _ _ _)

variable (request) in
theorem createPromotionRequest_calm (toLowercase : String → String) {entry : KnowledgeEntry} {found : Workspace}
    (authorized : Authorized ctx request.tenantId request.targetLayer)
    (upward : request.validateLayerDirection = .ok ())
    (source : (findSource ctx request.sourceItemId).run (exec env) w = (.ok entry, found))
    (version : request.sourceVersion = "")
    (plain : containsSensitiveContent toLowercase request.sharedContent = false)
    (others : request.residualContent.any (containsSensitiveContent toLowercase) = false)
    (named : request.id ≠ "") (room : found.repo.files.Room (env.requestPath request.tenantId request.id)) :
    let created := { request with
      sourceVersion := entry.commitHash.getD ""
      createdAt := env.now (found.tick + 1)
      updatedAt := env.now (found.tick + 1)
      status := .pendingReview }
    (createPromotionRequest ctx toLowercase request).run (exec env) w =
      (.ok created, found.advance.keep env created 2) := by
  unfold createPromotionRequest
  rw [enforceTenantMatch_of_authorized authorized, upward]
  show (findSource _ _ >>= _ : ManagerM PromotionRequest).run _ _ = _
  rw [Program.run_bind_of_ok source]
  dsimp only
  rw [failIf_passes (by simp [version])]
  show (enforcePromotionPolicy _ _ _ _ _ _ >>= _ : ManagerM PromotionRequest).run _ _ = _
  rw [Program.run_bind_of_ok (enforcePromotionPolicy_calm calm plain others)]
  have own : assignId request = pure request.id := by
    unfold assignId
    rw [if_neg named]
  simp only [own]
  exact storing_calm calm (w := found.advance) (f := fun now => { request with
    sourceVersion := entry.commitHash.getD "", createdAt := now, updatedAt := now, status := .pendingReview })
    authorized.tenant.symm (by rw [authorized.tenant]; exact room)

omit calm in
variable (ctx w) in
theorem findInLayers_passes (id : String) (layer : KnowledgeLayer) (rest : List KnowledgeLayer)
    (undisturbed : env.fault w.tick = none)
    (missing : w.repo.files.read ((env.config ctx.tenantId w.tick).resolvePath layer id) = .ok none) :
    (findInLayers ctx id (layer :: rest)).run (exec env) w = (findInLayers ctx id rest).run (exec env) w.advance := by
  have asked : (Program.ask (.get ctx.tenantId layer id) : ManagerM _).run (exec env) w =
      (.ok (.ok none), w.advance) := by
    rw [Program.run_ask, exec, reading, undisturbed]
    simp only [GitRepository.getInner, missing, bind, Except.bind]
    rfl
  rw [findInLayers, Program.run_bind_of_ok asked]
  rfl

omit calm in
variable (ctx w) in
theorem findInLayers_finds_bare (id content : String) (layer : KnowledgeLayer) (rest : List KnowledgeLayer)
    (undisturbed : env.fault w.tick = none)
    (stored : w.repo.files.contents.lookup ((env.config ctx.tenantId w.tick).resolvePath layer id) = some content)
    (bare : w.repo.files.read (metadataPath ((env.config ctx.tenantId w.tick).resolvePath layer id)) = .ok none) :
    ∃ entry, (findInLayers ctx id (layer :: rest)).run (exec env) w = (.ok (some entry), w.advance) ∧
      entry.commitHash =
        let path := (env.config ctx.tenantId w.tick).resolvePath layer id
        if env.repository.root <+: path then fileCommit path w.repo.commits else none := by
  have found : ∃ entry, w.repo.getInner (env.config ctx.tenantId w.tick) layer id = .ok (some entry) ∧
      entry.commitHash =
        let path := (env.config ctx.tenantId w.tick).resolvePath layer id
        if env.repository.root <+: path then fileCommit path w.repo.commits else none := by
    simp only [GitRepository.getInner, Files.read_eq_some.mpr stored, bare, bind, Except.bind]
    exact ⟨_, rfl, rfl⟩
  obtain ⟨entry, read, hash⟩ := found
  have asked : (Program.ask (.get ctx.tenantId layer id) : ManagerM _).run (exec env) w =
      (.ok (.ok (some entry)), w.advance) := by
    rw [Program.run_ask, exec, reading, undisturbed]
    simp only [read]
  refine ⟨entry, ?_, hash⟩
  rw [findInLayers, Program.run_bind_of_ok asked]
  rfl

omit calm in
theorem findSource_of_layers {id : String} {entry : KnowledgeEntry} {next : Workspace}
    (found : (findInLayers ctx id [.project, .team, .org, .tenant]).run (exec env) w =
      (.ok (some entry), next)) : (findSource ctx id).run (exec env) w = (.ok entry, next) := by
  unfold findSource
  rw [Program.run_bind_of_ok found]
  rfl

omit calm in
variable (ctx w) in
theorem findSource_run (id content : String) (undisturbed : env.fault w.tick = none)
    (stored : w.repo.files.contents.lookup ((env.config ctx.tenantId w.tick).resolvePath .project id) = some content)
    (bare : w.repo.files.read (metadataPath ((env.config ctx.tenantId w.tick).resolvePath .project id)) = .ok none) :
    ∃ entry, (findSource ctx id).run (exec env) w = (.ok entry, w.advance) ∧ entry.commitHash =
      let path := (env.config ctx.tenantId w.tick).resolvePath .project id
      if env.repository.root <+: path then fileCommit path w.repo.commits else none := by
  obtain ⟨entry, found, hash⟩ := findInLayers_finds_bare ctx w id content .project [.team, .org,
      .tenant] undisturbed stored bare
  exact ⟨entry, findSource_of_layers found, hash⟩

end

section
variable (id : String)

def waitingGuide : PromotionRequest := { guideRequest id with status := .pendingReview }

def approvedGuide : PromotionRequest :=
  { waitingGuide id with status := .approved, latestDecision := some .approveAsReplacement }

end

theorem sampleManager_calm : sampleManager.Calm := ⟨fun _ => rfl, fun _ _ _ _ => rfl⟩

theorem reviewer_authorized (layer : KnowledgeLayer) : Authorized reviewer "acme" layer := ⟨rfl, rfl, rfl⟩

theorem guide_facts : guideWorkspace.repo.files.Room (sampleManager.requestPath "acme" "p1") ∧
    containsSensitiveContent sampleManager.toLowercase "plain" = false := by
  decide +kernel

theorem guideWorkspace_requestAt (location : Location) :
    guideWorkspace.repo.files.requestAt sampleManager location = none := by
  unfold Files.requestAt
  by_cases here : location = ["srv", "acme", "project", "guide"]
  · have text : guideWorkspace.repo.files.contents.lookup location = some "plain" := by
      rw [here]
      exact AList.lookup_insert _
    rw [text]
    decide +kernel
  · have text : guideWorkspace.repo.files.contents.lookup location = none := by
      refine (AList.lookup_insert_ne here).trans ?_
      exact AList.lookup_empty _
    rw [text]
    rfl

theorem guideWorkspace_stored (tenantId id : String) : guideWorkspace.stored sampleManager tenantId id = none :=
  guideWorkspace_requestAt _

theorem guideWorkspace_placed : guideWorkspace.Placed sampleManager := by
  intro tenantId id request found
  rw [guideWorkspace_stored] at found
  cases found

end Aeterna
