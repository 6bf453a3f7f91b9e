import Aeterna.Knowledge.PromotionRuns

namespace Aeterna
open Lib KnowledgeManager

inductive Review where
  | approve (decision : PromotionDecision)
  | reject
  | retarget (newTargetLayer : KnowledgeLayer)

namespace Review
variable (toLowercase : String → String) (ctx : TenantContext) (promotionId : String)

def program (clientVersion : Option Int) : Review → ManagerM PromotionRequest
  | approve decision => approvePromotion ctx toLowercase promotionId decision clientVersion
  | reject => rejectPromotion ctx promotionId clientVersion
  | retarget newTargetLayer => retargetPromotion ctx promotionId newTargetLayer clientVersion

def entrance (review : Review) : ManagerM PromotionRequest := do
  let request ← loadPromotion ctx promotionId
  enforceTenantMatch ctx request.tenantId
  enforceReviewerLayerAuthority ctx request.targetLayer
  match review with
  | approve _ => do
    enforcePromotionPolicy ctx toLowercase request.targetLayer request.sharedContent request.residualContent
      "promotion_approve"
    pure request
  | _ => pure request

end Review

section
variable (env : ManagerEnv)

/-- A request is stored only when the clock has moved on since the one in its place was. -/
def Ticked (c : ManagerCall) (w : Workspace) : Prop :=
  match c with
  | .storePromotionRequest tenantId request =>
    ∀ earlier, w.stored env tenantId request.id = some earlier → earlier.updatedAt < request.updatedAt
  | _ => True

inductive ReviewRun (allowed : ManagerCall → Workspace → Prop) (w : Workspace) : Workspace → Prop where
  | start : ReviewRun allowed w w
  | call {mid : Workspace} (ctx : TenantContext) (promotionId : String) (clientVersion : Option Int)
      (review : Review) :
    ReviewRun allowed w mid →
    (review.program env.toLowercase ctx promotionId clientVersion).Permits (ManagerCall.exec env)
      (fun _ => allowed) [] mid →
    ReviewRun allowed w
      ((review.program env.toLowercase ctx promotionId clientVersion).run (ManagerCall.exec env) mid).2

/-- The call fails with a version conflict, unless a check that comes first fails; it writes nothing. -/
def VersionConflict (review : Review) (ctx : TenantContext) (promotionId : String) (clientVersion current : Int)
    (w : Workspace) : Prop :=
  (review.program env.toLowercase ctx promotionId (some clientVersion)).run (ManagerCall.exec env) w =
    match (review.entrance env.toLowercase ctx promotionId).run (ManagerCall.exec env) w with
    | (.ok _, last) => (.error (.optimisticConflict current), last)
    | (.error e, last) => (.error e, last)

end

inductive Newer : Option PromotionRequest → Option PromotionRequest → Prop where
  | same (found : Option PromotionRequest) : Newer found found
  | created (later : PromotionRequest) : Newer none (some later)
  | later {earlier later : PromotionRequest} : earlier.updatedAt < later.updatedAt → Newer (some earlier) (some later)

theorem Newer.trans {a b c : Option PromotionRequest} (first : Newer a b) (second : Newer b c) : Newer a c := by
  cases first with
  | same => exact second
  | created =>
    cases second with
    | same => exact .created _
    | later => exact .created _
  | later older =>
    cases second with
    | same => exact .later older
    | later newer => exact .later (older.trans newer)

section
variable {env : ManagerEnv} {w next : Workspace}

def Reviewing (c : ManagerCall) : Prop := c.Reads ∨ ¬ c.Quiet

theorem reviewing_of_reads {c : ManagerCall} (reads : c.Reads) : Reviewing c := Or.inl reads

theorem storing_uses (ctx : TenantContext) (request : Int → PromotionRequest) : (do
      let now ← Program.ask .timestamp
      let answer ← Program.ask (.storePromotionRequest ctx.tenantId (request now))
      Program.orFail .repository answer : ManagerM PromotionRequest).Uses Reviewing := by
  refine Program.Uses.bind (Program.Uses.ask (reviewing_of_reads trivial)) (fun now => ?_)
  exact Program.Uses.bind (Program.Uses.ask (Or.inr id)) (fun answer => Program.Uses.orFail answer)

variable (review : Review)

theorem review_uses (ctx : TenantContext) (promotionId : String) (clientVersion : Option Int) :
    (review.program env.toLowercase ctx promotionId clientVersion).Uses Reviewing := by
  have reading {α : Type} {program : ManagerM α} (uses : program.Uses ManagerCall.Reads) : program.Uses Reviewing :=
    uses.mono (fun _ => reviewing_of_reads)
  cases review with
  | approve decision =>
    refine (reading (loadPromotion_uses ctx _)).bind
      (fun request => (enforceTenantMatch_uses ctx _).bind (fun _ => ?_))
    refine (enforceReviewerLayerAuthority_uses ctx _).bind (fun _ => ?_)
    refine (reading (enforcePromotionPolicy_uses ctx _ _ _ _ _)).bind
      (fun _ => Program.Uses.failIf.bind (fun _ => ?_))
    split
    · trivial
    refine Program.Uses.failIf.bind (fun _ => Program.Uses.failIf.bind (fun _ => ?_))
    refine (reading (checkSourceVersion_uses ctx _)).bind (fun _ => ?_)
    refine Program.Uses.bind (Program.Uses.ask (reviewing_of_reads trivial)) (fun listed => ?_)
    refine (Program.Uses.orFail listed).bind (fun _ => ?_)
    split
    · trivial
    · exact storing_uses ctx _
  | reject =>
    refine (reading (loadPromotion_uses ctx _)).bind
      (fun request => (enforceTenantMatch_uses ctx _).bind (fun _ => ?_))
    refine (enforceReviewerLayerAuthority_uses ctx _).bind (fun _ => Program.Uses.failIf.bind (fun _ => ?_))
    split
    · trivial
    exact Program.Uses.failIf.bind (fun _ => storing_uses ctx _)
  | retarget newTargetLayer =>
    refine (reading (loadPromotion_uses ctx _)).bind
      (fun request => (enforceTenantMatch_uses ctx _).bind (fun _ => ?_))
    refine (enforceReviewerLayerAuthority_uses ctx _).bind (fun _ => Program.Uses.failIf.bind (fun _ => ?_))
    refine Program.Uses.failIf.bind (fun _ => (Program.Uses.orFail _).bind (fun _ => ?_))
    exact (enforceReviewerLayerAuthority_uses ctx _).bind (fun _ => storing_uses ctx _)

abbrev versionContract (env : ManagerEnv) : Contract ManagerCall.Answer Workspace :=
  relatedContract env Newer (fun _ c w => Ticked env c w ∧ Reviewing c)

theorem version_tolerates : Tolerates env (versionContract env)
    (fun a b => ∀ tenantId id, b.stored env tenantId id = a.stored env tenantId id) := by
  refine related_tolerates Newer.same ?_
  rintro notes c w quiet ⟨-, reads | loud⟩
  · exact clear_of_reads reads.writes
  · exact absurd quiet loud

variable {last : Workspace} {request : PromotionRequest} {v : Int}

theorem storing_newer {found : Workspace} {ctx : TenantContext} {promotionId : String}
    {stored : PromotionRequest} {notes : List (Note ManagerCall.Answer)}
    (own : ctx.tenantId = request.tenantId) (loaded : found.stored env ctx.tenantId promotionId = some request)
    (moved : ∀ tenantId id, last.stored env tenantId id = found.stored env tenantId id)
    (tenant : stored.tenantId = request.tenantId) (place : stored.id = request.id) :
    (Program.ask (.storePromotionRequest ctx.tenantId stored) : ManagerM _).Meets (versionContract env)
      (fun _ _ _ => True) notes last := by
  refine storing_related Newer.same (tenant.trans own.symm) (fun placed permitted => ?_)
  have there : last.stored env ctx.tenantId stored.id = some request := by
    rw [place]
    exact reviewed_in_place own loaded moved placed
  rw [there]
  exact .later (permitted.1 request there)

theorem review_meets (ctx : TenantContext) (promotionId : String) (clientVersion : Option Int) :
    (review.program env.toLowercase ctx promotionId clientVersion).Meets (versionContract env) (fun _ _ _ => True)
      [] w := by
  cases review with
  | approve decision =>
    refine approvePromotion_meets version_tolerates ctx _ ?_
    intro request found listed now later last own loaded moved _ _ _
    exact storing_newer own loaded moved rfl rfl
  | reject =>
    refine rejectPromotion_meets version_tolerates ctx ?_
    intro request found now later last own loaded moved _
    exact storing_newer own loaded moved rfl rfl
  | retarget newTargetLayer =>
    refine retargetPromotion_meets version_tolerates ctx ?_
    intro request found now later last own loaded moved _
    exact storing_newer own loaded moved rfl rfl

theorem ReviewRun.newer (run : ReviewRun env (Ticked env) w next) (placed : w.Placed env) :
    next.Placed env ∧ ∀ tenantId id, Newer (w.stored env tenantId id) (next.stored env tenantId id) := by
  induction run with
  | start => exact ⟨placed, fun _ _ => .same _⟩
  | call ctx promotionId clientVersion review _ permits ih =>
    obtain ⟨kept, newer⟩ := related_run Newer.same Newer.trans
        (review_meets review ctx promotionId clientVersion) ih.1
      (permits.uses (review_uses review ctx promotionId clientVersion))
    exact ⟨kept, fun tenantId id => (ih.2 tenantId id).trans (newer tenantId id)⟩

theorem loadPromotion_stored {ctx : TenantContext} {promotionId : String}
    (loaded : (loadPromotion ctx promotionId).run (ManagerCall.exec env) w = (.ok request, last)) :
    w.stored env ctx.tenantId promotionId = some request := by
  unfold loadPromotion at loaded
  rw [Program.run_bind, Program.run_ask] at loaded
  simp only at loaded
  rw [Program.run_bind] at loaded
  cases answer : ((ManagerCall.getPromotionRequest ctx.tenantId promotionId).exec env w).1 with
  | error message =>
    rw [answer] at loaded
    cases loaded
  | ok found =>
    rw [answer] at loaded
    cases found with
    | none => cases loaded
    | some other =>
      cases loaded
      exact exec_getPromotionRequest answer

theorem checkVersion_stale (stale : v ≠ request.updatedAt) :
    checkVersion (some v) request = Program.fail (.optimisticConflict request.updatedAt) := by
  unfold checkVersion Program.failIf
  rw [if_pos (by simpa using stale)]

theorem Review.program_eq (toLowercase : String → String) (ctx : TenantContext)
    (promotionId : String) (clientVersion : Option Int) :
    ∃ rest : PromotionRequest → Unit → ManagerM PromotionRequest,
      review.program toLowercase ctx promotionId clientVersion =
        review.entrance toLowercase ctx promotionId >>= fun request =>
          checkVersion clientVersion request >>= rest request := by
  cases review with
  | approve decision =>
    unfold Review.program Review.entrance approvePromotion
    simp only [bind_assoc, pure_bind]
    exact ⟨_, rfl⟩
  | reject =>
    unfold Review.program Review.entrance rejectPromotion
    simp only [bind_assoc, pure_bind]
    exact ⟨_, rfl⟩
  | retarget newTargetLayer =>
    unfold Review.program Review.entrance retargetPromotion
    simp only [bind_assoc, pure_bind]
    exact ⟨_, rfl⟩

theorem Review.entrance_stored {review : Review} {ctx : TenantContext} {promotionId : String}
    (admitted : (review.entrance env.toLowercase ctx promotionId).run (ManagerCall.exec env) w =
    (.ok request, last)) :
    w.stored env ctx.tenantId promotionId = some request := by
  unfold Review.entrance at admitted
  simp only [Program.run_bind] at admitted
  rcases loading : (loadPromotion ctx promotionId).run (ManagerCall.exec env) w with ⟨e | found, loaded⟩
  · rw [loading] at admitted
    cases admitted
  rw [loadPromotion_stored loading]
  rw [loading] at admitted
  simp only at admitted
  split at admitted
  · split at admitted
    · cases review with
      | approve decision =>
        simp only [Program.run_bind] at admitted
        split at admitted
        · cases admitted
          rfl
        · cases admitted
      | reject =>
        cases admitted
        rfl
      | retarget newTargetLayer =>
        cases admitted
        rfl
    · cases admitted
  · cases admitted

theorem stale_conflicts {ctx : TenantContext} {promotionId : String} {current : PromotionRequest}
    (stored : w.stored env ctx.tenantId promotionId = some current) (stale : v ≠ current.updatedAt)
    (review : Review) : VersionConflict env review ctx promotionId v current.updatedAt w := by
  unfold VersionConflict
  obtain ⟨rest, shape⟩ := review.program_eq env.toLowercase ctx promotionId (some v)
  rw [shape, Program.run_bind]
  rcases admitting : (review.entrance env.toLowercase ctx promotionId).run (ManagerCall.exec env) w with
    ⟨e | request, last⟩
  · rfl
  have same : request = current := Option.some.inj ((Review.entrance_stored admitting).symm.trans stored)
  subst same
  simp only [checkVersion_stale stale]
  rfl

theorem VersionConflict.fails {review : Review} {ctx : TenantContext} {promotionId : String} {current : Int}
    (conflict : VersionConflict env review ctx promotionId v current w) (request : PromotionRequest)
    (last : Workspace) :
    (review.program env.toLowercase ctx promotionId (some v)).run (ManagerCall.exec env) w ≠ (.ok request, last) := by
  intro passes
  unfold VersionConflict at conflict
  rw [passes] at conflict
  split at conflict <;> cases conflict

/-- Once a request has changed since it was read, the version that was read is refused, whatever else
happens, if every change falls into a later second than the one before. -/
theorem ticked_versions_conflict {mid : Workspace} (placed : w.Placed env) {tenantId promotionId : String}
    {seen : PromotionRequest} (read : w.stored env tenantId promotionId = some seen)
    (before : ReviewRun env (Ticked env) w mid) (changed : mid.stored env tenantId promotionId ≠ some seen)
    (after : ReviewRun env (Ticked env) mid next) (review : Review) (ctx : TenantContext)
    (own : ctx.tenantId = tenantId) :
    ∃ current, next.stored env tenantId promotionId = some current ∧
      VersionConflict env review ctx promotionId seen.updatedAt current.updatedAt next := by
  subst own
  obtain ⟨kept, first⟩ := before.newer placed
  have changes := first ctx.tenantId promotionId
  have goesOn := (after.newer kept).2 ctx.tenantId promotionId
  rw [read] at changes
  generalize middle : mid.stored env ctx.tenantId promotionId = found at changes goesOn changed
  have newer : ∃ current, next.stored env ctx.tenantId promotionId = some current ∧
      seen.updatedAt < current.updatedAt := by
    generalize last : next.stored env ctx.tenantId promotionId = final at goesOn
    cases changes with
    | same => exact absurd rfl changed
    | later older =>
      cases goesOn with
      | same => exact ⟨_, rfl, older⟩
      | later newer => exact ⟨_, rfl, older.trans newer⟩
  obtain ⟨current, now, older⟩ := newer
  exact ⟨current, now, stale_conflicts now (ne_of_lt older) review⟩

end

variable (now : Int)

def retargetedGuide : PromotionRequest :=
  { waitingGuide "p1" with targetLayer := .org, latestDecision := some .retargetLayer, updatedAt := now }

def tickingManager : ManagerEnv := { sampleManager with now := fun n => n }

/-- The request waits for a review. -/
def guideWaiting : Workspace := guideWorkspace.keep sampleManager (waitingGuide "p1") 1

def guideRetargeted : Workspace := guideWaiting.advance.keep sampleManager (retargetedGuide now) 2

theorem guideWaiting_room : guideWorkspace.repo.files.Room (sampleManager.requestPath "acme" "p1") := by
  decide +kernel

theorem guideRetargeted_room : guideWaiting.repo.files.Room (sampleManager.requestPath "acme" "p1") := by
  decide +kernel

theorem guideWaiting_text : guideWaiting.repo.files.contents.lookup (sampleManager.requestPath "acme" "p1") =
    some (PromotionRequest.json.render (waitingGuide "p1")) :=
  (keep_lookup (waitingGuide "p1") guideWaiting_room 1 _).trans (if_pos rfl)

theorem guideRetargeted_text : (guideRetargeted now).repo.files.contents.lookup
    (sampleManager.requestPath "acme" "p1") = some (PromotionRequest.json.render (retargetedGuide now)) :=
  (keep_lookup (retargetedGuide now) guideRetargeted_room 2 _).trans (if_pos rfl)

theorem guideWaiting_placed : guideWaiting.Placed sampleManager :=
  keep_placed (waitingGuide "p1") guideWorkspace_placed guideWaiting_room 1

theorem guide_retargeted : (retargetPromotion reviewer "p1" .org none).run
    (ManagerCall.exec sampleManager) guideWaiting =
    (.ok (retargetedGuide 0), guideRetargeted 0) :=
  retargetPromotion_calm sampleManager_calm (reviewer_authorized _) (reviewer_authorized _) guideWaiting_text
    (fun _ => nofun) rfl rfl guideRetargeted_room

theorem guide_rejected_anyway : ∃ rejected last, (rejectPromotion reviewer "p1" (some 0)).run
    (ManagerCall.exec sampleManager) (guideRetargeted 0) = (.ok rejected, last) := by
  have room : (guideRetargeted 0).repo.files.Room (sampleManager.requestPath "acme" "p1") := by decide +kernel
  have current : ∀ v, some (0 : Int) = some v → v = (retargetedGuide 0).updatedAt := by
    rintro v same
    cases same
    rfl
  exact ⟨_, _, rejectPromotion_calm sampleManager_calm (retargetedGuide 0) (reviewer_authorized _)
    (guideRetargeted_text 0) current rfl room⟩

theorem standing_clock_misses_change :
    guideWaiting.Placed sampleManager ∧ (∀ n, sampleManager.now n ≤ sampleManager.now (n + 1)) ∧
    guideWaiting.stored sampleManager "acme" "p1" = some (waitingGuide "p1") ∧
    ReviewRun sampleManager (fun _ _ => True) guideWaiting (guideRetargeted 0) ∧
    (guideRetargeted 0).stored sampleManager "acme" "p1" = some (retargetedGuide 0) ∧
    retargetedGuide 0 ≠ waitingGuide "p1" ∧
    ¬ VersionConflict sampleManager .reject reviewer "p1" (waitingGuide "p1").updatedAt (retargetedGuide 0).updatedAt
      (guideRetargeted 0) := by
  refine ⟨guideWaiting_placed, fun _ => le_refl _, stored_of_text guideWaiting_text, ?_,
    stored_of_text (guideRetargeted_text 0), by decide, ?_⟩
  · have beginning : ReviewRun sampleManager (fun _ _ => True) guideWaiting guideWaiting := .start
    have run := beginning.call reviewer "p1" none (.retarget .org) (.of_all (fun _ _ _ => trivial))
    simp only [Review.program, guide_retargeted] at run
    exact run
  · intro conflict
    obtain ⟨rejected, last, passes⟩ := guide_rejected_anyway
    exact conflict.fails rejected last passes

theorem guide_retargeted_later : (retargetPromotion reviewer "p1" .org none).run (ManagerCall.exec tickingManager)
    guideWaiting = (.ok (retargetedGuide 2), guideRetargeted 2) :=
  retargetPromotion_calm (show tickingManager.Calm from ⟨fun _ => rfl, fun _ _ _ _ => rfl⟩) (reviewer_authorized _)
    (reviewer_authorized _) guideWaiting_text (fun _ => nofun) rfl rfl guideRetargeted_room

theorem exec_tick {env : ManagerEnv} (c : ManagerCall) (w : Workspace) : (c.exec env w).2.tick = w.tick + 1 := by
  have read : ∀ {α : Type} (answer : Except String α), (ManagerCall.reading env w answer).2.tick = w.tick + 1 := by
    intro α answer
    unfold ManagerCall.reading
    split <;> rfl
  cases c with
  | getPromotionRequest tenantId id => exact read _
  | listPromotionRequests tenantId => exact read _
  | get tenantId layer path => exact read _
  | getRelationsForItem tenantId itemId => exact read _
  | _ => rfl

theorem guideWaiting_stored {tenantId id : String} {request : PromotionRequest}
    (found : guideWaiting.stored sampleManager tenantId id = some request) : request = waitingGuide "p1" := by
  have stored := keep_stored (waitingGuide "p1") guideWaiting_room 1 tenantId id
  rw [guideWorkspace_stored] at stored
  have same := found.symm.trans stored
  split at same
  · exact Option.some.inj same
  · cases same

theorem retargetPromotion_ticked {env : ManagerEnv} (ctx : TenantContext) (promotionId : String)
    (layer : KnowledgeLayer)
    (clientVersion : Option Int) {w : Workspace}
    (old : ∀ tenantId id request, w.stored env tenantId id = some request →
      ∀ n, w.tick ≤ n → request.updatedAt < env.now n) :
    (retargetPromotion ctx promotionId layer clientVersion).Permits (ManagerCall.exec env)
      (fun _ => Ticked env) [] w := by
  have fine : ∀ (notes : List (Note ManagerCall.Answer)) (c : ManagerCall) (w : Workspace), c.Reads →
      (∀ tenantId id request, w.stored env tenantId id = some request →
        ∀ n, w.tick ≤ n → request.updatedAt < env.now n) → Ticked env c w ∧
      ∀ tenantId id request, (c.exec env w).2.stored env tenantId id = some request →
        ∀ n, (c.exec env w).2.tick ≤ n → request.updatedAt < env.now n := by
    intro notes c w reads old
    refine ⟨?_, fun tenantId id request found n late => ?_⟩
    · cases c with
      | storePromotionRequest tenantId request => exact reads.elim
      | _ => trivial
    · rw [exec_stored (clear_of_reads reads.writes)] at found
      rw [exec_tick] at late
      exact old tenantId id request found n (by omega)
  refine (loadPromotion_uses ctx _).permits_bind fine (fun request _ _ old => ?_) old
  refine (enforceTenantMatch_uses ctx _).permits_bind fine (fun _ _ _ old => ?_) old
  refine (enforceReviewerLayerAuthority_uses ctx _).permits_bind fine (fun _ _ _ old => ?_) old
  refine Program.Uses.failIf.permits_bind fine (fun _ _ _ old => ?_) old
  refine Program.Uses.failIf.permits_bind fine (fun _ _ _ old => ?_) old
  refine (Program.Uses.orFail _).permits_bind fine (fun _ _ _ old => ?_) old
  refine (enforceReviewerLayerAuthority_uses ctx _).permits_bind fine (fun _ _ w old => ?_) old
  refine ⟨trivial, fun earlier there => ?_, ?_⟩
  · exact old _ _ earlier there w.tick (le_refl _)
  · exact .orFail _

theorem guide_run_ticks : ReviewRun tickingManager (Ticked tickingManager) guideWaiting (guideRetargeted 2) := by
  have old : ∀ tenantId id request, guideWaiting.stored tickingManager tenantId id = some request →
      ∀ n, guideWaiting.tick ≤ n → request.updatedAt < tickingManager.now n := by
    intro tenantId id request found n late
    rw [guideWaiting_stored found]
    have tick : guideWaiting.tick = 1 := by decide +kernel
    show (0 : Int) < n
    omega
  have run := ReviewRun.call reviewer "p1" none (.retarget .org) .start
    (retargetPromotion_ticked reviewer "p1" .org none old)
  simp only [Review.program, guide_retargeted_later] at run
  exact run

theorem ticking_clock_notices_change :
    (guideRetargeted 2).stored tickingManager "acme" "p1" = some (retargetedGuide 2) ∧
    ∃ current, (guideRetargeted 2).stored tickingManager "acme" "p1" = some current ∧
      VersionConflict tickingManager .reject reviewer "p1" (waitingGuide "p1").updatedAt current.updatedAt
        (guideRetargeted 2) := by
  have stored : (guideRetargeted 2).stored tickingManager "acme" "p1" = some (retargetedGuide 2) :=
    stored_of_text (guideRetargeted_text 2)
  have seen : guideWaiting.stored tickingManager "acme" "p1" = some (waitingGuide "p1") :=
    stored_of_text guideWaiting_text
  have placed : guideWaiting.Placed tickingManager := guideWaiting_placed
  have changed : (guideRetargeted 2).stored tickingManager "acme" "p1" ≠ some (waitingGuide "p1") := by
    rw [stored]
    intro same
    exact absurd (Option.some.inj same) (by decide)
  exact ⟨stored, ticked_versions_conflict placed seen guide_run_ticks changed .start .reject reviewer rfl⟩

end Aeterna
