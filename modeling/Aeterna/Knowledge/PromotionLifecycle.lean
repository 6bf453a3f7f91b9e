import Aeterna.Knowledge.PromotionRuns

namespace Aeterna
open Lib KnowledgeManager

/-- The moves of a request that are meant to be. -/
inductive PromotionRequestStatus.Step : PromotionRequestStatus → PromotionRequestStatus → Prop where
  | approve : Step .pendingReview .approved
  | apply : Step .approved .applied
  | reject : Step .pendingReview .rejected

abbrev PromotionRequestStatus.Moves : PromotionRequestStatus → PromotionRequestStatus → Prop :=
  Relation.ReflTransGen Step

/-- What may be found under an id later: a request in the same or a later status, the same one if it
was final; under an unused id, one that came in for review. -/
inductive Follows : Option PromotionRequest → Option PromotionRequest → Prop where
  | unused : Follows none none
  | created {later : PromotionRequest} : PromotionRequestStatus.Moves .pendingReview later.status →
    Follows none (some later)
  | moved {earlier later : PromotionRequest} : earlier.status.Moves later.status →
    (earlier.status = .applied ∨ earlier.status = .rejected → later = earlier) → Follows (some earlier) (some later)

theorem Follows.refl (found : Option PromotionRequest) : Follows found found := by
  cases found with
  | none => exact .unused
  | some request => exact .moved .refl (fun _ => rfl)

theorem Follows.trans {a b c : Option PromotionRequest} (first : Follows a b) (second : Follows b c) :
    Follows a c := by
  cases first with
  | unused => exact second
  | created start =>
    cases second with
    | moved moves _ => exact .created (start.trans moves)
  | moved moves kept =>
    cases second with
    | moved further still =>
      refine .moved (moves.trans further) (fun final => ?_)
      have same := kept final
      rw [← same] at final
      exact (still final).trans same

inductive Operation where
  | create (request : PromotionRequest)
  | approve (promotionId : String) (decision : PromotionDecision) (clientVersion : Option Int)
  | reject (promotionId : String) (clientVersion : Option Int)
  | retarget (promotionId : String) (newTargetLayer : KnowledgeLayer) (clientVersion : Option Int)
  | apply (promotionId : String)

def Operation.program (toLowercase : String → String) (ctx : TenantContext) : Operation → ManagerM PromotionRequest
  | create request => createPromotionRequest ctx toLowercase request
  | approve promotionId decision clientVersion => approvePromotion ctx toLowercase promotionId decision clientVersion
  | reject promotionId clientVersion => rejectPromotion ctx promotionId clientVersion
  | retarget promotionId newTargetLayer clientVersion =>
      retargetPromotion ctx promotionId newTargetLayer clientVersion
  | apply promotionId => applyPromotion ctx promotionId

section
variable (env : ManagerEnv)

/-- A new request goes under an id that is unused or still under review, and what else is written
changes no request. -/
def Operation.Orderly (operation : Operation) (c : ManagerCall) (w : Workspace) : Prop :=
  match operation, c with
  | .create _, .storePromotionRequest tenantId request =>
    ∀ earlier, w.stored env tenantId request.id = some earlier → earlier.status = .pendingReview
  | _, .storePromotionRequest _ _ => True
  | _, c => c.Clear env w

inductive LifecycleRun (allowed : Operation → ManagerCall → Workspace → Prop) (w : Workspace) : Workspace → Prop where
  | start : LifecycleRun allowed w w
  | call {mid : Workspace} (ctx : TenantContext) (operation : Operation) : LifecycleRun allowed w mid →
    (operation.program env.toLowercase ctx).Permits (ManagerCall.exec env) (fun _ => allowed operation) [] mid →
    LifecycleRun allowed w ((operation.program env.toLowercase ctx).run (ManagerCall.exec env) mid).2

def lifecycleContract (operation : Operation) : Contract ManagerCall.Answer Workspace where
  exec := ManagerCall.exec env
  inv := Workspace.Placed env
  rely := Eq
  guar w next := ∀ tenantId id, Follows (w.stored env tenantId id) (next.stored env tenantId id)
  ok _ := operation.Orderly env

end

section
variable {env : ManagerEnv} {w next : Workspace}

theorem Operation.Orderly.clear {operation : Operation} {c : ManagerCall} (orderly : operation.Orderly env c w)
    (quiet : c.Quiet) : c.Clear env w := by
  cases c with
  | storePromotionRequest tenantId request => exact quiet.elim
  | _ => cases operation <;> exact orderly

theorem lifecycle_tolerates (operation : Operation) : Tolerates env (lifecycleContract env operation)
    (fun a b => ∀ tenantId id, b.stored env tenantId id = a.stored env tenantId id) :=
  related_tolerates Follows.refl (fun _ _ _ quiet orderly => orderly.clear quiet)

theorem storing_follows {operation : Operation} {tenantId : String} {request : PromotionRequest}
    {notes : List (Note ManagerCall.Answer)} (own : request.tenantId = tenantId)
    (fits : w.Placed env → operation.Orderly env (.storePromotionRequest tenantId request) w →
      Follows (w.stored env tenantId request.id) (some request)) :
    (Program.ask (.storePromotionRequest tenantId request) : ManagerM _).Meets (lifecycleContract env operation)
      (fun _ _ _ => True) notes w :=
  storing_related Follows.refl own fits

theorem operation_meets (operation : Operation) (ctx : TenantContext) :
    (operation.program env.toLowercase ctx).Meets (lifecycleContract env operation) (fun _ _ _ => True) [] w := by
  cases operation with
  | create request =>
    refine createPromotionRequest_meets (lifecycle_tolerates _) ctx _ ?_
    intro stored later last own pending
    refine storing_follows own (fun _ orderly => ?_)
    cases earlier : last.stored env ctx.tenantId stored.id with
    | none => exact .created (by rw [pending])
    | some request =>
      have same : request.status = .pendingReview := orderly request earlier
      refine .moved (by rw [same, pending]) (fun final => ?_)
      rw [same] at final
      rcases final with final | final <;> cases final
  | approve promotionId decision clientVersion =>
    refine approvePromotion_meets (lifecycle_tolerates _) ctx _ ?_
    intro request found listed now later last own stored moved pending _ _
    refine storing_follows own.symm (fun placed _ => ?_)
    rw [reviewed_in_place own stored moved placed]
    refine .moved ?_ (fun final => ?_)
    · rw [pending]
      exact .single .approve
    · rw [pending] at final
      rcases final with final | final <;> cases final
  | reject promotionId clientVersion =>
    refine rejectPromotion_meets (lifecycle_tolerates _) ctx ?_
    intro request found now later last own stored moved pending
    refine storing_follows own.symm (fun placed _ => ?_)
    rw [reviewed_in_place own stored moved placed]
    refine .moved ?_ (fun final => ?_)
    · rw [pending]
      exact .single .reject
    · rw [pending] at final
      rcases final with final | final <;> cases final
  | retarget promotionId newTargetLayer clientVersion =>
    refine retargetPromotion_meets (lifecycle_tolerates _) ctx ?_
    intro request found now later last own stored moved pending
    refine storing_follows own.symm (fun placed _ => ?_)
    rw [reviewed_in_place own stored moved placed]
    refine .moved .refl (fun final => ?_)
    rw [pending] at final
    rcases final with final | final <;> cases final
  | apply promotionId =>
    refine applyPromotion_meets (lifecycle_tolerates _) ctx ?_
    intro request found promotedItemId residualItemId now later last own stored moved approved
    refine storing_follows own.symm (fun placed _ => ?_)
    rw [reviewed_in_place own stored moved placed]
    refine .moved ?_ (fun final => ?_)
    · rw [approved]
      exact .single .apply
    · rw [approved] at final
      rcases final with final | final <;> cases final

theorem operation_follows (placed : w.Placed env) (operation : Operation) (ctx : TenantContext)
    (permits : (operation.program env.toLowercase ctx).Permits (ManagerCall.exec env)
      (fun _ => operation.Orderly env) [] w) :
    let after := ((operation.program env.toLowercase ctx).run (ManagerCall.exec env) w).2
    after.Placed env ∧ ∀ tenantId id, Follows (w.stored env tenantId id) (after.stored env tenantId id) :=
  related_run Follows.refl Follows.trans (operation_meets operation ctx) placed permits

/-- Over every sequence of operations, a request moves from review to approved to applied or from
review to rejected, and stays as it is once it is applied or rejected. -/
theorem orderly_run_follows (run : LifecycleRun env (Operation.Orderly env) w next) (placed : w.Placed env)
    (tenantId id : String) : Follows (w.stored env tenantId id) (next.stored env tenantId id) := by
  have kept : next.Placed env ∧ ∀ tenantId id, Follows (w.stored env tenantId id) (next.stored env tenantId id) := by
    induction run with
    | start => exact ⟨placed, fun _ _ => Follows.refl _⟩
    | call ctx operation _ permits ih =>
      obtain ⟨still, follows⟩ := operation_follows ih.1 operation ctx permits
      exact ⟨still, fun tenantId id => (ih.2 tenantId id).trans (follows tenantId id)⟩
  exact kept.2 tenantId id

end

section
variable (version : String)

def pendingGuide : PromotionRequest := { guideRequest "p1" with status := .pendingReview, sourceVersion := version }

def rejectedGuide : PromotionRequest :=
  { pendingGuide version with status := .rejected, latestDecision := some .reject }

end

def guidePending : Workspace := guideWorkspace.advance.advance.keep sampleManager (pendingGuide "") 2

def guideRejected : Workspace := guidePending.advance.keep sampleManager (rejectedGuide "") 2

def guideReopened : Workspace := guideRejected.advance.advance.keep sampleManager (pendingGuide "c") 2

theorem later_rooms : guidePending.repo.files.Room (sampleManager.requestPath "acme" "p1") ∧
    guideRejected.repo.files.Room (sampleManager.requestPath "acme" "p1") := by
  decide +kernel

theorem guide_created : (createPromotionRequest reviewer sampleManager.toLowercase (guideRequest "p1")).run
    (ManagerCall.exec sampleManager) guideWorkspace = (.ok (pendingGuide ""), guidePending) := by
  obtain ⟨entry, source, hash⟩ := findSource_run reviewer guideWorkspace "guide" "plain"
    (sampleManager_calm.fault _) (by decide +kernel) (by decide +kernel)
  have version : entry.commitHash = none := hash.trans (by decide +kernel)
  have run := createPromotionRequest_calm sampleManager_calm (guideRequest "p1") sampleManager.toLowercase
    (reviewer_authorized _) rfl source rfl guide_facts.2 rfl (by decide) guide_facts.1
  rw [version] at run
  exact run

theorem guidePending_text : guidePending.repo.files.contents.lookup (sampleManager.requestPath "acme" "p1") =
    some (PromotionRequest.json.render (pendingGuide "")) :=
  (keep_lookup (pendingGuide "") guide_facts.1 2 _).trans (if_pos rfl)

theorem guide_rejected : (rejectPromotion reviewer "p1" none).run (ManagerCall.exec sampleManager) guidePending =
    (.ok (rejectedGuide ""), guideRejected) :=
  rejectPromotion_calm sampleManager_calm (pendingGuide "") (reviewer_authorized _) guidePending_text
    (fun _ => nofun) rfl later_rooms.1

theorem guide_reopened : (createPromotionRequest reviewer sampleManager.toLowercase (guideRequest "p1")).run
    (ManagerCall.exec sampleManager) guideRejected = (.ok (pendingGuide "c"), guideReopened) := by
  obtain ⟨entry, source, hash⟩ := findSource_run reviewer guideRejected "guide" "plain"
    (sampleManager_calm.fault _) (by decide +kernel) (by decide +kernel)
  have version : entry.commitHash = some "c" := hash.trans (by decide +kernel)
  have run := createPromotionRequest_calm sampleManager_calm (guideRequest "p1") sampleManager.toLowercase
    (reviewer_authorized _) rfl source rfl guide_facts.2 rfl (by decide) later_rooms.2
  rw [version] at run
  exact run

theorem guideRejected_stored : guideRejected.stored sampleManager "acme" "p1" = some (rejectedGuide "") :=
  (keep_stored (rejectedGuide "") later_rooms.1 2 _ _).trans (if_pos rfl)

theorem guideReopened_stored : guideReopened.stored sampleManager "acme" "p1" = some (pendingGuide "c") :=
  (keep_stored (w := guideRejected.advance.advance) (pendingGuide "c") later_rooms.2 2 _ _).trans (if_pos rfl)

section
variable {allowed : Operation → ManagerCall → Workspace → Prop}

theorem guide_run_rejects
    (creates : ((Operation.create (guideRequest "p1")).program sampleManager.toLowercase reviewer).Permits
      (ManagerCall.exec sampleManager) (fun _ => allowed (.create (guideRequest "p1"))) [] guideWorkspace)
    (rejects : ((Operation.reject "p1" none).program sampleManager.toLowercase reviewer).Permits
      (ManagerCall.exec sampleManager) (fun _ => allowed (.reject "p1" none)) [] guidePending) :
    LifecycleRun sampleManager allowed guideWorkspace guideRejected := by
  have first := LifecycleRun.call reviewer (.create (guideRequest "p1")) .start creates
  simp only [Operation.program, guide_created] at first
  have second := first.call reviewer (.reject "p1" none) rejects
  simp only [Operation.program, guide_rejected] at second
  exact second

end

def writesAfresh (c : ManagerCall) (w : Workspace) : Bool :=
  match c with
  | .storePromotionRequest tenantId request =>
    (w.repo.files.contents.lookup (sampleManager.requestPath tenantId request.id)).isNone
  | c => (c.writes sampleManager).isEmpty

theorem writesAfresh_orderly {request : PromotionRequest} {c : ManagerCall} {w : Workspace}
    (afresh : writesAfresh c w = true) : (Operation.create request).Orderly sampleManager c w := by
  cases c with
  | storePromotionRequest tenantId stored =>
    intro earlier found
    have missing := Option.isNone_iff_eq_none.mp afresh
    simp [Workspace.stored, Files.requestAt, missing] at found
  | _ => exact clear_of_reads (List.isEmpty_iff.mp afresh)

theorem orderly_run_rejects : guideRejected.stored sampleManager "acme" "p1" = some (rejectedGuide "") ∧
    Follows (guideWorkspace.stored sampleManager "acme" "p1") (guideRejected.stored sampleManager "acme" "p1") := by
  have run : LifecycleRun sampleManager (Operation.Orderly sampleManager) guideWorkspace guideRejected := by
    refine guide_run_rejects ?_ ?_
    · have afresh : ((Operation.create (guideRequest "p1")).program sampleManager.toLowercase reviewer).Permits
          (ManagerCall.exec sampleManager) (fun _ c w => writesAfresh c w = true) [] guideWorkspace := by
        decide +kernel
      exact afresh.mono (fun _ _ _ => writesAfresh_orderly)
    · have uses : (rejectPromotion reviewer "p1" none).Uses (fun c =>
          ∀ w, (Operation.reject "p1" none).Orderly sampleManager c w) := by
        refine Program.Uses.bind ?_ (fun request => ?_)
        · refine (Program.Uses.ask (fun _ => clear_of_reads rfl)).bind (fun answer => ?_)
          refine (Program.Uses.orFail answer).bind (fun found => ?_)
          cases found <;> trivial
        refine (enforceTenantMatch_uses _ _).bind
          (fun _ => (enforceReviewerLayerAuthority_uses _ _).bind (fun _ => ?_))
        refine Program.Uses.failIf.bind (fun _ => ?_)
        split
        · trivial
        refine Program.Uses.failIf.bind (fun _ => (Program.Uses.ask (fun _ => clear_of_reads rfl)).bind (fun _ => ?_))
        exact (Program.Uses.ask (fun _ => trivial)).bind (fun answer => Program.Uses.orFail answer)
      exact uses.permits (fun _ _ w fine => fine w)
  exact ⟨guideRejected_stored, orderly_run_follows run guideWorkspace_placed "acme" "p1"⟩

theorem rejected_request_reopened : LifecycleRun sampleManager (fun _ _ _ => True) guideWorkspace guideRejected ∧
    LifecycleRun sampleManager (fun _ _ _ => True) guideRejected guideReopened ∧
    guideWorkspace.Placed sampleManager ∧
    guideRejected.stored sampleManager "acme" "p1" = some (rejectedGuide "") ∧
    guideReopened.stored sampleManager "acme" "p1" = some (pendingGuide "c") ∧
    ¬ Follows (guideRejected.stored sampleManager "acme" "p1") (guideReopened.stored sampleManager "acme" "p1") := by
  refine ⟨guide_run_rejects (.of_all (fun _ _ _ => trivial)) (.of_all (fun _ _ _ => trivial)), ?_,
    guideWorkspace_placed, guideRejected_stored, guideReopened_stored, ?_⟩
  · have again : LifecycleRun sampleManager (fun _ _ _ => True) guideRejected _ :=
      .call reviewer (.create (guideRequest "p1")) .start (.of_all (fun _ _ _ => trivial))
    simp only [Operation.program, guide_reopened] at again
    exact again
  · rw [guideRejected_stored, guideReopened_stored]
    intro follows
    cases follows with
    | moved _ kept =>
      have same : pendingGuide "c" = rejectedGuide "" := kept (Or.inr rfl)
      revert same
      decide

end Aeterna
