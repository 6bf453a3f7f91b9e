import Aeterna.Knowledge.PromotionConflicts
import Aeterna.Knowledge.PromotionApply
import Aeterna.Knowledge.PromotionLifecycle

namespace Aeterna
open Lib KnowledgeManager

section
variable (env : ManagerEnv) (ctx : TenantContext) (w last : Workspace)

inductive Wrote : Operation → PromotionRequest → Prop where
  | create {request : PromotionRequest} {layer : KnowledgeLayer} {status : KnowledgeStatus}
      (id sourceVersion : String)
    (now : Int) : request.tenantId = ctx.tenantId → request.validateLayerDirection = .ok () →
    w.source env ctx.tenantId request.sourceItemId = some (layer, status) →
    containsSensitiveContent env.toLowercase request.sharedContent = false →
    Wrote (.create request) { request with
      id := id
      sourceVersion := sourceVersion
      createdAt := now
      updatedAt := now
      status := .pendingReview }
  | approve {promotionId : String} {decision : PromotionDecision} {clientVersion : Option Int}
      {found : PromotionRequest}
    (now : Int) : w.stored env ctx.tenantId promotionId = some found → found.tenantId = ctx.tenantId →
    found.status = .pendingReview → containsSensitiveContent env.toLowercase found.sharedContent = false →
    Wrote (.approve promotionId decision clientVersion)
      { found with status := .approved, latestDecision := some decision, updatedAt := now }
  | reject {promotionId : String} {clientVersion : Option Int} {found : PromotionRequest} (now : Int) :
    w.stored env ctx.tenantId promotionId = some found → found.tenantId = ctx.tenantId →
    found.status = .pendingReview →
    Wrote (.reject promotionId clientVersion)
      { found with status := .rejected, latestDecision := some .reject, updatedAt := now }
  | retarget {promotionId : String} {newTargetLayer : KnowledgeLayer} {clientVersion : Option Int}
    {found : PromotionRequest} (now : Int) : w.stored env ctx.tenantId promotionId = some found →
    found.tenantId = ctx.tenantId → found.status = .pendingReview →
    { found with targetLayer := newTargetLayer }.validateLayerDirection = .ok () →
    Wrote (.retarget promotionId newTargetLayer clientVersion)
      { found with targetLayer := newTargetLayer, latestDecision := some .retargetLayer, updatedAt := now }
  | apply {promotionId : String} {found : PromotionRequest} {layer : KnowledgeLayer} {status : KnowledgeStatus}
      (n : Nat)
    (residualItemId : Option String) (now : Int) : w.stored env ctx.tenantId promotionId = some found →
    found.tenantId = ctx.tenantId → found.status = .approved →
    w.source env ctx.tenantId found.sourceItemId = some (layer, status) →
    last.PromotedEntry env ctx.tenantId found.targetLayer n →
    Wrote (.apply promotionId) { found with
      promotedItemId := some (env.promotedItem n)
      residualItemId := residualItemId
      status := .applied
      updatedAt := now }

structure Effect (operation : Operation) : Prop where
  stored : ∀ tenantId id request, last.stored env tenantId id = some request →
    w.stored env tenantId id = some request ∨
      env.requestPath tenantId id = env.requestPath ctx.tenantId request.id ∧ Wrote env ctx w last operation request
  promoted : ∀ tenantId layer n text,
    last.repo.files.contents.lookup (env.promotedPath tenantId layer n) = some text →
    w.repo.files.contents.lookup (env.promotedPath tenantId layer n) = some text ∨
      ∃ promotionId found, w.stored env ctx.tenantId promotionId = some found ∧ found.status = .approved ∧
        text = found.sharedContent
  drawn : w.drawn ≤ last.drawn

end

section
variable {env : ManagerEnv} {ctx : TenantContext} {w : Workspace} {operation : Operation}
  {notes : List (Note ManagerCall.Answer)} {β : Type}

theorem Untouched.effect {last : Workspace} (untouched : Untouched w last) : Effect env ctx w last operation where
  stored tenantId id request found := Or.inl ((untouched.stored tenantId id).symm.trans found)
  promoted tenantId layer n text found := Or.inl (by rw [← untouched.repo]; exact found)
  drawn := untouched.drawn

theorem store_effect {t : Workspace} {request : PromotionRequest} (untouched : Untouched w t)
    (wrote : ∀ last, Wrote env ctx w last operation request) :
    Effect env ctx w ((ManagerCall.storePromotionRequest ctx.tenantId request).exec env t).2 operation where
  stored tenantId id other found := by
    rcases exec_storePromotionRequest env ctx.tenantId request t tenantId id with same | ⟨here, written⟩
    · exact Or.inl ((untouched.stored tenantId id).symm.trans (same.symm.trans found))
    · rw [written] at found
      cases found
      exact Or.inr ⟨here, wrote _⟩
  promoted tenantId layer n text found := by
    rcases exec_lookup env (.storePromotionRequest ctx.tenantId request) t
      (env.promotedPath tenantId layer n) with same | ⟨write, listed, here, -⟩
    · refine Or.inl ?_
      rw [← untouched.repo, ← same]
      exact found
    · rw [List.mem_singleton.mp listed] at here
      have dotted : Dotted (env.promotedPath tenantId layer n) := here ▸ locate_dotted _ _
      exact absurd dotted (promotedPath_undotted layer n)
  drawn := untouched.drawn.trans (exec_drawn _ t)

theorem storing_effect {t : Workspace} {request : Int → PromotionRequest} (untouched : Untouched w t)
    (wrote : ∀ now last, Wrote env ctx w last operation (request now)) :
    (do
      let now ← Program.ask .timestamp
      let answer ← Program.ask (.storePromotionRequest ctx.tenantId (request now))
      Program.orFail .repository answer : ManagerM PromotionRequest).Meets (aloneContract env)
        (fun _ _ last => Effect env ctx w last operation) notes t := by
  refine reads_seq (Program.Uses.ask trivial) (fun _ _ _ more => (untouched.trans more).effect)
    (fun now _ t' more => ?_)
  refine Program.Meets.bind ?_
  rintro _ rfl - -
  have written := store_effect (untouched.trans more) (wrote now)
  exact ⟨trivial, trivial, Program.Meets.orFail (fun _ _ => written) (fun _ _ => written)⟩

theorem enforcePromotionPolicy_seq {layer : KnowledgeLayer} {shared action : String} {residual : Option String}
    {f : Unit → ManagerM β} {post : Except KnowledgeManagerError β → List (Note ManagerCall.Answer) → Workspace → Prop}
    (failed : ∀ e later last, Untouched w last → post (.error e) later last)
    (rest : containsSensitiveContent env.toLowercase shared = false → ∀ later last, Untouched w last →
      (f ()).Meets (aloneContract env) post later last) :
    (enforcePromotionPolicy ctx env.toLowercase layer shared residual action >>= f).Meets (aloneContract env) post
      notes w := by
  unfold enforcePromotionPolicy
  simp only [bind_assoc]
  refine Program.Meets.bind (Program.Meets.failIf (fun plain => ?_) (fun _ => failed _ _ _ (.refl w)))
  have clean : containsSensitiveContent env.toLowercase shared = false := by
    simpa using (not_or.mp plain).1
  refine reads_seq (Program.Uses.ask trivial) failed (fun answer _ t first => ?_)
  refine reads_seq (Program.Uses.orFail answer) (fun e later last more => failed e later last (first.trans more))
    (fun validation _ t' second => ?_)
  refine reads_seq Program.Uses.failIf
    (fun e later last more => failed e later last (first.trans (second.trans more)))
    (fun _ later last third => ?_)
  exact rest clean later last (first.trans (second.trans third))

theorem create_effect (request : PromotionRequest) : (createPromotionRequest ctx env.toLowercase request).Meets
    (aloneContract env) (fun _ _ last => Effect env ctx w last (.create request)) notes w := by
  have failed : ∀ {last}, Untouched w last → Effect env ctx w last (.create request) := Untouched.effect
  refine enforceTenantMatch_alone (fun _ => failed (.refl w)) (fun own => ?_)
  refine Program.Meets.bind (Program.Meets.orFail (fun _ upward => ?_) (fun _ _ => failed (.refl w)))
  refine findSource_seq (fun _ _ _ => failed) (fun entry _ w₁ read₁ source => ?_)
  refine reads_seq Program.Uses.failIf (fun _ _ _ more => failed (read₁.trans more)) (fun _ _ w₂ read₂ => ?_)
  refine enforcePromotionPolicy_seq (fun _ _ _ more => failed (read₁.trans (read₂.trans more)))
    (fun plain _ w₃ read₃ => ?_)
  have read : Untouched w w₃ := read₁.trans (read₂.trans read₃)
  refine reads_seq (assignId_uses request) (fun _ _ _ more => failed (read.trans more)) (fun id _ w₄ read₄ => ?_)
  exact storing_effect (read.trans read₄) (fun now _ => .create id _ now own.symm upward source plain)

variable (promotionId : String)

theorem approve_effect (decision : PromotionDecision) (clientVersion : Option Int) :
    (approvePromotion ctx env.toLowercase promotionId decision clientVersion).Meets (aloneContract env)
      (fun _ _ last => Effect env ctx w last (.approve promotionId decision clientVersion)) notes w := by
  have failed : ∀ {last}, Untouched w last → Effect env ctx w last (.approve promotionId decision clientVersion) :=
    Untouched.effect
  refine loadPromotion_seq (fun _ _ _ => failed) (fun request _ w₁ read₁ stored => ?_)
  refine enforceTenantMatch_alone (fun _ => failed read₁) (fun own => ?_)
  refine reads_seq (enforceReviewerLayerAuthority_uses ctx _) (fun _ _ _ more => failed (read₁.trans more))
    (fun _ _ w₂ read₂ => ?_)
  refine enforcePromotionPolicy_seq (fun _ _ _ more => failed (read₁.trans (read₂.trans more)))
    (fun plain _ w₃ read₃ => ?_)
  have read : Untouched w w₃ := read₁.trans (read₂.trans read₃)
  refine reads_seq Program.Uses.failIf (fun _ _ _ more => failed (read.trans more)) (fun _ _ w₄ read₄ => ?_)
  have read : Untouched w w₄ := read.trans read₄
  split
  · exact failed read
  refine Program.Meets.bind (Program.Meets.failIf (fun pending => ?_) (fun _ => failed read))
  refine reads_seq Program.Uses.failIf (fun _ _ _ more => failed (read.trans more)) (fun _ _ w₅ read₅ => ?_)
  have read : Untouched w w₅ := read.trans read₅
  refine reads_seq (checkSourceVersion_uses ctx _) (fun _ _ _ more => failed (read.trans more))
    (fun _ _ w₆ read₆ => ?_)
  have read : Untouched w w₆ := read.trans read₆
  refine reads_seq (Program.Uses.ask trivial) (fun _ _ _ more => failed (read.trans more))
    (fun listed _ w₇ read₇ => ?_)
  have read : Untouched w w₇ := read.trans read₇
  refine reads_seq (Program.Uses.orFail listed) (fun _ _ _ more => failed (read.trans more)) (fun _ _ w₈ read₈ => ?_)
  have read : Untouched w w₈ := read.trans read₈
  split
  · exact failed read
  · exact storing_effect read (fun now _ => .approve now stored own.symm (not_not.mp pending) plain)

theorem reject_effect (clientVersion : Option Int) :
    (rejectPromotion ctx promotionId clientVersion).Meets (aloneContract env)
      (fun _ _ last => Effect env ctx w last (.reject promotionId clientVersion)) notes w := by
  have failed : ∀ {last}, Untouched w last → Effect env ctx w last (.reject promotionId clientVersion) :=
    Untouched.effect
  refine loadPromotion_seq (fun _ _ _ => failed) (fun request _ w₁ read₁ stored => ?_)
  refine enforceTenantMatch_alone (fun _ => failed read₁) (fun own => ?_)
  refine reads_seq (enforceReviewerLayerAuthority_uses ctx _) (fun _ _ _ more => failed (read₁.trans more))
    (fun _ _ w₂ read₂ => ?_)
  have read : Untouched w w₂ := read₁.trans read₂
  refine reads_seq Program.Uses.failIf (fun _ _ _ more => failed (read.trans more)) (fun _ _ w₃ read₃ => ?_)
  have read : Untouched w w₃ := read.trans read₃
  split
  · exact failed read
  refine Program.Meets.bind (Program.Meets.failIf (fun pending => ?_) (fun _ => failed read))
  exact storing_effect read (fun now _ => .reject now stored own.symm (not_not.mp pending))

theorem retarget_effect (newTargetLayer : KnowledgeLayer) (clientVersion : Option Int) :
    (retargetPromotion ctx promotionId newTargetLayer clientVersion).Meets (aloneContract env)
      (fun _ _ last => Effect env ctx w last (.retarget promotionId newTargetLayer clientVersion)) notes w := by
  have failed : ∀ {last}, Untouched w last →
      Effect env ctx w last (.retarget promotionId newTargetLayer clientVersion) :=
    Untouched.effect
  refine loadPromotion_seq (fun _ _ _ => failed) (fun request _ w₁ read₁ stored => ?_)
  refine enforceTenantMatch_alone (fun _ => failed read₁) (fun own => ?_)
  refine reads_seq (enforceReviewerLayerAuthority_uses ctx _) (fun _ _ _ more => failed (read₁.trans more))
    (fun _ _ w₂ read₂ => ?_)
  have read : Untouched w w₂ := read₁.trans read₂
  refine reads_seq Program.Uses.failIf (fun _ _ _ more => failed (read.trans more)) (fun _ _ w₃ read₃ => ?_)
  have read : Untouched w w₃ := read.trans read₃
  refine Program.Meets.bind (Program.Meets.failIf (fun pending => ?_) (fun _ => failed read))
  refine Program.Meets.bind (Program.Meets.orFail (fun _ upward => ?_) (fun _ _ => failed read))
  refine reads_seq (enforceReviewerLayerAuthority_uses ctx _) (fun _ _ _ more => failed (read.trans more))
    (fun _ _ w₄ read₄ => ?_)
  exact storing_effect (read.trans read₄) (fun now _ => .retarget now stored own.symm (not_not.mp pending) upward)

theorem Tried.effect {promotionId : String} {last : Workspace} (tried : Tried env ctx.tenantId promotionId w last) :
    Effect env ctx w last (.apply promotionId) := by
  rcases tried with harmless | ⟨request, n, k, layer, status, stored, approved, own, source, late, confined, there⟩
  · refine ⟨fun tenantId id found read => ?_, fun tenantId layer n text read => ?_, harmless.drawn⟩
    · exact (harmless.stored_back read).imp_right (fun ⟨_, impossible, _⟩ => impossible.elim)
    · exact (harmless.content_back read).imp_right (fun impossible => impossible.elim)
  · refine ⟨fun tenantId id found read => ?_, fun tenantId layer n text read => ?_, confined.drawn⟩
    · rcases confined.stored_back read with before | ⟨text, attempt, parsed⟩
      · exact Or.inl before
      rcases there with there | only
      · obtain ⟨place, residualItemId, now, rfl⟩ := attempt.at_request parsed
        exact Or.inr ⟨place, .apply n residualItemId now stored own approved source there⟩
      · -- only the entry was written, and no request lies there
        rcases only.stored_back read with before | ⟨_, here, -⟩
        · exact Or.inl before
        · have dotted : Dotted (env.requestPath tenantId id) := locate_dotted _ _
          exact absurd (here.1 ▸ dotted) (promotedPath_undotted _ _)
    · rcases confined.content_back read with before | attempt
      · exact Or.inl before
      · exact Or.inr ⟨promotionId, request, stored, approved, attempt.at_entry.2⟩

theorem operation_effect (operation : Operation) (ctx : TenantContext) (w : Workspace) :
    Effect env ctx w ((operation.program env.toLowercase ctx).run (ManagerCall.exec env) w).2 operation := by
  have meets : (operation.program env.toLowercase ctx).Meets (aloneContract env)
      (fun _ _ last => Effect env ctx w last operation) [] w := by
    cases operation with
    | create request => exact create_effect request
    | approve promotionId decision clientVersion => exact approve_effect promotionId decision clientVersion
    | reject promotionId clientVersion => exact reject_effect promotionId clientVersion
    | retarget promotionId newTargetLayer clientVersion =>
        exact retarget_effect promotionId newTargetLayer clientVersion
    | apply promotionId => exact (applyPromotion_tries promotionId).mono (fun _ _ _ tried => tried.effect)
  obtain ⟨-, -, _, effect⟩ := meets.run (fun _ => rfl) trivial (.of_all (fun _ _ _ => trivial))
  exact effect

end

structure Workspace.Discreet (env : ManagerEnv) (since : Nat) (w : Workspace) : Prop where
  request : ∀ tenantId id request, w.stored env tenantId id = some request → request.Wins →
    containsSensitiveContent env.toLowercase request.sharedContent = false
  entry : ∀ tenantId layer n text, since ≤ n →
    w.repo.files.contents.lookup (env.promotedPath tenantId layer n) = some text →
    containsSensitiveContent env.toLowercase text = false

section
variable {env : ManagerEnv} {ctx : TenantContext} {w last : Workspace} {since : Nat} {operation : Operation}

theorem Effect.discreet (effect : Effect env ctx w last operation) (discreet : w.Discreet env since) :
    last.Discreet env since where
  request tenantId id request found wins := by
    rcases effect.stored tenantId id request found with before | ⟨-, wrote⟩
    · exact discreet.request tenantId id request before wins
    · cases wrote with
      | create => exact wins.elim nofun nofun
      | approve _ _ _ _ plain => exact plain
      | reject => exact wins.elim nofun nofun
      | retarget _ _ _ pending => rcases wins with status | status <;> exact absurd (pending.symm.trans status) nofun
      | apply _ _ _ stored _ approved =>
        have plain := discreet.request _ _ _ stored (Or.inl approved)
        exact plain
  entry tenantId layer n text late found := by
    rcases effect.promoted tenantId layer n text found with before | ⟨promotionId, request, stored, approved, rfl⟩
    · exact discreet.entry tenantId layer n text late before
    · exact discreet.request ctx.tenantId promotionId request stored (Or.inl approved)

/-- Over every sequence of operations, sensitive content is neither approved nor applied nor promoted. -/
theorem sensitive_never_promoted {start : Workspace} (discreet : start.Discreet env start.drawn)
    (run : LifecycleRun env (fun _ _ _ => True) start w) : w.Discreet env start.drawn := by
  induction run with
  | start => exact discreet
  | call ctx operation _ _ ih => exact (operation_effect operation ctx _).discreet ih

end

theorem contested_discreet : contested.Discreet sampleManager contested.drawn where
  request _ _ _ found wins := absurd wins (contested_open found)
  entry tenantId layer n text _ found := by
    have keys : contested.repo.files.contents.keys = [["srv", "acme", "_meta", "promotions", "p2.json"],
        ["srv", "acme", "_meta", "promotions", "p1.json"], ["srv"] ++ ["acme", "project", "guide"]] :=
          by decide +kernel
    have listed := AList.mem_keys.mp (AList.lookup_isSome.mp (Option.isSome_of_eq_some found))
    have undotted : ¬ Dotted (sampleManager.promotedPath tenantId layer n) := promotedPath_undotted layer n
    rw [keys] at listed
    simp only [List.mem_cons, List.not_mem_nil, or_false] at listed
    rcases listed with here | here | here
    · exact absurd ⟨"p2.json", by rw [here]; rfl, by decide⟩ undotted
    · exact absurd ⟨"p1.json", by rw [here]; rfl, by decide⟩ undotted
    · rw [promotedPath_eq] at here
      have names := (List.append_inj' here rfl).2
      simp at names

theorem guide_approved_discreetly : ∃ w : Workspace, w.stored sampleManager "acme" "p1" = some (approvedGuide "p1") ∧
    w.Discreet sampleManager contested.drawn := by
  have room : contested.advance.advance.advance.advance.repo.files.Room (sampleManager.requestPath "acme" "p1") := by
    decide +kernel
  have reached := (approveGuide_reaches rfl contested_first).trans (approveGuide_stores room)
  have beginning : LifecycleRun sampleManager (fun _ _ _ => True) contested contested := .start
  have run := beginning.call reviewer (.approve "p1" .approveAsReplacement none) (.of_all (fun _ _ _ => trivial))
  have ended : (((Operation.approve "p1" .approveAsReplacement none).program sampleManager.toLowercase reviewer).run
      (ManagerCall.exec sampleManager) contested).2 = _ := congrArg Prod.snd reached.run_eq
  rw [ended] at run
  refine ⟨_, ?_, sensitive_never_promoted contested_discreet run⟩
  exact (keep_stored (approvedGuide "p1") room 1 _ _).trans (if_pos rfl)

end Aeterna
