import Aeterna.Knowledge.Manager

namespace Aeterna
open Lib KnowledgeManager Program ManagerCall

section
variable (env : ManagerEnv)

def Workspace.stored (w : Workspace) (tenantId id : String) : Option PromotionRequest :=
  w.repo.files.requestAt env (env.requestPath tenantId id)

def Workspace.Placed (w : Workspace) : Prop :=
  ∀ tenantId id request, w.stored env tenantId id = some request →
    env.requestPath request.tenantId request.id = env.requestPath tenantId id

def ManagerCall.Clear (c : ManagerCall) (w : Workspace) : Prop :=
  ∀ write ∈ c.writes env, ∀ tenantId id, env.requestPath tenantId id = write.location →
    (env.parseRequest write.text).toOption = w.stored env tenantId id

end

def ManagerCall.Quiet : ManagerCall → Prop
  | storePromotionRequest _ _ => False
  | _ => True

def ManagerCall.Reads : ManagerCall → Prop
  | storePromotionRequest _ _ | store _ _ _ | storeRelation _ _ => False
  | _ => True

theorem ManagerCall.Reads.quiet : ∀ c : ManagerCall, c.Reads → c.Quiet
  | .storePromotionRequest _ _, reads => reads
  | .store _ _ _, _ | .storeRelation _ _, _ | .getPromotionRequest _ _, _ | .listPromotionRequests _, _
  | .get _ _ _, _ | .getRelationsForItem _ _, _ | .validateWithContext _ _ _, _ | .timestamp, _ | .newId, _ => trivial

theorem ManagerCall.Reads.writes {env : ManagerEnv} {c : ManagerCall} (reads : c.Reads) : c.writes env = [] := by
  cases c with
  | storePromotionRequest tenantId request => exact reads.elim
  | store tenantId entry message => exact reads.elim
  | storeRelation tenantId relation => exact reads.elim
  | _ => rfl

section
variable {env : ManagerEnv} {w : Workspace}

variable {tenantId id : String} {request : PromotionRequest}

theorem stored_of_lookup {w next : Workspace} (same : next.repo.files.contents.lookup (env.requestPath tenantId id) =
    w.repo.files.contents.lookup (env.requestPath tenantId id)) :
    next.stored env tenantId id = w.stored env tenantId id := by
  unfold Workspace.stored Files.requestAt
  rw [same]

theorem exec_stored {c : ManagerCall} (clear : c.Clear env w) (tenantId id : String) :
    (c.exec env w).2.stored env tenantId id = w.stored env tenantId id := by
  rcases exec_lookup env c w (env.requestPath tenantId id) with same | ⟨write, listed, here, written⟩
  · exact stored_of_lookup same
  · rw [← clear write listed tenantId id here.symm]
    unfold Workspace.stored Files.requestAt
    rw [written]
    rfl

theorem clear_of_reads {c : ManagerCall} (reads : c.writes env = []) : c.Clear env w := by
  intro write listed
  rw [reads] at listed
  cases listed

variable (env) in
theorem exec_storePromotionRequest (tenantId : String) (request : PromotionRequest) (w : Workspace)
    (otherTenant otherId : String) :
    let next := ((ManagerCall.storePromotionRequest tenantId request).exec env w).2
    next.stored env otherTenant otherId = w.stored env otherTenant otherId ∨
      env.requestPath otherTenant otherId = env.requestPath tenantId request.id ∧
        next.stored env otherTenant otherId = some request := by
  rcases exec_lookup env (.storePromotionRequest tenantId request) w
    (env.requestPath otherTenant otherId) with same | ⟨write, listed, here, written⟩
  · exact Or.inl (stored_of_lookup same)
  · refine Or.inr ?_
    rw [List.mem_singleton.mp listed] at here written
    refine ⟨here.symm, ?_⟩
    unfold Workspace.stored Files.requestAt
    rw [written]
    simp [env.parseRequest_render, Except.toOption]

theorem placed_of_stored {next : Workspace} (placed : w.Placed env)
    (same : ∀ tenantId id, next.stored env tenantId id = w.stored env tenantId id) : next.Placed env := by
  intro tenantId id request found
  rw [same] at found
  exact placed tenantId id request found

theorem exec_storePromotionRequest_placed (placed : w.Placed env) (own : request.tenantId = tenantId) :
    ((ManagerCall.storePromotionRequest tenantId request).exec env w).2.Placed env := by
  intro otherTenant otherId other found
  rcases exec_storePromotionRequest env tenantId request w otherTenant otherId with same | ⟨here, written⟩
  · rw [same] at found
    exact placed otherTenant otherId other found
  · rw [written] at found
    cases found
    rw [own, here]

theorem exec_getPromotionRequest (found : ((getPromotionRequest tenantId id).exec env w).1 = .ok (some request)) :
    w.stored env tenantId id = some request := by
  simp only [ManagerCall.exec, reading] at found
  split at found
  · cases found
  · simp only [GitRepository.getPromotionRequest] at found
    split at found
    · cases found
    · cases found
    · rename_i text read
      cases parsed : env.parseRequest text with
      | error message =>
        rw [parsed] at found
        cases found
      | ok other =>
        rw [parsed] at found
        cases found
        have stored := Files.read_eq_some.mp read
        simp [Workspace.stored, Files.requestAt, stored, parsed, Except.toOption]

theorem loadPromotion_run (ctx : TenantContext) {promotionId : String}
    (undisturbed : env.fault w.tick = none) (stored : w.repo.files.contents.lookup
    (env.requestPath ctx.tenantId promotionId) = some (PromotionRequest.json.render request)) :
    (loadPromotion ctx promotionId).run (ManagerCall.exec env) w = (.ok request, w.advance) := by
  have answer : (getPromotionRequest ctx.tenantId promotionId).exec env w =
      (.ok (some request), w.advance) := by
    have read := Files.read_eq_some.mpr stored
    simp [ManagerCall.exec, reading, undisturbed, GitRepository.getPromotionRequest, read,
      env.parseRequest_render, Except.map]
  have asked : (ask (.getPromotionRequest ctx.tenantId promotionId) : ManagerM _).run
      (ManagerCall.exec env) w =
      (.ok (.ok (some request)), w.advance) := by
    show (Except.ok _, _) = _
    rw [answer]
  unfold loadPromotion
  rw [run_bind_of_ok asked]
  rfl

theorem requestAt_of_text {files : Files} {location : Location}
    (text : files.contents.lookup location = some (PromotionRequest.json.render request)) :
    files.requestAt env location = some request := by
  simp [Files.requestAt, text, env.parseRequest_render, Except.toOption]

theorem requestAt_of_lookup {files others : Files} {location : Location}
    (same : others.contents.lookup location = files.contents.lookup location) :
    others.requestAt env location = files.requestAt env location := by
  unfold Files.requestAt
  rw [same]

theorem stored_of_text (text : w.repo.files.contents.lookup
    (env.requestPath tenantId id) = some (PromotionRequest.json.render request)) :
    w.stored env tenantId id = some request :=
  requestAt_of_text text

end

section
variable (ctx : TenantContext)

variable {allowed : ManagerCall → Prop}

theorem enforceTenantMatch_uses (tenantId : String) : (enforceTenantMatch ctx tenantId).Uses allowed :=
  Uses.failIf.bind (fun _ => Uses.failIf)

theorem enforceReviewerLayerAuthority_uses (layer : KnowledgeLayer) :
    (enforceReviewerLayerAuthority ctx layer).Uses allowed := by
  unfold enforceReviewerLayerAuthority
  split
  · exact Uses.failIf
  · trivial

theorem enforcePromotionPolicy_uses (toLowercase : String → String) (layer : KnowledgeLayer) (shared : String)
    (residual : Option String) (action : String) :
    (enforcePromotionPolicy ctx toLowercase layer shared residual action).Uses Reads := by
  refine Uses.failIf.bind (fun _ => (Uses.ask trivial).bind (fun answer => ?_))
  exact (Uses.orFail answer).bind (fun _ => Uses.failIf)

theorem loadPromotion_uses (promotionId : String) : (loadPromotion ctx promotionId).Uses Reads := by
  refine (Uses.ask trivial).bind (fun answer => (Uses.orFail answer).bind (fun found => ?_))
  cases found <;> trivial

theorem findInLayers_uses (id : String) (layers : List KnowledgeLayer) : (findInLayers ctx id layers).Uses Reads := by
  induction layers with
  | nil => trivial
  | cons layer rest ih =>
    refine (Uses.ask trivial).bind (fun answer => (Uses.orFail answer).bind (fun found => ?_))
    cases found with
    | some entry => trivial
    | none => exact ih

theorem findSource_uses (id : String) : (findSource ctx id).Uses Reads := by
  refine (findInLayers_uses ctx id _).bind (fun found => ?_)
  cases found <;> trivial

omit ctx in
theorem assignId_uses (request : PromotionRequest) : (assignId request).Uses Reads := by
  unfold assignId
  split
  · exact Uses.ask trivial
  · trivial

theorem checkSourceVersion_uses (request : PromotionRequest) : (checkSourceVersion ctx request).Uses Reads := by
  unfold checkSourceVersion
  split
  · trivial
  · exact (findSource_uses ctx _).bind (fun _ => Uses.failIf)

theorem createRelation_uses (relation : KnowledgeRelation) :
    (createRelation ctx relation).Uses (fun c => c.Reads ∨ c = .storeRelation ctx.tenantId relation) := by
  refine (enforceTenantMatch_uses ctx _).bind (fun _ => ?_)
  refine Uses.bind (Uses.ask (Or.inl trivial)) (fun listed => ?_)
  refine (Uses.orFail listed).bind (fun _ => Uses.failIf.bind (fun _ => ?_))
  refine Uses.bind (Uses.ask (Or.inr rfl)) (fun answer => ?_)
  exact (Uses.orFail answer).bind (fun _ => trivial)

theorem relate_uses (now : Int) (sourceId targetId : String) (relationType : KnowledgeRelationType) :
    (relate ctx now sourceId targetId relationType).Uses Quiet := by
  refine (Uses.ask trivial).bind (fun id => (createRelation_uses ctx _).mono ?_)
  rintro c (reads | rfl)
  · exact reads.quiet
  · trivial

theorem persistPromotionRelations_uses (sourceId promotedId : String) (residualId : Option String)
    (decision : Option PromotionDecision) (now : Int) :
    (persistPromotionRelations ctx sourceId promotedId residualId decision now).Uses Quiet := by
  refine (relate_uses ctx _ _ _ _).bind (fun _ => (relate_uses ctx _ _ _ _).bind (fun _ => ?_))
  exact (Uses.forSome (fun _ => relate_uses ctx _ _ _ _)).bind
    (fun _ => Uses.forSome (fun _ => relate_uses ctx _ _ _ _))

theorem settleSource_uses (promotionId : String) (request : PromotionRequest) (source : KnowledgeEntry) (now : Int) :
    (settleSource ctx promotionId request source now).Uses Quiet := by
  unfold settleSource
  cases request.promotionMode with
  | full =>
    refine Uses.bind ?_ (fun _ => trivial)
    refine (Uses.ask trivial).bind (fun answer => (Uses.orFail answer).bind (fun found => ?_))
    cases found with
    | none => trivial
    | some entry =>
      refine (Uses.ask trivial).bind (fun _ => (Uses.ask trivial).bind (fun stored => ?_))
      exact (Uses.orFail stored).bind (fun _ => trivial)
  | partial_ =>
    cases request.residualContent with
    | none => trivial
    | some content =>
      simp only
      split
      · trivial
      · refine (Uses.ask trivial).bind (fun _ => (Uses.ask trivial).bind (fun answer => ?_))
        exact (Uses.orFail answer).bind (fun _ => trivial)

end

/-- A contract under which the calls that store no request lead to `R`-related states only. -/
structure Tolerates (env : ManagerEnv) (contract : Contract Answer Workspace)
    (R : Workspace → Workspace → Prop) : Prop where
  exec : contract.exec = ManagerCall.exec env
  refl : ∀ w, R w w
  trans : ∀ {a b c}, R a b → R b c → R a c
  relied : ∀ {a b}, contract.rely a b → R a b
  silent : ∀ c, c.Quiet → ∀ notes w, contract.inv w → contract.ok notes c w →
    contract.inv (contract.exec c w).2 ∧ contract.guar w (contract.exec c w).2 ∧ R w (contract.exec c w).2

section
variable {env : ManagerEnv} {contract : Contract Answer Workspace} {R : Workspace → Workspace → Prop}
  (tolerates : Tolerates env contract R) {notes : List (Note Answer)} {w : Workspace} {α : Type}
  (ctx : TenantContext)
include tolerates

theorem Tolerates.meets {program : ManagerM α} (uses : program.Uses Quiet) :
    program.Meets contract (fun _ later last => notes <:+ later ∧ R w last) notes w :=
  uses.meets tolerates.refl tolerates.trans tolerates.relied tolerates.silent

variable {β : Type} {promotionId : String} {clientVersion : Option Int}

theorem Tolerates.seq {program : ManagerM α} {f : α → ManagerM β} (uses : program.Uses Quiet)
    (rest : ∀ a later last, notes <:+ later → R w last → (f a).Meets contract (fun _ _ _ => True) later last) :
    (program >>= f).Meets contract (fun _ _ _ => True) notes w := by
  refine (tolerates.meets uses).seq (fun _ _ _ _ => trivial) ?_
  rintro a later last ⟨longer, moved⟩
  exact rest a later last longer moved

theorem Tolerates.load {f : PromotionRequest → ManagerM β}
    (rest : ∀ request later last, R w last → last.stored env ctx.tenantId promotionId = some request →
    (f request).Meets contract (fun _ _ _ => True) later last) :
    (loadPromotion ctx promotionId >>= f).Meets contract (fun _ _ _ => True) notes w := by
  refine Meets.bind (Meets.bind ?_)
  intro t relied holds permitted
  obtain ⟨kept, step, moved⟩ := tolerates.silent (.getPromotionRequest ctx.tenantId promotionId) trivial notes t holds
    permitted
  refine ⟨kept, step, Meets.bind (Meets.orFail ?_ (fun _ _ => trivial))⟩
  intro found answer
  cases found with
  | none => trivial
  | some request =>
    refine rest request _ _ (tolerates.trans (tolerates.relied relied) moved) ?_
    rw [tolerates.exec] at answer ⊢
    rw [exec_stored (clear_of_reads rfl)]
    exact exec_getPromotionRequest answer

omit tolerates in
theorem enforceTenantMatch_seq {tenantId : String} {f : Unit → ManagerM β}
    (rest : ctx.tenantId = tenantId → (f ()).Meets contract (fun _ _ _ => True) notes w) :
    (enforceTenantMatch ctx tenantId >>= f).Meets contract (fun _ _ _ => True) notes w := by
  refine Meets.bind (Meets.bind (Meets.failIf (fun _ => ?_) (fun _ => trivial)))
  exact Meets.failIf (fun same => rest (not_not.mp same)) (fun _ => trivial)

omit tolerates in
theorem failIf_seq {condition : Prop} [Decidable condition] {e : KnowledgeManagerError}
    {f : Unit → ManagerM β} (rest : ¬ condition → (f ()).Meets contract (fun _ _ _ => True) notes w) :
    (failIf condition e >>= f).Meets contract (fun _ _ _ => True) notes w :=
  Meets.bind (Meets.failIf rest (fun _ => trivial))

omit tolerates in
theorem storing_meets {c : ManagerCall} {f : c.Answer → ManagerM α}
    (final : (ask c : ManagerM c.Answer).Meets contract (fun _ _ _ => True) notes w)
    (rest : ∀ answer later last, (f answer).Meets contract (fun _ _ _ => True) later last) :
    ((ask c : ManagerM c.Answer) >>= f).Meets contract (fun _ _ _ => True) notes w :=
  final.seq (fun _ _ _ _ => trivial) (fun answer later last _ => rest answer later last)

omit tolerates in
theorem orFail_meets {wrap : String → KnowledgeManagerError} (answer : Except String α) :
    (orFail wrap answer : ManagerM α).Meets contract (fun _ _ _ => True) notes w :=
  Meets.orFail (fun _ _ => trivial) (fun _ _ => trivial)

theorem createPromotionRequest_meets (toLowercase : String → String) {request : PromotionRequest}
    (storing : ∀ stored later last, stored.tenantId = ctx.tenantId → stored.status = .pendingReview →
      (ask (.storePromotionRequest ctx.tenantId stored) : ManagerM _).Meets contract (fun _ _ _ => True) later last) :
    (createPromotionRequest ctx toLowercase request).Meets contract (fun _ _ _ => True) notes w := by
  refine enforceTenantMatch_seq ctx (fun own => ?_)
  refine tolerates.seq (Uses.orFail _) (fun _ _ _ _ _ => ?_)
  refine tolerates.seq ((findSource_uses ctx _).mono Reads.quiet) (fun entry _ _ _ _ => ?_)
  refine failIf_seq (fun _ => tolerates.seq ((enforcePromotionPolicy_uses ctx _ _ _ _ _).mono Reads.quiet)
    (fun _ _ _ _ _ => ?_))
  refine tolerates.seq ((assignId_uses _).mono Reads.quiet) (fun id _ _ _ _ => ?_)
  refine tolerates.seq (Uses.ask trivial) (fun now _ _ _ _ => ?_)
  exact storing_meets (storing _ _ _ own.symm rfl) (fun answer _ _ => orFail_meets answer)

theorem approvePromotion_meets (toLowercase : String → String) {decision : PromotionDecision}
    (storing : ∀ request found listed now later last, ctx.tenantId = request.tenantId →
    found.stored env ctx.tenantId promotionId = some request → R found last → request.status = .pendingReview →
    ⟨.listPromotionRequests ctx.tenantId, .ok listed⟩ ∈ later → listed.find? (conflicts request) = none →
    (ask (.storePromotionRequest ctx.tenantId
    { request with status := .approved, latestDecision := some decision, updatedAt := now }) :
    ManagerM _).Meets contract (fun _ _ _ => True) later last) :
    (approvePromotion ctx toLowercase promotionId decision clientVersion).Meets contract (fun _ _ _ => True)
      notes w := by
  refine tolerates.load ctx (fun request _ found _ stored => ?_)
  refine enforceTenantMatch_seq ctx (fun own => ?_)
  refine tolerates.seq (enforceReviewerLayerAuthority_uses ctx _) (fun _ _ w₁ _ moved₁ => ?_)
  refine tolerates.seq ((enforcePromotionPolicy_uses ctx _ _ _ _ _).mono Reads.quiet)
    (fun _ _ w₂ _ moved₂ => ?_)
  refine failIf_seq (fun _ => ?_)
  split
  · trivial
  refine failIf_seq (fun pending => failIf_seq (fun _ => ?_))
  refine tolerates.seq ((checkSourceVersion_uses ctx _).mono Reads.quiet) (fun _ _ w₃ _ moved₃ => ?_)
  refine Meets.bind ?_
  intro t relied holds permitted
  obtain ⟨kept, step, moved₄⟩ := tolerates.silent (.listPromotionRequests ctx.tenantId) trivial _ t holds permitted
  refine ⟨kept, step, Meets.bind (Meets.orFail ?_ (fun _ _ => trivial))⟩
  intro listed answer
  simp only
  split
  · trivial
  rename_i unopposed
  refine tolerates.seq (Uses.ask trivial) (fun now later last longer moved₅ => ?_)
  refine storing_meets ?_ (fun answer _ _ => orFail_meets answer)
  have moved : R found last := tolerates.trans moved₁ (tolerates.trans moved₂ (tolerates.trans moved₃
    (tolerates.trans (tolerates.relied relied) (tolerates.trans moved₄ moved₅))))
  refine storing request found listed now later last own stored moved (not_not.mp pending) ?_ unopposed
  have noted : ⟨.listPromotionRequests ctx.tenantId,
      contract.exec (.listPromotionRequests ctx.tenantId) t |>.1⟩ ∈ later :=
    longer.subset List.mem_cons_self
  rwa [answer] at noted

theorem rejectPromotion_meets (storing : ∀ request found now later last, ctx.tenantId = request.tenantId →
    found.stored env ctx.tenantId promotionId = some request → R found last → request.status = .pendingReview →
    (ask (.storePromotionRequest ctx.tenantId
    { request with status := .rejected, latestDecision := some .reject, updatedAt := now }) :
    ManagerM _).Meets contract (fun _ _ _ => True) later last) :
    (rejectPromotion ctx promotionId clientVersion).Meets contract (fun _ _ _ => True) notes w := by
  refine tolerates.load ctx (fun request _ found _ stored => ?_)
  refine enforceTenantMatch_seq ctx (fun own => ?_)
  refine tolerates.seq (enforceReviewerLayerAuthority_uses ctx _) (fun _ _ w₁ _ moved₁ => failIf_seq (fun _ => ?_))
  split
  · trivial
  refine failIf_seq (fun pending => ?_)
  refine tolerates.seq (Uses.ask trivial) (fun now later last _ moved₂ => ?_)
  refine storing_meets ?_ (fun answer _ _ => orFail_meets answer)
  exact storing request found now later last own stored (tolerates.trans moved₁ moved₂) (not_not.mp pending)

theorem retargetPromotion_meets {newTargetLayer : KnowledgeLayer}
    (storing : ∀ request found now later last, ctx.tenantId = request.tenantId →
    found.stored env ctx.tenantId promotionId = some request → R found last → request.status = .pendingReview →
    (ask (.storePromotionRequest ctx.tenantId
    { request with targetLayer := newTargetLayer, latestDecision := some .retargetLayer, updatedAt := now }) :
    ManagerM _).Meets contract (fun _ _ _ => True) later last) :
    (retargetPromotion ctx promotionId newTargetLayer clientVersion).Meets contract (fun _ _ _ => True) notes w := by
  refine tolerates.load ctx (fun request _ found _ stored => ?_)
  refine enforceTenantMatch_seq ctx (fun own => ?_)
  refine tolerates.seq (enforceReviewerLayerAuthority_uses ctx _) (fun _ _ w₁ _ moved₁ => failIf_seq (fun _ => ?_))
  refine failIf_seq (fun pending => tolerates.seq (Uses.orFail _) (fun _ _ w₂ _ moved₂ => ?_))
  refine tolerates.seq (enforceReviewerLayerAuthority_uses ctx _) (fun _ _ w₃ _ moved₃ => ?_)
  refine tolerates.seq (Uses.ask trivial) (fun now later last _ moved₄ => ?_)
  refine storing_meets ?_ (fun answer _ _ => orFail_meets answer)
  have moved : R found last := tolerates.trans moved₁ (tolerates.trans moved₂ (tolerates.trans moved₃ moved₄))
  exact storing request found now later last own stored moved (not_not.mp pending)

theorem applyPromotion_meets
    (storing : ∀ request found promotedItemId residualItemId now later last, ctx.tenantId = request.tenantId →
      found.stored env ctx.tenantId promotionId = some request → R found last → request.status = .approved →
      (ask (.storePromotionRequest ctx.tenantId { request with
        promotedItemId := promotedItemId
        residualItemId := residualItemId
        status := .applied
        updatedAt := now }) : ManagerM _).Meets contract (fun _ _ _ => True) later last) :
    (applyPromotion ctx promotionId).Meets contract (fun _ _ _ => True) notes w := by
  refine tolerates.load ctx (fun request _ found _ stored => ?_)
  refine enforceTenantMatch_seq ctx (fun own => ?_)
  split
  · trivial
  refine failIf_seq (fun approved => tolerates.seq ((findSource_uses ctx _).mono Reads.quiet)
    (fun source _ w₁ _ moved₁ => ?_))
  refine tolerates.seq (Uses.ask trivial) (fun now _ w₂ _ moved₂ => ?_)
  refine tolerates.seq (Uses.ask trivial) (fun promotedId _ w₃ _ moved₃ => ?_)
  refine tolerates.seq (Uses.ask trivial) (fun answer _ w₄ _ moved₄ => ?_)
  refine tolerates.seq (Uses.orFail answer) (fun _ _ w₅ _ moved₅ => ?_)
  refine tolerates.seq (settleSource_uses ctx _ _ _ _) (fun residual _ w₆ _ moved₆ => ?_)
  refine tolerates.seq (persistPromotionRelations_uses ctx _ _ _ _ _) (fun _ later last _ moved₇ => ?_)
  refine storing_meets ?_ (fun answer _ _ => orFail_meets answer)
  have moved : R found last := tolerates.trans moved₁ (tolerates.trans moved₂ (tolerates.trans moved₃
    (tolerates.trans moved₄ (tolerates.trans moved₅ (tolerates.trans moved₆ moved₇)))))
  exact storing request found _ _ now later last own stored moved (not_not.mp approved)

end

section
variable (env : ManagerEnv)

/-- An operation alone, each call of which changes what is found under an id as `F` says. -/
def relatedContract (F : Option PromotionRequest → Option PromotionRequest → Prop)
    (ok : List (Note Answer) → ManagerCall → Workspace → Prop) : Contract Answer Workspace where
  exec := ManagerCall.exec env
  inv := Workspace.Placed env
  rely := Eq
  guar w next := ∀ tenantId id, F (w.stored env tenantId id) (next.stored env tenantId id)
  ok := ok

end

section
variable {env : ManagerEnv} {F : Option PromotionRequest → Option PromotionRequest → Prop}
  {ok : List (Note Answer) → ManagerCall → Workspace → Prop} {w : Workspace}

theorem related_tolerates (refl : ∀ found, F found found)
    (clear : ∀ notes c w, Quiet c → ok notes c w → c.Clear env w) :
    Tolerates env (relatedContract env F ok)
      (fun a b => ∀ tenantId id, b.stored env tenantId id = a.stored env tenantId id) where
  exec := rfl
  refl _ _ _ := rfl
  trans first second tenantId id := (second tenantId id).trans (first tenantId id)
  relied same := by
    intro tenantId id
    rw [show _ = _ from same]
  silent c quiet notes w placed permitted := by
    have same := exec_stored (clear notes c w quiet permitted)
    refine ⟨placed_of_stored placed same, fun tenantId id => ?_, same⟩
    show F _ (Workspace.stored env (c.exec env w).2 tenantId id)
    rw [same]
    exact refl _

theorem storing_related (refl : ∀ found, F found found) {tenantId : String} {request : PromotionRequest}
    {notes : List (Note Answer)} (own : request.tenantId = tenantId)
    (fits : w.Placed env → ok notes (.storePromotionRequest tenantId request) w →
      F (w.stored env tenantId request.id) (some request)) :
    (ask (.storePromotionRequest tenantId request) : ManagerM _).Meets (relatedContract env F ok)
      (fun _ _ _ => True) notes w := by
  rintro t rfl placed permitted
  refine ⟨exec_storePromotionRequest_placed placed own, fun otherTenant otherId => ?_, trivial⟩
  show F _ (Workspace.stored env ((ManagerCall.storePromotionRequest tenantId request).exec env w).2 otherTenant otherId)
  rcases exec_storePromotionRequest env tenantId request w otherTenant otherId with same | ⟨here, written⟩
  · rw [same]
    exact refl _
  · have place : w.stored env otherTenant otherId = w.stored env tenantId request.id := by
      unfold Workspace.stored
      rw [here]
    rw [written, place]
    exact fits placed permitted

theorem reviewed_in_place {found : Workspace} {tenantId promotionId : String} {request : PromotionRequest}
    (own : tenantId = request.tenantId) (stored : found.stored env tenantId promotionId = some request)
    (moved : ∀ tenantId id, w.stored env tenantId id = found.stored env tenantId id) (placed : w.Placed env) :
    w.stored env tenantId request.id = some request := by
  rw [← moved] at stored
  have place := placed tenantId promotionId request stored
  rw [← own] at place
  rw [← stored]
  unfold Workspace.stored
  rw [place]

theorem related_run {α : Type} {program : ManagerM α} (refl : ∀ found, F found found)
    (trans : ∀ {a b c}, F a b → F b c → F a c)
    (meets : program.Meets (relatedContract env F ok) (fun _ _ _ => True) [] w) (placed : w.Placed env)
    (permits : program.Permits (ManagerCall.exec env) ok [] w) :
    let after := (program.run (ManagerCall.exec env) w).2
    after.Placed env ∧ ∀ tenantId id, F (w.stored env tenantId id) (after.stored env tenantId id) := by
  obtain ⟨kept, chain, -⟩ := meets.run (fun _ => rfl) placed permits
  refine ⟨kept, fun tenantId id => ?_⟩
  have along : ∀ last, Relation.ReflTransGen (relatedContract env F ok).guar w last →
      F (w.stored env tenantId id) (last.stored env tenantId id) := by
    intro last path
    induction path with
    | refl => exact refl _
    | tail _ step ih => exact trans ih (step tenantId id)
  exact along _ chain

end

end Aeterna
