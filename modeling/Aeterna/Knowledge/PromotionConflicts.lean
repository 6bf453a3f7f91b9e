import Aeterna.Knowledge.PromotionRuns

namespace Aeterna
open Lib KnowledgeManager ManagerCall Pool

def PromotionRequest.Wins (request : PromotionRequest) : Prop := request.status = .approved ∨
    request.status = .applied

instance (request : PromotionRequest) : Decidable request.Wins := inferInstanceAs (Decidable (_ ∨ _))

inductive WinningCall where
  | approve (ctx : TenantContext) (promotionId : String) (decision : PromotionDecision) (clientVersion : Option Int)
  | apply (ctx : TenantContext) (promotionId : String)

def WinningCall.program (toLowercase : String → String) : WinningCall → ManagerM PromotionRequest
  | approve ctx promotionId decision clientVersion =>
    approvePromotion ctx toLowercase promotionId decision clientVersion
  | apply ctx promotionId => applyPromotion ctx promotionId

section
variable (env : ManagerEnv)

def Workspace.OneWinner (w : Workspace) : Prop :=
  ∀ tenantId id request otherTenant otherId other, w.stored env tenantId id = some request →
    w.stored env otherTenant otherId = some other → request.Wins → other.Wins → request.tenantId = other.tenantId →
    request.sourceItemId = other.sourceItemId → request = other

def Workspace.Advances (w next : Workspace) : Prop :=
  ∀ tenantId id request, w.stored env tenantId id = some request →
    ∃ later, next.stored env tenantId id = some later ∧ later.id = request.id ∧
      later.tenantId = request.tenantId ∧ later.sourceItemId = request.sourceItemId ∧ (request.Wins → later.Wins)

def Workspace.ListedBy (w : Workspace) (listed : List PromotionRequest) (request : PromotionRequest) : Prop :=
  ∀ tenantId id other, w.stored env tenantId id = some other → other.Wins → other.tenantId = request.tenantId →
    other.sourceItemId = request.sourceItemId → other.id ≠ request.id →
    ∃ seen ∈ listed, seen.id = other.id ∧ seen.sourceItemId = other.sourceItemId ∧ seen.Wins

/-- An approval is stored while the list it rests on still has all the winners of its source, and what
else is written changes no request. -/
def Unraced (notes : List (Note Answer)) (c : ManagerCall) (w : Workspace) : Prop :=
  match c with
  | .storePromotionRequest tenantId request => request.status = .approved →
    ∀ listed, ⟨.listPromotionRequests tenantId, .ok listed⟩ ∈ notes → w.ListedBy env listed request
  | c => c.Clear env w

abbrev WinningPool (ι : Type) : Type :=
  Pool ι ManagerCall Answer KnowledgeManagerError PromotionRequest Workspace

def WinningCall.pool {ι : Type} (calls : ι → WinningCall) (w : Workspace) : WinningPool ι where
  state := w
  thread i := { program := (calls i).program env.toLowercase }

def winnerContract : Contract Answer Workspace where
  exec := ManagerCall.exec env
  inv w := w.Placed env ∧ w.OneWinner env
  rely := Workspace.Advances env
  guar := Workspace.Advances env
  ok := Unraced env

end

section
variable {env : ManagerEnv} {w next : Workspace}

theorem Workspace.Advances.of_stored (same : ∀ tenantId id, next.stored env tenantId id = w.stored env tenantId id) :
    w.Advances env next := by
  intro tenantId id request found
  exact ⟨request, (same tenantId id).trans found, rfl, rfl, rfl, fun wins => wins⟩

theorem Workspace.Advances.trans {a b c : Workspace} (first : a.Advances env b) (second : b.Advances env c) :
    a.Advances env c := by
  intro tenantId id request found
  obtain ⟨middle, kept, sameId, sameTenant, sameSource, wins⟩ := first tenantId id request found
  obtain ⟨last, stays, lastId, lastTenant, lastSource, still⟩ := second tenantId id middle kept
  exact ⟨last, stays, lastId.trans sameId, lastTenant.trans sameTenant, lastSource.trans sameSource,
    fun winner => still (wins winner)⟩

theorem winner_tolerates : Tolerates env (winnerContract env) (Workspace.Advances env) where
  exec := rfl
  refl _ := .of_stored (fun _ _ => rfl)
  trans := .trans
  relied relied := relied
  silent c quiet notes w holds unraced := by
    have clear : c.Clear env w := by
      cases c with
      | storePromotionRequest tenantId request => exact quiet.elim
      | _ => exact unraced
    have same := exec_stored clear
    refine ⟨⟨placed_of_stored holds.1 same, ?_⟩, .of_stored same, .of_stored same⟩
    intro tenantId id request otherTenant otherId other found foundOther
    exact holds.2 tenantId id request otherTenant otherId other ((same _ _).symm.trans found)
      ((same _ _).symm.trans foundOther)

variable {tenantId : String}

theorem stored_of_path {id otherTenant otherId : String}
    (same : env.requestPath tenantId id = env.requestPath otherTenant otherId) :
    w.stored env tenantId id = w.stored env otherTenant otherId := by
  unfold Workspace.stored
  rw [same]

theorem storing_wins (request : PromotionRequest) {earlier : PromotionRequest} (placed : w.Placed env)
    (unique : w.OneWinner env) (own : request.tenantId = tenantId) (wins : request.Wins)
    (there : w.stored env tenantId request.id = some earlier) (sameId : earlier.id = request.id)
    (sameTenant : earlier.tenantId = request.tenantId) (sameSource : earlier.sourceItemId = request.sourceItemId)
    (sole : ∀ otherTenant otherId other, w.stored env otherTenant otherId = some other → other.Wins →
    other.tenantId = request.tenantId → other.sourceItemId = request.sourceItemId →
    env.requestPath otherTenant otherId = env.requestPath tenantId request.id) :
    let next := ((ManagerCall.storePromotionRequest tenantId request).exec env w).2
    (next.Placed env ∧ next.OneWinner env) ∧ w.Advances env next := by
  intro next
  have effect := exec_storePromotionRequest env tenantId request w
  -- an old winner of the source is read from the place of the new one
  have replaced : ∀ t i s j other, next.stored env t i = some request →
      env.requestPath t i = env.requestPath tenantId request.id → next.stored env s j = some other →
      next.stored env s j = w.stored env s j → other.Wins → other.tenantId = request.tenantId →
      other.sourceItemId = request.sourceItemId → request = other := by
    intro t i s j other new here old same otherWins tenant source
    have place := sole s j other (same.symm.trans old) otherWins tenant source
    rw [stored_of_path (place.trans here.symm), new] at old
    exact Option.some.inj old
  refine ⟨⟨exec_storePromotionRequest_placed placed own, ?_⟩, ?_⟩
  · intro t i first s j second found foundOther winsFirst winsSecond tenant source
    rcases effect t i with same | ⟨here, new⟩
    · rcases effect s j with sameOther | ⟨here, new⟩
      · exact unique t i first s j second (same.symm.trans found)
          (sameOther.symm.trans foundOther) winsFirst winsSecond
          tenant source
      · have written : request = second := Option.some.inj (new.symm.trans foundOther)
        subst written
        exact (replaced s j t i first new here found same winsFirst tenant source).symm
    · have written : request = first := Option.some.inj (new.symm.trans found)
      subst written
      rcases effect s j with sameOther | ⟨-, newOther⟩
      · exact replaced t i s j second new here foundOther sameOther winsSecond tenant.symm source.symm
      · exact Option.some.inj (newOther.symm.trans foundOther)
  · intro t i stored found
    rcases effect t i with same | ⟨here, new⟩
    · exact ⟨stored, same.trans found, rfl, rfl, rfl, fun winner => winner⟩
    · rw [stored_of_path here, there] at found
      cases found
      exact ⟨request, new, sameId.symm, sameTenant.symm, sameSource.symm, fun _ => wins⟩

theorem loaded_in_place {found last : Workspace} {promotionId : String} {request : PromotionRequest}
    (own : tenantId = request.tenantId) (stored : found.stored env tenantId promotionId = some request)
    (moved : found.Advances env last) (placed : last.Placed env) :
    ∃ now, last.stored env tenantId request.id = some now ∧ now.id = request.id ∧ now.tenantId = request.tenantId ∧
      now.sourceItemId = request.sourceItemId ∧ (request.Wins → now.Wins) := by
  obtain ⟨now, there, sameId, sameTenant, sameSource, wins⟩ := moved tenantId promotionId request stored
  have place := placed tenantId promotionId now there
  rw [sameId, sameTenant, ← own] at place
  exact ⟨now, (stored_of_path place).trans there, sameId, sameTenant, sameSource, wins⟩

theorem call_meets (call : WinningCall) :
    (call.program env.toLowercase).Meets (winnerContract env) (fun _ _ _ => True) [] w := by
  cases call with
  | approve ctx promotionId decision clientVersion =>
    refine approvePromotion_meets winner_tolerates ctx _ ?_
    intro request found listed now later last own stored moved pending noted unopposed t relied holds unraced
    obtain ⟨earlier, there, sameId, sameTenant, sameSource, -⟩ :=
      loaded_in_place own stored (moved.trans relied) holds.1
    have kept := storing_wins { request with
        status := .approved, latestDecision := some decision, updatedAt := now } holds.1 holds.2 own.symm (Or.inl rfl)
      there sameId sameTenant sameSource ?_
    · exact ⟨kept.1, kept.2, trivial⟩
    · intro otherTenant otherId other foundOther wins tenant source
      have same : other.id = request.id := by
        by_contra different
        obtain ⟨seen, inList, seenId, seenSource, seenWins⟩ :=
          unraced rfl listed noted otherTenant otherId other foundOther wins tenant source different
        have clash : conflicts request seen = true := by
          rcases seenWins with status | status <;> simp [conflicts, seenId, different, seenSource, source, status]
        exact List.find?_eq_none.mp unopposed seen inList clash
      have place := holds.1 otherTenant otherId other foundOther
      rw [tenant, same, ← own] at place
      exact place.symm
  | apply ctx promotionId =>
    refine applyPromotion_meets winner_tolerates ctx ?_
    intro request found promotedItemId residualItemId now later last own stored moved approved t relied holds _
    obtain ⟨earlier, there, sameId, sameTenant, sameSource, wins⟩ :=
      loaded_in_place own stored (moved.trans relied) holds.1
    have kept := storing_wins { request with
        promotedItemId := promotedItemId, residualItemId := residualItemId, status := .applied, updatedAt := now }
      holds.1 holds.2 own.symm (Or.inr rfl) there sameId sameTenant sameSource ?_
    · exact ⟨kept.1, kept.2, trivial⟩
    · intro otherTenant otherId other foundOther otherWins tenant source
      have same := holds.2 ctx.tenantId request.id earlier otherTenant otherId other there foundOther
          (wins (Or.inl approved))
        otherWins (sameTenant.trans tenant.symm) (sameSource.trans source.symm)
      subst same
      have place := holds.1 otherTenant otherId earlier foundOther
      rw [sameTenant, sameId, ← own] at place
      exact place.symm

/-- In every interleaving of approvals and applications in which no approval rests on a list that has
missed a winner, a source has one winner at most. -/
theorem unraced_run_one_winner {ι : Type} [DecidableEq ι] (calls : ι → WinningCall) {pool : WinningPool ι}
    (run : Run (ManagerCall.exec env) (Unraced env) (WinningCall.pool env calls w) pool)
    (placed : w.Placed env) (unique : w.OneWinner env) : pool.state.OneWinner env := by
  have kept : (winnerContract env).inv pool.state := Run.inv run (fun _ => .of_stored (fun _ _ => rfl)) .trans
    (fun moved => moved) ⟨placed, unique⟩ (fun i => call_meets (calls i))
  exact kept.2

end

def approveGuide (id : String) : WinningCall := .approve reviewer id .approveAsReplacement none

def contested : Workspace :=
  (guideWorkspace.keep sampleManager (waitingGuide "p1") 0).keep sampleManager (waitingGuide "p2") 0

theorem contested_facts : (guideWorkspace.keep sampleManager (waitingGuide "p1") 0).repo.files.Room
      (sampleManager.requestPath "acme" "p2") ∧ contested.repo.files.Room (sampleManager.requestPath "acme" "p1") ∧
    (contested.keep sampleManager (approvedGuide "p1") 1).repo.files.Room (sampleManager.requestPath "acme" "p2") ∧
    sampleManager.requestPath "acme" "p1" ≠ sampleManager.requestPath "acme" "p2" := by
  decide +kernel

theorem keep_waiting (location : Location) :
    (guideWorkspace.keep sampleManager (waitingGuide "p1") 0).repo.files.contents.lookup location =
      if location = sampleManager.requestPath "acme" "p1" then some (PromotionRequest.json.render (waitingGuide "p1"))
      else guideWorkspace.repo.files.contents.lookup location :=
  keep_lookup (waitingGuide "p1") guide_facts.1 _ _

theorem contested_lookup (location : Location) : contested.repo.files.contents.lookup location =
    if location = sampleManager.requestPath "acme" "p2" then some (PromotionRequest.json.render (waitingGuide "p2"))
    else if location = sampleManager.requestPath "acme" "p1" then some
      (PromotionRequest.json.render (waitingGuide "p1"))
    else guideWorkspace.repo.files.contents.lookup location := by
  rw [← keep_waiting]
  exact keep_lookup (waitingGuide "p2") contested_facts.1 _ _

variable {request : PromotionRequest}

section
variable {location : Location} (found : contested.repo.files.requestAt sampleManager location = some request)
include found

theorem contested_requestAt : request = waitingGuide "p2" ∧ location = sampleManager.requestPath "acme" "p2" ∨
      request = waitingGuide "p1" ∧ location = sampleManager.requestPath "acme" "p1" := by
  have text := contested_lookup location
  split at text
  · rename_i here
    exact Or.inl ⟨Option.some.inj (found.symm.trans (requestAt_of_text text)), here⟩
  split at text
  · rename_i here
    exact Or.inr ⟨Option.some.inj (found.symm.trans (requestAt_of_text text)), here⟩
  · rw [requestAt_of_lookup text, guideWorkspace_requestAt] at found
    cases found

theorem contested_open : ¬ request.Wins := by
  rcases contested_requestAt found with ⟨rfl, -⟩ | ⟨rfl, -⟩
  · exact fun wins => wins.elim nofun nofun
  · exact fun wins => wins.elim nofun nofun

end

theorem contested_unopposed (request : PromotionRequest) :
    (contested.repo.listPromotionRequests sampleManager "acme").find? (conflicts request) = none := by
  refine List.find?_eq_none.mpr (fun other listed clash => ?_)
  obtain ⟨location, -, found⟩ := List.mem_filterMap.mp listed
  simp only [conflicts, Bool.and_eq_true, Bool.or_eq_true, decide_eq_true_eq] at clash
  exact contested_open found clash.2

theorem contested_placed : contested.Placed sampleManager := by
  intro tenantId id request found
  rcases contested_requestAt found with ⟨rfl, here⟩ | ⟨rfl, here⟩
  · exact here.symm
  · exact here.symm

theorem contested_oneWinner : contested.OneWinner sampleManager := by
  intro tenantId id request otherTenant otherId other found _ wins
  exact absurd wins (contested_open found)

theorem approveGuide_reaches {w : Workspace} (same : w.repo = contested.repo) {id : String}
    (text : contested.repo.files.contents.lookup (sampleManager.requestPath "acme" id) =
      some (PromotionRequest.json.render (waitingGuide id))) :
    ((approveGuide id).program sampleManager.toLowercase).Reaches (ManagerCall.exec sampleManager) w (do
        let answer ← Program.ask (.storePromotionRequest "acme" (approvedGuide id))
        Program.orFail .repository answer) w.advance.advance.advance.advance := by
  refine approvePromotion_reaches sampleManager_calm (waitingGuide id) _ (reviewer_authorized _) ?_ guide_facts.2 rfl
    (fun _ => nofun) rfl (by decide) rfl ?_
  · rw [same]
    exact text
  · rw [same]
    exact contested_unopposed _

theorem contested_first : contested.repo.files.contents.lookup (sampleManager.requestPath "acme" "p1") =
    some (PromotionRequest.json.render (waitingGuide "p1")) := by
  rw [contested_lookup, if_neg contested_facts.2.2.2, if_pos rfl]

theorem contested_second : contested.repo.files.contents.lookup (sampleManager.requestPath "acme" "p2") =
    some (PromotionRequest.json.render (waitingGuide "p2")) := by
  rw [contested_lookup, if_pos rfl]

theorem approveGuide_stores {w : Workspace} {id : String}
    (room : w.repo.files.Room (sampleManager.requestPath "acme" id)) :
    (do
      let answer ← Program.ask (.storePromotionRequest "acme" (approvedGuide id))
      Program.orFail .repository answer : ManagerM PromotionRequest).Reaches (ManagerCall.exec sampleManager) w
        (.done (approvedGuide id)) (w.keep sampleManager (approvedGuide id) 1) := by
  have stored := exec_store_calm sampleManager_calm (approvedGuide id) room
  have asked : (Program.ask (.storePromotionRequest "acme" (approvedGuide id)) : ManagerM _).run
      (ManagerCall.exec sampleManager) w =
        (.ok (.ok (approvedGuide id)), w.keep sampleManager (approvedGuide id) 1) :=
    congrArg (fun answered => (Except.ok answered.1, answered.2)) stored
  exact Program.reaches_of_ok asked

theorem reads_unraced {env : ManagerEnv} {c : ManagerCall} (reads : c.Reads) (notes : List (Note Answer))
    (w : Workspace) : Unraced env notes c w := by
  cases c with
  | storePromotionRequest tenantId request => exact reads.elim
  | _ => exact clear_of_reads reads.writes

theorem approvePromotion_unraced {env : ManagerEnv} {ctx : TenantContext} {promotionId : String}
    {decision : PromotionDecision} {clientVersion : Option Int} {w : Workspace}
    (still : ∀ tenantId id request, w.stored env tenantId id = some request → ¬ request.Wins) :
    (approvePromotion ctx env.toLowercase promotionId decision clientVersion).Permits (ManagerCall.exec env)
      (Unraced env) [] w := by
  have fine : ∀ notes (c : ManagerCall) (w : Workspace), c.Reads →
      (∀ tenantId id request, w.stored env tenantId id = some request → ¬ request.Wins) → Unraced env notes c w ∧
        ∀ tenantId id request, (c.exec env w).2.stored env tenantId id = some request → ¬ request.Wins := by
    intro notes c w reads still
    refine ⟨reads_unraced reads notes w, fun tenantId id request found => ?_⟩
    rw [exec_stored (clear_of_reads reads.writes)] at found
    exact still tenantId id request found
  refine (loadPromotion_uses ctx _).permits_bind fine (fun request _ _ still => ?_) still
  refine (enforceTenantMatch_uses ctx _).permits_bind fine (fun _ _ _ still => ?_) still
  refine (enforceReviewerLayerAuthority_uses ctx _).permits_bind fine (fun _ _ _ still => ?_) still
  refine (enforcePromotionPolicy_uses ctx _ _ _ _ _).permits_bind fine (fun _ _ _ still => ?_) still
  refine Program.Uses.failIf.permits_bind fine (fun _ _ _ still => ?_) still
  split
  · trivial
  refine Program.Uses.failIf.permits_bind fine (fun _ _ _ still => ?_) still
  refine Program.Uses.failIf.permits_bind fine (fun _ _ _ still => ?_) still
  refine (checkSourceVersion_uses ctx _).permits_bind fine (fun _ _ _ still => ?_) still
  refine (Program.Uses.ask trivial).permits_bind fine (fun listed _ _ still => ?_) still
  refine (Program.Uses.orFail listed).permits_bind fine (fun _ _ _ still => ?_) still
  split
  · trivial
  refine (Program.Uses.ask trivial).permits_bind fine (fun now notes w still => ?_) still
  refine ⟨fun _ _ _ tenantId id other found wins => absurd wins (still tenantId id other found), ?_⟩
  exact .orFail _

theorem WinningCall.pool_alone {env : ManagerEnv}
    {ok : List (Note Answer) → ManagerCall → Workspace → Prop} {call : WinningCall}
    {w last : Workspace} (permits : (call.program env.toLowercase).Permits (ManagerCall.exec env) ok [] w)
    (reaches : (call.program env.toLowercase).Reaches (ManagerCall.exec env) w (.done request) last) :
    ∃ thread, Run (ManagerCall.exec env) ok (WinningCall.pool env (fun _ : Unit => call) w) ⟨last, thread⟩ := by
  have beginning : Run (ManagerCall.exec env) ok (WinningCall.pool env (fun _ : Unit => call) w) _ := .start
  obtain ⟨thread, run⟩ := Run.alone beginning () permits
  have ended : ((call.program env.toLowercase).run (ManagerCall.exec env) w).2 = last :=
    congrArg Prod.snd reaches.run_eq
  simp only [WinningCall.pool, ended] at run
  exact ⟨_, run⟩

theorem unraced_run_approves : ∃ pool : WinningPool Unit,
    pool.state.stored sampleManager "acme" "p1" = some (approvedGuide "p1") ∧ pool.state.OneWinner sampleManager := by
  have room := contested_facts.2.1
  have permits : ((approveGuide "p1").program sampleManager.toLowercase).Permits (ManagerCall.exec sampleManager)
      (Unraced sampleManager) [] contested := approvePromotion_unraced (fun _ _ _ found => contested_open found)
  obtain ⟨thread, run⟩ := WinningCall.pool_alone permits
    ((approveGuide_reaches rfl contested_first).trans (approveGuide_stores (w := contested.advance.advance.advance.advance) room))
  refine ⟨_, ?_, unraced_run_one_winner _ run contested_placed contested_oneWinner⟩
  exact (keep_stored (approvedGuide "p1") room 1 _ _).trans (if_pos rfl)

theorem racing_approvals_both_win : ∃ pool : WinningPool Bool,
    Run (ManagerCall.exec sampleManager) (fun _ _ _ => True) (WinningCall.pool sampleManager
      (fun second => approveGuide (if second then "p2" else "p1")) contested) pool ∧
    contested.Placed sampleManager ∧ contested.OneWinner sampleManager ∧
    pool.state.stored sampleManager "acme" "p1" = some (approvedGuide "p1") ∧
    pool.state.stored sampleManager "acme" "p2" = some (approvedGuide "p2") ∧
      ¬ pool.state.OneWinner sampleManager := by
  have all : ∀ (notes : List (Note Answer)) (c : ManagerCall) (w : Workspace), True :=
    fun _ _ _ => trivial
  have beginning : Run (ManagerCall.exec sampleManager) (fun _ _ _ => True) (WinningCall.pool sampleManager
    (fun second : Bool => approveGuide (if second then "p2" else "p1")) contested) _ := .start
  obtain ⟨notes, run⟩ := Run.reaches all beginning (i := false) (approveGuide_reaches rfl contested_first)
  obtain ⟨notes', run⟩ := Run.reaches all run (i := true)
    (approveGuide_reaches (w := contested.advance.advance.advance.advance) rfl contested_second)
  have firstRoom : contested.advance.advance.advance.advance.advance.advance.advance.advance.repo.files.Room
      (sampleManager.requestPath "acme" "p1") := contested_facts.2.1
  obtain ⟨notes₁, run⟩ := Run.reaches all run (i := false) (approveGuide_stores firstRoom)
  have secondRoom : (contested.advance.advance.advance.advance.advance.advance.advance.advance.keep sampleManager
      (approvedGuide "p1") 1).repo.files.Room (sampleManager.requestPath "acme" "p2") := contested_facts.2.2.1
  obtain ⟨notes₂, run⟩ := Run.reaches all run (i := true) (approveGuide_stores secondRoom)
  have second := keep_stored (approvedGuide "p2") secondRoom 1
  have first := keep_stored (approvedGuide "p1") firstRoom 1
  have storedSecond := (second "acme" "p2").trans (if_pos rfl)
  have storedFirst := (second "acme" "p1").trans ((if_neg contested_facts.2.2.2).trans
    ((first "acme" "p1").trans (if_pos rfl)))
  refine ⟨_, run, contested_placed, contested_oneWinner, storedFirst, storedSecond, fun unique => ?_⟩
  have same := unique "acme" "p1" _ "acme" "p2" _ storedFirst storedSecond (Or.inl rfl) (Or.inl rfl) rfl rfl
  exact absurd (congrArg PromotionRequest.id same) (by decide)

end Aeterna
