import Aeterna.Knowledge.PromotionStore

namespace Aeterna
open Lib KnowledgeManager

section
variable (env : ManagerEnv)

def aloneContract : Contract ManagerCall.Answer Workspace where
  exec := ManagerCall.exec env
  inv _ := True
  rely := Eq
  guar _ _ := True
  ok _ _ _ := True

def Workspace.sourceIn (w : Workspace) (tenantId id : String) : List KnowledgeLayer →
    Option (KnowledgeLayer × KnowledgeStatus)
  | [] => none
  | layer :: rest =>
    match w.repo.getInner (env.config tenantId 0) layer id with
    | .error _ => none
    | .ok (some entry) => some (entry.layer, entry.status)
    | .ok none => w.sourceIn tenantId id rest

def Workspace.source (w : Workspace) (tenantId id : String) : Option (KnowledgeLayer × KnowledgeStatus) :=
  w.sourceIn env tenantId id [.project, .team, .org, .tenant]

end

structure Untouched (w next : Workspace) : Prop where
  repo : next.repo = w.repo
  drawn : w.drawn ≤ next.drawn

theorem Untouched.refl (w : Workspace) : Untouched w w := ⟨rfl, le_refl _⟩

theorem Untouched.trans {a b c : Workspace} (first : Untouched a b) (second : Untouched b c) : Untouched a c :=
  ⟨second.repo.trans first.repo, first.drawn.trans second.drawn⟩

section
variable {env : ManagerEnv} {ctx : TenantContext} {notes : List (Note ManagerCall.Answer)}
  {w : Workspace} {α β : Type}

theorem exec_drawn (c : ManagerCall) (w : Workspace) : w.drawn ≤ (c.exec env w).2.drawn := by
  have read : ∀ {α : Type} (answer : Except String α), (ManagerCall.reading env w answer).2.drawn = w.drawn := by
    intro α answer
    unfold ManagerCall.reading
    split <;> rfl
  cases c with
  | newId => exact Nat.le_succ _
  | getPromotionRequest tenantId id => exact le_of_eq (read _).symm
  | listPromotionRequests tenantId => exact le_of_eq (read _).symm
  | get tenantId layer path => exact le_of_eq (read _).symm
  | getRelationsForItem tenantId itemId => exact le_of_eq (read _).symm
  | _ => exact le_refl _

theorem reads_repo {c : ManagerCall} (reads : c.Reads) (w : Workspace) : (c.exec env w).2.repo = w.repo := by
  have read : ∀ {α : Type} (answer : Except String α), (ManagerCall.reading env w answer).2.repo = w.repo := by
    intro α answer
    unfold ManagerCall.reading
    split <;> rfl
  cases c with
  | getPromotionRequest tenantId id => exact read _
  | listPromotionRequests tenantId => exact read _
  | get tenantId layer path => exact read _
  | getRelationsForItem tenantId itemId => exact read _
  | storePromotionRequest tenantId request => exact reads.elim
  | store tenantId entry message => exact reads.elim
  | storeRelation tenantId relation => exact reads.elim
  | _ => rfl

theorem reads_untouched {c : ManagerCall} (reads : c.Reads) (w : Workspace) : Untouched w (c.exec env w).2 :=
  ⟨reads_repo reads w, exec_drawn c w⟩

variable {post : Except KnowledgeManagerError β → List (Note ManagerCall.Answer) → Workspace → Prop}
variable {tenantId : String} {found : Option KnowledgeEntry} {next : Workspace}

theorem reads_seq {program : ManagerM α} {f : α → ManagerM β}
    (uses : program.Uses ManagerCall.Reads) (failed : ∀ e later last, Untouched w last → post (.error e) later last)
    (rest : ∀ a later last, Untouched w last → (f a).Meets (aloneContract env) post later last) :
    (program >>= f).Meets (aloneContract env) post notes w := by
  have read : program.Meets (aloneContract env) (fun _ later last => notes <:+ later ∧ Untouched w last) notes w := by
    refine uses.meets .refl .trans ?_ ?_
    · rintro a b rfl
      exact .refl a
    · exact fun c reads _ t _ _ => ⟨trivial, trivial, reads_untouched reads t⟩
  refine read.seq ?_ ?_
  · exact fun e later last reached => failed e later last reached.2
  · exact fun a later last reached => rest a later last reached.2

theorem loadPromotion_seq {promotionId : String} {f : PromotionRequest → ManagerM β}
    (failed : ∀ e later last, Untouched w last → post (.error e) later last)
    (rest : ∀ request later last, Untouched w last → w.stored env ctx.tenantId promotionId = some request →
    (f request).Meets (aloneContract env) post later last) :
    (loadPromotion ctx promotionId >>= f).Meets (aloneContract env) post notes w := by
  have read : Untouched w ((ManagerCall.getPromotionRequest ctx.tenantId promotionId).exec env w).2 :=
    reads_untouched (c := .getPromotionRequest ctx.tenantId promotionId) trivial w
  refine Program.Meets.bind (Program.Meets.bind ?_)
  rintro _ rfl - -
  refine ⟨trivial, trivial, Program.Meets.bind (Program.Meets.orFail ?_ (fun _ _ => failed _ _ _ read))⟩
  intro found answer
  cases found with
  | none => exact failed _ _ _ read
  | some request => exact rest request _ _ read (exec_getPromotionRequest answer)

theorem enforceTenantMatch_alone {f : Unit → ManagerM β} (failed : ∀ e, post (.error e) notes w)
    (rest : ctx.tenantId = tenantId → (f ()).Meets (aloneContract env) post notes w) :
    (enforceTenantMatch ctx tenantId >>= f).Meets (aloneContract env) post notes w := by
  refine Program.Meets.bind (Program.Meets.bind (Program.Meets.failIf (fun _ => ?_) (fun _ => failed _)))
  exact Program.Meets.failIf (fun same => rest (not_not.mp same)) (fun _ => failed _)

theorem getInner_tick {tick : Nat} {layer : KnowledgeLayer} {path : String}
    (read : w.repo.getInner (env.config tenantId tick) layer path = .ok found) :
    ∃ other, w.repo.getInner (env.config tenantId 0) layer path = .ok other ∧
      other.map (fun entry => (entry.layer, entry.status)) = found.map
        (fun entry => (entry.layer, entry.status)) := by
  have paths : (env.config tenantId tick).resolvePath layer path = (env.config tenantId 0).resolvePath layer path :=
    rfl
  have parses : (env.config tenantId tick).parseSidecar = (env.config tenantId 0).parseSidecar := rfl
  unfold GitRepository.getInner at read ⊢
  rw [paths, parses] at read
  simp only [bind, Except.bind, pure, Except.pure] at read ⊢
  cases shape : w.repo.files.read ((env.config tenantId 0).resolvePath layer path) with
  | error message => simp [shape] at read
  | ok content =>
    simp only [shape] at read ⊢
    cases content with
    | none =>
      cases read
      exact ⟨none, rfl, rfl⟩
    | some content =>
      simp only at read ⊢
      cases beside : w.repo.files.read (metadataPath ((env.config tenantId 0).resolvePath layer path)) with
      | error message => simp [beside] at read
      | ok text =>
        simp only [beside] at read ⊢
        cases text with
        | none =>
          cases read
          exact ⟨_, rfl, rfl⟩
        | some text =>
          simp only at read ⊢
          cases parsed : (env.config tenantId 0).parseSidecar text with
          | error message => simp [parsed] at read
          | ok fields =>
            simp only [parsed] at read ⊢
            cases read
            exact ⟨_, rfl, rfl⟩

theorem exec_get {layer : KnowledgeLayer} {path : String}
    (answer : ((ManagerCall.get tenantId layer path).exec env w).1 = .ok found) :
    w.repo.getInner (env.config tenantId w.tick) layer path = .ok found := by
  simp only [ManagerCall.exec, ManagerCall.reading] at answer
  split at answer
  · cases answer
  · exact answer

theorem sourceIn_of_repo (same : next.repo = w.repo) (tenantId id : String) (layers : List KnowledgeLayer) :
    next.sourceIn env tenantId id layers = w.sourceIn env tenantId id layers := by
  induction layers with
  | nil => rfl
  | cons layer rest ih =>
    unfold Workspace.sourceIn
    rw [same, ih]

theorem Untouched.source (untouched : Untouched w next) {id : String} :
    next.source env tenantId id = w.source env tenantId id :=
  sourceIn_of_repo untouched.repo _ _ _

theorem Untouched.stored (untouched : Untouched w next) (tenantId id : String) :
    next.stored env tenantId id = w.stored env tenantId id :=
  stored_of_lookup (by rw [untouched.repo])

theorem findInLayers_finds (id : String) (layers : List KnowledgeLayer) :
    (findInLayers ctx id layers).Meets (aloneContract env) (fun outcome _ last => Untouched w last ∧
      ∀ entry, outcome = .ok (some entry) →
        w.sourceIn env ctx.tenantId id layers = some (entry.layer, entry.status)) notes w := by
  induction layers generalizing notes w with
  | nil => exact ⟨.refl w, fun _ => nofun⟩
  | cons layer rest ih =>
    have same : Untouched w ((ManagerCall.get ctx.tenantId layer id).exec env w).2 :=
      reads_untouched (c := .get ctx.tenantId layer id) trivial w
    refine Program.Meets.bind ?_
    rintro _ rfl - -
    refine ⟨trivial, trivial, Program.Meets.bind (Program.Meets.orFail ?_ (fun _ _ => ⟨same, fun _ => nofun⟩))⟩
    intro found answer
    obtain ⟨other, read, alike⟩ := getInner_tick (exec_get answer)
    cases found with
    | some entry =>
      refine ⟨same, fun source outcome => ?_⟩
      cases outcome
      obtain ⟨witness, rfl, pair⟩ := Option.map_eq_some_iff.mp alike
      unfold Workspace.sourceIn
      rw [read]
      exact congrArg some pair
    | none =>
      have missing : w.sourceIn env ctx.tenantId id (layer :: rest) =
          ((ManagerCall.get ctx.tenantId layer id).exec env w).2.sourceIn env ctx.tenantId id rest := by
        rw [Option.map_eq_none_iff.mp alike] at read
        rw [Workspace.sourceIn, read, sourceIn_of_repo same.repo]
      refine ih.mono ?_
      rintro outcome _ last ⟨kept, finds⟩
      rw [missing]
      exact ⟨same.trans kept, finds⟩

theorem findSource_seq {id : String} {f : KnowledgeEntry → ManagerM β}
    (failed : ∀ e later last, Untouched w last → post (.error e) later last)
    (rest : ∀ entry later last, Untouched w last →
    w.source env ctx.tenantId id = some (entry.layer, entry.status) →
    (f entry).Meets (aloneContract env) post later last) :
    (findSource ctx id >>= f).Meets (aloneContract env) post notes w := by
  refine Program.Meets.bind ((findInLayers_finds id _).seq ?_ ?_)
  · exact fun e later last reached => failed e later last reached.1
  · rintro found later last ⟨same, finds⟩
    cases found with
    | none => exact failed _ later last same
    | some entry => exact rest entry later last same (finds entry rfl)

end

end Aeterna
