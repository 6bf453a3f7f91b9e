import Mathlib.Data.List.Dedup
import Aeterna.Sync.Convergence
import Aeterna.Sync.Reachable

namespace Aeterna.Sync
open Lib Links List Eff

variable (env : Env) (knowledge : Knowledge)

def Links.forgetHash (knowledgeId : String) (l : Links) : Links :=
  { l with hashes := l.hashes.erase knowledgeId }

def Links.deleteEverywhere (memoryId : String) (l : Links) : Links :=
  KnowledgeLayer.walk.foldl (fun l layer => l.deleteMemory (mapLayer layer) memoryId) l

def Links.resyncFrom (layer : KnowledgeLayer) (path : String) (l : Links) : Links :=
  match knowledge.get layer path with
  | some entry => l.settle env entry
  | none => l

def Links.resyncRecorded (path : String) (l : Links) : Links :=
  l.resyncFrom env knowledge ((l.layers.lookup path).getD .tenant) path

/-- `resolve_conflicts` for one conflict. Duplicates do not arise from the bridge's own pointers. -/
def Links.resolve (l : Links) : SyncConflict → Links
  | .hashMismatch path _ _ _ | .missingPointer path _ => (l.forgetHash path).resyncRecorded env knowledge path
  | .orphanedPointer memoryId path => (l.deleteEverywhere memoryId).forget path memoryId
  | .statusChange path _ _ => l.resyncRecorded env knowledge path
  | .layerMismatch path memoryId expected actual =>
    ((l.deleteMemory (mapLayer expected) memoryId).forget path memoryId).resyncFrom env knowledge actual path
  | .duplicatePointer _ _ | .detectionError _ _ => l

/-- A conflict that resolution carries out without an error of its own. -/
def SyncConflict.Sound (conflict : SyncConflict) : Prop :=
  ∃ path, conflict.About (pointerId path) path ∧ simulatesFailure path = false

variable {env knowledge}

section
variable (clean : env.Clean) (steady : env.Steady knowledge) {path : String}
  (real : simulatesFailure path = false)
include clean steady real

theorem resyncFrom_clean (layer : KnowledgeLayer) (w : World) : ∃ next, resyncFrom env layer path w = (.ok (), next) ∧
      next.links = w.links.resyncFrom env knowledge layer path ∧ SameRecords w next := by
  unfold resyncFrom Links.resyncFrom
  rw [bind_of_ok (getEntry_clean clean steady layer path w)]
  cases found : knowledge.get layer path with
  | none => exact ⟨w.advance, rfl, rfl, .advance w⟩
  | some entry =>
    obtain ⟨next, run, links, same⟩ := syncEntry_clean clean entry w.advance
    rw [(knowledge.get_sound found).1, real] at run
    exact ⟨next, run, links, (SameRecords.advance w).trans same⟩

theorem resyncRecorded_clean (w : World) : ∃ next, resyncRecorded env path w = (.ok (), next) ∧
      next.links = w.links.resyncRecorded env knowledge path ∧ SameRecords w next :=
  resyncFrom_clean clean steady real _ w

end

theorem forgetHash_run (path : String) (w : World) :
    ∃ next, forgetHash path w = (.ok (), next) ∧ next.links = w.links.forgetHash path ∧ SameRecords w next :=
  ⟨_, rfl, rfl, ⟨rfl, rfl, rfl, rfl, rfl, rfl⟩⟩

theorem deleteEverywhere_clean (clean : env.Clean) (memoryId : String) (w : World) :
    ∃ next, deleteEverywhere env memoryId w = (.ok (), next) ∧
      next.links = w.links.deleteEverywhere memoryId ∧ SameRecords w next := by
  have each : ∀ (layers : List KnowledgeLayer) (w : World), ∃ next,
      forEach (fun layer => (callMemory env (.delete (mapLayer layer) memoryId)).ignore) layers w =
        (.ok (), next) ∧
      next.links = layers.foldl (fun l layer => l.deleteMemory (mapLayer layer) memoryId) w.links ∧
      SameRecords w next := by
    intro layers
    induction layers with
    | nil => exact fun w => ⟨w, rfl, rfl, .refl w⟩
    | cons layer rest ih =>
      intro w
      obtain ⟨w₁, run₁, links₁, same₁⟩ := deleteMemory_clean clean (mapLayer layer) memoryId w
      obtain ⟨w₂, run₂, links₂, same₂⟩ := ih w₁
      refine ⟨w₂, ?_, by rw [links₂, links₁, foldl_cons], same₁.trans same₂⟩
      unfold forEach
      rw [bind_of_ok run₁, run₂]
  exact each KnowledgeLayer.walk w

section
variable (clean : env.Clean) (steady : env.Steady knowledge)
include clean steady

theorem resolveConflict_clean {conflict : SyncConflict} (sound : conflict.Sound) (w : World) :
    ∃ next, resolveConflict env conflict w = (.ok (), next) ∧
      next.links = w.links.resolve env knowledge conflict ∧ SameRecords w next := by
  obtain ⟨path, about, real⟩ := sound
  cases conflict with
  | duplicatePointer _ _ => exact about.elim
  | detectionError _ _ => exact about.elim
  | hashMismatch k _ _ _ =>
    obtain ⟨rfl, -⟩ := about
    obtain ⟨w₁, run₁, links₁, same₁⟩ := forgetHash_run k w
    obtain ⟨w₂, run₂, links₂, same₂⟩ := resyncRecorded_clean clean steady real w₁
    refine ⟨w₂, ?_, by rw [links₂, links₁]; rfl, same₁.trans same₂⟩
    exact (bind_of_ok run₁).trans run₂
  | missingPointer k _ =>
    obtain ⟨rfl, -⟩ := about
    obtain ⟨w₁, run₁, links₁, same₁⟩ := forgetHash_run k w
    obtain ⟨w₂, run₂, links₂, same₂⟩ := resyncRecorded_clean clean steady real w₁
    refine ⟨w₂, ?_, by rw [links₂, links₁]; rfl, same₁.trans same₂⟩
    exact (bind_of_ok run₁).trans run₂
  | orphanedPointer memoryId k =>
    obtain ⟨w₁, run₁, links₁, same₁⟩ := deleteEverywhere_clean clean memoryId w
    obtain ⟨w₂, run₂, links₂, same₂⟩ := forget_run k memoryId w₁
    refine ⟨w₂, ?_, by rw [links₂, links₁]; rfl, same₁.trans same₂⟩
    exact (bind_of_ok run₁).trans run₂
  | statusChange k _ _ =>
    obtain ⟨rfl, -⟩ := about
    exact resyncRecorded_clean clean steady real w
  | layerMismatch k memoryId expected actual =>
    obtain ⟨rfl, -⟩ := about
    obtain ⟨w₁, run₁, links₁, same₁⟩ := deleteMemory_clean clean (mapLayer expected) memoryId w
    obtain ⟨w₂, run₂, links₂, same₂⟩ := forget_run k memoryId w₁
    obtain ⟨w₃, run₃, links₃, same₃⟩ := resyncFrom_clean clean steady real actual w₂
    refine ⟨w₃, ?_, by rw [links₃, links₂, links₁]; rfl, (same₁.trans same₂).trans same₃⟩
    exact (bind_of_ok run₁).trans ((bind_of_ok run₂).trans run₃)

theorem resolveLoaded_clean {conflicts : List SyncConflict} (sound : ∀ conflict ∈ conflicts, conflict.Sound) (w : World) :
    ∃ next, resolveLoaded env conflicts w = (.ok (), next) ∧
      next.links = conflicts.foldl (resolve env knowledge) w.links ∧ SameRecords w next := by
  induction conflicts generalizing w with
  | nil => exact ⟨w, rfl, rfl, .refl w⟩
  | cons conflict rest ih =>
    obtain ⟨w₁, run₁, links₁, same₁⟩ :=
      resolveConflict_clean clean steady (sound conflict mem_cons_self) w
    obtain ⟨w₂, run₂, links₂, same₂⟩ := ih (fun c member => sound c (mem_cons_of_mem _ member)) w₁
    refine ⟨w₂, ?_, by rw [links₂, links₁, foldl_cons], same₁.trans same₂⟩
    exact (bind_of_ok run₁).trans run₂

theorem resolveConflicts_clean {conflicts : List SyncConflict} (sound : ∀ conflict ∈ conflicts, conflict.Sound) (w : World) :
    ∃ next, resolveConflicts env conflicts w = (.ok (), next) ∧
      next.links = conflicts.foldl (resolve env knowledge) (linksOf w.current w.memory) ∧
      Published next := by
  obtain ⟨w₁, run₁, working, memory, -⟩ := beginOperation_clean clean w
  obtain ⟨w₂, run₂, links₂, -⟩ := resolveLoaded_clean clean steady sound w₁
  obtain ⟨w₃, run₃, working₃, memory₃, published⟩ := persistWorking_clean clean w₂
  refine ⟨w₃, ?_, ?_, published⟩
  · exact (bind_of_ok run₁).trans ((bind_of_ok run₂).trans run₃)
  · have kept : w₃.links = w₂.links := by simp only [World.links, working₃, memory₃]
    rw [kept, links₂, World.links, working, memory]

end

def Cell.deleteEverywhere (c : Cell) : Cell :=
  KnowledgeLayer.walk.foldl (fun c layer => c.deleteMemory (mapLayer layer)) c

variable (env knowledge) in
def Cell.resyncFrom (layer : KnowledgeLayer) (path : String) (c : Cell) : Cell :=
  match knowledge.get layer path with
  | some entry => c.settle env entry
  | none => c

variable (env knowledge) in
def Cell.resyncRecorded (path : String) (c : Cell) : Cell :=
  c.resyncFrom env knowledge (c.layer.getD .tenant) path

variable (env knowledge) in
def Cell.resolve (c : Cell) : SyncConflict → Cell
  | .hashMismatch path _ _ _ | .missingPointer path _ =>
    { c with hash := none }.resyncRecorded env knowledge path
  | .orphanedPointer _ _ => c.deleteEverywhere.forget
  | .statusChange path _ _ => c.resyncRecorded env knowledge path
  | .layerMismatch path _ expected actual =>
    (c.deleteMemory (mapLayer expected)).forget.resyncFrom env knowledge actual path
  | .duplicatePointer _ _ | .detectionError _ _ => c

section
variable (l : Links)
include l

theorem cell_forgetHash_same (path : String) : (l.forgetHash path).cell path = { l.cell path with hash := none } := by
  simp [cell, Links.forgetHash]

theorem cell_forgetHash_other {path other : String} (different : other ≠ path) :
    (l.forgetHash path).cell other = l.cell other := by
  simp [cell, Links.forgetHash, AList.lookup_erase_ne different]

theorem cell_deleteEverywhere_same (path : String) :
    (l.deleteEverywhere (pointerId path)).cell path = (l.cell path).deleteEverywhere := by
  simp [Links.deleteEverywhere, Cell.deleteEverywhere, KnowledgeLayer.walk, cell_deleteMemory_same]

theorem cell_deleteEverywhere_other {path other : String} (different : other ≠ path) :
    (l.deleteEverywhere (pointerId path)).cell other = l.cell other := by
  simp [Links.deleteEverywhere, KnowledgeLayer.walk, cell_deleteMemory_other _ _ different]

theorem cell_resyncFrom_same (layer : KnowledgeLayer) (path : String) :
    (l.resyncFrom env knowledge layer path).cell path = (l.cell path).resyncFrom env knowledge layer path := by
  unfold Links.resyncFrom Cell.resyncFrom
  cases found : knowledge.get layer path with
  | none => rfl
  | some entry =>
    obtain ⟨rfl, -⟩ := knowledge.get_sound found
    exact settle_keyed.same l entry trivial

theorem cell_resyncFrom_other (layer : KnowledgeLayer) {path other : String}
    (different : other ≠ path) : (l.resyncFrom env knowledge layer path).cell other = l.cell other := by
  unfold Links.resyncFrom
  cases found : knowledge.get layer path with
  | none => rfl
  | some entry =>
    obtain ⟨rfl, -⟩ := knowledge.get_sound found
    exact settle_keyed.other l entry other trivial different

theorem cell_resyncRecorded_same (path : String) :
    (l.resyncRecorded env knowledge path).cell path = (l.cell path).resyncRecorded env knowledge path :=
  cell_resyncFrom_same l _ path

theorem cell_resyncRecorded_other {path other : String} (different : other ≠ path) :
    (l.resyncRecorded env knowledge path).cell other = l.cell other :=
  cell_resyncFrom_other l _ different

end

def SyncConflict.path (conflict : SyncConflict) : String := conflict.knowledgeId.getD ""

theorem SyncConflict.About.path_eq {conflict : SyncConflict} {memoryId path : String}
    (about : conflict.About memoryId path) : conflict.path = path := by
  simp [SyncConflict.path, about.knowledgeId]

theorem resolve_keyed : Keyed SyncConflict.Sound cell SyncConflict.path
    (resolve env knowledge) (Cell.resolve env knowledge) where
  same l conflict sound := by
    obtain ⟨path, about, -⟩ := sound
    rw [about.path_eq]
    cases conflict with
    | duplicatePointer _ _ => rfl
    | detectionError _ _ => rfl
    | hashMismatch k m _ _ =>
      obtain ⟨rfl, rfl⟩ := about
      rw [resolve, cell_resyncRecorded_same, cell_forgetHash_same, Cell.resolve]
    | missingPointer k m =>
      obtain ⟨rfl, rfl⟩ := about
      rw [resolve, cell_resyncRecorded_same, cell_forgetHash_same, Cell.resolve]
    | orphanedPointer m k =>
      obtain ⟨rfl, rfl⟩ := about
      rw [resolve, cell_forget_same, cell_deleteEverywhere_same, Cell.resolve]
    | statusChange k m _ =>
      obtain ⟨rfl, rfl⟩ := about
      rw [resolve, cell_resyncRecorded_same, Cell.resolve]
    | layerMismatch k m expected actual =>
      obtain ⟨rfl, rfl⟩ := about
      rw [resolve, cell_resyncFrom_same, cell_forget_same, cell_deleteMemory_same, Cell.resolve]
  other l conflict other sound different := by
    obtain ⟨path, about, -⟩ := sound
    rw [about.path_eq] at different
    cases conflict with
    | duplicatePointer _ _ => rfl
    | detectionError _ _ => rfl
    | hashMismatch k m _ _ =>
      obtain ⟨rfl, rfl⟩ := about
      rw [resolve, cell_resyncRecorded_other _ different, cell_forgetHash_other _ different]
    | missingPointer k m =>
      obtain ⟨rfl, rfl⟩ := about
      rw [resolve, cell_resyncRecorded_other _ different, cell_forgetHash_other _ different]
    | orphanedPointer m k =>
      obtain ⟨rfl, rfl⟩ := about
      rw [resolve, cell_forget_other _ different, cell_deleteEverywhere_other _ different]
    | statusChange k m _ =>
      obtain ⟨rfl, rfl⟩ := about
      rw [resolve, cell_resyncRecorded_other _ different]
    | layerMismatch k m expected actual =>
      obtain ⟨rfl, rfl⟩ := about
      rw [resolve, cell_resyncFrom_other _ _ different, cell_forget_other _ different,
        cell_deleteMemory_other _ _ different]

variable (env knowledge) in
def Cell.conflicts (path : String) (c : Cell) : List SyncConflict :=
  let layer := c.layer.getD .tenant
  match knowledge.get layer path with
  | some entry =>
    entryConflicts env c.hash (pointerId path) path layer entry ++
      memoryConflicts env (pointerId path) path entry (.ok (c.memory (mapLayer entry.layer)))
  | none =>
    match elsewhere knowledge layer path with
    | some other => [.layerMismatch path (pointerId path) layer other]
    | none => [.orphanedPointer (pointerId path) path]

theorem pointerConflicts_cell (l : Links) (path : String) :
    l.pointerConflicts env knowledge (pointerId path) path = (l.cell path).conflicts env knowledge path := rfl

/-- The statuses that `detect_conflicts` reports as a change. -/
def Retired (entry : KnowledgeEntry) : Prop := entry.status = .deprecated ∨ entry.status = .superseded

instance (entry : KnowledgeEntry) : Decidable (Retired entry) := inferInstanceAs (Decidable (_ ∨ _))

variable (env) in
def Cell.Matches (c : Cell) (entry : KnowledgeEntry) : Prop :=
  (∀ recorded, c.hash = some recorded → recorded = env.contentHash.digest entry.content) ∧
    c.memory (mapLayer entry.layer) = some (syncedSummary env entry)

section
variable {path : String} {entry : KnowledgeEntry} {c : Cell}

theorem conflicts_found (found : knowledge.get (c.layer.getD .tenant) path = some entry) :
    c.conflicts env knowledge path = entryConflicts env c.hash (pointerId path) path entry.layer entry ++
        memoryConflicts env (pointerId path) path entry (.ok (c.memory (mapLayer entry.layer))) := by
  have home := (knowledge.get_sound found).2
  simp only [Cell.conflicts, found, home]

def SyncConflict.Rewrites : SyncConflict → Prop
  | .hashMismatch _ _ _ _ | .missingPointer _ _ => True
  | _ => False

def SyncConflict.Reloads (path : String) : SyncConflict → Prop
  | .hashMismatch k _ _ _ | .missingPointer k _ | .statusChange k _ _ => k = path
  | _ => False

theorem conflicts_found_reload (found : knowledge.get (c.layer.getD .tenant) path = some entry)
    {conflict : SyncConflict} (member : conflict ∈ c.conflicts env knowledge path) :
    conflict.Reloads path := by
  rw [conflicts_found found] at member
  simp only [entryConflicts, ne_eq, not_true_eq_false, if_false, append_nil, mem_append] at member
  rcases member with (hash | status) | memory
  · split at hash
    · split at hash
      · rw [mem_singleton.mp hash]
        rfl
      · simp at hash
    · simp at hash
  · split at status
    · rw [mem_singleton.mp status]
      rfl
    · simp at status
  · cases stored : c.memory (mapLayer entry.layer) with
    | none =>
      rw [stored, memoryConflicts] at memory
      rw [mem_singleton.mp memory]
      rfl
    | some text =>
      rw [stored, memoryConflicts] at memory
      split at memory
      · rw [mem_singleton.mp memory]
        rfl
      · simp at memory

theorem entryConflicts_nil_iff {recorded : Option String} {memoryId : String} :
    entryConflicts env recorded memoryId path entry.layer entry = [] ↔
      ¬ Retired entry ∧ ∀ hash, recorded = some hash → hash = env.contentHash.digest entry.content := by
  unfold Retired
  cases recorded with
  | none => simp [entryConflicts]
  | some hash => simp [entryConflicts, and_comm]

theorem memoryConflicts_nil_iff {memoryId : String} {content : Option String} :
    memoryConflicts env memoryId path entry (.ok content) = [] ↔ content = some (syncedSummary env entry) := by
  cases content with
  | none => simp [memoryConflicts]
  | some text => simp [memoryConflicts, syncedSummary]

theorem conflicts_nil_iff (found : knowledge.get (c.layer.getD .tenant) path = some entry) :
    c.conflicts env knowledge path = [] ↔ ¬ Retired entry ∧ c.Matches env entry := by
  rw [conflicts_found found, append_eq_nil_iff, entryConflicts_nil_iff, memoryConflicts_nil_iff,
    and_assoc]
  rfl

theorem conflicts_rewrites (found : knowledge.get (c.layer.getD .tenant) path = some entry)
    (apart : ¬ c.Matches env entry) : ∃ conflict ∈ c.conflicts env knowledge path, conflict.Rewrites := by
  rw [conflicts_found found]
  by_cases memory : c.memory (mapLayer entry.layer) = some (syncedSummary env entry)
  · have stale : ¬ ∀ recorded, c.hash = some recorded → recorded = env.contentHash.digest entry.content :=
      fun fresh => apart ⟨fresh, memory⟩
    push Not at stale
    obtain ⟨recorded, onRecord, different⟩ := stale
    refine ⟨.hashMismatch path (pointerId path) recorded (env.contentHash.digest entry.content), ?_, trivial⟩
    simp [entryConflicts, onRecord, different]
  · cases stored : c.memory (mapLayer entry.layer) with
    | none =>
      refine ⟨.missingPointer path (pointerId path), ?_, trivial⟩
      simp [memoryConflicts]
    | some text =>
      refine ⟨.hashMismatch path (pointerId path) "summary_mismatch" "summary_mismatch", ?_, trivial⟩
      have different : text ≠ generateSummary entry (redactPii env.decimalDigit entry.content) := by
        intro same
        exact memory (by rw [stored, same]; rfl)
      simp [memoryConflicts, different]

theorem record_record (c : Cell) : (c.record env entry).record env entry = c.record env entry := by
  simp [Cell.record]

theorem settle_cases (c : Cell) : c.settle env entry = c ∨ c.settle env entry = c.record env entry := by
  unfold Cell.settle
  split
  · exact .inr rfl
  · exact .inl rfl

theorem resync_of_found (found : knowledge.get (c.layer.getD .tenant) path = some entry) :
    c.resyncRecorded env knowledge path = c.settle env entry := by
  simp [Cell.resyncRecorded, Cell.resyncFrom, found]

theorem settle_forgotten (real : simulatesFailure entry.path = false) (fresh : c.hash = none) :
    c.settle env entry = c.record env entry := by
  rw [Cell.settle, if_pos]
  exact ⟨real, by simp [fresh]⟩

theorem resolve_reload (found : knowledge.get (c.layer.getD .tenant) path = some entry)
    (real : simulatesFailure path = false) {conflict : SyncConflict} (reloads : conflict.Reloads path) :
    (c.resolve env knowledge conflict = c ∨ c.resolve env knowledge conflict = c.record env entry) ∧
      (conflict.Rewrites → c.resolve env knowledge conflict = c.record env entry) := by
  have named := (knowledge.get_sound found).1
  have rewritten : ({ c with hash := none } : Cell).resyncRecorded env knowledge path = c.record env entry := by
    have foundStill : knowledge.get (({ c with hash := none } : Cell).layer.getD .tenant) path = some entry := found
    rw [resync_of_found foundStill, settle_forgotten (by rw [named]; exact real) rfl]
    rfl
  cases conflict with
  | hashMismatch k _ _ _ =>
    cases reloads
    exact ⟨.inr rewritten, fun _ => rewritten⟩
  | missingPointer k _ =>
    cases reloads
    exact ⟨.inr rewritten, fun _ => rewritten⟩
  | statusChange k _ _ =>
    cases reloads
    refine ⟨?_, False.elim⟩
    simp only [Cell.resolve, resync_of_found found]
    exact settle_cases c
  | orphanedPointer _ _ => exact reloads.elim
  | duplicatePointer _ _ => exact reloads.elim
  | layerMismatch _ _ _ _ => exact reloads.elim
  | detectionError _ _ => exact reloads.elim

theorem found_after_record (found : knowledge.get (c.layer.getD .tenant) path = some entry) :
    knowledge.get ((c.record env entry).layer.getD .tenant) path = some entry := by
  rw [(knowledge.get_sound found).2.symm] at found
  exact found

theorem resolve_reloads (real : simulatesFailure path = false) {conflicts : List SyncConflict}
    (reloads : ∀ conflict ∈ conflicts, conflict.Reloads path)
    (found : knowledge.get (c.layer.getD .tenant) path = some entry) :
    (conflicts.foldl (Cell.resolve env knowledge) c = c ∨
      conflicts.foldl (Cell.resolve env knowledge) c = c.record env entry) ∧
    ((∃ conflict ∈ conflicts, conflict.Rewrites) →
      conflicts.foldl (Cell.resolve env knowledge) c = c.record env entry) := by
  induction conflicts generalizing c with
  | nil => exact ⟨.inl rfl, fun ⟨_, member, _⟩ => by simp at member⟩
  | cons conflict rest ih =>
    have later : ∀ other ∈ rest, other.Reloads path :=
      fun other member => reloads other (mem_cons_of_mem _ member)
    obtain ⟨either, rewrites⟩ := resolve_reload found real (reloads conflict mem_cons_self)
    rw [foldl_cons]
    rcases either with same | written
    · rw [same]
      obtain ⟨ends, lastly⟩ := ih later found
      refine ⟨ends, ?_⟩
      rintro ⟨other, member, heavy⟩
      rcases mem_cons.mp member with rfl | inside
      · -- the cell was already as written, so whatever follows leaves it so
        have fixed : c = c.record env entry := same.symm.trans (rewrites heavy)
        rcases ends with kept | written
        · rw [kept]
          exact fixed
        · exact written
      · exact lastly ⟨other, inside, heavy⟩
    · rw [written]
      obtain ⟨ends, -⟩ := ih later (found_after_record found)
      have settled : rest.foldl (Cell.resolve env knowledge) (c.record env entry) = c.record env entry := by
        rcases ends with kept | again
        · exact kept
        · rw [again, record_record]
      exact ⟨.inr settled, fun _ => settled⟩

theorem conflicts_record_iff (found : knowledge.get entry.layer path = some entry) (c : Cell) :
    (c.record env entry).conflicts env knowledge path = [] ↔
      ¬ Retired entry ∧ redactPii env.decimalDigit entry.content = entry.content := by
  have home : knowledge.get ((c.record env entry).layer.getD .tenant) path = some entry := found
  rw [conflicts_nil_iff home]
  refine and_congr_right (fun _ => ?_)
  constructor
  · rintro ⟨hash, -⟩
    exact env.contentHash.injective (hash _ rfl)
  · intro plain
    refine ⟨?_, by simp [Cell.record]⟩
    rintro recorded ⟨⟩
    rw [syncedHash, plain]

end

/-- The entry a pointer's conflicts are resolved with: the one at the layer on record, or else the
first one found in another layer. -/
def located (knowledge : Knowledge) (layer : KnowledgeLayer) (path : String) : Option KnowledgeEntry :=
  (knowledge.get layer path).or ((elsewhere knowledge layer path).bind (knowledge.get · path))

variable (env knowledge) in
/-- Resolution leaves nothing to report for this cell. -/
def Cell.Resolvable (path : String) (c : Cell) : Prop :=
  ∀ entry, located knowledge (c.layer.getD .tenant) path = some entry →
    ¬ Retired entry ∧ (redactPii env.decimalDigit entry.content = entry.content ∨
      (c.layer.getD .tenant = entry.layer ∧ c.Matches env entry))

section
variable {path : String} (real : simulatesFailure path = false)
include real

theorem resolved_found_iff {c : Cell} (pointer : c.pointer = some path) {entry : KnowledgeEntry}
    (found : knowledge.get (c.layer.getD .tenant) path = some entry) :
    (((c.conflicts env knowledge path).foldl (Cell.resolve env knowledge) c).pointer = some path →
      ((c.conflicts env knowledge path).foldl (Cell.resolve env knowledge) c).conflicts env knowledge path = []) ↔
    c.Resolvable env knowledge path := by
  have home : entry.layer = c.layer.getD .tenant := (knowledge.get_sound found).2
  have named : entry.path = path := (knowledge.get_sound found).1
  have here : located knowledge (c.layer.getD .tenant) path = some entry := by simp [located, found]
  have reloads : ∀ conflict ∈ c.conflicts env knowledge path, conflict.Reloads path :=
    fun _ member => conflicts_found_reload found member
  obtain ⟨either, rewrites⟩ := @resolve_reloads env _ _ _ _ real _ reloads found
  have kept : ((c.conflicts env knowledge path).foldl (Cell.resolve env knowledge) c).pointer = some path := by
    rcases either with same | written
    · rw [same, pointer]
    · rw [written, ← named]
      rfl
  have reduced : c.Resolvable env knowledge path ↔ ¬ Retired entry ∧
      (redactPii env.decimalDigit entry.content = entry.content ∨ c.Matches env entry) := by
    constructor
    · intro resolvable
      obtain ⟨current, fine⟩ := resolvable entry here
      exact ⟨current, fine.imp_right (·.2)⟩
    · rintro ⟨current, fine⟩ other at_
      cases here.symm.trans at_
      exact ⟨current, fine.imp_right (⟨home.symm, ·⟩)⟩
  rw [reduced]
  simp only [kept, forall_const]
  by_cases fits : c.Matches env entry
  · by_cases retired : Retired entry
    · simp only [retired, not_true_eq_false, false_and, iff_false]
      rcases either with same | written
      · rw [same, conflicts_nil_iff found]
        exact fun quiet => quiet.1 retired
      · rw [written, conflicts_record_iff (by rw [home]; exact found)]
        exact fun quiet => quiet.1 retired
    · have silent : c.conflicts env knowledge path = [] := (conflicts_nil_iff found).mpr ⟨retired, fits⟩
      simp [silent, retired, fits]
  · rw [rewrites (conflicts_rewrites found fits), conflicts_record_iff (by rw [home]; exact found)]
    simp [fits]

theorem resolved_moved {c : Cell} {layer : KnowledgeLayer}
    (missing : knowledge.get (c.layer.getD .tenant) path = none)
    (other : elsewhere knowledge (c.layer.getD .tenant) path = some layer) {entry : KnowledgeEntry}
    (read : knowledge.get layer path = some entry) :
    ∃ before : Cell,
      (c.conflicts env knowledge path).foldl (Cell.resolve env knowledge) c = before.record env entry := by
  have named : entry.path = path := (knowledge.get_sound read).1
  have moved : c.conflicts env knowledge path =
      [.layerMismatch path (pointerId path) (c.layer.getD .tenant) layer] := by
    simp only [Cell.conflicts, missing, other]
  refine ⟨(c.deleteMemory (mapLayer (c.layer.getD .tenant))).forget, ?_⟩
  rw [moved, foldl_cons, foldl_nil]
  simp only [Cell.resolve, Cell.resyncFrom, read]
  exact settle_forgotten (by rw [named]; exact real) rfl

theorem resolved_cell_iff {c : Cell} (pointer : c.pointer = some path) :
    (((c.conflicts env knowledge path).foldl (Cell.resolve env knowledge) c).pointer = some path →
      ((c.conflicts env knowledge path).foldl (Cell.resolve env knowledge) c).conflicts env knowledge path = []) ↔
    c.Resolvable env knowledge path := by
  cases found : knowledge.get (c.layer.getD .tenant) path with
  | some entry => exact resolved_found_iff real pointer found
  | none =>
    cases other : elsewhere knowledge (c.layer.getD .tenant) path with
    | none =>
      have nowhere : located knowledge (c.layer.getD .tenant) path = none := by simp [located, found, other]
      have orphaned : c.conflicts env knowledge path = [.orphanedPointer (pointerId path) path] := by
        simp only [Cell.conflicts, found, other]
      rw [orphaned]
      constructor
      · intro _ entry at_
        rw [nowhere] at at_
        cases at_
      · intro _ kept
        cases kept
    | some layer =>
      have there : (knowledge.get layer path).isSome := by
        have hit := find?_some other
        simpa using hit
      obtain ⟨entry, read⟩ := Option.isSome_iff_exists.mp there
      obtain ⟨named, home⟩ := knowledge.get_sound read
      have here : located knowledge (c.layer.getD .tenant) path = some entry := by
        simp [located, found, other, read]
      obtain ⟨before, ends⟩ := @resolved_moved env _ _ real _ _ found other _ read
      rw [ends, conflicts_record_iff (by rw [home]; exact read)]
      have kept : (before.record env entry).pointer = some path := by rw [← named]; rfl
      simp only [kept, forall_const]
      constructor
      · rintro ⟨current, plain⟩ other at_
        cases here.symm.trans at_
        exact ⟨current, .inl plain⟩
      · intro resolvable
        obtain ⟨current, plain | ⟨layers, -⟩⟩ := resolvable entry here
        · exact ⟨current, plain⟩
        · rw [layers, home, read] at found
          cases found

end

section
variable {l : Links} (named : l.Named)
include named

theorem duplicatePointers_named : duplicatePointers l.mapping = [] := by
  refine filterMap_eq_nil_iff.mpr (fun path listed => ?_)
  obtain ⟨⟨memoryId, other⟩, member, rfl⟩ := mem_map.mp (mem_dedup.mp listed)
  have bound : l.mapping.lookup memoryId = some other := AList.mem_lookup_iff.mpr member
  obtain ⟨rfl, -⟩ := named _ _ bound
  simp [named.unique bound]

theorem detect_named : l.detect env knowledge =
      l.mapping.entries.flatMap (fun binding => l.pointerConflicts env knowledge binding.1 binding.2) := by
  rw [detect, duplicatePointers_named named, nil_append]

theorem detect_sound : ∀ conflict ∈ l.detect env knowledge, conflict.Sound := by
  intro conflict member
  rw [detect_named named] at member
  obtain ⟨⟨memoryId, path⟩, bound, inside⟩ := mem_flatMap.mp member
  obtain ⟨rfl, real⟩ := named memoryId path (AList.mem_lookup_iff.mpr bound)
  exact ⟨path, pointerConflicts_about inside, real⟩

theorem detect_on_path (path : String) : (l.detect env knowledge).filter (fun conflict => conflict.path = path) =
      if (l.cell path).pointer = some path then (l.cell path).conflicts env knowledge path else [] := by
  rw [detect_named named, filter_flatMap_of_key (q := fun binding => binding.2 = path)]
  · by_cases bound : (l.cell path).pointer = some path
    · rw [if_pos bound, named.unique bound]
      simp [pointerConflicts_cell]
    · have none : l.mapping.entries.filter (fun binding => binding.2 = path) = [] := by
        refine filter_eq_nil_iff.mpr ?_
        rintro ⟨memoryId, other⟩ member same
        have equal : other = path := by simpa using same
        subst equal
        have found := AList.mem_lookup_iff.mpr member
        obtain ⟨rfl, -⟩ := named memoryId other found
        exact bound found
      rw [if_neg bound, none]
      rfl
  · rintro ⟨memoryId, other⟩ _ conflict member
    simp [(pointerConflicts_about member).path_eq]

theorem resolved_cell (path : String) : ((l.detect env knowledge).foldl (resolve env knowledge) l).cell path =
      (if (l.cell path).pointer = some path then (l.cell path).conflicts env knowledge path else []).foldl
        (Cell.resolve env knowledge) (l.cell path) := by
  rw [resolve_keyed.foldl (detect_sound named), detect_on_path named]

theorem detect_nil_iff : l.detect env knowledge = [] ↔
      ∀ path, (l.cell path).pointer = some path → (l.cell path).conflicts env knowledge path = [] := by
  rw [detect_named named, flatMap_eq_nil_iff]
  constructor
  · intro quiet path bound
    exact quiet ⟨pointerId path, path⟩ (AList.mem_lookup_iff.mp bound)
  · rintro quiet ⟨memoryId, path⟩ member
    have bound := AList.mem_lookup_iff.mpr member
    obtain ⟨rfl, -⟩ := named memoryId path bound
    exact quiet path bound

end

variable (env knowledge) in
/-- Resolution leaves nothing to report: the entry each pointer leads to is neither deprecated nor
superseded, and redaction leaves its content alone unless the pointer is in order already. -/
def Resolvable (l : Links) : Prop :=
  ∀ memoryId path, l.mapping.lookup memoryId = some path →
    ∀ entry, located knowledge ((l.layers.lookup path).getD .tenant) path = some entry →
      ¬ Retired entry ∧
        (redactPii env.decimalDigit entry.content = entry.content ∨ InOrder env l entry memoryId)

theorem located_path {layer : KnowledgeLayer} {path : String} {entry : KnowledgeEntry}
    (found : located knowledge layer path = some entry) : entry.path = path := by
  unfold located at found
  rcases Option.or_eq_some_iff.mp found with direct | ⟨_, other⟩
  · exact (knowledge.get_sound direct).1
  · obtain ⟨_, _, read⟩ := Option.bind_eq_some_iff.mp other
    exact (knowledge.get_sound read).1

theorem resolvable_iff_cells {l : Links} (named : l.Named) : Resolvable env knowledge l ↔
      ∀ path, (l.cell path).pointer = some path → (l.cell path).Resolvable env knowledge path := by
  have order : ∀ {path entry}, entry.path = path → (InOrder env l entry (pointerId path) ↔
      ((l.cell path).layer.getD .tenant = entry.layer ∧ (l.cell path).Matches env entry)) := by
    rintro path entry rfl
    exact ⟨fun h => ⟨h.layer, h.hash, h.memory⟩, fun h => ⟨h.1, h.2.1, h.2.2⟩⟩
  constructor
  · intro resolvable path bound entry found
    obtain ⟨current, plain | ordered⟩ := resolvable (pointerId path) path bound entry found
    · exact ⟨current, .inl plain⟩
    · exact ⟨current, .inr ((order (located_path found)).mp ordered)⟩
  · intro cells memoryId path bound entry found
    obtain ⟨rfl, -⟩ := named memoryId path bound
    obtain ⟨current, plain | ordered⟩ := cells path bound entry found
    · exact ⟨current, .inl plain⟩
    · exact ⟨current, .inr ((order (located_path found)).mpr ordered)⟩

theorem resolved_quiet_iff {l : Links} (named : l.Named)
    (after : ((l.detect env knowledge).foldl (resolve env knowledge) l).Named) :
    ((l.detect env knowledge).foldl (resolve env knowledge) l).detect env knowledge = [] ↔
      Resolvable env knowledge l := by
  rw [detect_nil_iff after, resolvable_iff_cells named]
  refine forall_congr' (fun path => ?_)
  rw [resolved_cell named]
  by_cases bound : (l.cell path).pointer = some path
  · rw [if_pos bound]
    simp only [bound, forall_const]
    exact resolved_cell_iff (named _ _ bound).2 bound
  · rw [if_neg bound]
    simp [bound]

theorem detect_no_errors (l : Links) : ∀ conflict ∈ l.detect env knowledge, conflict.isDetectionError = false := by
  intro conflict member
  rcases mem_append.mp member with duplicate | found
  · obtain ⟨_, _, made⟩ := mem_filterMap.mp duplicate
    simp only at made
    split at made
    · cases made
      rfl
    · cases made
  · obtain ⟨_, _, inside⟩ := mem_flatMap.mp found
    have about := pointerConflicts_about inside
    cases conflict <;> first | rfl | exact about.elim

def Converged (env : Env) (w : World) : Prop :=
  ∃ conflicts, (detectConflicts env w).1 = .ok conflicts ∧ ∀ conflict ∈ conflicts, conflict.isDetectionError

theorem converged_iff (clean : env.Clean) (steady : env.Steady knowledge) (w : World) :
    Converged env w ↔ (linksOf w.current w.memory).detect env knowledge = [] := by
  obtain ⟨next, run, -, -⟩ := detectConflicts_clean clean steady w
  constructor
  · rintro ⟨conflicts, found, errors⟩
    rw [run] at found
    cases found
    refine eq_nil_iff_forall_not_mem.mpr (fun conflict member => ?_)
    have failed := errors conflict member
    rw [detect_no_errors _ conflict member] at failed
    cases failed
  · intro quiet
    exact ⟨_, by rw [run], by simp [quiet]⟩

/-- From any reachable state: detection and resolution succeed when no call fails and governance
blocks nothing, and a second detection is silent if and only if the links were resolvable. -/
theorem resolveConflicts_converges_iff (clean : env.Clean) (steady : env.Steady knowledge) {w : World}
    (reachable : Reachable w) :
    ∃ conflicts, (detectConflicts env w).1 = .ok conflicts ∧
      (resolveConflicts env conflicts (detectConflicts env w).2).1 = .ok () ∧
      (Converged env (resolveConflicts env conflicts (detectConflicts env w).2).2 ↔
        Resolvable env knowledge (linksOf w.current w.memory)) := by
  obtain ⟨w₁, detected, states, memory⟩ := detectConflicts_clean clean steady w
  have named : (linksOf w.current w.memory).Named :=
    (reachable_named reachable).current SyncState.named_default
  have sound : ∀ conflict ∈ (linksOf w.current w.memory).detect env knowledge, conflict.Sound :=
    detect_sound named
  obtain ⟨w₂, resolved, links, published⟩ := resolveConflicts_clean clean steady sound w₁
  have loaded : w₁.current = w.current := by simp [World.current, states]
  rw [loaded, memory] at links
  -- both operations are steps, so the resolved state is reachable too
  have reached : Reachable w₂ := by
    have first := reachable.step (.operation env .detectConflicts)
    have second := first.step (.operation env
      (.resolveConflicts ((linksOf w.current w.memory).detect env knowledge)))
    simp only [Operation.run, detected] at second
    rwa [resolved] at second
  have after : w₂.links.Named := (reachable_named reached).working
  have final : linksOf w₂.current w₂.memory = w₂.links := by rw [published.current]; rfl
  refine ⟨_, by rw [detected], ?_⟩
  rw [detected, resolved]
  refine ⟨rfl, ?_⟩
  rw [converged_iff clean steady, final, links]
  rw [links] at after
  exact resolved_quiet_iff named after

theorem resolveConflicts_repeats_deprecated :
    Reachable (syncAll (sampleEnv "plain" .deprecated) {}).2 ∧ (sampleEnv "plain" .deprecated).Clean ∧
      ∃ conflicts, (detectConflicts (sampleEnv "plain" .deprecated)
          (syncAll (sampleEnv "plain" .deprecated) {}).2).1 = .ok conflicts ∧
        (resolveConflicts (sampleEnv "plain" .deprecated) conflicts (detectConflicts (sampleEnv "plain" .deprecated)
            (syncAll (sampleEnv "plain" .deprecated) {}).2).2).1 = .ok () ∧
        ¬ Converged (sampleEnv "plain" .deprecated) (resolveConflicts (sampleEnv "plain" .deprecated) conflicts
            (detectConflicts (sampleEnv "plain" .deprecated)
              (syncAll (sampleEnv "plain" .deprecated) {}).2).2).2 := by
  refine ⟨(Reachable.initial _).step (.operation (sampleEnv "plain" .deprecated) .syncAll),
    sampleEnv_clean _ _, [.statusChange "guide.md" "ptr_guide.md" .deprecated], by decide +kernel,
    by decide +kernel, ?_⟩
  rintro ⟨conflicts, found, errors⟩
  have again : (detectConflicts (sampleEnv "plain" .deprecated)
      (resolveConflicts (sampleEnv "plain" .deprecated) [.statusChange "guide.md" "ptr_guide.md" .deprecated]
        (detectConflicts (sampleEnv "plain" .deprecated)
          (syncAll (sampleEnv "plain" .deprecated) {}).2).2).2).1 =
      .ok [.statusChange "guide.md" "ptr_guide.md" .deprecated] := by
    decide +kernel
  rw [again] at found
  cases found
  cases errors _ (mem_singleton.mpr rfl)

theorem resolveConflicts_restores_plain : ∃ conflicts, (detectConflicts (sampleEnv "plain" .accepted)
        { (syncAll (sampleEnv "plain" .accepted) {}).2 with memory := fun _ => none }).1 = .ok conflicts ∧
      conflicts = [.missingPointer "guide.md" "ptr_guide.md"] ∧
      Converged (sampleEnv "plain" .accepted)
        (resolveConflicts (sampleEnv "plain" .accepted) conflicts
          (detectConflicts (sampleEnv "plain" .accepted)
            { (syncAll (sampleEnv "plain" .accepted) {}).2 with memory := fun _ => none }).2).2 := by
  have synced : Reachable (syncAll (sampleEnv "plain" .accepted) {}).2 :=
    (Reachable.initial _).step (.operation (sampleEnv "plain" .accepted) .syncAll)
  obtain ⟨conflicts, detected, -, iff⟩ := resolveConflicts_converges_iff
    (sampleEnv_clean "plain" .accepted) (sampleEnv_steady _ _) (synced.step (.memory (fun _ => none)))
  refine ⟨conflicts, detected, ?_, iff.mpr ?_⟩
  · have reported : (detectConflicts (sampleEnv "plain" .accepted)
        { (syncAll (sampleEnv "plain" .accepted) {}).2 with memory := fun _ => none }).1 =
        .ok [.missingPointer "guide.md" "ptr_guide.md"] := by
      decide +kernel
    exact Except.ok.inj (detected.symm.trans reported)
  · intro memoryId path _ entry found
    have only : entry = sampleEntry "plain" .accepted := by
      rcases Option.or_eq_some_iff.mp found with direct | ⟨_, other⟩
      · exact sampleKnowledge_get _ _ direct
      · obtain ⟨_, _, read⟩ := Option.bind_eq_some_iff.mp other
        exact sampleKnowledge_get _ _ read
    subst only
    exact ⟨by decide, .inl (by decide +kernel)⟩

end Aeterna.Sync
