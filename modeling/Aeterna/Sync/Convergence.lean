import Aeterna.Sync.Links

namespace Aeterna.Sync
open Lib Links List SyncConflict

variable (env : Env) (knowledge : Knowledge)

def SyncConflict.DisagreesOn (path : String) : SyncConflict → Prop
  | .hashMismatch k _ _ _ | .missingPointer k _ | .layerMismatch k _ _ _ => k = path
  | .orphanedPointer _ _ | .duplicatePointer _ _ | .statusChange _ _ _ | .detectionError _ _ => False

def Agrees (w : World) : Prop :=
  ∃ conflicts, (detectConflicts env w).1 = .ok conflicts ∧
    ∀ entry ∈ knowledge.visited, ∀ conflict ∈ conflicts, ¬ conflict.DisagreesOn entry.path

/-- A pointer to an entry in which detection finds nothing to disagree with. -/
structure InOrder (l : Links) (entry : KnowledgeEntry) (memoryId : String) : Prop where
  layer : (l.layers.lookup entry.path).getD .tenant = entry.layer
  hash : ∀ recorded, l.hashes.lookup entry.path = some recorded →
    recorded = env.contentHash.digest entry.content
  memory : l.memory (mapLayer entry.layer, memoryId) = some (syncedSummary env entry)

variable {env knowledge}

theorem entryConflicts_quiet_iff {recorded : Option String} {memoryId path : String} {entry : KnowledgeEntry} :
    (∀ conflict ∈ entryConflicts env recorded memoryId path entry.layer entry, ¬ conflict.DisagreesOn path) ↔
      ∀ hash, recorded = some hash → hash = env.contentHash.digest entry.content := by
  have statusQuiet : ∀ conflict ∈ (if entry.status = .deprecated ∨ entry.status = .superseded then
      [statusChange path memoryId entry.status] else []), ¬ conflict.DisagreesOn path := by
    intro conflict member
    split at member
    · rw [mem_singleton.mp member]
      simp [DisagreesOn]
    · simp at member
  cases recorded with
  | none =>
    simp only [entryConflicts, nil_append, ne_eq, not_true_eq_false, if_false, append_nil]
    exact ⟨by simp, fun _ => statusQuiet⟩
  | some hash =>
    by_cases same : hash = env.contentHash.digest entry.content
    · simp only [entryConflicts, same, ne_eq, not_true_eq_false, if_false, nil_append,
        append_nil]
      exact ⟨fun _ _ eq => (Option.some.inj eq).symm, fun _ => statusQuiet⟩
    · constructor
      · intro quiet
        exact absurd rfl (quiet (.hashMismatch path memoryId hash (env.contentHash.digest entry.content))
          (by simp [entryConflicts, same]))
      · intro equal
        exact absurd (equal hash rfl) same

theorem memoryConflicts_quiet_iff {memoryId path : String} {entry : KnowledgeEntry} {content : Option String} :
    (∀ conflict ∈ memoryConflicts env memoryId path entry (.ok content), ¬ conflict.DisagreesOn path) ↔
      content = some (syncedSummary env entry) := by
  cases content with
  | none => simp [memoryConflicts, DisagreesOn]
  | some text =>
    by_cases same : text = syncedSummary env entry
    · subst same
      simp [memoryConflicts, syncedSummary]
    · have different : text ≠ generateSummary entry (redactPii env.decimalDigit entry.content) := same
      simp [memoryConflicts, DisagreesOn, different, same]

theorem pointerConflicts_quiet_iff (distinct : knowledge.DistinctPaths) {entry : KnowledgeEntry}
    (visited : entry ∈ knowledge.visited) (l : Links) (memoryId : String) :
    (∀ conflict ∈ l.pointerConflicts env knowledge memoryId entry.path,
      ¬ conflict.DisagreesOn entry.path) ↔ InOrder env l entry memoryId := by
  unfold pointerConflicts
  by_cases home : (l.layers.lookup entry.path).getD .tenant = entry.layer
  · have found : knowledge.get entry.layer entry.path = some entry := Knowledge.visited_get visited
    simp only [home, found, mem_append, or_imp, forall_and]
    rw [entryConflicts_quiet_iff, memoryConflicts_quiet_iff]
    exact ⟨fun ⟨hash, memory⟩ => ⟨home, hash, memory⟩, fun order => ⟨order.hash, order.memory⟩⟩
  · have absent : knowledge.get ((l.layers.lookup entry.path).getD .tenant) entry.path = none := by
      cases read : knowledge.get ((l.layers.lookup entry.path).getD .tenant) entry.path with
      | none => rfl
      | some found => exact absurd ((Knowledge.get_visited_iff distinct visited).mp read).1 home
    have moved : elsewhere knowledge ((l.layers.lookup entry.path).getD .tenant) entry.path ≠ none := by
      intro nowhere
      have all := find?_eq_none.mp nowhere entry.layer
        (mem_filter.mpr ⟨entry.layer.mem_walk, by simpa using Ne.symm home⟩)
      simp [Knowledge.visited_get visited] at all
    obtain ⟨other, target⟩ := Option.ne_none_iff_exists'.mp moved
    simp only [absent, target]
    constructor
    · intro quiet
      exact absurd rfl (quiet _ (mem_singleton.mpr rfl))
    · intro order
      exact absurd order.layer home

theorem disagreesOn_knowledgeId {path : String} {conflict : SyncConflict}
    (disagrees : conflict.DisagreesOn path) : conflict.knowledgeId = some path := by
  cases conflict <;> first
    | exact congrArg some disagrees
    | exact disagrees.elim

theorem duplicatePointers_quiet {mapping : HashMap String String} {path : String}
    {conflict : SyncConflict} (member : conflict ∈ duplicatePointers mapping) :
    ¬ conflict.DisagreesOn path := by
  obtain ⟨knowledgeId, _, found⟩ := mem_filterMap.mp member
  simp only at found
  split at found
  · rw [← Option.some.inj found]
    exact id
  · cases found

theorem detect_quiet_iff (distinct : knowledge.DistinctPaths) (l : Links) :
    (∀ entry ∈ knowledge.visited, ∀ conflict ∈ l.detect env knowledge, ¬ conflict.DisagreesOn entry.path) ↔
    ∀ entry ∈ knowledge.visited, ∀ memoryId, l.mapping.lookup memoryId = some entry.path →
      InOrder env l entry memoryId := by
  constructor
  · intro quiet entry visited memoryId mapped
    rw [← pointerConflicts_quiet_iff distinct visited]
    intro conflict member
    refine quiet entry visited conflict (mem_append_right _ (mem_flatMap.mpr ?_))
    exact ⟨⟨memoryId, entry.path⟩, AList.mem_lookup_iff.mp mapped, member⟩
  · intro order entry visited conflict member disagrees
    rcases mem_append.mp member with duplicate | found
    · exact duplicatePointers_quiet duplicate disagrees
    · obtain ⟨⟨memoryId, path⟩, bound, inside⟩ := mem_flatMap.mp found
      have same : path = entry.path := Option.some.inj
        ((pointerConflicts_about inside).knowledgeId.symm.trans (disagreesOn_knowledgeId disagrees))
      subst same
      have mapped : l.mapping.lookup memoryId = some entry.path := AList.mem_lookup_iff.mpr bound
      exact (pointerConflicts_quiet_iff distinct visited l memoryId).mpr
        (order entry visited memoryId mapped) conflict inside disagrees

variable (env knowledge) in
def Rewritten (l : Links) (memoryId : String) : Prop :=
  ∃ entry ∈ knowledge.visited, Writes env (l.hashes.lookup entry.path) entry ∧
    memoryId = pointerId entry.path

variable (env knowledge) in
/-- What must already hold before a full sync for detection to agree with its outcome: redaction
leaves every entry it writes unchanged, and every pointer it does not write is in order. -/
def ReadyToSettle (l : Links) : Prop :=
  ∀ entry ∈ knowledge.visited,
    (Writes env (l.hashes.lookup entry.path) entry →
      redactPii env.decimalDigit entry.content = entry.content) ∧
    ∀ memoryId, l.mapping.lookup memoryId = some entry.path → ¬ Rewritten env knowledge l memoryId →
      l.memory (mapLayer entry.layer, memoryId) = some (syncedSummary env entry) ∧
      (¬ Writes env (l.hashes.lookup entry.path) entry →
        (l.layers.lookup entry.path).getD .tenant = entry.layer ∧
        ∀ recorded, l.hashes.lookup entry.path = some recorded →
          recorded = env.contentHash.digest entry.content)

section
variable (distinct : knowledge.DistinctPaths) (l : Links)
include distinct

theorem settled_visited {entry : KnowledgeEntry} (visited : entry ∈ knowledge.visited) :
    (knowledge.visited.foldl (settle env) l).cell entry.path = (l.cell entry.path).settle env entry := by
  rw [settled_cell, versions_of_distinct distinct visited]
  rfl

theorem settled_rewritten {entry : KnowledgeEntry} (visited : entry ∈ knowledge.visited)
    (writes : Writes env (l.hashes.lookup entry.path) entry) :
    (knowledge.visited.foldl (settle env) l).cell entry.path = (l.cell entry.path).record env entry := by
  have own : Writes env (l.cell entry.path).hash entry := writes
  rw [settled_visited distinct l visited, Cell.settle, if_pos own]

theorem settled_kept {path : String} (kept : ¬ Rewritten env knowledge l (pointerId path)) :
    (knowledge.visited.foldl (settle env) l).cell path = l.cell path := by
  by_cases visited : ∃ entry ∈ knowledge.visited, entry.path = path
  · obtain ⟨entry, member, rfl⟩ := visited
    have quiet : ¬ Writes env (l.cell entry.path).hash entry :=
      fun writes => kept ⟨entry, member, writes, rfl⟩
    rw [settled_visited distinct l member, Cell.settle, if_neg quiet]
  · have absent : versions knowledge.visited path = [] :=
      versions_of_absent (fun entry member same => visited ⟨entry, member, same⟩)
    rw [settled_cell, absent]
    rfl

theorem settled_pointer {memoryId : String} (kept : ¬ Rewritten env knowledge l memoryId) :
    (knowledge.visited.foldl (settle env) l).mapping.lookup memoryId = l.mapping.lookup memoryId ∧
    ∀ layer, (knowledge.visited.foldl (settle env) l).memory (layer, memoryId) = l.memory (layer, memoryId) := by
  by_cases named : ∃ path, memoryId = pointerId path
  · obtain ⟨path, rfl⟩ := named
    have same := settled_kept distinct l kept
    exact ⟨congrArg Cell.pointer same, fun layer => congrFun (congrArg Cell.memory same) layer⟩
  · exact settle_foreign (fun path same => named ⟨path, same⟩) _ l

section
variable (ready : ReadyToSettle env knowledge l) {entry : KnowledgeEntry} (visited : entry ∈ knowledge.visited)
include ready visited

theorem settled_record {memoryId : String} (kept : ¬ Writes env (l.hashes.lookup entry.path) entry →
      l.mapping.lookup memoryId = some entry.path ∧ ¬ Rewritten env knowledge l memoryId) :
    let settled := knowledge.visited.foldl (settle env) l
    (settled.layers.lookup entry.path).getD .tenant = entry.layer ∧
      ∀ recorded, settled.hashes.lookup entry.path = some recorded →
        recorded = env.contentHash.digest entry.content := by
  by_cases writes : Writes env (l.hashes.lookup entry.path) entry
  · have cell := settled_rewritten distinct l visited writes
    have layer := congrArg Cell.layer cell
    have hash := congrArg Cell.hash cell
    simp only [Links.cell, Cell.record] at layer hash
    refine ⟨by rw [layer]; rfl, fun recorded found => ?_⟩
    rw [hash] at found
    rw [← Option.some.inj found, syncedHash, (ready entry visited).1 writes]
  · have cell : (knowledge.visited.foldl (settle env) l).cell entry.path = l.cell entry.path := by
      have quiet : ¬ Writes env (l.cell entry.path).hash entry := writes
      rw [settled_visited distinct l visited, Cell.settle, if_neg quiet]
    have layer := congrArg Cell.layer cell
    have hash := congrArg Cell.hash cell
    simp only [Links.cell] at layer hash
    simp only [layer, hash]
    exact ((ready entry visited).2 memoryId (kept writes).1 (kept writes).2).2 writes

theorem settled_inOrder_of_ready {memoryId : String}
    (mapped : (knowledge.visited.foldl (settle env) l).mapping.lookup memoryId = some entry.path) :
    InOrder env (knowledge.visited.foldl (settle env) l) entry memoryId := by
  by_cases rewritten : Rewritten env knowledge l memoryId
  · obtain ⟨writer, member, writes, rfl⟩ := rewritten
    have cell := settled_rewritten distinct l member writes
    have pointer := congrArg Cell.pointer cell
    simp only [Links.cell, Cell.record] at pointer
    have same : writer = entry := inj_on_of_nodup_map distinct member visited
      (Option.some.inj (pointer.symm.trans mapped))
    subst same
    obtain ⟨layer, hash⟩ := @settled_record env _ distinct l ready writer visited
      (pointerId writer.path) (fun quiet => absurd writes quiet)
    refine ⟨layer, hash, ?_⟩
    have memory := congrFun (congrArg Cell.memory cell) (mapLayer writer.layer)
    simpa [Links.cell, Cell.record] using memory
  · have kept := settled_pointer distinct l rewritten
    have before : l.mapping.lookup memoryId = some entry.path := kept.1.symm.trans mapped
    obtain ⟨layer, hash⟩ := settled_record distinct l ready visited (fun _ => ⟨before, rewritten⟩)
    refine ⟨layer, hash, ?_⟩
    rw [kept.2]
    exact ((ready entry visited).2 memoryId before rewritten).1

end

theorem settled_inOrder_iff : (∀ entry ∈ knowledge.visited, ∀ memoryId,
      (knowledge.visited.foldl (settle env) l).mapping.lookup memoryId = some entry.path →
        InOrder env (knowledge.visited.foldl (settle env) l) entry memoryId) ↔
    ReadyToSettle env knowledge l := by
  constructor
  · intro order entry visited
    constructor
    · intro writes
      have cell := settled_rewritten distinct l visited writes
      have pointer := congrArg Cell.pointer cell
      have hash := congrArg Cell.hash cell
      exact env.contentHash.injective ((order entry visited _ pointer).hash _ hash)
    · intro memoryId mapped kept
      have same := settled_pointer distinct l kept
      have after := order entry visited memoryId (same.1.trans mapped)
      refine ⟨by rw [← same.2]; exact after.memory, fun quiet => ?_⟩
      have own : ¬ Writes env (l.cell entry.path).hash entry := quiet
      have cell := @settled_visited env _ distinct l _ visited
      rw [Cell.settle, if_neg own] at cell
      have layer := congrArg Cell.layer cell
      have hash := congrArg Cell.hash cell
      simp only [Links.cell] at layer hash
      rw [← layer, ← hash]
      exact ⟨after.layer, after.hash⟩
  · intro ready entry visited memoryId mapped
    exact settled_inOrder_of_ready distinct l ready visited mapped

end

/-- After a full sync in which nothing fails or is blocked, detection agrees with every visited entry
if and only if the links were ready to settle. -/
theorem syncAll_agrees_iff (clean : env.Clean) (steady : env.Steady knowledge)
    (distinct : knowledge.DistinctPaths) (w : World) :
    (syncAll env w).1 = .ok () ∧ (Agrees env knowledge (syncAll env w).2 ↔
        ReadyToSettle env knowledge (linksOf w.current w.memory)) := by
  obtain ⟨next, run, links, -, published⟩ := syncAll_clean clean steady w
  obtain ⟨last, detected, -, -⟩ := detectConflicts_clean clean steady next
  refine ⟨by rw [run], ?_⟩
  rw [run, ← settled_inOrder_iff distinct, ← links, ← detect_quiet_iff distinct]
  have same : linksOf next.current next.memory = next.links := by rw [published.current]; rfl
  rw [same] at detected
  constructor
  · rintro ⟨conflicts, found, quiet⟩
    rw [detected] at found
    cases found
    exact quiet
  · intro quiet
    exact ⟨_, by rw [detected], quiet⟩

section
variable (content : String) (status : KnowledgeStatus)

def sampleEntry : KnowledgeEntry where
  path := "guide.md"
  content := content
  layer := .team
  kind := .spec
  status := status

def sampleKnowledge : Knowledge := .ofEntries [sampleEntry content status] (by simp) (some "c1")

def sampleEnv : Env where
  tenantId := "acme"
  decimalDigit := Char.isDigit
  contentHash := .sample
  knowledge := fun _ => sampleKnowledge content status

theorem sampleEnv_clean : (sampleEnv content status).Clean :=
  ⟨fun _ => rfl, fun _ configured => (by cases configured), fun _ _ => Or.inl rfl⟩

theorem sampleEnv_steady : (sampleEnv content status).Steady (sampleKnowledge content status) :=
  fun _ => rfl

theorem sampleKnowledge_visited : (sampleKnowledge content status).visited = [sampleEntry content status] := by
  simp [Knowledge.visited, sampleKnowledge, Knowledge.ofEntries, KnowledgeLayer.walk, sampleEntry]

theorem sampleKnowledge_distinct : (sampleKnowledge content status).DistinctPaths := by
  rw [Knowledge.DistinctPaths, sampleKnowledge_visited]
  simp

theorem sampleKnowledge_get {layer : KnowledgeLayer} {path : String} {entry : KnowledgeEntry}
    (found : (sampleKnowledge content status).get layer path = some entry) :
    entry = sampleEntry content status := by
  have read : [sampleEntry content status].find? (fun other => other.layer = layer ∧ other.path = path) =
      some entry := found
  exact mem_singleton.mp (mem_of_find?_eq_some read)

end

/-- An entry with an e-mail address, synced into empty stores, is reported as changed at once. -/
theorem syncAll_disagrees_on_email :
    (sampleEnv "a@b.co" .accepted).Clean ∧ (sampleKnowledge "a@b.co" .accepted).DistinctPaths ∧
      (syncAll (sampleEnv "a@b.co" .accepted) {}).1 = .ok () ∧
      ¬ Agrees (sampleEnv "a@b.co" .accepted) (sampleKnowledge "a@b.co" .accepted)
        (syncAll (sampleEnv "a@b.co" .accepted) {}).2 := by
  refine ⟨sampleEnv_clean _ _, sampleKnowledge_distinct _ _, by decide +kernel, ?_⟩
  rintro ⟨conflicts, found, quiet⟩
  have reported : (detectConflicts (sampleEnv "a@b.co" .accepted)
      (syncAll (sampleEnv "a@b.co" .accepted) {}).2).1 =
      .ok [.hashMismatch "guide.md" "ptr_guide.md" (sampleDigest "[REDACTED_EMAIL]")
        (sampleDigest "a@b.co")] := by
    decide +kernel
  rw [reported] at found
  cases found
  have visited : sampleEntry "a@b.co" .accepted ∈ (sampleKnowledge "a@b.co" .accepted).visited := by
    rw [sampleKnowledge_visited]
    exact mem_singleton.mpr rfl
  exact quiet _ visited _ (mem_singleton.mpr rfl) rfl

theorem syncAll_agrees_on_plain : (sampleEnv "plain" .accepted).Clean ∧
      Agrees (sampleEnv "plain" .accepted) (sampleKnowledge "plain" .accepted)
        (syncAll (sampleEnv "plain" .accepted) {}).2 := by
  refine ⟨sampleEnv_clean _ _, ((syncAll_agrees_iff (sampleEnv_clean _ _) (sampleEnv_steady _ _)
    (sampleKnowledge_distinct _ _) {}).2).mpr ?_⟩
  intro entry visited
  rw [sampleKnowledge_visited] at visited
  cases mem_singleton.mp visited
  refine ⟨fun _ => by decide +kernel, fun memoryId mapped => ?_⟩
  cases mapped

end Aeterna.Sync
