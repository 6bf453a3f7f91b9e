import Aeterna.Core.Types

namespace Aeterna
open List

/-- One tenant's repository content. `get` answers for any path text; the listing only for entries
stored as such, and the two agree on every listed path. -/
structure Knowledge where
  list : KnowledgeLayer → List KnowledgeEntry
  get : KnowledgeLayer → String → Option KnowledgeEntry
  headCommit : Option String
  affectedItems : String → List (KnowledgeLayer × String)
  get_sound : ∀ {layer path entry}, get layer path = some entry →
    entry.path = path ∧ entry.layer = layer
  get_of_list : ∀ {layer entry}, entry ∈ list layer → get layer entry.path = some entry
  list_of_get : ∀ {layer other entry found}, entry ∈ list other →
    get layer entry.path = some found → found ∈ list layer
  list_nodup : ∀ layer, ((list layer).map (·.path)).Nodup

namespace Knowledge
variable (knowledge : Knowledge)

def visited : List KnowledgeEntry := KnowledgeLayer.walk.flatMap knowledge.list

/-- No path is stored in two layers. -/
def DistinctPaths : Prop := (knowledge.visited.map (·.path)).Nodup

variable {knowledge}

variable {entry : KnowledgeEntry}

theorem list_layer {layer : KnowledgeLayer} (listed : entry ∈ knowledge.list layer) : entry.layer = layer :=
  (knowledge.get_sound (knowledge.get_of_list listed)).2

theorem mem_visited : entry ∈ knowledge.visited ↔ entry ∈ knowledge.list entry.layer := by
  constructor
  · intro member
    obtain ⟨layer, _, listed⟩ := mem_flatMap.mp member
    rwa [list_layer listed]
  · intro listed
    exact mem_flatMap.mpr ⟨entry.layer, entry.layer.mem_walk, listed⟩

theorem visited_get (visited : entry ∈ knowledge.visited) : knowledge.get entry.layer entry.path = some entry :=
  knowledge.get_of_list (mem_visited.mp visited)

theorem get_visited_iff (distinct : knowledge.DistinctPaths) {found : KnowledgeEntry}
    (visited : entry ∈ knowledge.visited) {layer : KnowledgeLayer} :
    knowledge.get layer entry.path = some found ↔ layer = entry.layer ∧ found = entry := by
  constructor
  · intro read
    have listed := knowledge.list_of_get (mem_visited.mp visited) read
    have sound := knowledge.get_sound read
    have member : found ∈ knowledge.visited := by
      rw [mem_visited, sound.2]
      exact listed
    have same : found = entry := inj_on_of_nodup_map distinct member visited sound.1
    exact ⟨by rw [← same, sound.2], same⟩
  · rintro ⟨rfl, rfl⟩
    exact visited_get visited

def ofEntries (entries : List KnowledgeEntry) (nodup : (entries.map (fun entry => (entry.layer, entry.path))).Nodup)
    (headCommit : Option String := none)
    (affectedItems : String → List (KnowledgeLayer × String) := fun _ => []) : Knowledge where
  list layer := entries.filter (fun entry => entry.layer = layer)
  get layer path := entries.find? (fun entry => entry.layer = layer ∧ entry.path = path)
  headCommit := headCommit
  affectedItems := affectedItems
  get_sound := by
    intro layer path entry read
    have found := find?_some read
    simp only [decide_eq_true_eq] at found
    exact ⟨found.2, found.1⟩
  get_of_list := by
    intro layer entry listed
    obtain ⟨member, home⟩ := mem_filter.mp listed
    have home : entry.layer = layer := by simpa using home
    cases read : entries.find? (fun other => other.layer = layer ∧ other.path = entry.path) with
    | none =>
      have absent := find?_eq_none.mp read entry member
      simp [home] at absent
    | some found =>
      have matched := find?_some read
      simp only [decide_eq_true_eq] at matched
      have same := inj_on_of_nodup_map nodup (mem_of_find?_eq_some read) member
        (by rw [matched.1, matched.2, home])
      rw [same]
  list_of_get := by
    intro layer other entry found _ read
    have matched := find?_some read
    simp only [decide_eq_true_eq] at matched
    exact mem_filter.mpr ⟨mem_of_find?_eq_some read, by simpa using matched.1⟩
  list_nodup := by
    intro layer
    have paths : (entries.filter (fun entry => entry.layer = layer)).Pairwise
        (fun a b => (a.layer, a.path) ≠ (b.layer, b.path)) :=
      (pairwise_map.mp nodup).filter _
    apply pairwise_map.mpr
    refine paths.imp_of_mem ?_
    intro a b inA inB different same
    have homeA := (mem_filter.mp inA).2
    have homeB := (mem_filter.mp inB).2
    simp only [decide_eq_true_eq] at homeA homeB
    exact different (by rw [homeA, homeB, same])

end Knowledge

end Aeterna
