import Aeterna.Knowledge.Isolation
import Aeterna.Knowledge.Resolver
import Aeterna.Lib.Sequences

namespace Aeterna
open Lib List

def layerAuthority : KnowledgeLayer → Nat
  | .tenant => 0
  | .org => 1
  | .team => 2
  | .project => 3

namespace KnowledgeEntry

def variantPrecedence (entry : KnowledgeEntry) : Nat :=
  match entry.variantRole with
  | .canonical => 5
  | .clarification => 4
  | .specialization => 3
  | .applicability => 2
  | .exception => 1
  | .superseded => 0

def precedenceCmp (a b : KnowledgeEntry) : Ordering :=
  match compare (layerAuthority a.layer) (layerAuthority b.layer) with
  | .eq =>
    match compare b.variantPrecedence a.variantPrecedence with
    | .eq => compare b.updatedAt a.updatedAt
    | roles => roles
  | layers => layers

def Precedes (a b : KnowledgeEntry) : Prop := precedenceCmp a b ≠ .gt

instance : DecidableRel Precedes := fun _ _ => inferInstanceAs (Decidable (_ ≠ _))

def mentions (query : String) (entry : KnowledgeEntry) : Bool :=
  containsText entry.content query || containsText entry.path query

theorem precedes_iff {a b : KnowledgeEntry} : Precedes a b ↔ layerAuthority a.layer < layerAuthority b.layer ∨
    (layerAuthority a.layer = layerAuthority b.layer ∧ (b.variantPrecedence < a.variantPrecedence ∨
      (a.variantPrecedence = b.variantPrecedence ∧ b.updatedAt ≤ a.updatedAt))) := by
  simp only [Precedes, precedenceCmp, compare, compareOfLessAndEq]
  split_ifs <;> simp_all <;> omega

instance : Std.Total Precedes := ⟨by
  intro a b
  rw [precedes_iff, precedes_iff]
  omega⟩

instance : IsTrans KnowledgeEntry Precedes := ⟨by
  intro a b c
  rw [precedes_iff, precedes_iff, precedes_iff]
  omega⟩

end KnowledgeEntry

section
variable (config : RepositoryConfig) (query : String) (limit : Nat)

/-- The loop of `search_inner` over one layer, and whether it returned. -/
def searchEntries : List KnowledgeEntry → List KnowledgeEntry → List KnowledgeEntry × Bool
  | results, [] => (results, false)
  | results, entry :: rest =>
    let results := if entry.mentions query then results ++ [entry] else results
    if results.length ≥ limit then (results, true) else searchEntries results rest

namespace GitRepository
variable (repo : GitRepository)

def searchLayers : List KnowledgeEntry → List KnowledgeLayer → Except String (List KnowledgeEntry)
  | results, [] => pure results
  | results, layer :: rest => do
    let entries ← repo.listInner config layer ""
    let found := searchEntries query limit results entries
    if found.2 then pure found.1 else searchLayers found.1 rest

variable (layers : List KnowledgeLayer)

def searchInner : Except String (List KnowledgeEntry) :=
  repo.searchLayers config query limit [] layers

def queryWithPrecedence : Except String (List KnowledgeEntry) := do
  let results ← repo.searchInner config query limit layers
  pure (results.insertionSort KnowledgeEntry.Precedes)

/-- The entries of the layers, in the order a search comes to them. -/
def visited : List KnowledgeEntry := layers.flatMap (repo.view config).list

def matching : List KnowledgeEntry :=
  (repo.visited config layers).filter (KnowledgeEntry.mentions query)

def BestMatches : Prop :=
  ∀ results, repo.queryWithPrecedence config query limit layers = .ok results →
    results.length ≤ limit ∧ results = best KnowledgeEntry.Precedes limit (repo.matching config query layers)

end GitRepository

def Ends (entries : List KnowledgeEntry) : Prop :=
  entries ≠ [] ∧ limit ≤ (entries.filter (KnowledgeEntry.mentions query)).length

def foundIn (entries : List KnowledgeEntry) : List KnowledgeEntry :=
  if limit = 0 then (entries.take 1).filter (KnowledgeEntry.mentions query)
  else (entries.filter (KnowledgeEntry.mentions query)).take limit

namespace GitRepository
variable (repo : GitRepository)

def BlockedAfter (before layers : List KnowledgeLayer) : Prop :=
  ∃ between layer after, layers = between ++ layer :: after ∧
    (∀ entries, repo.listInner config layer "" ≠ .ok entries) ∧
      ¬ Ends query limit (repo.visited config (before ++ between))

/-- A layer that cannot be listed comes before the end of the search. -/
def Blocked (layers : List KnowledgeLayer) : Prop := repo.BlockedAfter config query limit [] layers

end GitRepository

end

section
variable {config : RepositoryConfig} {query : String} {limit : Nat}

theorem not_ends_nil : ¬ Ends query limit [] := fun ends => ends.1 rfl

section
variable {entries : List KnowledgeEntry} (ends : Ends query limit entries) (more : List KnowledgeEntry)
include ends more

theorem Ends.append : Ends query limit (entries ++ more) := by
  constructor
  · intro empty
    exact ends.1 (append_eq_nil_iff.mp empty).1
  · rw [filter_append, length_append]
    have enough := ends.2
    omega

theorem foundIn_append : foundIn query limit (entries ++ more) = foundIn query limit entries := by
  unfold foundIn
  split
  · obtain ⟨first, rest, rfl⟩ := exists_cons_of_ne_nil ends.1
    rfl
  · rw [filter_append, take_append_of_le_length ends.2]

end

theorem foundIn_of_not_ends {entries : List KnowledgeEntry} (goesOn : ¬ Ends query limit entries) :
    foundIn query limit entries = entries.filter (KnowledgeEntry.mentions query) := by
  unfold foundIn
  by_cases empty : entries = []
  · simp [empty]
  · have few : (entries.filter (KnowledgeEntry.mentions query)).length < limit := by
      by_contra many
      exact goesOn ⟨empty, by omega⟩
    rw [if_neg (by omega), take_of_length_le (by omega)]

theorem foundIn_concat {seen : List KnowledgeEntry} {entry : KnowledgeEntry} (goesOn : ¬ Ends query limit seen)
    (ends : Ends query limit (seen ++ [entry])) :
    foundIn query limit (seen ++ [entry]) = (seen ++ [entry]).filter (KnowledgeEntry.mentions query) := by
  unfold foundIn
  by_cases none : limit = 0
  · subst none
    have empty : seen = [] := by
      by_contra present
      exact goesOn ⟨present, by omega⟩
    rw [if_pos rfl, empty, nil_append, take_of_length_le (by simp)]
  · have few : (seen.filter (KnowledgeEntry.mentions query)).length < limit := by
      by_contra many
      refine goesOn ⟨?_, by omega⟩
      intro empty
      rw [empty, filter_nil, length_nil] at many
      omega
    have one : ([entry].filter (KnowledgeEntry.mentions query)).length ≤ 1 := length_filter_le _ _
    rw [if_neg none, take_of_length_le]
    rw [filter_append, length_append]
    omega

theorem foundIn_zero {entries : List KnowledgeEntry} : foundIn query 0 entries = [] ↔
    ∀ entry, entries.head? = some entry → entry.mentions query = false := by
  cases entries <;> simp [foundIn]

theorem searchEntries_eq (entries : List KnowledgeEntry) {seen : List KnowledgeEntry}
    (goesOn : ¬ Ends query limit seen) :
    (searchEntries query limit (seen.filter (KnowledgeEntry.mentions query)) entries).1 =
        foundIn query limit (seen ++ entries) ∧
      ((searchEntries query limit (seen.filter (KnowledgeEntry.mentions query)) entries).2 = true ↔
        Ends query limit (seen ++ entries)) := by
  induction entries generalizing seen with
  | nil =>
    rw [append_nil, foundIn_of_not_ends goesOn]
    exact ⟨rfl, by simp [searchEntries, goesOn]⟩
  | cons entry rest ih =>
    have pushed : (if entry.mentions query then seen.filter (KnowledgeEntry.mentions query) ++ [entry]
        else seen.filter (KnowledgeEntry.mentions query)) = (seen ++ [entry]).filter
          (KnowledgeEntry.mentions query) := by
      rw [filter_append, filter_cons, filter_nil]
      split <;> simp
    rw [searchEntries, pushed, append_cons seen entry rest]
    by_cases enough : ((seen ++ [entry]).filter (KnowledgeEntry.mentions query)).length ≥ limit
    · have ends : Ends query limit (seen ++ [entry]) := ⟨by simp, enough⟩
      rw [if_pos enough, foundIn_append ends, foundIn_concat goesOn ends]
      exact ⟨rfl, iff_of_true rfl (ends.append rest)⟩
    · rw [if_neg enough]
      exact ih (fun ends => enough ends.2)

variable {repo : GitRepository}

theorem visited_append (before layers : List KnowledgeLayer) :
    repo.visited config (before ++ layers) = repo.visited config before ++ repo.visited config layers :=
  flatMap_append

theorem blockedAfter_cons {before rest : List KnowledgeLayer} {layer : KnowledgeLayer}
    (goesOn : ¬ Ends query limit (repo.visited config before)) :
    repo.BlockedAfter config query limit before (layer :: rest) ↔
      (∀ entries, repo.listInner config layer "" ≠ .ok entries) ∨
        repo.BlockedAfter config query limit (before ++ [layer]) rest := by
  constructor
  · rintro ⟨between, blocked, after, split, unread, still⟩
    cases between with
    | nil =>
      cases split
      exact Or.inl unread
    | cons first between =>
      cases split
      exact Or.inr ⟨between, blocked, after, rfl, unread, by rwa [← append_cons]⟩
  · rintro (unread | ⟨between, blocked, after, rfl, unread, still⟩)
    · exact ⟨[], layer, rest, rfl, unread, by rwa [append_nil]⟩
    · exact ⟨layer :: between, blocked, after, rfl, unread, by rwa [append_cons]⟩

theorem not_blockedAfter {before layers : List KnowledgeLayer}
    (ends : Ends query limit (repo.visited config before)) :
    ¬ repo.BlockedAfter config query limit before layers := by
  rintro ⟨between, -, -, -, -, still⟩
  rw [visited_append] at still
  exact still (ends.append _)

theorem searchLayers_spec {before layers : List KnowledgeLayer}
    (goesOn : ¬ Ends query limit (repo.visited config before)) :
    (repo.BlockedAfter config query limit before layers ∧
      ∃ message, repo.searchLayers config query limit (repo.matching config query before) layers = .error message) ∨
    (¬ repo.BlockedAfter config query limit before layers ∧
      repo.searchLayers config query limit (repo.matching config query before) layers =
        .ok (foundIn query limit (repo.visited config (before ++ layers)))) := by
  induction layers generalizing before with
  | nil =>
    right
    rw [append_nil, foundIn_of_not_ends goesOn]
    refine ⟨?_, rfl⟩
    rintro ⟨between, layer, after, split, -⟩
    simp at split
  | cons layer rest ih =>
    rw [blockedAfter_cons goesOn, GitRepository.searchLayers]
    cases listed : repo.listInner config layer "" with
    | error message => exact Or.inl ⟨Or.inl (fun _ same => by cases same), message, rfl⟩
    | ok entries =>
      obtain ⟨results, stops⟩ := searchEntries_eq entries goesOn
      have along : repo.visited config before ++ entries = repo.visited config (before ++ [layer]) := by
        simp [GitRepository.visited, listInner_view listed]
      rw [along] at results stops
      have read : ¬ ∀ others, (Except.ok entries : Except String (List KnowledgeEntry)) ≠ .ok others :=
        fun unread => unread entries rfl
      rw [append_cons before layer rest]
      simp only [read, false_or, bind, Except.bind]
      by_cases returned : (searchEntries query limit (repo.matching config query before) entries).2 = true
      · have ends := stops.mp returned
        right
        rw [if_pos returned, visited_append, foundIn_append ends, ← results]
        exact ⟨not_blockedAfter ends, rfl⟩
      · have still : ¬ Ends query limit (repo.visited config (before ++ [layer])) :=
          fun ends => returned (stops.mpr ends)
        rw [if_neg returned]
        rw [foundIn_of_not_ends still] at results
        have next := ih still
        rw [GitRepository.matching, ← results] at next
        exact next

end

/-- A query returns the best of all matches exactly when it fails, or when no match after the first `limit` ones comes
before one of these and a limit of none does not meet a match first. -/
theorem bestMatches_iff (config : RepositoryConfig) (repo : GitRepository) (query : String)
    (layers : List KnowledgeLayer) (limit : Nat) :
    repo.BestMatches config query limit layers ↔ repo.Blocked config query limit layers ∨
      ((limit = 0 → ∀ entry, (repo.visited config layers).head? = some entry → entry.mentions query = false) ∧
        Ahead KnowledgeEntry.Precedes ((repo.matching config query layers).take limit)
          ((repo.matching config query layers).drop limit)) := by
  have start : ¬ Ends query limit (repo.visited config []) := not_ends_nil
  obtain ⟨blocked, message, fails⟩ | ⟨goes, succeeds⟩ := @searchLayers_spec config query limit repo [] layers start
  · apply iff_of_true _ (Or.inl blocked)
    intro results answered
    have none : repo.searchInner config query limit layers = .error message := fails
    simp [GitRepository.queryWithPrecedence, none, bind, Except.bind] at answered
  · have found : repo.searchInner config query limit layers = .ok
        (foundIn query limit (repo.visited config layers)) :=
      succeeds
    have unblocked : ¬ repo.Blocked config query limit layers := goes
    simp only [GitRepository.BestMatches, GitRepository.queryWithPrecedence, found, bind, Except.bind,
      pure, Except.pure,
      Except.ok.injEq, forall_eq', unblocked, false_or, length_insertionSort]
    by_cases zero : limit = 0
    · subst zero
      have nothing : Ahead KnowledgeEntry.Precedes ((repo.matching config query layers).take 0)
          ((repo.matching config query layers).drop 0) := fun _ none => absurd none not_mem_nil
      rw [← foundIn_zero, Nat.le_zero, length_eq_zero_iff]
      constructor
      · rintro ⟨empty, -⟩
        exact ⟨fun _ => empty, nothing⟩
      · rintro ⟨empty, -⟩
        rw [empty rfl]
        exact ⟨rfl, rfl⟩
    · have cut : foundIn query limit (repo.visited config layers) =
          (repo.matching config query layers).take limit := by
        rw [foundIn, if_neg zero, GitRepository.matching]
      rw [cut, sort_take_iff]
      simp [zero, length_take]

def twoGuides : GitRepository :=
  ([("new.md", 2), ("old.md", 1)] : List (String × Int)).foldl (fun repo guide =>
    ((repo.storeInner guideConfig { guideEntry guide.1 .accepted with updatedAt := guide.2 } "store").toOption.map
      (·.2)).getD repo) .empty

theorem older_guide_returned : ¬ twoGuides.BestMatches guideConfig "plain" 1 [.project] := by
  intro returned
  have read : (twoGuides.queryWithPrecedence guideConfig "plain" 1 [.project]).toOption.map (·.map (·.path)) =
      some ["old.md"] := by decide +kernel
  have first : (best KnowledgeEntry.Precedes 1 (twoGuides.matching guideConfig "plain" [.project])).map (·.path) =
      ["new.md"] := by decide +kernel
  cases answered : twoGuides.queryWithPrecedence guideConfig "plain" 1 [.project] with
  | error message =>
    rw [answered] at read
    cases read
  | ok results =>
    rw [answered] at read
    have older : results.map (·.path) = ["old.md"] := Option.some.inj read
    rw [← (returned results answered).2, older] at first
    exact absurd first (by decide)

end Aeterna
