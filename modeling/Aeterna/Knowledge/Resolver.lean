import Aeterna.Access.Identity

/-!
The knowledge resolver (`knowledge/src/resolver.rs`): search results are grouped so that a residual entry
stands under the canonical one it is related to.
-/

namespace Aeterna
open List hiding set

def KnowledgeVariantRole.all : List KnowledgeVariantRole :=
  [.canonical, .specialization, .applicability, .exception, .clarification, .superseded]

def KnowledgeVariantRole.rank : KnowledgeVariantRole → Nat
  | .canonical => 0
  | .specialization => 1
  | .applicability => 2
  | .clarification => 3
  | .exception => 4
  | .superseded => 5

/-- `variant_role`: the role the metadata names, in any case of its letters. -/
def KnowledgeEntry.variantRole (entry : KnowledgeEntry) : KnowledgeVariantRole :=
  match entry.metadata.lookup "variant_role" with
  | some (.str name) =>
    (KnowledgeVariantRole.all.find? (fun role => eqIgnoreAsciiCase name role.debug)).getD .canonical
  | _ => .canonical

structure KnowledgeEntryWithRelations where
  entry : KnowledgeEntry
  relations : List KnowledgeRelation

structure KnowledgeQueryResult where
  primary : KnowledgeEntryWithRelations
  localResiduals : List (KnowledgeRelationType × KnowledgeEntryWithRelations)

namespace KnowledgeQueryResult
variable (result : KnowledgeQueryResult)

def residualPaths : List String := result.localResiduals.map (fun residual => residual.2.entry.path)

def entries : List KnowledgeEntry :=
  result.primary.entry :: result.localResiduals.map (fun residual => residual.2.entry)

end KnowledgeQueryResult

namespace Resolver

def residualRelationTypes : List KnowledgeRelationType := [.specializes, .applicableFrom, .exceptionTo, .clarifies]

abbrev Relations : Type := HashMap String (List KnowledgeRelation)

def activeEntries (entries : List KnowledgeEntry) (includeSuperseded : Bool) : List KnowledgeEntry :=
  if includeSuperseded then entries else entries.filter (fun entry => entry.status ≠ .superseded)

def enrich (allRelations : Relations) (entry : KnowledgeEntry) : KnowledgeEntryWithRelations :=
  let own := (allRelations.lookup entry.path).getD []
  let all := (allRelations.entries.flatMap (·.2)).foldl (fun held rel =>
    if rel.targetId = entry.path ∧ rel.sourceId ≠ entry.path ∧ ¬ held.any (fun other => other.id = rel.id) then
      held ++ [rel]
    else held) own
  { entry := entry, relations := all.insertionSort (fun a b => a.createdAt ≤ b.createdAt) }

abbrev Parents : Type := HashMap String (String × KnowledgeRelationType)

def markResidual (paths : List String) (path : String) (parents : Parents) (rel : KnowledgeRelation) : Parents :=
  if rel.relationType ∈ residualRelationTypes ∧ rel.targetId ∈ paths then
    parents.insert path (rel.targetId, rel.relationType)
  else parents

def markEntry (paths : List String) (allRelations : Relations) (parents : Parents) (entry : KnowledgeEntry) :
    Parents :=
  ((allRelations.lookup entry.path).getD []).foldl (markResidual paths entry.path) parents

def parentsOf (active : List KnowledgeEntry) (allRelations : Relations) : Parents :=
  active.foldl (markEntry (active.map (·.path)) allRelations) ∅

def before (a b : KnowledgeEntry) : Bool :=
  b.layer.precedence < a.layer.precedence ∨
    (a.layer.precedence = b.layer.precedence ∧ a.variantRole.rank ≤ b.variantRole.rank)

def residualsOf (active : List KnowledgeEntry) (allRelations : Relations) (parents : Parents)
    (primary : KnowledgeEntry) :
    List (KnowledgeRelationType × KnowledgeEntryWithRelations) :=
  (active.filterMap (fun entry => (parents.lookup entry.path).bind (fun parent =>
    if parent.1 = primary.path then some (parent.2, enrich allRelations entry) else none))).insertionSort
      (fun a b => a.2.entry.variantRole.rank ≤ b.2.entry.variantRole.rank)

structure Grouping where
  results : List KnowledgeQueryResult := []
  seen : List String := []

def visit (group : KnowledgeEntry → KnowledgeQueryResult) (state : Grouping) (entry : KnowledgeEntry) : Grouping :=
  if entry.path ∈ state.seen then state
  else {
    results := state.results ++ [group entry]
    seen := entry.path :: ((group entry).residualPaths ++ state.seen) }

def resolve (entries : List KnowledgeEntry) (allRelations : Relations) (includeSuperseded : Bool) :
    List KnowledgeQueryResult :=
  let active := activeEntries entries includeSuperseded
  if active.isEmpty then []
  else
    let parents := parentsOf active allRelations
    let primaries := (active.filter (fun entry => entry.path ∉ parents)).insertionSort (fun a b => before a b)
    let grouped := primaries.foldl (visit (fun primary =>
      { primary := enrich allRelations primary, localResiduals := residualsOf active allRelations parents primary }))
        {}
    let rest := active.foldl (visit (fun entry =>
        { primary := enrich allRelations entry, localResiduals := [] })) grouped
    rest.results

def getRelationsForItem (relations : List KnowledgeRelation) (item : String) : List KnowledgeRelation :=
  relations.filter (fun rel => rel.sourceId = item ∨ rel.targetId = item)

def relationsFor (relations : List KnowledgeRelation) (entries : List KnowledgeEntry) : Relations :=
  entries.foldl (fun held entry => held.insert entry.path (getRelationsForItem relations entry.path)) ∅

def Residual (rel : KnowledgeRelation) : Prop := rel.relationType ∈ residualRelationTypes

instance : DecidablePred Residual := fun _ => inferInstanceAs (Decidable (_ ∈ _))

/-- An entry of the set that is not a residual of another one. -/
def Canonical (relations : List KnowledgeRelation) (paths : List String) (path : String) : Prop :=
  path ∈ paths ∧ ∀ rel ∈ relations, Residual rel → rel.sourceId = path → rel.targetId ∉ paths

def AccountsForEvery (entries : List KnowledgeEntry) (relations : List KnowledgeRelation) (includeSuperseded : Bool) :
    Prop :=
  let active := activeEntries entries includeSuperseded
  let results := resolve entries (relationsFor relations entries) includeSuperseded
  (results.flatMap (·.entries)).Perm active ∧
  ∀ rel ∈ relations, Residual rel → rel.sourceId ∈ active.map (·.path) →
    Canonical relations (active.map (·.path)) rel.targetId →
    (∃ result ∈ results, result.primary.entry.path = rel.targetId ∧ rel.sourceId ∈ result.residualPaths) ∧
    ∀ result ∈ results, result.primary.entry.path ≠ rel.sourceId

section Parents
variable {relations : List KnowledgeRelation} {entries active : List KnowledgeEntry} {allRelations : Relations}

variable {path : String} {paths : List String} {found : List KnowledgeRelation} {parents : Parents}

theorem lookup_relationsFor (listed : path ∈ entries.map (·.path)) :
    (relationsFor relations entries).lookup path = some (getRelationsForItem relations path) := by
  suffices general : ∀ held : Relations,
      (path ∈ entries.map (·.path) ∨ held.lookup path = some (getRelationsForItem relations path)) →
      (entries.foldl (fun held entry =>
        held.insert entry.path (getRelationsForItem relations entry.path)) held).lookup path =
        some (getRelationsForItem relations path) from general ∅ (Or.inl listed)
  clear listed
  induction entries with
  | nil => simp
  | cons first rest ih =>
    intro held listed
    apply ih
    by_cases own : first.path = path
    · subst own
      exact Or.inr (AList.lookup_insert held)
    · rw [AList.lookup_insert_ne (Ne.symm own)]
      simpa [Ne.symm own] using listed

theorem markResidual_cases (paths : List String) (path : String) (parents : Parents) (rel : KnowledgeRelation) :
    markResidual paths path parents rel = parents ∨ (Residual rel ∧ rel.targetId ∈ paths ∧
        markResidual paths path parents rel = parents.insert path (rel.targetId, rel.relationType)) := by
  unfold markResidual
  split
  · rename_i marks
    exact Or.inr ⟨marks.1, marks.2, rfl⟩
  · exact Or.inl rfl

def Founded (relations : List KnowledgeRelation) (paths : List String) (parents : Parents) : Prop :=
  ∀ path parent kind, parents.lookup path = some (parent, kind) →
    parent ∈ paths ∧ ∃ rel ∈ relations, Residual rel ∧ rel.targetId = parent

theorem Founded.foldl (sub : ∀ rel ∈ found, rel ∈ relations) (founded : Founded relations paths parents) :
    Founded relations paths (found.foldl (markResidual paths path) parents) := by
  induction found generalizing parents with
  | nil => exact founded
  | cons first rest ih =>
    refine ih (fun rel among => sub rel (mem_cons_of_mem _ among)) ?_
    rcases markResidual_cases paths path parents first with same | ⟨residual, there, marked⟩
    · rw [same]
      exact founded
    · rw [marked]
      intro other parent kind found
      by_cases own : other = path
      · subst own
        rw [AList.lookup_insert] at found
        cases found
        exact ⟨there, first, sub first mem_cons_self, residual, rfl⟩
      · rw [AList.lookup_insert_ne own] at found
        exact founded other parent kind found

theorem marked_stays {other : String} (marked : other ∈ parents) :
    other ∈ found.foldl (markResidual paths path) parents := by
  induction found generalizing parents with
  | nil => exact marked
  | cons first rest ih =>
    apply ih
    rcases markResidual_cases paths path parents first with same | ⟨-, -, inserted⟩
    · rw [same]
      exact marked
    · rw [inserted]
      exact AList.mem_insert _ |>.mpr (Or.inr marked)

theorem marked_of_relation
    {rel : KnowledgeRelation} (among : rel ∈ found) (residual : Residual rel) (there : rel.targetId ∈ paths) :
    path ∈ found.foldl (markResidual paths path) parents := by
  obtain ⟨before, after, rfl⟩ := append_of_mem among
  rw [foldl_append, foldl_cons]
  apply marked_stays
  rw [markResidual, if_pos ⟨residual, there⟩]
  exact AList.mem_insert _ |>.mpr (Or.inl rfl)

theorem parents_founded (all : ∀ path found, allRelations.lookup path = some found → ∀ rel ∈ found, rel ∈ relations)
    (founded : Founded relations paths parents) :
    Founded relations paths (active.foldl (markEntry paths allRelations) parents) := by
  induction active generalizing parents with
  | nil => exact founded
  | cons first rest ih =>
    refine ih (Founded.foldl ?_ founded)
    intro rel among
    cases found : allRelations.lookup first.path with
    | none => simp [found] at among
    | some held => exact all first.path held found rel (by simpa [found] using among)

theorem marked_stays_entries (marked : path ∈ parents) :
    path ∈ active.foldl (markEntry paths allRelations) parents := by
  induction active generalizing parents with
  | nil => exact marked
  | cons first rest ih => exact ih (marked_stays marked)

theorem marked_by {rel : KnowledgeRelation}
    (listed : path ∈ active.map (·.path)) (held : allRelations.lookup path = some found) (among : rel ∈ found)
    (residual : Residual rel) (there : rel.targetId ∈ active.map (·.path)) :
      path ∈ parentsOf active allRelations := by
  obtain ⟨entry, member, rfl⟩ := mem_map.mp listed
  obtain ⟨before, after, split⟩ := append_of_mem member
  unfold parentsOf
  generalize active.map (·.path) = paths at there
  rw [split, foldl_append, foldl_cons]
  apply marked_stays_entries
  rw [markEntry, held]
  exact marked_of_relation among residual there

end Parents

section Groups
variable {group : KnowledgeEntry → KnowledgeQueryResult}

theorem visit_foldl (alone : ∀ entry, (group entry).localResiduals = []) {entries : List KnowledgeEntry}
    (distinct : (entries.map (·.path)).Nodup) (state : Grouping) :
    (entries.foldl (visit group) state).results =
        state.results ++ (entries.filter (fun entry => entry.path ∉ state.seen)).map group ∧
      ∀ path, path ∈ (entries.foldl (visit group) state).seen ↔ path ∈ state.seen ∨ path ∈ entries.map (·.path) := by
  induction entries generalizing state with
  | nil => simp
  | cons first rest ih =>
    obtain ⟨fresh, distinct⟩ := nodup_cons.mp distinct
    rw [foldl_cons]
    by_cases seen : first.path ∈ state.seen
    · rw [visit, if_pos seen]
      obtain ⟨results, paths⟩ := ih distinct state
      refine ⟨by simp [results, seen], ?_⟩
      intro path
      rw [paths]
      grind
    · rw [visit, if_neg seen]
      obtain ⟨results, paths⟩ := ih distinct
        { results := state.results ++ [group first], seen := first.path :: ((group first).residualPaths ++ state.seen) }
      have none : (group first).residualPaths = [] := by simp [KnowledgeQueryResult.residualPaths, alone]
      have later : rest.filter (fun entry => entry.path ∉ first.path :: state.seen) =
          rest.filter (fun entry => entry.path ∉ state.seen) := by
        apply filter_congr
        intro entry among
        have differs : entry.path ≠ first.path := fun same => fresh (mem_map.mpr ⟨entry, among, same⟩)
        simp [differs]
      rw [none, nil_append] at results paths
      refine ⟨by rw [none, nil_append, results, later]; simp [seen], ?_⟩
      intro path
      rw [none, nil_append, paths]
      simp [or_left_comm, or_assoc]

structure Apart (state : Grouping) : Prop where
  distinct : (state.results.map (·.primary.entry.path)).Nodup
  seen : ∀ result ∈ state.results, result.primary.entry.path ∈ state.seen

variable {state : Grouping}

theorem Apart.visit (own : ∀ entry, (group entry).primary.entry = entry) (apart : Apart state)
    (entry : KnowledgeEntry) : Apart (visit group state entry) := by
  unfold Resolver.visit
  split
  · exact apart
  · rename_i fresh
    constructor
    · rw [map_append, map_singleton, own]
      refine nodup_append.mpr ⟨apart.distinct, nodup_singleton _, ?_⟩
      intro path among other single same
      obtain ⟨result, held, rfl⟩ := mem_map.mp among
      rw [mem_singleton.mp single] at same
      exact fresh (same ▸ apart.seen result held)
    · intro result held
      rcases mem_append.mp held with held | held
      · exact mem_cons_of_mem _ (mem_append_right _ (apart.seen result held))
      · rw [mem_singleton.mp held, own]
        exact mem_cons_self

theorem Apart.foldl (own : ∀ entry, (group entry).primary.entry = entry) {entries : List KnowledgeEntry}
    (apart : Apart state) : Apart (entries.foldl (Resolver.visit group) state) := by
  induction entries generalizing state with
  | nil => exact apart
  | cons first rest ih => exact ih (apart.visit own first)

theorem alone_foldl {entries : List KnowledgeEntry} (alone : ∀ entry, (group entry).localResiduals = [])
    (before : ∀ result ∈ state.results, result.localResiduals = []) :
    ∀ result ∈ (entries.foldl (visit group) state).results, result.localResiduals = [] := by
  induction entries generalizing state with
  | nil => exact before
  | cons first rest ih =>
    apply ih
    unfold visit
    split
    · exact before
    · intro result held
      rcases mem_append.mp held with held | held
      · exact before result held
      · rw [mem_singleton.mp held]
        exact alone first

end Groups

section Shape
variable {entries : List KnowledgeEntry} {relations : List KnowledgeRelation} {includeSuperseded : Bool}

theorem mem_activeEntries {entry : KnowledgeEntry} (active : entry ∈ activeEntries entries includeSuperseded) :
    entry ∈ entries := by
  unfold activeEntries at active
  split at active
  · exact active
  · exact mem_of_mem_filter active

theorem relationsFor_sub {path : String} {found : List KnowledgeRelation}
    (held : (relationsFor relations entries).lookup path = some found) : ∀ rel ∈ found, rel ∈ relations := by
  by_cases listed : path ∈ entries.map (·.path)
  · rw [lookup_relationsFor listed] at held
    cases held
    exact fun rel among => mem_of_mem_filter among
  · have missing : (relationsFor relations entries).lookup path = none := by
      suffices general : ∀ state : Relations, state.lookup path = none →
          (entries.foldl (fun state entry =>
            state.insert entry.path (getRelationsForItem relations entry.path)) state).lookup
            path = none from general ∅ (by simp)
      clear held
      induction entries with
      | nil => exact fun state none => none
      | cons first rest ih =>
        simp only [map_cons, mem_cons, not_or] at listed
        intro state none
        exact ih listed.2 _ (by rw [AList.lookup_insert_ne listed.1]; exact none)
    rw [missing] at held
    cases held

theorem parent_marked {active : List KnowledgeEntry} (sub : ∀ entry ∈ active, entry ∈ entries) {path parent : String}
    {kind : KnowledgeRelationType}
    (found : (parentsOf active (relationsFor relations entries)).lookup path = some (parent, kind)) :
    parent ∈ parentsOf active (relationsFor relations entries) := by
  have founded : Founded relations (active.map (·.path)) (parentsOf active (relationsFor relations entries)) :=
    parents_founded (fun _ _ => relationsFor_sub) (by intro path parent kind found; simp at found)
  obtain ⟨there, rel, among, residual, target⟩ := founded path parent kind found
  have listed : parent ∈ entries.map (·.path) := by
    obtain ⟨entry, member, rfl⟩ := mem_map.mp there
    exact mem_map_of_mem (sub entry member)
  have seen : rel ∈ getRelationsForItem relations parent := by
    simp [getRelationsForItem, among, target]
  exact marked_by there (lookup_relationsFor listed) seen residual (target ▸ there)

def standalone (allRelations : Relations) (entry : KnowledgeEntry) : KnowledgeQueryResult where
  primary := enrich allRelations entry
  localResiduals := []

def primariesOf (active : List KnowledgeEntry) (allRelations : Relations) : List KnowledgeEntry :=
  (active.filter (fun entry => entry.path ∉ parentsOf active allRelations)).insertionSort (fun a b => before a b)

theorem mem_primariesOf {active : List KnowledgeEntry} {allRelations : Relations} {entry : KnowledgeEntry} :
    entry ∈ primariesOf active allRelations ↔ entry ∈ active ∧ entry.path ∉ parentsOf active allRelations := by
  rw [primariesOf, mem_insertionSort, mem_filter, decide_eq_true_iff]

theorem resolve_eq : resolve entries (relationsFor relations entries) includeSuperseded =
    ((activeEntries entries includeSuperseded).foldl (visit (standalone (relationsFor relations entries)))
      ((primariesOf (activeEntries entries includeSuperseded) (relationsFor relations entries)).foldl
        (visit (standalone (relationsFor relations entries))) {})).results := by
  have sub : ∀ entry ∈ activeEntries entries includeSuperseded, entry ∈ entries := fun entry => mem_activeEntries
  unfold resolve
  generalize activeEntries entries includeSuperseded = active at sub
  cases active with
  | nil => rfl
  | cons first rest =>
    simp only [isEmpty_cons, Bool.false_eq_true, if_false]
    congr 2
    apply foldl_ext
    intro state primary among
    have free := (mem_primariesOf.mp among).2
    have none : residualsOf (first :: rest) (relationsFor relations entries)
        (parentsOf (first :: rest) (relationsFor relations entries)) primary = [] := by
      rw [residualsOf, filterMap_eq_nil_iff.mpr]
      · rfl
      · intro entry _
        cases found : (parentsOf (first :: rest) (relationsFor relations entries)).lookup entry.path with
        | none => rfl
        | some parent =>
          have differs : parent.1 ≠ primary.path := fun same => free (same ▸ parent_marked sub found)
          simp [differs]
    simp only [visit, none, standalone]

theorem resolve_alone : ∀ result ∈ resolve entries (relationsFor relations entries) includeSuperseded,
    result.localResiduals = [] := by
  rw [resolve_eq]
  exact alone_foldl (fun _ => rfl) (alone_foldl (fun _ => rfl) (by simp))

theorem entries_of_alone {results : List KnowledgeQueryResult}
    (alone : ∀ result ∈ results, result.localResiduals = []) :
    results.flatMap (·.entries) = results.map (·.primary.entry) := by
  induction results with
  | nil => rfl
  | cons first rest ih =>
    rw [flatMap_cons, map_cons, ih (fun result held => alone result (mem_cons_of_mem _ held)),
      KnowledgeQueryResult.entries, alone first mem_cons_self]
    rfl

theorem resolve_distinct :
    ((resolve entries (relationsFor relations entries) includeSuperseded).map (·.primary.entry.path)).Nodup := by
  rw [resolve_eq]
  have empty : Apart {} := ⟨nodup_nil, by simp⟩
  exact (Apart.foldl (fun _ => rfl) (Apart.foldl (fun _ => rfl) empty)).distinct

theorem resolve_perm (distinct : ((activeEntries entries includeSuperseded).map (·.path)).Nodup) :
    ((resolve entries (relationsFor relations entries) includeSuperseded).map (·.primary.entry)).Perm
      (activeEntries entries includeSuperseded) := by
  rw [resolve_eq]
  generalize activeEntries entries includeSuperseded = active at distinct
  set all := relationsFor relations entries
  have perm : (primariesOf active all).Perm (active.filter (fun entry => entry.path ∉ parentsOf active all)) :=
    perm_insertionSort _ _
  have apart : ((primariesOf active all).map (·.path)).Nodup :=
    (perm.map _).nodup_iff.mpr (distinct.sublist (filter_sublist.map _))
  have alone : ∀ entry, (standalone all entry).localResiduals = [] := fun _ => rfl
  obtain ⟨first, seen⟩ := visit_foldl alone apart {}
  obtain ⟨rest, -⟩ := visit_foldl alone distinct ((primariesOf active all).foldl (visit (standalone all)) {})
  have unseen : active.filter (fun entry =>
      entry.path ∉ ((primariesOf active all).foldl (visit (standalone all)) {}).seen) =
      active.filter (fun entry => ! decide (entry.path ∉ parentsOf active all)) := by
    apply filter_congr
    intro entry among
    have seen_iff : entry.path ∈ ((primariesOf active all).foldl (visit (standalone all)) {}).seen ↔
        entry.path ∉ parentsOf active all := by
      rw [seen]
      constructor
      · rintro (none | listed)
        · cases none
        · obtain ⟨other, member, same⟩ := mem_map.mp listed
          exact same ▸ (mem_primariesOf.mp member).2
      · intro free
        exact Or.inr (mem_map_of_mem (mem_primariesOf.mpr ⟨among, free⟩))
    simp [seen_iff]
  have returned : ∀ list : List KnowledgeEntry, (list.map (standalone all)).map (·.primary.entry) = list := by
    intro list
    simp [Function.comp_def, standalone, enrich]
  rw [rest, first, unseen, map_append, nil_append, returned, returned]
  simp only [not_mem_nil, not_false_eq_true, decide_true, filter_true]
  exact (perm.append_right _).trans (filter_append_perm _ _)

end Shape

/-- All entries are accounted for exactly where no two of them share a path and none should be grouped. -/
theorem accountsForEvery_iff (entries : List KnowledgeEntry) (relations : List KnowledgeRelation)
    (includeSuperseded : Bool) :
    AccountsForEvery entries relations includeSuperseded ↔
      ((activeEntries entries includeSuperseded).map (·.path)).Nodup ∧
      ∀ rel ∈ relations, Residual rel → rel.sourceId ∈ (activeEntries entries includeSuperseded).map (·.path) →
        ¬ Canonical relations ((activeEntries entries includeSuperseded).map (·.path)) rel.targetId := by
  constructor
  · rintro ⟨once, grouped⟩
    constructor
    · rw [entries_of_alone resolve_alone] at once
      have distinct : ((resolve entries (relationsFor relations entries) includeSuperseded).map
          (·.primary.entry.path)).Nodup := resolve_distinct
      rw [← (once.map (·.path)).nodup_iff, map_map]
      exact distinct
    · intro rel among residual source canonical
      obtain ⟨⟨result, held, -, under⟩, -⟩ := grouped rel among residual source canonical
      rw [KnowledgeQueryResult.residualPaths, resolve_alone result held] at under
      cases under
  · rintro ⟨distinct, none⟩
    constructor
    · rw [entries_of_alone resolve_alone]
      exact resolve_perm distinct
    · intro rel among residual source canonical
      exact absurd canonical (none rel among residual source)

def sampleEntry (path : String) (layer : KnowledgeLayer) (role : String) : KnowledgeEntry where
  path := path
  content := path
  layer := layer
  kind := .adr
  status := .accepted
  metadata := (∅ : HashMap String Json).insert "variant_role" (.str role)

def specializes (source target : String) : KnowledgeRelation where
  id := "r1"
  sourceId := source
  targetId := target
  relationType := .specializes
  tenantId := "t"
  createdBy := "u"
  createdAt := 0

theorem specialization_ungrouped : ¬ AccountsForEvery [sampleEntry "org/canon" .org "Canonical",
      sampleEntry "proj/residual" .project "Specialization"]
      [specializes "proj/residual" "org/canon"] false := by
  rintro ⟨-, grouped⟩
  obtain ⟨⟨result, held, -, under⟩, -⟩ := grouped (specializes "proj/residual" "org/canon") (by simp)
    (by decide) (by simp [activeEntries, sampleEntry, specializes])
    ⟨by simp [activeEntries, sampleEntry, specializes], by simp [specializes]⟩
  rw [KnowledgeQueryResult.residualPaths, resolve_alone result held] at under
  cases under

end Resolver

end Aeterna
