import Aeterna.Knowledge.Precedence

namespace Aeterna
open Resolver (residualRelationTypes Relations)
open List

namespace Enriched

/-- What `get_relations_for_item` answers for a path. -/
abbrev Fetch : Type := String → Except String (List KnowledgeRelation)

def pathToEntry (sorted : List KnowledgeEntry) : HashMap String KnowledgeEntry :=
  sorted.foldl (fun held entry => held.insert entry.path entry) ∅

def pathToRelations (fetch : Fetch) (sorted : List KnowledgeEntry) : Relations :=
  sorted.foldl (fun held entry =>
    match fetch entry.path with
    | .ok rels => held.insert entry.path rels
    | .error _ => held) ∅

def residualPath (primary : String) (rel : KnowledgeRelation) : String :=
  if rel.sourceId = primary then rel.targetId else rel.sourceId

structure Attaching where
  pathToEntry : HashMap String KnowledgeEntry
  consumed : List String
  localResiduals : List (KnowledgeRelationType × KnowledgeEntryWithRelations)

structure Grouping where
  pathToEntry : HashMap String KnowledgeEntry
  consumed : List String
  results : List KnowledgeQueryResult

section
variable (relations : Relations)

def relationsOf (path : String) : List KnowledgeRelation := (relations.lookup path).getD []

def attach (primary : String) (state : Attaching) (rel : KnowledgeRelation) : Attaching :=
  if rel.relationType ∉ residualRelationTypes then state
  else if residualPath primary rel ∈ state.consumed then state
  else
    match state.pathToEntry.lookup (residualPath primary rel) with
    | none => state
    | some entry => {
        pathToEntry := state.pathToEntry.erase (residualPath primary rel)
        consumed := residualPath primary rel :: state.consumed
        localResiduals := state.localResiduals ++
          [(rel.relationType, ⟨entry, relationsOf relations (residualPath primary rel)⟩)] }

def visit (state : Grouping) (primary : KnowledgeEntry) : Grouping :=
  if primary.path ∈ state.consumed then state
  else
    let attached := (relationsOf relations primary.path).foldl (attach relations primary.path)
      ⟨state.pathToEntry, state.consumed, []⟩
    { pathToEntry := attached.pathToEntry
      consumed := primary.path :: attached.consumed
      results := state.results ++
        [⟨⟨primary, relationsOf relations primary.path⟩, attached.localResiduals⟩] }

end

def group (fetch : Fetch) (sorted : List KnowledgeEntry) : List KnowledgeQueryResult :=
  (sorted.foldl (visit (pathToRelations fetch sorted)) ⟨pathToEntry sorted, [], []⟩).results

end Enriched

open Enriched

section
variable (config : RepositoryConfig) (fetch : Fetch) (query : String) (limit : Nat) (repo : GitRepository)

def GitRepository.queryEnriched (layers : List KnowledgeLayer) : Except String (List KnowledgeQueryResult) := do
  let sorted ← repo.queryWithPrecedence config query limit layers
  pure (group fetch sorted)

open Classical in
def OnceEach (sorted : List KnowledgeEntry) (results : List KnowledgeQueryResult) : Prop :=
  ∀ entry ∈ sorted, (results.flatMap (·.entries)).count entry = 1

/-- The enriched query neither loses nor repeats what the query returns. -/
def GitRepository.EnrichedOnce (layers : List KnowledgeLayer) : Prop :=
  ∀ sorted results, repo.queryWithPrecedence config query limit layers = .ok sorted →
    repo.queryEnriched config fetch query limit layers = .ok results → OnceEach sorted results

end

namespace Enriched

section
variable (relations : Relations)

def links (primary path : String) : Bool :=
  (relationsOf relations primary).any (fun rel =>
    rel.relationType ∈ residualRelationTypes ∧ residualPath primary rel = path)

def Reached (leading : List String) (path : String) : Prop :=
  path ∈ leading ∨ ∃ primary ∈ leading, links relations primary path

instance (leading : List String) (path : String) : Decidable (Reached relations leading path) :=
  inferInstanceAs (Decidable (_ ∨ _))

def lead (leading : List String) (path : String) : List String :=
  if Reached relations leading path then leading else leading ++ [path]

def leaders (paths : List String) : List String := paths.foldl (lead relations) []

def atPath (sorted : List KnowledgeEntry) (path : String) : List KnowledgeEntry :=
  sorted.filter (fun entry => entry.path = path)

def Settled (fetch : Fetch) (sorted : List KnowledgeEntry) : Prop :=
  ∀ path ∈ sorted.map (·.path),
    if path ∈ leaders (pathToRelations fetch sorted) (sorted.map (·.path)) ∧
        links (pathToRelations fetch sorted) path path then
      (atPath sorted path).head? ≠ (atPath sorted path).getLast? ∧
        ∀ entry ∈ atPath sorted path,
          some entry = (atPath sorted path).head? ∨ some entry = (atPath sorted path).getLast?
    else ∀ a ∈ atPath sorted path, ∀ b ∈ atPath sorted path, a = b

end

end Enriched

namespace Enriched

section
variable {relations : Relations} {path : String}

def Keyed (held : HashMap String KnowledgeEntry) : Prop :=
  ∀ path entry, held.lookup path = some entry → entry.path = path

@[ext]
structure Cell where
  held : Option KnowledgeEntry
  consumed : Bool
  out : List KnowledgeEntry

/-- The entry of a path is attached, if it is still there. -/
def Cell.take (cell : Cell) : Cell :=
  if cell.consumed then cell
  else
    match cell.held with
    | none => cell
    | some entry => ⟨none, true, cell.out ++ [entry]⟩

theorem Cell.take_take (cell : Cell) : cell.take.take = cell.take := by
  obtain ⟨held, consumed, out⟩ := cell
  cases consumed <;> cases held <;> rfl

def Attaching.cell (state : Attaching) (path : String) : Cell where
  held := state.pathToEntry.lookup path
  consumed := path ∈ state.consumed
  out := atPath (state.localResiduals.map (·.2.entry)) path

def Grouping.cell (state : Grouping) (path : String) : Cell where
  held := state.pathToEntry.lookup path
  consumed := path ∈ state.consumed
  out := atPath (state.results.flatMap (·.entries)) path

theorem atPath_append (a b : List KnowledgeEntry) : atPath (a ++ b) path = atPath a path ++ atPath b path :=
  filter_append _ _

theorem atPath_cons (entry : KnowledgeEntry) (rest : List KnowledgeEntry) :
    atPath (entry :: rest) path = atPath [entry] path ++ atPath rest path :=
  atPath_append [entry] rest

theorem atPath_singleton (entry : KnowledgeEntry) : atPath [entry] path = if entry.path = path then [entry]
    else [] := by
  simp [atPath, filter_cons]

variable {primary : String}

theorem attach_keyed {state : Attaching} (keyed : Keyed state.pathToEntry) (rel : KnowledgeRelation) :
    Keyed (attach relations primary state rel).pathToEntry := by
  unfold attach
  split
  · exact keyed
  · split
    · exact keyed
    · split
      · exact keyed
      · intro other entry found
        by_cases same : other = residualPath primary rel
        · subst same
          simp at found
        · rw [AList.lookup_erase_ne same] at found
          exact keyed other entry found

theorem attach_cell {state : Attaching} (keyed : Keyed state.pathToEntry) (rel : KnowledgeRelation) :
    (attach relations primary state rel).cell path =
      if rel.relationType ∈ residualRelationTypes ∧ residualPath primary rel = path then (state.cell path).take
      else state.cell path := by
  unfold attach
  split
  · rename_i plain
    rw [if_neg (fun both => plain both.1)]
  · rename_i residual
    rw [not_not] at residual
    split
    · rename_i consumed
      split
      · rename_i both
        have already : (state.cell path).consumed = true := by
          rw [← both.2]
          exact decide_eq_true consumed
        rw [Cell.take, if_pos already]
      · rfl
    · rename_i fresh
      split
      · rename_i missing
        split
        · rename_i both
          have none : (state.cell path).held = none := by
            rw [← both.2]
            exact missing
          rw [Cell.take, none]
          simp
        · rfl
      · rename_i entry found
        by_cases same : residualPath primary rel = path
        · subst same
          rw [if_pos ⟨residual, rfl⟩]
          simp [Attaching.cell, Cell.take, fresh, found, atPath_append, atPath_singleton, keyed _ _ found]
        · rw [if_neg (fun both => same both.2)]
          simp [Attaching.cell, AList.lookup_erase_ne (Ne.symm same), Ne.symm same, atPath_append, atPath_singleton,
            keyed _ _ found, same]

section
variable (found : List KnowledgeRelation) {state : Attaching} (keyed : Keyed state.pathToEntry)
include found keyed

theorem attached_keyed : Keyed (found.foldl (attach relations primary) state).pathToEntry := by
  induction found generalizing state with
  | nil => exact keyed
  | cons rel rest ih => exact ih (attach_keyed keyed rel)

theorem attached_cell : (found.foldl (attach relations primary) state).cell path =
      if found.any (fun rel => rel.relationType ∈ residualRelationTypes ∧ residualPath primary rel = path) then
        (state.cell path).take
      else state.cell path := by
  induction found generalizing state with
  | nil => rfl
  | cons rel rest ih =>
    rw [foldl_cons, ih (attach_keyed keyed rel), attach_cell keyed, any_cons]
    by_cases here : rel.relationType ∈ residualRelationTypes ∧ residualPath primary rel = path
    · simp [here, Cell.take_take]
    · simp [here]

end

theorem visit_keyed {state : Grouping} (keyed : Keyed state.pathToEntry) (primary : KnowledgeEntry) :
    Keyed (visit relations state primary).pathToEntry := by
  unfold visit
  split
  · exact keyed
  · exact attached_keyed _ keyed

variable (relations) in
def reach (primary path : String) (cell : Cell) : Cell :=
  if links relations primary path then Cell.take ⟨cell.held, cell.consumed, []⟩ else ⟨cell.held, cell.consumed, []⟩

theorem reach_consumed {cell : Cell} (consumed : cell.consumed = true) :
    reach relations primary path cell = ⟨cell.held, true, []⟩ := by
  rw [reach, consumed]
  split <;> rfl

theorem reach_free {cell : Cell} {last : KnowledgeEntry} {out : List KnowledgeEntry}
    (free : cell = ⟨some last, false, out⟩) : reach relations primary path cell =
      if links relations primary path then ⟨none, true, [last]⟩ else ⟨some last, false, []⟩ := by
  rw [reach, free]
  rfl

theorem visit_cell {state : Grouping} {primary : KnowledgeEntry} (keyed : Keyed state.pathToEntry)
    (fresh : primary.path ∉ state.consumed) :
    (visit relations state primary).cell path = ⟨(reach relations primary.path path (state.cell path)).held,
        primary.path = path ∨ (reach relations primary.path path (state.cell path)).consumed,
        (state.cell path).out ++ atPath [primary] path ++
          (reach relations primary.path path (state.cell path)).out⟩ := by
  have start : Keyed (Attaching.mk state.pathToEntry state.consumed []).pathToEntry := keyed
  have same : reach relations primary.path path (state.cell path) =
      ((relationsOf relations primary.path).foldl (attach relations primary.path)
        ⟨state.pathToEntry, state.consumed, []⟩).cell path :=
          (attached_cell (relationsOf relations primary.path) start).symm
  rw [same, visit, if_neg fresh]
  simp [Grouping.cell, Attaching.cell, atPath_append, KnowledgeQueryResult.entries, eq_comm,
    atPath_cons primary (map _ _)]

end

section
variable {relations : Relations} {sorted : List KnowledgeEntry}

structure Tracks (relations : Relations) (sorted : List KnowledgeEntry) (leading : List String) (state : Grouping) :
    Prop where
  keyed : Keyed state.pathToEntry
  led : ∀ path ∈ leading, (state.cell path).consumed = true ∧
    (state.cell path).out = (atPath sorted path).head?.toList ++
      (if links relations path path then (atPath sorted path).getLast?.toList else [])
  attached : ∀ path ∈ sorted.map (·.path), path ∉ leading → Reached relations leading path →
    (state.cell path).consumed = true ∧ (state.cell path).out = (atPath sorted path).getLast?.toList
  free : ∀ path ∈ sorted.map (·.path), ¬ Reached relations leading path →
    state.cell path = ⟨(atPath sorted path).getLast?, false, []⟩

theorem Tracks.consumed {leading : List String} {state : Grouping} (tracks : Tracks relations sorted leading state)
    {path : String} (listed : path ∈ sorted.map (·.path)) : path ∈ state.consumed ↔
      Reached relations leading path := by
  constructor
  · intro consumed
    by_contra free
    have cell := congrArg Cell.consumed (tracks.free path listed free)
    simp [Grouping.cell, consumed] at cell
  · intro reached
    by_cases leads : path ∈ leading
    · exact of_decide_eq_true (tracks.led path leads).1
    · exact of_decide_eq_true (tracks.attached path listed leads reached).1

theorem reached_mono {leading : List String} {path : String} (reached : Reached relations leading path)
    (more : List String) :
    Reached relations (leading ++ more) path := by
  rcases reached with leads | ⟨primary, leads, linked⟩
  · exact Or.inl (mem_append_left _ leads)
  · exact Or.inr ⟨primary, mem_append_left _ leads, linked⟩

theorem exists_head?_atPath {path : String} {entry : KnowledgeEntry} (among : entry ∈ atPath sorted path) :
    ∃ first ∈ atPath sorted path, (atPath sorted path).head? = some first := by
  obtain ⟨first, rest, shape⟩ := exists_cons_of_ne_nil (ne_nil_of_mem among)
  exact ⟨first, by simp [shape], by rw [shape]; rfl⟩

theorem getLast?_atPath {path : String} (listed : path ∈ sorted.map (·.path)) :
    ∃ entry, (atPath sorted path).getLast? = some entry ∧ entry.path = path := by
  obtain ⟨entry, member, named⟩ := mem_map.mp listed
  have present : entry ∈ atPath sorted path := mem_filter.mpr ⟨member, by simpa using named⟩
  obtain ⟨last, ends⟩ := Option.isSome_iff_exists.mp (getLast?_isSome.mpr (ne_nil_of_mem present))
  have among := (mem_filter.mp (mem_of_getLast? ends)).2
  exact ⟨last, ends, by simpa using among⟩

variable {done todo entries : List KnowledgeEntry}

theorem head?_atPath {leading : List String} {entry : KnowledgeEntry}
    (split : sorted = done ++ entry :: todo) (passed : ∀ other ∈ done, Reached relations leading other.path)
    (apart : ¬ Reached relations leading entry.path) : (atPath sorted entry.path).head? = some entry := by
  have none : atPath done entry.path = [] := by
    apply filter_eq_nil_iff.mpr
    intro other among same
    rw [← (by simpa using same : other.path = entry.path)] at apart
    exact apart (passed other among)
  rw [split, atPath_append, none]
  simp [atPath]

namespace Tracks
variable {leading : List String} {state : Grouping} (tracks : Tracks relations sorted leading state)
  {entry : KnowledgeEntry} (listed : entry.path ∈ sorted.map (·.path))
  (apart : ¬ Reached relations leading entry.path)
include tracks listed apart

theorem fresh : entry.path ∉ state.consumed := fun consumed => apart ((tracks.consumed listed).mp consumed)

theorem visit_led (first : (atPath sorted entry.path).head? = some entry) {path : String}
    (leads : path ∈ leading ++ [entry.path]) :
    ((Enriched.visit relations state entry).cell path).consumed = true ∧
      ((Enriched.visit relations state entry).cell path).out = (atPath sorted path).head?.toList ++
        (if links relations path path then (atPath sorted path).getLast?.toList else []) := by
  rw [visit_cell tracks.keyed (tracks.fresh listed apart)]
  rcases mem_append.mp leads with before | new
  · obtain ⟨consumed, out⟩ := tracks.led path before
    have other : entry.path ≠ path := fun same => apart (same ▸ Or.inl before)
    rw [reach_consumed consumed, atPath_singleton, if_neg other, out]
    simp
  · rw [mem_singleton.mp new]
    obtain ⟨last, ends, -⟩ := getLast?_atPath listed
    have free := tracks.free entry.path listed apart
    rw [ends] at free
    rw [reach_free free, atPath_singleton, if_pos rfl, first, ends, free]
    split <;> simp

theorem visit_attached {path : String} (there : path ∈ sorted.map (·.path))
    (behind : path ∉ leading ++ [entry.path]) (next : Reached relations (leading ++ [entry.path]) path) :
    ((Enriched.visit relations state entry).cell path).consumed = true ∧
      ((Enriched.visit relations state entry).cell path).out = (atPath sorted path).getLast?.toList := by
  have other : entry.path ≠ path := fun same => behind (by simp [same])
  rw [visit_cell tracks.keyed (tracks.fresh listed apart), atPath_singleton, if_neg other]
  by_cases before : Reached relations leading path
  · obtain ⟨consumed, out⟩ := tracks.attached path there (fun leads => behind (mem_append_left _ leads)) before
    rw [reach_consumed consumed, out]
    simp
  · obtain ⟨last, ends, -⟩ := getLast?_atPath there
    have free := tracks.free path there before
    have linked : links relations entry.path path = true := by
      rcases next with leads | ⟨primary, leads, linked⟩
      · exact absurd leads behind
      · rcases mem_append.mp leads with early | new
        · exact absurd (Or.inr ⟨primary, early, linked⟩) before
        · rwa [← mem_singleton.mp new]
    rw [ends] at free
    rw [reach_free free, if_pos linked, ends, free]
    simp

theorem visit_free {path : String} (there : path ∈ sorted.map (·.path))
    (still : ¬ Reached relations (leading ++ [entry.path]) path) :
    (Enriched.visit relations state entry).cell path = ⟨(atPath sorted path).getLast?, false, []⟩ := by
  have before : ¬ Reached relations leading path := fun reached => still (reached_mono reached _)
  have other : entry.path ≠ path := fun same => still (Or.inl (by simp [same]))
  have unlinked : ¬ links relations entry.path path = true :=
    fun linked => still (Or.inr ⟨entry.path, by simp, linked⟩)
  obtain ⟨last, ends, -⟩ := getLast?_atPath there
  have free := tracks.free path there before
  rw [ends] at free
  rw [visit_cell tracks.keyed (tracks.fresh listed apart), atPath_singleton, if_neg other, reach_free free,
    if_neg unlinked, ends, free]
  simp [other]

end Tracks

theorem Tracks.visit {leading : List String} {state : Grouping} (tracks : Tracks relations sorted leading state)
    {entry : KnowledgeEntry} (split : sorted = done ++ entry :: todo)
    (passed : ∀ other ∈ done, Reached relations leading other.path) :
    Tracks relations sorted (lead relations leading entry.path) (visit relations state entry) := by
  have listed : entry.path ∈ sorted.map (·.path) := by simp [split]
  rw [lead]
  by_cases reached : Reached relations leading entry.path
  · rw [if_pos reached, Enriched.visit, if_pos ((tracks.consumed listed).mpr reached)]
    exact tracks
  · rw [if_neg reached]
    exact {
      keyed := visit_keyed tracks.keyed entry
      led := fun _ leads => tracks.visit_led listed reached (head?_atPath split passed reached) leads
      attached := fun _ there behind next => tracks.visit_attached listed reached there behind next
      free := fun _ there still => tracks.visit_free listed reached there still }

theorem lead_reached (leading : List String) (path : String) :
    Reached relations (lead relations leading path) path := by
  unfold lead
  split
  · assumption
  · exact Or.inl (by simp)

theorem lead_mono {leading : List String} {path : String} (reached : Reached relations leading path) (next : String) :
    Reached relations (lead relations leading next) path := by
  unfold lead
  split
  · exact reached
  · exact reached_mono reached _

theorem Tracks.foldl {leading : List String} {state : Grouping}
    (split : sorted = done ++ todo) (tracks : Tracks relations sorted leading state)
    (passed : ∀ other ∈ done, Reached relations leading other.path) :
    Tracks relations sorted ((todo.map (·.path)).foldl (lead relations) leading)
      (todo.foldl (Enriched.visit relations) state) ∧
      ∀ other ∈ sorted, Reached relations ((todo.map (·.path)).foldl (lead relations) leading) other.path := by
  induction todo generalizing done leading state with
  | nil =>
    rw [append_nil] at split
    exact ⟨tracks, split ▸ passed⟩
  | cons entry rest ih =>
    have next : sorted = (done ++ [entry]) ++ rest := by rw [split, append_cons]
    apply ih next (tracks.visit split passed)
    intro other among
    rcases mem_append.mp among with before | new
    · exact lead_mono (passed other before) _
    · rw [mem_singleton.mp new]
      exact lead_reached _ _

theorem lookup_pathToEntry (path : String) : (pathToEntry sorted).lookup path = (atPath sorted path).getLast? := by
  induction sorted using reverseRecOn with
  | nil => rfl
  | append_singleton before entry ih =>
    rw [pathToEntry, foldl_append, atPath_append, atPath_singleton]
    simp only [foldl_cons, foldl_nil]
    by_cases same : entry.path = path
    · subst same
      simp
    · rw [if_neg same, append_nil, ← ih, AList.lookup_insert_ne (Ne.symm same)]
      rfl

theorem tracks_start : Tracks relations sorted [] ⟨pathToEntry sorted, [], []⟩ := by
  constructor
  · intro path entry found
    rw [lookup_pathToEntry] at found
    have among := (mem_filter.mp (mem_of_getLast? found)).2
    simpa using among
  · intro path none
    cases none
  · rintro path - - (none | ⟨primary, none, -⟩)
    · cases none
    · cases none
  · intro path _ _
    rw [← lookup_pathToEntry]
    rfl

theorem group_atPath {fetch : Fetch} {path : String} (listed : path ∈ sorted.map (·.path)) :
    atPath ((group fetch sorted).flatMap (·.entries)) path =
      if path ∈ leaders (pathToRelations fetch sorted) (sorted.map (·.path)) then
        (atPath sorted path).head?.toList ++
          (if links (pathToRelations fetch sorted) path path then (atPath sorted path).getLast?.toList else [])
      else (atPath sorted path).getLast?.toList := by
  have start : Tracks (pathToRelations fetch sorted) sorted [] ⟨pathToEntry sorted, [], []⟩ := tracks_start
  have split : sorted = [] ++ sorted := rfl
  obtain ⟨tracks, passed⟩ := start.foldl split (by simp)
  obtain ⟨entry, member, named⟩ := mem_map.mp listed
  have reached := passed entry member
  rw [named] at reached
  split
  · rename_i leads
    exact (tracks.led path leads).2
  · rename_i behind
    exact (tracks.attached path listed behind reached).2

open Classical in
theorem once_pair {first last : KnowledgeEntry} (starts : first ∈ entries) :
    (∀ entry ∈ entries, [first, last].count entry = 1) ↔
      first ≠ last ∧ ∀ entry ∈ entries, entry = first ∨ entry = last := by
  constructor
  · intro once
    constructor
    · intro same
      have twice := once first starts
      simp [← same] at twice
    · intro entry among
      have found : entry ∈ [first, last] := one_le_count_iff.mp (once entry among).ge
      simpa using found
  · rintro ⟨different, either⟩ entry among
    rcases either entry among with rfl | rfl
    · simp [Ne.symm different]
    · simp [different]

open Classical in
theorem once_single {given : KnowledgeEntry} (among : given ∈ entries) :
    (∀ entry ∈ entries, [given].count entry = 1) ↔ ∀ a ∈ entries, ∀ b ∈ entries, a = b := by
  have eq_of_once : ∀ entry, [given].count entry = 1 ↔ entry = given := by
    intro entry
    by_cases same : given = entry
    · simp [same]
    · simp [same, Ne.symm same]
  constructor
  · intro once a inA b inB
    rw [(eq_of_once a).mp (once a inA), (eq_of_once b).mp (once b inB)]
  · intro one entry member
    exact (eq_of_once entry).mpr (one entry member given among)

open Classical in
theorem onceEach_atPath (results : List KnowledgeQueryResult) : OnceEach sorted results ↔
    ∀ path ∈ sorted.map (·.path), ∀ entry ∈ atPath sorted path,
      (atPath (results.flatMap (·.entries)) path).count entry = 1 := by
  have here : ∀ entry : KnowledgeEntry, (atPath (results.flatMap (·.entries)) entry.path).count entry =
      (results.flatMap (·.entries)).count entry := fun entry => count_filter (by simp)
  constructor
  · intro once path _ entry member
    obtain ⟨among, named⟩ := mem_filter.mp member
    rw [← (by simpa using named : entry.path = path), here]
    exact once entry among
  · intro once entry among
    rw [← here]
    exact once entry.path (mem_map_of_mem among) entry (mem_filter.mpr ⟨among, by simp⟩)

theorem onceEach_iff (fetch : Fetch) (sorted : List KnowledgeEntry) :
    OnceEach sorted (group fetch sorted) ↔ Settled fetch sorted := by
  rw [onceEach_atPath]
  apply forall₂_congr
  intro path listed
  rw [group_atPath listed]
  obtain ⟨last, ends, -⟩ := getLast?_atPath listed
  have atEnd := mem_of_getLast? ends
  by_cases leads : path ∈ leaders (pathToRelations fetch sorted) (sorted.map (·.path))
  · obtain ⟨first, atStart, starts⟩ := exists_head?_atPath atEnd
    by_cases linked : links (pathToRelations fetch sorted) path path = true
    · rw [if_pos leads, if_pos linked, if_pos ⟨leads, linked⟩, starts, ends]
      simpa using once_pair atStart
    · rw [if_pos leads, if_neg linked, if_neg (fun both => linked both.2), starts]
      simpa using once_single atStart
  · rw [if_neg leads, if_neg (fun both => leads both.1), ends]
    simpa using once_single atEnd

end

end Enriched

open Classical in
theorem OnceEach.given {sorted : List KnowledgeEntry} {results : List KnowledgeQueryResult}
    (once : OnceEach sorted results) {entry : KnowledgeEntry} (among : entry ∈ sorted) :
    entry ∈ results.flatMap (·.entries) :=
  one_le_count_iff.mp (once entry among).ge

/-- An enriched query returns each entry once exactly when no path has two different entries and none that leads is
linked to itself, but for a path where both is so and its two entries stand in for each other. -/
theorem enrichedOnce_iff (config : RepositoryConfig) (fetch : Fetch) (repo : GitRepository) (query : String)
    (layers : List KnowledgeLayer) (limit : Nat) :
    repo.EnrichedOnce config fetch query limit layers ↔
      ∀ sorted, repo.queryWithPrecedence config query limit layers = .ok sorted → Enriched.Settled fetch sorted := by
  have grouped : ∀ sorted, repo.queryWithPrecedence config query limit layers = .ok sorted →
      repo.queryEnriched config fetch query limit layers = .ok (group fetch sorted) := by
    intro sorted found
    rw [GitRepository.queryEnriched, found]
    rfl
  constructor
  · intro once sorted found
    exact (onceEach_iff fetch sorted).mp (once sorted _ found (grouped sorted found))
  · intro settled sorted results found answered
    rw [grouped sorted found] at answered
    cases answered
    exact (onceEach_iff fetch sorted).mpr (settled sorted found)

/-- A guide is stored in a layer. -/
def layeredGuide (layer : KnowledgeLayer) (repo : GitRepository) : GitRepository :=
  ((repo.storeInner guideConfig { guideEntry "guide.md" .accepted with layer := layer } "store").toOption.map
    (·.2)).getD repo

theorem team_guide_lost : ¬ (layeredGuide .team (layeredGuide .org {})).EnrichedOnce guideConfig (fun _ => .ok [])
    "plain" 10 [.org, .team] := by
  intro once
  generalize built : layeredGuide .team (layeredGuide .org {}) = repo at once
  have read : (repo.queryWithPrecedence guideConfig "plain" 10 [.org, .team]).toOption.map (·.map (·.layer)) =
      some [.org, .team] := built ▸ (by decide +kernel)
  have given : (repo.queryEnriched guideConfig (fun _ => .ok []) "plain" 10 [.org, .team]).toOption.map
      (fun results => (results.flatMap (·.entries)).map (·.layer)) = some [.org] := built ▸ (by decide +kernel)
  cases found : repo.queryWithPrecedence guideConfig "plain" 10 [.org, .team] with
  | error message =>
    rw [found] at read
    cases read
  | ok sorted =>
    cases answered : repo.queryEnriched guideConfig (fun _ => .ok []) "plain" 10 [.org, .team] with
    | error message =>
      rw [answered] at given
      cases given
    | ok results =>
      rw [found] at read
      rw [answered] at given
      have layers : sorted.map (·.layer) = [.org, .team] := Option.some.inj read
      have kept : (results.flatMap (·.entries)).map (·.layer) = [.org] := Option.some.inj given
      have listed : KnowledgeLayer.team ∈ sorted.map (·.layer) := by
        rw [layers]
        decide
      obtain ⟨entry, among, home⟩ := mem_map.mp listed
      have there := (once sorted results found answered).given among
      have team := mem_map_of_mem (f := fun e : KnowledgeEntry => e.layer) there
      rw [kept, home] at team
      exact absurd team (by decide)

end Aeterna
