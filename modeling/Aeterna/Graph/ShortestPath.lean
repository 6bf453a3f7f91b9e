import Aeterna.Graph.TwoStores

namespace Aeterna.Graph
open Lib (Leads Within)
open List

namespace GraphStore

def readPath (s : GraphStore) (tenantId : String) (rows : List PathRow) :
    Except PathError (List (String × EdgeRow)) :=
  match shortest rows with
  | none => .ok []
  | some pathStr => ((pathStr.toList.splitOn ',').map String.ofList).mapM (s.getEdgeById tenantId)

def shortestPathBy (order : List PathRow → List PathRow) (s : GraphStore) (tenantId : String)
    (maxPathDepth : Nat) (startId endId : String) (maxDepth : Option Nat) :
    Except PathError (List (String × EdgeRow)) :=
  if ∃ depth ∈ maxDepth, depth > maxPathDepth then .error (.maxDepthExceeded maxPathDepth)
  else s.readPath tenantId (order (s.paths tenantId startId endId (maxDepth.getD maxPathDepth)))

end GraphStore

structure ShortestWalk (s : GraphStore) (tenantId startId endId : String) (n : Nat) (walk : List (String × EdgeRow)) :
    Prop where
  filled : walk ≠ []
  within : walk.length ≤ n
  live : ∀ e ∈ walk, e ∈ s.liveEdges tenantId
  leads : Leads (fun e => e.2.sourceId) (fun e => e.2.targetId) startId walk endId
  least : ∀ m, LivePath s tenantId startId endId m → walk.length ≤ m

def FindsShortest (s : GraphStore) (tenantId startId endId : String) (n : Nat)
    (answer : Except PathError (List (String × EdgeRow))) : Prop :=
  ∃ walk, answer = .ok walk ∧ (walk = [] ↔ ¬ LivePath s tenantId startId endId n) ∧
    (walk ≠ [] → ShortestWalk s tenantId startId endId n walk)

def Unheld (walk : List (String × EdgeRow)) : Prop :=
  ∀ front e rest, walk = front ++ e :: rest → front ≠ [] → holdsId (GraphStore.walkText front) e.1 = false

/-- What the edge ids must be for a search: some shortest path is not matched against itself, none of those
has a comma in an id, and a search of depth zero has no edge to find. -/
structure Searchable (s : GraphStore) (tenantId startId endId : String) (n : Nat) : Prop where
  unheld : LivePath s tenantId startId endId n → ∃ walk, ShortestWalk s tenantId startId endId n walk ∧ Unheld walk
  unsplit : ∀ walk, ShortestWalk s tenantId startId endId n walk → Unheld walk → ∀ e ∈ walk, ',' ∉ e.1.toList
  deep : n = 0 → ∀ e ∈ s.liveEdges tenantId, e.2.sourceId = startId → e.2.targetId ≠ endId

section
variable {s : GraphStore} {tenantId startId endId : String} {n : Nat}

theorem ShortestWalk.path {walk : List (String × EdgeRow)} (shortest : ShortestWalk s tenantId startId endId n walk) :
    LivePath s tenantId startId endId n :=
  ⟨walk, shortest.filled, shortest.within, shortest.live, shortest.leads⟩

theorem ShortestWalk.early {walk front rest : List (String × EdgeRow)}
    (shortest : ShortestWalk s tenantId startId endId n walk) (split : walk = front ++ rest)
    (filled : front ≠ []) (more : rest ≠ []) : (GraphStore.lastRow front).2.targetId ≠ endId := by
  intro there
  subst split
  obtain ⟨m, first, _⟩ := Lib.leads_append.mp shortest.leads
  have here : m = endId := (GraphStore.lastRow_target first filled).symm.trans there
  have reached := shortest.least front.length ⟨front, filled, Nat.le_refl _,
    fun e member => shortest.live e (mem_append_left _ member), here ▸ first⟩
  have some := length_pos_iff.mpr more
  rw [length_append] at reached
  omega

theorem found_row {row : PathRow} (member : row ∈ s.paths tenantId startId endId n) (found : row.found = true) :
    ∃ walk, row = GraphStore.pathOf endId walk ∧ walk ≠ [] ∧ walk.length ≤ max 1 n ∧
      (∀ e ∈ walk, e ∈ s.liveEdges tenantId) ∧
      Leads (fun e => e.2.sourceId) (fun e => e.2.targetId) startId walk endId ∧ Unheld walk := by
  obtain ⟨walk, grown, short, rfl⟩ := GraphStore.mem_paths.mp member
  obtain ⟨filled, inside, ⟨b, leads⟩, each⟩ := GraphStore.grown_iff.mp grown
  obtain rfl := (GraphStore.pathOf_found_iff leads filled).mp found
  exact ⟨walk, rfl, filled, short, inside, leads, fun front e rest split more => (each front e rest split more).1⟩

section
variable {walk : List (String × EdgeRow)} (shortest : ShortestWalk s tenantId startId endId n walk)
include shortest

theorem ShortestWalk.row (unheld : Unheld walk) : GraphStore.pathOf endId walk ∈ s.paths tenantId startId endId n ∧
      (GraphStore.pathOf endId walk).found = true := by
  constructor
  · have passes : ∀ front e rest, walk = front ++ e :: rest → front ≠ [] → GraphStore.Passes endId n front e := by
      intro front e rest split more
      have length : front.length < walk.length := by simp [split]
      exact ⟨unheld front e rest split more, shortest.early split more (by simp),
        Nat.lt_of_lt_of_le length shortest.within⟩
    have grown := GraphStore.grown_iff.mpr ⟨shortest.filled, shortest.live, ⟨_, shortest.leads⟩, passes⟩
    exact GraphStore.mem_paths.mpr ⟨walk, grown, Nat.le_trans shortest.within (Nat.le_max_right _ _), rfl⟩
  · exact (GraphStore.pathOf_found_iff shortest.leads shortest.filled).mpr rfl

theorem ShortestWalk.le_depth {row : PathRow}
    (member : row ∈ s.paths tenantId startId endId n) (found : row.found = true) : walk.length ≤ row.depth := by
  obtain ⟨other, rfl, filled, _, inside, leads, _⟩ := found_row member found
  exact shortest.least other.length ⟨other, filled, Nat.le_refl _, inside, leads⟩

end

theorem shortest_of_first {row : PathRow} {rest : List PathRow} (found : row.found = true)
    (least : ∀ other ∈ rest, other.found = true → row.depth ≤ other.depth) :
      GraphStore.shortest (row :: rest) = some row.pathStr := by
  have first : ∀ other ∈ rest.filter (fun row => row.found), row.depth ≤ other.depth := by
    intro other member
    obtain ⟨here, found⟩ := mem_filter.mp member
    exact least other here found
  unfold GraphStore.shortest
  rw [filter_cons_of_pos found]
  have kept := perm_insertionSort (fun a b : PathRow => a.depth ≤ b.depth) (rest.filter (fun row => row.found))
  rw [insertionSort_cons]
  cases order : (rest.filter (fun row => row.found)).insertionSort (fun a b => a.depth ≤ b.depth) with
  | nil => rfl
  | cons other others =>
    rw [order] at kept
    have lower := first other (kept.mem_iff.mp mem_cons_self)
    rw [orderedInsert, if_pos lower]
    rfl

theorem length_splitOn (separator : Char) (chars : List Char) :
    (chars.splitOn separator).length = chars.count separator + 1 := by
  induction chars with
  | nil => simp
  | cons c rest ih =>
    rw [splitOn_cons_eq_if_modifyHead, count_cons]
    split <;> simp [*]

theorem count_walkText {walk : List (String × EdgeRow)} (filled : walk ≠ []) :
    (GraphStore.walkText walk).toList.count ',' + 1 = walk.length +
      (walk.map (fun e => e.1.toList.count ',')).sum := by
  induction walk using reverseRecOn with
  | nil => exact absurd rfl filled
  | append_singleton front e ih =>
    by_cases single : front = []
    · subst single
      have text : GraphStore.walkText [e] = e.1 := String.intercalate_singleton
      simp [text, Nat.add_comm]
    · have before := ih single
      rw [GraphStore.walkText_concat single]
      simp only [String.toList_append, count_append, length_append, map_append, sum_append,
        map_cons, map_nil,
        sum_cons, sum_nil, length_cons, length_nil]
      have comma : ",".toList.count ',' = 1 := by decide
      omega

theorem length_readPath {rows : List PathRow} {walk edges : List (String × EdgeRow)} (filled : walk ≠ [])
    (first : GraphStore.shortest rows = some (GraphStore.walkText walk))
    (read : s.readPath tenantId rows = .ok edges) :
    edges.length = walk.length + (walk.map (fun e => e.1.toList.count ',')).sum := by
  unfold GraphStore.readPath at read
  rw [first] at read
  have each := congrArg List.length (Lib.mapM_eq_ok.mp read)
  rw [length_map, length_map, length_map, length_splitOn, count_walkText filled] at each
  exact each.symm

theorem readPath_ok {rows : List PathRow} {walk : List (String × EdgeRow)} (filled : walk ≠ [])
    (first : GraphStore.shortest rows = some (GraphStore.walkText walk))
    (inside : ∀ e ∈ walk, e ∈ s.liveEdges tenantId) (plain : ∀ e ∈ walk, ',' ∉ e.1.toList) :
    s.readPath tenantId rows = .ok walk := by
  unfold GraphStore.readPath
  rw [first]
  dsimp only
  rw [GraphStore.walkText_split filled plain]
  apply Lib.mapM_eq_ok.mpr
  rw [map_map]
  exact map_congr_left (fun e there => GraphStore.getEdgeById_live (inside e there))

theorem exists_order {rows others : List PathRow} (permuted : rows.Perm others) :
    ∃ order : List PathRow → List PathRow, (∀ some, (order some).Perm some) ∧ order others = rows := by
  classical
  refine ⟨fun some => if some = others then rows else some, fun some => ?_, if_pos rfl⟩
  dsimp only
  split
  · subst some
    exact permuted
  · exact List.Perm.refl _

theorem shortestPathBy_of_le {order : List PathRow → List PathRow} {maxPathDepth : Nat} {maxDepth : Option Nat}
    (allowed : ∀ depth ∈ maxDepth, depth ≤ maxPathDepth) :
      GraphStore.shortestPathBy order s tenantId maxPathDepth startId endId maxDepth =
      s.readPath tenantId (order (s.paths tenantId startId endId (maxDepth.getD maxPathDepth))) := by
  unfold GraphStore.shortestPathBy
  rw [if_neg]
  rintro ⟨depth, given, high⟩
  exact absurd (allowed depth given) (Nat.not_le_of_lt high)

theorem Searchable.finds (searchable : Searchable s tenantId startId endId n) {rows : List PathRow}
    (order : rows.Perm (s.paths tenantId startId endId n)) :
      FindsShortest s tenantId startId endId n (s.readPath tenantId rows) := by
  rcases GraphStore.mem_shortest rows with ⟨none, unfound⟩ | ⟨row, member, found, first, least⟩
  · refine ⟨[], by rw [GraphStore.readPath, none], ⟨fun _ path => ?_, fun _ => rfl⟩, fun filled => absurd rfl filled⟩
    obtain ⟨walk, shortest, unheld⟩ := searchable.unheld path
    obtain ⟨member, found⟩ := shortest.row unheld
    rw [unfound _ (order.mem_iff.mpr member)] at found
    cases found
  · obtain ⟨walk, rfl, filled, short, inside, leads, unheld⟩ := found_row (order.mem_iff.mp member) found
    have within : walk.length ≤ n := by
      by_cases zero : n = 0
      · -- a search of depth zero would have found a single edge
        subst zero
        have single : walk.length = 1 := by
          have := length_pos_iff.mpr filled
          omega
        obtain ⟨e, rfl⟩ := length_eq_one_iff.mp single
        exact absurd leads.2 (searchable.deep rfl e (inside e mem_cons_self) leads.1)
      · omega
    have path : LivePath s tenantId startId endId n := ⟨walk, filled, within, inside, leads⟩
    obtain ⟨other, shortest, passes⟩ := searchable.unheld path
    obtain ⟨present, reached⟩ := shortest.row passes
    have fewer : walk.length ≤ other.length := least _ (order.mem_iff.mpr present) reached
    have best : ShortestWalk s tenantId startId endId n walk :=
      ⟨filled, within, inside, leads, fun m path => Nat.le_trans fewer (shortest.least m path)⟩
    refine ⟨walk, readPath_ok filled first inside (searchable.unsplit walk best unheld),
      ⟨fun empty => absurd empty filled, ?_⟩, fun _ => best⟩
    exact fun absent => absurd path absent

theorem searchable_of_finds (finds : ∀ rows : List PathRow, rows.Perm (s.paths tenantId startId endId n) →
      FindsShortest s tenantId startId endId n (s.readPath tenantId rows)) :
        Searchable s tenantId startId endId n := by
  constructor
  · intro path
    obtain ⟨edges, read, empty, best⟩ := finds _ (List.Perm.refl _)
    have filled : edges ≠ [] := fun none => empty.mp none path
    have shortest := best filled
    rcases GraphStore.mem_shortest (s.paths tenantId startId endId n) with ⟨none, _⟩ | ⟨row, member, found, first, _⟩
    · rw [GraphStore.readPath, none] at read
      cases read
      exact absurd rfl filled
    · obtain ⟨walk, rfl, some, _, inside, leads, unheld⟩ := found_row member found
      -- the walk that was read back has an edge for each of its ids at least
      have length := length_readPath some first read
      have few : walk.length ≤ edges.length := by omega
      refine ⟨walk, ⟨some, Nat.le_trans few shortest.within, inside, leads, fun m path => ?_⟩, unheld⟩
      exact Nat.le_trans few (shortest.least m path)
  · intro walk shortest unheld e inside comma
    obtain ⟨member, found⟩ := shortest.row unheld
    obtain ⟨front, back, split⟩ := append_of_mem member
    have same : (GraphStore.pathOf endId walk :: (front ++ back)).Perm (s.paths tenantId startId endId n) :=
      split ▸ perm_middle.symm
    obtain ⟨edges, read, empty, best⟩ := finds _ same
    have taken : GraphStore.shortest (GraphStore.pathOf endId walk :: (front ++ back)) = some
        (GraphStore.walkText walk) :=
      shortest_of_first found (fun other there found =>
        shortest.le_depth (same.mem_iff.mp (mem_cons_of_mem _ there)) found)
    have length := length_readPath shortest.filled taken read
    have equal := (best (fun none => empty.mp none shortest.path)).least walk.length
        ⟨walk, shortest.filled, Nat.le_refl _, shortest.live, shortest.leads⟩
    have none : (walk.map (fun e => e.1.toList.count ',')).sum = 0 := by omega
    have zero := List.sum_eq_zero_iff_forall_eq_nat.mp none _ (mem_map_of_mem inside)
    exact count_eq_zero.mp zero comma
  · intro zero e inside source target
    subst zero
    obtain ⟨edges, read, empty, _⟩ := finds _ (List.Perm.refl _)
    have absent : ¬ LivePath s tenantId startId endId 0 := by
      rintro ⟨walk, filled, short, _⟩
      exact filled (length_eq_zero_iff.mp (Nat.le_zero.mp short))
    obtain rfl := empty.mpr absent
    have row : GraphStore.pathOf endId [e] ∈ s.paths tenantId startId endId 0 :=
      GraphStore.mem_paths.mpr ⟨[e], .single inside (decide_eq_true source), Nat.le_refl 1, rfl⟩
    have found : (GraphStore.pathOf endId [e]).found = true := decide_eq_true target
    rcases GraphStore.mem_shortest (s.paths tenantId startId endId 0) with ⟨_, unfound⟩ | ⟨_, member, found, first, _⟩
    · rw [unfound _ row] at found
      cases found
    · obtain ⟨walk, rfl, some, _⟩ := found_row member found
      have length := length_readPath some first read
      have more := length_pos_iff.mpr some
      rw [length_nil] at length
      omega

/-- A search answers with a shortest path in whatever order its rows come exactly if the ids are searchable. -/
theorem finds_shortest_iff (s : GraphStore) (tenantId startId endId : String) (maxPathDepth : Nat)
    (maxDepth : Option Nat) (allowed : ∀ depth ∈ maxDepth, depth ≤ maxPathDepth) :
    (∀ order : List PathRow → List PathRow, (∀ rows, (order rows).Perm rows) →
        FindsShortest s tenantId startId endId (maxDepth.getD maxPathDepth)
          (GraphStore.shortestPathBy order s tenantId maxPathDepth startId endId maxDepth)) ↔
      Searchable s tenantId startId endId (maxDepth.getD maxPathDepth) := by
  constructor
  · intro finds
    apply searchable_of_finds
    intro rows permuted
    obtain ⟨order, permutes, here⟩ := exists_order permuted
    have found := finds order permutes
    rwa [shortestPathBy_of_le allowed, here] at found
  · intro searchable order permutes
    rw [shortestPathBy_of_le allowed]
    exact searchable.finds (permutes _)

end

theorem oneEdge_searchable : Searchable oneEdgeStores.duckDb "t1" "a" "b" 1 := by
  constructor
  · intro path
    refine ⟨[liveEdge], ⟨by simp, Nat.le_refl 1, by simp [oneEdge_live], ⟨rfl, rfl⟩, ?_⟩, ?_⟩
    · rintro m ⟨walk, filled, short, _⟩
      exact Nat.le_trans (length_pos_iff.mpr filled) short
    · intro front e rest split more
      have some := length_pos_iff.mpr more
      have length := congrArg List.length split
      rw [length_singleton, length_append, length_cons] at length
      omega
  · intro walk shortest _ e inside
    have live := shortest.live e inside
    rw [oneEdge_live, mem_singleton] at live
    subst live
    decide
  · intro zero
    exact absurd zero (by decide)

theorem finds_shortest_iff_sample : FindsShortest oneEdgeStores.duckDb "t1" "a" "b" 1
      (GraphStore.shortestPathBy reverse oneEdgeStores.duckDb "t1" 10 "a" "b" (some 1)) :=
  (finds_shortest_iff oneEdgeStores.duckDb "t1" "a" "b" 10 (some 1)
    (by simp)).mpr oneEdge_searchable reverse reverse_perm

def twoEdges : List StoreCall :=
  [.addNode (sampleNode "a" "Person"), .addNode (sampleNode "b" "Person"), .addNode (sampleNode "c" "Person"),
    .addEdge (sampleEdge "11" "a" "b"), .addEdge (sampleEdge "1" "b" "c")]

def twoEdgeStores : Stores := twoEdges.foldl Stores.after ⟨{ graphNodes := .empty, graphEdges := .empty }, {}⟩

def towards (id source target : String) (seq : Nat) : String × EdgeRow :=
  (id, { sourceId := source, targetId := target, relation := "KNOWS", properties := "\x7b\x7d", tenantId := "t1", seq := seq })

theorem finds_shortest_hidden : ¬ ∀ (s : GraphStore) (tenantId startId endId : String) (maxPathDepth : Nat)
    (maxDepth : Option Nat),
    (∀ depth ∈ maxDepth, depth ≤ maxPathDepth) → ∀ order : List PathRow → List PathRow,
      (∀ rows, (order rows).Perm rows) →
      FindsShortest s tenantId startId endId (maxDepth.getD maxPathDepth)
        (GraphStore.shortestPathBy order s tenantId maxPathDepth startId endId maxDepth) := by
  intro all
  obtain ⟨walk, read, empty, _⟩ := all twoEdgeStores.duckDb "t1" "a" "c" 10 (some 2)
      (by simp) id (fun _ => List.Perm.refl _)
  have nothing : (GraphStore.shortestPathBy id twoEdgeStores.duckDb "t1" 10 "a" "c" (some 2)).toOption = some [] :=
    by decide +kernel
  rw [read] at nothing
  have live : twoEdgeStores.duckDb.liveEdges "t1" = [towards "11" "a" "b" 4, towards "1" "b" "c" 5] :=
    by decide +kernel
  apply empty.mp (Option.some.inj nothing)
  exact ⟨[towards "11" "a" "b" 4, towards "1" "b" "c" 5], by simp, Nat.le_refl 2, by simp [live], rfl, rfl, rfl⟩

end Aeterna.Graph
