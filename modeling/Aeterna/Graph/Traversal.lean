import Aeterna.Graph.Queries
import Aeterna.Lib.Sequences

namespace Aeterna.Graph
open Lib (Grown Leads Within WithinBy)
open List Option

namespace PostgresBackend

def lastEdge (walk : List (String × PgEdge)) : String × PgEdge :=
  walk.getLast?.getD ("", { sourceId := "", targetId := "", relation := "", properties := .null })

def rowOf (walk : List (String × PgEdge)) : SearchPath := ⟨lastEdge walk, walk.length, walk.map Prod.fst⟩

def starts (startId : String) (e : String × PgEdge) : Bool := e.2.sourceId = startId

def admits (maxDepth : Int) (walk : List (String × PgEdge)) (e : String × PgEdge) : Bool :=
  e.2.sourceId = (lastEdge walk).2.targetId ∧ (walk.length : Int) < maxDepth ∧ e.1 ∉ walk.map Prod.fst

section
variable {s : PostgresBackend} {tenantId startId endId : String} {maxDepth : Int}

theorem mem_searchPath {row : SearchPath} : row ∈ s.searchPath tenantId startId maxDepth ↔
    ∃ walk, Grown (s.edges tenantId) (starts startId) (admits maxDepth) walk ∧ walk.length ≤ max 1 maxDepth.toNat ∧
      rowOf walk = row := by
  have steps : ∀ walk, Grown (s.edges tenantId) (starts startId) (admits maxDepth) walk →
      searchStep (s.edges tenantId) maxDepth (rowOf walk) =
        ((s.edges tenantId).filter (admits maxDepth walk)).map (fun e => rowOf (walk ++ [e])) := by
    intro walk _
    refine map_congr_left (fun e _ => ?_)
    simp [rowOf, lastEdge]
  have base : ((s.edges tenantId).filter (fun e => e.2.sourceId = startId)).map
      (fun e => (⟨e, 1, [e.1]⟩ : SearchPath)) =
      ((s.edges tenantId).filter (starts startId)).map (fun e => rowOf [e]) := rfl
  rw [searchPath, base]
  exact Lib.mem_recursive steps _ _

theorem edges_unique {a b : String × PgEdge} (inA : a ∈ s.edges tenantId) (inB : b ∈ s.edges tenantId)
    (same : a.1 = b.1) : a = b := by
  obtain ⟨⟨⟨id, owner⟩, row⟩, memberA, rfl⟩ := List.mem_map.mp inA
  obtain ⟨⟨⟨other, other'⟩, row'⟩, memberB, rfl⟩ := List.mem_map.mp inB
  obtain ⟨hereA, ownA⟩ := mem_filter.mp memberA
  obtain ⟨hereB, ownB⟩ := mem_filter.mp memberB
  obtain rfl : id = other := same
  obtain rfl : owner = other' := (of_decide_eq_true ownA).trans (of_decide_eq_true ownB).symm
  obtain rfl := Option.some.inj ((Lib.Table.get_eq_some.mpr hereA).symm.trans (Lib.Table.get_eq_some.mpr hereB))
  rfl

theorem grown_iff {walk : List (String × PgEdge)} : Grown (s.edges tenantId) (starts startId) (admits maxDepth) walk ↔
    walk ≠ [] ∧ (∀ e ∈ walk, e ∈ s.edges tenantId) ∧
      (∃ b, Leads (fun e => e.2.sourceId) (fun e => e.2.targetId) startId walk b) ∧
      ∀ front e rest, walk = front ++ e :: rest → front ≠ [] → (front.length : Int) < maxDepth ∧
        e.1 ∉ front.map Prod.fst := by
  refine Lib.grown_iff (fun e => decide_eq_true_iff) (fun walk last e ends => ?_)
  unfold admits lastEdge
  rw [ends]
  exact decide_eq_true_iff

theorem reaches_iff : (∃ row ∈ s.searchPath tenantId startId maxDepth, row.edge.2.targetId = endId) ↔
    Within (fun e => e.2.sourceId) (fun e => e.2.targetId)
      (s.edges tenantId) startId endId (max 1 maxDepth.toNat) := by
  constructor
  · rintro ⟨row, member, there⟩
    obtain ⟨walk, grown, short, rfl⟩ := mem_searchPath.mp member
    obtain ⟨filled, inside, ⟨b, leads⟩, _⟩ := grown_iff.mp grown
    obtain ⟨last, ends⟩ := isSome_iff_exists.mp (getLast?_isSome.mpr filled)
    have here : last.2.targetId = endId := by
      unfold rowOf lastEdge at there
      rwa [ends] at there
    refine ⟨walk, filled, short, inside, ?_⟩
    rw [← here, Lib.leads_last leads ends]
    exact leads
  · intro within
    obtain ⟨walk, filled, short, inside, leads, nodup, _⟩ := within.shortest
    obtain ⟨last, ends⟩ := isSome_iff_exists.mp (getLast?_isSome.mpr filled)
    refine ⟨rowOf walk, mem_searchPath.mpr ⟨walk, grown_iff.mpr ⟨filled, inside, ⟨_, leads⟩, ?_⟩, short, rfl⟩, ?_⟩
    · rintro front e rest rfl more
      have some := length_pos_iff.mpr more
      refine ⟨?_, fun visited => ?_⟩
      · rw [length_append, length_cons] at short
        omega
      · obtain ⟨other, earlier, same⟩ := List.mem_map.mp visited
        have equal := edges_unique (inside other (mem_append_left _ earlier))
            (inside e (mem_append_right _ mem_cons_self)) same
        exact (nodup_append.mp nodup).2.2 other earlier e mem_cons_self equal
    · have there := Lib.leads_last leads ends
      unfold rowOf lastEdge
      rwa [ends]

theorem findPath_cases (s : PostgresBackend) (tenantId startId endId : String) (maxDepth : Nat) :
    (s.findPath tenantId startId endId maxDepth = [] ∧ ¬ Within (fun e => e.2.sourceId) (fun e => e.2.targetId)
        (s.edges tenantId) startId endId (max 1 (asI32 maxDepth).toNat)) ∨
    ∃ e ∈ s.edges tenantId, s.findPath tenantId startId endId maxDepth = [toEdge tenantId e] ∧ e.2.targetId = endId ∧
      Within (fun e => e.2.sourceId) (fun e => e.2.targetId)
        (s.edges tenantId) startId endId (max 1 (asI32 maxDepth).toNat) ∧
      ((∃ direct ∈ s.edges tenantId, direct.2.sourceId = startId ∧ direct.2.targetId = endId) →
        e.2.sourceId = startId) := by
  unfold findPath
  cases found : (s.searchPath tenantId startId (asI32 maxDepth)).find? (fun row => row.edge.2.targetId = endId) with
  | none =>
    refine .inl ⟨rfl, fun within => ?_⟩
    obtain ⟨row, member, there⟩ := reaches_iff.mpr within
    exact absurd (find?_eq_none.mp found row member) (by simp [there])
  | some row =>
    have there : row.edge.2.targetId = endId := by simpa using find?_some found
    have member := mem_of_find?_eq_some found
    obtain ⟨walk, grown, _, rfl⟩ := mem_searchPath.mp member
    have inside : (rowOf walk).edge ∈ s.edges tenantId := by
      obtain ⟨filled, inside, _⟩ := grown_iff.mp grown
      obtain ⟨last, ends⟩ := isSome_iff_exists.mp (getLast?_isSome.mpr filled)
      unfold rowOf lastEdge
      rw [ends]
      exact inside last (mem_of_getLast? ends)
    refine .inr ⟨_, inside, rfl, there, reaches_iff.mp ⟨_, member, there⟩, ?_⟩
    rintro ⟨direct, here, from_start, to_end⟩
    -- the rows of single edges come first
    obtain ⟨rounds, more⟩ : ∃ rounds, max 1 (asI32 maxDepth).toNat = rounds + 1 :=
        ⟨_, (Nat.sub_add_cancel (Nat.le_max_left _ _)).symm⟩
    unfold searchPath at found
    rw [more, Lib.recursive, find?_append] at found
    cases first : (((s.edges tenantId).filter (fun e => e.2.sourceId = startId)).map
      (fun e => (⟨e, 1, [e.1]⟩ : SearchPath))).find?
        (fun row => row.edge.2.targetId = endId) with
    | none =>
      have row : (⟨direct, 1, [direct.1]⟩ : SearchPath) ∈
          ((s.edges tenantId).filter (fun e => e.2.sourceId = startId)).map
          (fun e => (⟨e, 1, [e.1]⟩ : SearchPath)) :=
            List.mem_map.mpr ⟨direct, mem_filter.mpr ⟨here, decide_eq_true from_start⟩, rfl⟩
      exact absurd (find?_eq_none.mp first _ row) (by simp [to_end])
    | some base =>
      rw [first] at found
      obtain rfl : base = rowOf walk := Option.some.inj found
      obtain ⟨e, single, same⟩ := List.mem_map.mp (mem_of_find?_eq_some first)
      rw [← same]
      exact of_decide_eq_true (mem_filter.mp single).2

end

end PostgresBackend

namespace GraphStore

def lastRow (walk : List (String × EdgeRow)) : String × EdgeRow :=
  walk.getLast?.getD ("", { sourceId := "", targetId := "", relation := "", properties := "", tenantId := "", seq := 0 })

def walkText (walk : List (String × EdgeRow)) : String := ",".intercalate (walk.map Prod.fst)

def pathOf (endId : String) (walk : List (String × EdgeRow)) : PathRow :=
  ⟨lastRow walk, walkText walk, walk.length, (lastRow walk).2.targetId = endId⟩

def leaves (startId : String) (e : String × EdgeRow) : Bool := e.2.sourceId = startId

def joins (endId : String) (maxDepth : Nat) (walk : List (String × EdgeRow)) (e : String × EdgeRow) : Bool :=
  e.2.sourceId = (lastRow walk).2.targetId ∧ holdsId (walkText walk) e.1 = false ∧
    decide ((lastRow walk).2.targetId = endId) = false ∧
    walk.length < maxDepth

def Passes (endId : String) (maxDepth : Nat) (front : List (String × EdgeRow)) (e : String × EdgeRow) : Prop :=
  holdsId (walkText front) e.1 = false ∧ (lastRow front).2.targetId ≠ endId ∧ front.length < maxDepth

theorem prefix_of_like {id text : List Char} (plain : '%' ∉ id ∧ '_' ∉ id)
    (matched : like (id ++ ['%']) text = true) : id <+: text := by
  induction id generalizing text with
  | nil => exact nil_prefix
  | cons c rest ih =>
    obtain ⟨notMany, notOne⟩ := plain
    rw [mem_cons, not_or] at notMany notOne
    rw [cons_append, like.eq_def] at matched
    dsimp only at matched
    rw [if_neg (Ne.symm notMany.1)] at matched
    cases text with
    | nil => cases matched
    | cons d more =>
      rw [Bool.and_eq_true, Bool.or_eq_true, decide_eq_true_iff, decide_eq_true_iff] at matched
      obtain ⟨either, later⟩ := matched
      obtain rfl : c = d := either.resolve_left (Ne.symm notOne.1)
      exact cons_prefix_cons.mpr ⟨rfl, ih ⟨notMany.2, notOne.2⟩ later⟩

theorem infix_of_holdsId {pathStr id : String} (plain : '%' ∉ id.toList ∧ '_' ∉ id.toList)
    (held : holdsId pathStr id = true) :
    id.toList <:+: pathStr.toList := by
  have pattern : ("%" ++ id ++ "%").toList = '%' :: (id.toList ++ ['%']) := by simp
  rw [holdsId, pattern, like.eq_def] at held
  dsimp only at held
  rw [if_pos rfl] at held
  obtain ⟨rest, tail, matched⟩ := List.any_eq_true.mp held
  exact (prefix_of_like plain matched).isInfix.trans ((mem_tails _ _).mp tail).isInfix

section
variable {s : GraphStore} {tenantId startId endId : String} {maxDepth : Nat}

variable {walk : List (String × EdgeRow)}

theorem walkText_concat (filled : walk ≠ []) (e : String × EdgeRow) :
    walkText (walk ++ [e]) = walkText walk ++ "," ++ e.1 := by
  unfold walkText
  rw [map_append, String.intercalate_append_of_ne_nil (by simpa using filled) (by simp)]
  rw [map_singleton, String.intercalate_singleton]

theorem mem_paths {row : PathRow} : row ∈ s.paths tenantId startId endId maxDepth ↔
    ∃ walk, Grown (s.liveEdges tenantId) (leaves startId) (joins endId maxDepth) walk ∧ walk.length ≤ max 1 maxDepth ∧
      pathOf endId walk = row := by
  have steps : ∀ walk, Grown (s.liveEdges tenantId) (leaves startId) (joins endId maxDepth) walk →
      pathStep (s.liveEdges tenantId) endId maxDepth (pathOf endId walk) =
        ((s.liveEdges tenantId).filter (joins endId maxDepth walk)).map (fun e => pathOf endId (walk ++ [e])) := by
    intro walk grown
    refine map_congr_left (fun e _ => ?_)
    unfold pathOf
    rw [walkText_concat grown.filled]
    simp [lastRow]
  have base : ((s.liveEdges tenantId).filter (fun e => e.2.sourceId = startId)).map
      (fun e => (⟨e, e.1, 1, e.2.targetId = endId⟩ : PathRow)) =
      ((s.liveEdges tenantId).filter (leaves startId)).map (fun e => pathOf endId [e]) := by
    refine map_congr_left (fun e _ => ?_)
    simp only [pathOf, lastRow, walkText, getLast?_singleton, getD_some, map_singleton,
      String.intercalate_singleton,
      length_singleton]
    rfl
  rw [paths, base]
  exact Lib.mem_recursive steps _ _

theorem grown_iff : Grown (s.liveEdges tenantId) (leaves startId) (joins endId maxDepth) walk ↔
    walk ≠ [] ∧ (∀ e ∈ walk, e ∈ s.liveEdges tenantId) ∧
      (∃ b, Leads (fun e => e.2.sourceId) (fun e => e.2.targetId) startId walk b) ∧
      ∀ front e rest, walk = front ++ e :: rest → front ≠ [] → Passes endId maxDepth front e := by
  refine Lib.grown_iff (fun e => decide_eq_true_iff) (fun walk last e ends => ?_)
  unfold joins Passes lastRow
  rw [ends, decide_eq_true_iff, decide_eq_false_iff_not]
  exact Iff.rfl

theorem mem_liveEdges {e : String × EdgeRow} : e ∈ s.liveEdges tenantId ↔ s.tables.liveEdge e.1 = some e.2 ∧
    e.2.tenantId = tenantId := by
  obtain ⟨id, row⟩ := e
  unfold liveEdges GraphTables.liveEdge
  rw [List.mem_map]
  constructor
  · rintro ⟨⟨other, row', deleted⟩, member, same⟩
    obtain ⟨here, fits⟩ := mem_filter.mp member
    cases same
    cases deleted with
    | true => simp at fits
    | false =>
      rw [Lib.Table.get_eq_some.mpr here]
      exact ⟨rfl, by simpa using fits⟩
  · rintro ⟨live, own⟩
    cases held : s.tables.memoryEdges.get id with
    | none =>
      rw [held] at live
      cases live
    | some m =>
      obtain ⟨row', deleted⟩ := m
      rw [held] at live
      cases deleted with
      | true => cases live
      | false =>
        cases live
        exact ⟨(id, ⟨row, false⟩), mem_filter.mpr ⟨Lib.Table.get_eq_some.mp held, by simpa using own⟩, rfl⟩

theorem mem_shortest (rows : List PathRow) : (shortest rows = none ∧ ∀ row ∈ rows, row.found = false) ∨
      ∃ row ∈ rows, row.found = true ∧ shortest rows = some row.pathStr ∧
        ∀ other ∈ rows, other.found = true → row.depth ≤ other.depth := by
  unfold shortest
  have total : Std.Total (fun a b : PathRow => a.depth ≤ b.depth) := ⟨fun a b => Nat.le_total a.depth b.depth⟩
  have trans : IsTrans PathRow (fun a b => a.depth ≤ b.depth) := ⟨fun _ _ _ => Nat.le_trans⟩
  have sorted := pairwise_insertionSort (fun a b : PathRow => a.depth ≤ b.depth)
      (rows.filter (fun row => row.found))
  have members : ∀ row, row ∈ (rows.filter (fun row => row.found)).insertionSort (fun a b => a.depth ≤ b.depth) ↔
      row ∈ rows ∧ row.found = true := by
    intro row
    rw [mem_insertionSort, mem_filter]
  cases order : (rows.filter (fun row => row.found)).insertionSort (fun a b => a.depth ≤ b.depth) with
  | nil =>
    left
    refine ⟨rfl, fun row member => Bool.eq_false_iff.mpr (fun found => ?_)⟩
    have here := (members row).mpr ⟨member, found⟩
    rw [order] at here
    exact not_mem_nil here
  | cons row rest =>
    right
    rw [order] at sorted members
    obtain ⟨member, found⟩ := (members row).mp mem_cons_self
    refine ⟨row, member, found, rfl, fun other member found => ?_⟩
    rcases mem_cons.mp ((members other).mpr ⟨member, found⟩) with rfl | later
    · exact Nat.le_refl _
    · exact rel_of_pairwise_cons sorted later

theorem getEdgeById_live {e : String × EdgeRow} (live : e ∈ s.liveEdges tenantId) :
    s.getEdgeById tenantId e.1 = .ok e := by
  obtain ⟨here, own⟩ := mem_liveEdges.mp live
  unfold getEdgeById
  unfold GraphTables.liveEdge at here
  cases held : s.tables.memoryEdges.get e.1 with
  | none =>
    rw [held] at here
    cases here
  | some m =>
    obtain ⟨row, deleted⟩ := m
    rw [held] at here
    cases deleted with
    | true => cases here
    | false =>
      obtain ⟨id, row'⟩ := e
      have own : row'.tenantId = tenantId := own
      cases here
      dsimp only
      rw [Option.filter, if_pos (decide_eq_true own)]

theorem walkText_split (filled : walk ≠ []) (plain : ∀ e ∈ walk, ',' ∉ e.1.toList) :
    ((walkText walk).toList.splitOn ',').map String.ofList = walk.map Prod.fst := by
  have split : (walkText walk).toList.splitOn ',' = (walk.map Prod.fst).map String.toList := by
    unfold walkText
    rw [String.toList_intercalate]
    refine splitOn_intercalate ',' ?_ (by simpa using filled)
    intro chars member
    obtain ⟨id, inside, rfl⟩ := List.mem_map.mp member
    obtain ⟨e, here, rfl⟩ := List.mem_map.mp inside
    exact plain e here
  rw [split, List.map_map]
  simp

section
variable {b : String} (leads : Leads (fun e => e.2.sourceId) (fun e => e.2.targetId) startId walk b)
  (filled : walk ≠ [])
include leads filled

theorem lastRow_target : (lastRow walk).2.targetId = b := by
  obtain ⟨last, ends⟩ := isSome_iff_exists.mp (getLast?_isSome.mpr filled)
  have there := Lib.leads_last leads ends
  unfold lastRow
  rw [ends, getD_some]
  exact there

theorem pathOf_found_iff : (pathOf endId walk).found = true ↔ b = endId := by
  unfold pathOf
  rw [lastRow_target leads filled]
  exact decide_eq_true_iff

end

theorem length_of_passes
    (each : ∀ front e rest, walk = front ++ e :: rest → front ≠ [] → Passes endId maxDepth front e) :
      walk.length ≤ max 1 maxDepth := by
  induction walk using reverseRecOn with
  | nil => exact Nat.zero_le _
  | append_singleton front e _ =>
    rw [length_append, length_singleton]
    by_cases single : front = []
    · simp [single]
    · have deep := (each front e [] rfl single).2.2
      omega

structure Distinct (edges : List (String × EdgeRow)) : Prop where
  plain : ∀ e ∈ edges, '%' ∉ e.1.toList ∧ '_' ∉ e.1.toList
  unsplit : ∀ e ∈ edges, ',' ∉ e.1.toList
  apart : ∀ a ∈ edges, ∀ b ∈ edges, a.1.toList <:+: b.1.toList → a = b

theorem Distinct.matched (distinct : Distinct (s.liveEdges tenantId))
    (within : Within (fun e => e.2.sourceId) (fun e => e.2.targetId) (s.liveEdges tenantId) startId endId maxDepth) :
    WithinBy (fun e => e.2.sourceId) (fun e => e.2.targetId) (Passes endId maxDepth)
      (s.liveEdges tenantId) startId endId := by
  obtain ⟨walk, filled, short, inside, leads, nodup, early⟩ := within.shortest
  refine ⟨walk, filled, inside, leads, fun front e rest split more => ⟨?_, fun there => ?_, ?_⟩⟩
  · subst split
    have here := inside e (mem_append_right _ mem_cons_self)
    refine Bool.eq_false_iff.mpr (fun held => ?_)
    have part := infix_of_holdsId (distinct.plain e here) held
    unfold walkText at part
    rw [String.toList_intercalate] at part
    obtain ⟨_, member, infixed⟩ := Lib.infix_of_intercalate (distinct.unsplit e here) (by simpa using more) part
    obtain ⟨id, among, rfl⟩ := List.mem_map.mp member
    obtain ⟨other, earlier, rfl⟩ := List.mem_map.mp among
    have equal := distinct.apart e here other (inside other (mem_append_left _ earlier)) infixed
    exact (nodup_append.mp nodup).2.2 other earlier e mem_cons_self equal.symm
  · subst split
    obtain ⟨m, first, _⟩ := Lib.leads_append.mp leads
    apply early front (e :: rest) rfl more (by simp)
    rw [← there, lastRow_target first more]
    exact first
  · subst split
    rw [length_append, length_cons] at short
    omega

theorem Distinct.matched_iff (distinct : Distinct (s.liveEdges tenantId)) (some : 1 ≤ maxDepth) :
    Within (fun e => e.2.sourceId) (fun e => e.2.targetId) (s.liveEdges tenantId) startId endId maxDepth ↔
      WithinBy (fun e => e.2.sourceId) (fun e => e.2.targetId) (Passes endId maxDepth)
        (s.liveEdges tenantId) startId endId := by
  refine ⟨distinct.matched, ?_⟩
  rintro ⟨walk, filled, inside, leads, each⟩
  have short := length_of_passes each
  rw [Nat.max_eq_right some] at short
  exact ⟨walk, filled, short, inside, leads⟩

theorem paths_found_iff : (∃ row ∈ s.paths tenantId startId endId maxDepth, row.found = true) ↔
    WithinBy (fun e => e.2.sourceId) (fun e => e.2.targetId) (Passes endId maxDepth)
      (s.liveEdges tenantId) startId endId := by
  constructor
  · rintro ⟨row, member, found⟩
    obtain ⟨walk, grown, _, rfl⟩ := mem_paths.mp member
    obtain ⟨filled, inside, ⟨b, leads⟩, each⟩ := grown_iff.mp grown
    obtain rfl := (pathOf_found_iff leads filled).mp found
    exact ⟨walk, filled, inside, leads, each⟩
  · rintro ⟨walk, filled, inside, leads, each⟩
    have short := length_of_passes each
    have grown := grown_iff.mpr ⟨filled, inside, ⟨_, leads⟩, each⟩
    exact ⟨pathOf endId walk, mem_paths.mpr ⟨walk, grown, short, rfl⟩, (pathOf_found_iff leads filled).mpr rfl⟩

theorem shortestPath_cases {maxPathDepth : Nat} (allowed : maxDepth ≤ maxPathDepth)
    (plain : ∀ e ∈ s.liveEdges tenantId, ',' ∉ e.1.toList) :
    (s.shortestPath tenantId maxPathDepth startId endId maxDepth = .ok [] ∧
      ¬ WithinBy (fun e => e.2.sourceId) (fun e => e.2.targetId) (Passes endId maxDepth)
        (s.liveEdges tenantId) startId endId) ∨
    ∃ walk, walk ≠ [] ∧ s.shortestPath tenantId maxPathDepth startId endId maxDepth = .ok walk ∧
      Leads (fun e => e.2.sourceId) (fun e => e.2.targetId) startId walk endId ∧
      WithinBy (fun e => e.2.sourceId) (fun e => e.2.targetId) (Passes endId maxDepth)
        (s.liveEdges tenantId) startId endId := by
  unfold shortestPath
  rw [if_neg (Nat.not_lt.mpr allowed)]
  rcases mem_shortest (s.paths tenantId startId endId maxDepth) with ⟨none, unfound⟩ | ⟨row, member, found, some, _⟩
  · rw [none]
    refine .inl ⟨rfl, fun within => ?_⟩
    obtain ⟨row, member, found⟩ := paths_found_iff.mpr within
    rw [unfound row member] at found
    cases found
  · rw [some]
    have within := paths_found_iff.mp ⟨row, member, found⟩
    obtain ⟨walk, grown, _, rfl⟩ := mem_paths.mp member
    obtain ⟨filled, inside, ⟨b, leads⟩, _⟩ := grown_iff.mp grown
    obtain rfl := (pathOf_found_iff leads filled).mp found
    refine .inr ⟨walk, filled, ?_, leads, within⟩
    have ids : ((pathOf b walk).pathStr.toList.splitOn ',').map String.ofList = walk.map Prod.fst :=
      walkText_split filled (fun e there => plain e (inside e there))
    dsimp only
    rw [ids]
    apply Lib.mapM_eq_ok.mpr
    rw [List.map_map]
    exact map_congr_left (fun e there => getEdgeById_live (inside e there))

end

end GraphStore

end Aeterna.Graph
