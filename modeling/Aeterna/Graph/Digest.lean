import Aeterna.Graph.Store
import Mathlib.Data.List.Sort
import Mathlib.Logic.Function.Basic

namespace Aeterna.Graph
open Lib (Marked Table)
open List Function

/-- `WHERE tenant_id = ? AND deleted_at IS NULL ORDER BY id`. -/
def selectLive {ρ : Type} (own : ρ → Bool) (t : Table String (Marked ρ)) : List (String × ρ) :=
  ((t.rows.filter (fun e => !e.2.deleted && own e.2.row)).map (fun e => (e.1, e.2.row))).insertionSort
    (fun a b => a.1 ≤ b.1)

/-- A row of the query of nodes: `id`, `label` and `properties`. -/
abbrev DigestedNode := String × String × String

/-- A row of the query of edges: `id`, `source_id`, `target_id`, `relation` and `properties`. -/
abbrev DigestedEdge := String × String × String × String × String

namespace GraphTables
variable (t : GraphTables) (tenantId : String)

def digestedNodes : List DigestedNode :=
  (selectLive (fun row : NodeRow => row.tenantId = tenantId) t.memoryNodes).map
    (fun e => (e.1, e.2.label, e.2.properties))

def digestedEdges : List DigestedEdge :=
  (selectLive (fun row : EdgeRow => row.tenantId = tenantId) t.memoryEdges).map
    (fun e => (e.1, e.2.sourceId, e.2.targetId, e.2.relation, e.2.properties))

def nodeFields (node : DigestedNode) : List String := [node.1, node.2.1, node.2.2]

def edgeFields (edge : DigestedEdge) : List String := [edge.1, edge.2.1, edge.2.2.1, edge.2.2.2.1, edge.2.2.2.2]

def digestedFields : List String :=
  (t.digestedNodes tenantId).flatMap nodeFields ++ (t.digestedEdges tenantId).flatMap edgeFields

def computeDigest {D : Type} (sha256 : ByteArray → D) : D :=
  sha256 ((t.digestedFields tenantId).foldl (fun hashed field => hashed ++ field.toByteArray) .empty)

end GraphTables

/-- The same nodes and edges, with the same ids, labels and properties. -/
def SameLive (tenantId : String) (g h : GraphTables) : Prop :=
  g.digestedNodes tenantId = h.digestedNodes tenantId ∧ g.digestedEdges tenantId = h.digestedEdges tenantId

def SameBoundaries (tenantId : String) (g h : GraphTables) : Prop :=
  (g.digestedNodes tenantId).length = (h.digestedNodes tenantId).length ∧
    (g.digestedFields tenantId).map String.length = (h.digestedFields tenantId).map String.length

def digestedText (tenantId : String) (g : GraphTables) : String := String.join (g.digestedFields tenantId)

theorem hashed_join (fields : List String) :
    fields.foldl (fun hashed field => hashed ++ field.toByteArray) .empty = (String.join fields).toByteArray := by
  have folded : ∀ text : String, fields.foldl (fun hashed field => hashed ++ field.toByteArray) text.toByteArray =
      (fields.foldl (fun text field => text ++ field) text).toByteArray := by
    induction fields with
    | nil => intro text; rfl
    | cons field rest ih =>
      intro text
      rw [foldl_cons, foldl_cons, ← String.toByteArray_append]
      exact ih (text ++ field)
  exact folded ""

theorem join_toList (fields : List String) : (String.join fields).toList = (fields.map String.toList).flatten := by
  have folded : ∀ text : String, (fields.foldl (fun text field => text ++ field) text).toList =
      text.toList ++ (fields.map String.toList).flatten := by
    induction fields with
    | nil => intro text; simp
    | cons field rest ih =>
      intro text
      rw [foldl_cons, ih, String.toList_append, map_cons, flatten_cons, append_assoc]
  exact folded ""

theorem fields_of_join {fields others : List String} (lengths : fields.map String.length = others.map String.length)
    (joined : String.join fields = String.join others) : fields = others := by
  have chars : fields.map String.toList = others.map String.toList := by
    apply eq_iff_flatten_eq.mpr
    constructor
    · rw [← join_toList, ← join_toList, joined]
    · rw [map_map, map_map]
      simpa [comp_def, String.length_toList] using lengths
  exact map_injective_iff.mpr (fun a b same => String.toList_inj.mp same) chars

theorem flatMap_fields {α : Type} {f : α → List String} {n : Nat} (width : ∀ a, (f a).length = n) (some : 0 < n)
    (separate : ∀ a b, f a = f b → a = b) {xs ys : List α} (same : xs.flatMap f = ys.flatMap f) : xs = ys := by
  induction xs generalizing ys with
  | nil =>
    cases ys with
    | nil => rfl
    | cons y rest =>
      have length := congrArg List.length same
      rw [flatMap_nil, flatMap_cons, length_append, width] at length
      simp at length
      omega
  | cons x rest ih =>
    cases ys with
    | nil =>
      have length := congrArg List.length same
      rw [flatMap_nil, flatMap_cons, length_append, width] at length
      simp at length
      omega
    | cons y others =>
      rw [flatMap_cons, flatMap_cons] at same
      obtain ⟨head, tail⟩ := append_inj same ((width x).trans (width y).symm)
      rw [separate x y head, ih tail]

section
variable {tenantId : String} {g h : GraphTables}

theorem nodes_width (nodes : List DigestedNode) :
    (nodes.flatMap GraphTables.nodeFields).length = 3 * nodes.length := by
  induction nodes with
  | nil => rfl
  | cons node rest ih =>
    rw [flatMap_cons, length_append, ih, length_cons]
    show 3 + _ = _
    omega

theorem sameGraph_of_fields (count : (g.digestedNodes tenantId).length = (h.digestedNodes tenantId).length)
    (fields : g.digestedFields tenantId = h.digestedFields tenantId) : SameLive tenantId g h := by
  obtain ⟨nodes, edges⟩ := append_inj fields (by rw [nodes_width, nodes_width, count])
  constructor
  · apply flatMap_fields (n := 3) (fun _ => rfl) (by decide) _ nodes
    rintro ⟨a, b, c⟩ ⟨a', b', c'⟩ same
    cases same
    rfl
  · apply flatMap_fields (n := 5) (fun _ => rfl) (by decide) _ edges
    rintro ⟨a, b, c, d, e⟩ ⟨a', b', c', d', e'⟩ same
    cases same
    rfl

theorem SameLive.fields (same : SameLive tenantId g h) : g.digestedFields tenantId = h.digestedFields tenantId := by
  unfold GraphTables.digestedFields
  rw [same.1, same.2]

theorem computeDigest_eq_iff {D : Type} {sha256 : ByteArray → D} (injective : Injective sha256) :
    g.computeDigest tenantId sha256 = h.computeDigest tenantId sha256 ↔
      digestedText tenantId g = digestedText tenantId h := by
  unfold GraphTables.computeDigest digestedText
  rw [injective.eq_iff, hashed_join, hashed_join, String.toByteArray_inj]

/-- Two digests tell whether the graphs are the same exactly if no text of both is divided into fields in two ways. -/
theorem digest_identifies_iff {D : Type} (sha256 : ByteArray → D) (injective : Injective sha256)
    (tenantId : String) (g h : GraphTables) :
    (g.computeDigest tenantId sha256 = h.computeDigest tenantId sha256 ↔ SameLive tenantId g h) ↔
      (digestedText tenantId g = digestedText tenantId h → SameBoundaries tenantId g h) := by
  rw [computeDigest_eq_iff injective]
  constructor
  · intro identifies joined
    have same := identifies.mp joined
    exact ⟨by rw [same.1], by rw [same.fields]⟩
  · intro divided
    constructor
    · intro joined
      obtain ⟨count, lengths⟩ := divided joined
      exact sameGraph_of_fields count (fields_of_join lengths joined)
    · intro same
      exact congrArg String.join same.fields

end

def oneNode (id label : String) : GraphTables :=
  { memoryNodes := Table.insertOrIgnore id ⟨⟨label, "\x7b\x7d", "t1", 0⟩, false⟩ {} }

theorem digest_identifies_iff_sample :
    ((oneNode "a" "bc").computeDigest "t1" id = (oneNode "ab" "c").computeDigest "t1" id ↔
      SameLive "t1" (oneNode "a" "bc") (oneNode "ab" "c")) ↔
      (digestedText "t1" (oneNode "a" "bc") = digestedText "t1" (oneNode "ab" "c") →
        SameBoundaries "t1" (oneNode "a" "bc") (oneNode "ab" "c")) :=
  digest_identifies_iff id injective_id "t1" (oneNode "a" "bc") (oneNode "ab" "c")

theorem digests_collide : ¬ ∀ (D : Type) (sha256 : ByteArray → D), Injective sha256 → ∀ tenantId g h,
    (GraphTables.computeDigest g tenantId sha256 = GraphTables.computeDigest h tenantId sha256 ↔
      SameLive tenantId g h) := by
  intro identifies
  have same := (identifies ByteArray id injective_id "t1" (oneNode "a" "bc") (oneNode "ab" "c")).mp
      (by decide)
  exact absurd same.1 (by decide)

end Aeterna.Graph
