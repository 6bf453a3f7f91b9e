import Aeterna.Graph.Evolution
import Aeterna.Graph.Snapshots

namespace Aeterna.Graph
open Lib (Marked Table)
open GraphStore

structure Part (ρ σ : Type) [GraphRow ρ] where
  table : GraphTables → Table String (Marked ρ)
  rows : Parquet → List (String × σ)
  file : ρ → σ
  row : String → σ → Marked ρ
  row_live : ∀ tenantId file, (row tenantId file).deleted = false
  row_content : ∀ tenantId r, GraphRow.content (row tenantId (file r)).row = GraphRow.content r
  evolves : ∀ {tenantId s s'}, Evolves tenantId s s' →
    RowsEvolve tenantId (s.lastSeq tenantId) (s'.lastSeq tenantId) (table s.tables) (table s'.tables)
  full : ∀ s tenantId data, exportToParquet s tenantId = .ok data →
    rows data = select (fun m => GraphRow.tenantId m.row = tenantId ∧ m.deleted = false) file (table s.tables)
  delta : ∀ s tenantId sinceSeq, rows (exportDeltaToParquet s tenantId sinceSeq).1 =
    select (fun m => GraphRow.tenantId m.row = tenantId ∧ sinceSeq < GraphRow.seq m.row) file (table s.tables)
  blank : ∀ id, (table {}).get id = none
  fill : ∀ tenantId data, table ⟨
      ({} : Table _ _).insertOrIgnoreAll (data.nodes.map (fun e => (e.1, e.2.row tenantId))),
      ({} : Table _ _).insertOrIgnoreAll (data.edges.map (fun e => (e.1, e.2.row tenantId)))⟩ =
    ({} : Table _ _).insertOrIgnoreAll ((rows data).map (fun e => (e.1, row tenantId e.2)))
  load : ∀ s tenantId data, table (importDeltaFromParquet s tenantId data).tables =
    (table s.tables).insertOrIgnoreAll ((rows data).map (fun e => (e.1, row tenantId e.2)))

def nodesPart : Part NodeRow ParquetNode where
  table := GraphTables.memoryNodes
  rows := Parquet.nodes
  file := NodeRow.parquet
  row := ParquetNode.row
  row_live _ _ := rfl
  row_content _ _ := rfl
  evolves evolves := evolves.nodes
  full s tenantId data exported := by
    unfold exportToParquet at exported
    split at exported
    · cases exported
    · cases exported
      rfl
  delta _ _ _ := rfl
  blank _ := rfl
  fill _ _ := rfl
  load _ _ _ := rfl

def edgesPart : Part EdgeRow ParquetEdge where
  table := GraphTables.memoryEdges
  rows := Parquet.edges
  file := EdgeRow.parquet
  row := ParquetEdge.row
  row_live _ _ := rfl
  row_content _ _ := rfl
  evolves evolves := evolves.edges
  full s tenantId data exported := by
    unfold exportToParquet at exported
    split at exported
    · cases exported
    · cases exported
      rfl
  delta _ _ _ := rfl
  blank _ := rfl
  fill _ _ := rfl
  load _ _ _ := rfl

def Part.Numbered {ρ σ : Type} [GraphRow ρ] (part : Part ρ σ) (tenantId : String) (s : GraphStore) : Prop :=
  ∀ id m, (part.table s.tables).get id = some m →
    GraphRow.tenantId m.row = tenantId ∧ GraphRow.seq m.row ≤ s.lastSeq tenantId

section
variable {ρ σ : Type} [GraphRow ρ] {part : Part ρ σ} {tenantId : String} {s s' : GraphStore} {low : Int}

theorem Part.Numbered.step (numbered : part.Numbered tenantId s) (up : s.lastSeq tenantId ≤ s'.lastSeq tenantId)
    (rows : RowsEvolve tenantId low (s'.lastSeq tenantId) (part.table s.tables) (part.table s'.tables)) :
    part.Numbered tenantId s' := by
  intro id m held
  refine ⟨rows.owned (fun other m before => (numbered other m before).1) id m held, ?_⟩
  rcases rows.written id with same | ⟨m', held', _, below⟩
  · rw [held] at same
    exact Int.le_trans (numbered id m same.symm).2 up
  · rw [held] at held'
    cases held'
    exact below

theorem Part.numbered_of_made (part : Part ρ σ) (made : Evolves tenantId {} s) : part.Numbered tenantId s := by
  have blank : part.Numbered tenantId {} := by
    intro id m held
    rw [part.blank] at held
    cases held
  exact blank.step made.counter (part.evolves made)

end

theorem maxSeq_le {seqs : List Int} {bound : Int} (below : ∀ seq ∈ seqs, seq ≤ bound) (start : 0 ≤ bound) :
    maxSeq seqs ≤ bound := by
  unfold maxSeq
  cases found : seqs.max? with
  | none => exact start
  | some top => exact below top (List.max?_mem found)

theorem currentMaxSeq_le {tenantId : String} {s : GraphStore} (nodes : nodesPart.Numbered tenantId s)
    (edges : edgesPart.Numbered tenantId s) (start : 0 ≤ s.lastSeq tenantId) :
    currentMaxSeq s.tables tenantId ≤ s.lastSeq tenantId := by
  apply max_le
  · refine maxSeq_le (fun seq member => ?_) start
    obtain ⟨e, inside, rfl⟩ := List.mem_map.mp member
    exact (nodes e.1 e.2 (Table.get_eq_some.mpr (List.mem_of_mem_filter inside))).2
  · refine maxSeq_le (fun seq member => ?_) start
    obtain ⟨e, inside, rfl⟩ := List.mem_map.mp member
    exact (edges e.1 e.2 (Table.get_eq_some.mpr (List.mem_of_mem_filter inside))).2

theorem currentMaxSeq_le_of_made {tenantId : String} {s : GraphStore} (made : Evolves tenantId {} s) :
    currentMaxSeq s.tables tenantId ≤ s.lastSeq tenantId :=
  currentMaxSeq_le (nodesPart.numbered_of_made made) (edgesPart.numbered_of_made made) made.counter

end Aeterna.Graph
