import Mathlib.Data.List.Induction
import Aeterna.Graph.Backups
import Aeterna.Graph.Parts

namespace Aeterna.Graph
open Lib (Marked Table)
open List GraphStore Lib.Table

theorem GraphCall.run_evolves (extract : JsonExtract) (tenantId : String) (s : GraphStore) (call : GraphCall) :
    Evolves tenantId s (call.run extract tenantId s) := by
  cases call with
  | addNode node => exact addNode_evolves s tenantId node
  | addEdge edge => exact addEdge_evolves s tenantId edge
  | softDeleteNode nodeId => exact softDeleteNode_evolves s tenantId nodeId
  | softDeleteNodesBySourceMemoryId id => exact softDeleteNodesBySourceMemoryId_evolves extract s tenantId id

theorem runCalls_evolves (extract : JsonExtract) (tenantId : String) (s : GraphStore) (calls : List GraphCall) :
    Evolves tenantId s (runCalls extract tenantId s calls) := by
  induction calls generalizing s with
  | nil => exact Evolves.refl tenantId s
  | cons call rest ih =>
    exact (GraphCall.run_evolves extract tenantId s call).trans
      (ih (call.run extract tenantId s))

section
variable {ρ σ : Type} [GraphRow ρ] (part : Part ρ σ) {env : BackupEnv} {tenantId : String} {s : GraphStore}

def lastOf (s : GraphStore) (taken : List DeltaTaken) : GraphTables :=
  (taken.getLast?.map DeltaTaken.tables).getD s.tables

theorem lastOf_cons (s t : GraphStore) (since : Int) (timestamp : String) (rest : List DeltaTaken) :
    lastOf s (⟨since, timestamp, t.tables⟩ :: rest) = lastOf t rest := by
  cases rest with
  | nil => rfl
  | cons d later => simp [lastOf, getLast?_cons]

theorem Part.absent_last (made : Evolves env.tenantId {} s) (id : String) {since : Int}
    (bound : since ≤ s.lastSeq env.tenantId) (deltas : List (List GraphCall × String))
    (absent : (part.table s.tables).get id = none)
    (nowhere : ∀ d ∈ deltasTaken env s since deltas, d.carried part.table id = none) :
    (part.table (lastOf s (deltasTaken env s since deltas))).get id = none := by
  induction deltas generalizing s since with
  | nil => exact absent
  | cons delta rest ih =>
    have step := runCalls_evolves env.extract env.tenantId s delta.1
    rw [deltasTaken, lastOf_cons]
    rw [deltasTaken] at nowhere
    refine ih (made.trans step) (currentMaxSeq_le_of_made (made.trans step)) ?_ (fun d member =>
      nowhere d (mem_cons_of_mem _ member))
    rcases (part.evolves step).written id with same | ⟨m, held, above, _⟩
    · exact same.trans absent
    · have carried := nowhere _ mem_cons_self
      have high : since < GraphRow.seq m.row := Int.lt_of_le_of_lt bound above
      simp [DeltaTaken.carried, held, Option.filter, high] at carried

theorem Part.dead_last (env : BackupEnv) (id : String) {since : Int} (deltas : List (List GraphCall × String))
    {m : Marked ρ} (held : (part.table s.tables).get id = some m) (deleted : m.deleted = true) :
    ∃ m', (part.table (lastOf s (deltasTaken env s since deltas))).get id = some m' ∧ m'.deleted = true := by
  induction deltas generalizing s since m with
  | nil => exact ⟨m, held, deleted⟩
  | cons delta rest ih =>
    have step := runCalls_evolves env.extract env.tenantId s delta.1
    obtain ⟨m', held', deleted'⟩ := (part.evolves step).buried id m held deleted
    rw [deltasTaken, lastOf_cons]
    exact ih held' deleted'

end

def DeltaTaken.object (env : BackupEnv) (d : DeltaTaken) : S3Object :=
  let exported := exportDeltaToParquet ⟨d.tables, {}⟩ env.tenantId d.sinceSeq
  ⟨d.key, exported.1, env.sha.hex exported.1, exported.2⟩

theorem putObject_new {bucket : List S3Object} {o : S3Object}
    (older : ∀ old ∈ bucket, old.key.timestamp < o.key.timestamp) : putObject bucket o = bucket ++ [o] := by
  unfold putObject
  rw [filter_eq_self.mpr]
  intro old member
  have before := older old member
  have apart : old.key ≠ o.key := by
    intro same
    rw [same] at before
    exact lt_irrefl _ before
  simpa using apart

theorem takeDeltas_eq (env : BackupEnv) (p : Progress) (deltas : List (List GraphCall × String))
    (increasing : (deltas.map Prod.snd).Pairwise (· < ·))
    (older : ∀ o ∈ p.bucket, ∀ d ∈ deltas, o.key.timestamp < d.2) :
    (deltas.foldl (BackupPlan.takeDelta env) p).bucket =
        p.bucket ++ (deltasTaken env p.store p.lastSeq deltas).map (DeltaTaken.object env) ∧
      (deltas.foldl (BackupPlan.takeDelta env) p).store.tables = lastOf p.store
        (deltasTaken env p.store p.lastSeq deltas) := by
  induction deltas generalizing p with
  | nil => exact ⟨(append_nil _).symm, rfl⟩
  | cons delta rest ih =>
    obtain ⟨first, later⟩ := pairwise_cons.mp increasing
    let object : S3Object := DeltaTaken.object env
      ⟨p.lastSeq, delta.2, (runCalls env.extract env.tenantId p.store delta.1).tables⟩
    have put : (BackupPlan.takeDelta env p delta).bucket = p.bucket ++ [object] :=
      putObject_new (o := object) (fun old member => older old member delta mem_cons_self)
    obtain ⟨objects, tables⟩ := ih (BackupPlan.takeDelta env p delta) later (fun o member d inside => by
      rw [put] at member
      rcases mem_append.mp member with old | new
      · exact older o old d (mem_cons_of_mem _ inside)
      · obtain rfl := mem_singleton.mp new
        exact first d.2 (mem_map.mpr ⟨d, inside, rfl⟩))
    rw [foldl_cons, deltasTaken, lastOf_cons]
    refine ⟨?_, tables⟩
    rw [objects, put, map_cons, append_assoc]
    rfl

theorem delta_before_full (folder : String) (since : Int) (timestamp fullAt : String) :
    (ObjectKey.delta since timestamp).text folder < (ObjectKey.full fullAt).text folder := by
  rw [String.lt_iff_toList_lt]
  simp only [ObjectKey.text, String.toList_append, append_assoc]
  refine append_left_lt ?_
  exact List.Lex.rel (by decide)

section
variable {env : BackupEnv}

instance (folder : String) : Std.Total (KeyOrder folder) :=
  ⟨fun a b => le_total (a.key.text folder) (b.key.text folder)⟩
instance (folder : String) : IsTrans S3Object (KeyOrder folder) :=
  ⟨fun _ _ _ first second => le_trans (a := ObjectKey.text folder _) first second⟩

theorem orderedInsert_last {α : Type} (r : α → α → Prop) [DecidableRel r] {a : α} {l : List α}
    (behind : ∀ b ∈ l, ¬ r a b) : l.orderedInsert r a = l ++ [a] := by
  induction l with
  | nil => rfl
  | cons b rest ih =>
    rw [orderedInsert_of_not_le _ _ (behind b mem_cons_self),
      ih (fun c member => behind c (mem_cons_of_mem _ member))]
    rfl

theorem insertionSort_full (folder fullAt : String) (data : Parquet) (checksum : String) (last : Int)
    (taken : List DeltaTaken) :
    (⟨.full fullAt, data, checksum, last⟩ :: taken.map (DeltaTaken.object env)).insertionSort (KeyOrder folder) =
      (importOrder folder taken).map (DeltaTaken.object env) ++ [⟨.full fullAt, data, checksum, last⟩] := by
  have sorted : (importOrder folder taken).map (DeltaTaken.object env) =
      (taken.map (DeltaTaken.object env)).insertionSort (KeyOrder folder) :=
    map_insertionSort _ _ (DeltaTaken.object env) taken (fun _ _ _ _ => Iff.rfl)
  rw [insertionSort_cons, ← sorted, orderedInsert_last]
  intro o member order
  obtain ⟨d, _, rfl⟩ := mem_map.mp member
  exact absurd (delta_before_full folder d.sinceSeq d.timestamp fullAt) (not_lt.mpr order)

theorem restore_nothing {bucket : List S3Object} (s : GraphStore)
    (none_full : ∀ o ∈ listObjects (GraphStore.folder env.s3Prefix env.tenantId) bucket, o.key.isFull = false) :
    restoreFromS3 env.sha env.s3Prefix bucket env.tenantId s = (.error (.s3 "No full snapshot found in S3"), s) := by
  have empty : (listObjects (GraphStore.folder env.s3Prefix env.tenantId) bucket).filter
      (fun o => o.key.isFull) = [] := by
    refine filter_eq_nil_iff.mpr (fun o member => ?_)
    simp [none_full o member]
  simp only [restoreFromS3, empty, insertionSort_nil, getLast?_nil]

theorem applyDeltas_ok (objects : List S3Object) (s : GraphStore)
    (honest : ∀ o ∈ objects, o.checksum = env.sha.hex o.data) :
    applyDeltas env.sha env.tenantId objects s =
      (.ok (), objects.foldl (fun s o => s.importDeltaFromParquet env.tenantId o.data) s) := by
  induction objects generalizing s with
  | nil => rfl
  | cons o rest ih =>
    have checked : ¬ env.sha.hex o.data ≠ o.checksum := by
      rw [honest o mem_cons_self]
      exact fun differs => differs rfl
    rw [applyDeltas, if_neg checked]
    exact ih _ (fun other member => honest other (mem_cons_of_mem _ member))

theorem restore_loads {fullAt : String} {data : Parquet} {last : Int} {taken : List DeltaTaken} (s : GraphStore)
    (page : taken.length < 1000) (later : ∀ d ∈ taken, fullAt < d.timestamp) :
    restoreFromS3 env.sha env.s3Prefix
        (⟨.full fullAt, data, env.sha.hex data, last⟩ :: taken.map (DeltaTaken.object env)) env.tenantId s =
      match s.loadFromS3 env.sha env.tenantId ⟨.full fullAt, data, env.sha.hex data, last⟩ with
      | (.error e, s) => (.error e, s)
      | (.ok (), s) => (.ok (), (importOrder (GraphStore.folder env.s3Prefix env.tenantId) taken).foldl
          (fun s d => s.importDeltaFromParquet env.tenantId (d.object env).data) s) := by
  let folder := GraphStore.folder env.s3Prefix env.tenantId
  let sorted := (importOrder folder taken).map (DeltaTaken.object env)
  let full : S3Object := ⟨.full fullAt, data, env.sha.hex data, last⟩
  have order : importOrder folder taken = taken.insertionSort (fun a b => a.key.text folder ≤ b.key.text folder) :=
    rfl
  have listed : listObjects folder (full :: taken.map (DeltaTaken.object env)) = sorted ++ [full] := by
    rw [listObjects, insertionSort_full, take_of_length_le]
    simp only [length_append, length_map, length_cons, length_nil, order,
      length_insertionSort]
    omega
  have ofDelta : ∀ o ∈ sorted, o.key.isFull = false ∧ fullAt < o.key.timestamp ∧ o.checksum = env.sha.hex o.data := by
    intro o member
    obtain ⟨d, inside, rfl⟩ := mem_map.mp member
    rw [order, mem_insertionSort] at inside
    exact ⟨rfl, later d inside, rfl⟩
  have fulls : (sorted ++ [full]).filter (fun o => o.key.isFull) = [full] := by
    rw [filter_append, filter_eq_nil_iff.mpr (fun o member => by simp [(ofDelta o member).1])]
    rfl
  have deltas : (sorted ++ [full]).filter (fun o => !o.key.isFull && decide (full.key.timestamp < o.key.timestamp)) =
      sorted := by
    rw [filter_append, filter_eq_self.mpr (fun o member => by
      obtain ⟨isDelta, after, _⟩ := ofDelta o member
      show (!o.key.isFull && decide (fullAt < o.key.timestamp)) = true
      rw [isDelta]
      exact decide_eq_true after)]
    simp [full, ObjectKey.isFull]
  have already : sorted.insertionSort (KeyOrder folder) = sorted := by
    refine List.Pairwise.insertionSort_eq ?_
    have sortedFull : sorted = (taken.map (DeltaTaken.object env)).insertionSort (KeyOrder folder) :=
      map_insertionSort _ _ (DeltaTaken.object env) taken (fun _ _ _ _ => Iff.rfl)
    rw [sortedFull]
    exact pairwise_insertionSort _ _
  have single : ([full].insertionSort (KeyOrder folder)).getLast? = some full := rfl
  unfold restoreFromS3
  rw [listed]
  dsimp only
  rw [fulls, single]
  dsimp only
  rw [deltas, already]
  rcases s.loadFromS3 env.sha env.tenantId full with ⟨_ | ⟨⟩, loaded⟩
  · rfl
  · show applyDeltas env.sha env.tenantId sorted loaded = _
    rw [applyDeltas_ok sorted loaded (fun o member => (ofDelta o member).2.2), foldl_map]

theorem select_unique {ρ σ : Type} (p : Marked ρ → Bool) (f : ρ → σ) (t : Table String (Marked ρ)) :
    ((select p f t).map Prod.fst).Nodup := by
  rw [select, map_map]
  exact selected_unique t (fun e => p e.2)

theorem find_select {ρ σ : Type} (p : Marked ρ → Bool) (f : ρ → σ) (t : Table String (Marked ρ)) (id : String) :
    find (select p f t) id = ((t.get id).filter p).map (fun m => f m.row) := by
  rw [select, find_map (fun m : Marked ρ => f m.row), find_filter t (fun e => p e.2)]

theorem insertAll_empty {σ ρ : Type} {rows : List (String × σ)} (unique : (rows.map Prod.fst).Nodup)
    (row : σ → Marked ρ) :
    ({} : Table String (Marked ρ)).insertAll (rows.map (fun e => (e.1, row e.2))) =
      some (({} : Table String (Marked ρ)).insertOrIgnoreAll (rows.map (fun e => (e.1, row e.2)))) := by
  refine insertAll_eq ?_ (fun _ _ => rfl)
  rw [map_map]
  exact unique

theorem load_empty (tenant : env.tenantId ≠ "TRIGGER_CHECKSUM_ERROR") {s : GraphStore} {data : Parquet}
    (exported : s.exportToParquet env.tenantId = .ok data) (key : ObjectKey) (last : Int) :
    ∃ sequences, loadFromS3 env.sha {} env.tenantId ⟨key, data, env.sha.hex data, last⟩ = (.ok (), ⟨⟨
      ({} : Table _ _).insertOrIgnoreAll (data.nodes.map (fun e => (e.1, e.2.row env.tenantId))),
      ({} : Table _ _).insertOrIgnoreAll (data.edges.map (fun e => (e.1, e.2.row env.tenantId)))⟩, sequences⟩) := by
  have nodes : ({} : Table String (Marked NodeRow)).insertAll
      (data.nodes.map (fun e => (e.1, e.2.row env.tenantId))) =
      some (({} : Table _ _).insertOrIgnoreAll (data.nodes.map (fun e => (e.1, e.2.row env.tenantId)))) := by
    refine insertAll_empty ?_ (ParquetNode.row env.tenantId)
    rw [show data.nodes = _ from nodesPart.full s env.tenantId data exported]
    exact select_unique ..
  have edges : ({} : Table String (Marked EdgeRow)).insertAll
      (data.edges.map (fun e => (e.1, e.2.row env.tenantId))) =
      some (({} : Table _ _).insertOrIgnoreAll (data.edges.map (fun e => (e.1, e.2.row env.tenantId)))) := by
    refine insertAll_empty ?_ (ParquetEdge.row env.tenantId)
    rw [show data.edges = _ from edgesPart.full s env.tenantId data exported]
    exact select_unique ..
  simp only [loadFromS3, if_neg tenant, ne_eq, not_true_eq_false, if_false, importFromParquet,
    keepOnly_empty, nodes, edges]
  exact ⟨_, rfl⟩

theorem deltasTaken_made {s : GraphStore} (made : Evolves env.tenantId {} s) (since : Int)
    (deltas : List (List GraphCall × String)) :
    ∀ d ∈ deltasTaken env s since deltas, ∃ t : GraphStore, d.tables = t.tables ∧ Evolves env.tenantId {} t := by
  induction deltas generalizing s since with
  | nil => exact fun _ member => absurd member not_mem_nil
  | cons delta rest ih =>
    have next := made.trans (runCalls_evolves env.extract env.tenantId s delta.1)
    intro d member
    rcases mem_cons.mp member with rfl | later
    · exact ⟨_, rfl, next⟩
    · exact ih next _ d later

theorem deltasTaken_times (env : BackupEnv) (s : GraphStore) (since : Int) (deltas : List (List GraphCall × String)) :
    (deltasTaken env s since deltas).map DeltaTaken.timestamp = deltas.map Prod.snd := by
  induction deltas generalizing s since with
  | nil => rfl
  | cons delta rest ih => rw [deltasTaken, map_cons, map_cons, ih]

section
variable {ρ σ : Type} [GraphRow ρ] (part : Part ρ σ)

def Part.copy (tenantId : String) (r : ρ) : Marked ρ := part.row tenantId (part.file r)

theorem Part.live_copy (tenantId : String) (found : Option ρ) :
    (Marked.live (found.map (part.copy tenantId))).map GraphRow.content = found.map GraphRow.content := by
  cases found with
  | none => rfl
  | some r =>
    have content : GraphRow.content (part.copy tenantId r).row = GraphRow.content r := part.row_content tenantId r
    have live : (part.copy tenantId r).deleted = false := part.row_live tenantId (part.file r)
    rw [Option.map_some, Option.map_some, ← content]
    rcases made : part.copy tenantId r with ⟨row, deleted⟩
    rw [made] at live
    cases live
    rfl

theorem Part.full_row {s : GraphStore} (made : Evolves env.tenantId {} s) {data : Parquet}
    (exported : s.exportToParquet env.tenantId = .ok data) (id : String) :
    (find (part.rows data) id).map (part.row env.tenantId) =
      (Marked.live ((part.table s.tables).get id)).map (part.copy env.tenantId) := by
  rw [part.full s env.tenantId data exported, find_select]
  cases held : (part.table s.tables).get id with
  | none => rfl
  | some m =>
    obtain ⟨owner, _⟩ := part.numbered_of_made made _ _ held
    obtain ⟨row, deleted⟩ := m
    cases deleted <;> simp_all [Option.filter, Marked.live, Part.copy]

theorem Part.delta_row {d : DeltaTaken} (made : ∃ t : GraphStore, d.tables = t.tables ∧ Evolves env.tenantId {} t)
    (id : String) :
    (find (part.rows (d.object env).data) id).map (part.row env.tenantId) =
      (d.carried part.table id).map (part.copy env.tenantId) := by
  obtain ⟨t, same, made⟩ := made
  have rows : part.rows (d.object env).data = _ := part.delta ⟨d.tables, {}⟩ env.tenantId d.sinceSeq
  rw [rows, find_select, DeltaTaken.carried]
  cases held : (part.table d.tables).get id with
  | none => rfl
  | some m =>
    rw [same] at held
    obtain ⟨owner, _⟩ := part.numbered_of_made made _ _ held
    by_cases high : d.sinceSeq < GraphRow.seq m.row <;> simp [Option.filter, owner, high, Part.copy]

theorem Part.deltas_get {imports : List DeltaTaken}
    (taken : ∀ d ∈ imports, ∃ t : GraphStore, d.tables = t.tables ∧ Evolves env.tenantId {} t) (s : GraphStore)
    (id : String) :
    (part.table (imports.foldl (fun s d => s.importDeltaFromParquet env.tenantId
      (d.object env).data) s).tables).get id =
      ((part.table s.tables).get id).or
        ((imports.findSome? (fun d => d.carried part.table id)).map (part.copy env.tenantId)) := by
  induction imports generalizing s with
  | nil => simp
  | cons d rest ih =>
    have brought := part.delta_row (taken d mem_cons_self) id
    rw [foldl_cons, ih (fun other member => taken other (mem_cons_of_mem _ member)), part.load,
      get_insertOrIgnoreAll, find_map, brought, Option.or_assoc, findSome?_cons]
    cases d.carried part.table id <;> rfl

theorem Part.restored_row {s : GraphStore} (made : Evolves env.tenantId {} s) {data : Parquet}
    (exported : s.exportToParquet env.tenantId = .ok data) {loaded : GraphStore}
    (filled : part.table loaded.tables =
      ({} : Table _ _).insertOrIgnoreAll ((part.rows data).map (fun e => (e.1, part.row env.tenantId e.2))))
    {imports : List DeltaTaken}
    (taken : ∀ d ∈ imports, ∃ t : GraphStore, d.tables = t.tables ∧ Evolves env.tenantId {} t) (id : String) :
    (Marked.live ((part.table (imports.foldl (fun s d => s.importDeltaFromParquet env.tenantId (d.object env).data)
        loaded).tables).get id)).map GraphRow.content =
      ((Marked.live ((part.table s.tables).get id)).or
        ((imports.map (fun d => d.carried part.table id)).findSome? (fun c => c))).map GraphRow.content := by
  have together : ∀ first second : Option ρ,
      (first.map (part.copy env.tenantId)).or (second.map (part.copy env.tenantId)) =
      (first.or second).map (part.copy env.tenantId) := by
    intro first second
    cases first <;> rfl
  rw [part.deltas_get taken, filled, get_insertOrIgnoreAll, find_map, part.full_row made exported,
    get_empty, Option.none_or, together, part.live_copy, findSome?_map]
  rfl

end

end

namespace BackupPlan
variable (env : BackupEnv) (plan : BackupPlan)

theorem fullStore_made : Evolves env.tenantId {} (plan.fullStore env) :=
  runCalls_evolves env.extract env.tenantId {} plan.before

theorem sinceFull_le : nodeMaxSeq (plan.fullStore env).tables env.tenantId ≤
    (plan.fullStore env).lastSeq env.tenantId :=
  le_trans (le_max_left _ _) (currentMaxSeq_le_of_made (plan.fullStore_made env))

theorem start_bucket :
    (env.tenantId ∈ ["TRIGGER_IO_ERROR", "TRIGGER_S3_COMMIT_ERROR"] ∧ (plan.start env).bucket = []) ∨
    env.tenantId ∉ ["TRIGGER_IO_ERROR", "TRIGGER_S3_COMMIT_ERROR"] ∧
      ∃ data last, (plan.fullStore env).exportToParquet env.tenantId = .ok data ∧
        (plan.start env).bucket = [⟨.full plan.fullAt, data, env.sha.hex data, last⟩] := by
  cases exported : (plan.fullStore env).exportToParquet env.tenantId with
  | error e =>
    refine .inl ⟨?_, by simp only [start, snapshotFull, exported]⟩
    unfold exportToParquet at exported
    split at exported
    · rename_i trigger
      simp [trigger]
    · cases exported
  | ok data =>
    by_cases commit : env.tenantId = "TRIGGER_S3_COMMIT_ERROR"
    · exact .inl ⟨by simp [commit], by simp only [start, snapshotFull, exported, if_pos commit]⟩
    · have io : env.tenantId ≠ "TRIGGER_IO_ERROR" := by
        intro trigger
        simp [exportToParquet, trigger] at exported
      refine .inr ⟨by simp [io, commit], data, nodeMaxSeq (plan.fullStore env).tables env.tenantId, rfl,
        ?_⟩
      simp only [start, snapshotFull, exported, if_neg commit]
      rfl

theorem start_times : ∀ o ∈ (plan.start env).bucket, ∀ d ∈ plan.deltas, o.key.timestamp < d.2 := by
  intro o member d inside
  rcases plan.start_bucket env with ⟨_, empty⟩ | ⟨_, data, last, _, one⟩
  · rw [empty] at member
    cases member
  · rw [one] at member
    obtain rfl := mem_singleton.mp member
    exact (pairwise_cons.mp plan.increasing).1 d.2 (mem_map.mpr ⟨d, inside, rfl⟩)

theorem finish_eq :
    (plan.finish env).bucket = (plan.start env).bucket ++ (plan.taken env).map (DeltaTaken.object env) ∧
      (plan.finish env).store.tables = plan.lastTables env :=
  takeDeltas_eq env (plan.start env) plan.deltas (pairwise_cons.mp plan.increasing).2 (plan.start_times env)

theorem taken_length : (plan.taken env).length = plan.deltas.length := by
  have times := congrArg length (deltasTaken_times env (plan.fullStore env)
    (nodeMaxSeq (plan.fullStore env).tables env.tenantId) plan.deltas)
  rwa [length_map, length_map] at times

theorem taken_later : ∀ d ∈ plan.taken env, plan.fullAt < d.timestamp := by
  intro d member
  have time : d.timestamp ∈ plan.deltas.map Prod.snd := by
    rw [← deltasTaken_times env (plan.fullStore env)
      (nodeMaxSeq (plan.fullStore env).tables env.tenantId) plan.deltas]
    exact mem_map.mpr ⟨d, member, rfl⟩
  exact (pairwise_cons.mp plan.increasing).1 d.timestamp time

theorem mem_imports {d : DeltaTaken} : d ∈ plan.imports env ↔ d ∈ plan.taken env := mem_insertionSort _

theorem imports_made : ∀ d ∈ plan.imports env, ∃ t : GraphStore, d.tables = t.tables ∧ Evolves env.tenantId {} t :=
  fun d member => deltasTaken_made (plan.fullStore_made env) _ plan.deltas d ((plan.mem_imports env).mp member)

theorem part_restored_iff {ρ σ : Type} [GraphRow ρ] (part : Part ρ σ) {data : Parquet}
    (exported : (plan.fullStore env).exportToParquet env.tenantId = .ok data) (loaded : GraphStore)
    (filled : part.table loaded.tables =
      ({} : Table _ _).insertOrIgnoreAll ((part.rows data).map (fun e => (e.1, part.row env.tenantId e.2)))) :
    (∀ id, (Marked.live ((part.table ((plan.imports env).foldl (fun s d => s.importDeltaFromParquet env.tenantId
          (d.object env).data) loaded).tables).get id)).map GraphRow.content =
      (Marked.live ((part.table (plan.lastTables env)).get id)).map GraphRow.content) ↔
        plan.SettledIn env part.table := by
  refine forall_congr' (fun id => ?_)
  rw [part.restored_row (plan.fullStore_made env) exported filled (plan.imports_made env)]
  refine restored_iff (fun row held => ?_) (fun absent nowhere => ?_)
  · obtain ⟨m, held', deleted⟩ := part.dead_last env id plan.deltas held rfl
    rw [show (part.table (plan.lastTables env)).get id = some m from held']
    obtain ⟨r, d⟩ := m
    cases deleted
    rfl
  · have none_last := part.absent_last (plan.fullStore_made env) id (plan.sinceFull_le env) plan.deltas absent
      (fun d member => nowhere _ (mem_map.mpr ⟨d, (plan.mem_imports env).mpr member, rfl⟩))
    rw [show (part.table (plan.lastTables env)).get id = none from none_last]
    rfl

structure Listed (data : Parquet) (last : Int) : Prop where
  page : plan.deltas.length < 1000
  tenant : env.tenantId ∉ ["TRIGGER_IO_ERROR", "TRIGGER_S3_COMMIT_ERROR"]
  exported : (plan.fullStore env).exportToParquet env.tenantId = .ok data
  bucket : (plan.finish env).bucket =
    ⟨.full plan.fullAt, data, env.sha.hex data, last⟩ :: (plan.taken env).map (DeltaTaken.object env)

theorem listed_of_fits (page : plan.deltas.length < 1000)
    (tenant : env.tenantId ∉ ["TRIGGER_IO_ERROR", "TRIGGER_S3_COMMIT_ERROR"]) : ∃ data last,
      plan.Listed env data last := by
  rcases plan.start_bucket env with ⟨trigger, _⟩ | ⟨_, data, last, exported, one⟩
  · exact absurd trigger tenant
  · exact ⟨data, last, page, tenant, exported, by rw [(plan.finish_eq env).1, one]; rfl⟩

theorem listed_of_restores (restores : plan.Restores env) : ∃ data last, plan.Listed env data last := by
  obtain ⟨restored, done, _⟩ := restores
  have objects := (plan.finish_eq env).1
  rcases plan.start_bucket env with ⟨_, empty⟩ | ⟨tenant, data, last, exported, one⟩
  · rw [objects, empty, restore_nothing] at done
    · cases done
    · intro o member
      have inside := (mem_insertionSort _).mp (mem_of_mem_take member)
      obtain ⟨d, _, rfl⟩ := mem_map.mp inside
      rfl
  · by_cases page : plan.deltas.length < 1000
    · exact plan.listed_of_fits env page tenant
    · rw [objects, one, restore_nothing] at done
      · cases done
      · intro o member
        rw [listObjects, singleton_append, insertionSort_full, take_append_of_le_length] at member
        · obtain ⟨d, _, rfl⟩ := mem_map.mp (mem_of_mem_take member)
          rfl
        · rw [length_map, show (importOrder _ (plan.taken env)).length = (plan.taken env).length from
            length_insertionSort _ _, plan.taken_length env]
          omega

variable {env plan} {data : Parquet} {last : Int}

theorem Listed.restore_eq (listed : plan.Listed env data last) :
    restoreFromS3 env.sha env.s3Prefix (plan.finish env).bucket env.tenantId {} =
      match loadFromS3 env.sha {} env.tenantId ⟨.full plan.fullAt, data, env.sha.hex data, last⟩ with
      | (.error e, s) => (.error e, s)
      | (.ok (), s) => (.ok (), (plan.imports env).foldl
          (fun s d => s.importDeltaFromParquet env.tenantId (d.object env).data) s) := by
  rw [listed.bucket]
  exact restore_loads {} (by rw [plan.taken_length env]; exact listed.page) (plan.taken_later env)

theorem Listed.checksum (listed : plan.Listed env data last) (trigger : env.tenantId = "TRIGGER_CHECKSUM_ERROR") :
    ¬ plan.Restores env := by
  rintro ⟨restored, done, _⟩
  have fails := env.sha.digits data
  rw [listed.restore_eq] at done
  simp only [loadFromS3, if_pos trigger, if_pos fails] at done
  cases done

theorem Listed.settles_iff (listed : plan.Listed env data last) (tenant : env.tenantId ≠ "TRIGGER_CHECKSUM_ERROR") :
    plan.Restores env ↔ plan.SettledIn env GraphTables.memoryNodes ∧ plan.SettledIn env GraphTables.memoryEdges := by
  obtain ⟨sequences, loaded⟩ := load_empty tenant listed.exported (.full plan.fullAt) last
  have nodes := plan.part_restored_iff env nodesPart listed.exported ⟨_, sequences⟩ (nodesPart.fill _ data)
  have edges := plan.part_restored_iff env edgesPart listed.exported ⟨_, sequences⟩ (edgesPart.fill _ data)
  have tables := (plan.finish_eq env).2
  have restored := listed.restore_eq
  rw [loaded] at restored
  constructor
  · rintro ⟨after, done, same⟩
    rw [restored] at done
    cases done
    rw [tables] at same
    exact ⟨nodes.mp same.nodes, edges.mp same.edges⟩
  · rintro ⟨settledNodes, settledEdges⟩
    refine ⟨_, restored, ?_⟩
    rw [tables]
    exact ⟨nodes.mpr settledNodes, edges.mpr settledEdges⟩

end BackupPlan

/-- A restore gives the graph of the last snapshot back exactly if the objects fit one page, the tenant is none
of those whose snapshots fail, and every row settles. -/
theorem restores_iff (env : BackupEnv) (plan : BackupPlan) : plan.Restores env ↔ plan.Restorable env := by
  constructor
  · intro restores
    obtain ⟨data, last, listed⟩ := plan.listed_of_restores env restores
    have tenant : env.tenantId ≠ "TRIGGER_CHECKSUM_ERROR" := fun trigger => listed.checksum trigger restores
    obtain ⟨nodes, edges⟩ := (listed.settles_iff tenant).mp restores
    have others := listed.tenant
    exact ⟨listed.page, by simp_all, nodes, edges⟩
  · rintro ⟨page, tenant, nodes, edges⟩
    simp only [mem_cons, not_mem_nil, or_false, not_or] at tenant
    obtain ⟨data, last, listed⟩ := plan.listed_of_fits env page (by simp [tenant.1, tenant.2.1])
    exact (listed.settles_iff tenant.2.2).mpr ⟨nodes, edges⟩

section Samples

def sampleEnv : BackupEnv where
  extract := ⟨fun _ => none⟩
  sha := ⟨fun _ => "00", fun _ => by decide⟩
  s3Prefix := "graph"
  tenantId := "t1"

def deletedLater : BackupPlan where
  before := [.addNode (sampleNode "a" "Person")]
  fullAt := "20250101_120000"
  deltas := [([.softDeleteNode "a"], "20250101_120500")]
  increasing := pairwise_pair.mpr (String.lt_iff_toList_lt.mpr (by decide))

theorem deletion_not_restored : ¬ deletedLater.Restores sampleEnv := by
  intro restores
  obtain ⟨data, last, listed⟩ := deletedLater.listed_of_restores sampleEnv restores
  obtain ⟨nodes, _⟩ := (listed.settles_iff (by decide)).mp restores
  have kept := (nodes "a").kept ⟨"Person", "{}", "t1", 1⟩ (by decide +kernel)
  rw [show (deletedLater.lastTables sampleEnv).memoryNodes.get "a" = some ⟨⟨"Person", "{}", "t1", 2⟩, true⟩ by
    decide +kernel] at kept
  cases kept

end Samples

end Aeterna.Graph
