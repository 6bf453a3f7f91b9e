import Aeterna.Lib.Runs
import Aeterna.Memory.ColdTier
import Mathlib.Data.List.Flatten

namespace Aeterna.Memory
open Lib (Table recorded Along Throughout)
open List Option Lib.Table

variable (n : Nat)

theorem slash_notMem_natRepr : '/' ∉ n.repr.toList := by
  rw [Nat.toList_repr]
  intro member
  have digit : Char.isDigit '/' = true := Nat.isDigit_of_mem_toDigits (by decide) (by decide) member
  cases digit

theorem slash_notMem_year (year : Int) : '/' ∉ year.repr.toList := by
  rw [Int.repr_eq_if]
  split
  · exact slash_notMem_natRepr _
  · rw [String.toList_append]
    have rest := slash_notMem_natRepr (-year).toNat
    simpa using rest

theorem slash_notMem_twoDigits : '/' ∉ (twoDigits n).toList := by
  unfold twoDigits
  split
  · rw [String.toList_append]
    have rest := slash_notMem_natRepr n
    simpa using rest
  · exact slash_notMem_natRepr n

theorem natRepr_ne_memories : n.repr.toList ≠ "memories".toList := by
  rw [Nat.toList_repr]
  intro same
  have digit : Char.isDigit 'm' = true :=
    Nat.isDigit_of_mem_toDigits (by decide) (by decide) (show 'm' ∈ Nat.toDigits 10 n by rw [same]; decide)
  cases digit

theorem year_ne_memories (year : Int) : year.repr.toList ≠ "memories".toList := by
  rw [Int.repr_eq_if]
  split
  · exact natRepr_ne_memories _
  · rw [String.toList_append]
    intro same
    cases (List.cons.inj same).1

theorem twoDigits_ne_memories : (twoDigits n).toList ≠ "memories".toList := by
  unfold twoDigits
  split
  · rw [String.toList_append]
    intro same
    cases (List.cons.inj same).1
  · exact natRepr_ne_memories n

theorem leads_iff {lead key : String} : leads lead key = true ↔ lead.toList <+: key.toList :=
  isPrefixOf_iff_prefix

section
variable {Entry Data : Type} {setup : ColdTierSetup Entry Data}

theorem leads_makeS3Key (tenantId other : String) (now : UtcTime) (n : Nat) :
    leads (tenantPrefix tenantId) (makeS3Key other now (setup.batchId n)) =
      leads (tenantPrefix tenantId) (tenantPrefix other) := by
  have lead : ∀ id, (tenantPrefix id).toList = (id.toList ++ '/' :: "memories".toList) ++ ['/'] := by
    intro id
    simp [tenantPrefix]
  have key : (makeS3Key other now (setup.batchId n)).toList = (tenantPrefix other).toList ++
      now.year.repr.toList ++ ['/'] ++
      (twoDigits now.month).toList ++ ['/'] ++ ((setup.batchId n).toList ++ ".json".toList) := by
    simp [makeS3Key]
  rw [Bool.eq_iff_iff, leads_iff, leads_iff, key]
  constructor
  · intro reaches
    have unsplit : '/' ∉ (setup.batchId n).toList ++ ".json".toList := by
      have rest := setup.unsplit n
      simpa using rest
    rw [lead, lead] at reaches ⊢
    have past := Lib.lead_shorten unsplit reaches
    have past := Lib.lead_passes (slash_notMem_twoDigits _) (by decide) (twoDigits_ne_memories _) past
    exact Lib.lead_passes (slash_notMem_year _) (by decide) (year_ne_memories _) past
  · intro reaches
    simp only [append_assoc]
    exact reaches.trans (prefix_append _ _)

theorem makeS3Key_inj {tenantId other : String} {now later : UtcTime} {m n : Nat}
    (same : makeS3Key tenantId now (setup.batchId m) = makeS3Key other later (setup.batchId n)) : m = n := by
  have key : ∀ id (at_ : UtcTime) k, (makeS3Key id at_ (setup.batchId k)).toList.reverse = ".json".toList.reverse ++
      ((setup.batchId k).toList.reverse ++ '/' :: ((tenantPrefix id).toList ++ at_.year.repr.toList ++ ['/'] ++
        (twoDigits at_.month).toList).reverse) := by
    intro id at_ k
    simp [makeS3Key]
  have turned := congrArg (fun text => text.toList.reverse) same
  rw [key, key] at turned
  have unsplit : ∀ k, '/' ∉ (setup.batchId k).toList.reverse := by
    intro k
    rw [mem_reverse]
    exact setup.unsplit k
  have ids := (Lib.separated_inj (unsplit m) (unsplit n) (append_cancel_left turned)).1
  exact setup.fresh (String.ext (reverse_injective ids))

end

namespace ColdArchiveIndex
variable {idx : ColdArchiveIndex} {tenantId other : String} {archive : ColdArchiveMetadata}
  {listed : List ColdArchiveMetadata}

def archives (idx : ColdArchiveIndex) (tenantId : String) : List ColdArchiveMetadata :=
  (idx.byTenant.get tenantId).getD []

structure Sums (idx : ColdArchiveIndex) : Prop where
  entries : idx.totalArchivedEntries = idx.byTenant.total archivedEntries
  bytes : idx.totalArchivedBytes = idx.byTenant.total archivedBytes

theorem archives_push : (idx.push tenantId archive).archives other =
    idx.archives other ++ if other = tenantId then [archive] else [] := by
  unfold archives push
  rw [get_upsert]
  by_cases same : other = tenantId
  · subst same
    cases idx.byTenant.get other <;> simp
  · simp [same]

theorem archives_remove : (idx.remove tenantId).archives other = if other = tenantId then []
    else idx.archives other := by
  unfold archives remove
  cases held : idx.byTenant.get tenantId with
  | none =>
    by_cases same : other = tenantId
    · subst same
      simp [held]
    · simp [same]
  | some old =>
    dsimp only
    rw [get_keepOnly]
    by_cases same : other = tenantId
    · subst same
      simp [held, Option.filter]
    · cases idx.byTenant.get other <;> simp [same, Option.filter]

theorem archives_replace : (idx.replace tenantId listed).archives other =
    if other = tenantId then listed else idx.archives other := by
  unfold ColdArchiveIndex.archives replace
  rw [get_upsert]
  by_cases same : other = tenantId
  · subst same
    cases idx.byTenant.get other <;> simp
  · simp [same]

theorem Sums.push (sums : idx.Sums) : (idx.push tenantId archive).Sums := by
  have added : ∀ f : List ColdArchiveMetadata → Nat, (∀ old, f (old ++ [archive]) = f old + f [archive]) → f [] = 0 →
      (idx.push tenantId archive).byTenant.total f = idx.byTenant.total f + f [archive] := by
    intro f grows empty
    have before := total_split f idx.byTenant tenantId
    unfold ColdArchiveIndex.push
    dsimp only
    rw [total_upsert, before]
    cases idx.byTenant.get tenantId with
    | none => simp only [map_none, getD_none]; omega
    | some old => simp only [map_some, getD_some, grows]; omega
  constructor
  · rw [added _ (by simp [archivedEntries]) rfl, ← sums.entries]
    simp [ColdArchiveIndex.push, archivedEntries]
  · rw [added _ (by simp [archivedBytes]) rfl, ← sums.bytes]
    simp [ColdArchiveIndex.push, archivedBytes]

theorem Sums.remove (sums : idx.Sums) : (idx.remove tenantId).Sums := by
  unfold ColdArchiveIndex.remove
  cases held : idx.byTenant.get tenantId with
  | none => exact sums
  | some old =>
    have entries := total_split archivedEntries idx.byTenant tenantId
    have bytes := total_split archivedBytes idx.byTenant tenantId
    rw [held, ← sums.entries] at entries
    rw [held, ← sums.bytes] at bytes
    simp only [map_some, getD_some] at entries bytes
    constructor
    · dsimp only
      omega
    · dsimp only
      omega

theorem Sums.replace (sums : idx.Sums) : (idx.replace tenantId listed).Sums := by
  have placed : ∀ f : List ColdArchiveMetadata → Nat, f [] = 0 → (idx.replace tenantId listed).byTenant.total f =
      idx.byTenant.total f - f (idx.archives tenantId) + f listed := by
    intro f empty
    have before := total_split f idx.byTenant tenantId
    unfold ColdArchiveIndex.replace ColdArchiveIndex.archives
    dsimp only
    rw [total_upsert, before]
    cases idx.byTenant.get tenantId with
    | none => simp only [map_none, getD_none, empty]; omega
    | some old => simp only [map_some, getD_some]; omega
  constructor
  · rw [placed _ rfl, ← sums.entries]
    rfl
  · rw [placed _ rfl, ← sums.bytes]
    rfl

end ColdArchiveIndex

section
variable {Entry Data : Type} (setup : ColdTierSetup Entry Data)

def batchOf (e : String × Data) : ArchiveBatch Entry :=
  match setup.fromSlice e.2 with
  | .ok batch => batch
  | .error _ => { tenantId := "", archivedAt := ⟨0, 0, 0⟩, entries := [] }

def contents (e : String × Data) : List Entry := (batchOf setup e).entries

def ownedBy (tenantId : String) (e : String × Data) : Bool :=
  match setup.fromSlice e.2 with
  | .ok batch => batch.tenantId = tenantId
  | .error _ => false

def objectsOf (s : ColdTier Data) (tenantId : String) : List (String × Data) :=
  s.objects.rows.filter (ownedBy setup tenantId)

def objectInfo (e : String × Data) : String × Nat × Nat := (e.1, (contents setup e).length, setup.size e.2)

def ColdArchiveMetadata.info (archive : ColdArchiveMetadata) : String × Nat × Nat :=
  (archive.s3Key, archive.entryCount, archive.sizeBytes)

structure StoredFor (s : ColdTier Data) (tenantId : String) (e : String × Data) : Prop where
  keyed : ∃ now n, e.1 = makeS3Key tenantId now (setup.batchId n) ∧ n < s.drawn
  legible : ∃ batch, setup.fromSlice e.2 = .ok batch ∧ batch.tenantId = tenantId

variable {setup} {s next : ColdTier Data} {tenantId other : String} {e : String × Data}

section
variable (stored : StoredFor setup s tenantId e)
include stored

theorem StoredFor.owned : ownedBy setup other e = decide (other = tenantId) := by
  obtain ⟨batch, read, named⟩ := stored.legible
  unfold ownedBy
  rw [read]
  simp [named, eq_comm]

theorem StoredFor.reached : leads (tenantPrefix other) e.1 = leads (tenantPrefix other) (tenantPrefix tenantId) := by
  obtain ⟨now, n, key, _⟩ := stored.keyed
  rw [key, leads_makeS3Key]

theorem StoredFor.later (drawn : s.drawn ≤ next.drawn) : StoredFor setup next tenantId e := by
  obtain ⟨now, n, key, below⟩ := stored.keyed
  exact ⟨⟨now, n, key, Nat.lt_of_lt_of_le below drawn⟩, stored.legible⟩

end

def AllStored (setup : ColdTierSetup Entry Data) (tenants : TenantId → Prop) (s : ColdTier Data) : Prop :=
  ∀ e ∈ s.objects.rows, ∃ tenantId, tenants tenantId ∧ StoredFor setup s tenantId.text e

structure Adds (setup : ColdTierSetup Entry Data) (s : ColdTier Data) (tenantId : String) (entries : List Entry)
    (next : ColdTier Data) (added : List (String × Data)) : Prop where
  rows : next.objects.rows = s.objects.rows ++ added
  contents : added.flatMap (contents setup) = entries
  stored : ∀ e ∈ added, StoredFor setup next tenantId e
  drawn : s.drawn ≤ next.drawn
  index : ∀ other, (next.index.archives other).map (·.info) =
    (s.index.archives other).map (·.info) ++ if other = tenantId then added.map (objectInfo setup) else []
  sums : s.index.Sums → next.index.Sums

theorem Adds.allStored {tenants : TenantId → Prop} {owner : TenantId} {entries : List Entry}
    {added : List (String × Data)} (adds : Adds setup s owner.text entries next added) (member : tenants owner)
    (all : AllStored setup tenants s) :
    AllStored setup tenants next := by
  intro e inside
  rw [adds.rows, mem_append] at inside
  rcases inside with old | new
  · obtain ⟨tenantId, known, stored⟩ := all e old
    exact ⟨tenantId, known, stored.later adds.drawn⟩
  · exact ⟨owner, member, adds.stored e new⟩

theorem archiveChunk_adds {tenants : TenantId → Prop} (tenantId : String) (now : UtcTime) {chunk : List Entry}
    (all : AllStored setup tenants s) (carried : ∀ entry ∈ chunk, setup.carried entry) :
    ∃ added, Adds setup s tenantId chunk (archiveChunk setup s tenantId now chunk).1 added := by
  let key := makeS3Key tenantId now (setup.batchId s.drawn)
  let batch : ArchiveBatch Entry := { tenantId, archivedAt := now, entries := chunk }
  have read : setup.fromSlice (setup.toVec batch) = .ok batch := setup.readsBack batch carried
  have absent : s.objects.get key = none := by
    rw [get_eq_none]
    intro member
    obtain ⟨e, inside, same⟩ := List.mem_map.mp member
    obtain ⟨owner, _, stored⟩ := all e inside
    obtain ⟨at_, n, named, below⟩ := stored.keyed
    rw [named] at same
    have equal := makeS3Key_inj same
    omega
  refine ⟨[(key, setup.toVec batch)], ?_, ?_, ?_, Nat.le_succ _, ?_, ColdArchiveIndex.Sums.push⟩
  · show (s.objects.upsert key (setup.toVec batch) (fun _ => setup.toVec batch)).rows = _
    rw [upsert, dif_pos absent]
    rfl
  · simp [contents, batchOf, read, batch]
  · intro e inside
    rw [mem_singleton.mp inside]
    exact ⟨⟨now, s.drawn, rfl, Nat.lt_succ_self _⟩, batch, read, rfl⟩
  · intro other
    show ((s.index.push tenantId (describe setup tenantId key (setup.toVec batch) batch)).archives other).map _ = _
    rw [ColdArchiveIndex.archives_push, map_append]
    congr 1
    split
    · simp [ColdArchiveMetadata.info, describe, objectInfo, contents, batchOf, read]
    · rfl

theorem archiveChunks_adds {tenants : TenantId → Prop} {owner : TenantId} (member : tenants owner) (now : UtcTime)
    {pieces : List (List Entry)}
    (all : AllStored setup tenants s) (carried : ∀ chunk ∈ pieces, ∀ entry ∈ chunk, setup.carried entry) :
    ∃ added, Adds setup s owner.text pieces.flatten (archiveChunks setup owner.text now pieces s).1 added := by
  induction pieces generalizing s with
  | nil =>
    refine ⟨[], (append_nil _).symm, rfl, fun _ absent => absurd absent not_mem_nil, Nat.le_refl _, ?_, id⟩
    intro other
    simp [archiveChunks]
  | cons chunk rest ih =>
    obtain ⟨first, head⟩ := archiveChunk_adds owner.text now all (carried chunk mem_cons_self)
    obtain ⟨others, tail⟩ := ih (head.allStored member all)
        (fun piece inside => carried piece (mem_cons_of_mem _ inside))
    refine ⟨first ++ others, ?_, ?_, ?_, Nat.le_trans head.drawn tail.drawn, ?_,
      fun sums => tail.sums (head.sums sums)⟩
    · rw [← append_assoc, ← head.rows]
      exact tail.rows
    · rw [flatMap_append, head.contents, tail.contents]
      rfl
    · intro e inside
      rcases mem_append.mp inside with new | later
      · exact (head.stored e new).later tail.drawn
      · exact tail.stored e later
    · intro other
      rw [map_append]
      refine (tail.index other).trans ?_
      rw [head.index other, append_assoc]
      split <;> rfl

theorem chunks_flatten {α : Type} {size fuel : Nat} {items : List α} (positive : 1 ≤ size)
    (enough : items.length ≤ fuel) :
    (chunks size fuel items).flatten = items := by
  induction fuel generalizing items with
  | zero =>
    rw [eq_nil_of_length_eq_zero (Nat.le_zero.mp enough)]
    rfl
  | succ fuel ih =>
    rw [chunks]
    cases items with
    | nil => rfl
    | cons item rest =>
      have shorter : ((item :: rest).drop size).length ≤ fuel := by
        rw [length_drop, length_cons] at *
        omega
      rw [if_neg (by simp), flatten_cons, ih shorter, take_append_drop]

theorem archiveEntries_adds {tenants : TenantId → Prop} {owner : TenantId} (member : tenants owner) (now : UtcTime)
    {entries : List Entry}
    (all : AllStored setup tenants s) (carried : ∀ entry ∈ entries, setup.carried entry) :
    ∃ added, Adds setup s owner.text (if setup.enabled then entries else [])
      (archiveEntries setup s owner now entries).1 added := by
  unfold archiveEntries
  cases setup.enabled with
  | false =>
    refine ⟨[], (append_nil _).symm, rfl, fun _ absent => absurd absent not_mem_nil, Nat.le_refl _, ?_, id⟩
    intro other
    simp
  | true =>
    have whole : (chunks setup.batchSize entries.length entries).flatten = entries :=
      chunks_flatten setup.positive (Nat.le_refl _)
    have pieces : ∀ chunk ∈ chunks setup.batchSize entries.length entries, ∀ entry ∈ chunk, setup.carried entry := by
      intro chunk inside entry within
      apply carried
      rw [← whole]
      exact mem_flatten.mpr ⟨chunk, inside, within⟩
    have adds := archiveChunks_adds member now all pieces
    rw [whole] at adds
    exact adds

def objectsUnder (s : ColdTier Data) (lead : String) : List (String × Data) :=
  s.objects.rows.filter (fun e => leads lead e.1)

theorem mapM_listObjects {β : Type} (setup : ColdTierSetup Entry Data) {lead : String}
    (f : String → Except ColdTierError β) (g : String × Data → β)
    (reads : ∀ e ∈ objectsUnder s lead, f e.1 = .ok (g e)) :
    ∃ answers, (listObjects setup s lead).mapM f = .ok answers ∧ answers.Perm ((objectsUnder s lead).map g) := by
  have keys : (listObjects setup s lead).Perm ((objectsUnder s lead).map Prod.fst) := by
    unfold listObjects objectsUnder
    rw [List.filter_map]
    exact setup.reorders _
  have read : ((listObjects setup s lead).map f).Perm (((objectsUnder s lead).map g).map .ok) := by
    refine (keys.map f).trans (Perm.of_eq ?_)
    rw [List.map_map, List.map_map]
    exact map_congr_left reads
  -- every answer is one of the objects'
  refine ⟨((listObjects setup s lead).map f).filterMap Except.toOption, Lib.mapM_eq_ok.mpr ?_, ?_⟩
  · generalize (listObjects setup s lead).map f = answers at read
    have all : ∀ answer ∈ answers, ∃ value, answer = .ok value := by
      intro answer inside
      obtain ⟨value, _, same⟩ := List.mem_map.mp (read.mem_iff.mp inside)
      exact ⟨value, same.symm⟩
    clear read
    induction answers with
    | nil => rfl
    | cons answer rest ih =>
      obtain ⟨value, rfl⟩ := all answer mem_cons_self
      rw [filterMap_cons_some (by rfl), map_cons]
      exact congrArg _ (ih (fun other inside => all other (mem_cons_of_mem _ inside)))
  · have kept := read.filterMap Except.toOption
    have same : (((objectsUnder s lead).map g).map (Except.ok (ε := ColdTierError))).filterMap Except.toOption =
        (objectsUnder s lead).map g := by
      rw [filterMap_map]
      exact filterMap_some
    rw [same] at kept
    exact kept

theorem downloadObject_of_mem (inside : e ∈ s.objects.rows) : downloadObject s e.1 = .ok e.2 := by
  unfold downloadObject
  rw [get_eq_some.mpr inside]

theorem fromSlice_downloadObject (inside : e ∈ s.objects.rows) (legible : ∃ batch, setup.fromSlice e.2 = .ok batch) :
    (downloadObject s e.1).bind setup.fromSlice = .ok (batchOf setup e) := by
  obtain ⟨batch, read⟩ := legible
  rw [downloadObject_of_mem inside]
  show setup.fromSlice e.2 = _
  rw [batchOf, read]

section
variable (owner : TenantId) (legible : ∀ e ∈ s.objects.rows, ∃ batch, setup.fromSlice e.2 = .ok batch)
include owner legible

theorem restoreEntries_perm : ∃ entries, restoreEntries setup s owner = .ok entries ∧
      entries.Perm ((objectsUnder s (tenantPrefix owner.text)).flatMap (contents setup)) := by
  have reads : ∀ e ∈ objectsUnder s (tenantPrefix owner.text),
      (downloadObject s e.1).bind setup.fromSlice = .ok (batchOf setup e) := by
    intro e inside
    have stored := (mem_filter.mp inside).1
    exact fromSlice_downloadObject stored (legible e stored)
  obtain ⟨batches, read, perm⟩ := mapM_listObjects setup (fun key => (downloadObject s key).bind setup.fromSlice)
    (batchOf setup) reads
  refine ⟨batches.flatMap (·.entries), ?_, ?_⟩
  · unfold restoreEntries
    show ((listObjects setup s (tenantPrefix owner.text)).mapM
      (fun key => (downloadObject s key).bind setup.fromSlice)).bind _ = _
    rw [read]
    rfl
  · refine (perm.flatMap_right _).trans (Perm.of_eq ?_)
    rw [flatMap_map]
    rfl

theorem rebuildIndex_ok :
    ∃ archives, rebuildIndexForTenant setup s owner = .ok { s with index := s.index.replace owner.text archives } ∧
      (archives.map (·.info)).Perm ((objectsUnder s (tenantPrefix owner.text)).map (objectInfo setup)) := by
  have reads : ∀ e ∈ objectsUnder s (tenantPrefix owner.text), (downloadObject s e.1).bind (fun data =>
      (setup.fromSlice data).bind (fun batch => .ok (describe setup owner.text e.1 data batch))) =
        .ok (describe setup owner.text e.1 e.2 (batchOf setup e)) := by
    intro e inside
    have stored := (mem_filter.mp inside).1
    obtain ⟨batch, read⟩ := legible e stored
    rw [downloadObject_of_mem stored]
    show (setup.fromSlice e.2).bind _ = _
    rw [batchOf, read]
    rfl
  obtain ⟨archives, read, perm⟩ := mapM_listObjects setup (fun key => (downloadObject s key).bind (fun data =>
      (setup.fromSlice data).bind (fun batch => .ok (describe setup owner.text key data batch))))
    (fun e => describe setup owner.text e.1 e.2 (batchOf setup e)) reads
  refine ⟨archives, ?_, ?_⟩
  · unfold rebuildIndexForTenant
    show (((listObjects setup s (tenantPrefix owner.text)).mapM (fun key => (downloadObject s key).bind (fun data =>
      (setup.fromSlice data).bind (fun batch => .ok (describe setup owner.text key data batch))))).bind _) = _
    rw [read]
    rfl
  · refine (perm.map _).trans (Perm.of_eq ?_)
    rw [List.map_map]
    rfl

end

end

section
variable {Entry Data : Type} (setup : ColdTierSetup Entry Data) (tenants : TenantId → Prop)

inductive ColdCall where
  | archive (tenantId : TenantId) (member : tenants tenantId) (now : UtcTime) (entries : List Entry)
      (carried : ∀ entry ∈ entries, setup.carried entry)
  | delete (tenantId : TenantId) (member : tenants tenantId)
  | rebuild (tenantId : TenantId) (member : tenants tenantId)

variable {setup tenants}

def coldStep (s : ColdTier Data) : ColdCall setup tenants → Option (ColdTier Data)
  | .archive tenantId _ now entries _ => some (archiveEntries setup s tenantId now entries).1
  | .delete tenantId _ => some (deleteTenantArchives setup s tenantId).1
  | .rebuild tenantId _ => some ((rebuildIndexForTenant setup s tenantId).toOption.getD s)

def ColdCall.record (held : String → List Entry) (tenantId : String) : ColdCall setup tenants → List Entry
  | .archive owner _ _ entries _ =>
    if tenantId = owner.text ∧ setup.enabled then held tenantId ++ entries else held tenantId
  | .delete owner _ => if tenantId = owner.text then [] else held tenantId
  | .rebuild _ _ => held tenantId

def archivedBy (made : List (ColdCall setup tenants)) : String → List Entry :=
  made.foldl (fun held call tenantId => call.record held tenantId) (fun _ => [])

theorem archivedBy_append (made : List (ColdCall setup tenants)) (call : ColdCall setup tenants) (tenantId : String) :
    archivedBy (made ++ [call]) tenantId = call.record (archivedBy made) tenantId := by
  simp [archivedBy, foldl_append]

variable (state : ColdTier Data × List (ColdCall setup tenants))

structure ExactStore : Prop where
  restored : ∀ owner, tenants owner → ∃ entries, restoreEntries setup state.1 owner = .ok entries ∧
    entries.Perm (archivedBy state.2 owner.text)
  owned : ∀ e ∈ state.1.objects.rows, ∃ owner, tenants owner ∧ ownedBy setup owner.text e
  listed : ∀ tenantId, ((state.1.index.archives tenantId).map (·.info)).Perm
    ((objectsOf setup state.1 tenantId).map (objectInfo setup))
  sums : state.1.index.Sums

def Apart (tenants : TenantId → Prop) (owner : TenantId) : Prop :=
  ∀ other, tenants other → leads (tenantPrefix other.text) (tenantPrefix owner.text) → other.text = owner.text

def ArchivesApart : ColdCall setup tenants → Prop
  | .archive owner _ _ entries _ => setup.enabled → entries ≠ [] → Apart tenants owner
  | _ => True

structure KeptApart : Prop where
  stored : ∀ e ∈ state.1.objects.rows, ∃ owner, tenants owner ∧ Apart tenants owner ∧
    StoredFor setup state.1 owner.text e
  held : ∀ tenantId, (objectsOf setup state.1 tenantId).flatMap (contents setup) = archivedBy state.2 tenantId
  listed : ∀ tenantId, ((state.1.index.archives tenantId).map (·.info)).Perm
    ((objectsOf setup state.1 tenantId).map (objectInfo setup))
  sums : state.1.index.Sums

variable {s next : ColdTier Data} {made : List (ColdCall setup tenants)} {owner : TenantId}

theorem KeptApart.all (kept : KeptApart (s, made)) : AllStored setup tenants s := by
  intro e inside
  obtain ⟨owner, member, _, stored⟩ := kept.stored e inside
  exact ⟨owner, member, stored⟩

theorem KeptApart.objectsUnder_eq (kept : KeptApart (s, made)) (member : tenants owner) :
    objectsUnder s (tenantPrefix owner.text) = objectsOf setup s owner.text := by
  apply filter_congr
  intro e inside
  obtain ⟨holder, _, apart, stored⟩ := kept.stored e inside
  rw [stored.reached, stored.owned, Bool.eq_iff_iff, decide_eq_true_eq]
  constructor
  · exact apart owner member
  · intro same
    rw [same]
    exact leads_iff.mpr (prefix_refl _)

theorem AllStored.legible (all : AllStored setup tenants s) :
    ∀ e ∈ s.objects.rows, ∃ batch, setup.fromSlice e.2 = .ok batch := by
  intro e inside
  obtain ⟨holder, _, stored⟩ := all e inside
  obtain ⟨batch, read, _⟩ := stored.legible
  exact ⟨batch, read⟩

theorem KeptApart.exactStore (kept : KeptApart (s, made)) : ExactStore (s, made) where
  restored := by
    intro owner member
    obtain ⟨entries, read, perm⟩ := restoreEntries_perm owner kept.all.legible
    rw [kept.objectsUnder_eq member, kept.held] at perm
    exact ⟨entries, read, perm⟩
  owned := by
    intro e inside
    obtain ⟨holder, member, _, stored⟩ := kept.stored e inside
    exact ⟨holder, member, by rw [stored.owned]; exact decide_eq_true rfl⟩
  listed := kept.listed
  sums := kept.sums

variable {entries : List Entry} {call : ColdCall setup tenants}

theorem Adds.objectsOf_eq {added : List (String × Data)} {holder : String}
    (adds : Adds setup s holder entries next added) (tenantId : String) :
    objectsOf setup next tenantId = objectsOf setup s tenantId ++ if tenantId = holder then added else [] := by
  unfold objectsOf
  rw [adds.rows, filter_append]
  congr 1
  split
  · rename_i own
    refine filter_eq_self.mpr (fun e inside => ?_)
    rw [(adds.stored e inside).owned]
    exact decide_eq_true own
  · rename_i foreign
    refine filter_eq_nil_iff.mpr (fun e inside => ?_)
    rw [(adds.stored e inside).owned]
    simpa using foreign

theorem archiveEntries_nothing {now : UtcTime} (nothing : setup.enabled = false ∨ entries = []) :
    (archiveEntries setup s owner now entries).1 = s := by
  unfold archiveEntries
  rcases nothing with disabled | rfl
  · rw [disabled]
    rfl
  · cases setup.enabled <;> rfl

section
variable (kept : KeptApart (s, made)) (member : tenants owner)
include kept member

theorem KeptApart.archive (now : UtcTime)
    (carried : ∀ entry ∈ entries, setup.carried entry) (apart : setup.enabled → entries ≠ [] → Apart tenants owner) :
    KeptApart ((archiveEntries setup s owner now entries).1,
      made ++ [.archive owner member now entries carried]) := by
  by_cases something : setup.enabled = true ∧ entries ≠ []
  · obtain ⟨enabled, present⟩ := something
    obtain ⟨added, adds⟩ := archiveEntries_adds member now kept.all carried
    rw [if_pos enabled] at adds
    constructor
    · intro e inside
      dsimp only at inside
      rw [adds.rows, mem_append] at inside
      rcases inside with old | new
      · obtain ⟨holder, known, free, stored⟩ := kept.stored e old
        exact ⟨holder, known, free, stored.later adds.drawn⟩
      · exact ⟨owner, member, apart enabled present, adds.stored e new⟩
    · intro tenantId
      dsimp only
      rw [adds.objectsOf_eq, flatMap_append, kept.held, archivedBy_append]
      by_cases own : tenantId = owner.text
      · simp [ColdCall.record, own, enabled, adds.contents]
      · simp [ColdCall.record, own]
    · intro tenantId
      dsimp only
      rw [adds.objectsOf_eq, adds.index, map_append]
      refine (kept.listed tenantId).append (Perm.of_eq ?_)
      split <;> rfl
    · exact adds.sums kept.sums
  · have nothing : setup.enabled = false ∨ entries = [] := by
      cases enabled : setup.enabled with
      | false => exact .inl rfl
      | true => exact .inr (by simpa [enabled] using something)
    rw [archiveEntries_nothing nothing]
    refine ⟨kept.stored, fun tenantId => ?_, kept.listed, kept.sums⟩
    rw [archivedBy_append, kept.held]
    rcases nothing with disabled | rfl
    · simp [ColdCall.record, disabled]
    · simp [ColdCall.record]

theorem KeptApart.rows_deleted : (deleteTenantArchives setup s owner).1.objects.rows = s.objects.rows.filter
      (fun e => !ownedBy setup owner.text e) := by
  have listed : ∀ e ∈ s.objects.rows,
      e.1 ∈ listObjects setup s (tenantPrefix owner.text) ↔ ownedBy setup owner.text e = true := by
    intro e inside
    have found := congrArg (fun rows => e ∈ rows) (kept.objectsUnder_eq member)
    simp only [objectsUnder, objectsOf, mem_filter, inside, true_and] at found
    rw [← found]
    unfold listObjects
    rw [(setup.reorders _).mem_iff, mem_filter]
    exact ⟨fun both => both.2, fun reached => ⟨List.mem_map.mpr ⟨e, inside, rfl⟩, reached⟩⟩
  refine filter_congr (fun e inside => ?_)
  rw [Bool.eq_iff_iff, decide_eq_true_eq, listed e inside]
  simp

theorem KeptApart.objects_deleted (tenantId : String) :
    objectsOf setup (deleteTenantArchives setup s owner).1 tenantId = if tenantId = owner.text then []
      else objectsOf setup s tenantId := by
  unfold objectsOf
  rw [kept.rows_deleted member, List.filter_filter]
  split
  · rename_i own
    subst own
    exact filter_eq_nil_iff.mpr (by simp)
  · rename_i foreign
    refine filter_congr (fun e inside => ?_)
    obtain ⟨holder, _, _, stored⟩ := kept.stored e inside
    rw [stored.owned, stored.owned]
    by_cases held : tenantId = holder.text
    · have apart : owner.text ≠ holder.text := fun same => foreign (held.trans same.symm)
      simp [held, apart]
    · simp [held]

theorem KeptApart.delete : KeptApart ((deleteTenantArchives setup s owner).1, made ++ [.delete owner member]) := by
  constructor
  · intro e inside
    dsimp only at inside
    rw [kept.rows_deleted member] at inside
    obtain ⟨holder, known, free, stored⟩ := kept.stored e (mem_filter.mp inside).1
    exact ⟨holder, known, free, stored.later (Nat.le_refl _)⟩
  · intro tenantId
    dsimp only
    rw [kept.objects_deleted member, archivedBy_append]
    show _ = if tenantId = owner.text then [] else archivedBy made tenantId
    split
    · rfl
    · exact kept.held tenantId
  · intro tenantId
    dsimp only
    rw [kept.objects_deleted member]
    show (((s.index.remove owner.text).archives tenantId).map _).Perm _
    rw [ColdArchiveIndex.archives_remove]
    split
    · exact List.Perm.refl _
    · exact kept.listed tenantId
  · exact kept.sums.remove

theorem KeptApart.rebuild :
    KeptApart ((rebuildIndexForTenant setup s owner).toOption.getD s, made ++ [.rebuild owner member]) := by
  obtain ⟨archives, rebuilt, perm⟩ := rebuildIndex_ok owner kept.all.legible
  rw [kept.objectsUnder_eq member] at perm
  rw [rebuilt]
  refine ⟨fun e inside => ?_, fun tenantId => ?_, fun tenantId => ?_, kept.sums.replace⟩
  · obtain ⟨holder, known, free, stored⟩ := kept.stored e inside
    exact ⟨holder, known, free, stored.later (Nat.le_refl _)⟩
  · rw [archivedBy_append]
    exact kept.held tenantId
  · show (((s.index.replace owner.text archives).archives tenantId).map _).Perm _
    rw [ColdArchiveIndex.archives_replace]
    split
    · rename_i own
      subst own
      exact perm
    · exact kept.listed tenantId

end

theorem KeptApart.step (kept : KeptApart (s, made)) (apart : ArchivesApart call)
    (ran : coldStep s call = some next) : KeptApart (next, made ++ [call]) := by
  cases call with
  | archive owner member now entries carried =>
    cases ran
    exact kept.archive member now carried apart
  | delete owner member =>
    cases ran
    exact kept.delete member
  | rebuild owner member =>
    cases ran
    exact kept.rebuild member

theorem archivesApart_of_exactStore (kept : KeptApart (s, made))
    (ran : coldStep s call = some next) (exactly : ExactStore (next, made ++ [call])) : ArchivesApart call := by
  cases call with
  | archive owner member now entries carried =>
    cases ran
    intro enabled present other known reached
    by_contra foreign
    obtain ⟨added, adds⟩ := archiveEntries_adds member now kept.all carried
    rw [if_pos enabled] at adds
    obtain ⟨returned, read, exact_⟩ := exactly.restored other known
    obtain ⟨restored, read', perm⟩ := restoreEntries_perm other (adds.allStored member kept.all).legible
    have same := read.symm.trans read'
    cases same
    have under : objectsUnder (archiveEntries setup s owner now entries).1 (tenantPrefix other.text) =
        objectsOf setup s other.text ++ added := by
      rw [← kept.objectsUnder_eq known]
      unfold objectsUnder
      rw [adds.rows, filter_append]
      congr 1
      refine filter_eq_self.mpr (fun e inside => ?_)
      rw [(adds.stored e inside).reached]
      exact reached
    rw [under, flatMap_append, kept.held, adds.contents] at perm
    rw [archivedBy_append] at exact_
    have more := (exact_.symm.trans perm).length_eq
    simp only [ColdCall.record, foreign, false_and, if_false, length_append] at more
    exact present (eq_nil_of_length_eq_zero (by omega))
  | delete owner member => trivial
  | rebuild owner member => trivial

theorem KeptApart.empty : KeptApart (({} : ColdTier Data), ([] : List (ColdCall setup tenants))) where
  stored _ absent := absurd absent not_mem_nil
  held _ := rfl
  listed _ := List.Perm.refl _
  sums := ⟨rfl, rfl⟩

theorem coldStep_run (calls : List (ColdCall setup tenants)) (s : ColdTier Data) :
    ∃ last, Lib.run coldStep s calls = some last := by
  induction calls generalizing s with
  | nil => exact ⟨s, rfl⟩
  | cons call rest ih =>
    have first : ∃ next, coldStep s call = some next := by cases call <;> exact ⟨_, rfl⟩
    obtain ⟨next, first⟩ := first
    obtain ⟨last, later⟩ := ih next
    exact ⟨last, Lib.run_cons.mpr ⟨next, first, later⟩⟩

/-- Exactly if no archive is made by a tenant that another one's lead reaches, the cold tier is an exact store
for each of the tenants. -/
theorem coldTier_exact_iff (calls : List (ColdCall setup tenants)) :
    Throughout (recorded coldStep) ExactStore (({} : ColdTier Data), []) calls ↔ ∀ call ∈ calls,
      ArchivesApart call := by
  obtain ⟨last, ran⟩ := coldStep_run calls ({} : ColdTier Data)
  have ran : Lib.run (recorded coldStep) ({}, []) calls = some (last, calls) := Lib.run_recorded ran
  rw [← Lib.along_iff_forall ran]
  apply Lib.throughout_iff KeptApart.exactStore
  · rintro ⟨s, made⟩ call next kept apart step
    obtain ⟨after, first, rfl⟩ := Lib.recorded_eq_some.mp step
    exact KeptApart.step kept apart first
  · rintro ⟨s, made⟩ call next kept step exactly
    obtain ⟨after, first, rfl⟩ := Lib.recorded_eq_some.mp step
    exact archivesApart_of_exactStore kept first exactly
  · exact KeptApart.empty
  · exact ran

end

def sampleSetup : ColdTierSetup Nat (ArchiveBatch Nat) where
  batchSize := 500
  positive := by decide
  createdAt _ := 0
  toVec batch := batch
  fromSlice := .ok
  carried _ := True
  readsBack _ _ := rfl
  size batch := batch.entries.length
  batchId n := String.ofList (replicate n 'a')
  fresh := by
    intro m n same
    have lengths := congrArg String.length same
    simpa using lengths
  unsplit n := by simp
  order keys := keys
  reorders _ := List.Perm.refl _

def shorterTenant : TenantId := ⟨"a", by decide, by decide⟩

def longerTenant : TenantId := ⟨"a/memories", by decide, by decide⟩

def sampleArchive : ColdCall sampleSetup (fun _ => True) :=
  .archive longerTenant trivial ⟨0, 2026, 1⟩ [7] (fun _ _ => trivial)

theorem coldTier_mixed : ¬ Throughout (recorded coldStep) ExactStore (({} : ColdTier (ArchiveBatch Nat)), [])
    [sampleArchive] := by
  intro exactly
  have ran : recorded coldStep (({} : ColdTier (ArchiveBatch Nat)), []) sampleArchive = some _ := rfl
  have after : ExactStore _ := exactly [sampleArchive] [] _ rfl (Lib.run_cons.mpr ⟨_, ran, rfl⟩)
  have apart : ArchivesApart sampleArchive := archivesApart_of_exactStore KeptApart.empty rfl after
  have reached : leads (tenantPrefix shorterTenant.text) (tenantPrefix longerTenant.text) = true := by decide +kernel
  have same : shorterTenant.text = longerTenant.text := apart rfl (cons_ne_nil _ _) shorterTenant trivial reached
  exact absurd same (by decide)

end Aeterna.Memory
