import Aeterna.Lib.Sequences
import Aeterna.Sync.Convergence
import Aeterna.Sync.Reachable
import Mathlib.Data.List.ReduceOption

namespace Aeterna.Sync
open Lib List Links Option Eff

variable (env : Env) (knowledge : Knowledge)

def Links.findMemoryId (l : Links) (path : String) : Option String :=
  (l.mapping.entries.find? (fun binding => binding.2 = path)).map (·.1)

/-- The links after the entry at a pair has been found gone. -/
def Links.drop (layer : KnowledgeLayer) (path : String) (l : Links) : Links :=
  match l.findMemoryId path with
  | none => l
  | some memoryId => (l.deleteMemory (mapLayer layer) memoryId).forget path memoryId

/-- `sync_incremental` for one affected pair. -/
def Links.item (l : Links) (pair : KnowledgeLayer × String) : Links :=
  match knowledge.get pair.1 pair.2 with
  | some entry => l.settle env entry
  | none => l.drop pair.1 pair.2

def Links.increment (last : Option String) (l : Links) : Links :=
  match last with
  | none => knowledge.visited.foldl (settle env) l
  | some commit =>
    if knowledge.headCommit = some commit then l
    else (knowledge.affectedItems commit).foldl (Links.item env knowledge) l

variable {env knowledge}

theorem dropEntry_clean (clean : env.Clean) (layer : KnowledgeLayer) (path : String) (w : World) :
    ∃ next, dropEntry env layer path w = (.ok (), next) ∧ next.links = w.links.drop layer path ∧
      SameRecords w next := by
  have look : w.links.findMemoryId path = w.working.findMemoryId path := rfl
  unfold dropEntry Links.drop
  rw [bind_of_ok (get_run w), look]
  cases w.working.findMemoryId path with
  | none => exact ⟨w, rfl, rfl, .refl w⟩
  | some memoryId =>
    simp only
    rw [bind_of_ok (callMemory_clean clean _ w)]
    refine ⟨_, rfl, ?_, ⟨rfl, rfl, rfl, rfl, rfl, rfl⟩⟩
    simp only [World.links, linksOf, deleteMemory, Links.forget, Links.mk.injEq]
    exact ⟨rfl, rfl, rfl, funext fun key => land_memory w _ key⟩

section
variable (clean : env.Clean) (steady : env.Steady knowledge)
include clean steady

theorem syncItem_clean (layer : KnowledgeLayer) (path : String) (w : World) :
    ∃ attempts next, syncItem env layer path w = (.ok attempts, next) ∧
      next.links = w.links.item env knowledge (layer, path) ∧ SameRecords w next := by
  unfold syncItem Links.item
  rw [bind_of_ok (getEntry_clean clean steady layer path w)]
  cases found : knowledge.get layer path with
  | some entry =>
    obtain ⟨attempt, next, run, links, same⟩ := attemptEntry_clean clean entry w.advance
    exact ⟨[attempt], next, bind_of_ok run, links, (SameRecords.advance w).trans same⟩
  | none =>
    obtain ⟨next, run, links, same⟩ := dropEntry_clean clean layer path w.advance
    exact ⟨[], next, bind_of_ok run, links, (SameRecords.advance w).trans same⟩

theorem syncItems_clean (items : List (KnowledgeLayer × String)) (w : World) :
    ∃ attempts next, syncItems env items w = (.ok attempts, next) ∧
      next.links = items.foldl (Links.item env knowledge) w.links ∧ SameRecords w next := by
  induction items generalizing w with
  | nil => exact ⟨[], w, rfl, rfl, .refl w⟩
  | cons item rest ih =>
    obtain ⟨attempts, w₁, run₁, links₁, same₁⟩ := syncItem_clean clean steady item.1 item.2 w
    obtain ⟨others, w₂, run₂, links₂, same₂⟩ := ih w₁
    refine ⟨attempts ++ others, w₂, ?_, ?_, same₁.trans same₂⟩
    · exact (bind_of_ok run₁).trans (bind_of_ok run₂)
    · rw [links₂, links₁, foldl_cons]

theorem syncIncremental_clean (w : World) : ∃ next, syncIncremental env w = (.ok (), next) ∧
      linksOf next.current next.memory =
        (linksOf w.current w.memory).increment env knowledge w.current.lastKnowledgeCommit ∧
      next.current.lastKnowledgeCommit = knowledge.headCommit := by
  obtain ⟨w₁, begun, working, memory, states⟩ := beginOperation_clean clean w
  have links : w₁.links = linksOf w.current w.memory := by rw [World.links, working, memory]
  have run : syncIncremental env w = syncIncrementalLoaded env w₁ := bind_of_ok begun
  unfold syncIncrementalLoaded at run
  rw [bind_of_ok (get_run w₁), working] at run
  cases synced : w.current.lastKnowledgeCommit with
  | none =>
    obtain ⟨w₂, full, links₂, commit, published⟩ := syncAllInternal_clean clean steady w₁
    simp only [synced] at run
    refine ⟨w₂, run.trans full, ?_, by rw [published.current]; exact commit⟩
    rw [published.current, ← links]
    exact links₂
  | some last =>
    simp only [synced] at run
    rw [bind_of_ok (headCommit_clean clean steady w₁)] at run
    by_cases same : knowledge.headCommit = some last
    · rw [if_pos same] at run
      have current : w₁.advance.current = w.current := by simp [World.current, World.advance, states]
      refine ⟨w₁.advance, run, ?_, by rw [current, synced, same]⟩
      rw [current, increment, if_pos same]
      simp [World.advance, memory]
    · rw [if_neg same, bind_of_ok (external_clean clean _ w₁.advance), steady] at run
      obtain ⟨attempts, w₂, passed, links₂, -⟩ := syncItems_clean clean steady (knowledge.affectedItems last)
        w₁.advance.advance
      obtain ⟨w₃, finished, links₃, commit, published⟩ := finishSync_clean clean knowledge.headCommit attempts w₂
      refine ⟨w₃, ?_, ?_, by rw [published.current]; exact commit⟩
      · rw [run]
        exact (bind_of_ok passed).trans finished
      · rw [published.current, increment, if_neg same, ← links]
        exact links₃.trans links₂

end

variable {l : Links} {pair : KnowledgeLayer × String}

theorem Links.Named.settle (named : l.Named) (entry : KnowledgeEntry) : (l.settle env entry).Named := by
  unfold Links.settle
  split
  · rename_i writes
    intro memoryId path found
    by_cases own : memoryId = pointerId entry.path
    · subst own
      simp only [record, AList.lookup_insert, Option.some.injEq] at found
      subst found
      exact ⟨rfl, writes.1⟩
    · simp only [record, AList.lookup_insert_ne own] at found
      exact named memoryId path found
  · exact named

theorem Links.Named.findMemoryId (named : l.Named) (path : String) :
    l.findMemoryId path = if (l.cell path).pointer = some path then some (pointerId path) else none := by
  unfold Links.findMemoryId
  by_cases bound : (l.cell path).pointer = some path
  · have head := congrArg head? (named.unique bound)
    rw [head?_filter] at head
    rw [if_pos bound, head]
    rfl
  · rw [if_neg bound, map_eq_none_iff, find?_eq_none]
    rintro ⟨memoryId, target⟩ member same
    have equal : target = path := by simpa using same
    subst equal
    have mapped := AList.mem_lookup_iff.mpr member
    obtain ⟨rfl, -⟩ := named memoryId target mapped
    exact bound mapped

theorem Links.Named.drop (named : l.Named) (layer : KnowledgeLayer) (path : String) : (l.drop layer path).Named := by
  unfold Links.drop
  cases l.findMemoryId path with
  | none => exact named
  | some memoryId =>
    intro other target found
    simp only [Links.forget, deleteMemory] at found
    by_cases same : other = memoryId
    · rw [same, AList.lookup_erase] at found
      cases found
    · rw [AList.lookup_erase_ne same] at found
      exact named other target found

theorem Links.Named.item (named : l.Named) (pair : KnowledgeLayer × String) : (l.item env knowledge pair).Named := by
  unfold Links.item
  split
  · exact named.settle _
  · exact named.drop _ _

variable (env knowledge) in
def Cell.item (c : Cell) (pair : KnowledgeLayer × String) : Cell :=
  match knowledge.get pair.1 pair.2 with
  | some entry => c.settle env entry
  | none => if c.pointer = some pair.2 then (c.deleteMemory (mapLayer pair.1)).forget else c

theorem cell_item_same (named : l.Named) (pair : KnowledgeLayer × String) :
    (l.item env knowledge pair).cell pair.2 = (l.cell pair.2).item env knowledge pair := by
  unfold Links.item Cell.item
  cases found : knowledge.get pair.1 pair.2 with
  | some entry =>
    rw [← (knowledge.get_sound found).1]
    exact settle_keyed.same l entry trivial
  | none =>
    simp only [Links.drop, named.findMemoryId]
    by_cases bound : (l.cell pair.2).pointer = some pair.2
    · rw [if_pos bound, if_pos bound]
      simp only
      rw [cell_forget_same, cell_deleteMemory_same]
    · rw [if_neg bound, if_neg bound]

theorem cell_item_other (named : l.Named) {path : String} (different : path ≠ pair.2) :
    (l.item env knowledge pair).cell path = l.cell path := by
  unfold Links.item
  cases found : knowledge.get pair.1 pair.2 with
  | some entry =>
    exact settle_keyed.other l entry path trivial (by rw [(knowledge.get_sound found).1]; exact different)
  | none =>
    simp only [Links.drop, named.findMemoryId]
    by_cases bound : (l.cell pair.2).pointer = some pair.2
    · rw [if_pos bound]
      simp only
      rw [cell_forget_other _ different, cell_deleteMemory_other _ _ different]
    · rw [if_neg bound]

theorem item_keyed : Keyed (fun _ => True) (fun (l : { l : Links // l.Named }) => l.1.cell)
    (fun pair : KnowledgeLayer × String => pair.2)
    (fun l pair => ⟨l.1.item env knowledge pair, l.2.item pair⟩) (Cell.item env knowledge) where
  same l pair _ := cell_item_same l.2 pair
  other l _ _ _ different := cell_item_other l.2 different

theorem items_cell (items : List (KnowledgeLayer × String)) (named : l.Named) (path : String) :
    (items.foldl (Links.item env knowledge) l).Named ∧
    (items.foldl (Links.item env knowledge) l).cell path =
      (items.filter (fun pair => pair.2 = path)).foldl (Cell.item env knowledge) (l.cell path) := by
  have forget : ∀ (items : List (KnowledgeLayer × String)) (l : { l : Links // l.Named }),
      (items.foldl (fun (l : { l : Links // l.Named }) pair =>
        (⟨l.1.item env knowledge pair, l.2.item pair⟩ : { l : Links // l.Named })) l).1 =
        items.foldl (Links.item env knowledge) l.1 := by
    intro items
    induction items with
    | nil => exact fun l => rfl
    | cons pair rest ih => exact fun l => ih _
  rw [← forget items ⟨l, named⟩]
  exact ⟨Subtype.property _, item_keyed.foldl (fun _ _ => trivial) ⟨l, named⟩ path⟩

@[ext] structure Footprint where
  hash : Option String := none
  layer : Option KnowledgeLayer := none
  pointer : Option String := none

variable (s : SyncState)

def SyncState.footprint (path : String) : Footprint where
  hash := s.knowledgeHashes.lookup path
  layer := s.knowledgeLayers.lookup path
  pointer := s.pointerMapping.lookup (pointerId path)

def Cell.footprint (c : Cell) : Footprint := ⟨c.hash, c.layer, c.pointer⟩

theorem linksOf_footprint (memory : MemoryStore) (path : String) :
    ((linksOf s memory).cell path).footprint = s.footprint path := rfl

section
variable (env)

def Footprint.ofEntry (entry : KnowledgeEntry) : Footprint :=
  ⟨some (syncedHash env entry), some entry.layer, some entry.path⟩

def Footprint.settle (f : Footprint) (entry : KnowledgeEntry) : Footprint :=
  if f.hash = some (syncedHash env entry) then f else .ofEntry env entry

def Footprint.read (path : String) (f : Footprint) : Option KnowledgeEntry → Footprint
  | some entry => f.settle env entry
  | none => if f.pointer = some path then {} else f

end

theorem footprint_settle {c : Cell} {entry : KnowledgeEntry} (real : simulatesFailure entry.path = false) :
    (c.settle env entry).footprint = c.footprint.settle env entry := by
  unfold Cell.settle Footprint.settle
  by_cases same : c.footprint.hash = some (syncedHash env entry)
  · rw [if_pos same, if_neg (fun writes => writes.2 same)]
  · rw [if_neg same, if_pos ⟨real, same⟩]
    rfl

theorem footprint_settled {entries : List KnowledgeEntry}
    (all : ∀ entry ∈ entries, simulatesFailure entry.path = false) (c : Cell) :
    (entries.foldl (Cell.settle env) c).footprint = entries.foldl (Footprint.settle env) c.footprint := by
  induction entries generalizing c with
  | nil => rfl
  | cons entry rest ih =>
    rw [foldl_cons, ih (fun other member => all other (mem_cons_of_mem _ member)),
      footprint_settle (all entry mem_cons_self), foldl_cons]

theorem footprint_item {c : Cell} (real : (knowledge.get pair.1 pair.2).isSome → simulatesFailure pair.2 = false) :
    (c.item env knowledge pair).footprint = Footprint.read env pair.2 c.footprint (knowledge.get pair.1 pair.2) := by
  unfold Cell.item
  cases found : knowledge.get pair.1 pair.2 with
  | some entry =>
    have named := (knowledge.get_sound found).1
    exact footprint_settle (by rw [named]; exact real (by rw [found]; rfl))
  | none =>
    by_cases bound : c.pointer = some pair.2
    · have same : c.footprint.pointer = some pair.2 := bound
      simp only [Footprint.read]
      rw [if_pos bound, if_pos same]
      rfl
    · have same : ¬ c.footprint.pointer = some pair.2 := bound
      simp only [Footprint.read]
      rw [if_neg bound, if_neg same]

theorem footprint_replayed {path : String} {items : List (KnowledgeLayer × String)}
    (all : ∀ pair ∈ items, pair.2 = path)
    (real : ∀ pair ∈ items, (knowledge.get pair.1 pair.2).isSome → simulatesFailure pair.2 = false) (c : Cell) :
    (items.foldl (Cell.item env knowledge) c).footprint =
      (items.map (fun pair => knowledge.get pair.1 pair.2)).foldl (Footprint.read env path) c.footprint := by
  induction items generalizing c with
  | nil => rfl
  | cons pair rest ih =>
    rw [foldl_cons, ih (fun other member => all other (mem_cons_of_mem _ member))
      (fun other member => real other (mem_cons_of_mem _ member)),
      footprint_item (real pair mem_cons_self), map_cons, foldl_cons, all pair mem_cons_self]

section
variable (env)

def laterReads (reads : List (Option KnowledgeEntry)) : List KnowledgeEntry :=
  (reads.rtakeWhile isSome).reduceOption

def Footprint.Bound (path : String) (f : Footprint) (reads : List (Option KnowledgeEntry)) : Prop :=
  f.pointer = some path ∨ ∃ entry ∈ reads.reduceOption, f.hash ≠ some (syncedHash env entry)

instance (path : String) (f : Footprint) (reads : List (Option KnowledgeEntry)) :
    Decidable (f.Bound env path reads) :=
  inferInstanceAs (Decidable (_ ∨ _))

/-- The footprint that the later reads are settled over: blank if a pair before them found no entry
while the path had a pointer. -/
def Footprint.base (path : String) (f : Footprint) (reads : List (Option KnowledgeEntry)) : Footprint :=
  if reads.rdropWhile isSome ≠ [] ∧ f.Bound env path (reads.rdropWhile isSome) then {} else f

def Footprint.newest (f : Footprint) (entries : List KnowledgeEntry) : Footprint :=
  lastRun Footprint.hash f (entries.map (Footprint.ofEntry env))

end

theorem newest_eq_foldl (f : Footprint) (entries : List KnowledgeEntry) :
    f.newest env entries = entries.foldl (Footprint.settle env) f := by
  rw [Footprint.newest, ← foldl_takeChanged, foldl_map]
  rfl

section
variable {path : String} {f : Footprint} {reads : List (Option KnowledgeEntry)}

theorem bound_concat_none : f.Bound env path (reads ++ [none]) ↔ f.Bound env path reads := by
  simp [Footprint.Bound, reduceOption_append]

theorem bound_concat_some {entry : KnowledgeEntry} : f.Bound env path (reads ++ [some entry]) ↔
    f.Bound env path reads ∨ f.hash ≠ some (syncedHash env entry) := by
  simp only [Footprint.Bound, reduceOption_append, reduceOption_singleton, toList_some,
    mem_append, mem_singleton]
  constructor
  · rintro (bound | ⟨other, member | rfl, differs⟩)
    · exact Or.inl (Or.inl bound)
    · exact Or.inl (Or.inr ⟨other, member, differs⟩)
    · exact Or.inr differs
  · rintro ((bound | ⟨other, member, differs⟩) | differs)
    · exact Or.inl bound
    · exact Or.inr ⟨other, Or.inl member, differs⟩
    · exact Or.inr ⟨entry, Or.inr rfl, differs⟩

theorem reads_bound (all : ∀ entry, some entry ∈ reads → entry.path = path) :
    (f.Bound env path reads → (reads.foldl (Footprint.read env path) f).pointer = some path ∨
      reads.foldl (Footprint.read env path) f = {}) ∧
    (¬ f.Bound env path reads → reads.foldl (Footprint.read env path) f = f) := by
  induction reads using reverseRecOn with
  | nil => exact ⟨fun bound => Or.inl (by simpa [Footprint.Bound] using bound), fun _ => rfl⟩
  | append_singleton reads read ih =>
    have before := ih (fun entry member => all entry (mem_append_left _ member))
    rw [foldl_append, foldl_cons, foldl_nil]
    generalize reads.foldl (Footprint.read env path) f = result at before
    cases read with
    | none =>
      rw [bound_concat_none]
      simp only [Footprint.read]
      constructor
      · intro bound
        rcases before.1 bound with kept | rfl
        · exact Or.inr (if_pos kept)
        · exact Or.inr (ite_self _)
      · intro unbound
        rw [before.2 unbound, if_neg (fun pointer => unbound (Or.inl pointer))]
    | some entry =>
      have own : entry.path = path := all entry (mem_append_right _ mem_cons_self)
      rw [bound_concat_some]
      simp only [Footprint.read, Footprint.settle]
      constructor
      · intro bound
        split
        · rename_i same
          by_cases earlier : f.Bound env path reads
          · exact before.1 earlier
          · rw [before.2 earlier] at same
            exact absurd same (bound.resolve_left earlier)
        · exact Or.inl (by rw [← own]; rfl)
      · intro unbound
        obtain ⟨earlier, same⟩ := not_or.mp unbound
        rw [before.2 earlier, if_pos (not_not.mp same)]

theorem reads_newest (all : ∀ entry, some entry ∈ reads → entry.path = path) :
    reads.foldl (Footprint.read env path) f = (f.base env path reads).newest env (laterReads reads) := by
  induction reads using reverseRecOn with
  | nil => exact (newest_eq_foldl f []).symm
  | append_singleton reads read ih =>
    have before : ∀ entry, some entry ∈ reads → entry.path = path :=
      fun entry member => all entry (mem_append_left _ member)
    cases read with
    | some entry =>
      have base : f.base env path (reads ++ [some entry]) = f.base env path reads := by
        simp only [Footprint.base, rdropWhile_concat_pos isSome reads (some entry) rfl]
      have later : laterReads (reads ++ [some entry]) = laterReads reads ++ [entry] := by
        rw [laterReads, rtakeWhile_concat_pos _ _ _ rfl, reduceOption_append]
        rfl
      rw [foldl_append, ih before, base, later, newest_eq_foldl, newest_eq_foldl, foldl_append]
      rfl
    | none =>
      have later : laterReads (reads ++ [none]) = [] := by
        rw [laterReads, rtakeWhile_concat_neg _ _ _ (by simp)]
        rfl
      have earlier : (reads ++ [none]).rdropWhile isSome = reads ++ [none] :=
        rdropWhile_concat_neg _ _ _ (by simp)
      obtain ⟨kept, unchanged⟩ := @reads_bound env path f reads before
      rw [later, newest_eq_foldl, Footprint.base, earlier, foldl_append, foldl_cons, foldl_nil,
        foldl_nil]
      simp only [Footprint.read]
      by_cases bound : f.Bound env path reads
      · rw [if_pos (show reads ++ [none] ≠ [] ∧ _ from ⟨by simp, bound_concat_none.mpr bound⟩)]
        rcases kept bound with pointer | blank
        · exact if_pos pointer
        · rw [blank]
          exact ite_self _
      · rw [if_neg (show ¬ (reads ++ [none] ≠ [] ∧ _) from fun both => bound (bound_concat_none.mp both.2)),
          unchanged bound]
        exact if_neg (fun pointer => bound (Or.inl pointer))

end

/-- Two states with the same three maps. -/
structure SameMaps (a b : SyncState) : Prop where
  pointerMapping : ∀ memoryId, a.pointerMapping.lookup memoryId = b.pointerMapping.lookup memoryId
  knowledgeHashes : ∀ path, a.knowledgeHashes.lookup path = b.knowledgeHashes.lookup path
  knowledgeLayers : ∀ path, a.knowledgeLayers.lookup path = b.knowledgeLayers.lookup path

theorem sameMaps_iff {a b : SyncState} (namedA : a.Named) (namedB : b.Named) :
    SameMaps a b ↔ ∀ path, a.footprint path = b.footprint path := by
  constructor
  · intro same path
    exact Footprint.ext (same.knowledgeHashes path) (same.knowledgeLayers path) (same.pointerMapping (pointerId path))
  · intro same
    refine ⟨fun memoryId => ?_, fun path => congrArg Footprint.hash (same path),
      fun path => congrArg Footprint.layer (same path)⟩
    by_cases pointer : ∃ path, memoryId = pointerId path
    · obtain ⟨path, rfl⟩ := pointer
      exact congrArg Footprint.pointer (same path)
    · have unbound : ∀ {s : SyncState}, s.Named → s.pointerMapping.lookup memoryId = none := by
        intro s named
        refine eq_none_iff_forall_ne_some.mpr (fun path found => pointer ⟨path, (named _ _ found).1⟩)
      rw [unbound namedA, unbound namedB]

variable (env knowledge)

def affectedReads (last path : String) : List (Option KnowledgeEntry) :=
  if knowledge.headCommit = some last then []
  else ((knowledge.affectedItems last).filter (fun pair => pair.2 = path)).map
    (fun pair => knowledge.get pair.1 pair.2)

/-- For every path, its recorded version followed by its live versions ends as its recorded version,
with removals taken into account, followed by what the affected pairs read. -/
def ReplayMatches : Prop :=
  ∀ last, s.lastKnowledgeCommit = some last → ∀ path,
    (s.footprint path).newest env (versions knowledge.visited path) =
      ((s.footprint path).base env path (affectedReads knowledge last path)).newest env
        (laterReads (affectedReads knowledge last path))

/-- The test hook fails no entry that a full sync visits or an incremental one reads. -/
structure Unhooked : Prop where
  visited : ∀ entry ∈ knowledge.visited, simulatesFailure entry.path = false
  affected : ∀ last, s.lastKnowledgeCommit = some last → ∀ pair ∈ knowledge.affectedItems last,
    (knowledge.get pair.1 pair.2).isSome → simulatesFailure pair.2 = false

variable {env knowledge}

theorem settled_footprint (real : ∀ entry ∈ knowledge.visited, simulatesFailure entry.path = false) (s : SyncState)
    (memory : MemoryStore) (path : String) :
    ((knowledge.visited.foldl (settle env) (linksOf s memory)).cell path).footprint =
      (versions knowledge.visited path).foldl (Footprint.settle env) (s.footprint path) := by
  have own : ∀ entry ∈ versions knowledge.visited path, simulatesFailure entry.path = false :=
    fun entry member => real entry (mem_filter.mp member).1
  rw [settled_cell, footprint_settled own, linksOf_footprint]

theorem affectedReads_path {last path : String} {entry : KnowledgeEntry}
    (member : some entry ∈ affectedReads knowledge last path) : entry.path = path := by
  unfold affectedReads at member
  split at member
  · cases member
  · obtain ⟨pair, listed, read⟩ := List.mem_map.mp member
    have own : pair.2 = path := by simpa using (mem_filter.mp listed).2
    rw [(knowledge.get_sound read).1, own]

theorem increment_footprint {s : SyncState} (named : s.Named) {last : String}
    (real : ∀ pair ∈ knowledge.affectedItems last, (knowledge.get pair.1 pair.2).isSome →
      simulatesFailure pair.2 = false) (memory : MemoryStore) (path : String) :
    (((linksOf s memory).increment env knowledge (some last)).cell path).footprint =
      (affectedReads knowledge last path).foldl (Footprint.read env path) (s.footprint path) := by
  rw [increment, affectedReads]
  by_cases same : knowledge.headCommit = some last
  · rw [if_pos same, if_pos same]
    rfl
  · rw [if_neg same, if_neg same, (items_cell _ (show (linksOf s memory).Named from named) path).2,
      footprint_replayed, linksOf_footprint]
    · intro pair member
      simpa using (mem_filter.mp member).2
    · intro pair member
      exact real pair (mem_filter.mp member).1

def SyncState.OneEach (s : SyncState) : Prop := ∀ path first second, s.pointerMapping.lookup first = some path →
  s.pointerMapping.lookup second = some path → first = second

/-- Whatever fails, whoever writes in between and whenever the bridge restarts: in no copy of the state do two
memories stand for one entry. -/
theorem pointers_unique {w : World} (reachable : Reachable w) : w.Every SyncState.OneEach := by
  have unique {s : SyncState} (named : s.Named) : s.OneEach := fun path first second one other =>
    (named first path one).1.trans (named second path other).1.symm
  obtain ⟨states, persisted, checkpoint, working⟩ := reachable_named reachable
  exact ⟨fun s held => unique (states s held), fun s held => unique (persisted s held),
    fun s held => unique (checkpoint s held), unique working⟩

theorem clean_named {env : Env} {w : World} (reachable : Reachable w) (op : Operation) :
    (op.run env w).current.Named :=
  (reachable_named (.step reachable (.operation env op))).current SyncState.named_default

/-- From any reachable state, a full and an incremental sync in which nothing fails or is blocked end
with the same maps if and only if the replay matches the live versions of every path. -/
theorem syncIncremental_matches_iff (clean : env.Clean) (steady : env.Steady knowledge) {w : World}
    (reachable : Reachable w) (unhooked : Unhooked knowledge w.current) :
    (syncAll env w).1 = .ok () ∧ (syncIncremental env w).1 = .ok () ∧
      (SameMaps (syncAll env w).2.current (syncIncremental env w).2.current ↔
        ReplayMatches env knowledge w.current) := by
  have named : w.current.Named := (reachable_named reachable).current SyncState.named_default
  obtain ⟨full, fullRun, fullLinks, -, published⟩ := syncAll_clean clean steady w
  obtain ⟨next, run, links, -⟩ := syncIncremental_clean clean steady w
  have fullNamed : full.current.Named := by
    have after := @clean_named env w reachable .syncAll
    rwa [Operation.run, fullRun] at after
  have nextNamed : next.current.Named := by
    have after := @clean_named env w reachable .syncIncremental
    rwa [Operation.run, run] at after
  have fullFootprint : ∀ path, full.current.footprint path =
      (w.current.footprint path).newest env (versions knowledge.visited path) := by
    intro path
    rw [newest_eq_foldl, ← settled_footprint unhooked.visited w.current w.memory, ← fullLinks, published.current]
    rfl
  refine ⟨by rw [fullRun], by rw [run], ?_⟩
  rw [fullRun, run, sameMaps_iff fullNamed nextNamed]
  cases synced : w.current.lastKnowledgeCommit with
  | none =>
    refine iff_of_true ?_ (fun last found => by rw [synced] at found; cases found)
    intro path
    rw [fullFootprint, ← linksOf_footprint next.current next.memory, links, synced, increment,
      settled_footprint unhooked.visited, newest_eq_foldl]
  | some last =>
    have nextFootprint : ∀ path, next.current.footprint path =
        ((w.current.footprint path).base env path (affectedReads knowledge last path)).newest env
          (laterReads (affectedReads knowledge last path)) := by
      intro path
      rw [← reads_newest (fun _ => affectedReads_path),
        ← increment_footprint named (unhooked.affected last synced) w.memory, ← synced, ← links]
      rfl
    constructor
    · intro same commit found path
      rw [synced] at found
      cases found
      rw [← fullFootprint, ← nextFootprint]
      exact same path
    · intro matching path
      rw [fullFootprint, nextFootprint]
      exact matching last synced path

def ExactDiff (before now : Knowledge) (items : List (KnowledgeLayer × String)) : Prop :=
  items.Nodup ∧ ∀ layer path, (layer, path) ∈ items ↔ before.get layer path ≠ now.get layer path

section
variable (entries : List KnowledgeEntry) (nodup : (entries.map (fun entry => (entry.layer, entry.path))).Nodup)

def laterKnowledge : Knowledge := .ofEntries entries nodup (some "c2") (fun _ => [(.team, "guide.md")])

def laterEnv : Env := { sampleEnv "plain" .accepted with knowledge := fun _ => laterKnowledge entries nodup }

theorem laterEnv_clean : (laterEnv entries nodup).Clean :=
  ⟨fun _ => rfl, fun _ configured => (by cases configured), fun _ _ => Or.inl rfl⟩

theorem laterEnv_steady : (laterEnv entries nodup).Steady (laterKnowledge entries nodup) := fun _ => rfl

theorem laterKnowledge_exact {entries : List KnowledgeEntry}
    {nodup : (entries.map (fun entry => (entry.layer, entry.path))).Nodup}
    (guides : ∀ entry ∈ entries, entry.layer = .team ∧ entry.path = "guide.md" ∧ entry.content ≠ "plain") :
    ExactDiff (sampleKnowledge "plain" .accepted) (laterKnowledge entries nodup)
      ((laterKnowledge entries nodup).affectedItems "c1") := by
  refine ⟨nodup_singleton _, fun layer path => ?_⟩
  have listed : (layer, path) ∈ (laterKnowledge entries nodup).affectedItems "c1" ↔
      layer = .team ∧ path = "guide.md" := by
    simp [laterKnowledge, Knowledge.ofEntries]
  rw [listed]
  constructor
  · rintro ⟨rfl, rfl⟩ same
    have before : (sampleKnowledge "plain" .accepted).get .team "guide.md" = some
        (sampleEntry "plain" .accepted) := by
      simp [sampleKnowledge, Knowledge.ofEntries, sampleEntry]
    rw [before] at same
    have member := mem_of_find?_eq_some same.symm
    exact (guides _ member).2.2 rfl
  · intro differs
    by_contra other
    have absent : (laterKnowledge entries nodup).get layer path = none := by
      refine find?_eq_none.mpr (fun entry member found => other ?_)
      obtain ⟨team, guide, -⟩ := guides entry member
      have here : entry.layer = layer ∧ entry.path = path := of_decide_eq_true found
      exact ⟨here.1.symm.trans team, here.2.symm.trans guide⟩
    have before : (sampleKnowledge "plain" .accepted).get layer path = none := by
      refine find?_eq_none.mpr (fun entry member found => other ?_)
      rw [mem_singleton.mp member] at found
      have here : KnowledgeLayer.team = layer ∧ "guide.md" = path := of_decide_eq_true found
      exact ⟨here.1.symm, here.2.symm⟩
    exact differs (before.trans absent.symm)

end

def onceSynced : World := (syncAll (sampleEnv "plain" .accepted) {}).2

theorem onceSynced_reachable : Reachable onceSynced :=
  .step (.initial (fun _ => none)) (.operation (sampleEnv "plain" .accepted) .syncAll)

theorem onceSynced_unique : onceSynced.Every SyncState.OneEach := pointers_unique onceSynced_reachable

/-- A guide that was synced and then deleted keeps its pointer in a full sync and loses it in an
incremental one. -/
theorem syncIncremental_drops_deleted : Reachable onceSynced ∧ onceSynced.current.lastKnowledgeCommit = some "c1" ∧
      (laterEnv [] (by simp)).Clean ∧
      ExactDiff (sampleKnowledge "plain" .accepted) (laterKnowledge [] (by simp))
        ((laterKnowledge [] (by simp)).affectedItems "c1") ∧
      (syncAll (laterEnv [] (by simp)) onceSynced).1 = .ok () ∧
      (syncIncremental (laterEnv [] (by simp)) onceSynced).1 = .ok () ∧
      ¬ SameMaps (syncAll (laterEnv [] (by simp)) onceSynced).2.current
        (syncIncremental (laterEnv [] (by simp)) onceSynced).2.current := by
  refine ⟨onceSynced_reachable, by decide +kernel, laterEnv_clean _ _, laterKnowledge_exact (by simp),
    by decide +kernel, by decide +kernel, fun same => ?_⟩
  have pointer := same.pointerMapping "ptr_guide.md"
  revert pointer
  decide +kernel

theorem revised_visited : (laterKnowledge [sampleEntry "revised" .accepted] (by simp)).visited =
    [sampleEntry "revised" .accepted] := by
  simp [Knowledge.visited, laterKnowledge, Knowledge.ofEntries, KnowledgeLayer.walk, sampleEntry]

theorem revised_unhooked : Unhooked (laterKnowledge [sampleEntry "revised" .accepted] (by simp)) s := by
  constructor
  · intro entry member
    rw [revised_visited] at member
    rw [mem_singleton.mp member]
    decide +kernel
  · intro last synced pair member found
    have guide : pair = (KnowledgeLayer.team, "guide.md") := mem_singleton.mp member
    rw [guide]
    decide +kernel

theorem syncIncremental_matches_revised : (laterEnv [sampleEntry "revised" .accepted] (by simp)).Clean ∧
      SameMaps (syncAll (laterEnv [sampleEntry "revised" .accepted] (by simp)) onceSynced).2.current
        (syncIncremental (laterEnv [sampleEntry "revised" .accepted] (by simp)) onceSynced).2.current := by
  refine ⟨laterEnv_clean _ _, ((syncIncremental_matches_iff (laterEnv_clean _ _) (laterEnv_steady _ _)
    onceSynced_reachable (revised_unhooked _)).2.2).mpr ?_⟩
  intro last synced path
  have commit : onceSynced.current.lastKnowledgeCommit = some "c1" := by decide +kernel
  rw [commit] at synced
  cases synced
  by_cases guide : path = "guide.md"
  · subst guide
    rw [revised_visited]
    rfl
  · have untouched : affectedReads (laterKnowledge [sampleEntry "revised" .accepted] (by simp)) "c1" path = [] := by
      simp [affectedReads, laterKnowledge, Knowledge.ofEntries, Ne.symm guide]
    rw [untouched, revised_visited, versions_of_absent (by simpa [sampleEntry] using Ne.symm guide)]
    rfl

end Aeterna.Sync
