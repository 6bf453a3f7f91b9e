import Aeterna.Lib.Runs
import Aeterna.Lib.Table

namespace Aeterna.Operations
open Lib (Table Along Throughout)

structure TenantStorageUsage where
  tenantId : String
  (memoryCount knowledgeCount graphNodeCount totalCount : Nat)

structure TenantQuota where
  (memoryMax knowledgeMax totalMax : Option Nat)

/-- Shares of a limit in `f64`: the quotient, its comparison with 80%, and the percentage. -/
structure UsageShares where
  F : Type
  share : (current max : Nat) → F
  isSoft : F → Bool
  percent : F → F

inductive QuotaCheckResult (F : Type) where
  | ok
  | softLimitWarning (usagePct : F) (entityType : String)
  | hardLimitExceeded (entityType : String) (current max : Nat)

inductive QuotaError where
  | database (reason : String)
  | unknownEntityType (entityType : String)

inductive EntryKind where
  | memory | knowledge
  deriving DecidableEq

namespace EntryKind

def entityType : EntryKind → String
  | memory => "memory"
  | knowledge => "knowledge"

def count (usage : TenantStorageUsage) : EntryKind → Nat
  | memory => usage.memoryCount
  | knowledge => usage.knowledgeCount

def limit (quota : TenantQuota) : EntryKind → Option Nat
  | memory => quota.memoryMax
  | knowledge => quota.knowledgeMax

end EntryKind

section
variable (shares : UsageShares)

def checkLimit (entityType : String) (current : Nat) : Option Nat → Option (QuotaCheckResult shares.F)
  | none => none
  | some max =>
    if max ≤ current then some (.hardLimitExceeded entityType current max)
    else
      let pct := shares.share current max
      if shares.isSoft pct then some (.softLimitWarning (shares.percent pct) entityType) else none

def checkUsage (usage : TenantStorageUsage) (entityType : String) (quota : TenantQuota) :
    Except QuotaError (QuotaCheckResult shares.F) :=
  let check := fun current limit =>
    match checkLimit shares entityType current limit with
    | some result => .ok result
    | none => .ok ((checkLimit shares "total" usage.totalCount quota.totalMax).getD .ok)
  match entityType with
  | "memory" => check usage.memoryCount quota.memoryMax
  | "knowledge" => check usage.knowledgeCount quota.knowledgeMax
  | _ => .error (.unknownEntityType entityType)

end

/-- The tables that are counted, with the tenant of each row, and the queries that fail. -/
structure QuotaDb where
  memoryEntries : Table String String := {}
  knowledgeEntries : Table String String := {}
  graphNodeMetadata : Table String String := {}
  memoryFault : Option String := none
  knowledgeFault : Option String := none
  graphFault : Option String := none

namespace QuotaDb

def rowsOf (tenantId : String) (t : Table String String) : Nat := t.rows.countP (fun e => e.2 = tenantId)

def countOr0 (fault : Option String) (count : Nat) : Nat := if fault.isSome then 0 else count

def queryUsage (db : QuotaDb) (tenantId : String) : Except QuotaError TenantStorageUsage :=
  match db.memoryFault with
  | some e => .error (.database e)
  | none =>
    let mem := rowsOf tenantId db.memoryEntries
    let know := countOr0 db.knowledgeFault (rowsOf tenantId db.knowledgeEntries)
    let graph := countOr0 db.graphFault (rowsOf tenantId db.graphNodeMetadata)
    .ok { tenantId, memoryCount := mem, knowledgeCount := know, graphNodeCount := graph, totalCount := mem + know + graph }

def table (db : QuotaDb) : EntryKind → Table String String
  | .memory => db.memoryEntries
  | .knowledge => db.knowledgeEntries

def mapTable (f : Table String String → Table String String) (db : QuotaDb) : EntryKind → QuotaDb
  | .memory => { db with memoryEntries := f db.memoryEntries }
  | .knowledge => { db with knowledgeEntries := f db.knowledgeEntries }

def total (db : QuotaDb) (tenantId : String) : Nat :=
  rowsOf tenantId db.memoryEntries + rowsOf tenantId db.knowledgeEntries + rowsOf tenantId db.graphNodeMetadata

/-- The queries succeed. -/
structure Exact (db : QuotaDb) : Prop where
  memory : db.memoryFault = none
  knowledge : db.knowledgeFault = none
  graph : db.graphFault = none

end QuotaDb

structure QuotaWorld where
  db : QuotaDb
  cache : String → Option (TenantStorageUsage × Nat) := fun _ => none
  now : Nat := 0

namespace QuotaWorld

def getUsage (cacheTtl : Nat) (tenantId : String) (w : QuotaWorld) :
    Except QuotaError TenantStorageUsage × QuotaWorld :=
  match (w.cache tenantId).filter (fun entry => w.now - entry.2 < cacheTtl) with
  | some (usage, _) => (.ok usage, w)
  | none =>
    match w.db.queryUsage tenantId with
    | .error e => (.error e, w)
    | .ok usage => (.ok usage, { w with cache := fun other => if other = tenantId then some (usage, w.now) else w.cache other })

def invalidate (tenantId : String) (w : QuotaWorld) : QuotaWorld :=
  { w with cache := fun other => if other = tenantId then none else w.cache other }

def checkWriteAllowed (shares : UsageShares) (cacheTtl : Nat) (tenantId entityType : String) (quota : TenantQuota)
    (w : QuotaWorld) : Except QuotaError (QuotaCheckResult shares.F) × QuotaWorld :=
  match w.getUsage cacheTtl tenantId with
  | (.error e, w) => (.error e, w)
  | (.ok usage, w) => (checkUsage shares usage entityType quota, w)

end QuotaWorld

/-- Writes, deletes and what else may happen to the cache. A write of an id that is taken leaves the row with its
tenant. -/
inductive QuotaStep where
  | write (tenantId : String) (kind : EntryKind) (id : String)
  | delete (tenantId : String) (kind : EntryKind) (id : String)
  | getUsage (tenantId : String)
  | invalidate (tenantId : String)
  | wait (time : Nat)

section
variable (shares : UsageShares) (cacheTtl : Nat) (quotas : String → TenantQuota)

def quotaStep (w : QuotaWorld) : QuotaStep → QuotaWorld
  | .write tenantId kind id =>
    match w.checkWriteAllowed shares cacheTtl tenantId kind.entityType (quotas tenantId) with
    | (.error _, w) => w
    | (.ok (.hardLimitExceeded _ _ _), w) => w
    | (.ok _, w) => QuotaWorld.invalidate tenantId { w with db := w.db.mapTable (fun t => t.upsert id tenantId (fun old => old)) kind }
  | .delete tenantId kind id =>
    { w with db := w.db.mapTable (fun t => t.keepOnly (fun key owner => !(key = id && owner = tenantId))) kind }
  | .getUsage tenantId => (w.getUsage cacheTtl tenantId).2
  | .invalidate tenantId => w.invalidate tenantId
  | .wait time => { w with now := w.now + time }

end

namespace QuotaDb
variable {db : QuotaDb} {tenantId : String}

theorem rowsOf_upsert (tenantId : String) (t : Table String String) (id owner : String) :
    rowsOf tenantId (t.upsert id owner (fun old => old)) =
      rowsOf tenantId t + if t.get id = none ∧ owner = tenantId then 1 else 0 := by
  unfold Table.upsert rowsOf
  split
  · rename_i absent
    by_cases own : owner = tenantId <;> simp [Table.insert, absent, own]
  · rename_i present
    simp [Table.update, present]

theorem rowsOf_mapTable (f : Table String String → Table String String) (db : QuotaDb) (kind other : EntryKind) :
    rowsOf tenantId ((db.mapTable f kind).table other) =
      if other = kind then rowsOf tenantId (f (db.table kind)) else rowsOf tenantId (db.table other) := by
  cases kind <;> cases other <;> rfl

theorem total_mapTable (tenantId : String) (f : Table String String → Table String String) (db : QuotaDb)
    (kind : EntryKind) :
    (db.mapTable f kind).total tenantId + rowsOf tenantId (db.table kind) =
      db.total tenantId + rowsOf tenantId (f (db.table kind)) := by
  cases kind <;> simp only [mapTable, total, table] <;> omega

theorem Exact.mapTable (exact : db.Exact) (f : Table String String → Table String String) (kind : EntryKind) :
    (db.mapTable f kind).Exact := by
  cases kind <;> exact ⟨exact.memory, exact.knowledge, exact.graph⟩

structure Covers (db : QuotaDb) (tenantId : String) (usage : TenantStorageUsage) : Prop where
  kinds : ∀ kind, rowsOf tenantId (db.table kind) ≤ kind.count usage
  total : db.total tenantId ≤ usage.totalCount

theorem Exact.queryUsage (exact : db.Exact) (tenantId : String) :
    ∃ usage, db.queryUsage tenantId = .ok usage ∧ db.Covers tenantId usage := by
  unfold QuotaDb.queryUsage
  rw [exact.memory, exact.knowledge, exact.graph]
  refine ⟨_, rfl, fun kind => ?_, Nat.le_refl _⟩
  cases kind <;> exact Nat.le_refl _

structure Within (db : QuotaDb) (quota : TenantQuota) (tenantId : String) : Prop where
  kinds : ∀ kind max, EntryKind.limit quota kind = some max → rowsOf tenantId (db.table kind) ≤ max
  total : ∀ max, quota.totalMax = some max → db.total tenantId ≤ max

theorem Within.of_le {next : QuotaDb} {quota : TenantQuota} (within : db.Within quota tenantId)
    (kinds : ∀ kind, rowsOf tenantId (next.table kind) ≤ rowsOf tenantId (db.table kind))
    (total : next.total tenantId ≤ db.total tenantId) : next.Within quota tenantId where
  kinds kind max limit := Nat.le_trans (kinds kind) (within.kinds kind max limit)
  total max limit := Nat.le_trans total (within.total max limit)

end QuotaDb

section
variable {shares : UsageShares} {quota : TenantQuota} {usage : TenantStorageUsage} {kind : EntryKind}

def NearLimit (shares : UsageShares) (quota : TenantQuota) (usage : TenantStorageUsage) (kind : EntryKind) : Prop :=
  ∃ max, kind.limit quota = some max ∧ kind.count usage < max ∧
    shares.isSoft (shares.share (kind.count usage) max) = true

def Allows : Except QuotaError (QuotaCheckResult shares.F) → Prop
  | .error _ => False
  | .ok (.hardLimitExceeded _ _ _) => False
  | .ok _ => True

theorem checkUsage_allows : Allows (checkUsage shares usage kind.entityType quota) ↔
    (∀ max, kind.limit quota = some max → kind.count usage < max) ∧
      (NearLimit shares quota usage kind ∨ ∀ max, quota.totalMax = some max → usage.totalCount < max) := by
  have shape : checkUsage shares usage kind.entityType quota =
      .ok ((checkLimit shares kind.entityType (kind.count usage) (kind.limit quota)).getD
        ((checkLimit shares "total" usage.totalCount quota.totalMax).getD .ok)) := by
    cases kind
    all_goals
      simp only [checkUsage, EntryKind.entityType, EntryKind.count, EntryKind.limit]
      split <;> rename_i found <;> rw [found] <;> rfl
  have total : Allows (.ok ((checkLimit shares "total" usage.totalCount quota.totalMax).getD .ok)) ↔
      ∀ max, quota.totalMax = some max → usage.totalCount < max := by
    unfold checkLimit
    cases quota.totalMax with
    | none => simp [Allows]
    | some max =>
      by_cases reached : max ≤ usage.totalCount
      · simp [Allows, reached]
      · simp only [reached, if_false, Option.some.injEq, forall_eq']
        refine iff_of_true ?_ (Nat.lt_of_not_le reached)
        cases shares.isSoft (shares.share usage.totalCount max) <;> trivial
  rw [shape]
  unfold NearLimit
  cases limit : kind.limit quota with
  | none => simpa [checkLimit] using total
  | some max =>
    by_cases reached : max ≤ kind.count usage
    · refine iff_of_false ?_ (fun allowed => absurd (allowed.1 max rfl) (Nat.not_lt_of_le reached))
      simp [checkLimit, reached, Allows]
    · have below : kind.count usage < max := Nat.lt_of_not_le reached
      cases soft : shares.isSoft (shares.share (kind.count usage) max) with
      | true => simp [checkLimit, reached, soft, below, Allows]
      | false =>
        simp only [checkLimit, reached, soft, if_false, Option.some.injEq, forall_eq', below, true_and,
          exists_eq_left',
          Bool.false_eq_true, and_false, false_or]
        exact total

end

namespace QuotaWorld

structure Sound (w : QuotaWorld) : Prop where
  exact : w.db.Exact
  cached : ∀ tenantId usage time, w.cache tenantId = some (usage, time) → w.db.Covers tenantId usage

variable {tenantId : String} {w : QuotaWorld} {cacheTtl : Nat}

theorem Sound.getUsage (sound : w.Sound) (cacheTtl : Nat) (tenantId : String) :
    (w.getUsage cacheTtl tenantId).2.Sound ∧ (w.getUsage cacheTtl tenantId).2.db = w.db := by
  unfold QuotaWorld.getUsage
  split
  · exact ⟨sound, rfl⟩
  · obtain ⟨usage, queried, covers⟩ := sound.exact.queryUsage tenantId
    rw [queried]
    refine ⟨⟨sound.exact, fun other cached time found => ?_⟩, rfl⟩
    dsimp only at found
    split at found
    · rename_i same
      cases found
      exact same ▸ covers
    · exact sound.cached other cached time found

theorem Sound.answer (sound : w.Sound) (cacheTtl : Nat) (tenantId : String) :
    ∃ usage, (w.getUsage cacheTtl tenantId).1 = .ok usage ∧ w.db.Covers tenantId usage := by
  unfold QuotaWorld.getUsage
  split
  · rename_i usage time found
    obtain ⟨cached, _⟩ := Option.filter_eq_some_iff.mp found
    exact ⟨usage, rfl, sound.cached tenantId usage time cached⟩
  · obtain ⟨usage, queried, covers⟩ := sound.exact.queryUsage tenantId
    rw [queried]
    exact ⟨usage, rfl, covers⟩

theorem Sound.invalidate (sound : w.Sound) (tenantId : String) : (w.invalidate tenantId).Sound := by
  refine ⟨sound.exact, fun other usage time found => ?_⟩
  dsimp only [QuotaWorld.invalidate] at found
  split at found
  · cases found
  · exact sound.cached other usage time found

theorem Sound.written (sound : w.Sound) (owner : String) (kind : EntryKind) (id : String) :
    (QuotaWorld.invalidate owner { w with
      db := w.db.mapTable (fun t => t.upsert id owner (fun old => old)) kind }).Sound := by
  refine ⟨sound.exact.mapTable _ _, fun other usage time found => ?_⟩
  dsimp only [QuotaWorld.invalidate] at found
  split at found
  · cases found
  · rename_i apart
    have same := QuotaDb.rowsOf_upsert other (w.db.table kind) id owner
    rw [if_neg (fun own => apart own.2.symm), Nat.add_zero] at same
    have sum := QuotaDb.total_mapTable other (fun t => t.upsert id owner (fun old => old)) w.db kind
    obtain ⟨kinds, total⟩ := sound.cached other usage time found
    refine ⟨fun counted => ?_, by dsimp only [QuotaWorld.invalidate]; omega⟩
    dsimp only [QuotaWorld.invalidate]
    rw [QuotaDb.rowsOf_mapTable]
    split
    · rename_i this
      subst this
      exact Nat.le_trans (Nat.le_of_eq same) (kinds counted)
    · exact kinds counted

end QuotaWorld

section
variable {shares : UsageShares} {cacheTtl : Nat} {quotas : String → TenantQuota} {tenantId : String} {w : QuotaWorld}

theorem write_step (shares : UsageShares) (quotas : String → TenantQuota) (w : QuotaWorld) {owner : String}
    {usage : TenantStorageUsage} (answered : (w.getUsage cacheTtl owner).1 = .ok usage) (kind : EntryKind)
    (id : String) :
    (Allows (checkUsage shares usage kind.entityType (quotas owner)) ∧
      quotaStep shares cacheTtl quotas w (.write owner kind id) =
        QuotaWorld.invalidate owner { (w.getUsage cacheTtl owner).2 with
          db := (w.getUsage cacheTtl owner).2.db.mapTable (fun t => t.upsert id owner (fun old => old)) kind }) ∨
    (¬ Allows (checkUsage shares usage kind.entityType (quotas owner)) ∧
      quotaStep shares cacheTtl quotas w (.write owner kind id) = (w.getUsage cacheTtl owner).2) := by
  have checked : w.checkWriteAllowed shares cacheTtl owner kind.entityType (quotas owner) =
      (checkUsage shares usage kind.entityType (quotas owner), (w.getUsage cacheTtl owner).2) := by
    unfold QuotaWorld.checkWriteAllowed
    split
    · rename_i failed
      rw [failed] at answered
      cases answered
    · rename_i found
      rw [found] at answered
      cases answered
      rw [found]
  dsimp only [quotaStep]
  rw [checked]
  cases checkUsage shares usage kind.entityType (quotas owner) with
  | error e => exact .inr ⟨fun allowed => allowed, rfl⟩
  | ok result =>
    cases result with
    | ok => exact .inl ⟨trivial, rfl⟩
    | softLimitWarning usagePct entityType => exact .inl ⟨trivial, rfl⟩
    | hardLimitExceeded entityType current max => exact .inr ⟨fun allowed => allowed, rfl⟩

def MasksTotal (shares : UsageShares) (cacheTtl : Nat) (quota : TenantQuota) (tenantId : String) (w : QuotaWorld) :
    QuotaStep → Prop
  | .write owner kind id => owner = tenantId ∧ (w.db.table kind).get id = none ∧
    (∃ max, quota.totalMax = some max ∧ max ≤ w.db.total tenantId) ∧
    ∃ usage, (w.getUsage cacheTtl tenantId).1 = .ok usage ∧ NearLimit shares quota usage kind
  | _ => False

theorem delete_less (tenantId : String) (db : QuotaDb) (kind : EntryKind) (p : String → String → Bool) :
    (∀ other, QuotaDb.rowsOf tenantId ((db.mapTable (fun t => t.keepOnly p) kind).table other) ≤
      QuotaDb.rowsOf tenantId (db.table other)) ∧
    (db.mapTable (fun t => t.keepOnly p) kind).total tenantId ≤ db.total tenantId := by
  have fewer : QuotaDb.rowsOf tenantId ((db.table kind).keepOnly p) ≤ QuotaDb.rowsOf tenantId (db.table kind) :=
    List.filter_sublist.countP_le
  have sum := QuotaDb.total_mapTable tenantId (fun t => t.keepOnly p) db kind
  refine ⟨fun other => ?_, by omega⟩
  rw [QuotaDb.rowsOf_mapTable]
  split
  · rename_i same
    exact same ▸ fewer
  · exact Nat.le_refl _

theorem QuotaWorld.Sound.next (sound : w.Sound) (step : QuotaStep) :
    (quotaStep shares cacheTtl quotas w step).Sound := by
  cases step with
  | write owner kind id =>
    obtain ⟨usage, answered, _⟩ := sound.answer cacheTtl owner
    obtain ⟨kept, _⟩ := sound.getUsage cacheTtl owner
    rcases write_step shares quotas w answered kind id with ⟨_, after⟩ | ⟨_, after⟩
    · rw [after]
      exact kept.written owner kind id
    · rw [after]
      exact kept
  | delete owner kind id =>
    refine ⟨sound.exact.mapTable _ _, fun other usage time found => ?_⟩
    obtain ⟨kinds, total⟩ := delete_less other w.db kind (fun key holder => !(key = id && holder = owner))
    obtain ⟨covered, all⟩ := sound.cached other usage time found
    exact ⟨fun counted => Nat.le_trans (kinds counted) (covered counted), Nat.le_trans total all⟩
  | getUsage other => exact (sound.getUsage cacheTtl other).1
  | invalidate other => exact sound.invalidate other
  | wait time => exact ⟨sound.exact, sound.cached⟩

theorem written_within_iff (sound : w.Sound) (within : w.db.Within (quotas tenantId) tenantId) {owner : String}
    {usage : TenantStorageUsage} (answered : (w.getUsage cacheTtl owner).1 = .ok usage) {kind : EntryKind}
    (id : String) (allowed : Allows (checkUsage shares usage kind.entityType (quotas owner))) :
    (w.db.mapTable (fun t => t.upsert id owner (fun old => old)) kind).Within (quotas tenantId) tenantId ↔
      ¬ MasksTotal shares cacheTtl (quotas tenantId) tenantId w (.write owner kind id) := by
  have rows := QuotaDb.rowsOf_upsert tenantId (w.db.table kind) id owner
  have sum := QuotaDb.total_mapTable tenantId (fun t => t.upsert id owner (fun old => old)) w.db kind
  by_cases adds : (w.db.table kind).get id = none ∧ owner = tenantId
  · obtain ⟨absent, rfl⟩ := adds
    rw [if_pos ⟨absent, rfl⟩] at rows
    obtain ⟨seen, same, covers⟩ := sound.answer cacheTtl owner
    rw [answered] at same
    cases same
    obtain ⟨below, passed⟩ := checkUsage_allows.mp allowed
    have kinds : ∀ other max, EntryKind.limit (quotas owner) other = some max → QuotaDb.rowsOf owner
        ((w.db.mapTable (fun t => t.upsert id owner (fun old => old)) kind).table other) ≤ max := by
      intro other max limit
      rw [QuotaDb.rowsOf_mapTable]
      split
      · rename_i this
        subst this
        have counted := covers.kinds other
        have room := below max limit
        omega
      · exact within.kinds other max limit
    constructor
    · rintro ⟨_, total⟩ ⟨_, _, ⟨max, limit, reached⟩, _⟩
      have room := total max limit
      omega
    · intro unmasked
      refine ⟨kinds, fun max limit => ?_⟩
      by_contra exceeds
      have reached : max ≤ w.db.total owner := by omega
      refine unmasked ⟨rfl, absent, ⟨max, limit, reached⟩, usage, answered, ?_⟩
      refine passed.resolve_right (fun room => ?_)
      have counted := covers.total
      have free := room max limit
      omega
  · rw [if_neg adds] at rows
    refine iff_of_true (within.of_le (fun other => ?_) (by omega)) (fun masks => adds ⟨masks.2.1, masks.1⟩)
    rw [QuotaDb.rowsOf_mapTable]
    split
    · rename_i this
      subst this
      exact Nat.le_of_eq rows
    · exact Nat.le_refl _

theorem step_within_iff (sound : w.Sound) (within : w.db.Within (quotas tenantId) tenantId) (step : QuotaStep) :
    (quotaStep shares cacheTtl quotas w step).db.Within (quotas tenantId) tenantId ↔
      ¬ MasksTotal shares cacheTtl (quotas tenantId) tenantId w step := by
  cases step with
  | write owner kind id =>
    obtain ⟨usage, answered, covers⟩ := sound.answer cacheTtl owner
    obtain ⟨_, same⟩ := sound.getUsage cacheTtl owner
    rcases write_step shares quotas w answered kind id with ⟨allowed, after⟩ | ⟨refused, after⟩
    · rw [after]
      dsimp only [QuotaWorld.invalidate]
      rw [same]
      exact written_within_iff sound within answered id allowed
    · rw [after, same]
      refine iff_of_true within ?_
      rintro ⟨rfl, _, _, seen, found, near⟩
      rw [answered] at found
      cases found
      refine refused (checkUsage_allows.mpr ⟨fun max limit => ?_, .inl near⟩)
      obtain ⟨bound, limit', below, _⟩ := near
      rw [limit] at limit'
      cases limit'
      exact below
  | delete owner kind id =>
    obtain ⟨kinds, total⟩ := delete_less tenantId w.db kind (fun key holder => !(key = id && holder = owner))
    exact iff_of_true (within.of_le kinds total) (fun masks => masks)
  | getUsage other => exact iff_of_true ((sound.getUsage cacheTtl other).2 ▸ within) id
  | invalidate other => exact iff_of_true within id
  | wait time => exact iff_of_true within id

theorem kind_step (sound : w.Sound) {kind : EntryKind} {max bound : Nat}
    (limit : kind.limit (quotas tenantId) = some max) (most : max ≤ bound)
    (within : QuotaDb.rowsOf tenantId (w.db.table kind) ≤ bound) (step : QuotaStep) :
    QuotaDb.rowsOf tenantId ((quotaStep shares cacheTtl quotas w step).db.table kind) ≤ bound := by
  cases step with
  | write owner written id =>
    obtain ⟨usage, answered, covers⟩ := sound.answer cacheTtl owner
    obtain ⟨_, same⟩ := sound.getUsage cacheTtl owner
    rcases write_step shares quotas w answered written id with ⟨allowed, after⟩ | ⟨_, after⟩
    · rw [after]
      dsimp only [QuotaWorld.invalidate]
      rw [same, QuotaDb.rowsOf_mapTable]
      split
      · rename_i this
        subst this
        have rows := QuotaDb.rowsOf_upsert tenantId (w.db.table kind) id owner
        by_cases own : owner = tenantId
        · subst own
          have room := (checkUsage_allows.mp allowed).1 max limit
          have counted := covers.kinds kind
          split at rows <;> omega
        · rw [if_neg (fun adds => own adds.2)] at rows
          omega
      · exact within
    · rw [after, same]
      exact within
  | delete owner deleted id =>
    have fewer := (delete_less tenantId w.db deleted (fun key holder => !(key = id && holder = owner))).1 kind
    exact Nat.le_trans fewer within
  | getUsage other => exact (sound.getUsage cacheTtl other).2 ▸ within
  | invalidate other => exact within
  | wait time => exact within

theorem kind_kept (sound : w.Sound) {kind : EntryKind} {max bound : Nat}
    (limit : kind.limit (quotas tenantId) = some max) (most : max ≤ bound)
    (within : QuotaDb.rowsOf tenantId (w.db.table kind) ≤ bound) (steps : List QuotaStep) :
    QuotaDb.rowsOf tenantId ((steps.foldl (quotaStep shares cacheTtl quotas) w).db.table kind) ≤ bound := by
  induction steps generalizing w with
  | nil => exact within
  | cons step rest ih => exact ih (sound.next step) (kind_step sound limit most within step)

end

/-- Hard limits hold all along a run of a new enforcer exactly if no write masks the total. -/
theorem hardLimits_kept_iff (shares : UsageShares) (cacheTtl : Nat) (quotas : String → TenantQuota)
    (tenantId : String) (db : QuotaDb) (exact : db.Exact) (within : db.Within (quotas tenantId) tenantId)
    (steps : List QuotaStep) :
    Throughout (fun w step => some (quotaStep shares cacheTtl quotas w step))
        (fun w => w.db.Within (quotas tenantId) tenantId) { db } steps ↔
      Along (fun w step => some (quotaStep shares cacheTtl quotas w step))
        (fun w step => ¬ MasksTotal shares cacheTtl (quotas tenantId) tenantId w step) { db } steps := by
  refine Lib.throughout_iff (J := fun w => w.Sound ∧ w.db.Within (quotas tenantId) tenantId) And.right ?_ ?_
    ⟨⟨exact, fun _ _ _ absent => by cases absent⟩, within⟩ Lib.run_total
  · rintro w step next ⟨sound, within⟩ unmasked made
    cases made
    exact ⟨sound.next step, (step_within_iff sound within step).mpr unmasked⟩
  · rintro w step next ⟨sound, within⟩ made kept
    cases made
    exact (step_within_iff sound within step).mp kept

/-- The limit of one kind holds whatever the warnings: a tenant that is over it gets no further. -/
theorem kind_limit_kept (shares : UsageShares) (cacheTtl : Nat) (quotas : String → TenantQuota) (tenantId : String)
    {db : QuotaDb} (exact : db.Exact) {kind : EntryKind} {limit : Nat}
    (limited : kind.limit (quotas tenantId) = some limit) (steps : List QuotaStep) :
    QuotaDb.rowsOf tenantId ((steps.foldl (quotaStep shares cacheTtl quotas) { db }).db.table kind) ≤
      max limit (QuotaDb.rowsOf tenantId (db.table kind)) :=
  kind_kept ⟨exact, fun _ _ _ absent => by cases absent⟩ limited (Nat.le_max_left ..) (Nat.le_max_right ..) steps

def fractions : UsageShares where
  F := Nat × Nat
  share current max := (current, max)
  isSoft pct := 4 * pct.2 ≤ 5 * pct.1
  percent pct := (100 * pct.1, pct.2)

def fourInAll : TenantQuota where
  memoryMax := some 5
  knowledgeMax := none
  totalMax := some 4

def memoriesOf (ids : List String) (unique : ids.Nodup) : QuotaDb where
  memoryEntries := ⟨ids.map (fun id => (id, "acme")), by rw [List.map_map]; exact (List.map_id ids).symm ▸ unique⟩

def HardLimitsKept (shares : UsageShares) (cacheTtl : Nat) (quotas : String → TenantQuota) (tenantId : String) :
    Prop :=
  ∀ (db : QuotaDb) (steps : List QuotaStep), db.Exact → db.Within (quotas tenantId) tenantId →
    Throughout (fun w step => some (quotaStep shares cacheTtl quotas w step))
      (fun w => w.db.Within (quotas tenantId) tenantId) { db } steps

theorem memoriesOf_within {ids : List String} (unique : ids.Nodup) (few : ids.length ≤ 4) :
    (memoriesOf ids unique).Within fourInAll "acme" := by
  have counted : QuotaDb.rowsOf "acme" (memoriesOf ids unique).memoryEntries = ids.length := by
    simp [QuotaDb.rowsOf, memoriesOf, List.countP_map, Function.comp_def]
  refine ⟨fun kind max limit => ?_, fun max limit => ?_⟩
  · cases kind with
    | memory =>
      cases limit
      exact Nat.le_trans (Nat.le_of_eq counted) (Nat.le_trans few (by decide))
    | knowledge => cases limit
  · cases limit
    exact Nat.le_trans (Nat.le_of_eq counted) few

theorem hardLimits_kept_sample : Throughout (fun w step => some (quotaStep fractions 300 (fun _ => fourInAll) w step))
    (fun w => w.db.Within fourInAll "acme") { db := memoriesOf ["m1", "m2", "m3"] (by decide) }
      [.write "acme" .memory "m4"] := by
  refine (hardLimits_kept_iff fractions 300 (fun _ => fourInAll) "acme" _ ⟨rfl, rfl, rfl⟩
    (memoriesOf_within (by decide) (by decide)) _).mpr ⟨?_, fun _ _ => trivial⟩
  rintro ⟨_, _, ⟨max, limit, reached⟩, _⟩
  cases limit
  exact absurd reached (by decide)

theorem fifth_memory_written : ¬ HardLimitsKept fractions 300 (fun _ => fourInAll) "acme" := by
  intro kept
  have held := kept (memoriesOf ["m1", "m2", "m3", "m4"] (by decide)) [.write "acme" .memory "m5"] ⟨rfl, rfl, rfl⟩
    (memoriesOf_within (by decide) (by decide)) [.write "acme" .memory "m5"] [] _ rfl rfl
  exact absurd (held.total 4 rfl) (by decide)

theorem sixth_memory_refused : QuotaDb.rowsOf "acme" (([.write "acme" .memory "m6"].foldl
    (quotaStep fractions 300 (fun _ => fourInAll))
      { db := memoriesOf ["m1", "m2", "m3", "m4", "m5"] (by decide) }).db.table .memory) ≤ 5 :=
  Nat.le_trans (kind_limit_kept fractions 300 (fun _ => fourInAll) "acme" ⟨rfl, rfl, rfl⟩
    (rfl : EntryKind.memory.limit fourInAll = some 5) _) (by decide +kernel)

end Aeterna.Operations
