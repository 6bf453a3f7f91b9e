import Aeterna.Core.Types
import Aeterna.Lib.KeyedFold
import Aeterna.Lib.Table

namespace Aeterna.Realtime
open Lib (Keyed Table)
open List

inductive ConflictError where
  | noStrategy (conflictType : String)
  | transformFailed (reason : String)
  | unresolvable (reason : String)

inductive ConflictStrategy where
  | operationalTransform | lastWriteWins
  deriving DecidableEq

inductive OperationType where
  | insert | update | delete
  deriving DecidableEq

structure Operation where
  opType : OperationType
  resourceId : String
  field : Option String
  value : Option Json
  clientId : String
  timestamp : Int
  version : Nat

structure ResolutionMetadata where
  mergedFields : HashMap String Json := ∅
  totalOperations : Nat

structure Resolution where
  winningOperation : Operation
  strategy : ConflictStrategy
  resolvedAt : Int
  metadata : ResolutionMetadata

structure Conflict where
  (id resourceId : String)
  operations : List Operation
  detectedAt : Int
  strategyUsed : Option ConflictStrategy := none
  resolved : Bool := false
  resolution : Option Resolution := none

abbrev FieldGroup := Option String × List Operation

/-- The orders in which the hash maps give their bindings: any. -/
structure Iteration where
  patterns : List (String × ConflictStrategy) → List (String × ConflictStrategy)
  groups : List FieldGroup → List FieldGroup
  patternsPerm : ∀ bindings, (patterns bindings).Perm bindings
  groupsPerm : ∀ bindings, (groups bindings).Perm bindings

structure ConflictResolver where
  defaultStrategy : ConflictStrategy
  resourceStrategies : List (String × ConflictStrategy)

def maxByTimestamp (ops : List Operation) : Option Operation :=
  ops.foldl (fun latest op =>
    match latest with
    | none => some op
    | some current => if current.timestamp > op.timestamp then some current else some op) none

def pushField (op : Operation) : List FieldGroup → List FieldGroup
  | [] => [(op.field, [op])]
  | (field, ops) :: rest => if field = op.field then (field, ops ++ [op]) :: rest
      else (field, ops) :: pushField op rest

def fieldOps (ops : List Operation) : List FieldGroup := ops.foldl (fun groups op => pushField op groups) []

structure Merge where
  winningOp : Option Operation := none
  mergedFields : HashMap String Json := ∅

def Merge.step (merge : Merge) (group : FieldGroup) : Merge :=
  match maxByTimestamp group.2 with
  | none => merge
  | some latest =>
    { mergedFields :=
        match group.1, latest.value with
        | some fieldName, some value => merge.mergedFields.insert fieldName value
        | _, _ => merge.mergedFields
      winningOp :=
        match merge.winningOp with
        | some current => if latest.timestamp > current.timestamp then some latest else some current
        | none => some latest }

def resolveOt (hash : Iteration) (now : Int) (ops : List Operation) : Except ConflictError Resolution :=
  let merge := (hash.groups (fieldOps ops)).foldl Merge.step {}
  match merge.winningOp with
  | none => .error (.transformFailed "No operations to transform")
  | some winner => .ok ⟨winner, .operationalTransform, now, ⟨merge.mergedFields, ops.length⟩⟩

def resolveLww (now : Int) (ops : List Operation) : Except ConflictError Resolution :=
  match maxByTimestamp ops with
  | none => .error (.transformFailed "No operations to compare")
  | some winner => .ok ⟨winner, .lastWriteWins, now, ⟨∅, ops.length⟩⟩

namespace ConflictResolver

def new (defaultStrategy : ConflictStrategy) : ConflictResolver := ⟨defaultStrategy, []⟩

def strategyForResource (resolver : ConflictResolver) (hash : Iteration) (resourceId : String) : ConflictStrategy :=
  (((hash.patterns resolver.resourceStrategies).find?
    (fun entry => entry.1.toList.isPrefixOf resourceId.toList)).map Prod.snd).getD
    resolver.defaultStrategy

def resolve (resolver : ConflictResolver) (hash : Iteration) (now : Int) (conflict : Conflict) :
    Except ConflictError Resolution × Conflict :=
  if conflict.operations.length < 2 then
    (.error (.unresolvable "Need at least 2 operations for a conflict"), conflict)
  else
    let strategy := resolver.strategyForResource hash conflict.resourceId
    let chosen := { conflict with strategyUsed := some strategy }
    let result :=
      match strategy with
      | .operationalTransform => resolveOt hash now conflict.operations
      | .lastWriteWins => resolveLww now conflict.operations
    match result with
    | .error error => (.error error, chosen)
    | .ok resolution => (.ok resolution, { chosen with resolved := true, resolution := some resolution })

end ConflictResolver

def Latest (ops : List Operation) (a : Operation) : Prop := a ∈ ops ∧ ∀ op ∈ ops, op.timestamp ≤ a.timestamp

theorem maxByTimestamp_concat (ops : List Operation) (op : Operation) : maxByTimestamp (ops ++ [op]) =
    match maxByTimestamp ops with
    | none => some op
    | some current => if current.timestamp > op.timestamp then some current else some op := by
  unfold maxByTimestamp
  rw [foldl_append]
  rfl

theorem maxByTimestamp_latest {ops : List Operation} (filled : ops ≠ []) : ∃ a, maxByTimestamp ops = some a ∧
    Latest ops a := by
  induction ops using reverseRecOn with
  | nil => exact absurd rfl filled
  | append_singleton front op ih =>
    rw [maxByTimestamp_concat]
    by_cases single : front = []
    · subst single
      exact ⟨op, rfl, mem_cons_self, by simp⟩
    · obtain ⟨a, found, inside, latest⟩ := ih single
      rw [found]
      dsimp only
      split
      · rename_i later
        refine ⟨a, rfl, mem_append_left _ inside, fun other member => ?_⟩
        rcases mem_append.mp member with before | last
        · exact latest other before
        · rw [mem_singleton.mp last]
          omega
      · rename_i earlier
        refine ⟨op, rfl, mem_append_right _ (mem_singleton_self _), fun other member => ?_⟩
        rcases mem_append.mp member with before | last
        · have := latest other before
          omega
        · rw [mem_singleton.mp last]

theorem maxByTimestamp_last {front : List Operation} {a : Operation}
    (latest : ∀ op ∈ front, op.timestamp ≤ a.timestamp) :
    maxByTimestamp (front ++ [a]) = some a := by
  rw [maxByTimestamp_concat]
  by_cases empty : front = []
  · subst empty
    rfl
  · obtain ⟨b, found, inside, _⟩ := maxByTimestamp_latest empty
    have lower := latest b inside
    rw [found]
    dsimp only
    rw [if_neg (by omega)]

def groupOf (groups : List FieldGroup) (field : Option String) : List Operation := (Table.find groups field).getD []

theorem groupOf_pushField (op : Operation) (groups : List FieldGroup) (field : Option String) :
    groupOf (pushField op groups) field = if op.field = field then groupOf groups field ++ [op]
      else groupOf groups field := by
  unfold groupOf
  induction groups with
  | nil =>
    rw [pushField, Table.find_cons]
    split <;> rfl
  | cons group rest ih =>
    obtain ⟨name, ops⟩ := group
    rw [pushField]
    split
    · subst name
      rw [Table.find_cons, Table.find_cons]
      split <;> rfl
    · rename_i other
      rw [Table.find_cons, Table.find_cons]
      by_cases here : name = field
      · subst here
        rw [if_pos rfl, if_neg (Ne.symm other), if_pos rfl]
      · rw [if_neg here, if_neg here, ih]

theorem keys_pushField (op : Operation) (groups : List FieldGroup) : (pushField op groups).map Prod.fst =
    if op.field ∈ groups.map Prod.fst then groups.map Prod.fst else groups.map Prod.fst ++ [op.field] := by
  induction groups with
  | nil => rfl
  | cons group rest ih =>
    obtain ⟨name, ops⟩ := group
    rw [pushField]
    split
    · subst name
      simp
    · rename_i other
      rw [map_cons, ih, map_cons]
      by_cases later : op.field ∈ rest.map Prod.fst
      · rw [if_pos later, if_pos (mem_cons_of_mem _ later)]
      · rw [if_neg later, if_neg (fun member => (mem_cons.mp member).elim (Ne.symm other) later),
          cons_append]

variable {groups : List FieldGroup}

theorem filled_pushField {op : Operation} (filled : ∀ group ∈ groups, group.2 ≠ []) :
    ∀ group ∈ pushField op groups, group.2 ≠ [] := by
  induction groups with
  | nil => simp [pushField]
  | cons group rest ih =>
    obtain ⟨name, ops⟩ := group
    rw [pushField]
    split
    · intro other member
      rcases mem_cons.mp member with rfl | later
      · simp
      · exact filled other (mem_cons_of_mem _ later)
    · intro other member
      rcases mem_cons.mp member with rfl | later
      · exact filled _ mem_cons_self
      · exact ih (fun group inside => filled group (mem_cons_of_mem _ inside)) other later

theorem groupOf_fieldOps (ops : List Operation) (field : Option String) :
    groupOf (fieldOps ops) field = ops.filter (fun op => op.field = field) := by
  have keyed : Keyed (fun _ => True) groupOf Operation.field (fun groups op => pushField op groups)
      (fun group op => group ++ [op]) :=
    ⟨fun groups op _ => by rw [groupOf_pushField, if_pos rfl], fun groups op field _ other =>
      by rw [groupOf_pushField, if_neg (Ne.symm other)]⟩
  have collect : ∀ (front ops : List Operation), ops.foldl (fun group op => group ++ [op]) front = front ++ ops := by
    intro front ops
    induction ops generalizing front with
    | nil => simp
    | cons op rest ih => rw [foldl_cons, ih, append_assoc, singleton_append]
  unfold fieldOps
  rw [keyed.foldl (fun _ _ => trivial), collect]
  rfl

theorem fieldOps_unique (ops : List Operation) : ((fieldOps ops).map Prod.fst).Nodup := by
  unfold fieldOps
  induction ops using reverseRecOn with
  | nil => exact nodup_nil
  | append_singleton front op ih =>
    rw [foldl_append, foldl_cons, foldl_nil, keys_pushField]
    split
    · exact ih
    · rename_i absent
      exact Nodup.append ih (nodup_singleton _) (by simpa using absent)

theorem fieldOps_filled (ops : List Operation) : ∀ group ∈ fieldOps ops, group.2 ≠ [] := by
  unfold fieldOps
  induction ops using reverseRecOn with
  | nil => exact fun _ member => absurd member not_mem_nil
  | append_singleton front op ih =>
    rw [foldl_append, foldl_cons, foldl_nil]
    exact filled_pushField ih

theorem mem_fieldOps {ops : List Operation} {group : FieldGroup} :
    group ∈ fieldOps ops ↔ group.2 = ops.filter (fun op => op.field = group.1) ∧ group.2 ≠ [] := by
  constructor
  · intro member
    refine ⟨?_, fieldOps_filled ops group member⟩
    rw [← groupOf_fieldOps, groupOf, Table.find_of_mem (fieldOps_unique ops) member]
    rfl
  · rintro ⟨same, filled⟩
    rw [← groupOf_fieldOps, groupOf] at same
    have held : (Table.find (fieldOps ops) group.1).isSome := by
      rw [Option.isSome_iff_ne_none]
      intro none
      rw [none] at same
      exact filled same
    obtain ⟨other, member, key⟩ := (Table.find_isSome _ _).mp held
    rw [← key, Table.find_of_mem (fieldOps_unique ops) member] at same
    obtain rfl : other = group := Prod.ext key same.symm
    exact member

theorem mem_of_group {ops : List Operation} {group : FieldGroup} {a : Operation} (member : group ∈ fieldOps ops)
    (found : maxByTimestamp group.2 = some a) : a ∈ ops := by
  obtain ⟨same, filled⟩ := mem_fieldOps.mp member
  obtain ⟨b, latest, here, _⟩ := maxByTimestamp_latest filled
  obtain rfl := Option.some.inj (latest.symm.trans found)
  rw [same] at here
  exact mem_of_mem_filter here

theorem winner_foldl (some : groups ≠ []) (filled : ∀ group ∈ groups, group.2 ≠ []) :
    ∃ w, (groups.foldl Merge.step {}).winningOp = .some w ∧ (∃ group ∈ groups, maxByTimestamp group.2 = .some w) ∧
      ∀ group ∈ groups, ∀ a, maxByTimestamp group.2 = .some a → a.timestamp ≤ w.timestamp := by
  induction groups using reverseRecOn with
  | nil => exact absurd rfl some
  | append_singleton front group ih =>
    obtain ⟨a, latest, _⟩ := maxByTimestamp_latest
        (filled group (mem_append_right _ (mem_singleton_self _)))
    rw [foldl_append, foldl_cons, foldl_nil, Merge.step, latest]
    dsimp only
    by_cases single : front = []
    · subst single
      refine ⟨a, rfl, ⟨group, mem_cons_self, latest⟩, fun other member b found => ?_⟩
      obtain rfl : other = group := by simpa using member
      rw [latest] at found
      rw [Option.some.inj found]
    · obtain ⟨w, winning, ⟨owner, inside, wins⟩, above⟩ :=
          ih single (fun group member => filled group (mem_append_left _ member))
      rw [winning]
      dsimp only
      split
      · rename_i later
        refine ⟨a, rfl, ⟨group, mem_append_right _ (mem_singleton_self _), latest⟩,
          fun other member b found => ?_⟩
        rcases mem_append.mp member with before | last
        · have := above other before b found
          omega
        · rw [mem_singleton.mp last, latest] at found
          rw [Option.some.inj found]
      · rename_i earlier
        refine ⟨w, rfl, ⟨owner, mem_append_left _ inside, wins⟩, fun other member b found => ?_⟩
        rcases mem_append.mp member with before | last
        · exact above other before b found
        · rw [mem_singleton.mp last, latest] at found
          rw [← Option.some.inj found]
          omega

def fieldValue (ops : List Operation) (name : String) : Option Json :=
  (maxByTimestamp (ops.filter (fun op => op.field = some name))).bind Operation.value

theorem lookup_step (merge : Merge) (group : FieldGroup) (name : String) :
    (merge.step group).mergedFields.lookup name =
    if group.1 = some name then ((maxByTimestamp group.2).bind Operation.value).or (merge.mergedFields.lookup name)
    else merge.mergedFields.lookup name := by
  unfold Merge.step
  by_cases here : group.1 = some name
  · rw [if_pos here]
    cases latest : maxByTimestamp group.2 with
    | none => rfl
    | some a => cases held : a.value <;> simp [here, held]
  · rw [if_neg here]
    cases latest : maxByTimestamp group.2 with
    | none => rfl
    | some a =>
      cases field : group.1 with
      | none => rfl
      | some fieldName =>
        have other : name ≠ fieldName := fun same => here (by rw [field, same])
        cases held : a.value <;> simp [held, AList.lookup_insert_ne other]

theorem lookup_foldl (unique : (groups.map Prod.fst).Nodup) (merge : Merge) (name : String) :
    (groups.foldl Merge.step merge).mergedFields.lookup name =
      (((Table.find groups (some name)).bind maxByTimestamp).bind Operation.value).or
        (merge.mergedFields.lookup name) := by
  induction groups generalizing merge with
  | nil => rfl
  | cons group rest ih =>
    obtain ⟨fresh, unique⟩ := nodup_cons.mp unique
    rw [foldl_cons, ih unique, lookup_step, Table.find_cons]
    by_cases here : group.1 = some name
    · have absent : Table.find rest (some name) = none := by
        cases found : Table.find rest (some name) with
        | none => rfl
        | some ops =>
          obtain ⟨other, member, key⟩ := (Table.find_isSome rest (some name)).mp (by rw [found]; rfl)
          exact absurd (mem_map.mpr ⟨other, member, key.trans here.symm⟩) fresh
      rw [if_pos here, if_pos here, absent]
      rfl
    · rw [if_neg here, if_neg here]

theorem resolveOt_ok (hash : Iteration) (now : Int) {ops : List Operation} (filled : ops ≠ []) :
    ∃ resolution, resolveOt hash now ops = .ok resolution ∧ Latest ops resolution.winningOperation ∧
      ∀ name, resolution.metadata.mergedFields.lookup name = fieldValue ops name := by
  have order := hash.groupsPerm (fieldOps ops)
  have own : ∀ op ∈ ops, (op.field, ops.filter (fun other => other.field = op.field)) ∈ hash.groups
      (fieldOps ops) := by
    intro op member
    have inside : op ∈ ops.filter (fun other => other.field = op.field) :=
      mem_filter.mpr ⟨member, decide_eq_true rfl⟩
    exact order.mem_iff.mpr (mem_fieldOps.mpr ⟨rfl, ne_nil_of_mem inside⟩)
  have groups : hash.groups (fieldOps ops) ≠ [] := by
    obtain ⟨op, rest, rfl⟩ := exists_cons_of_ne_nil filled
    exact ne_nil_of_mem (own op mem_cons_self)
  obtain ⟨w, winning, ⟨owner, inside, wins⟩, above⟩ :=
    winner_foldl groups (fun group member => fieldOps_filled ops group (order.mem_iff.mp member))
  unfold resolveOt
  dsimp only
  rw [winning]
  refine ⟨_, rfl, ⟨?_, fun op member => ?_⟩, fun name => ?_⟩
  · exact mem_of_group (order.mem_iff.mp inside) wins
  · have here : op ∈ ops.filter (fun other => other.field = op.field) :=
      mem_filter.mpr ⟨member, decide_eq_true rfl⟩
    obtain ⟨a, found, _, latest⟩ := maxByTimestamp_latest (ne_nil_of_mem here)
    exact Int.le_trans (latest op here) (above _ (own op member) a found)
  · have unique : ((hash.groups (fieldOps ops)).map Prod.fst).Nodup :=
      (order.map Prod.fst).nodup_iff.mpr (fieldOps_unique ops)
    dsimp only
    rw [lookup_foldl unique, fieldValue]
    cases found : Table.find (hash.groups (fieldOps ops)) (some name) with
    | none =>
      have empty : ops.filter (fun op => op.field = some name) = [] := by
        rw [filter_eq_nil_iff]
        intro op member named
        have held := (Table.find_isSome (hash.groups (fieldOps ops)) (some name)).mpr
            ⟨_, own op member, of_decide_eq_true named⟩
        rw [found] at held
        cases held
      rw [empty]
      rfl
    | some group =>
      obtain ⟨other, member, key⟩ := (Table.find_isSome _ _).mp (by rw [found]; rfl)
      have held := Table.find_of_mem unique member
      rw [key, found] at held
      obtain rfl := Option.some.inj held
      have same := (mem_fieldOps.mp (order.mem_iff.mp member)).1
      rw [same, key]
      exact Option.or_none

theorem resolveLww_ok (now : Int) {ops : List Operation} (filled : ops ≠ []) : ∃ resolution,
    resolveLww now ops = .ok resolution ∧
    maxByTimestamp ops = some resolution.winningOperation ∧ resolution.metadata.mergedFields = ∅ := by
  obtain ⟨a, found, _⟩ := maxByTimestamp_latest filled
  unfold resolveLww
  rw [found]
  exact ⟨_, rfl, rfl, rfl⟩

def SameOutcome : Except ConflictError Resolution → Except ConflictError Resolution → Prop
  | .ok a, .ok b => a.winningOperation = b.winningOperation ∧
      ∀ name, a.metadata.mergedFields.lookup name = b.metadata.mergedFields.lookup name
  | .error _, .error _ => True
  | _, _ => False

def Converges (strategy : ConflictStrategy) (ops : List Operation) : Prop :=
  ∀ (conflict : Conflict) (hash hash' : Iteration) (now now' : Int) (order order' : List Operation), order.Perm ops →
    order'.Perm ops →
    SameOutcome ((ConflictResolver.new strategy).resolve hash now { conflict with operations := order }).1
      ((ConflictResolver.new strategy).resolve hash' now' { conflict with operations := order' }).1

/-- No tie that matters: only one operation is the latest of all, and of the latest in a field all give the
same value, where fields are merged. -/
structure Untied (strategy : ConflictStrategy) (ops : List Operation) : Prop where
  latest : ∀ a b, Latest ops a → Latest ops b → a = b
  fields : strategy = .operationalTransform → ∀ (name : String) (a b : Operation),
    Latest (ops.filter (fun op => op.field = some name)) a → Latest (ops.filter (fun op => op.field = some name)) b →
      a.value = b.value

section
variable {ops order : List Operation} {strategy : ConflictStrategy}

variable {a : Operation}

theorem Latest.perm (latest : Latest order a) (permuted : order.Perm ops) : Latest ops a :=
  ⟨permuted.mem_iff.mp latest.1, fun op member => latest.2 op (permuted.mem_iff.mpr member)⟩

theorem exists_last (member : a ∈ ops) : ∃ front, (front ++ [a]).Perm ops := by
  obtain ⟨front, back, rfl⟩ := append_of_mem member
  refine ⟨front ++ back, ?_⟩
  rw [append_assoc]
  exact Perm.append_left front (perm_append_singleton a back)

theorem resolve_new (strategy : ConflictStrategy) (hash : Iteration) (now : Int) (conflict : Conflict)
    (some : 2 ≤ conflict.operations.length) :
    ((ConflictResolver.new strategy).resolve hash now conflict).1 =
      match strategy with
      | .operationalTransform => resolveOt hash now conflict.operations
      | .lastWriteWins => resolveLww now conflict.operations := by
  have chosen : (ConflictResolver.new strategy).strategyForResource hash conflict.resourceId = strategy := by
    unfold ConflictResolver.strategyForResource
    rw [show (ConflictResolver.new strategy).resourceStrategies = [] from rfl, (hash.patternsPerm []).eq_nil]
    rfl
  unfold ConflictResolver.resolve
  rw [if_neg (Nat.not_lt.mpr some), chosen]
  dsimp only
  split <;> simp only [*]

theorem fieldValue_perm {name : String} (permuted : order.Perm ops)
    (fields : ∀ a b, Latest (ops.filter (fun op => op.field = some name)) a →
      Latest (ops.filter (fun op => op.field = some name)) b → a.value = b.value) :
    fieldValue order name = fieldValue ops name := by
  unfold fieldValue
  have same := permuted.filter (fun op => op.field = some name)
  by_cases empty : ops.filter (fun op => op.field = some name) = []
  · rw [empty] at same
    rw [same.eq_nil, empty]
  · have filled : order.filter (fun op => op.field = some name) ≠ [] := fun none => empty (none ▸ same).symm.eq_nil
    obtain ⟨a, found, first⟩ := maxByTimestamp_latest filled
    obtain ⟨b, found', second⟩ := maxByTimestamp_latest empty
    rw [found, found']
    exact fields a b (first.perm same) second

theorem resolve_few (hash : Iteration) (now : Int) (conflict : Conflict) (few : conflict.operations.length < 2) :
    ((ConflictResolver.new strategy).resolve hash now conflict).1 = .error
      (.unresolvable "Need at least 2 operations for a conflict") := by
  unfold ConflictResolver.resolve
  rw [if_pos few]

theorem resolve_ok (strategy : ConflictStrategy) (hash : Iteration) (now : Int) (conflict : Conflict)
    (some : 2 ≤ conflict.operations.length) :
    ∃ resolution, ((ConflictResolver.new strategy).resolve hash now conflict).1 = .ok resolution ∧
      Latest conflict.operations resolution.winningOperation ∧
      ∀ name, resolution.metadata.mergedFields.lookup name =
        if strategy = .operationalTransform then fieldValue conflict.operations name else none := by
  have filled : conflict.operations ≠ [] := ne_nil_of_length_pos (by omega)
  rw [resolve_new strategy hash now conflict some]
  cases strategy with
  | operationalTransform => exact resolveOt_ok hash now filled
  | lastWriteWins =>
    obtain ⟨resolution, answered, won, empty⟩ := resolveLww_ok now filled
    obtain ⟨a, found, latest⟩ := maxByTimestamp_latest filled
    obtain rfl := Option.some.inj (won.symm.trans found)
    exact ⟨resolution, answered, latest, fun name => by rw [empty]; rfl⟩

theorem Untied.converges (untied : Untied strategy ops) : Converges strategy ops := by
  intro conflict hash hash' now now' order order' permuted permuted'
  by_cases few : ops.length < 2
  · rw [resolve_few hash now _ (by rwa [permuted.length_eq]), resolve_few hash' now' _ (by rwa [permuted'.length_eq])]
    trivial
  · obtain ⟨first, answered, latest, merged⟩ := resolve_ok strategy hash now { conflict with operations := order }
      (by rw [permuted.length_eq]; omega)
    obtain ⟨second, answered', latest', merged'⟩ :=
        resolve_ok strategy hash' now' { conflict with operations := order' }
      (by rw [permuted'.length_eq]; omega)
    rw [answered, answered']
    refine ⟨untied.latest _ _ (latest.perm permuted) (latest'.perm permuted'), fun name => ?_⟩
    rw [merged, merged']
    split
    · rename_i merging
      rw [fieldValue_perm permuted (untied.fields merging name),
        fieldValue_perm permuted' (untied.fields merging name)]
    · rfl

def sampleConflict : Conflict := { id := "c1", resourceId := "mem-1", operations := [], detectedAt := 0 }

def fieldFirst (field : Option String) : Iteration where
  patterns bindings := bindings
  groups bindings := bindings.filter (fun group => group.1 = field) ++
    bindings.filter (fun group => !decide (group.1 = field))
  patternsPerm bindings := List.Perm.refl bindings
  groupsPerm bindings := filter_append_perm (fun group => group.1 = field) bindings

theorem filter_last {p : Operation → Bool} (front : List Operation) (holds : p a = true) :
    (front ++ [a]).filter p = front.filter p ++ [a] := by
  rw [filter_append, filter_cons_of_pos holds, filter_nil]

theorem winner_kept {groups : List FieldGroup} {merge : Merge} (winning : merge.winningOp = some a)
    (below : ∀ group ∈ groups, ∀ b, maxByTimestamp group.2 = some b → b.timestamp ≤ a.timestamp) :
    (groups.foldl Merge.step merge).winningOp = some a := by
  induction groups generalizing merge with
  | nil => exact winning
  | cons group rest ih =>
    apply ih _ (fun other later => below other (mem_cons_of_mem _ later))
    unfold Merge.step
    cases found : maxByTimestamp group.2 with
    | none => exact winning
    | some b =>
      have lower := below group mem_cons_self b found
      dsimp only
      rw [winning]
      dsimp only
      rw [if_neg (by omega)]

theorem Latest.wins (latest : Latest ops a) (some : 2 ≤ ops.length)
    (strategy : ConflictStrategy) (conflict : Conflict) :
    ∃ hash order resolution, order.Perm ops ∧
      ((ConflictResolver.new strategy).resolve hash 0 { conflict with operations := order }).1 = .ok resolution ∧
      resolution.winningOperation = a := by
  obtain ⟨front, permuted⟩ := exists_last latest.1
  have before : ∀ op ∈ front, op.timestamp ≤ a.timestamp :=
    fun op member => latest.2 op (permuted.mem_iff.mp (mem_append_left _ member))
  obtain ⟨resolution, answered, _⟩ :=
      resolve_ok strategy (fieldFirst a.field) 0 { conflict with operations := front ++ [a] }
    (by rw [permuted.length_eq]; exact some)
  refine ⟨fieldFirst a.field, front ++ [a], resolution, permuted, answered, ?_⟩
  rw [resolve_new strategy _ _ _ (by rw [permuted.length_eq]; exact some)] at answered
  cases strategy with
  | operationalTransform =>
    have own : ((fieldOps (front ++ [a])).filter (fun group => group.1 = a.field)) ≠ [] := by
      apply ne_nil_of_mem (a := (a.field, (front ++ [a]).filter (fun op => op.field = a.field)))
      rw [mem_filter, mem_fieldOps]
      exact ⟨⟨rfl, by simp⟩, decide_eq_true rfl⟩
    obtain ⟨group, others, split⟩ := exists_cons_of_ne_nil own
    obtain ⟨member, key⟩ := mem_filter.mp
        (split ▸ mem_cons_self : group ∈ (fieldOps (front ++ [a])).filter (fun group => group.1 = a.field))
    have held : maxByTimestamp group.2 = .some a := by
      rw [(mem_fieldOps.mp member).1, of_decide_eq_true key, filter_last front (decide_eq_true rfl)]
      exact maxByTimestamp_last (fun op inside => before op (mem_of_mem_filter inside))
    have winning : (((fieldFirst a.field).groups (fieldOps (front ++ [a]))).foldl Merge.step {}).winningOp =
        .some a := by
      show ((_ ++ _ : List FieldGroup).foldl Merge.step {}).winningOp = _
      rw [split, cons_append, foldl_cons]
      apply winner_kept
      · unfold Merge.step
        rw [held]
      · intro other inside b found
        have among : other ∈ fieldOps (front ++ [a]) := by
          apply ((fieldFirst a.field).groupsPerm _).mem_iff.mp
          show other ∈ (_ ++ _ : List FieldGroup)
          rw [split]
          exact mem_cons_of_mem _ inside
        exact latest.2 b (permuted.mem_iff.mp (mem_of_group among found))
    dsimp only [resolveOt] at answered
    rw [winning] at answered
    exact (congrArg Resolution.winningOperation (Except.ok.inj answered)).symm
  | lastWriteWins =>
    dsimp only [resolveLww] at answered
    rw [maxByTimestamp_last before] at answered
    exact (congrArg Resolution.winningOperation (Except.ok.inj answered)).symm

theorem Latest.gives {name : String} (latest : Latest (ops.filter (fun op => op.field = some name)) a) :
    ∃ order : List Operation, order.Perm ops ∧ fieldValue order name = a.value := by
  obtain ⟨member, named⟩ := mem_filter.mp latest.1
  obtain ⟨front, permuted⟩ := exists_last member
  refine ⟨front ++ [a], permuted, ?_⟩
  unfold fieldValue
  rw [filter_last front named, maxByTimestamp_last]
  · rfl
  · intro op inside
    obtain ⟨before, here⟩ := mem_filter.mp inside
    exact latest.2 op (mem_filter.mpr ⟨permuted.mem_iff.mp (mem_append_left _ before), here⟩)

theorem untied_of_converges (converges : Converges strategy ops) : Untied strategy ops := by
  by_cases few : ops.length < 2
  · -- one operation is not tied with another
    have single : ∀ a ∈ ops, ∀ b ∈ ops, a = b := by
      intro a inA b inB
      match ops, few with
      | [], _ => exact absurd inA not_mem_nil
      | [c], _ => rw [mem_singleton.mp inA, mem_singleton.mp inB]
    constructor
    · intro a b first second
      exact single a first.1 b second.1
    · intro _ name a b first second
      rw [single a (mem_of_mem_filter first.1) b (mem_of_mem_filter second.1)]
  · have some := Nat.le_of_not_lt few
    constructor
    · intro a b first second
      obtain ⟨hash, order, resolution, permuted, answered, won⟩ := first.wins some strategy sampleConflict
      obtain ⟨hash', order', resolution', permuted', answered', won'⟩ := second.wins some strategy sampleConflict
      have same := converges sampleConflict hash hash' 0 0 order order' permuted permuted'
      rw [answered, answered'] at same
      rw [← won, ← won']
      exact same.1
    · intro merging name a b first second
      obtain ⟨order, permuted, value⟩ := first.gives
      obtain ⟨order', permuted', value'⟩ := second.gives
      obtain ⟨resolution, answered, _, merged⟩ :=
          resolve_ok strategy (fieldFirst none) 0 { sampleConflict with operations := order }
        (by rw [permuted.length_eq]; exact some)
      obtain ⟨resolution', answered', _, merged'⟩ :=
          resolve_ok strategy (fieldFirst none) 0 { sampleConflict with operations := order' }
        (by rw [permuted'.length_eq]; exact some)
      have same := converges sampleConflict (fieldFirst none) (fieldFirst none) 0 0 order order' permuted permuted'
      rw [answered, answered'] at same
      have equal := same.2 name
      rw [merged, merged', if_pos merging, if_pos merging, value, value'] at equal
      exact equal

end

/-- The outcome of a conflict does not depend on the order exactly if no tie matters. -/
theorem resolutions_converge_iff (strategy : ConflictStrategy) (ops : List Operation) : Converges strategy ops ↔
    Untied strategy ops :=
  ⟨untied_of_converges, Untied.converges⟩

def sampleWrite (clientId : String) : Operation :=
  ⟨.update, "mem-1", some "content", some (.str clientId), clientId, 0, 1⟩

theorem tied_diverges : ¬ ∀ (strategy : ConflictStrategy) (ops : List Operation), Converges strategy ops := by
  intro converges
  have same := converges .lastWriteWins [sampleWrite "client-a", sampleWrite "client-b"] sampleConflict
      (fieldFirst none) (fieldFirst none) 0 0
    _ _ (List.Perm.refl _) (Perm.swap _ _ [])
  have clients := congrArg Operation.clientId same.1
  exact absurd clients (by decide)

end Aeterna.Realtime
