import Aeterna.Lib.Effect
import Mathlib.Data.Finset.Card

/-!
Cedar authorization: entities with their attributes and parents, conditions that may err, and the decision over a list
of permits and forbids.
-/

namespace Aeterna.Lib
open Relation

section Paths
variable {α : Type}

variable {a b : α} {parents : α → List α} {steps : Nat}

theorem last_departure {r : α → α → Prop} (node : α) (path : ReflTransGen r a b) :
    ReflTransGen (fun x y => r x y ∧ x ≠ node) a b ∨
      ∃ next, r node next ∧ ReflTransGen (fun x y => r x y ∧ x ≠ node) next b := by
  induction path using ReflTransGen.head_induction_on with
  | refl => exact Or.inl .refl
  | @head a next first _ ih =>
    rcases ih with rest | departs
    · by_cases leaves : a = node
      · subst leaves
        exact Or.inr ⟨next, first, rest⟩
      · exact Or.inl (.head ⟨first, leaves⟩ rest)
    · exact Or.inr departs

/-- The nodes above one, along at most so many parents. -/
def above (parents : α → List α) : Nat → α → List α
  | 0, _ => []
  | steps + 1, node => parents node ++ (parents node).flatMap (above parents steps)

theorem mem_above_succ :
    b ∈ above parents (steps + 1) a ↔ ∃ next ∈ parents a, next = b ∨ b ∈ above parents steps next := by
  simp only [above, List.mem_append, List.mem_flatMap]
  constructor
  · rintro (direct | ⟨next, parent, rest⟩)
    · exact ⟨b, direct, Or.inl rfl⟩
    · exact ⟨next, parent, Or.inr rest⟩
  · rintro ⟨next, parent, rfl | rest⟩
    · exact Or.inl parent
    · exact Or.inr ⟨next, parent, rest⟩

theorem above_path (found : b ∈ above parents steps a) : TransGen (fun x y => y ∈ parents x) a b := by
  induction steps generalizing a with
  | zero => simp [above] at found
  | succ steps ih =>
    obtain ⟨next, parent, rfl | rest⟩ := mem_above_succ.mp found
    · exact .single parent
    · exact .head parent (ih rest)

theorem above_mono {fewer : α → List α} (sub : ∀ x y, y ∈ fewer x → y ∈ parents x)
    (found : b ∈ above fewer steps a) : b ∈ above parents steps a := by
  induction steps generalizing a with
  | zero => simp [above] at found
  | succ steps ih =>
    obtain ⟨next, parent, rest⟩ := mem_above_succ.mp found
    exact mem_above_succ.mpr ⟨next, sub a next parent, rest.imp_right ih⟩

theorem path_above [DecidableEq α] (steps : Nat) : ∀ (parents : α → List α) (sources : Finset α),
    sources.card ≤ steps → (∀ x y, y ∈ parents x → x ∈ sources) → ∀ {a b : α},
      TransGen (fun x y => y ∈ parents x) a b → b ∈ above parents steps a := by
  induction steps with
  | zero =>
    intro parents sources few covers a b path
    obtain ⟨next, first, -⟩ := TransGen.head'_iff.mp path
    have source := covers a next first
    rw [Finset.card_eq_zero.mp (Nat.le_zero.mp few)] at source
    exact absurd source (Finset.notMem_empty a)
  | succ steps ih =>
    intro parents sources few covers a b path
    obtain ⟨next, first, rest⟩ := TransGen.head'_iff.mp path
    have source := covers a next first
    -- behind the last departure from `a` only the parents of other nodes are used
    let others : α → List α := fun x => if x = a then [] else parents x
    have kept : ∀ x y, y ∈ others x ↔ y ∈ parents x ∧ x ≠ a := by
      intro x y
      by_cases same : x = a
      · simp [others, same]
      · simp [others, same]
    have fewer : (sources.erase a).card ≤ steps := by
      rw [Finset.card_erase_of_mem source]
      omega
    have covers' : ∀ x y, y ∈ others x → x ∈ sources.erase a := by
      intro x y parent
      obtain ⟨parent, differs⟩ := (kept x y).mp parent
      exact Finset.mem_erase.mpr ⟨differs, covers x y parent⟩
    have short : ∀ start, ReflTransGen (fun x y => y ∈ parents x ∧ x ≠ a) start b →
        start = b ∨ b ∈ above parents steps start := by
      intro start tail
      rcases reflTransGen_iff_eq_or_transGen.mp
        (ReflTransGen.mono (fun x y => (kept x y).mpr) _ _ tail) with same | further
      · exact Or.inl same.symm
      · exact Or.inr (above_mono (fun x y parent => ((kept x y).mp parent).1)
          (ih others (sources.erase a) fewer covers' further))
    rcases last_departure a rest with tail | ⟨departure, parent, tail⟩
    · exact mem_above_succ.mpr ⟨next, first, short next tail⟩
    · exact mem_above_succ.mpr ⟨departure, parent, short departure tail⟩

end Paths

namespace Cedar

structure EntityUid where
  (entityType id : String)
  deriving DecidableEq, Repr

inductive Prim where
  | bool (value : Bool)
  | long (value : Int)
  | string (value : String)
  | entity (uid : EntityUid)
  deriving DecidableEq

inductive Value where
  | prim (value : Prim)
  | set (elements : Finset Prim)
  | record (fields : List (String × Prim))
  deriving DecidableEq

structure Entity where
  uid : EntityUid
  attrs : List (String × Value) := []
  parents : List EntityUid := []

def lookup (entities : List Entity) (uid : EntityUid) : Option Entity :=
  entities.find? (fun entity => entity.uid = uid)

def parentsOf (entities : List Entity) (uid : EntityUid) : List EntityUid :=
  match lookup entities uid with
  | some entity => entity.parents
  | none => []

def ancestors (entities : List Entity) (uid : EntityUid) : List EntityUid :=
  above (parentsOf entities) entities.length uid

def isIn (entities : List Entity) (uid group : EntityUid) : Bool := uid = group ∨ group ∈ ancestors entities uid

variable {uid group : EntityUid}

theorem lookup_none {entities : List Entity} (absent : ∀ entity ∈ entities, entity.uid ≠ uid) :
    lookup entities uid = none := by
  rw [lookup, List.find?_eq_none]
  intro entity held
  simpa using absent entity held

theorem lookup_append (entities more : List Entity) (uid : EntityUid) :
    lookup (entities ++ more) uid = (lookup entities uid).or (lookup more uid) := List.find?_append

theorem mem_parentsOf {entities : List Entity} (parent : group ∈ parentsOf entities uid) :
    ∃ entity ∈ entities, entity.uid = uid ∧ group ∈ entity.parents := by
  unfold parentsOf at parent
  split at parent
  · rename_i entity found
    exact ⟨entity, List.mem_of_find?_eq_some found, by simpa using List.find?_some found, parent⟩
  · cases parent

theorem lookup_of_mem {entities : List Entity} {entity : Entity} (distinct : (entities.map (·.uid)).Nodup)
    (held : entity ∈ entities) : lookup entities entity.uid = some entity := by
  induction entities with
  | nil => cases held
  | cons first rest ih =>
    obtain ⟨fresh, distinct⟩ := List.nodup_cons.mp distinct
    rcases List.mem_cons.mp held with rfl | held
    · simp [lookup]
    · have differs : first.uid ≠ entity.uid := fun same => fresh (List.mem_map.mpr ⟨entity, held, same.symm⟩)
      simpa [lookup, differs] using ih distinct held

theorem published_of_parent {entities : List Entity} (parent : group ∈ parentsOf entities uid) :
    uid ∈ entities.map (·.uid) := by
  obtain ⟨entity, held, same, -⟩ := mem_parentsOf parent
  exact List.mem_map.mpr ⟨entity, held, same⟩

theorem mem_ancestors {entities : List Entity} :
    group ∈ ancestors entities uid ↔ TransGen (fun x y => y ∈ parentsOf entities x) uid group := by
  refine ⟨above_path, path_above _ _ (entities.map (·.uid)).toFinset ?_ ?_⟩
  · simpa using List.toFinset_card_le (entities.map (·.uid))
  · intro x y parent
    exact List.mem_toFinset.mpr (published_of_parent parent)

theorem isIn_iff {entities : List Entity} :
    isIn entities uid group ↔ ReflTransGen (fun x y => y ∈ parentsOf entities x) uid group := by
  rw [reflTransGen_iff_eq_or_transGen, ← mem_ancestors, isIn, decide_eq_true_iff]
  exact or_congr_left eq_comm

theorem isIn_step {entities : List Entity} :
    isIn entities uid group ↔ uid = group ∨ ∃ parent ∈ parentsOf entities uid, isIn entities parent group := by
  simp only [isIn_iff]
  exact ReflTransGen.cases_head_iff

structure Store where
  entities : List Entity
  distinct : (entities.map (·.uid)).Nodup
  acyclic : ∀ entity ∈ entities, entity.uid ∉ ancestors entities entity.uid

def Store.load (entities : List Entity) : Option Store :=
  if accepted : (entities.map (·.uid)).Nodup ∧ ∀ entity ∈ entities, entity.uid ∉ ancestors entities entity.uid then
    some ⟨entities, accepted.1, accepted.2⟩
  else none

theorem Store.load_entities {entities : List Entity} {store : Store} (loaded : load entities = some store) :
    store.entities = entities := by
  unfold load at loaded
  split at loaded
  · cases loaded
    rfl
  · cases loaded

theorem Store.load_ranked {entities : List Entity} (rank : EntityUid → Nat) (distinct : (entities.map (·.uid)).Nodup)
    (descends : ∀ entity ∈ entities, ∀ group ∈ entity.parents, rank group < rank entity.uid) :
    ∃ store, load entities = some store := by
  have down : ∀ uid group, group ∈ parentsOf entities uid → rank group < rank uid := by
    intro uid group parent
    obtain ⟨entity, held, rfl, above⟩ := mem_parentsOf parent
    exact descends entity held group above
  have lower : ∀ uid group, group ∈ ancestors entities uid → rank group < rank uid := by
    intro uid group above
    induction mem_ancestors.mp above with
    | single parent => exact down _ _ parent
    | tail _ parent ih => exact (down _ _ parent).trans (ih (mem_ancestors.mpr ‹_›))
  exact ⟨⟨entities, distinct, fun entity _ own => (lower _ _ own).false⟩,
    dif_pos ⟨distinct, fun entity _ own => (lower _ _ own).false⟩⟩

inductive Var where
  | principal | action | resource

structure Request where
  (principal action resource : EntityUid)

def Request.get (request : Request) : Var → EntityUid
  | .principal => request.principal
  | .action => request.action
  | .resource => request.resource

inductive Expr where
  | lit (value : Prim)
  | var (var : Var)
  | and (left right : Expr)
  | not (inner : Expr)
  | eq (left right : Expr)
  | less (left right : Expr)
  | lessEq (left right : Expr)
  | contains (set element : Expr)
  | isIn (entity group : Expr)
  | getAttr (object : Expr) (attr : String)

inductive EvalError where
  | typeError
  | entityDoesNotExist
  | attrDoesNotExist
  deriving DecidableEq

def Value.asBool : Value → Except EvalError Bool
  | .prim (.bool value) => .ok value
  | _ => .error .typeError

def Value.asLong : Value → Except EvalError Int
  | .prim (.long value) => .ok value
  | _ => .error .typeError

def Value.asPrim : Value → Except EvalError Prim
  | .prim value => .ok value
  | _ => .error .typeError

def Value.asUid : Value → Except EvalError EntityUid
  | .prim (.entity uid) => .ok uid
  | _ => .error .typeError

def Value.asSet : Value → Except EvalError (Finset Prim)
  | .set elements => .ok elements
  | _ => .error .typeError

def attr? (fields : List (String × Value)) (attr : String) : Except EvalError Value :=
  match fields.lookup attr with
  | some value => .ok value
  | none => .error .attrDoesNotExist

def getAttribute (entities : List Entity) (attr : String) : Value → Except EvalError Value
  | .record fields => attr? (fields.map (fun field => (field.1, .prim field.2))) attr
  | .prim (.entity uid) =>
    match lookup entities uid with
    | some entity => attr? entity.attrs attr
    | none => .error .entityDoesNotExist
  | _ => .error .typeError

def boolean (value : Bool) : Value := .prim (.bool value)

def Expr.evaluate (request : Request) (entities : List Entity) : Expr → Except EvalError Value
  | .lit value => .ok (.prim value)
  | .var v => .ok (.prim (.entity (request.get v)))
  | .and left right => do
    if ← (← left.evaluate request entities).asBool then
      return boolean (← (← right.evaluate request entities).asBool)
    else
      return boolean false
  | .not inner => do return boolean (! (← (← inner.evaluate request entities).asBool))
  | .eq left right => do return boolean ((← left.evaluate request entities) = (← right.evaluate request entities))
  | .less left right => do
    let left ← left.evaluate request entities
    let right ← right.evaluate request entities
    return boolean ((← left.asLong) < (← right.asLong))
  | .lessEq left right => do
    let left ← left.evaluate request entities
    let right ← right.evaluate request entities
    return boolean ((← left.asLong) ≤ (← right.asLong))
  | .contains set element => do
    let set ← set.evaluate request entities
    let element ← element.evaluate request entities
    return boolean ((← element.asPrim) ∈ (← set.asSet))
  | .isIn entity group => do
    let entity ← entity.evaluate request entities
    let group ← group.evaluate request entities
    return boolean (Cedar.isIn entities (← entity.asUid) (← group.asUid))
  | .getAttr object attr => do getAttribute entities attr (← object.evaluate request entities)

inductive Effect where
  | permit | forbid
  deriving DecidableEq

inductive Scope where
  | any
  | is (entityType : String)

def Scope.covers : Scope → EntityUid → Bool
  | .any, _ => true
  | .is entityType, uid => uid.entityType = entityType

inductive ActionScope where
  | any
  | only (action : EntityUid)
  | oneOf (actions : List EntityUid)

def ActionScope.covers (entities : List Entity) : ActionScope → EntityUid → Bool
  | .any, _ => true
  | .only action, uid => uid = action
  | .oneOf actions, uid => actions.any (isIn entities uid)

structure Policy where
  effect : Effect
  principal : Scope := .any
  action : ActionScope := .any
  resource : Scope := .any
  condition : Expr

def Policy.satisfied (policy : Policy) (entities : List Entity) (request : Request) : Bool :=
  policy.principal.covers request.principal && policy.action.covers entities request.action &&
    policy.resource.covers request.resource && (policy.condition.evaluate request entities = .ok (boolean true))

variable (policies : List Policy)

def permitted (entities : List Entity) (request : Request) : Bool :=
  policies.any (fun policy => policy.effect = .permit && policy.satisfied entities request)

def forbidden (entities : List Entity) (request : Request) : Bool :=
  policies.any (fun policy => policy.effect = .forbid && policy.satisfied entities request)

def allows (entities : List Entity) (request : Request) : Bool :=
  match Store.load entities with
  | some store => permitted policies store.entities request && ! forbidden policies store.entities request
  | none => false

theorem permitted_of_allows {policies : List Policy} {entities : List Entity} {request : Request}
    (allowed : allows policies entities request) :
    ∃ policy ∈ policies, policy.effect = .permit ∧ policy.satisfied entities request := by
  unfold allows at allowed
  split at allowed
  · rename_i store loaded
    rw [Store.load_entities loaded] at allowed
    have granted := (Bool.and_eq_true_iff.mp allowed).1
    simpa [permitted] using granted
  · cases allowed

theorem unbarred_of_allows {policies : List Policy} {entities : List Entity} {request : Request} {policy : Policy}
    (allowed : allows policies entities request) (held : policy ∈ policies) (forbids : policy.effect = .forbid) :
    ¬ policy.satisfied entities request := by
  unfold allows at allowed
  split at allowed
  · rename_i store loaded
    rw [Store.load_entities loaded] at allowed
    intro satisfied
    simp_all [forbidden]
  · cases allowed

theorem allows_of_loaded {policies : List Policy} {entities : List Entity} {request : Request}
    (accepted : ∃ store, Store.load entities = some store)
    (granted : ∃ policy ∈ policies, policy.effect = .permit ∧ policy.satisfied entities request)
    (unbarred : ∀ policy ∈ policies, policy.effect = .forbid → ¬ policy.satisfied entities request) :
    allows policies entities request := by
  obtain ⟨store, loaded⟩ := accepted
  simp only [allows, loaded, Store.load_entities loaded, Bool.and_eq_true, Bool.not_eq_true', permitted, forbidden,
    List.any_eq_true, List.any_eq_false, decide_eq_true_eq]
  refine ⟨granted, ?_⟩
  intro policy held both
  exact unbarred policy held both.1 both.2

theorem Policy.satisfied_iff {policy : Policy} {entities : List Entity} {request : Request} :
    policy.satisfied entities request ↔ policy.principal.covers request.principal ∧
      policy.action.covers entities request.action ∧ policy.resource.covers request.resource ∧
      policy.condition.evaluate request entities = .ok (boolean true) := by
  simp [satisfied, and_assoc]

section Rules
variable {request : Request} {entities : List Entity} {left right : Expr} {v : Var}

def Expr.Holds (request : Request) (entities : List Entity) (condition : Expr) : Prop :=
  condition.evaluate request entities = .ok (boolean true)

theorem boolean_inj {a b : Bool} : boolean a = boolean b ↔ a = b := by
  simp [boolean]

variable {value : Value}

theorem Value.asBool_eq {b : Bool} : value.asBool = .ok b ↔ value = boolean b := by
  rcases value with (_ | _ | _ | _) | _ | _ <;> simp [asBool, boolean]

theorem Value.asLong_eq {n : Int} : value.asLong = .ok n ↔ value = .prim (.long n) := by
  rcases value with (_ | _ | _ | _) | _ | _ <;> simp [asLong]

theorem Expr.holds_and :
    (Expr.and left right).Holds request entities ↔ left.Holds request entities ∧ right.Holds request entities := by
  simp only [Holds, evaluate, except_bind_ok, Value.asBool_eq]
  constructor
  · rintro ⟨value, first, chosen, rfl, rest⟩
    cases chosen with
    | false => simp [boolean, pure, Except.pure] at rest
    | true =>
      simp only [if_true, except_bind_ok, Value.asBool_eq] at rest
      obtain ⟨second, last, b, rfl, same⟩ := rest
      cases same
      exact ⟨first, last⟩
  · rintro ⟨first, last⟩
    refine ⟨_, first, true, rfl, ?_⟩
    simp only [if_true, except_bind_ok, Value.asBool_eq]
    exact ⟨_, last, true, rfl, rfl⟩

theorem Expr.evaluate_attr {attr : String} : (Expr.getAttr (.var v) attr).evaluate request entities = .ok value ↔
      ∃ entity, lookup entities (request.get v) = some entity ∧ entity.attrs.lookup attr = some value := by
  simp only [evaluate, except_bind_ok, Except.ok.injEq, exists_eq_left', getAttribute]
  cases lookup entities (request.get v) with
  | none => simp
  | some entity =>
    simp only [attr?, Option.some.injEq, exists_eq_left']
    cases entity.attrs.lookup attr <;> simp

theorem Expr.holds_eq_lit {attr : String} {value : Prim} :
    (Expr.eq (.getAttr (.var v) attr) (.lit value)).Holds request entities ↔
      ∃ entity, lookup entities (request.get v) = some entity ∧ entity.attrs.lookup attr = some (.prim value) := by
  rw [← evaluate_attr]
  -- only the comparison is unfolded: the attribute stays one evaluation
  generalize (Expr.getAttr (.var v) attr) = object
  simp only [Holds, evaluate, except_bind_ok]
  constructor
  · rintro ⟨found, got, literal, same, equal⟩
    cases same
    have equal : found = .prim value := by simpa [boolean, pure, Except.pure] using equal
    subst equal
    exact got
  · intro got
    exact ⟨_, got, _, rfl, by simp [boolean, pure, Except.pure]⟩

theorem Expr.evaluate_isIn {uid : EntityUid} : (Expr.isIn (.var v) (.lit (.entity uid))).evaluate request entities =
      .ok (boolean (Cedar.isIn entities (request.get v) uid)) := rfl

theorem Expr.lessEq_reads (got : (Expr.lessEq left right).evaluate request entities = .ok value) :
    ∃ b, right.evaluate request entities = .ok (.prim (.long b)) := by
  simp only [evaluate, except_bind_ok, Value.asLong_eq] at got
  obtain ⟨_, -, _, last, a, -, b, rfl, -⟩ := got
  exact ⟨b, last⟩

theorem Expr.less_reads (got : (Expr.less left right).evaluate request entities = .ok value) :
    ∃ b, right.evaluate request entities = .ok (.prim (.long b)) := by
  simp only [evaluate, except_bind_ok, Value.asLong_eq] at got
  obtain ⟨_, -, _, last, a, -, b, rfl, -⟩ := got
  exact ⟨b, last⟩

end Rules

end Cedar

end Aeterna.Lib
