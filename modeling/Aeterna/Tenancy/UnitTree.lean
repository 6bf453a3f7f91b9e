import Aeterna.Lib.Forest
import Aeterna.Tenancy.UnitTable

namespace Aeterna.Tenancy
open Lib (Forest Table run Along Throughout)
open Option Lib.Forest

theorem validateParentChildTypes_ok {parent child : UnitType} : validateParentChildTypes parent child = .ok () ↔
    (parent = .organization ∧ child = .team) ∨ (parent = .team ∧ child = .project) := by
  cases parent <;> cases child <;> simp [validateParentChildTypes]

@[simp] theorem unitTypeOf_unitKind (unitType : UnitType) : unitTypeOf (unitKind unitType) = .ok unitType := by
  cases unitType <;> decide

def unitMatrix : Lib.KindMatrix String where
  root kind := unitTypeOf kind = .ok .organization
  under parent child := ∃ parentType childType, unitTypeOf parent = .ok parentType ∧
    unitTypeOf child = .ok childType ∧
    validateParentChildTypes parentType childType = .ok ()
  rank kind := match unitTypeOf kind with
    | .ok .team => 1
    | .ok .project => 2
    | _ => 0
  descends := by
    rintro parent child ⟨parentType, childType, above, below, allowed⟩
    rcases validateParentChildTypes_ok.mp allowed with ⟨rfl, rfl⟩ | ⟨rfl, rfl⟩
    · simp only [above, below]
      decide
    · simp only [above, below]
      decide

theorem under_iff {held : String} {unitType : UnitType} {child : String} (fitted : unitMatrix.under held child) :
    unitMatrix.under (unitKind unitType) child ↔ unitTypeOf held = .ok unitType := by
  obtain ⟨heldType, childType, above, below, allowed⟩ := fitted
  constructor
  · rintro ⟨newType, otherType, above', below', allowed'⟩
    rw [unitTypeOf_unitKind] at above'
    cases above'
    rw [below] at below'
    cases below'
    rw [above]
    rcases validateParentChildTypes_ok.mp allowed with ⟨rfl, rfl⟩ | ⟨rfl, rfl⟩ <;>
      rcases validateParentChildTypes_ok.mp allowed' with ⟨rfl, same⟩ | ⟨rfl, same⟩ <;> first | rfl | cases same
  · intro same
    rw [above] at same
    cases same
    exact ⟨_, childType, unitTypeOf_unitKind _, below, allowed⟩

namespace UnitTable

theorem checked_ok {rows : Table String OrgUnitRow} {t : UnitTable} (ok : checked rows = .ok t) : t.rows = rows := by
  unfold checked at ok
  split at ok
  · split at ok
    · cases ok
      rfl
    · cases ok
  · cases ok

variable {t last : UnitTable} {tenantId id : String} {unit : OrgUnit}

def tree (t : UnitTable) (tenantId : String) : Forest String String := fun id =>
  (t.rowOf tenantId id).map (fun row => (row.kind, row.parentId))

theorem tree_eq_some {node : String × Option String} : t.tree tenantId id = some node ↔
    ∃ row, t.rowOf tenantId id = some row ∧ (row.kind, row.parentId) = node := map_eq_some_iff

theorem tree_update {f : String → OrgUnitRow → OrgUnitRow} (rows : last.rows = t.rows.update f)
    (tenant : ∀ id row, (f id row).tenantId = row.tenantId) (id : String) :
    last.tree tenantId id = (t.rowOf tenantId id).map (fun row => ((f id row).kind, (f id row).parentId)) := by
  simp only [tree, rowOf, rows, Table.get_update]
  cases t.rows.get id with
  | none => rfl
  | some row => by_cases own : row.tenantId = tenantId <;> simp [Option.filter, tenant, own]

theorem insertUnit_tree (ok : t.insertUnit unit = .ok last) : (∀ tenantId, last.tree tenantId = t.tree tenantId) ∨
    t.rows.get unit.id = none ∧ last.tree unit.tenantId =
        (t.tree unit.tenantId).put unit.id (unitKind unit.unitType) unit.parentId ∧
      ∀ tenantId, tenantId ≠ unit.tenantId → last.tree tenantId = t.tree tenantId := by
  unfold insertUnit at ok
  dsimp only at ok
  split at ok
  · apply Or.inl
    intro tenantId
    funext id
    have rows := checked_ok ok
    rw [tree_update rows (by intro id row; split <;> rfl)]
    unfold tree
    congr 1
    funext row
    split <;> rfl
  · split at ok
    · rename_i absent
      have rows := checked_ok ok
      refine .inr ⟨absent, ?_, fun tenantId apart => ?_⟩
      · funext id
        by_cases same : id = unit.id
        · subst same
          rw [put_same]
          simp [tree, rowOf, rows, Table.get_insert, OrgUnit.toRow, Option.filter]
        · rw [put_other same]
          simp [tree, rowOf, rows, Table.get_insert, same]
      · funext id
        by_cases same : id = unit.id
        · subst same
          simp [tree, rowOf, rows, Table.get_insert, OrgUnit.toRow, Option.filter, absent, Ne.symm apart]
        · simp [tree, rowOf, rows, Table.get_insert, same]
    · cases ok

theorem createUnit_ok (ok : t.createUnit unit = .ok last) :
    t.validatePlacement unit none = .ok () ∧ t.insertUnit unit = .ok last := by
  unfold createUnit at ok
  cases valid : t.validatePlacement unit none with
  | error e =>
    rw [valid] at ok
    cases ok
  | ok =>
    rw [valid] at ok
    exact ⟨rfl, ok⟩

theorem updateUnit_ok (ok : t.updateUnit unit = some (.ok last)) :
    t.validatePlacement unit (some unit.id) = .ok () ∧ t.storeUnit unit = .ok last := by
  unfold updateUnit at ok
  split at ok
  · cases ok
  · rename_i valid
    obtain ⟨walked, _, stored⟩ := map_eq_some_iff.mp ok
    cases walked with
    | error e => cases stored
    | ok => exact ⟨valid, stored⟩

theorem storeUnit_tree (ok : t.storeUnit unit = .ok last) :
    last.tree unit.tenantId = (if (t.rowOf unit.tenantId unit.id).isSome then
        (t.tree unit.tenantId).put unit.id (unitKind unit.unitType) unit.parentId else t.tree unit.tenantId) ∧
      ∀ tenantId, tenantId ≠ unit.tenantId → last.tree tenantId = t.tree tenantId := by
  have rows := checked_ok ok
  have written : ∀ tenantId id, last.tree tenantId id = _ :=
    fun _ => tree_update rows (by intro id row; split <;> rfl)
  constructor
  · funext id
    rw [written]
    by_cases same : id = unit.id
    · subst same
      cases held : t.rowOf unit.tenantId unit.id with
      | none => simp [tree, held]
      | some row =>
        have own := (rowOf_eq_some.mp held).2
        simp [put_same, own]
    · split
      · rw [put_other same]
        simp [tree, same]
      · simp [tree, same]
  · intro tenantId apart
    funext id
    rw [written]
    unfold tree
    cases held : t.rowOf tenantId id with
    | none => rfl
    | some row =>
      have other : row.tenantId ≠ unit.tenantId := by
        rw [(rowOf_eq_some.mp held).2]
        exact apart
      simp [other]

theorem ancestorRows_isSome (sound : (t.tree tenantId).WellFormed unitMatrix) {fuel : Nat}
    (enough : (t.tree tenantId).rankOf unitMatrix id < fuel) : (t.ancestorRows tenantId fuel id).isSome := by
  induction fuel generalizing id with
  | zero => exact absurd enough (Nat.not_lt_zero _)
  | succ fuel ih =>
    rw [ancestorRows]
    split
    · rfl
    · rename_i row held
      split
      · rfl
      · rename_i parentId place
        have edge : (t.tree tenantId).ParentOf id parentId := ⟨row.kind, tree_eq_some.mpr ⟨row, held, by rw [place]⟩⟩
        have higher := parent_rank_lt sound.fits edge
        simpa using ih (by omega)

theorem rankOf_lt_three : (t.tree tenantId).rankOf unitMatrix id < 3 := by
  unfold rankOf
  cases t.tree tenantId id with
  | none => decide
  | some node =>
    simp only [unitMatrix, map_some, getD_some]
    split <;> decide

theorem updateUnit_isSome (sound : (t.tree unit.tenantId).WellFormed unitMatrix) : (t.updateUnit unit).isSome := by
  unfold updateUnit
  split
  · rfl
  · rw [isSome_map, validateAncestors]
    split
    · rfl
    · rename_i parentId _
      have high : (t.tree unit.tenantId).rankOf unitMatrix parentId < 3 := rankOf_lt_three
      rw [isSome_map, getAncestors, isSome_map]
      exact ancestorRows_isSome sound (by omega)

theorem validatePlacement_fits {existingId : Option String} (valid : t.validatePlacement unit existingId = .ok ()) :
    (t.tree unit.tenantId).Fits unitMatrix (unitKind unit.unitType) unit.parentId ∧
      ∀ parentId, unit.parentId = some parentId → existingId ≠ some parentId := by
  unfold validatePlacement at valid
  cases place : unit.parentId with
  | none =>
    rw [place] at valid
    dsimp only at valid
    split at valid
    · cases valid
    · rename_i root
      have type : unit.unitType = .organization := Decidable.not_not.mp root
      refine ⟨?_, fun parentId absent => absurd absent (by simp)⟩
      show unitTypeOf (unitKind unit.unitType) = .ok .organization
      rw [type]
      exact unitTypeOf_unitKind _
  | some parentId =>
    rw [place] at valid
    dsimp only at valid
    split at valid
    · cases valid
    · rename_i apart
      refine ⟨?_, fun other same => by cases same; exact apart⟩
      unfold getUnitByIdTx at valid
      cases held : t.rowOf unit.tenantId parentId with
      | none =>
        rw [held] at valid
        cases valid
      | some row =>
        rw [held] at valid
        dsimp only at valid
        cases typed : unitTypeOf row.kind with
        | error e =>
          rw [typed] at valid
          cases valid
        | ok parentType =>
          rw [typed] at valid
          exact ⟨_, tree_eq_some.mpr ⟨row, held, rfl⟩, parentType, unit.unitType, typed, unitTypeOf_unitKind _, valid⟩

end UnitTable

inductive TreeCall where
  | create (unit : OrgUnit)
  | update (unit : OrgUnit)

def UnitTable.call (t : UnitTable) : TreeCall → Option UnitTable
  | .create unit => (t.createUnit unit).toOption
  | .update unit => (t.updateUnit unit).bind Except.toOption

/-- Every unit of the tenant is an organization at the root or fits under its parent, and no unit is above itself. -/
abbrev UnitTable.WellFormed (t : UnitTable) (tenantId : String) : Prop :=
  Forest.WellFormed unitMatrix (t.tree tenantId)

def KeepsParentType (tenantId : String) (t : UnitTable) : TreeCall → Prop
  | .create _ => True
  | .update unit => unit.tenantId = tenantId → ∀ row, t.rowOf tenantId unit.id = some row →
    unitTypeOf row.kind = .ok unit.unitType ∨
      ∀ child held, t.rowOf tenantId child = some held → held.parentId ≠ some unit.id

theorem toOption_eq_some {ε α : Type} {call : Except ε α} {a : α} : call.toOption = some a ↔ call = .ok a := by
  cases call <;> simp [Except.toOption]

section
variable {t last : UnitTable} {tenantId : String} {unit : OrgUnit}

theorem createUnit_wellFormed (sound : t.WellFormed tenantId) (ok : t.createUnit unit = .ok last) :
    last.WellFormed tenantId := by
  obtain ⟨valid, inserted⟩ := UnitTable.createUnit_ok ok
  obtain ⟨fits, _⟩ := UnitTable.validatePlacement_fits valid
  rcases UnitTable.insertUnit_tree inserted with same | ⟨absent, added, others⟩
  · rw [UnitTable.WellFormed, same]
    exact sound
  · by_cases own : tenantId = unit.tenantId
    · subst own
      have free : t.tree unit.tenantId unit.id = none := by simp [UnitTable.tree, UnitTable.rowOf, absent]
      have apart : unit.parentId ≠ some unit.id := by
        intro loop
        rw [loop] at fits
        obtain ⟨above, there, _⟩ := fits
        rw [free] at there
        cases there
      rw [UnitTable.WellFormed, added, put_wellFormed_iff sound fits apart]
      intro child below _ held
      -- nothing stands under an id that no unit of the tenant has
      obtain ⟨above, there, _⟩ := sound.fits child below _ held
      rw [free] at there
      cases there
    · rw [UnitTable.WellFormed, others tenantId own]
      exact sound

theorem updateUnit_wellFormed_iff (sound : t.WellFormed tenantId) (ok : t.updateUnit unit = some (.ok last)) :
    last.WellFormed tenantId ↔ KeepsParentType tenantId t (.update unit) := by
  obtain ⟨valid, stored⟩ := UnitTable.updateUnit_ok ok
  obtain ⟨fits, apart⟩ := UnitTable.validatePlacement_fits valid
  obtain ⟨own, others⟩ := UnitTable.storeUnit_tree stored
  by_cases same : unit.tenantId = tenantId
  · subst same
    cases held : t.rowOf unit.tenantId unit.id with
    | none =>
      rw [held] at own
      rw [UnitTable.WellFormed, own]
      simp only [KeepsParentType, held]
      exact ⟨fun _ _ row absent => absurd absent (by simp), fun _ => sound⟩
    | some row =>
      rw [held] at own
      have loop : unit.parentId ≠ some unit.id := fun there => apart _ there rfl
      rw [UnitTable.WellFormed, own, if_pos (show (some row).isSome = true from rfl),
        put_wellFormed_iff sound fits loop]
      have node : t.tree unit.tenantId unit.id = some (row.kind, row.parentId) :=
        UnitTable.tree_eq_some.mpr ⟨row, held, rfl⟩
      -- what stands under the unit fits under the kind that its row has
      have fitted : ∀ child below, t.tree unit.tenantId child = some (below, some unit.id) →
          unitMatrix.under row.kind below := by
        intro child below there
        obtain ⟨above, found, under⟩ := sound.fits child below _ there
        rw [node] at found
        cases found
        exact under
      constructor
      · intro below _ other found
        rw [held] at found
        cases found
        by_cases kept : unitTypeOf row.kind = .ok unit.unitType
        · exact .inl kept
        · refine .inr (fun child childRow inside parent => kept ?_)
          have there : t.tree unit.tenantId child = some (childRow.kind, some unit.id) :=
            UnitTable.tree_eq_some.mpr ⟨childRow, inside, by rw [parent]⟩
          have different : child ≠ unit.id := by
            intro equal
            subst equal
            have chain : (t.tree unit.tenantId).ParentOf unit.id unit.id := ⟨_, there⟩
            exact sound.acyclic _ (.single chain)
          exact (under_iff (fitted child _ there)).mp (below child _ different there)
      · intro keeps child below _ there
        rcases keeps rfl row held with kept | alone
        · exact (under_iff (fitted child below there)).mpr kept
        · obtain ⟨childRow, inside, shape⟩ := UnitTable.tree_eq_some.mp there
          exact absurd (Prod.mk.inj shape).2 (alone child childRow inside)
  · rw [UnitTable.WellFormed, others tenantId (Ne.symm same)]
    exact ⟨fun _ own => absurd own same, fun _ => sound⟩

theorem call_wellFormed_iff {call : TreeCall} (sound : t.WellFormed tenantId) (ran : t.call call = some last) :
    last.WellFormed tenantId ↔ KeepsParentType tenantId t call := by
  cases call with
  | create unit => exact ⟨fun _ => trivial, fun _ => createUnit_wellFormed sound (toOption_eq_some.mp ran)⟩
  | update unit =>
    obtain ⟨call, returned, ok⟩ := bind_eq_some_iff.mp ran
    cases toOption_eq_some.mp ok
    exact updateUnit_wellFormed_iff sound returned

/-- Exactly if no call changes the type of a unit with units under it, the units of a tenant stay a well-formed
forest. -/
theorem unitTree_wellFormed_iff {calls : List TreeCall} (sound : t.WellFormed tenantId)
    (ran : run UnitTable.call t calls = some last) :
    Throughout UnitTable.call (·.WellFormed tenantId) t calls ↔
      Along UnitTable.call (KeepsParentType tenantId) t calls :=
  Lib.throughout_iff id (fun before met ran => (call_wellFormed_iff before ran).mpr met)
    (fun before ran after => (call_wellFormed_iff before ran).mp after) sound ran

/-- The walk to the ancestors comes to an end after every run that keeps the types of the parents. -/
theorem updates_end {calls : List TreeCall} {unit : OrgUnit} (sound : t.WellFormed unit.tenantId)
    (ran : run UnitTable.call t calls = some last)
    (keeps : Along UnitTable.call (KeepsParentType unit.tenantId) t calls) : (last.updateUnit unit).isSome := by
  apply UnitTable.updateUnit_isSome
  exact Lib.run_keeps (I := (UnitTable.WellFormed · unit.tenantId))
    (fun t call next sound keeps ran => (call_wellFormed_iff sound ran).mpr keeps) sound keeps ran

end

def sampleUnit (id : String) (unitType : UnitType) (parentId : Option String) : OrgUnit :=
  { id, name := id, unitType, parentId, tenantId := "acme", createdAt := ⟨0, "1970-01-01T00:00:00Z"⟩,
    updatedAt := ⟨0, "1970-01-01T00:00:00Z"⟩ }

def sampleCreates : List TreeCall :=
  [.create (sampleUnit "o" .organization none), .create (sampleUnit "t" .team (some "o")),
    .create (sampleUnit "p" .project (some "t"))]

def sampleRetype : TreeCall := .update (sampleUnit "t" .organization none)

theorem empty_wellFormed (tenantId : String) : ({} : UnitTable).WellFormed tenantId :=
  wellFormed_of_fits (fun _ _ _ held => by cases held)

def treeAfter (calls : List TreeCall) : Option UnitTable := run UnitTable.call {} calls

theorem unitTree_wellFormed_sample : ∃ last, treeAfter sampleCreates = some last ∧
    (Throughout UnitTable.call (·.WellFormed "acme") {} sampleCreates ↔
      Along UnitTable.call (KeepsParentType "acme") {} sampleCreates) := by
  have ran : (treeAfter sampleCreates).isSome := by decide +kernel
  obtain ⟨last, returned⟩ := isSome_iff_exists.mp ran
  exact ⟨last, returned, unitTree_wellFormed_iff (empty_wellFormed "acme") returned⟩

theorem moved_project_updates : ∃ last, treeAfter sampleCreates = some last ∧
    (last.updateUnit (sampleUnit "p" .project (some "t"))).isSome := by
  have ran : (treeAfter sampleCreates).isSome := by decide +kernel
  obtain ⟨last, returned⟩ := isSome_iff_exists.mp ran
  refine ⟨last, returned, updates_end (empty_wellFormed "acme") returned ?_⟩
  exact ⟨trivial, fun _ _ => ⟨trivial, fun _ _ => ⟨trivial, fun _ _ => trivial⟩⟩⟩

theorem unitTree_retyped : ({} : UnitTable).WellFormed "acme" ∧
    ∃ last, treeAfter (sampleCreates ++ [sampleRetype]) = some last ∧ ¬ last.WellFormed "acme" := by
  have ran : (treeAfter (sampleCreates ++ [sampleRetype])).isSome := by decide +kernel
  obtain ⟨last, returned⟩ := isSome_iff_exists.mp ran
  refine ⟨empty_wellFormed "acme", last, returned, fun sound => ?_⟩
  have nodes : (treeAfter (sampleCreates ++ [sampleRetype])).map (fun t => (t.tree "acme" "t", t.tree "acme" "p")) =
      some (some ("organization", none), some ("project", some "t")) := by decide +kernel
  rw [returned] at nodes
  obtain ⟨parent, child⟩ := Prod.mk.inj (Option.some.inj nodes)
  obtain ⟨above, there, under⟩ := sound.fits "p" "project" (some "t") child
  rw [parent] at there
  cases there
  obtain ⟨parentType, childType, first, second, allowed⟩ := under
  cases first
  cases second
  cases allowed

end Aeterna.Tenancy
