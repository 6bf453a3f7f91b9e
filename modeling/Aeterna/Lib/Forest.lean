import Mathlib.Logic.Function.Basic
import Mathlib.Logic.Relation

/-!
Forests whose nodes have a kind: which kinds may be roots, and which may stand under which.
-/

namespace Aeterna.Lib

abbrev Forest (ι κ : Type) : Type := ι → Option (κ × Option ι)

/-- What a forest is made after. -/
structure KindMatrix (κ : Type) where
  root : κ → Prop
  under : κ → κ → Prop
  rank : κ → Nat
  descends : ∀ {parent child}, under parent child → rank parent < rank child

namespace Forest
variable {ι κ : Type} (m : KindMatrix κ)

/-- A node of this kind may stand at this place. -/
def Fits (f : Forest ι κ) (kind : κ) : Option ι → Prop
  | none => m.root kind
  | some parent => ∃ above, f parent = some above ∧ m.under above.1 kind

def ParentOf (f : Forest ι κ) (child parent : ι) : Prop := ∃ kind, f child = some (kind, some parent)

structure WellFormed (f : Forest ι κ) : Prop where
  fits : ∀ id kind place, f id = some (kind, place) → f.Fits m kind place
  acyclic : ∀ id, ¬ Relation.TransGen f.ParentOf id id

variable {m} {f : Forest ι κ}

def rankOf (m : KindMatrix κ) (f : Forest ι κ) (id : ι) : Nat := ((f id).map (fun node => m.rank node.1)).getD 0

section
variable (fits : ∀ id kind place, f id = some (kind, place) → f.Fits m kind place)
include fits

theorem parent_rank_lt {child parent : ι}
    (edge : f.ParentOf child parent) : f.rankOf m parent < f.rankOf m child := by
  obtain ⟨kind, held⟩ := edge
  obtain ⟨above, there, under⟩ := fits child kind _ held
  simpa [rankOf, held, there] using m.descends under

theorem wellFormed_of_fits : f.WellFormed m where
  fits := fits
  acyclic := by
    intro id cycle
    have falls : ∀ {below above}, Relation.TransGen f.ParentOf below above → f.rankOf m above < f.rankOf m below := by
      intro below above chain
      induction chain with
      | single edge => exact parent_rank_lt fits edge
      | tail _ edge shorter => exact Nat.lt_trans (parent_rank_lt fits edge) shorter
    exact Nat.lt_irrefl _ (falls cycle)

end

variable [DecidableEq ι]

def put (f : Forest ι κ) (id : ι) (kind : κ) (place : Option ι) : Forest ι κ :=
  Function.update f id (some (kind, place))

theorem put_same (id : ι) (kind : κ) (place : Option ι) : f.put id kind place id = some (kind, place) :=
  Function.update_self ..

theorem put_other {id other : ι} {kind : κ} {place : Option ι} (apart : other ≠ id) :
    f.put id kind place other = f other :=
  Function.update_of_ne apart ..

theorem put_wellFormed_iff {id : ι} {kind : κ} {place : Option ι} (sound : f.WellFormed m)
    (fits : f.Fits m kind place) (apart : place ≠ some id) :
    (f.put id kind place).WellFormed m ↔
      ∀ child below, child ≠ id → f child = some (below, some id) → m.under kind below := by
  constructor
  · intro after child below other held
    have fitted := after.fits child below (some id) (by rw [put_other other]; exact held)
    obtain ⟨above, there, under⟩ := fitted
    rw [put_same] at there
    cases there
    exact under
  · intro below
    apply wellFormed_of_fits
    intro node other spot held
    by_cases same : node = id
    · subst same
      rw [put_same] at held
      cases held
      cases place with
      | none => exact fits
      | some parent =>
        obtain ⟨above, there, under⟩ := fits
        have different : parent ≠ node := fun equal => apart (congrArg some equal)
        exact ⟨above, by rw [put_other different]; exact there, under⟩
    · rw [put_other same] at held
      have before := sound.fits node other spot held
      cases spot with
      | none => exact before
      | some parent =>
        by_cases under : parent = id
        · subst under
          exact ⟨_, put_same .., below node other same held⟩
        · obtain ⟨above, there, fitted⟩ := before
          exact ⟨above, by rw [put_other under]; exact there, fitted⟩

end Forest

end Aeterna.Lib
