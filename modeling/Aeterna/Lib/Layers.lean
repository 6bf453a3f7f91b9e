import Mathlib.Data.List.Induction

/-!
Records merged source over source, field by field.
-/

namespace Aeterna.Lib

structure Setting (S : Type) where
  V : Type
  eq : DecidableEq V
  get : S → V

namespace Setting
variable {S R : Type}

def of {V : Type} [eq : DecidableEq V] (get : S → V) : Setting S := ⟨V, eq, get⟩

instance (f : Setting S) : DecidableEq f.V := f.eq

/-- A field of a part, as a field of the whole. -/
def within (part : R → S) (f : Setting S) : Setting R := ⟨f.V, f.eq, fun r => f.get (part r)⟩

def isSet (f : Setting S) (builtIn source : S) : Bool := f.get source ≠ f.get builtIn

def Takes (f : Setting S) (condition : S → Bool) (merge : S → S → S) : Prop :=
  ∀ base source, f.get (merge base source) = if condition source then f.get source else f.get base

def valueOf (f : Setting S) (condition : S → Bool) (defaults : S) (sources : List S) : f.V :=
  f.get ((sources.find? condition).getD defaults)

variable {f : Setting S} {condition : S → Bool} {merge : S → S → S}

theorem valueOf_cons {defaults source : S} {rest : List S} : f.valueOf condition defaults (source :: rest) =
    if condition source then f.get source else f.valueOf condition defaults rest := by
  unfold valueOf
  rw [List.find?_cons]
  split <;> simp_all

theorem Takes.foldl (takes : f.Takes condition merge) (defaults : S) (sources : List S) :
    f.get (sources.foldl merge defaults) = f.valueOf condition defaults sources.reverse := by
  induction sources using List.reverseRecOn with
  | nil => rfl
  | append_singleton before last ih =>
    rw [List.foldl_append, List.reverse_append, List.reverse_singleton, List.singleton_append, valueOf_cons, ← ih]
    exact takes _ _

theorem Takes.within {f : Setting R} {condition : R → Bool} {part : S → R} {whole : S → S → S}
    {merge : R → R → R} (takes : f.Takes condition merge)
    (merged : ∀ base source, part (whole base source) = merge (part base) (part source)) :
    (f.within part).Takes (fun source => condition (part source)) whole := by
  intro base source
  show f.get (part (whole base source)) = _
  rw [merged]
  exact takes _ _

end Setting

end Aeterna.Lib
