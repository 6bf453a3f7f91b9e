import Aeterna.Governance.Engine
import Mathlib.Data.List.Perm.Basic

namespace Aeterna.Governance
open List

structure DriftSuppression where
  policyId : String
  rulePattern : Option String
  expiresAt : Option Int

namespace DriftSuppression

def isExpired (now : Int) (s : DriftSuppression) : Bool := s.expiresAt.any (fun expires => now > expires)

def isMatch (regex : Regex) (s : DriftSuppression) (violation : PolicyViolation) : Bool :=
  if s.policyId ≠ violation.policyId then false
  else
    match s.rulePattern.bind regex.new with
    | some re => re violation.message
    | none => true

/-- What a suppression is for: the violations of its policy, and of them those that its pattern matches. -/
structure Suppresses (regex : Regex) (now : Int) (s : DriftSuppression) (violation : PolicyViolation) : Prop where
  unexpired : s.isExpired now = false
  policy : s.policyId = violation.policyId
  pattern : ∀ text, s.rulePattern = some text → ∃ re, regex.new text = some re ∧ re violation.message

def Malformed (regex : Regex) (s : DriftSuppression) : Prop :=
  ∃ text, s.rulePattern = some text ∧ regex.new text = none

end DriftSuppression

section
variable (regex : Regex) (now : Int) (violations : List PolicyViolation) (suppressions : List DriftSuppression)

def isSuppressed (violation : PolicyViolation) : Bool := suppressions.any (fun s => s.isMatch regex violation)

def applySuppressions : List PolicyViolation × List PolicyViolation :=
  violations.foldl (fun (active, suppressed) violation =>
    if isSuppressed regex suppressions violation then (active, suppressed ++ [violation])
    else (active ++ [violation], suppressed)) ([], [])

structure ExactSplit (split : List PolicyViolation × List PolicyViolation) : Prop where
  perm : (split.1 ++ split.2).Perm violations
  suppressed : ∀ violation ∈ split.2, ∃ s ∈ suppressions, s.Suppresses regex now violation

end

section
variable {regex : Regex} {now : Int} {violations : List PolicyViolation} {suppressions : List DriftSuppression}
  {s : DriftSuppression} {violation : PolicyViolation}

theorem applySuppressions_eq : applySuppressions regex violations suppressions =
    (violations.filter (fun violation => !isSuppressed regex suppressions violation),
      violations.filter (isSuppressed regex suppressions)) := by
  unfold applySuppressions
  induction violations using reverseRecOn with
  | nil => rfl
  | append_singleton seen violation ih =>
    rw [foldl_append, ih]
    cases found : isSuppressed regex suppressions violation with
    | false => simp [filter_append, found]
    | true => simp [filter_append, found]

theorem applySuppressions_perm :
    ((applySuppressions regex violations suppressions).1 ++ (applySuppressions regex violations suppressions).2).Perm
      violations := by
  rw [applySuppressions_eq]
  apply perm_append_comm.trans
  exact filter_append_perm (isSuppressed regex suppressions) violations

theorem mem_suppressed : violation ∈ (applySuppressions regex violations suppressions).2 ↔
    violation ∈ violations ∧ ∃ s ∈ suppressions, s.isMatch regex violation := by
  rw [applySuppressions_eq, mem_filter, isSuppressed, any_eq_true]

theorem DriftSuppression.suppresses_of_isMatch (matched : s.isMatch regex violation) (valid : ¬ s.Malformed regex)
    (unexpired : s.isExpired now = false) : s.Suppresses regex now violation := by
  unfold isMatch at matched
  split at matched
  · cases matched
  · rename_i policy
    refine ⟨unexpired, not_not.mp policy, fun text written => ?_⟩
    cases compiled : regex.new text with
    | none => exact absurd ⟨text, written, compiled⟩ valid
    | some re =>
      rw [written, Option.bind_some, compiled] at matched
      exact ⟨re, rfl, matched⟩

theorem applySuppressions_exact_iff :
    ExactSplit regex now violations suppressions (applySuppressions regex violations suppressions) ↔
      ∀ s ∈ suppressions, s.Malformed regex ∨ s.isExpired now → ∀ violation ∈ violations,
        s.isMatch regex violation → ∃ other ∈ suppressions, other.Suppresses regex now violation := by
  constructor
  · intro exact s member _ violation listed matched
    exact exact.suppressed violation (mem_suppressed.mpr ⟨listed, s, member, matched⟩)
  · intro covered
    refine ⟨applySuppressions_perm, fun violation inside => ?_⟩
    obtain ⟨listed, s, member, matched⟩ := mem_suppressed.mp inside
    by_cases faulty : s.Malformed regex ∨ s.isExpired now
    · exact covered s member faulty violation listed matched
    · obtain ⟨valid, current⟩ := not_or.mp faulty
      exact ⟨s, member, DriftSuppression.suppresses_of_isMatch matched valid (by simpa using current)⟩

/-- Only the pattern `[` does not compile; the others match themselves. -/
def literalRegex : Regex := ⟨fun text => if text = "[" then none else some (fun message => message = text)⟩

theorem malformed_suppresses : ¬ ExactSplit literalRegex 0 [⟨⟨.block, "unsafe"⟩, "r", "p", ∅⟩] [⟨"p", some "[", none⟩]
    (applySuppressions literalRegex [⟨⟨.block, "unsafe"⟩, "r", "p", ∅⟩] [⟨"p", some "[", none⟩]) := by
  intro exact
  obtain ⟨s, member, suppresses⟩ := exact.suppressed _ (mem_suppressed.mpr ⟨mem_singleton_self _, _,
    mem_singleton_self _, rfl⟩)
  cases mem_singleton.mp member
  obtain ⟨re, compiled, _⟩ := suppresses.pattern "[" rfl
  cases compiled

end

end Aeterna.Governance
