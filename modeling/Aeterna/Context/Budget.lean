import Mathlib.Data.UInt
import Mathlib.Logic.Function.Basic
import Aeterna.Core.Types
import Aeterna.Lib.FixedWindow

namespace Aeterna

def MemoryLayer.displayName : MemoryLayer → String
  | .agent => "Agent"
  | .user => "User"
  | .session => "Session"
  | .project => "Project"
  | .team => "Team"
  | .org => "Organization"
  | .tenant => "Tenant"

end Aeterna

namespace Aeterna.Context
open Lib (FixedWindow)

structure SummarizationBudget where
  (dailyTokenLimit hourlyTokenLimit : UInt64)
  perLayerLimits : MemoryLayer → Option UInt64
  (warningThresholdPercent criticalThresholdPercent : UInt8)

def SummarizationBudget.default : SummarizationBudget where
  dailyTokenLimit := 1000000
  hourlyTokenLimit := 100000
  perLayerLimits
    | .agent => some 10000
    | .user => some 20000
    | .session => some 50000
    | .project => some 100000
    | .team => some 200000
    | .org => some 500000
    | .tenant => some 1000000
  warningThresholdPercent := 80
  criticalThresholdPercent := 90

inductive BudgetStatus where
  | available | warning | critical | exhausted
  deriving DecidableEq, Repr

/-- The share of a limit in `f32`, and its comparison with a threshold. -/
structure Percentages where
  P : Type
  percent : UInt64 → UInt64 → P
  atLeast : P → UInt8 → Bool

structure BudgetCheck (p : Percentages) where
  status : BudgetStatus
  (dailyUsed dailyRemaining hourlyUsed hourlyRemaining : UInt64)
  (layerUsed layerRemaining : Option UInt64)
  percentUsed : p.P

def u64Max : UInt64 := 0xFFFFFFFFFFFFFFFF

def BudgetCheck.tokensAvailable {p : Percentages} (check : BudgetCheck p) : UInt64 :=
  min (min check.dailyRemaining check.hourlyRemaining) (check.layerRemaining.getD u64Max)

inductive BudgetExhaustedAction where
  | reject | queue | allowWithWarning
  deriving DecidableEq, Repr

structure BudgetTrackerConfig where
  budget : SummarizationBudget
  exhaustedAction : BudgetExhaustedAction
  queueMaxSize : Nat

def BudgetTrackerConfig.default : BudgetTrackerConfig where
  budget := SummarizationBudget.default
  exhaustedAction := .reject
  queueMaxSize := 100

def dailyWindowSecs : Nat := 86400
def hourlyWindowSecs : Nat := 3600

structure QueuedRequest where
  layer : MemoryLayer
  estimatedTokens : UInt64
  queuedAt : Nat
  requestId : String

inductive BudgetError where
  | exhausted (reason : String)
  | queueFull (maxSize : Nat)
  | requestTooLarge (requested available : UInt64)
  deriving DecidableEq, Repr

def saturatingSub (a b : UInt64) : UInt64 := if a ≤ b then 0 else a - b

theorem toNat_saturatingSub (a b : UInt64) : (saturatingSub a b).toNat = a.toNat - b.toNat := by
  unfold saturatingSub
  split
  · rename_i below
    have order := UInt64.le_iff_toNat_le.mp below
    simp only [UInt64.toNat_zero]
    omega
  · rename_i above
    have order := UInt64.le_iff_toNat_le.not.mp above
    exact UInt64.toNat_sub_of_le a b (UInt64.le_iff_toNat_le.mpr (by omega))

structure UsageWindow where
  tokensUsed : UInt64
  windowStart : Nat

namespace UsageWindow

def new (now : Nat) : UsageWindow := ⟨0, now⟩

def record (w : UsageWindow) (tokens : UInt64) (windowDurationSecs now : Nat) : UsageWindow :=
  if now - w.windowStart ≥ windowDurationSecs then ⟨tokens, now⟩
  else { w with tokensUsed := w.tokensUsed + tokens }

def used (w : UsageWindow) (windowDurationSecs now : Nat) : UInt64 :=
  if now - w.windowStart ≥ windowDurationSecs then 0 else w.tokensUsed

def resetIfExpired (w : UsageWindow) (windowDurationSecs now : Nat) : UsageWindow :=
  if now - w.windowStart ≥ windowDurationSecs then ⟨0, now⟩ else w

/-- The counter without the bounds of `u64`. -/
def window (w : UsageWindow) : FixedWindow := ⟨w.tokensUsed.toNat, w.windowStart⟩

variable (w : UsageWindow)

theorem window_used (duration now : Nat) : (w.used duration now).toNat = w.window.reading duration now := by
  unfold used FixedWindow.reading window
  split <;> rfl

theorem window_resetIfExpired (duration now : Nat) :
    (w.resetIfExpired duration now).window = w.window.roll duration now := by
  unfold resetIfExpired FixedWindow.roll window
  split <;> rfl

theorem window_record {limit : UInt64} {tokens : UInt64} {duration now : Nat}
    (fits : (w.window.add duration now tokens.toNat).used ≤ limit.toNat) :
    (w.record tokens duration now).window = w.window.add duration now tokens.toNat := by
  unfold record FixedWindow.add window
  unfold FixedWindow.add window at fits
  split
  · rfl
  · rename_i running
    rw [if_neg running] at fits
    have small : w.tokensUsed.toNat + tokens.toNat < 2 ^ 64 := Nat.lt_of_le_of_lt fits limit.toNat_lt
    simp only [UInt64.toNat_add, Nat.mod_eq_of_lt small]

end UsageWindow

structure BudgetTracker where
  (dailyUsage hourlyUsage : UsageWindow)
  layerUsage : MemoryLayer → Option UsageWindow
  queuedRequests : List QueuedRequest

namespace BudgetTracker

/-- `new`, which reads the clock twice. -/
def new (now : Nat → Nat) : BudgetTracker where
  dailyUsage := UsageWindow.new (now 0)
  hourlyUsage := UsageWindow.new (now 1)
  layerUsage := fun _ => none
  queuedRequests := []

section
variable {p : Percentages} (config : BudgetTrackerConfig)

def layerLimit (layer : MemoryLayer) : UInt64 := (config.budget.perLayerLimits layer).getD u64Max

def layerUsed (t : BudgetTracker) (layer : MemoryLayer) (now : Nat) : UInt64 :=
  ((t.layerUsage layer).map (fun w => w.used dailyWindowSecs now)).getD 0

/-- `check`; `now` lists what the clock says each time it is read. -/
def check (t : BudgetTracker) (layer : Option MemoryLayer) (now : Nat → Nat) : BudgetCheck p × BudgetTracker :=
  let t := { t with
    dailyUsage := t.dailyUsage.resetIfExpired dailyWindowSecs (now 0)
    hourlyUsage := t.hourlyUsage.resetIfExpired hourlyWindowSecs (now 1) }
  let dailyUsed := t.dailyUsage.used dailyWindowSecs (now 2)
  let hourlyUsed := t.hourlyUsage.used hourlyWindowSecs (now 3)
  let dailyRemaining := saturatingSub config.budget.dailyTokenLimit dailyUsed
  let hourlyRemaining := saturatingSub config.budget.hourlyTokenLimit hourlyUsed
  let layerUsed := layer.map (fun l => t.layerUsed l (now 4))
  let layerRemaining := layer.map (fun l => saturatingSub (layerLimit config l) (t.layerUsed l (now 4)))
  let percentUsed := p.percent dailyUsed config.budget.dailyTokenLimit
  let status :=
    if dailyRemaining = 0 ∨ hourlyRemaining = 0 ∨ layerRemaining = some 0 then BudgetStatus.exhausted
    else if p.atLeast percentUsed config.budget.criticalThresholdPercent then .critical
    else if p.atLeast percentUsed config.budget.warningThresholdPercent then .warning
    else .available
  (⟨status, dailyUsed, dailyRemaining, hourlyUsed, hourlyRemaining, layerUsed, layerRemaining, percentUsed⟩, t)

def recordLayer (t : BudgetTracker) (layer : MemoryLayer) (tokens : UInt64) (now : Nat → Nat) : BudgetTracker :=
  let w := (t.layerUsage layer).getD (UsageWindow.new (now 0))
  { t with layerUsage := Function.update t.layerUsage layer (some (w.record tokens dailyWindowSecs (now 1))) }

def recordUsage (t : BudgetTracker) (tokens : UInt64) (layer : MemoryLayer) (now : Nat → Nat) : BudgetTracker :=
  let t := { t with
    dailyUsage := t.dailyUsage.record tokens dailyWindowSecs (now 0)
    hourlyUsage := t.hourlyUsage.record tokens hourlyWindowSecs (now 1) }
  t.recordLayer layer tokens (fun n => now (n + 2))

def queueRequest (t : BudgetTracker) (layer : MemoryLayer) (tokens : UInt64) (now : Nat) :
    Except BudgetError (BudgetCheck p) × BudgetTracker :=
  if t.queuedRequests.length ≥ config.queueMaxSize then (.error (.queueFull config.queueMaxSize), t)
  else
    let request : QueuedRequest :=
      ⟨layer, tokens, now, layer.displayName ++ "-" ++ toString t.queuedRequests.length⟩
    (.error (.exhausted "Request queued due to budget exhaustion"),
      { t with queuedRequests := t.queuedRequests ++ [request] })

def accept (t : BudgetTracker) (tokens : UInt64) (layer : MemoryLayer) (now : Nat → Nat) :
    Except BudgetError (BudgetCheck p) × BudgetTracker :=
  let checked := (t.recordUsage tokens layer now).check config (some layer) (fun n => now (n + 4))
  (.ok checked.1, checked.2)

def tryConsume (t : BudgetTracker) (tokens : UInt64) (layer : MemoryLayer) (now : Nat → Nat) :
    Except BudgetError (BudgetCheck p) × BudgetTracker :=
  let checked := t.check (p := p) config (some layer) now
  let later := fun n => now (n + 5)
  if checked.1.tokensAvailable < tokens then
    match config.exhaustedAction with
    | .reject => (.error (.requestTooLarge tokens checked.1.tokensAvailable), checked.2)
    | .queue => checked.2.queueRequest config layer tokens (later 0)
    | .allowWithWarning => checked.2.accept config tokens layer later
  else checked.2.accept config tokens layer later

end

end BudgetTracker

end Aeterna.Context
