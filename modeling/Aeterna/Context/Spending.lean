import Mathlib.Order.Monotone.Basic
import Aeterna.Context.Budget

namespace Aeterna.Context
open Lib (FixedWindow)
open Lib.FixedWindow (spentSince)

structure Clock where
  reading : Nat → Nat
  monotone : Monotone reading

def Clock.since (clock : Clock) (ticks n : Nat) : Nat := clock.reading (ticks + n)

theorem Clock.since_le (clock : Clock) {ticks later m n : Nat} (order : ticks + m ≤ later + n) :
    clock.since ticks m ≤ clock.since later n := clock.monotone order

structure Acceptance where
  tokens : UInt64
  layer : MemoryLayer
  (dailyAt hourlyAt layerAt : Nat)

structure Spending where
  tracker : BudgetTracker
  accepted : List Acceptance
  ticks : Nat

abbrev Entries := List (Nat × Nat)

namespace Spending

def dailyLog (s : Spending) : Entries := s.accepted.map (fun a => (a.dailyAt, a.tokens.toNat))
def hourlyLog (s : Spending) : Entries := s.accepted.map (fun a => (a.hourlyAt, a.tokens.toNat))
def layerLog (s : Spending) (layer : MemoryLayer) : Entries :=
  (s.accepted.filter (fun a => a.layer = layer)).map (fun a => (a.layerAt, a.tokens.toNat))

section
variable (p : Percentages) (config : BudgetTrackerConfig) (clock : Clock)

def start : Spending where
  tracker := BudgetTracker.new (clock.since 0)
  accepted := []
  ticks := 2

def answer (s : Spending) (call : UInt64 × MemoryLayer) : Except BudgetError (BudgetCheck p) × BudgetTracker :=
  s.tracker.tryConsume config call.1 call.2 (clock.since s.ticks)

/-- A call reads the clock fourteen times at most. -/
def step (s : Spending) (call : UInt64 × MemoryLayer) : Spending :=
  let now := clock.since s.ticks
  let answered := s.answer p config clock call
  { tracker := answered.2
    accepted := match answered.1 with
      | .ok _ => s.accepted ++ [⟨call.1, call.2, now 5, now 6, now 8⟩]
      | .error _ => s.accepted
    ticks := s.ticks + 14 }

def run (calls : List (UInt64 × MemoryLayer)) : Spending := calls.foldl (step p config clock) (start clock)

structure WithinLimits (s : Spending) : Prop where
  daily : spentSince s.tracker.dailyUsage.windowStart s.dailyLog ≤ config.budget.dailyTokenLimit.toNat
  hourly : spentSince s.tracker.hourlyUsage.windowStart s.hourlyLog ≤ config.budget.hourlyTokenLimit.toNat
  layer : ∀ layer, spentSince ((s.tracker.layerUsage layer).elim 0 UsageWindow.windowStart) (s.layerLog layer) ≤
    (BudgetTracker.layerLimit config layer).toNat

end

end Spending

def UsageWindow.RolledFrom (w old : UsageWindow) (duration now : Nat) : Prop :=
  w = old ∨ duration ≤ now - old.windowStart ∧ w = ⟨0, now⟩

structure BudgetTracker.SameUsage (after before : BudgetTracker) (now : Nat → Nat) : Prop where
  daily : after.dailyUsage.RolledFrom before.dailyUsage dailyWindowSecs (now 0)
  hourly : after.hourlyUsage.RolledFrom before.hourlyUsage hourlyWindowSecs (now 1)
  dailyRead : ∀ instant, now 0 ≤ instant →
    after.dailyUsage.used dailyWindowSecs instant = before.dailyUsage.used dailyWindowSecs instant
  hourlyRead : ∀ instant, now 1 ≤ instant →
    after.hourlyUsage.used hourlyWindowSecs instant = before.hourlyUsage.used hourlyWindowSecs instant
  layer : after.layerUsage = before.layerUsage

structure UsageWindow.Sound (w : UsageWindow) (duration : Nat) (limit : UInt64) (log : Entries) (now : Nat) :
    Prop where
  counts : w.window.Counts duration log now
  bounded : w.window.used ≤ limit.toNat

namespace UsageWindow
variable {w : UsageWindow} {duration read now : Nat} {limit tokens : UInt64} {log : Entries}

theorem Sound.new (duration : Nat) (limit : UInt64) (now : Nat) : (UsageWindow.new now).Sound duration limit [] now :=
  ⟨FixedWindow.Counts.fresh duration now, Nat.zero_le _⟩

theorem Sound.later (sound : w.Sound duration limit log read) (order : read ≤ now) : w.Sound duration limit log now :=
  ⟨sound.counts.later order, sound.bounded⟩

theorem Sound.resetIfExpired (sound : w.Sound duration limit log now) :
    (w.resetIfExpired duration now).Sound duration limit log now := by
  obtain ⟨counts, bounded⟩ := sound
  constructor
  · rw [window_resetIfExpired]
    exact counts.roll
  · rw [window_resetIfExpired]
    exact FixedWindow.roll_le bounded

theorem Sound.record (positive : 0 < duration) (sound : w.Sound duration limit log now) (order : read ≤ now)
    (fits : tokens ≤ saturatingSub limit (w.used duration read)) :
    (w.record tokens duration now).Sound duration limit (log ++ [(now, tokens.toNat)]) now := by
  obtain ⟨counts, bounded⟩ := sound
  have room := UInt64.le_iff_toNat_le.mp fits
  rw [toNat_saturatingSub, window_used] at room
  have below := FixedWindow.add_le bounded order room
  constructor
  · rw [window_record w below]
    exact counts.add positive tokens.toNat
  · rw [window_record w below]
    exact below

theorem Sound.spent_le (sound : w.Sound duration limit log now) : spentSince w.windowStart log ≤ limit.toNat := by
  have spent : spentSince w.windowStart log = w.window.used := sound.counts.spent
  rw [spent]
  exact sound.bounded

theorem used_resetIfExpired (order : read ≤ now) :
    (w.resetIfExpired duration read).used duration now = w.used duration now := by
  apply UInt64.toNat_inj.mp
  rw [window_used, window_used, window_resetIfExpired, FixedWindow.reading_roll order]

theorem resetIfExpired_rolled (w : UsageWindow) (duration now : Nat) :
    (w.resetIfExpired duration now).RolledFrom w duration now := by
  unfold UsageWindow.resetIfExpired
  split
  · rename_i expired
    exact .inr ⟨expired, rfl⟩
  · exact .inl rfl

end UsageWindow

namespace BudgetTracker
variable {p : Percentages} {config : BudgetTrackerConfig}

variable {t : BudgetTracker} {layer : MemoryLayer}

theorem fits_of_available {tokens : UInt64} {now : Nat → Nat}
    (available : ¬ (t.check (p := p) config (some layer) now).1.tokensAvailable < tokens) :
    tokens ≤ saturatingSub config.budget.dailyTokenLimit
        ((t.dailyUsage.resetIfExpired dailyWindowSecs (now 0)).used dailyWindowSecs (now 2)) ∧
      tokens ≤ saturatingSub config.budget.hourlyTokenLimit
        ((t.hourlyUsage.resetIfExpired hourlyWindowSecs (now 1)).used hourlyWindowSecs (now 3)) ∧
      tokens ≤ saturatingSub (layerLimit config layer) (t.layerUsed layer (now 4)) := by
  have below := UInt64.not_lt.mp available
  obtain ⟨windows, ofLayer⟩ := Std.le_min_iff.mp below
  obtain ⟨daily, hourly⟩ := Std.le_min_iff.mp windows
  exact ⟨daily, hourly, ofLayer⟩

theorem tryConsume_error (rejects : config.exhaustedAction = .reject) {tokens : UInt64}
    {now : Nat → Nat} {error : BudgetError}
    (refused : (t.tryConsume (p := p) config tokens layer now).1 = .error error) :
    (t.tryConsume (p := p) config tokens layer now).2 = (t.check (p := p) config (some layer) now).2 := by
  by_cases short : (t.check (p := p) config (some layer) now).1.tokensAvailable < tokens
  · simp only [tryConsume, if_pos short, rejects]
  · simp only [tryConsume, if_neg short] at refused
    cases refused

theorem tryConsume_ok (rejects : config.exhaustedAction = .reject) {tokens : UInt64}
    {now : Nat → Nat} {checked : BudgetCheck p}
    (accepted : (t.tryConsume (p := p) config tokens layer now).1 = .ok checked) :
    ¬ (t.check (p := p) config (some layer) now).1.tokensAvailable < tokens ∧
      (t.tryConsume (p := p) config tokens layer now).2 =
        (((t.check (p := p) config (some layer) now).2.recordUsage tokens layer (fun n => now (n + 5))).check (p := p)
          config (some layer) (fun n => now (n + 9))).2 := by
  by_cases short : (t.check (p := p) config (some layer) now).1.tokensAvailable < tokens
  · simp only [tryConsume, if_pos short, rejects] at accepted
    cases accepted
  · refine ⟨short, ?_⟩
    simp only [tryConsume, if_neg short, accept]

theorem check_sameUsage (t : BudgetTracker) (layer : Option MemoryLayer) (now : Nat → Nat) :
    (t.check (p := p) config layer now).2.SameUsage t now where
  daily := UsageWindow.resetIfExpired_rolled t.dailyUsage dailyWindowSecs (now 0)
  hourly := UsageWindow.resetIfExpired_rolled t.hourlyUsage hourlyWindowSecs (now 1)
  dailyRead := fun _ order => UsageWindow.used_resetIfExpired order
  hourlyRead := fun _ order => UsageWindow.used_resetIfExpired order
  layer := rfl

end BudgetTracker

namespace Spending
variable {p : Percentages} {config : BudgetTrackerConfig} {clock : Clock}

def LayerKept (config : BudgetTrackerConfig) (window : Option UsageWindow) (layer : MemoryLayer) (log : Entries)
    (now : Nat) : Prop :=
  (window = none ∧ log = []) ∨
    ∃ w, window = some w ∧ w.Sound dailyWindowSecs (BudgetTracker.layerLimit config layer) log now

structure Kept (config : BudgetTrackerConfig) (s : Spending) (now : Nat) : Prop where
  daily : s.tracker.dailyUsage.Sound dailyWindowSecs config.budget.dailyTokenLimit s.dailyLog now
  hourly : s.tracker.hourlyUsage.Sound hourlyWindowSecs config.budget.hourlyTokenLimit s.hourlyLog now
  layer : ∀ layer, LayerKept config (s.tracker.layerUsage layer) layer (s.layerLog layer) now

theorem LayerKept.later {window : Option UsageWindow} {layer : MemoryLayer} {log : Entries} {read now : Nat}
    (kept : LayerKept config window layer log read) (order : read ≤ now) : LayerKept config window layer log now := by
  rcases kept with blank | ⟨w, present, sound⟩
  · exact .inl blank
  · exact .inr ⟨w, present, sound.later order⟩

theorem LayerKept.record {window : Option UsageWindow} {layer : MemoryLayer} {log : Entries} {tokens : UInt64}
    {read made now : Nat} (kept : LayerKept config window layer log read) (first : read ≤ made) (second : made ≤ now)
    (fits : tokens ≤ saturatingSub (BudgetTracker.layerLimit config layer)
      ((window.map (fun w => w.used dailyWindowSecs read)).getD 0)) :
    ((window.getD (UsageWindow.new made)).record tokens dailyWindowSecs now).Sound dailyWindowSecs
      (BudgetTracker.layerLimit config layer) (log ++ [(now, tokens.toNat)]) now := by
  rcases kept with ⟨rfl, rfl⟩ | ⟨w, rfl, sound⟩
  · have fresh := UsageWindow.Sound.new dailyWindowSecs (BudgetTracker.layerLimit config layer) made
    refine (fresh.later second).record (by decide) second ?_
    have blank : (UsageWindow.new made).used dailyWindowSecs made = 0 := by
      unfold UsageWindow.used UsageWindow.new
      split <;> rfl
    show tokens ≤ saturatingSub _ ((UsageWindow.new made).used dailyWindowSecs made)
    rw [blank]
    exact fits
  · exact (sound.later (Nat.le_trans first second)).record (by decide) (Nat.le_trans first second) fits

theorem start_kept (config : BudgetTrackerConfig) (clock : Clock) :
    (start clock).Kept config (clock.since (start clock).ticks 0) where
  daily := (UsageWindow.Sound.new dailyWindowSecs _ (clock.since 0 0)).later (clock.since_le (by simp))
  hourly := (UsageWindow.Sound.new hourlyWindowSecs _ (clock.since 0 1)).later (clock.since_le (by simp [start]))
  layer := fun _ => .inl ⟨rfl, rfl⟩

section
variable (s : Spending) (a : Acceptance) (tracker : BudgetTracker) (ticks : Nat)

theorem dailyLog_concat : (Spending.mk tracker (s.accepted ++ [a]) ticks).dailyLog =
    s.dailyLog ++ [(a.dailyAt, a.tokens.toNat)] := by
  simp [dailyLog]

theorem hourlyLog_concat : (Spending.mk tracker (s.accepted ++ [a]) ticks).hourlyLog =
    s.hourlyLog ++ [(a.hourlyAt, a.tokens.toNat)] := by
  simp [hourlyLog]

theorem layerLog_concat (layer : MemoryLayer) : (Spending.mk tracker (s.accepted ++ [a]) ticks).layerLog layer =
    if a.layer = layer then s.layerLog layer ++ [(a.layerAt, a.tokens.toNat)] else s.layerLog layer := by
  by_cases own : a.layer = layer
  · simp [layerLog, List.filter_append, own]
  · simp [layerLog, List.filter_append, own]

end

theorem step_kept (rejects : config.exhaustedAction = .reject) (s : Spending) (call : UInt64 × MemoryLayer)
    (kept : s.Kept config (clock.since s.ticks 0)) :
    (s.step p config clock call).Kept config (clock.since (s.step p config clock call).ticks 0) := by
  obtain ⟨daily, hourly, layer⟩ := kept
  have order : ∀ m n, m ≤ n → clock.since s.ticks m ≤ clock.since s.ticks n :=
    fun m n le => clock.since_le (by omega)
  have done : ∀ m, m ≤ 14 → clock.since s.ticks m ≤ clock.since (s.step p config clock call).ticks 0 :=
    fun m le => clock.since_le (by show s.ticks + m ≤ s.ticks + 14 + 0; omega)
  have checkedDaily := daily.resetIfExpired
  have checkedHourly := (hourly.later (order 0 1 (by omega))).resetIfExpired
  cases answered : (s.answer p config clock call).1 with
  | error error =>
    have after : (s.answer p config clock call).2 = _ := BudgetTracker.tryConsume_error rejects answered
    have shape : s.step p config clock call = ⟨(s.answer p config clock call).2, s.accepted, s.ticks + 14⟩ := by
      simp only [step, answered]
    rw [shape, after]
    exact ⟨checkedDaily.later (done 0 (by omega)), checkedHourly.later (done 1 (by omega)),
      fun other => (layer other).later (done 0 (by omega))⟩
  | ok checked =>
    obtain ⟨available, after⟩ := BudgetTracker.tryConsume_ok rejects answered
    obtain ⟨dailyFits, hourlyFits, layerFits⟩ := BudgetTracker.fits_of_available available
    have shape : s.step p config clock call = ⟨(s.answer p config clock call).2,
        s.accepted ++ [⟨call.1, call.2, clock.since s.ticks 5, clock.since s.ticks 6, clock.since s.ticks 8⟩],
        s.ticks + 14⟩ := by
      simp only [step, answered]
    have chargedDaily := (checkedDaily.later (order 0 5 (by omega))).record (by decide)
        (order 2 5 (by omega)) dailyFits
    have chargedHourly := (checkedHourly.later (order 1 6 (by omega))).record (by decide)
        (order 3 6 (by omega)) hourlyFits
    have chargedLayer := ((layer call.2).later (order 0 4 (by omega))).record (order 4 7 (by omega))
      (order 7 8 (by omega)) layerFits
    have nextDaily := (chargedDaily.later (order 5 9 (by omega))).resetIfExpired
    have nextHourly := (chargedHourly.later (order 6 10 (by omega))).resetIfExpired
    rw [shape, show (s.answer p config clock call).2 = _ from after]
    constructor
    · rw [dailyLog_concat]
      exact nextDaily.later (done 9 (by omega))
    · rw [hourlyLog_concat]
      exact nextHourly.later (done 10 (by omega))
    · intro other
      rw [layerLog_concat]
      by_cases own : call.2 = other
      · subst own
        rw [if_pos rfl]
        refine .inr ⟨_, Function.update_self .., ?_⟩
        exact chargedLayer.later (done 8 (by omega))
      · rw [if_neg own]
        have same := (layer other).later (done 0 (by omega))
        refine (congrArg (LayerKept config · other (s.layerLog other) _) ?_).mpr same
        exact Function.update_of_ne (Ne.symm own) ..

theorem run_kept (rejects : config.exhaustedAction = .reject) (calls : List (UInt64 × MemoryLayer)) :
    (run p config clock calls).Kept config (clock.since (run p config clock calls).ticks 0) := by
  induction calls using List.reverseRecOn with
  | nil => exact start_kept config clock
  | append_singleton earlier call ih =>
    rw [run, List.foldl_append]
    exact step_kept rejects _ call ih

theorem Kept.withinLimits {s : Spending} {now : Nat} (kept : s.Kept config now) : s.WithinLimits config where
  daily := kept.daily.spent_le
  hourly := kept.hourly.spent_le
  layer := by
    intro layer
    rcases kept.layer layer with ⟨absent, blank⟩ | ⟨w, present, sound⟩
    · rw [blank]
      exact Nat.zero_le _
    · rw [present]
      exact sound.spent_le

end Spending

section Samples

def exactPercent : Percentages where
  P := Rat
  percent := fun used limit => (used.toNat : Rat) / limit.toNat * 100
  atLeast := fun share threshold => threshold.toNat ≤ share

def everyMinute : Clock where
  reading := fun n => n * 60
  monotone := fun _ _ le => Nat.mul_le_mul_right 60 le

def twoRequests : List (UInt64 × MemoryLayer) := [(60000, .project), (60000, .project)]

example : (Spending.run exactPercent BudgetTrackerConfig.default everyMinute twoRequests).accepted.length = 1 := by
  decide +kernel

end Samples

end Aeterna.Context
