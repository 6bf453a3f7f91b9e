import Aeterna.Lib.Runs
import Aeterna.Lib.Table
import Mathlib.Analysis.SpecialFunctions.Pow.Real

namespace Aeterna.Memory
open Lib (Table Throughout)
open List Lib.Table

structure DecayConfig (F : Type) where
  rates : Table String F
  archivalThreshold : F

structure DecayedEntry (F : Type) where
  memoryLayer : String
  importanceScore : F
  lastAccessedAt : Option Int
  updatedAt : Int
  deletedAt : Option Int

def DecayedEntry.lastTouched {F : Type} (entry : DecayedEntry F) : Int := entry.lastAccessedAt.getD entry.updatedAt

section
variable {F : Type} [Field F] [LinearOrder F]

def defaultDecayConfig : DecayConfig F where
  rates :=
    ⟨[("agent", 10 / 100), ("session", 5 / 100), ("user", 3 / 100), ("project", 1 / 100), ("team", 8 / 1000),
      ("org", 5 / 1000),
      ("tenant", 2 / 1000)], by simp⟩
  archivalThreshold := 1 / 100

def decayRateKey (layer : String) : String := "AETERNA_DECAY_RATE_" ++ layer.toUpper

/-- A rate that cannot be read, or is not between 0 and 1, is left at its default. -/
def DecayConfig.fromEnv (parse : String → Option F) (env : String → Option String) : DecayConfig F where
  rates := defaultDecayConfig.rates.update (fun layer defaultRate =>
    match (env (decayRateKey layer)).bind parse with
    | some rate => if 0 ≤ rate ∧ rate ≤ 1 then rate else defaultRate
    | none => defaultRate)
  archivalThreshold := ((env "AETERNA_DECAY_ARCHIVAL_THRESHOLD").bind parse).getD defaultDecayConfig.archivalThreshold

variable (power : F → F → F)

def calculateDecay (currentScore decayRate daysSinceLastAccess archivalThreshold : F) : F × Bool :=
  if daysSinceLastAccess ≤ 0 ∨ decayRate ≤ 0 then (currentScore, currentScore < archivalThreshold)
  else
    let newScore := currentScore * power (1 - decayRate) daysSinceLastAccess
    (newScore, newScore < archivalThreshold)

def decayEntry (layer : String) (rate archivalThreshold : F) (now : Int) (entry : DecayedEntry F) : DecayedEntry F :=
  if entry.memoryLayer = layer ∧ archivalThreshold < entry.importanceScore ∧ entry.deletedAt = none ∧
    entry.lastTouched < now - 86400 then
    { entry with importanceScore := entry.importanceScore * power (1 - rate) (((now - entry.lastTouched : Int) : F) / 86400) }
  else entry

/-- A run of the job: its time, and the layers whose `UPDATE` fails. -/
structure DecayRun where
  now : Int
  fails : String → Bool := fun _ => false

def decayLayer (archivalThreshold : F) (run : DecayRun) (t : Table String (DecayedEntry F)) (e : String × F) :
    Table String (DecayedEntry F) :=
  if run.fails e.1 then t else t.update (fun _ => decayEntry power e.1 e.2 archivalThreshold run.now)

def runImportanceDecay (config : DecayConfig F) (t : Table String (DecayedEntry F)) (run : DecayRun) :
    Table String (DecayedEntry F) :=
  config.rates.rows.foldl (decayLayer power config.archivalThreshold run) t

variable {power} {config : DecayConfig F} {t : Table String (DecayedEntry F)} {id : String}
  {entry : DecayedEntry F} {rate : F}

@[simp] theorem decayEntry_memoryLayer (layer : String) (threshold : F) (now : Int) :
    (decayEntry power layer rate threshold now entry).memoryLayer = entry.memoryLayer := by
  unfold decayEntry
  split <;> rfl

theorem get_decayLayer_others {threshold : F} {run : DecayRun} {rows : List (String × F)}
    (apart : entry.memoryLayer ∉ rows.map Prod.fst) (held : t.get id = some entry) :
    (rows.foldl (decayLayer power threshold run) t).get id = some entry := by
  induction rows generalizing t with
  | nil => exact held
  | cons e rest ih =>
    rw [map_cons, mem_cons, not_or] at apart
    apply ih apart.2
    unfold decayLayer
    split
    · exact held
    · rw [get_update, held, Option.map_some, decayEntry, if_neg (fun hit => apart.1 hit.1)]

theorem get_runImportanceDecay {run : DecayRun} (configured : config.rates.get entry.memoryLayer = some rate)
    (carried : run.fails entry.memoryLayer = false) (held : t.get id = some entry) :
    (runImportanceDecay power config t run).get id =
      some (decayEntry power entry.memoryLayer rate config.archivalThreshold run.now entry) := by
  obtain ⟨before, behind, split⟩ := append_of_mem (get_eq_some.mp configured)
  have unique := config.rates.unique
  rw [split, map_append, map_cons, nodup_middle, nodup_cons, mem_append, not_or] at unique
  obtain ⟨⟨notBefore, notBehind⟩, _⟩ := unique
  unfold runImportanceDecay
  rw [split, foldl_append, foldl_cons]
  have first : (before.foldl (decayLayer power config.archivalThreshold run) t).get id = some entry :=
    get_decayLayer_others notBefore held
  generalize before.foldl (decayLayer power config.archivalThreshold run) t = mid at first ⊢
  apply get_decayLayer_others
  · rw [decayEntry_memoryLayer]
    exact notBehind
  · unfold decayLayer
    rw [carried, if_neg Bool.false_ne_true, get_update, first]
    rfl

end

section
variable {parse : String → Option ℝ} {env : String → Option String} {t : Table String (DecayedEntry ℝ)} {id : String}
  {entry : DecayedEntry ℝ} {rate : ℝ}

theorem fromEnv_rate {layer : String} (configured : (DecayConfig.fromEnv parse env).rates.get layer = some rate) :
    0 ≤ rate ∧ rate ≤ 1 := by
  unfold DecayConfig.fromEnv at configured
  rw [get_update] at configured
  obtain ⟨defaultRate, held, made⟩ := Option.map_eq_some_iff.mp configured
  have bounds : 0 ≤ defaultRate ∧ defaultRate ≤ 1 := by
    have member := get_eq_some.mp held
    simp only [defaultDecayConfig, mem_cons, Prod.mk.injEq, not_mem_nil, or_false] at member
    rcases member with ⟨_, rfl⟩ | ⟨_, rfl⟩ | ⟨_, rfl⟩ | ⟨_, rfl⟩ | ⟨_, rfl⟩ | ⟨_, rfl⟩ | ⟨_, rfl⟩ <;> norm_num
  subst made
  split
  · split
    · assumption
    · exact bounds
  · exact bounds

noncomputable def daysSince (entry : DecayedEntry ℝ) (now : Int) : ℝ := ((now - entry.lastTouched : Int) : ℝ) / 86400

/-- What one run at a time leaves of a score of 1. -/
noncomputable def share (rate : ℝ) (entry : DecayedEntry ℝ) (now : Int) : ℝ := (1 - rate) ^ daysSince entry now

theorem daysSince_pos {now : Int} (due : entry.lastTouched + 86400 < now) : 0 < daysSince entry now := by
  have some : (0 : ℝ) < ((now - entry.lastTouched : Int) : ℝ) :=
    by exact_mod_cast (by omega : (0 : Int) < now - entry.lastTouched)
  unfold daysSince
  positivity

theorem calculateDecay_formula {now : Int} (bounds : 0 ≤ rate) (due : entry.lastTouched + 86400 < now)
    (score threshold : ℝ) :
    (calculateDecay Real.rpow score rate (daysSince entry now) threshold).1 = score * share rate entry now := by
  unfold calculateDecay
  by_cases none : rate ≤ 0
  · obtain rfl : rate = 0 := le_antisymm none bounds
    rw [if_pos (Or.inr none)]
    simp [share]
  · rw [if_neg (not_or.mpr ⟨not_le.mpr (daysSince_pos due), none⟩)]
    rfl

theorem score_of_runs {config : DecayConfig ℝ} {runs : List DecayRun}
    (configured : config.rates.get entry.memoryLayer = some rate)
    (live : entry.deletedAt = none) (carried : ∀ run ∈ runs, run.fails entry.memoryLayer = false)
    (due : ∀ run ∈ runs, entry.lastTouched + 86400 < run.now) (held : t.get id = some entry)
    (above : Throughout (fun t run => some (runImportanceDecay Real.rpow config t run))
      (fun t => ∀ row, t.get id = some row → config.archivalThreshold < row.importanceScore) t runs) :
    ((runs.foldl (runImportanceDecay Real.rpow config) t).get id).map DecayedEntry.importanceScore =
      some (entry.importanceScore * (runs.map (fun run => share rate entry run.now)).prod) := by
  induction runs generalizing t entry with
  | nil =>
    rw [foldl_nil, held]
    simp
  | cons run rest ih =>
    obtain ⟨now, later⟩ := (Lib.throughout_cons rfl).mp above
    have next : (runImportanceDecay Real.rpow config t run).get id = some
        (decayEntry Real.rpow entry.memoryLayer rate config.archivalThreshold run.now entry) :=
      get_runImportanceDecay configured (carried run mem_cons_self) held
    have dueNow := due run mem_cons_self
    have scaled : decayEntry Real.rpow entry.memoryLayer rate config.archivalThreshold run.now entry =
        { entry with importanceScore := entry.importanceScore * share rate entry run.now } :=
      if_pos ⟨rfl, now entry held, live, by omega⟩
    rw [scaled] at next
    have others := @ih _ { entry with importanceScore := entry.importanceScore * share rate entry run.now } configured live
      (fun other member => carried other (mem_cons_of_mem _ member))
        (fun other member => due other (mem_cons_of_mem _ member)) next later
    rw [foldl_cons, others, map_cons, prod_cons, ← mul_assoc]
    rfl

theorem prod_lt_one {shares : List ℝ} (filled : shares ≠ []) (each : ∀ x ∈ shares, 0 < x ∧ x < 1) :
    shares.prod < 1 := by
  have low : ∀ {l : List ℝ}, (∀ x ∈ l, 0 < x ∧ x < 1) → 0 < l.prod ∧ l.prod ≤ 1 := by
    intro l
    induction l with
    | nil => simp
    | cons x rest ih =>
      intro each
      obtain ⟨some, small⟩ := each x mem_cons_self
      obtain ⟨pos, le⟩ := ih (fun y member => each y (mem_cons_of_mem _ member))
      rw [prod_cons]
      exact ⟨mul_pos some pos, mul_le_one₀ small.le pos.le le⟩
  obtain ⟨x, rest, rfl⟩ := exists_cons_of_ne_nil filled
  obtain ⟨some, small⟩ := each x mem_cons_self
  obtain ⟨pos, le⟩ := low (fun y member => each y (mem_cons_of_mem _ member))
  rw [prod_cons]
  nlinarith

theorem shares_iff {runs : List DecayRun} {last : DecayRun} (bounds : 0 ≤ rate ∧ rate ≤ 1)
    (due : ∀ run ∈ runs ++ [last], entry.lastTouched + 86400 < run.now) (score : ℝ) :
    score * ((runs ++ [last]).map (fun run => share rate entry run.now)).prod = score * share rate entry last.now ↔
      runs = [] ∨ rate = 0 ∨ rate = 1 ∨ score = 0 := by
  have days : ∀ run ∈ runs ++ [last], 0 < daysSince entry run.now := fun run member => daysSince_pos (due run member)
  have final := days last (mem_append_right _ (mem_singleton_self _))
  rw [map_append, prod_append, map_singleton, prod_singleton]
  by_cases none : rate = 0
  · subst none
    simp [share]
  by_cases all : rate = 1
  · subst all
    simp [share, Real.zero_rpow final.ne']
  have base : 0 < 1 - rate ∧ 1 - rate < 1 := by
    constructor
    · exact sub_pos.mpr (lt_of_le_of_ne bounds.2 all)
    · linarith [lt_of_le_of_ne bounds.1 (Ne.symm none)]
  have each : ∀ run ∈ runs ++ [last], 0 < share rate entry run.now ∧ share rate entry run.now < 1 :=
    fun run member => ⟨Real.rpow_pos_of_pos base.1 _, Real.rpow_lt_one base.1.le base.2 (days run member)⟩
  have some := (each last (mem_append_right _ (mem_singleton_self _))).1
  constructor
  · intro same
    by_contra other
    simp only [not_or] at other
    obtain ⟨filled, _, _, positive⟩ := other
    have whole : (runs.map (fun run => share rate entry run.now)).prod = 1 := by
      have cancelled := mul_left_cancel₀ positive same
      exact mul_right_cancel₀ some.ne' (by rw [one_mul]; exact cancelled)
    refine absurd whole (ne_of_lt (prod_lt_one (by simpa using filled) (fun x member => ?_)))
    obtain ⟨run, inside, rfl⟩ := mem_map.mp member
    exact each run (mem_append_left _ inside)
  · rintro (rfl | zero | one | zero)
    · simp
    · exact absurd zero none
    · exact absurd one all
    · simp [zero]

/-- A score that stays above the threshold follows the formula after some runs exactly if there was one run
only, or the rate is 0 or 1, or the score is 0. -/
theorem decay_formula_iff (parse : String → Option ℝ) (env : String → Option String)
    (t : Table String (DecayedEntry ℝ)) (id : String)
    (entry : DecayedEntry ℝ) (rate : ℝ) (runs : List DecayRun) (last : DecayRun) (held : t.get id = some entry)
    (live : entry.deletedAt = none) (configured : (DecayConfig.fromEnv parse env).rates.get entry.memoryLayer =
      some rate)
    (carried : ∀ run ∈ runs ++ [last], run.fails entry.memoryLayer = false)
    (due : ∀ run ∈ runs ++ [last], entry.lastTouched + 86400 < run.now)
    (above : Throughout (fun t run => some (runImportanceDecay Real.rpow (DecayConfig.fromEnv parse env) t run))
      (fun t => ∀ row, t.get id = some row →
        (DecayConfig.fromEnv parse env).archivalThreshold < row.importanceScore) t (runs ++ [last])) :
    ((((runs ++ [last]).foldl (runImportanceDecay Real.rpow
      (DecayConfig.fromEnv parse env)) t).get id).map DecayedEntry.importanceScore =
        some (entry.importanceScore * share rate entry last.now) ∧
      entry.importanceScore * share rate entry last.now =
        (calculateDecay Real.rpow entry.importanceScore rate (daysSince entry last.now)
        (DecayConfig.fromEnv parse env).archivalThreshold).1) ↔
      runs = [] ∨ rate = 0 ∨ rate = 1 ∨ entry.importanceScore = 0 := by
  have bounds := fromEnv_rate configured
  have dueLast := due last (mem_append_right _ (mem_singleton_self _))
  rw [score_of_runs configured live carried due held above, Option.some.injEq]
  rw [and_iff_left (calculateDecay_formula bounds.1 dueLast _ _).symm]
  exact shares_iff bounds due entry.importanceScore

end

section
variable {rate threshold : ℝ}

/-- Only the score has changed, and it has not risen. -/
structure Decayed (threshold : ℝ) (old new : DecayedEntry ℝ) : Prop where
  rest : { old with importanceScore := new.importanceScore } = new
  lower : 0 ≤ old.importanceScore → 0 ≤ new.importanceScore ∧ new.importanceScore ≤ old.importanceScore
  still : old.deletedAt ≠ none ∨ old.importanceScore ≤ threshold → new = old

theorem Decayed.refl (entry : DecayedEntry ℝ) : Decayed threshold entry entry :=
  ⟨rfl, fun positive => ⟨positive, le_refl _⟩, fun _ => rfl⟩

theorem Decayed.trans {a b c : DecayedEntry ℝ} (first : Decayed threshold a b) (second : Decayed threshold b c) :
    Decayed threshold a c := by
  refine ⟨?_, fun positive => ?_, fun ends => ?_⟩
  · rw [← second.rest, ← first.rest]
  · obtain ⟨left, lower⟩ := first.lower positive
    exact ⟨(second.lower left).1, (second.lower left).2.trans lower⟩
  · obtain rfl := first.still ends
    exact second.still ends

theorem decayEntry_decayed (layer : String) (bounds : 0 ≤ rate ∧ rate ≤ 1) (now : Int) (entry : DecayedEntry ℝ) :
    Decayed threshold entry (decayEntry Real.rpow layer rate threshold now entry) := by
  unfold decayEntry
  split
  · rename_i due
    obtain ⟨-, above, live, late⟩ := due
    have whole : 0 ≤ now - entry.lastTouched := by omega
    have days : (0 : ℝ) ≤ (now - entry.lastTouched : Int) / 86400 := by positivity
    have part := Real.rpow_nonneg (sub_nonneg.mpr bounds.2) ((now - entry.lastTouched : Int) / 86400)
    have most := Real.rpow_le_one (sub_nonneg.mpr bounds.2) (by linarith) days
    refine ⟨rfl, fun positive => ⟨mul_nonneg positive part, mul_le_of_le_one_right positive most⟩, ?_⟩
    rintro (gone | low)
    · exact absurd live gone
    · exact absurd above (not_lt.mpr low)
  · exact .refl entry

def OnlyDecays (threshold : ℝ) (t t' : Table String (DecayedEntry ℝ)) : Prop :=
  ∀ id, Option.Rel (Decayed threshold) (t.get id) (t'.get id)

/-- No run raises a score, makes it negative, or touches what is archived or below the threshold. -/
theorem decay_only_lowers (parse : String → Option ℝ) (env : String → Option String)
    (t : Table String (DecayedEntry ℝ)) (runs : List DecayRun) :
    let config := DecayConfig.fromEnv parse env
    OnlyDecays config.archivalThreshold t (runs.foldl (runImportanceDecay Real.rpow config) t) := by
  intro config
  refine foldlRecOn runs _ (fun id => ?_) (fun t' kept run _ => ?_)
  · cases t.get id with
    | none => exact .none
    | some entry => exact .some (.refl entry)
  · refine foldlRecOn config.rates.rows _ kept (fun t' kept e member id => ?_)
    unfold decayLayer
    split
    · exact kept id
    · have row := kept id
      rw [get_update]
      generalize t.get id = old, t'.get id = held at row ⊢
      cases row with
      | none => exact .none
      | some decayed =>
        exact .some (decayed.trans (decayEntry_decayed e.1 (fromEnv_rate (get_eq_some.mpr member)) run.now _))

end

noncomputable def plainConfig : DecayConfig ℝ := DecayConfig.fromEnv (fun _ => none) (fun _ => none)

noncomputable def freshNote : DecayedEntry ℝ :=
  { memoryLayer := "agent", importanceScore := 1, lastAccessedAt := some 0, updatedAt := 0, deletedAt := none }

noncomputable def freshNotes : Table String (DecayedEntry ℝ) := insertOrIgnore "m1" freshNote .empty

def secondDay : DecayRun := { now := 172800 }

def thirdDay : DecayRun := { now := 259200 }

theorem freshNotes_held : freshNotes.get "m1" = some freshNote := by
  rw [freshNotes, get_insertOrIgnore]
  rfl

theorem plainConfig_agent : plainConfig.rates.get freshNote.memoryLayer = some (10 / 100) := by
  simp [plainConfig, DecayConfig.fromEnv, defaultDecayConfig, Table.get, update, freshNote]

theorem freshNotes_due : ∀ run ∈ [secondDay] ++ [thirdDay], freshNote.lastTouched + 86400 < run.now := by
  simp [secondDay, thirdDay, freshNote, DecayedEntry.lastTouched]

theorem freshNotes_carried : ∀ run ∈ [secondDay] ++ [thirdDay], run.fails freshNote.memoryLayer = false := by
  simp [secondDay, thirdDay]

theorem share_days (run : DecayRun) (days : ℕ) (passed : run.now = 86400 * days) :
    share (10 / 100) freshNote run.now = (90 / 100) ^ days := by
  have whole : daysSince freshNote run.now = days := by
    unfold daysSince
    rw [passed]
    simp [freshNote, DecayedEntry.lastTouched]
  unfold share
  rw [whole, Real.rpow_natCast]
  norm_num

theorem decayed_note (run : DecayRun) (days : ℕ) (score : ℝ) {t : Table String (DecayedEntry ℝ)}
    (passed : run.now = 86400 * days) (later : 1 < days) (carried : run.fails "agent" = false)
    (above : 1 / 100 < score) (held : t.get "m1" = some { freshNote with importanceScore := score }) :
    (runImportanceDecay Real.rpow plainConfig t run).get "m1" =
      some { freshNote with importanceScore := score * (90 / 100) ^ days } := by
  have next : (runImportanceDecay Real.rpow plainConfig t run).get "m1" =
      some (decayEntry Real.rpow "agent"
        (10 / 100) plainConfig.archivalThreshold run.now { freshNote with importanceScore := score }) :=
    get_runImportanceDecay plainConfig_agent carried held
  have due : freshNote.lastTouched < run.now - 86400 := by
    have zero : freshNote.lastTouched = 0 := rfl
    omega
  have scaled : decayEntry Real.rpow "agent"
      (10 / 100) plainConfig.archivalThreshold run.now { freshNote with importanceScore := score } =
      { freshNote with importanceScore := score * share (10 / 100) freshNote run.now } :=
    if_pos ⟨rfl, above, rfl, due⟩
  rw [share_days run days passed] at scaled
  exact next.trans (congrArg some scaled)

theorem freshNotes_above : Throughout (fun t run => some (runImportanceDecay Real.rpow plainConfig t run))
    (fun t => ∀ row, t.get "m1" = some row → plainConfig.archivalThreshold < row.importanceScore) freshNotes
      ([secondDay] ++ [thirdDay]) := by
  have threshold : plainConfig.archivalThreshold = 1 / 100 := rfl
  have two := decayed_note secondDay 2 1 rfl (by norm_num) rfl (by norm_num) freshNotes_held
  have three := decayed_note thirdDay 3 _ rfl (by norm_num) rfl (by norm_num) two
  refine Lib.throughout_iff_visited.mpr ⟨fun row held => ?_, fun reached member => ?_⟩
  · rw [freshNotes_held] at held
    cases held
    rw [threshold]
    norm_num [freshNote]
  · simp only [Lib.visited, cons_append, nil_append, mem_cons, not_mem_nil, or_false] at member
    rcases member with rfl | rfl
    · intro row held
      rw [two] at held
      cases held
      rw [threshold]
      norm_num
    · intro row held
      rw [three] at held
      cases held
      rw [threshold]
      norm_num

theorem decay_formula_iff_sample : (((([secondDay] ++ [thirdDay]).foldl
      (runImportanceDecay Real.rpow plainConfig) freshNotes).get "m1").map DecayedEntry.importanceScore =
        some (freshNote.importanceScore * share (10 / 100) freshNote thirdDay.now) ∧
      freshNote.importanceScore * share (10 / 100) freshNote thirdDay.now =
        (calculateDecay Real.rpow freshNote.importanceScore (10 / 100)
          (daysSince freshNote thirdDay.now) plainConfig.archivalThreshold).1) ↔
      [secondDay] = [] ∨ (10 / 100 : ℝ) = 0 ∨ (10 / 100 : ℝ) = 1 ∨ freshNote.importanceScore = 0 :=
  decay_formula_iff (fun _ => none) (fun _ => none) freshNotes "m1" freshNote (10 / 100)
    [secondDay] thirdDay freshNotes_held rfl plainConfig_agent
    freshNotes_carried freshNotes_due freshNotes_above

theorem decay_compounds : (((([secondDay] ++ [thirdDay]).foldl
      (runImportanceDecay Real.rpow plainConfig) freshNotes).get "m1").map DecayedEntry.importanceScore ≠
      some (freshNote.importanceScore * share (10 / 100) freshNote thirdDay.now)) := by
  have two := decayed_note secondDay 2 1 rfl (by norm_num) rfl (by norm_num) freshNotes_held
  have three := decayed_note thirdDay 3 _ rfl (by norm_num) rfl (by norm_num) two
  show ((runImportanceDecay Real.rpow plainConfig
    (runImportanceDecay Real.rpow plainConfig freshNotes secondDay) thirdDay).get "m1").map _ ≠ _
  rw [three, share_days thirdDay 3 rfl]
  norm_num [freshNote]

end Aeterna.Memory
