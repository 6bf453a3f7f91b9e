import Mathlib.Data.List.Basic

namespace Aeterna.Lib
open List

variable {σ α : Type}

def run (step : σ → α → Option σ) (s : σ) : List α → Option σ
  | [] => some s
  | label :: rest => (step s label).bind (fun next => run step next rest)

variable {step : σ → α → Option σ} {s next last : σ} {labels : List α}

variable {label : α} {P : σ → α → Prop} {I J : σ → Prop} {made : List α}

theorem run_cons : run step s (label :: labels) = some last ↔
    ∃ next, step s label = some next ∧ run step next labels = some last :=
  Option.bind_eq_some_iff

theorem run_append {first second : List α} : run step s (first ++ second) = some last ↔
    ∃ next, run step s first = some next ∧ run step next second = some last := by
  induction first generalizing s with
  | nil => exact ⟨fun ran => ⟨s, rfl, ran⟩, fun ⟨next, same, ran⟩ => Option.some.inj same ▸ ran⟩
  | cons label rest ih =>
    rw [cons_append, run_cons]
    simp only [run_cons, ih]
    exact ⟨fun ⟨a, one, b, others, ran⟩ => ⟨b, ⟨a, one, others⟩, ran⟩, fun ⟨b, ⟨a, one, others⟩, ran⟩ =>
      ⟨a, one, b, others, ran⟩⟩

theorem run_total {f : σ → α → σ} : run (fun s a => some (f s a)) s labels = some (labels.foldl f s) := by
  induction labels generalizing s with
  | nil => rfl
  | cons label rest ih => exact ih

/-- Each step of a run is one that meets a condition where it is taken. -/
def Along (step : σ → α → Option σ) (P : σ → α → Prop) (s : σ) : List α → Prop
  | [] => True
  | label :: rest => P s label ∧ ∀ next, step s label = some next → Along step P next rest

instance instDecidableAlong {P : σ → α → Prop} [∀ s label, Decidable (P s label)] : (s : σ) → (labels : List α) →
    Decidable (Along step P s labels)
  | _, [] => .isTrue trivial
  | s, label :: rest =>
    have : Decidable (∀ next, step s label = some next → Along step P next rest) :=
      match step s label with
      | none => .isTrue nofun
      | some next =>
        have := instDecidableAlong (P := P) next rest
        decidable_of_iff (Along step P next rest) ⟨fun along _ same => Option.some.inj same ▸ along,
          fun each => each next rfl⟩
    inferInstanceAs (Decidable (_ ∧ _))

theorem along_mono {Q : σ → α → Prop} (weaker : ∀ s label, P s label → Q s label) (along : Along step P s labels) :
    Along step Q s labels := by
  induction labels generalizing s with
  | nil => trivial
  | cons label rest ih => exact ⟨weaker s label along.1, fun next first => ih (along.2 next first)⟩

theorem along_of_forall (each : ∀ s label, P s label) : Along step P s labels := by
  induction labels generalizing s with
  | nil => trivial
  | cons label rest ih => exact ⟨each s label, fun _ _ => ih⟩

theorem along_iff {Q : σ → α → Prop} (same : ∀ s label, I s → (P s label ↔ Q s label))
    (kept : ∀ s label next, I s → P s label → step s label = some next → I next) (holds : I s) :
    Along step P s labels ↔ Along step Q s labels := by
  induction labels generalizing s with
  | nil => exact Iff.rfl
  | cons label rest ih =>
    constructor
    · rintro ⟨met, later⟩
      exact ⟨(same s label holds).mp met, fun next first => (ih (kept s label next holds met first)).mp (later next first)⟩
    · rintro ⟨met, later⟩
      have met := (same s label holds).mpr met
      exact ⟨met, fun next first => (ih (kept s label next holds met first)).mpr (later next first)⟩

theorem run_keeps (kept : ∀ s label next, I s → P s label → step s label = some next → I next) (holds : I s)
    (along : Along step P s labels) (ran : run step s labels = some next) : I next := by
  induction labels generalizing s with
  | nil =>
    cases ran
    exact holds
  | cons label rest ih =>
    obtain ⟨between, first, ran⟩ := run_cons.mp ran
    obtain ⟨met, along⟩ := along
    exact ih (kept s label between holds met first) (along between first) ran

theorem run_relates {R : σ → σ → Prop} (refl : ∀ s, R s s) (trans : ∀ {a b c}, R a b → R b c → R a c)
    (each : ∀ {s label next}, step s label = some next → R s next) (ran : run step s labels = some next) :
      R s next := by
  induction labels generalizing s with
  | nil =>
    cases ran
    exact refl _
  | cons label rest ih =>
    obtain ⟨between, first, ran⟩ := run_cons.mp ran
    exact trans (each first) (ih ran)

theorem along_iff_forall {P : α → Prop} (ran : run step s labels = some last) :
    Along step (fun _ label => P label) s labels ↔ ∀ label ∈ labels, P label := by
  induction labels generalizing s with
  | nil => exact ⟨fun _ _ absent => absurd absent not_mem_nil, fun _ => trivial⟩
  | cons label rest ih =>
    obtain ⟨between, first, ran⟩ := run_cons.mp ran
    rw [forall_mem_cons, ← ih ran]
    constructor
    · rintro ⟨now, later⟩
      exact ⟨now, later between first⟩
    · rintro ⟨now, later⟩
      refine ⟨now, fun reached step₁ => ?_⟩
      rw [first] at step₁
      cases step₁
      exact later

def Throughout (step : σ → α → Option σ) (I : σ → Prop) (s : σ) (labels : List α) : Prop :=
  ∀ done rest reached, labels = done ++ rest → run step s done = some reached → I reached

theorem throughout_cons (first : step s label = some next) :
    Throughout step I s (label :: labels) ↔ I s ∧ Throughout step I next labels := by
  constructor
  · intro held
    refine ⟨held [] _ s rfl rfl, fun done rest reached split ran => ?_⟩
    exact held (label :: done) rest reached (by rw [split]; rfl) (run_cons.mpr ⟨next, first, ran⟩)
  · rintro ⟨now, later⟩ done rest reached split ran
    cases done with
    | nil =>
      cases ran
      exact now
    | cons head done =>
      cases split
      obtain ⟨between, step₁, ran⟩ := run_cons.mp ran
      rw [first] at step₁
      cases step₁
      exact later done rest reached rfl ran

theorem throughout_cons_none (stuck : step s label = none) : Throughout step I s (label :: labels) ↔ I s := by
  constructor
  · exact fun held => held [] _ s rfl rfl
  · intro now done rest reached split ran
    cases done with
    | nil =>
      cases ran
      exact now
    | cons head done =>
      cases split
      obtain ⟨between, step₁, _⟩ := run_cons.mp ran
      rw [stuck] at step₁
      cases step₁

theorem throughout_of_along (sound : ∀ s, J s → I s)
    (kept : ∀ s label next, J s → P s label → step s label = some next → J next) (holds : J s)
    (along : Along step P s labels) :
    Throughout step I s labels := by
  induction labels generalizing s with
  | nil =>
    intro done rest reached split ran
    obtain ⟨rfl, rfl⟩ := append_eq_nil_iff.mp split.symm
    cases ran
    exact sound _ holds
  | cons label rest ih =>
    obtain ⟨met, along⟩ := along
    cases first : step s label with
    | none => exact (throughout_cons_none first).mpr (sound s holds)
    | some next => exact (throughout_cons first).mpr ⟨sound s holds, ih (kept s label next holds met first)
        (along next first)⟩

theorem throughout_iff_possible (sound : ∀ {s}, J s → I s)
    (kept : ∀ {s label next}, J s → P s label → step s label = some next → J next)
    (forced : ∀ {s label next}, J s → step s label = some next → I next → P s label) (holds : J s) :
    Throughout step I s labels ↔ Along step (fun s label => (step s label).isSome → P s label) s labels := by
  induction labels generalizing s with
  | nil =>
    refine ⟨fun _ => trivial, fun _ done rest reached split ran => ?_⟩
    obtain ⟨rfl, rfl⟩ := append_eq_nil_iff.mp split.symm
    cases ran
    exact sound holds
  | cons label rest ih =>
    cases first : step s label with
    | none =>
      rw [throughout_cons_none first]
      refine ⟨fun _ => ⟨fun possible => ?_, fun after step₁ => ?_⟩, fun _ => sound holds⟩
      · rw [first] at possible
        cases possible
      · rw [first] at step₁
        cases step₁
    | some between =>
      rw [throughout_cons first]
      constructor
      · rintro ⟨_, later⟩
        have now : I between := later [] _ between rfl rfl
        have met := forced holds first now
        refine ⟨fun _ => met, fun after step₁ => ?_⟩
        rw [first] at step₁
        cases step₁
        exact (ih (kept holds met first)).mp later
      · rintro ⟨met, along⟩
        have met := met (by rw [first]; rfl)
        exact ⟨sound holds, (ih (kept holds met first)).mpr (along between first)⟩

theorem along_possible (ran : run step s labels = some last) :
    Along step (fun s label => (step s label).isSome → P s label) s labels ↔ Along step P s labels := by
  induction labels generalizing s with
  | nil => exact Iff.rfl
  | cons label rest ih =>
    obtain ⟨between, first, ran⟩ := run_cons.mp ran
    have possible : (step s label).isSome := by rw [first]; rfl
    constructor
    · rintro ⟨now, later⟩
      refine ⟨now possible, fun reached step₁ => ?_⟩
      rw [first] at step₁
      cases step₁
      exact (ih ran).mp (later between first)
    · rintro ⟨now, later⟩
      refine ⟨fun _ => now, fun reached step₁ => ?_⟩
      rw [first] at step₁
      cases step₁
      exact (ih ran).mpr (later between first)

theorem throughout_iff (sound : ∀ {s}, J s → I s)
    (kept : ∀ {s label next}, J s → P s label → step s label = some next → J next)
    (forced : ∀ {s label next}, J s → step s label = some next → I next → P s label) (holds : J s)
    (ran : run step s labels = some last) : Throughout step I s labels ↔ Along step P s labels :=
  (throughout_iff_possible sound kept forced holds).trans (along_possible ran)

/-- The states that a run reaches, up to the first step that is impossible. -/
def visited (step : σ → α → Option σ) (s : σ) : List α → List σ
  | [] => []
  | label :: rest =>
    match step s label with
    | some next => next :: visited step next rest
    | none => []

theorem throughout_iff_visited : Throughout step I s labels ↔ I s ∧ ∀ reached ∈ visited step s labels, I reached := by
  induction labels generalizing s with
  | nil =>
    constructor
    · exact fun held => ⟨held [] [] s rfl rfl, fun _ absent => absurd absent not_mem_nil⟩
    · rintro ⟨now, _⟩ done rest reached split ran
      obtain ⟨rfl, rfl⟩ := append_eq_nil_iff.mp split.symm
      cases ran
      exact now
  | cons label rest ih =>
    unfold visited
    cases first : step s label with
    | none =>
      rw [throughout_cons_none first]
      exact ⟨fun now => ⟨now, fun _ absent => absurd absent not_mem_nil⟩, And.left⟩
    | some next => rw [throughout_cons first, ih, forall_mem_cons]

def taken (step : σ → α → Option σ) (s : σ) : List α → List α
  | [] => []
  | label :: rest =>
    match step s label with
    | some next => label :: taken step next rest
    | none => []

theorem taken_of_run (ran : run step s labels = some last) : taken step s labels = labels := by
  induction labels generalizing s with
  | nil => rfl
  | cons label rest ih =>
    obtain ⟨next, first, ran⟩ := run_cons.mp ran
    unfold taken
    rw [first]
    exact congrArg (label :: ·) (ih ran)

def recorded (step : σ → α → Option σ) (s : σ × List α) (label : α) : Option (σ × List α) :=
  (step s.1 label).map (fun next => (next, s.2 ++ [label]))

theorem recorded_eq_some {reached : σ × List α} :
    recorded step (s, made) label = some reached ↔ ∃ next, step s label = some next ∧
      reached = (next, made ++ [label]) := by
  rw [recorded, Option.map_eq_some_iff]
  exact ⟨fun ⟨next, first, same⟩ => ⟨next, first, same.symm⟩, fun ⟨next, first, same⟩ => ⟨next, first, same.symm⟩⟩

theorem run_recorded (ran : run step s labels = some last) :
    run (recorded step) (s, made) labels = some (last, made ++ labels) := by
  induction labels generalizing s made with
  | nil =>
    cases ran
    rw [append_nil]
    rfl
  | cons label rest ih =>
    obtain ⟨between, first, ran⟩ := run_cons.mp ran
    have later : run (recorded step) (between, made ++ [label]) rest = some (last, made ++ [label] ++ rest) := ih ran
    rw [append_assoc] at later
    exact run_cons.mpr ⟨_, recorded_eq_some.mpr ⟨between, first, rfl⟩, later⟩

theorem along_recorded_iff {R : α → α → Prop} (ran : run step s labels = some last) :
    Along (recorded step) (fun state label => ∀ earlier ∈ state.2, R earlier label) (s, made) labels ↔
      (∀ earlier ∈ made, ∀ label ∈ labels, R earlier label) ∧ labels.Pairwise R := by
  induction labels generalizing s made with
  | nil => exact ⟨fun _ => ⟨fun _ _ _ member => absurd member not_mem_nil, .nil⟩, fun _ => trivial⟩
  | cons label rest ih =>
    obtain ⟨between, first, ran⟩ := run_cons.mp ran
    have next : Along _ _ (between, made ++ [label]) rest ↔ _ := ih ran
    rw [pairwise_cons]
    constructor
    · rintro ⟨now, later⟩
      obtain ⟨before, ordered⟩ := next.mp (later _ (recorded_eq_some.mpr ⟨between, first, rfl⟩))
      refine ⟨fun earlier member other inside => ?_, fun other inside => ?_, ordered⟩
      · rcases mem_cons.mp inside with rfl | inside
        · exact now earlier member
        · exact before earlier (mem_append_left _ member) other inside
      · exact before label (mem_append_right _ (mem_singleton_self _)) other inside
    · rintro ⟨before, here, ordered⟩
      refine ⟨fun earlier member => before earlier member label mem_cons_self, fun reached step₁ => ?_⟩
      obtain ⟨found, step₂, rfl⟩ := recorded_eq_some.mp step₁
      rw [first] at step₂
      cases step₂
      refine next.mpr ⟨fun earlier member other inside => ?_, ordered⟩
      rcases mem_append.mp member with old | new
      · exact before earlier old other (mem_cons_of_mem _ inside)
      · rw [mem_singleton.mp new]
        exact here other inside

theorem taken_again (again : ∀ label ∈ taken step s labels, step last label = some last)
    (ran : run step s (taken step s labels) = some last) :
    run step last (taken step last labels) = some last := by
  induction labels generalizing s with
  | nil => rfl
  | cons label rest ih =>
    unfold taken at again ran ⊢
    cases first : step s label with
    | none =>
      rw [first] at ran
      cases ran
      rw [first]
      rfl
    | some next =>
      rw [first] at again ran
      obtain ⟨between, same, ran⟩ := run_cons.mp ran
      cases first.symm.trans same
      obtain ⟨now, later⟩ := List.forall_mem_cons.mp again
      rw [now]
      exact run_cons.mpr ⟨last, now, ih later ran⟩

end Aeterna.Lib
