import Mathlib.Logic.Function.Iterate

/-!
Two clients of a record that is kept on disk and in a cache.
-/

namespace Aeterna.Lib
open Function

structure Registers (S : Type) where
  (cache disk : Option S)

inductive SaveOutcome where
  | saved
  | failed (landed : Bool)
  deriving DecidableEq

structure Client (S : Type) where
  loads : Bool
  work : S → Option (S × SaveOutcome)

inductive Phase (S : Type) where
  | start
  | missed
  | fetched (s : S)
  | ready (s : S)
  | saving (s : S) (outcome : SaveOutcome)
  | publishing (s : S)
  | finished

variable {S : Type}

namespace Phase

def isStart : Phase S → Bool
  | start => true
  | _ => false

theorem eq_start {phase : Phase S} (start : phase.isStart = true) : phase = .start := by
  cases phase with
  | start => rfl
  | _ => cases start

def lands : Phase S → Bool
  | publishing _ | saving _ .saved | saving _ (.failed true) => true
  | _ => false

/-- The next step writes to the cache or the disk. -/
def writes : Phase S → Bool
  | fetched _ => true
  | phase => phase.lands

end Phase

section
variable (blank : S)

def Client.step (client : Client S) : Phase S × Registers S → Phase S × Registers S
  | (.start, r) =>
    match r.cache with
    | some s => (.ready s, r)
    | none => (.missed, r)
  | (.missed, r) => if client.loads then (.fetched (r.disk.getD blank), r) else (.finished, r)
  | (.fetched s, r) => (.ready s, { r with cache := some s })
  | (.ready s, r) =>
    match client.work s with
    | some (t, outcome) => (.saving t outcome, r)
    | none => (.finished, r)
  | (.saving t .saved, r) => (.publishing t, { r with disk := some t })
  | (.saving t (.failed landed), r) => (.finished, if landed then { r with disk := some t } else r)
  | (.publishing t, r) => (.finished, { r with cache := some t })
  | (.finished, r) => (.finished, r)

def Client.alone (client : Client S) (r : Registers S) : Registers S :=
  ((client.step blank)^[6] (.start, r)).2

/-- Two clients, and for each whether the other has landed something since it looked at the cache. -/
structure Duo (S : Type) where
  registers : Registers S
  phase : Bool → Phase S
  stale : Bool → Bool

def Duo.initial (r : Registers S) : Duo S := ⟨r, fun _ => .start, fun _ => false⟩

def Duo.step (clients : Bool → Client S) (d : Duo S) (t : Bool) : Duo S :=
  let next := (clients t).step blank (d.phase t, d.registers)
  { registers := next.2
    phase := update d.phase t next.1
    stale := if (d.phase t).lands && !(d.phase (!t)).isStart then update d.stale (!t) true else d.stale }

/-- Client `t` does not write on a stale copy now. -/
def Duo.Fresh (d : Duo S) (t : Bool) : Prop := (d.phase t).writes = true → d.stale t = false

inductive Duo.Run (clients : Bool → Client S) (allowed : Duo S → Bool → Prop) (r : Registers S) : Duo S → Prop where
  | start : Duo.Run clients allowed r (.initial r)
  | step {d : Duo S} (t : Bool) : Duo.Run clients allowed r d → allowed d t →
    Duo.Run clients allowed r (d.step blank clients t)

def Duo.Finished (d : Duo S) : Prop := ∀ t, d.phase t = .finished

def Client.act (client : Client S) (s : S) (r : Registers S) : Registers S :=
  match client.work s with
  | none => r
  | some (t, .saved) => ⟨some t, some t⟩
  | some (t, .failed landed) => if landed then { r with disk := some t } else r

variable {blank} {client : Client S} {r : Registers S}

theorem alone_hit {s : S} (hit : r.cache = some s) : client.alone blank r = client.act s r := by
  obtain ⟨cache, disk⟩ := r
  cases hit
  simp only [Client.alone, Client.act, iterate_succ_apply, iterate_zero_apply, Client.step]
  cases client.work s with
  | none => rfl
  | some saving =>
    obtain ⟨t, outcome⟩ := saving
    cases outcome <;> rfl

theorem alone_miss (miss : r.cache = none) (loads : client.loads = true) :
    client.alone blank r = client.act (r.disk.getD blank) { r with cache := some (r.disk.getD blank) } := by
  simp only [Client.alone, Client.act, iterate_succ_apply, iterate_zero_apply, Client.step, miss,
    loads, if_true]
  cases client.work (r.disk.getD blank) with
  | none => rfl
  | some saving =>
    obtain ⟨t, outcome⟩ := saving
    cases outcome <;> rfl

theorem alone_unanswered (miss : r.cache = none) (silent : client.loads = false) : client.alone blank r = r := by
  simp [Client.alone, iterate_succ_apply, Client.step, miss, silent]

theorem step_finished (r : Registers S) : client.step blank (.finished, r) = (.finished, r) := rfl

theorem finished_after_six (r : Registers S) :
    (client.step blank)^[6] (.start, r) = (.finished, client.alone blank r) := by
  refine Prod.ext ?_ rfl
  have worked : ∀ (s : S) (r : Registers S), ((client.step blank)^[3] (.ready s, r)).1 = .finished := by
    intro s r
    simp only [iterate_succ_apply, iterate_zero_apply, Client.step]
    cases client.work s with
    | none => rfl
    | some saving =>
      obtain ⟨t, outcome⟩ := saving
      cases outcome <;> rfl
  have still : ∀ (m : Nat) (at_ : Phase S × Registers S), at_.1 = .finished →
      ((client.step blank)^[m] at_).1 = .finished := by
    intro m at_ done
    obtain ⟨phase, r⟩ := at_
    cases done
    rw [iterate_fixed (step_finished r) m]
  cases hit : r.cache with
  | some s =>
    have first : (client.step blank)^[1] (.start, r) = (.ready s, r) := by simp [Client.step, hit]
    rw [show 6 = 2 + (3 + 1) from rfl, iterate_add_apply, iterate_add_apply, first]
    exact still 2 _ (worked s r)
  | none =>
    cases loads : client.loads with
    | false =>
      have first : ((client.step blank)^[2] (.start, r)).1 = .finished := by
        simp [iterate_succ_apply, Client.step, hit, loads]
      rw [show 6 = 4 + 2 from rfl, iterate_add_apply]
      exact still 4 _ first
    | true =>
      have first : (client.step blank)^[3] (.start, r) =
          (.ready (r.disk.getD blank), { r with cache := some (r.disk.getD blank) }) := by
        simp [iterate_succ_apply, Client.step, hit, loads]
      rw [show 6 = 3 + 3 from rfl, iterate_add_apply, first]
      exact worked _ _

theorem alone_of_finished {n : Nat} {r' : Registers S}
    (done : (client.step blank)^[n] (.start, r) = (.finished, r')) : r' = client.alone blank r := by
  have still : ∀ (m : Nat) (r : Registers S), (client.step blank)^[m] (.finished, r) = (.finished, r) := by
    intro m r
    exact iterate_fixed (step_finished r) m
  have early : (client.step blank)^[6 + n] (.start, r) = (.finished, r') := by
    rw [iterate_add_apply, done, still]
  have late : (client.step blank)^[n + 6] (.start, r) = (.finished, client.alone blank r) := by
    rw [iterate_add_apply, finished_after_six, still]
  rw [Nat.add_comm, late] at early
  exact (congrArg Prod.snd early).symm

end

section
variable (blank : S)

/-- The record as a client reads it. -/
def Registers.value (r : Registers S) : S := r.cache.getD (r.disk.getD blank)

def Client.Idle (client : Client S) (s : S) : Prop :=
  client.work s = none ∨ ∃ t, client.work s = some (t, .failed false)

variable {blank} {client : Client S} {r : Registers S}

theorem act_idle {s : S} (idle : client.Idle s) (r : Registers S) : client.act s r = r := by
  unfold Client.act
  rcases idle with none | ⟨t, failed⟩
  · rw [none]
  · rw [failed]
    rfl

theorem alone_value (answered : r.cache ≠ none ∨ client.loads = true) :
    client.alone blank r = client.act (r.value blank) ⟨some (r.value blank), r.disk⟩ := by
  obtain ⟨cache, disk⟩ := r
  cases cache with
  | some s => exact alone_hit rfl
  | none => exact alone_miss rfl (answered.resolve_left (fun hit => hit rfl))

end

section
variable (blank : S) (clients : Bool → Client S) (r : Registers S)

def Client.Early (client : Client S) : Phase S → Prop
  | .start => True
  | .missed => r.cache = none
  | .fetched s => s = r.value blank ∧ r.cache = none ∧ client.loads = true
  | .ready s => s = r.value blank
  | .saving t outcome => client.work (r.value blank) = some (t, outcome)
  | .publishing _ => False
  | .finished => (r.cache = none ∧ client.loads = false) ∨ client.Idle (r.value blank)

def Client.Copied (client : Client S) : Phase S → Prop
  | .ready _ | .saving _ _ => True
  | .finished => client.loads = true
  | _ => False

/-- Nothing has landed yet. -/
structure Duo.Calm (d : Duo S) : Prop where
  disk : d.registers.disk = r.disk
  cache : d.registers.cache = some (r.value blank) ∨ (d.registers.cache = none ∧ r.cache = none)
  loader : r.cache = none → d.registers.cache = some (r.value blank) →
    ∃ t, (clients t).loads = true ∧ (d.phase t).isStart = false
  fresh : ∀ t, d.stale t = false
  early : ∀ t, (clients t).Early blank r (d.phase t)
  copied : ∀ t, (clients t).Copied (d.phase t) → d.registers.cache = some (r.value blank)

structure Duo.Leading (x : Bool) (s : S) (d : Duo S) : Prop where
  work : (clients x).work (r.value blank) = some (s, .saved)
  phase : d.phase x = .publishing s
  registers : d.registers = ⟨some (r.value blank), some s⟩
  early : (clients (!x)).Early blank r (d.phase (!x))
  behind : d.phase (!x) = .missed ∨ (∃ t, d.phase (!x) = .fetched t) → d.stale (!x) = true
  first : (d.phase (!x)).isStart = true → r.cache ≠ none ∨ (clients x).loads = true
  loader : r.cache = none → ∃ t, (clients t).loads = true

/-- Client `x` is done, and the other one can no longer write. -/
structure Duo.Trailing (x : Bool) (d : Duo S) : Prop where
  phase : d.phase x = .finished
  registers : d.registers = (clients x).act (r.value blank) ⟨some (r.value blank), r.disk⟩
  early : (clients (!x)).Early blank r (d.phase (!x))
  started : (d.phase (!x)).isStart = false
  behind : d.phase (!x) ≠ .finished → d.stale (!x) = true
  loader : r.cache = none → ∃ t, (clients t).loads = true

structure Duo.Following (x : Bool) (d : Duo S) : Prop where
  phase : d.phase x = .finished
  steps : ∃ n, ((clients (!x)).step blank)^[n] (.start, (clients x).alone blank r) = (d.phase (!x), d.registers)

def Duo.Doomed (d : Duo S) : Prop := ∃ t, d.stale t = true ∧ (d.phase t).writes = true

def Duo.Serializing (d : Duo S) : Prop :=
  d.Calm blank clients r ∨ (∃ x s, d.Leading blank clients r x s) ∨ (∃ x, d.Trailing blank clients r x) ∨
    (∃ x, d.Following blank clients r x) ∨ d.Doomed

variable {blank clients r}

theorem eq_or_eq_other (a b : Bool) : a = b ∨ a = !b := by
  cases a <;> cases b <;> simp

theorem early_alone {client : Client S} (early : client.Early blank r .finished) :
    client.alone blank r = if r.cache = none ∧ client.loads = false then r else ⟨some (r.value blank), r.disk⟩ := by
  by_cases silent : r.cache = none ∧ client.loads = false
  · rw [if_pos silent]
    exact alone_unanswered silent.1 silent.2
  · have idle : client.Idle (r.value blank) := early.resolve_left silent
    have answered : r.cache ≠ none ∨ client.loads = true := by
      by_cases miss : r.cache = none
      · exact Or.inr (by simpa [miss] using silent)
      · exact Or.inl miss
    rw [if_neg silent, alone_value answered, act_idle idle]

theorem Duo.Calm.serial {d : Duo S} (calm : d.Calm blank clients r) (finished : d.Finished) :
    ∃ t, d.registers = (clients (!t)).alone blank ((clients t).alone blank r) := by
  have early : ∀ t, (clients t).Early blank r .finished := by
    intro t
    have own := calm.early t
    rwa [finished t] at own
  have copied : ∀ t, (clients t).loads = true → d.registers.cache = some (r.value blank) := by
    intro t loads
    refine calm.copied t ?_
    rw [finished t]
    exact loads
  by_cases silent : ∃ t, r.cache = none ∧ (clients t).loads = false
  · -- the client that got no answer goes first
    obtain ⟨t, miss, unanswered⟩ := silent
    refine ⟨t, ?_⟩
    rw [alone_unanswered miss unanswered, early_alone (early (!t))]
    cases loads : (clients (!t)).loads with
    | false =>
      have empty : d.registers.cache = none := by
        rcases calm.cache with full | ⟨empty, -⟩
        · obtain ⟨other, answered, -⟩ := calm.loader miss full
          rcases eq_or_eq_other other t with rfl | rfl
          · rw [unanswered] at answered
            cases answered
          · rw [loads] at answered
            cases answered
        · exact empty
      rw [if_pos ⟨miss, rfl⟩]
      obtain ⟨cache, disk⟩ := r
      cases miss
      have registers : d.registers = ⟨d.registers.cache, d.registers.disk⟩ := rfl
      rw [registers, empty, calm.disk]
    | true =>
      rw [if_neg (by simp)]
      have registers : d.registers = ⟨d.registers.cache, d.registers.disk⟩ := rfl
      rw [registers, copied (!t) loads, calm.disk]
  · have answered : ∀ t, ¬ (r.cache = none ∧ (clients t).loads = false) := fun t both => silent ⟨t, both⟩
    have full : d.registers.cache = some (r.value blank) := by
      rcases calm.cache with full | ⟨-, miss⟩
      · exact full
      · exact copied true (by simpa [miss] using answered true)
    refine ⟨true, ?_⟩
    rw [early_alone (early true), if_neg (answered true), alone_hit (s := r.value blank) rfl,
      act_idle ((early (!true)).resolve_left (answered (!true)))]
    have registers : d.registers = ⟨d.registers.cache, d.registers.disk⟩ := rfl
    rw [registers, full, calm.disk]

theorem Duo.Trailing.serial {x : Bool} {d : Duo S} (trailing : d.Trailing blank clients r x)
    (finished : d.Finished) : d.registers = (clients x).alone blank ((clients (!x)).alone blank r) := by
  have early : (clients (!x)).Early blank r .finished := by
    have own := trailing.early
    rwa [finished (!x)] at own
  rw [trailing.registers, early_alone early]
  by_cases silent : r.cache = none ∧ (clients (!x)).loads = false
  · have loads : (clients x).loads = true := by
      obtain ⟨other, answered⟩ := trailing.loader silent.1
      rcases eq_or_eq_other other x with rfl | rfl
      · exact answered
      · rw [silent.2] at answered
        cases answered
    rw [if_pos silent, alone_value (Or.inr loads)]
  · rw [if_neg silent]
    exact (alone_hit rfl).symm

theorem Duo.Following.serial {x : Bool} {d : Duo S} (following : d.Following blank clients r x)
    (finished : d.Finished) : d.registers = (clients (!x)).alone blank ((clients x).alone blank r) := by
  obtain ⟨n, steps⟩ := following.steps
  rw [finished (!x)] at steps
  exact alone_of_finished steps

theorem Duo.Serializing.serial {d : Duo S} (serializing : d.Serializing blank clients r) (finished : d.Finished) :
    ∃ t, d.registers = (clients (!t)).alone blank ((clients t).alone blank r) := by
  rcases serializing with calm | ⟨x, s, leading⟩ | ⟨x, trailing⟩ | ⟨x, following⟩ | ⟨t, -, writes⟩
  · exact calm.serial finished
  · have phase := leading.phase
    rw [finished x] at phase
    cases phase
  · refine ⟨!x, ?_⟩
    rw [Bool.not_not]
    exact trailing.serial finished
  · exact ⟨x, following.serial finished⟩
  · rw [finished t] at writes
    cases writes

section
variable {d : Duo S} {x : Bool}

variable (t : Bool)

theorem step_phase_self : (d.step blank clients t).phase t = ((clients t).step blank (d.phase t, d.registers)).1 := by
  simp [Duo.step]

theorem step_phase_other : (d.step blank clients (!t)).phase t = d.phase t := by
  cases t <;> simp [Duo.step]

theorem step_registers :
    (d.step blank clients t).registers = ((clients t).step blank (d.phase t, d.registers)).2 := rfl

theorem step_stale {t x : Bool} (stale : d.stale x = true) : (d.step blank clients t).stale x = true := by
  unfold Duo.step
  simp only
  split
  · by_cases own : x = !t
    · simp [own]
    · simp [update_of_ne own, stale]
  · exact stale

theorem Duo.Doomed.step {t : Bool} (doomed : d.Doomed) (fresh : d.Fresh t) : (d.step blank clients t).Doomed := by
  obtain ⟨x, stale, writes⟩ := doomed
  rcases eq_or_eq_other t x with rfl | rfl
  · rw [fresh writes] at stale
    cases stale
  · refine ⟨x, step_stale stale, ?_⟩
    rw [step_phase_other]
    exact writes

theorem Duo.Following.step {t : Bool} (following : d.Following blank clients r x) :
    (d.step blank clients t).Following blank clients r x := by
  obtain ⟨n, steps⟩ := following.steps
  rcases eq_or_eq_other t x with rfl | rfl
  · refine ⟨?_, n, ?_⟩
    · rw [step_phase_self, following.phase]
      rfl
    · have other : (d.step blank clients t).phase (!t) = d.phase (!t) := by
        have same := @step_phase_other S blank clients d (!t)
        rwa [Bool.not_not] at same
      rw [other, step_registers, following.phase]
      exact steps
  · refine ⟨?_, n + 1, ?_⟩
    · rw [step_phase_other]
      exact following.phase
    · rw [iterate_succ_apply', steps, step_phase_self, step_registers]

theorem step_phase_not : (d.step blank clients t).phase (!t) = d.phase (!t) := by
  cases t <;> simp [Duo.step]

theorem step_started {client : Client S} {phase : Phase S} {now : Registers S} :
    ((client.step blank (phase, now)).1).isStart = false := by
  cases phase with
  | start => cases hit : now.cache <;> simp [Client.step, hit, Phase.isStart]
  | missed => cases loads : client.loads <;> simp [Client.step, loads, Phase.isStart]
  | ready s =>
    cases result : client.work s <;> simp [Client.step, result, Phase.isStart]
  | saving s outcome => cases outcome <;> rfl
  | fetched s => rfl
  | publishing s => rfl
  | finished => rfl

theorem step_missed {client : Client S} {phase : Phase S} {now : Registers S}
    (missed : (client.step blank (phase, now)).1 = .missed) : now.cache = none := by
  cases phase with
  | start =>
    cases hit : now.cache with
    | none => rfl
    | some s => simp [Client.step, hit] at missed
  | missed => cases loads : client.loads <;> simp [Client.step, loads] at missed
  | ready s => cases result : client.work s <;> simp [Client.step, result] at missed
  | saving s outcome => cases outcome <;> cases missed
  | fetched s => cases missed
  | publishing s => cases missed
  | finished => cases missed

theorem step_fetched {client : Client S} {phase : Phase S} {now : Registers S} {s : S}
    (fetched : (client.step blank (phase, now)).1 = .fetched s) : phase = .missed := by
  cases phase with
  | start => cases hit : now.cache <;> simp [Client.step, hit] at fetched
  | missed => rfl
  | ready copy => cases result : client.work copy <;> simp [Client.step, result] at fetched
  | saving copy outcome => cases outcome <;> cases fetched
  | fetched copy => cases fetched
  | publishing copy => cases fetched
  | finished => cases fetched

theorem early_step {client : Client S} {phase : Phase S} {now : Registers S} (early : client.Early blank r phase)
    (reads : phase.writes = false)
    (cache : phase.isStart = true → now.cache = some (r.value blank) ∨ (now.cache = none ∧ r.cache = none)) :
    (client.step blank (phase, now)).2 = now ∧ (client.Early blank r (client.step blank (phase, now)).1 ∨
        phase = .missed ∧ client.loads = true ∧
          (client.step blank (phase, now)).1 = .fetched (now.disk.getD blank)) := by
  cases phase with
  | start =>
    rcases cache rfl with hit | ⟨miss, empty⟩
    · simp only [Client.step, hit]
      exact ⟨trivial, Or.inl rfl⟩
    · simp only [Client.step, miss]
      exact ⟨trivial, Or.inl empty⟩
  | missed =>
    cases loads : client.loads with
    | true => exact ⟨by simp [Client.step, loads], Or.inr ⟨rfl, rfl, by simp [Client.step, loads]⟩⟩
    | false =>
      simp only [Client.step, loads, Bool.false_eq_true, if_false]
      exact ⟨trivial, Or.inl (Or.inl ⟨early, loads⟩)⟩
  | ready s =>
    have own : s = r.value blank := early
    subst own
    cases result : client.work (r.value blank) with
    | none =>
      simp only [Client.step, result]
      exact ⟨trivial, Or.inl (Or.inr (Or.inl result))⟩
    | some saving =>
      simp only [Client.step, result]
      exact ⟨trivial, Or.inl result⟩
  | saving s outcome =>
    cases outcome with
    | saved => cases reads
    | failed landed =>
      cases landed with
      | true => cases reads
      | false => exact ⟨rfl, Or.inl (Or.inr (Or.inr ⟨s, early⟩))⟩
  | fetched s => cases reads
  | publishing s => exact absurd early (by simp [Client.Early])
  | finished => exact ⟨rfl, Or.inl early⟩

theorem Duo.Trailing.step {t : Bool} (trailing : d.Trailing blank clients r x) (fresh : d.Fresh t) :
    (d.step blank clients t).Trailing blank clients r x ∨ (d.step blank clients t).Doomed := by
  rcases eq_or_eq_other t x with rfl | rfl
  · -- `t` is done
    refine Or.inl ⟨?_, ?_, ?_, ?_, ?_, trailing.loader⟩
    · rw [step_phase_self, trailing.phase]
      rfl
    · rw [step_registers, trailing.phase]
      exact trailing.registers
    · rw [step_phase_not]
      exact trailing.early
    · rw [step_phase_not]
      exact trailing.started
    · rw [step_phase_not]
      exact fun unfinished => step_stale (trailing.behind unfinished)
  · have reads : (d.phase (!x)).writes = false := by
      by_contra writes
      have writes : (d.phase (!x)).writes = true := by simpa using writes
      have stale := trailing.behind (fun done => by rw [done] at writes; cases writes)
      rw [fresh writes] at stale
      cases stale
    obtain ⟨same, early | ⟨missed, -, fetched⟩⟩ := @early_step S blank r _ _ d.registers trailing.early reads
      (fun start => by rw [trailing.started] at start; cases start)
    · refine Or.inl ⟨?_, ?_, ?_, ?_, ?_, trailing.loader⟩
      · rw [step_phase_other]
        exact trailing.phase
      · rw [step_registers, same]
        exact trailing.registers
      · rw [step_phase_self]
        exact early
      · rw [step_phase_self]
        exact step_started
      · rw [step_phase_self]
        intro unfinished
        refine step_stale (trailing.behind (fun done => unfinished ?_))
        rw [done]
        rfl
    · refine Or.inr ⟨!x, step_stale (trailing.behind (by rw [missed]; exact nofun)), ?_⟩
      rw [step_phase_self, fetched]
      rfl

theorem step_lands {t : Bool} (lands : (d.phase t).lands = true) (started : (d.phase (!t)).isStart = false) :
    (d.step blank clients t).stale (!t) = true := by
  simp [Duo.step, lands, started]

theorem Duo.Leading.step {t : Bool} {s : S} (leading : d.Leading blank clients r x s) (fresh : d.Fresh t) :
    (d.step blank clients t).Serializing blank clients r := by
  have result : (clients x).act (r.value blank) ⟨some (r.value blank), r.disk⟩ = ⟨some s, some s⟩ := by
    simp [Client.act, leading.work]
  rcases eq_or_eq_other t x with rfl | rfl
  · have registers : (d.step blank clients t).registers = ⟨some s, some s⟩ := by
      rw [step_registers, leading.phase, leading.registers]
      rfl
    have phase : (d.step blank clients t).phase t = .finished := by
      rw [step_phase_self, leading.phase]
      rfl
    cases started : (d.phase (!t)).isStart with
    | true =>
      refine Or.inr (Or.inr (Or.inr (Or.inl ⟨t, phase, 0, ?_⟩)))
      rw [step_phase_not, Phase.eq_start started, registers, alone_value (leading.first started), result]
      rfl
    | false =>
      refine Or.inr (Or.inr (Or.inl ⟨t, phase, by rw [registers, result], ?_, ?_, ?_, leading.loader⟩))
      · rw [step_phase_not]
        exact leading.early
      · rw [step_phase_not]
        exact started
      · exact fun _ => step_lands (by rw [leading.phase]; rfl) started
  · have phase : (d.step blank clients (!x)).phase x = .publishing s := by
      rw [step_phase_other]
      exact leading.phase
    by_cases lands : (d.phase (!x)).lands = true
    · refine Or.inr (Or.inr (Or.inr (Or.inr ⟨x, ?_, by rw [phase]; rfl⟩)))
      have stale := @step_lands S blank clients d (!x) lands
      rw [Bool.not_not] at stale
      exact stale (by rw [leading.phase]; rfl)
    · have reads : (d.phase (!x)).writes = false := by
        cases other : d.phase (!x) with
        | fetched copy =>
          have stale := leading.behind (Or.inr ⟨copy, other⟩)
          rw [fresh (by rw [other]; rfl)] at stale
          cases stale
        | _ => simpa [other, Phase.writes] using lands
      have cache : d.registers.cache = some (r.value blank) := by rw [leading.registers]
      obtain ⟨same, early | ⟨missed, -, fetched⟩⟩ := @early_step S blank r _ _ d.registers leading.early reads
        (fun _ => Or.inl cache)
      · refine Or.inr (Or.inl ⟨x, s, leading.work, phase, ?_, ?_, ?_, ?_, leading.loader⟩)
        · rw [step_registers, same]
          exact leading.registers
        · rw [step_phase_self]
          exact early
        · rw [step_phase_self]
          rintro (missed | ⟨copy, fetched⟩)
          · rw [step_missed missed] at cache
            cases cache
          · exact step_stale (leading.behind (Or.inl (step_fetched fetched)))
        · rw [step_phase_self, step_started]
          exact nofun
      · refine Or.inr (Or.inr (Or.inr (Or.inr ⟨!x, step_stale (leading.behind (Or.inl missed)), ?_⟩)))
        rw [step_phase_self, fetched]
        rfl

theorem copied_step {client : Client S} {phase : Phase S} {now : Registers S} (reads : phase.writes = false)
    (copied : client.Copied (client.step blank (phase, now)).1) : client.Copied phase ∨ now.cache ≠ none := by
  cases phase with
  | start =>
    cases hit : now.cache with
    | none =>
      simp only [Client.step, hit] at copied
      exact absurd copied (by simp [Client.Copied])
    | some s => exact Or.inr (by simp)
  | missed =>
    cases loads : client.loads with
    | true =>
      simp only [Client.step, loads, if_true] at copied
      exact absurd copied (by simp [Client.Copied])
    | false =>
      simp only [Client.step, loads, Bool.false_eq_true, if_false, Client.Copied] at copied
  | ready s => exact Or.inl trivial
  | saving s outcome => exact Or.inl trivial
  | fetched s => cases reads
  | publishing s => cases reads
  | finished => exact Or.inl copied

theorem Duo.Calm.reads {t : Bool} (calm : d.Calm blank clients r) (reads : (d.phase t).writes = false) :
    (d.step blank clients t).Calm blank clients r := by
  obtain ⟨same, progress⟩ := @early_step S blank r _ _ d.registers (calm.early t) reads (fun _ => calm.cache)
  have phases : ∀ {P : Bool → Phase S → Prop}, P t ((clients t).step blank (d.phase t, d.registers)).1 →
      P (!t) (d.phase (!t)) → ∀ u, P u ((d.step blank clients t).phase u) := by
    intro P own other u
    rcases eq_or_eq_other u t with rfl | rfl
    · rw [step_phase_self]
      exact own
    · rw [step_phase_not]
      exact other
  have registers : (d.step blank clients t).registers = d.registers := by rw [step_registers, same]
  have early : (clients t).Early blank r ((clients t).step blank (d.phase t, d.registers)).1 := by
    rcases progress with early | ⟨missed, loads, fetched⟩
    · exact early
    · have empty : r.cache = none := by
        have own := calm.early t
        rwa [missed] at own
      rw [fetched, calm.disk]
      exact ⟨by simp [Registers.value, empty], empty, loads⟩
  refine ⟨by rw [registers]; exact calm.disk, by rw [registers]; exact calm.cache, ?_, ?_, ?_, ?_⟩
  · intro empty full
    rw [registers] at full
    obtain ⟨u, loads, started⟩ := calm.loader empty full
    refine ⟨u, loads, ?_⟩
    rcases eq_or_eq_other u t with rfl | rfl
    · rw [step_phase_self]
      exact step_started
    · rw [step_phase_not]
      exact started
  · have unlanded : (d.phase t).lands = false := by
      cases phase : d.phase t <;> rw [phase] at reads <;> first | exact reads | rfl
    intro u
    simpa [Duo.step, unlanded] using calm.fresh u
  · exact @phases (fun u phase => (clients u).Early blank r phase) early (calm.early (!t))
  · rw [registers]
    refine @phases (fun u phase => (clients u).Copied phase → d.registers.cache = some (r.value blank)) ?_
      (calm.copied (!t))
    intro copied
    rcases copied_step reads copied with before | full
    · exact calm.copied t before
    · exact calm.cache.resolve_right (fun empty => full empty.1)

theorem Duo.Calm.first {t : Bool} (calm : d.Calm blank clients r) (start : (d.phase (!t)).isStart = true)
    (full : d.registers.cache = some (r.value blank)) : r.cache ≠ none ∨ (clients t).loads = true := by
  by_cases empty : r.cache = none
  · obtain ⟨u, loads, begun⟩ := calm.loader empty full
    rcases eq_or_eq_other u t with rfl | rfl
    · exact Or.inr loads
    · rw [start] at begun
      cases begun
  · exact Or.inl empty

theorem Duo.Calm.someLoads (calm : d.Calm blank clients r) (full : d.registers.cache = some (r.value blank))
    (empty : r.cache = none) : ∃ u, (clients u).loads = true := by
  obtain ⟨u, loads, -⟩ := calm.loader empty full
  exact ⟨u, loads⟩

section
variable {t : Bool} {s : S} (calm : d.Calm blank clients r)
include calm

theorem Duo.Calm.fetches (phase : d.phase t = .fetched s) : (d.step blank clients t).Calm blank clients r := by
  have early := calm.early t
  rw [phase] at early
  obtain ⟨rfl, empty, loads⟩ := early
  have registers : (d.step blank clients t).registers = ⟨some (r.value blank), d.registers.disk⟩ := by
    rw [step_registers, phase]
    rfl
  have ready : (d.step blank clients t).phase t = .ready (r.value blank) := by
    rw [step_phase_self, phase]
    rfl
  refine ⟨by rw [registers]; exact calm.disk, Or.inl (by rw [registers]), ?_, ?_, ?_, ?_⟩
  · exact fun _ _ => ⟨t, loads, by rw [ready]; rfl⟩
  · intro u
    simpa [Duo.step, phase, Phase.lands] using calm.fresh u
  · intro u
    rcases eq_or_eq_other u t with rfl | rfl
    · rw [ready]
      rfl
    · rw [step_phase_not]
      exact calm.early _
  · exact fun _ _ => by rw [registers]

theorem Duo.Calm.saves (phase : d.phase t = .saving s .saved) :
    (d.step blank clients t).Leading blank clients r t s := by
  have work := calm.early t
  have full := calm.copied t (by rw [phase]; trivial)
  rw [phase] at work
  refine ⟨work, ?_, ?_, ?_, ?_, ?_, calm.someLoads full⟩
  · rw [step_phase_self, phase]
    rfl
  · rw [step_registers, phase]
    change (⟨d.registers.cache, some s⟩ : Registers S) = _
    rw [full]
  · rw [step_phase_not]
    exact calm.early _
  · rw [step_phase_not]
    intro begun
    refine step_lands (by rw [phase]; rfl) ?_
    rcases begun with missed | ⟨copy, fetched⟩
    · rw [missed]
      rfl
    · rw [fetched]
      rfl
  · rw [step_phase_not]
    exact fun start => calm.first start full

theorem Duo.Calm.failsLanded (phase : d.phase t = .saving s (.failed true)) :
    (d.step blank clients t).Trailing blank clients r t ∨ (d.step blank clients t).Following blank clients r t := by
  have work := calm.early t
  have full := calm.copied t (by rw [phase]; trivial)
  rw [phase] at work
  have result : (clients t).act (r.value blank) ⟨some (r.value blank), r.disk⟩ = ⟨some (r.value blank), some s⟩ := by
    have does : (clients t).work (r.value blank) = some (s, .failed true) := work
    simp [Client.act, does]
  have registers : (d.step blank clients t).registers = ⟨some (r.value blank), some s⟩ := by
    rw [step_registers, phase]
    change (⟨d.registers.cache, some s⟩ : Registers S) = _
    rw [full]
  have done : (d.step blank clients t).phase t = .finished := by
    rw [step_phase_self, phase]
    rfl
  cases begun : (d.phase (!t)).isStart with
  | true =>
    refine Or.inr ⟨done, 0, ?_⟩
    rw [step_phase_not, Phase.eq_start begun, registers, alone_value (calm.first begun full), result]
    rfl
  | false =>
    refine Or.inl ⟨done, by rw [registers, result], ?_, ?_, ?_, calm.someLoads full⟩
    · rw [step_phase_not]
      exact calm.early _
    · rw [step_phase_not]
      exact begun
    · exact fun _ => step_lands (by rw [phase]; rfl) begun

end

theorem Duo.Calm.step {t : Bool} (calm : d.Calm blank clients r) :
    (d.step blank clients t).Serializing blank clients r := by
  by_cases reads : (d.phase t).writes = false
  · exact Or.inl (calm.reads reads)
  cases phase : d.phase t with
  | fetched s => exact Or.inl (calm.fetches phase)
  | saving s outcome =>
    cases outcome with
    | saved => exact Or.inr (Or.inl ⟨t, s, calm.saves phase⟩)
    | failed landed =>
      cases landed with
      | true =>
        rcases calm.failsLanded phase with trailing | following
        · exact Or.inr (Or.inr (Or.inl ⟨t, trailing⟩))
        · exact Or.inr (Or.inr (Or.inr (Or.inl ⟨t, following⟩)))
      | false => rw [phase] at reads; exact absurd rfl reads
  | publishing s =>
    have early := calm.early t
    rw [phase] at early
    exact absurd early (by simp [Client.Early])
  | start => rw [phase] at reads; exact absurd rfl reads
  | missed => rw [phase] at reads; exact absurd rfl reads
  | ready s => rw [phase] at reads; exact absurd rfl reads
  | finished => rw [phase] at reads; exact absurd rfl reads

theorem Duo.Serializing.step {t : Bool} (serializing : d.Serializing blank clients r) (fresh : d.Fresh t) :
    (d.step blank clients t).Serializing blank clients r := by
  rcases serializing with calm | ⟨x, s, leading⟩ | ⟨x, trailing⟩ | ⟨x, following⟩ | doomed
  · exact calm.step
  · exact leading.step fresh
  · rcases trailing.step fresh with still | doomed
    · exact Or.inr (Or.inr (Or.inl ⟨x, still⟩))
    · exact Or.inr (Or.inr (Or.inr (Or.inr doomed)))
  · exact Or.inr (Or.inr (Or.inr (Or.inl ⟨x, following.step⟩)))
  · exact Or.inr (Or.inr (Or.inr (Or.inr (doomed.step fresh))))

theorem Duo.initial_calm : (Duo.initial r).Calm blank clients r where
  disk := rfl
  cache := by
    obtain ⟨cache, disk⟩ := r
    cases cache with
    | none => exact Or.inr ⟨rfl, rfl⟩
    | some s => exact Or.inl rfl
  loader empty full := by
    rw [Duo.initial, empty] at full
    cases full
  fresh _ := rfl
  early _ := trivial
  copied _ copied := absurd copied (by simp [Duo.initial, Client.Copied])

theorem fresh_run_serial (run : Duo.Run blank clients Duo.Fresh r d) (finished : d.Finished) :
    ∃ t, d.registers = (clients (!t)).alone blank ((clients t).alone blank r) := by
  have serializing : d.Serializing blank clients r := by
    clear finished
    induction run with
    | start => exact Or.inl Duo.initial_calm
    | step t _ fresh ih => exact ih.step fresh
  exact serializing.serial finished

end

end

end Aeterna.Lib
