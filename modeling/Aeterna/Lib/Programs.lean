import Mathlib.Logic.Basic
import Mathlib.Logic.Function.Basic
import Mathlib.Logic.Relation

/-!
Programs that call a service and go on with its answers, run alone or interleaved with others, and rules for what they
keep.
-/

open Function

namespace Aeterna.Lib

inductive Program (C : Type) (A : C → Type) (E α : Type) where
  | done (a : α)
  | fail (e : E)
  | call (c : C) (next : A c → Program C A E α)

variable {C : Type} {A : C → Type} {E α β S : Type}

namespace Program

def bind (program : Program C A E α) (f : α → Program C A E β) : Program C A E β :=
  match program with
  | done a => f a
  | fail e => fail e
  | call c next => call c (fun answer => (next answer).bind f)

instance : Monad (Program C A E) where
  pure := done
  bind := bind

theorem bind_done (program : Program C A E α) : program.bind done = program := by
  induction program with
  | done a => rfl
  | fail e => rfl
  | call c next ih => exact congrArg (call c) (funext ih)

theorem bind_bind {γ : Type} (program : Program C A E α) (f : α → Program C A E β) (g : β → Program C A E γ) :
    (program.bind f).bind g = program.bind (fun a => (f a).bind g) := by
  induction program with
  | done a => rfl
  | fail e => rfl
  | call c next ih => exact congrArg (call c) (funext ih)

instance : LawfulMonad (Program C A E) := LawfulMonad.mk' _ bind_done (fun _ _ => rfl) bind_bind

def ask (c : C) : Program C A E (A c) := call c done

def orFail (wrap : String → E) : Except String α → Program C A E α
  | .ok a => done a
  | .error message => fail (wrap message)

def failIf (condition : Prop) [Decidable condition] (e : E) : Program C A E Unit :=
  if condition then fail e else done ()

def forSome (value : Option α) (f : α → Program C A E Unit) : Program C A E Unit :=
  match value with
  | some a => f a
  | none => done ()

def attempt {F : Type} : Program C A E α → Program C A F (Except E α)
  | done a => done (.ok a)
  | fail e => done (.error e)
  | call c next => call c (fun answer => (next answer).attempt)

def run (exec : (c : C) → S → A c × S) : Program C A E α → S → Except E α × S
  | done a, s => (.ok a, s)
  | fail e, s => (.error e, s)
  | call c next, s => (next (exec c s).1).run exec (exec c s).2

end Program

abbrev Note (A : C → Type) : Type := (c : C) × A c

/-- How calls act, what holds between them, what a program relies on others to keep and what it keeps
itself, and which calls are made only if the surroundings permit it. -/
structure Contract (A : C → Type) (S : Type) where
  exec : (c : C) → S → A c × S
  inv : S → Prop
  (rely guar : S → S → Prop)
  ok : List (Note A) → C → S → Prop

namespace Program
variable (contract : Contract A S)

/-- From any state that others make of `s`, each permitted call keeps the contract, and the end
satisfies `post`. -/
def Meets (post : Except E α → List (Note A) → S → Prop) : Program C A E α → List (Note A) → S → Prop
  | done a, notes, s => post (.ok a) notes s
  | fail e, notes, s => post (.error e) notes s
  | call c next, notes, s => ∀ t, contract.rely s t → contract.inv t → contract.ok notes c t →
    contract.inv (contract.exec c t).2 ∧ contract.guar t (contract.exec c t).2 ∧
      (next (contract.exec c t).1).Meets post (⟨c, (contract.exec c t).1⟩ :: notes) (contract.exec c t).2

def Permits (exec : (c : C) → S → A c × S) (ok : List (Note A) → C → S → Prop) :
    Program C A E α → List (Note A) → S → Prop
  | done _, _, _ => True
  | fail _, _, _ => True
  | call c next, notes, s => ok notes c s ∧
    (next (exec c s).1).Permits exec ok (⟨c, (exec c s).1⟩ :: notes) (exec c s).2

variable {contract} {program : Program C A E α} {notes : List (Note A)} {s : S}

variable {post : Except E α → List (Note A) → S → Prop} {f : α → Program C A E β} {p : C → Prop}

theorem Meets.mono {post' : Except E α → List (Note A) → S → Prop} (meets : program.Meets contract post notes s)
    (wider : ∀ outcome notes s, post outcome notes s → post' outcome notes s) :
    program.Meets contract post' notes s := by
  induction program generalizing notes s with
  | done a => exact wider _ _ _ meets
  | fail e => exact wider _ _ _ meets
  | call c next ih =>
    intro t relied holds permitted
    obtain ⟨kept, step, rest⟩ := meets t relied holds permitted
    exact ⟨kept, step, ih _ rest⟩

theorem Meets.bind {post : Except E β → List (Note A) → S → Prop}
    (meets : program.Meets contract (fun outcome notes s => match outcome with
    | .ok a => (f a).Meets contract post notes s | .error e => post (.error e) notes s) notes s) :
    (program >>= f).Meets contract post notes s := by
  induction program generalizing notes s with
  | done a => exact meets
  | fail e => exact meets
  | call c next ih =>
    intro t relied holds permitted
    obtain ⟨kept, step, rest⟩ := meets t relied holds permitted
    exact ⟨kept, step, ih _ rest⟩

theorem Meets.seq {mid : Except E α → List (Note A) → S → Prop}
    {post : Except E β → List (Note A) → S → Prop} (first : program.Meets contract mid notes s)
    (failed : ∀ e notes s, mid (.error e) notes s → post (.error e) notes s)
    (second : ∀ a notes s, mid (.ok a) notes s → (f a).Meets contract post notes s) :
    (program >>= f).Meets contract post notes s := by
  refine (first.mono ?_).bind
  intro outcome notes s reached
  cases outcome with
  | ok a => exact second a notes s reached
  | error e => exact failed e notes s reached

theorem Meets.asked {c : C} {f : A c → Program C A E β} {post : Except E β → List (Note A) → S → Prop}
    (each : ∀ t, contract.rely s t → contract.inv t → contract.ok notes c t →
      contract.inv (contract.exec c t).2 ∧ contract.guar t (contract.exec c t).2 ∧
        (f (contract.exec c t).1).Meets contract post (⟨c, (contract.exec c t).1⟩ :: notes) (contract.exec c t).2) :
    (ask c >>= f).Meets contract post notes s := each

theorem Meets.orFail {wrap : String → E} {answer : Except String α}
    (value : ∀ a, answer = .ok a → post (.ok a) notes s)
    (failure : ∀ message, answer = .error message → post (.error (wrap message)) notes s) :
    (orFail wrap answer : Program C A E α).Meets contract post notes s := by
  cases answer with
  | ok a => exact value a rfl
  | error message => exact failure message rfl

theorem Meets.failIf {condition : Prop} [Decidable condition] {e : E}
    {post : Except E Unit → List (Note A) → S → Prop} (passed : ¬ condition → post (.ok ()) notes s)
    (failed : condition → post (.error e) notes s) :
    (failIf condition e : Program C A E Unit).Meets contract post notes s := by
  unfold Program.failIf
  split
  · exact failed ‹_›
  · exact passed ‹_›

theorem Meets.attempt {F : Type} {post : Except F (Except E α) → List (Note A) → S → Prop}
    (meets : program.Meets contract (fun outcome => post (.ok outcome)) notes s) :
    (program.attempt : Program C A F (Except E α)).Meets contract post notes s := by
  induction program generalizing notes s with
  | done a => exact meets
  | fail e => exact meets
  | call c next ih =>
    intro t relied holds permitted
    obtain ⟨kept, step, rest⟩ := meets t relied holds permitted
    exact ⟨kept, step, ih _ rest⟩

def Uses (allowed : C → Prop) : Program C A E α → Prop
  | done _ => True
  | fail _ => True
  | call c next => allowed c ∧ ∀ answer, (next answer).Uses allowed

theorem Uses.bind {allowed : C → Prop} (first : program.Uses allowed) (second : ∀ a, (f a).Uses allowed) :
    (program >>= f).Uses allowed := by
  induction program with
  | done a => exact second a
  | fail e => trivial
  | call c next ih => exact ⟨first.1, fun answer => ih answer (first.2 answer)⟩

theorem Uses.mono {allowed wider : C → Prop} (uses : program.Uses allowed) (more : ∀ c, allowed c → wider c) :
    program.Uses wider := by
  induction program with
  | done a => trivial
  | fail e => trivial
  | call c next ih => exact ⟨more c uses.1, fun answer => ih answer (uses.2 answer)⟩

theorem Uses.of_all {allowed : C → Prop} (all : ∀ c, allowed c) : program.Uses allowed := by
  induction program with
  | done a => trivial
  | fail e => trivial
  | call c next ih => exact ⟨all c, ih⟩

theorem Uses.forSome {allowed : C → Prop} {value : Option α} {f : α → Program C A E Unit}
    (each : ∀ a, (f a).Uses allowed) : (forSome value f).Uses allowed := by
  cases value with
  | some a => exact each a
  | none => trivial

theorem Uses.ask {allowed : C → Prop} {c : C} (permitted : allowed c) : (ask c : Program C A E (A c)).Uses allowed :=
  ⟨permitted, fun _ => trivial⟩

theorem Uses.orFail {allowed : C → Prop} {wrap : String → E} (answer : Except String α) :
    (orFail wrap answer : Program C A E α).Uses allowed := by
  cases answer <;> trivial

theorem Uses.failIf {allowed : C → Prop} {condition : Prop} [Decidable condition] {e : E} :
    (failIf condition e : Program C A E Unit).Uses allowed := by
  unfold Program.failIf
  split <;> trivial

def Awaits (p : C → Prop) : Program C A E α → Prop
  | call c _ => p c
  | _ => False

instance {p : C → Prop} [DecidablePred p] : (program : Program C A E α) → Decidable (program.Awaits p)
  | done _ => .isFalse id
  | fail _ => .isFalse id
  | call c _ => inferInstanceAs (Decidable (p c))

def Each (P : (c : C) → (A c → Program C A E α) → Prop) : Program C A E α → Prop
  | done _ => True
  | fail _ => True
  | call c next => P c next ∧ ∀ answer, (next answer).Each P

def Once (p : C → Prop) : Program C A E α → Prop
  | done _ => True
  | fail _ => True
  | call c next => ∀ answer, (p c → (next answer).Uses (fun c => ¬ p c)) ∧ (next answer).Once p

theorem Uses.once (uses : program.Uses (fun c => ¬ p c)) : program.Once p := by
  induction program with
  | done a => trivial
  | fail e => trivial
  | call c next ih => exact fun answer => ⟨fun made => (uses.1 made).elim, ih answer (uses.2 answer)⟩

theorem Once.ask (c : C) : (ask c : Program C A E (A c)).Once p := fun _ => ⟨fun _ => trivial, trivial⟩

theorem Once.bind (first : program.Once p) (second : ∀ a, (f a).Uses (fun c => ¬ p c)) : (program >>= f).Once p := by
  induction program with
  | done a => exact (second a).once
  | fail e => trivial
  | call c next ih =>
    exact fun answer => ⟨fun made => ((first answer).1 made).bind second, ih answer (first answer).2⟩

theorem Uses.bind_once (first : program.Uses (fun c => ¬ p c)) (second : ∀ a, (f a).Once p) :
    (program >>= f).Once p := by
  induction program with
  | done a => exact second a
  | fail e => trivial
  | call c next ih => exact fun answer => ⟨fun made => (first.1 made).elim, ih answer (first.2 answer)⟩

theorem Uses.meets {quiet : C → Prop} {R : S → S → Prop} (uses : program.Uses quiet) (refl : ∀ s, R s s)
    (trans : ∀ {a b c}, R a b → R b c → R a c) (relied : ∀ {a b}, contract.rely a b → R a b)
    (silent : ∀ c, quiet c → ∀ notes t, contract.inv t → contract.ok notes c t →
      contract.inv (contract.exec c t).2 ∧ contract.guar t (contract.exec c t).2 ∧ R t (contract.exec c t).2) :
    program.Meets contract (fun _ later last => notes <:+ later ∧ R s last) notes s := by
  induction program generalizing notes s with
  | done a => exact ⟨List.suffix_refl _, refl s⟩
  | fail e => exact ⟨List.suffix_refl _, refl s⟩
  | call c next ih =>
    intro t reached holds permitted
    obtain ⟨kept, step, near⟩ := silent c uses.1 notes t holds permitted
    refine ⟨kept, step, (ih _ (uses.2 _)).mono ?_⟩
    rintro outcome later last ⟨longer, far⟩
    exact ⟨(List.suffix_cons _ _).trans longer, trans (relied reached) (trans near far)⟩

section
variable (exec : (c : C) → S → A c × S)
include exec

theorem run_bind (f : α → Program C A E β) (s : S) : (program >>= f).run exec s = match program.run exec s with
      | (.ok a, next) => (f a).run exec next
      | (.error e, next) => (.error e, next) := by
  induction program generalizing s with
  | done a => rfl
  | fail e => rfl
  | call c next ih => exact ih _ _

@[simp] theorem run_pure (a : α) (s : S) : (Pure.pure a : Program C A E α).run exec s = (.ok a, s) := rfl

@[simp] theorem run_ask (c : C) (s : S) :
    (ask c : Program C A E (A c)).run exec s = (.ok (exec c s).1, (exec c s).2) := rfl

@[simp] theorem run_orFail_ok (wrap : String → E) (a : α) (s : S) :
    (orFail wrap (.ok a) : Program C A E α).run exec s = (.ok a, s) := rfl

end

theorem run_bind_of_ok {exec : (c : C) → S → A c × S} {next : S} {a : α}
    (first : program.run exec s = (.ok a, next)) : (program >>= f).run exec s = (f a).run exec next := by
  rw [run_bind, first]

section
variable {exec : (c : C) → S → A c × S} {ok ok' : List (Note A) → C → S → Prop}

theorem Permits.mono (permits : program.Permits exec ok notes s) (wider : ∀ notes c s, ok notes c s → ok' notes c s) :
    program.Permits exec ok' notes s := by
  induction program generalizing notes s with
  | done a => trivial
  | fail e => trivial
  | call c next ih => exact ⟨wider _ _ _ permits.1, ih _ permits.2⟩

theorem Uses.permits {allowed : C → Prop} (uses : program.Uses allowed)
    (fine : ∀ notes c s, allowed c → ok notes c s) :
    program.Permits exec ok notes s := by
  induction program generalizing notes s with
  | done a => trivial
  | fail e => trivial
  | call c next ih => exact ⟨fine _ _ _ uses.1, ih _ (uses.2 _)⟩

theorem Permits.uses {allowed : C → Prop} (permits : program.Permits exec ok notes s) (uses : program.Uses allowed) :
    program.Permits exec (fun notes c s => ok notes c s ∧ allowed c) notes s := by
  induction program generalizing notes s with
  | done a => trivial
  | fail e => trivial
  | call c next ih => exact ⟨⟨permits.1, uses.1⟩, ih _ permits.2 (uses.2 _)⟩

theorem Uses.permits_bind {allowed : C → Prop} {inv : S → Prop} {f : α → Program C A E β}
    (uses : program.Uses allowed) (fine : ∀ notes c s, allowed c → inv s → ok notes c s ∧ inv (exec c s).2)
    (rest : ∀ a notes s, inv s → (f a).Permits exec ok notes s) (holds : inv s) :
    (program >>= f).Permits exec ok notes s := by
  induction program generalizing notes s with
  | done a => exact rest a notes s holds
  | fail e => trivial
  | call c next ih =>
    obtain ⟨permitted, kept⟩ := fine notes c s uses.1 holds
    exact ⟨permitted, ih _ (uses.2 _) kept⟩

theorem Permits.orFail {wrap : String → E} (answer : Except String α) :
    (orFail wrap answer : Program C A E α).Permits exec ok notes s := by
  cases answer <;> trivial

theorem Permits.of_all (all : ∀ notes c s, ok notes c s) : program.Permits exec ok notes s := by
  induction program generalizing notes s with
  | done a => trivial
  | fail e => trivial
  | call c next ih => exact ⟨all _ _ _, ih _⟩

instance instDecidablePermits [∀ notes c s, Decidable (ok notes c s)] : (program : Program C A E α) →
    (notes : List (Note A)) → (s : S) →
    Decidable (program.Permits exec ok notes s)
  | done _, _, _ => .isTrue trivial
  | fail _, _, _ => .isTrue trivial
  | call c next, notes, s =>
    have := instDecidablePermits (next (exec c s).1) (⟨c, (exec c s).1⟩ :: notes) (exec c s).2
    inferInstanceAs (Decidable (_ ∧ _))

end

/-- Alone, the program comes to `q` and the state to `t`. -/
inductive Reaches (exec : (c : C) → S → A c × S) : Program C A E α → S → Program C A E α → S → Prop where
  | refl (program : Program C A E α) (s : S) : Reaches exec program s program s
  | call {c : C} {next : A c → Program C A E α} {s t : S} {q : Program C A E α} :
    Reaches exec (next (exec c s).1) (exec c s).2 q t → Reaches exec (.call c next) s q t

theorem Reaches.trans {exec : (c : C) → S → A c × S} {p q r : Program C A E α} {s t u : S}
    (first : Reaches exec p s q t) (second : Reaches exec q t r u) : Reaches exec p s r u := by
  induction first with
  | refl _ _ => exact second
  | call _ ih => exact .call (ih second)

theorem reaches_of_ok {exec : (c : C) → S → A c × S} {next : S} {a : α}
    (first : program.run exec s = (.ok a, next)) : Reaches exec (program >>= f) s (f a) next := by
  induction program generalizing s with
  | done b =>
    cases first
    exact .refl _ _
  | fail e => cases first
  | call c rest ih => exact .call (ih _ first)

theorem Reaches.run_eq {exec : (c : C) → S → A c × S} {p q : Program C A E α} {s t : S}
    (reaches : Reaches exec p s q t) : p.run exec s = q.run exec t := by
  induction reaches with
  | refl _ _ => rfl
  | call _ ih => exact ih

theorem Meets.run (meets : program.Meets contract post notes s)
    (refl : ∀ s, contract.rely s s) (holds : contract.inv s)
    (permits : program.Permits contract.exec contract.ok notes s) :
    contract.inv (program.run contract.exec s).2 ∧
      Relation.ReflTransGen contract.guar s (program.run contract.exec s).2 ∧
      ∃ later, post (program.run contract.exec s).1 later (program.run contract.exec s).2 := by
  induction program generalizing notes s with
  | done a => exact ⟨holds, .refl, notes, meets⟩
  | fail e => exact ⟨holds, .refl, notes, meets⟩
  | call c next ih =>
    obtain ⟨kept, step, rest⟩ := meets s (refl s) holds permits.1
    obtain ⟨last, chain, ending⟩ := ih _ rest kept permits.2
    exact ⟨last, .head step chain, ending⟩

end Program

structure Thread (C : Type) (A : C → Type) (E α : Type) where
  program : Program C A E α
  notes : List (Note A) := []

structure Pool (ι C : Type) (A : C → Type) (E α S : Type) where
  state : S
  thread : ι → Thread C A E α

namespace Pool
variable {ι : Type} [DecidableEq ι]

section
variable (exec : (c : C) → S → A c × S) (ok : List (Note A) → C → S → Prop)

def step (pool : Pool ι C A E α S) (i : ι) : Pool ι C A E α S :=
  match (pool.thread i).program with
  | .call c next =>
    let answered := exec c pool.state
    { state := answered.2
      thread := update pool.thread i ⟨next answered.1, ⟨c, answered.1⟩ :: (pool.thread i).notes⟩ }
  | _ => pool

def Permitted (pool : Pool ι C A E α S) (i : ι) : Prop :=
  ∀ c next, (pool.thread i).program = .call c next → ok (pool.thread i).notes c pool.state

/-- The interleavings in which every call is ok. -/
inductive Run (start : Pool ι C A E α S) : Pool ι C A E α S → Prop where
  | start : Run start start
  | step {pool : Pool ι C A E α S} (i : ι) : Run start pool → pool.Permitted ok i → Run start (pool.step exec i)

end

variable {i : ι}

theorem step_call {exec : (c : C) → S → A c × S} {pool : Pool ι C A E α S} {c : C}
    {next : A c → Program C A E α} (shape : (pool.thread i).program = .call c next) :
    pool.step exec i = ⟨(exec c pool.state).2, update pool.thread i
      ⟨next (exec c pool.state).1, ⟨c, (exec c pool.state).1⟩ :: (pool.thread i).notes⟩⟩ := by
  unfold Pool.step
  rw [shape]

variable {contract : Contract A S}

def Promising (contract : Contract A S) (post : ι → Except E α → List (Note A) → S → Prop) (pool : Pool ι C A E α S) :
    Prop :=
  contract.inv pool.state ∧ ∀ i, ∃ s, contract.rely s pool.state ∧
    (pool.thread i).program.Meets contract (post i) (pool.thread i).notes s

theorem Promising.step {post : ι → Except E α → List (Note A) → S → Prop} {pool : Pool ι C A E α S}
    (promising : pool.Promising contract post) (permitted : pool.Permitted contract.ok i)
    (refl : ∀ s, contract.rely s s)
    (trans : ∀ {a b c}, contract.rely a b → contract.rely b c → contract.rely a c)
    (others : ∀ {a b}, contract.guar a b → contract.rely a b) :
      (pool.step contract.exec i).Promising contract post := by
  obtain ⟨holds, threads⟩ := promising
  unfold Pool.step
  split
  · rename_i c next shape
    obtain ⟨s, relied, meets⟩ := threads i
    rw [shape] at meets
    obtain ⟨kept, acted, rest⟩ := meets pool.state relied holds (permitted c next shape)
    refine ⟨kept, fun j => ?_⟩
    by_cases same : j = i
    · subst same
      simp only [update_self]
      exact ⟨_, refl _, rest⟩
    · simp only [update_of_ne same]
      obtain ⟨s', relied', meets'⟩ := threads j
      exact ⟨s', trans relied' (others acted), meets'⟩
  · exact ⟨holds, threads⟩

def Sound (contract : Contract A S) (pool : Pool ι C A E α S) : Prop :=
  contract.inv pool.state ∧ ∀ i, ∃ s, contract.rely s pool.state ∧
    (pool.thread i).program.Meets contract (fun _ _ _ => True) (pool.thread i).notes s

theorem Sound.step {pool : Pool ι C A E α S} (sound : pool.Sound contract)
    (permitted : pool.Permitted contract.ok i) (refl : ∀ s, contract.rely s s)
    (trans : ∀ {a b c}, contract.rely a b → contract.rely b c → contract.rely a c)
    (others : ∀ {a b}, contract.guar a b → contract.rely a b) : (pool.step contract.exec i).Sound contract :=
  Promising.step sound permitted refl trans others

theorem Run.inv {start pool : Pool ι C A E α S} (run : Run contract.exec contract.ok start pool)
    (refl : ∀ s, contract.rely s s)
    (trans : ∀ {a b c}, contract.rely a b → contract.rely b c → contract.rely a c)
    (others : ∀ {a b}, contract.guar a b → contract.rely a b) (holds : contract.inv start.state)
    (meets : ∀ i, (start.thread i).program.Meets contract (fun _ _ _ => True) (start.thread i).notes start.state) :
    contract.inv pool.state := by
  have sound : pool.Sound contract := by
    induction run with
    | start => exact ⟨holds, fun i => ⟨start.state, refl _, meets i⟩⟩
    | step i _ permitted ih => exact ih.step permitted refl trans others
  exact sound.1

theorem Run.reaches {exec : (c : C) → S → A c × S} {ok : List (Note A) → C → S → Prop}
    (all : ∀ notes c s, ok notes c s) {start pool : Pool ι C A E α S} (run : Run exec ok start pool)
    {q : Program C A E α} {t : S} (reaches : (pool.thread i).program.Reaches exec pool.state q t) :
    ∃ notes, Run exec ok start { state := t, thread := update pool.thread i ⟨q, notes⟩ } := by
  generalize shape : (pool.thread i).program = program at reaches
  generalize now : pool.state = s at reaches
  induction reaches generalizing pool with
  | refl p s =>
    subst shape now
    refine ⟨(pool.thread i).notes, ?_⟩
    rw [update_eq_self]
    exact run
  | @call c next s t q _ ih =>
    subst now
    have acted : Run exec ok start (pool.step exec i) := .step i run (fun _ _ _ => all _ _ _)
    rw [step_call shape] at acted
    obtain ⟨notes, reached⟩ := ih acted (by simp only [update_self]) rfl
    rw [update_idem] at reached
    exact ⟨notes, reached⟩

theorem Run.alone {exec : (c : C) → S → A c × S} {ok : List (Note A) → C → S → Prop} {start pool : Pool ι C A E α S}
    (run : Run exec ok start pool) (i : ι)
    (permits : (pool.thread i).program.Permits exec ok (pool.thread i).notes pool.state) :
    ∃ thread, Run exec ok start
      { state := ((pool.thread i).program.run exec pool.state).2, thread := update pool.thread i thread } := by
  generalize shape : (pool.thread i).program = program at permits
  induction program generalizing pool with
  | done a =>
    refine ⟨pool.thread i, ?_⟩
    rw [update_eq_self]
    exact run
  | fail e =>
    refine ⟨pool.thread i, ?_⟩
    rw [update_eq_self]
    exact run
  | call c next ih =>
    have acted := run.step i (by
      intro c' next' same
      rw [shape] at same
      cases same
      exact permits.1)
    rw [step_call shape] at acted
    obtain ⟨thread, reached⟩ := ih (exec c pool.state).1 acted (by simp only [update_self]) (by
      simp only [update_self]
      exact permits.2)
    rw [update_idem] at reached
    exact ⟨thread, reached⟩

inductive Course (exec : (c : C) → S → A c × S) (allowed : Pool ι C A E α S → ι → Prop) (drift : S → S → Prop)
    (start : Pool ι C A E α S) : Pool ι C A E α S → Prop where
  | start : Course exec allowed drift start start
  | step {pool : Pool ι C A E α S} (i : ι) : Course exec allowed drift start pool → allowed pool i →
    Course exec allowed drift start (pool.step exec i)
  | drift {pool : Pool ι C A E α S} {t : S} : Course exec allowed drift start pool → drift pool.state t →
    Course exec allowed drift start { pool with state := t }

def watching (exec : (c : C) → S → A c × S) (inv : S → Prop) : Contract A S where
  exec := exec
  inv := fun _ => True
  rely := fun _ t => inv t
  guar := fun _ _ => True
  ok := fun _ _ _ => True

theorem watching_true (exec : (c : C) → S → A c × S) (inv : S → Prop) (program : Program C A E α)
    (notes : List (Note A)) (s : S) : program.Meets (watching exec inv) (fun _ _ _ => True) notes s := by
  induction program generalizing notes s with
  | done a => trivial
  | fail e => trivial
  | call c next ih => exact fun t _ _ _ => ⟨trivial, trivial, ih _ _ _⟩

section
variable {exec : (c : C) → S → A c × S} {allowed : Pool ι C A E α S → ι → Prop} {drift : S → S → Prop}
  {start pool last : Pool ι C A E α S}

theorem Course.trans (first : Course exec allowed drift start pool) (second : Course exec allowed drift pool last) :
    Course exec allowed drift start last := by
  induction second with
  | start => exact first
  | step i _ permitted ih => exact .step i ih permitted
  | drift _ moved ih => exact .drift ih moved

theorem Course.schedule (all : ∀ pool i, allowed pool i) (course : Course exec allowed drift start pool)
    (order : List ι) :
    Course exec allowed drift start (order.foldl (Pool.step exec) pool) := by
  induction order generalizing pool with
  | nil => exact course
  | cons i rest ih => exact ih (.step i course (all pool i))

theorem Course.keeps {I : Pool ι C A E α S → Prop} (course : Course exec allowed drift start pool) (holds : I start)
    (step : ∀ pool i c next, I pool → allowed pool i → (pool.thread i).program = .call c next →
      I ⟨(exec c pool.state).2, update pool.thread i
        ⟨next (exec c pool.state).1, ⟨c, (exec c pool.state).1⟩ :: (pool.thread i).notes⟩⟩)
    (moves : ∀ pool t, I pool → drift pool.state t → I { pool with state := t }) : I pool := by
  induction course with
  | start => exact holds
  | @step pool i _ permitted ih =>
    cases shape : (pool.thread i).program with
    | call c next =>
      rw [step_call shape]
      exact step pool i c next ih permitted shape
    | done a =>
      unfold Pool.step
      rw [shape]
      exact ih
    | fail e =>
      unfold Pool.step
      rw [shape]
      exact ih
  | drift _ moved ih => exact moves _ _ ih moved

variable {i : ι} {post : ι → Except E α → List (Note A) → S → Prop}

theorem Course.keeps_thread {P : Thread C A E α → Prop} {I : S → Prop} (course : Course exec allowed drift start pool)
    (along : ∀ pool, Course exec allowed drift start pool → I pool.state) (holds : P (start.thread i))
    (step : ∀ (thread : Thread C A E α) c next s, P thread → I s → thread.program = .call c next →
    P ⟨next (exec c s).1, ⟨c, (exec c s).1⟩ :: thread.notes⟩) : P (pool.thread i) := by
  induction course with
  | start => exact holds
  | @step pool j before permitted ih =>
    cases shape : (pool.thread j).program with
    | call c next =>
      rw [step_call shape]
      by_cases same : i = j
      · subst same
        simp only [update_self]
        exact step _ c next _ ih (along pool before) shape
      · simp only [update_of_ne same]
        exact ih
    | done a =>
      unfold Pool.step
      rw [shape]
      exact ih
    | fail e =>
      unfold Pool.step
      rw [shape]
      exact ih
  | drift _ _ ih => exact ih

theorem Course.meets {inv : S → Prop} {post : Except E α → List (Note A) → Prop} {s : S}
    (course : Course exec allowed drift start pool)
    (along : ∀ pool, Course exec allowed drift start pool → inv pool.state)
    (meets : (start.thread i).program.Meets (watching exec inv) (fun outcome notes _ => post outcome notes)
    (start.thread i).notes s) :
    ∃ t, (pool.thread i).program.Meets (watching exec inv) (fun outcome notes _ => post outcome notes)
      (pool.thread i).notes t := by
  refine course.keeps_thread (P := fun thread => ∃ t, thread.program.Meets (watching exec inv)
    (fun outcome notes _ => post outcome notes) thread.notes t) along ⟨s, meets⟩ ?_
  rintro thread c next now ⟨t, meets⟩ holds shape
  rw [shape] at meets
  exact ⟨_, (meets now holds trivial trivial).2.2⟩

theorem Course.returned {inv : S → Prop} {post : Except E α → List (Note A) → Prop} {s : S} {a : α}
    (course : Course exec allowed drift start pool)
    (along : ∀ pool, Course exec allowed drift start pool → inv pool.state)
    (meets : (start.thread i).program.Meets (watching exec inv) (fun outcome notes _ => post outcome notes)
    (start.thread i).notes s) (returned : (pool.thread i).program = .done a) :
    post (.ok a) (pool.thread i).notes := by
  obtain ⟨t, meets⟩ := course.meets along meets
  rw [returned] at meets
  exact meets

theorem Course.promising {contract : Contract A S}
    (course : Course contract.exec (fun pool i => pool.Permitted contract.ok i) drift start pool)
    (refl : ∀ s, contract.rely s s) (trans : ∀ {a b c}, contract.rely a b → contract.rely b c → contract.rely a c)
    (others : ∀ {a b}, contract.guar a b → contract.rely a b)
    (drifts : ∀ {a b}, contract.inv a → drift a b → contract.inv b ∧ contract.rely a b)
    (holds : contract.inv start.state)
    (meets : ∀ i, (start.thread i).program.Meets contract (post i) (start.thread i).notes start.state) :
    pool.Promising contract post := by
  induction course with
  | start => exact ⟨holds, fun i => ⟨start.state, refl _, meets i⟩⟩
  | step i _ permitted ih => exact ih.step permitted refl trans others
  | drift _ moved ih =>
    obtain ⟨holds, threads⟩ := ih
    obtain ⟨kept, near⟩ := drifts holds moved
    refine ⟨kept, fun j => ?_⟩
    obtain ⟨s, relied, meets⟩ := threads j
    exact ⟨s, trans relied near, meets⟩

omit [DecidableEq ι] in
theorem Promising.returned {contract : Contract A S}
    (promising : pool.Promising contract post) {a : α} (returned : (pool.thread i).program = .done a) :
    ∃ s, contract.rely s pool.state ∧ post i (.ok a) (pool.thread i).notes s := by
  obtain ⟨s, relied, meets⟩ := promising.2 i
  rw [returned] at meets
  exact ⟨s, relied, meets⟩

theorem Course.uses {p : C → Prop} (course : Course exec allowed drift start pool)
    (uses : (start.thread i).program.Uses p) : (pool.thread i).program.Uses p := by
  refine course.keeps_thread (P := fun thread => thread.program.Uses p) (I := fun _ => True)
    (fun _ _ => trivial) uses ?_
  intro thread c next s uses _ shape
  rw [shape] at uses
  exact uses.2 _

theorem Course.each {P : (c : C) → (A c → Program C A E α) → Prop}
    (course : Course exec allowed drift start pool) (each : (start.thread i).program.Each P) :
    (pool.thread i).program.Each P := by
  refine course.keeps_thread (P := fun thread => thread.program.Each P) (I := fun _ => True)
    (fun _ _ => trivial) each ?_
  intro thread c next s each _ shape
  rw [shape] at each
  exact each.2 _

theorem Course.keeps_state {I : S → Prop} {p : C → Prop} (course : Course exec allowed drift start pool)
    (uses : ∀ i, (start.thread i).program.Uses p) (holds : I start.state)
    (step : ∀ c s, p c → I s → I (exec c s).2) (moves : ∀ s t, I s → drift s t → I t) : I pool.state := by
  induction course with
  | start => exact holds
  | @step pool i before _ ih =>
    cases shape : (pool.thread i).program with
    | call c next =>
      have made := before.uses (uses i)
      rw [shape] at made
      rw [step_call shape]
      exact step c pool.state made.1 ih
    | done a =>
      unfold Pool.step
      rw [shape]
      exact ih
    | fail e =>
      unfold Pool.step
      rw [shape]
      exact ih
  | drift _ moved ih => exact moves _ _ ih moved

theorem Course.notes (course : Course exec allowed drift start pool) (i : ι) :
    (start.thread i).notes <:+ (pool.thread i).notes := by
  refine course.keeps_thread (P := fun thread => (start.thread i).notes <:+ thread.notes) (I := fun _ => True)
    (fun _ _ => trivial) (List.suffix_refl _) ?_
  intro thread c next s longer _ _
  exact longer.trans (List.suffix_cons _ _)

theorem Course.unstarted (course : Course exec allowed drift start pool) (none : (pool.thread i).notes = []) :
    pool.thread i = start.thread i := by
  refine course.keeps_thread (P := fun thread => thread.notes = [] → thread = start.thread i) (I := fun _ => True)
    (fun _ _ => trivial) (fun _ => rfl) ?_ none
  intro thread c next s _ _ _ impossible
  cases impossible

end

end Pool

end Aeterna.Lib

/-!
Calls to a service that may fail: before they are carried out, or after.
-/

namespace Aeterna.Lib

inductive CallFault where
  | refused (error : String)
  | unanswered (error : String)

namespace CallFault

def settle {α W : Type} (value : α) (before after : W) : Option CallFault → Except String α × W
  | none => (.ok value, after)
  | some (refused error) => (.error error, before)
  | some (unanswered error) => (.error error, after)

def CarriedOut (fault : Option CallFault) : Prop := ∀ e, fault ≠ some (refused e)

instance : (fault : Option CallFault) → Decidable (CarriedOut fault)
  | none | some (unanswered _) => .isTrue nofun
  | some (refused e) => .isFalse (fun carried => carried e rfl)

theorem carriedOut_none : CarriedOut none := nofun

theorem carriedOut_unanswered (error : String) : CarriedOut (some (unanswered error)) := nofun

theorem settle_keeps {α W : Type} {Q : W → Prop} {value : α} {before after : W} {fault : Option CallFault}
    (untouched : Q before) (carried : CarriedOut fault → Q after) : Q (settle value before after fault).2 := by
  cases fault with
  | none => exact carried carriedOut_none
  | some fault =>
    cases fault with
    | refused e => exact untouched
    | unanswered e => exact carried (carriedOut_unanswered e)

theorem settle_ok {α W : Type} {value a : α} {before after : W} {fault : Option CallFault}
    (answered : (settle value before after fault).1 = .ok a) :
      value = a ∧ (settle value before after fault).2 = after := by
  cases fault with
  | none =>
    cases answered
    exact ⟨rfl, rfl⟩
  | some fault => cases fault <;> cases answered

end CallFault

end Aeterna.Lib
