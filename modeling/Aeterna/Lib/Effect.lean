import Mathlib.Logic.Relation

open List

namespace Aeterna.Lib

theorem except_bind_ok {ε α β : Type} {first : Except ε α} {next : α → Except ε β} {result : β} :
    (first >>= next) = .ok result ↔ ∃ value, first = .ok value ∧ next value = .ok result := by
  cases first with
  | error err => simp [Bind.bind, Except.bind]
  | ok value => simp [Bind.bind, Except.bind]

theorem except_map_ok {ε α β : Type} {first : Except ε α} {f : α → β} {result : β} :
    first.map f = .ok result ↔ ∃ value, first = .ok value ∧ f value = result := by
  cases first with
  | error err => simp [Except.map]
  | ok value => simp [Except.map]

def Eff (σ ε α : Type) : Type := σ → Except ε α × σ

namespace Eff
variable {σ ε α β : Type}

instance : Monad (Eff σ ε) where
  pure a := fun c => (.ok a, c)
  bind x f := fun c =>
    match x c with
    | (.ok a, next) => f a next
    | (.error e, next) => (.error e, next)

variable (e : ε)

def fail : Eff σ ε α := fun c => (.error e, c)

def get : Eff σ ε σ := fun c => (.ok c, c)

def modify (f : σ → σ) : Eff σ ε Unit := fun c => (.ok (), f c)

def ofExcept (e : Except ε α) : Eff σ ε α := fun c => (e, c)

def ofOption : Option α → Eff σ ε α
  | some a => pure a
  | none => fail e

/-- Runs `x` and hands its outcome to the caller, error or not. -/
def attempt (x : Eff σ ε α) : Eff σ ε (Except ε α) := fun c => (.ok (x c).1, (x c).2)

/-- Runs `x` and hands its outcome to a caller with errors of its own. -/
def outcome {ε' : Type} (x : Eff σ ε α) : Eff σ ε' (Except ε α) := fun c => (.ok (x c).1, (x c).2)

def mapError {ε' : Type} (f : ε → ε') (x : Eff σ ε α) : Eff σ ε' α := fun c => ((x c).1.mapError f, (x c).2)

def ignore (x : Eff σ ε α) : Eff σ ε Unit := fun c => (.ok (), (x c).2)

/-- Runs `x` in a transaction: a failure is rolled back. -/
def transaction (x : Eff σ ε α) : Eff σ ε α := fun c =>
  match x c with
  | (.ok a, next) => (.ok a, next)
  | (.error e, _) => (.error e, c)

/-- Runs `f` on every element in order, stopping at the first failure. -/
def forEach (f : α → Eff σ ε Unit) : List α → Eff σ ε Unit
  | [] => pure ()
  | a :: rest => do
    f a
    forEach f rest

/-- Runs `f` on every element in order, and puts together what it returns. -/
def gather (f : α → Eff σ ε (List β)) : List α → Eff σ ε (List β)
  | [] => pure []
  | a :: rest => do
    let first ← f a
    let others ← gather f rest
    pure (first ++ others)

/-- Runs attempt `n`, and after a failure the next one, `more` times at most. -/
def retry (x : Nat → Eff σ ε α) (n : Nat) : Nat → Eff σ ε α
  | 0 => x n
  | more + 1 => do
    match ← (x n).outcome with
    | .ok a => pure a
    | .error _ => retry x (n + 1) more

@[simp] theorem pure_run (a : α) (c : σ) : (pure a : Eff σ ε α) c = (.ok a, c) := rfl

@[simp] theorem fail_run (c : σ) : (fail e : Eff σ ε α) c = (.error e, c) := rfl

@[simp] theorem get_run (c : σ) : (get : Eff σ ε σ) c = (.ok c, c) := rfl

@[simp] theorem modify_run (f : σ → σ) (c : σ) : (modify f : Eff σ ε Unit) c = (.ok (), f c) := rfl

@[simp] theorem attempt_run (x : Eff σ ε α) (c : σ) : x.attempt c = (.ok (x c).1, (x c).2) := rfl

@[simp] theorem outcome_run {ε' : Type} (x : Eff σ ε α) (c : σ) :
    (x.outcome : Eff σ ε' (Except ε α)) c = (.ok (x c).1, (x c).2) := rfl

@[simp] theorem mapError_run {ε' : Type} (f : ε → ε') (x : Eff σ ε α) (c : σ) :
    x.mapError f c = ((x c).1.mapError f, (x c).2) := rfl

@[simp] theorem ignore_run (x : Eff σ ε α) (c : σ) : x.ignore c = (.ok (), (x c).2) := rfl

theorem bind_run (x : Eff σ ε α) (f : α → Eff σ ε β) (c : σ) : (x >>= f) c = match x c with
      | (.ok a, next) => f a next
      | (.error e, next) => (.error e, next) := rfl

theorem bind_pure_right (x : Eff σ ε α) : (x >>= fun a => pure a) = x := by
  funext c
  rw [bind_run]
  rcases x c with ⟨outcome, next⟩
  cases outcome <;> rfl

theorem bind_assoc {γ : Type} (x : Eff σ ε α) (f : α → Eff σ ε β) (g : β → Eff σ ε γ) :
    (x >>= f) >>= g = x >>= fun a => f a >>= g := by
  funext c
  rw [bind_run, bind_run, bind_run]
  rcases x c with ⟨outcome, next⟩
  cases outcome <;> rfl

theorem forEach_append (f : α → Eff σ ε Unit) (first second : List α) :
    forEach f (first ++ second) = forEach f first >>= fun _ => forEach f second := by
  induction first with
  | nil => rfl
  | cons a rest ih =>
    show (f a >>= fun _ => forEach f (rest ++ second)) = (f a >>= fun _ => forEach f rest) >>= fun _ =>
      forEach f second
    rw [ih, bind_assoc]

theorem forEach_map {γ : Type} (g : γ → α) (f : α → Eff σ ε Unit) (items : List γ) :
    forEach f (items.map g) = forEach (fun a => f (g a)) items := by
  induction items with
  | nil => rfl
  | cons a rest ih =>
    show (f (g a) >>= fun _ => forEach f (rest.map g)) = f (g a) >>= fun _ => forEach (fun a => f (g a)) rest
    rw [ih]

variable {x : Eff σ ε α} {next last : σ} {a : α} {items : List α}

theorem bind_of_ok {f : α → Eff σ ε β} {c : σ} (h : x c = (.ok a, next)) : (x >>= f) c = f a next := by
  rw [bind_run, h]

theorem bind_of_error {f : α → Eff σ ε β} {c : σ} {e : ε} (h : x c = (.error e, next)) :
    (x >>= f) c = (.error e, next) := by
  rw [bind_run, h]

theorem after_ofExcept {e : Except ε α} {f : α → Eff σ ε β} {c : σ} {P : Except ε β × σ → Prop}
    (fails : ∀ err, e = .error err → P (.error err, c)) (goes : ∀ a, e = .ok a → P (f a c)) :
    P ((ofExcept e >>= f) c) := by
  cases outcome : e with
  | ok a =>
    have first : (ofExcept (.ok a) : Eff σ ε α) c = (.ok a, c) := rfl
    rw [bind_of_ok first]
    exact goes a outcome
  | error err =>
    have first : (ofExcept (.error err) : Eff σ ε α) c = (.error err, c) := rfl
    rw [bind_of_error first]
    exact fails err outcome

theorem bind_ok {f : α → Eff σ ε β} {c : σ} {b : β} (h : (x >>= f) c = (.ok b, last)) :
    ∃ a next, x c = (.ok a, next) ∧ f a next = (.ok b, last) := by
  rw [bind_run] at h
  split at h
  · rename_i a next first
    exact ⟨a, next, first, h⟩
  · simp at h

theorem bind_error {f : α → Eff σ ε β} {c : σ} {e : ε} (h : (x >>= f) c = (.error e, last)) :
    x c = (.error e, last) ∨ ∃ a next, x c = (.ok a, next) ∧ f a next = (.error e, last) := by
  rw [bind_run] at h
  split at h
  · rename_i a next first
    exact .inr ⟨a, next, first, h⟩
  · rename_i other next first
    cases h
    exact .inl first

theorem mapError_ok {ε' : Type} {f : ε → ε'} {c : σ} (h : x.mapError f c = (.ok a, next)) : x c = (.ok a, next) := by
  rw [mapError_run] at h
  generalize x c = ran at h ⊢
  obtain ⟨outcome, last⟩ := ran
  cases outcome with
  | ok b =>
    cases h
    rfl
  | error e => cases h

theorem mapError_of_ok {ε' : Type} {f : ε → ε'} {c : σ} (h : x c = (.ok a, next)) :
    x.mapError f c = (.ok a, next) := by
  rw [mapError_run, h]
  rfl

def FailsWith (P : ε → Prop) (x : Eff σ ε α) : Prop := ∀ c e, (x c).1 = .error e → P e

section
variable {P : ε → Prop}

theorem FailsWith.pure (a : α) : FailsWith P (Pure.pure a : Eff σ ε α) := fun _ _ failed => by cases failed

theorem FailsWith.fail {e : ε} (holds : P e) : FailsWith P (fail e : Eff σ ε α) := by
  intro c other failed
  cases failed
  exact holds

theorem FailsWith.mapError {ε' : Type} {f : ε' → ε} (each : ∀ e, P (f e)) (x : Eff σ ε' α) :
    FailsWith P (x.mapError f) := by
  intro c e failed
  rw [mapError_run] at failed
  generalize x c = ran at failed
  obtain ⟨outcome, last⟩ := ran
  cases outcome with
  | ok a => cases failed
  | error original =>
    cases failed
    exact each original

theorem FailsWith.bind {x : Eff σ ε α} {f : α → Eff σ ε β} (first : FailsWith P x) (second : ∀ a, FailsWith P (f a)) :
    FailsWith P (x >>= f) := by
  intro c e failed
  have start := first c
  rw [bind_run] at failed
  split at failed
  · rename_i a next eq
    exact second a next e failed
  · rename_i other next eq
    cases failed
    exact start e (congrArg Prod.fst eq)

end

/-- Whatever its outcome, `x` takes the context through moves of `R` only. -/
def Walks (R : σ → σ → Prop) (x : Eff σ ε α) : Prop := ∀ c, Relation.ReflTransGen R c (x c).2

section
variable {R : σ → σ → Prop}

theorem Walks.pure (a : α) : Walks R (Pure.pure a : Eff σ ε α) := fun _ => .refl

theorem Walks.fail (e : ε) : Walks R (fail e : Eff σ ε α) := fun _ => .refl

theorem Walks.get : Walks R (get : Eff σ ε σ) := fun _ => .refl

theorem Walks.modify {f : σ → σ} (h : ∀ c, R c (f c)) : Walks R (modify f : Eff σ ε Unit) :=
  fun c => .single (h c)

variable {x : Eff σ ε α}

theorem Walks.attempt (h : Walks R x) : Walks R x.attempt := h

theorem Walks.ignore (h : Walks R x) : Walks R x.ignore := h

theorem Walks.bind {f : α → Eff σ ε β} (first : Walks R x) (second : ∀ a, Walks R (f a)) : Walks R (x >>= f) := by
  intro c
  have start := first c
  rw [bind_run]
  split
  · rename_i a next eq
    rw [eq] at start
    exact start.trans (second a next)
  · rename_i e next eq
    rw [eq] at start
    exact start

theorem Walks.forEach {f : α → Eff σ ε Unit} (each : ∀ a, Walks R (f a)) (items : List α) :
    Walks R (forEach f items) := by
  induction items with
  | nil => exact Walks.pure ()
  | cons a rest ih => exact Walks.bind (each a) (fun _ => ih)

theorem Walks.mono {R' : σ → σ → Prop} (walks : Walks R x) (wider : ∀ c next, R c next → R' c next) : Walks R' x :=
  fun c => Relation.ReflTransGen.mono wider _ _ (walks c)

theorem Walks.keeps (walks : Walks R x) {I : σ → Prop}
    (step : ∀ c next, R c next → I c → I next) {c : σ} (holds : I c) : I (x c).2 := by
  have along : ∀ last, Relation.ReflTransGen R c last → I last := by
    intro last path
    induction path with
    | refl => exact holds
    | tail _ move ih => exact step _ _ move ih
  exact along _ (walks c)

end

def Keeps (I : σ → Prop) (x : Eff σ ε α) : Prop := ∀ c, I c → I (x c).2

section
variable {I : σ → Prop}

variable {x : Eff σ ε α}

theorem Keeps.follow {f : α → Eff σ ε β} {c : σ} (second : ∀ a, Keeps I (f a)) (first : I (x c).2) :
    I ((x >>= f) c).2 := by
  rw [bind_run]
  split
  · rename_i a next eq
    rw [eq] at first
    exact second a next first
  · rename_i e next eq
    rw [eq] at first
    exact first

theorem Keeps.bind {f : α → Eff σ ε β} (first : Keeps I x) (second : ∀ a, Keeps I (f a)) : Keeps I (x >>= f) :=
  fun c holds => Keeps.follow second (first c holds)

theorem Keeps.forEach {f : α → Eff σ ε Unit} {items : List α} (each : ∀ a ∈ items, Keeps I (f a)) :
    Keeps I (forEach f items) := by
  induction items with
  | nil => exact fun _ holds => holds
  | cons a rest ih =>
    refine Keeps.bind (each a mem_cons_self) (fun _ => ih ?_)
    exact fun other member => each other (mem_cons_of_mem a member)

theorem Keeps.transaction (keeps : Keeps I x) : Keeps I x.transaction := by
  intro c holds
  have after := keeps c holds
  unfold Eff.transaction
  split
  · rename_i a next eq
    rw [eq] at after
    exact after
  · exact holds

theorem transaction_cases (x : Eff σ ε α) (c : σ) :
    (∃ a, (x c).1 = .ok a ∧ (x.transaction c).2 = (x c).2) ∨ (x.transaction c).2 = c := by
  unfold Eff.transaction
  split
  · rename_i a next eq
    exact .inl ⟨a, congrArg Prod.fst eq, (congrArg Prod.snd eq).symm⟩
  · exact .inr rfl

theorem forEach_ok {f : α → Eff σ ε Unit} {items : List α} {P : α → Prop} {c : σ} {u : Unit} (holds : I c)
    (keeps : ∀ a ∈ items, Keeps I (f a)) (each : ∀ a ∈ items, ∀ c, I c → (f a c).1 = .ok () → P a)
    (succeeds : (forEach f items c).1 = .ok u) : ∀ a ∈ items, P a := by
  induction items generalizing c with
  | nil => exact fun _ member => absurd member not_mem_nil
  | cons a rest ih =>
    obtain ⟨_, next, first, others⟩ := bind_ok (Prod.ext succeeds rfl : _ = (Except.ok u, _))
    intro other member
    rcases mem_cons.mp member with rfl | later
    · exact each other mem_cons_self c holds (congrArg Prod.fst first)
    · have kept := keeps a mem_cons_self c holds
      rw [first] at kept
      exact ih kept (fun b inside => keeps b (mem_cons_of_mem a inside))
        (fun b inside => each b (mem_cons_of_mem a inside)) (congrArg Prod.fst others) other later

end

section
variable {I : σ → Prop} {ε' : Type}

theorem Keeps.pure (a : α) : Keeps I (Pure.pure a : Eff σ ε α) := fun _ holds => holds

theorem Keeps.fail (e : ε) : Keeps I (fail e : Eff σ ε α) := fun _ holds => holds

theorem Keeps.get : Keeps I (get : Eff σ ε σ) := fun _ holds => holds

theorem Keeps.ofExcept (e : Except ε α) : Keeps I (ofExcept e) := fun _ holds => holds

variable {x : Eff σ ε α}

theorem Keeps.after {c next : σ} {outcome : Except ε α} (keeps : Keeps I x) (holds : I c)
    (ran : x c = (outcome, next)) : I next := by
  have kept := keeps c holds
  rwa [ran] at kept

theorem Keeps.outcome (keeps : Keeps I x) : Keeps I (x.outcome : Eff σ ε' (Except ε α)) := keeps

theorem Keeps.mapError {f : ε → ε'} (keeps : Keeps I x) : Keeps I (x.mapError f) := keeps

theorem Keeps.gather {f : α → Eff σ ε (List β)} {items : List α} (each : ∀ a ∈ items, Keeps I (f a)) :
    Keeps I (gather f items) := by
  induction items with
  | nil => exact .pure []
  | cons a rest ih =>
    refine (each a mem_cons_self).bind (fun _ => .bind (ih ?_) (fun _ => .pure _))
    exact fun other member => each other (mem_cons_of_mem a member)

end

def Yields (I : σ → Prop) (Q : α → Prop) (x : Eff σ ε α) : Prop := ∀ c, I c → I (x c).2 ∧ ∀ a, (x c).1 = .ok a → Q a

section
variable {I : σ → Prop} {Q : α → Prop} {ε' : Type}

theorem Yields.pure {a : α} (holds : Q a) : Yields I Q (Pure.pure a : Eff σ ε α) := by
  refine fun c kept => ⟨kept, fun b same => ?_⟩
  cases same
  exact holds

theorem Yields.fail (e : ε) : Yields I Q (fail e : Eff σ ε α) := fun _ kept => ⟨kept, fun _ same => by cases same⟩

variable {x : Eff σ ε α}

theorem Yields.bind {P : β → Prop} {f : α → Eff σ ε β} (first : Yields I Q x)
    (second : ∀ a, Q a → Yields I P (f a)) : Yields I P (x >>= f) := by
  intro c kept
  obtain ⟨after, returned⟩ := first c kept
  rw [bind_run]
  split
  · rename_i a next eq
    rw [eq] at after returned
    exact second a (returned a rfl) next after
  · rename_i e next eq
    rw [eq] at after
    exact ⟨after, fun _ same => by cases same⟩

theorem Yields.mapError {f : ε → ε'} (yields : Yields I Q x) : Yields I Q (x.mapError f) := by
  intro c kept
  obtain ⟨after, returned⟩ := yields c kept
  refine ⟨after, fun a same => returned a ?_⟩
  rw [mapError_run] at same
  cases outcome : (x c).1 with
  | ok b =>
    rw [outcome] at same
    cases same
    rfl
  | error e =>
    rw [outcome] at same
    cases same

theorem Yields.mono {P : α → Prop} (yields : Yields I Q x) (wider : ∀ a, Q a → P a) : Yields I P x :=
  fun c kept => ⟨(yields c kept).1, fun a same => wider a ((yields c kept).2 a same)⟩

theorem Yields.keeps (yields : Yields I Q x) : Keeps I x := fun c kept => (yields c kept).1

theorem Keeps.yields (keeps : Keeps I x) : Yields I (fun _ => True) x :=
  fun c kept => ⟨keeps c kept, fun _ _ => trivial⟩

end

theorem gather_cons_nil {f : α → Eff σ ε (List β)} {rest : List α} {c : σ}
    (done : gather f (a :: rest) c = (.ok [], last)) :
    ∃ next, f a c = (.ok [], next) ∧ gather f rest next = (.ok [], last) := by
  obtain ⟨first, next, ran, done⟩ := bind_ok done
  obtain ⟨others, after, later, done⟩ := bind_ok done
  have both : first ++ others = [] ∧ after = last := by simpa using done
  obtain ⟨rfl, rfl⟩ := append_eq_nil_iff.mp both.1
  obtain rfl := both.2
  exact ⟨next, ran, later⟩

theorem gather_each {P : α → σ → Prop} {f : α → Eff σ ε (List β)} {c : σ}
    (keeps : ∀ a ∈ items, ∀ b ∈ items, Keeps (P a) (f b))
    (each : ∀ a ∈ items, ∀ c next, f a c = (.ok [], next) → P a next) (done : gather f items c = (.ok [], last)) :
    ∀ a ∈ items, P a last := by
  induction items generalizing c with
  | nil => exact fun _ member => absurd member not_mem_nil
  | cons a rest ih =>
    obtain ⟨next, first, later⟩ := gather_cons_nil done
    intro other member
    rcases mem_cons.mp member with rfl | inside
    · have kept : Keeps (P other) (gather f rest) :=
        .gather (fun b inside => keeps other mem_cons_self b (mem_cons_of_mem _ inside))
      have holds := kept next (each other mem_cons_self c next first)
      rwa [later] at holds
    · refine ih (fun x xs y ys => ?_) (fun x xs => each x (mem_cons_of_mem _ xs)) later other inside
      exact keeps x (mem_cons_of_mem _ xs) y (mem_cons_of_mem _ ys)

/-- Whatever its outcome, `x` leaves what `view` shows. -/
def Fixes {ν : Type} (view : σ → ν) (x : Eff σ ε α) : Prop := ∀ c, view (x c).2 = view c

section
variable {ν ε' : Type} {view : σ → ν}

variable {x : Eff σ ε α}

theorem Fixes.keeps (fixes : Fixes view x) (I : ν → Prop) : Keeps (fun c => I (view c)) x := by
  intro c holds
  show I (view (x c).2)
  rw [fixes c]
  exact holds

theorem Fixes.after {c next : σ} {outcome : Except ε α} (fixes : Fixes view x) (ran : x c = (outcome, next)) :
    view next = view c := by
  have kept := fixes c
  rwa [ran] at kept

theorem Fixes.pure (a : α) : Fixes view (Pure.pure a : Eff σ ε α) := fun _ => rfl

theorem Fixes.fail (e : ε) : Fixes view (fail e : Eff σ ε α) := fun _ => rfl

theorem Fixes.get : Fixes view (get : Eff σ ε σ) := fun _ => rfl

theorem Fixes.ofExcept (e : Except ε α) : Fixes view (ofExcept e) := fun _ => rfl

theorem Fixes.modify {f : σ → σ} (same : ∀ c, view (f c) = view c) : Fixes view (modify f : Eff σ ε Unit) := same

theorem Fixes.outcome (fixes : Fixes view x) : Fixes view (x.outcome : Eff σ ε' (Except ε α)) := fixes

theorem Fixes.mapError {f : ε → ε'} (fixes : Fixes view x) : Fixes view (x.mapError f) := fixes

theorem Fixes.bind {f : α → Eff σ ε β} (first : Fixes view x) (second : ∀ a, Fixes view (f a)) :
    Fixes view (x >>= f) := by
  intro c
  have start := first c
  rw [bind_run]
  split
  · rename_i a next eq
    rw [eq] at start
    exact (second a next).trans start
  · rename_i e next eq
    rw [eq] at start
    exact start

theorem Fixes.gather {f : α → Eff σ ε (List β)} (each : ∀ a, Fixes view (f a)) (items : List α) :
    Fixes view (gather f items) := by
  induction items with
  | nil => exact .pure []
  | cons a rest ih => exact (each a).bind (fun _ => ih.bind (fun _ => .pure _))

end

/-- Unless it fails with a `bad` error, `x` takes a context to a related one. -/
def Unless (bad : ε → Prop) (R : σ → σ → Prop) (x : Eff σ ε α) : Prop :=
  ∀ c, (∀ e, (x c).1 = .error e → ¬ bad e) → R c (x c).2

section
variable {bad : ε → Prop} {R : σ → σ → Prop}

theorem Unless.of_always {x : Eff σ ε α} (always : ∀ c, R c (x c).2) : Unless bad R x :=
  fun c _ => always c

theorem Unless.bind (trans : ∀ {a b c}, R a b → R b c → R a c) {x : Eff σ ε α} {f : α → Eff σ ε β}
    (first : Unless bad R x) (second : ∀ a, Unless bad R (f a)) : Unless bad R (x >>= f) := by
  intro c fine
  have start := first c
  rw [bind_run] at fine ⊢
  split at fine
  · rename_i a next eq
    rw [eq] at start
    exact trans (start (fun _ impossible => by cases impossible)) (second a next fine)
  · rename_i e next eq
    rw [eq] at start
    refine start (fun other same => ?_)
    cases same
    exact fine e rfl

end

/-- A loop brings about what its one step for `a` brings about, if the other steps leave the ground for it,
and then leave it be. -/
theorem forEach_lone {I J : σ → Prop} {f : α → Eff σ ε Unit} (nodup : items.Nodup)
    (member : a ∈ items) (never : ∀ b c, (f b c).1 = .ok ()) (before : ∀ b ∈ items, b ≠ a → Keeps I (f b))
    (here : ∀ c, I c → J (f a c).2) (after : ∀ b ∈ items, b ≠ a → Keeps J (f b)) {c : σ} (holds : I c) :
    J (forEach f items c).2 := by
  induction items generalizing c with
  | nil => exact absurd member not_mem_nil
  | cons first rest ih =>
    obtain ⟨fresh, nodup⟩ := nodup_cons.mp nodup
    have goes : f first c = (.ok (), (f first c).2) := Prod.ext (never first c) rfl
    show J ((f first >>= fun _ => forEach f rest) c).2
    rw [bind_of_ok goes]
    by_cases same : first = a
    · subst same
      refine Keeps.forEach (fun b inside => ?_) _ (here c holds)
      exact after b (mem_cons_of_mem _ inside) (fun equal => fresh (equal ▸ inside))
    · have later : a ∈ rest := (mem_cons.mp member).resolve_left (Ne.symm same)
      exact ih nodup later (fun b inside => before b (mem_cons_of_mem _ inside))
        (fun b inside => after b (mem_cons_of_mem _ inside)) (before first mem_cons_self same c holds)

theorem forEach_idle {f : α → Eff σ ε Unit} {c : σ} (idle : ∀ a ∈ items, f a c = (.ok (), c)) :
    forEach f items c = (.ok (), c) := by
  induction items with
  | nil => rfl
  | cons a rest ih =>
    have first := idle a mem_cons_self
    exact (bind_of_ok first).trans (ih (fun b member => idle b (mem_cons_of_mem _ member)))

theorem forEach_rises {f : α → Eff σ ε Unit} {measure : σ → Nat} {c : σ} {u : Unit}
    (grows : ∀ a c next u, f a c = (.ok u, next) → measure c ≤ measure next)
    (ran : forEach f items c = (.ok u, last)) :
    measure c ≤ measure last := by
  induction items generalizing c with
  | nil =>
    cases ran
    exact Nat.le_refl _
  | cons a rest ih =>
    obtain ⟨_, next, first, later⟩ := bind_ok ran
    exact Nat.le_trans (grows a c next _ first) (ih later)

theorem forEach_still {I : σ → Prop} {P : α → Prop} {f : α → Eff σ ε Unit} {measure : σ → Nat}
    {c : σ} {u : Unit} (grows : ∀ a c next u, f a c = (.ok u, next) → measure c ≤ measure next)
    (still : ∀ a c next u, I c → f a c = (.ok u, next) → measure next = measure c → I next ∧ P a) (holds : I c)
    (ran : forEach f items c = (.ok u, last)) (same : measure last = measure c) : I last ∧ ∀ a ∈ items, P a := by
  induction items generalizing c with
  | nil =>
    cases ran
    exact ⟨holds, fun _ member => absurd member not_mem_nil⟩
  | cons a rest ih =>
    obtain ⟨_, next, first, later⟩ := bind_ok ran
    have low := grows a c next _ first
    have high := forEach_rises grows later
    obtain ⟨kept, here⟩ := still a c next _ holds first (by omega)
    obtain ⟨done, others⟩ := ih kept later (by omega)
    exact ⟨done, forall_mem_cons.mpr ⟨here, others⟩⟩

theorem forEach_never {f : α → Eff σ ε Unit} (never : ∀ a c, (f a c).1 = .ok ()) (items : List α) (c : σ) :
    (forEach f items c).1 = .ok () := by
  induction items generalizing c with
  | nil => rfl
  | cons a rest ih =>
    have goes : f a c = (.ok (), (f a c).2) := Prod.ext (never a c) rfl
    show ((f a >>= fun _ => forEach f rest) c).1 = .ok ()
    rw [bind_of_ok goes]
    exact ih _

theorem Keeps.retry {I : σ → Prop} {x : Nat → Eff σ ε α} (each : ∀ n, Keeps I (x n)) (n more : Nat) :
    Keeps I (retry x n more) := by
  induction more generalizing n with
  | zero => exact each n
  | succ more ih =>
    refine Keeps.bind (each n).outcome (fun outcome => ?_)
    cases outcome with
    | ok a => exact .pure a
    | error e => exact ih (n + 1)

theorem retry_ok {x : Nat → Eff σ ε α} {c : σ} {n more k : Nat}
    (each : ∀ n, x n c = (.ok a, next) ∨ ∃ e, x n c = (.error e, c)) (low : n ≤ k) (high : k ≤ n + more)
    (succeeds : x k c = (.ok a, next)) : retry x n more c = (.ok a, next) := by
  induction more generalizing n with
  | zero =>
    obtain rfl : n = k := by omega
    exact succeeds
  | succ more ih =>
    rcases each n with now | ⟨e, failed⟩
    · have seen : ((x n).outcome : Eff σ ε _) c = (.ok (.ok a), next) := by rw [outcome_run, now]
      exact bind_of_ok seen
    · have seen : ((x n).outcome : Eff σ ε _) c = (.ok (.error e), c) := by rw [outcome_run, failed]
      have apart : n ≠ k := by
        rintro rfl
        rw [succeeds] at failed
        cases failed
      exact (bind_of_ok seen).trans (ih (by omega) (by omega))

/-- From related contexts, `x` has one outcome and ends in contexts related by `R'`. -/
def Relates (R R' : σ → σ → Prop) (x : Eff σ ε α) : Prop :=
  ∀ a b, R a b → (x a).1 = (x b).1 ∧ R' (x a).2 (x b).2

section
variable {R R' : σ → σ → Prop}

theorem Relates.pure (a : α) : Relates R R (Pure.pure a : Eff σ ε α) := fun _ _ related => ⟨rfl, related⟩

theorem Relates.fail (e : ε) : Relates R R (fail e : Eff σ ε α) := fun _ _ related => ⟨rfl, related⟩

theorem Relates.modify {f : σ → σ} (kept : ∀ a b, R a b → R' (f a) (f b)) : Relates R R' (modify f : Eff σ ε Unit) :=
  fun a b related => ⟨rfl, kept a b related⟩

variable {x : Eff σ ε α}

theorem Relates.attempt (relates : Relates R R' x) : Relates R R' x.attempt := by
  intro a b related
  obtain ⟨same, after⟩ := relates a b related
  exact ⟨congrArg Except.ok same, after⟩

theorem Relates.ignore (relates : Relates R R' x) : Relates R R' x.ignore :=
  fun a b related => ⟨rfl, (relates a b related).2⟩

theorem Relates.bind_wider (wider : ∀ a b, R a b → R' a b) {f : α → Eff σ ε β}
    (first : Relates R R x) (second : ∀ a, Relates R R' (f a)) : Relates R R' (x >>= f) := by
  intro a b related
  obtain ⟨same, after⟩ := first a b related
  rw [bind_run, bind_run]
  generalize x a = left at same after
  generalize x b = right at same after
  obtain ⟨outcome, a'⟩ := left
  obtain ⟨outcome', b'⟩ := right
  cases same
  cases outcome with
  | ok value => exact second value a' b' after
  | error e => exact ⟨rfl, wider a' b' after⟩

theorem Relates.bind {f : α → Eff σ ε β} (first : Relates R R x) (second : ∀ a, Relates R R (f a)) :
    Relates R R (x >>= f) :=
  Relates.bind_wider (fun _ _ related => related) first second

theorem Relates.get_bind {f : σ → Eff σ ε β} (same : ∀ a b, R a b → f a = f b) (each : ∀ a, Relates R R' (f a)) :
    Relates R R' (get >>= f) := by
  intro a b related
  rw [bind_of_ok (get_run a), bind_of_ok (get_run b), ← same a b related]
  exact each a a b related

theorem Relates.forEach {f : α → Eff σ ε Unit} (each : ∀ a, Relates R R (f a)) (items : List α) :
    Relates R R (forEach f items) := by
  induction items with
  | nil => exact Relates.pure ()
  | cons a rest ih => exact Relates.bind (each a) (fun _ => ih)

end

end Eff

end Aeterna.Lib

/-!
Statements that commit one by one: a statement that fails does nothing itself, but what the statements before it
did stays.
-/

namespace Aeterna.Lib

namespace Eff
variable {σ ε α κ : Type}

def statement (fault : Option ε) (f : σ → Except ε σ) : Eff σ ε Unit := fun c =>
  match fault, f c with
  | none, .ok next => (.ok (), next)
  | none, .error e => (.error e, c)
  | some e, _ => (.error e, c)

def FailsIn (P : σ → Prop) (x : Eff σ ε α) (c : σ) : Prop := ∀ e, (x c).1 = .error e → P (x c).2

def StopsAt (fails : κ → Prop) : List κ → κ → Prop
  | [], _ => False
  | first :: rest, name => (fails first ∧ name = first) ∨ (¬ fails first ∧ StopsAt fails rest name)

theorem stopsAt_cons {fails safe : κ → Prop} {first : κ} {rest : List κ} :
    (∀ name, StopsAt fails (first :: rest) name → safe name) ↔
      (fails first → safe first) ∧ (¬ fails first → ∀ name, StopsAt fails rest name → safe name) := by
  constructor
  · intro all
    exact ⟨fun failed => all first (.inl ⟨failed, rfl⟩), fun passed name stops => all name (.inr ⟨passed, stops⟩)⟩
  · rintro ⟨now, later⟩ name (⟨failed, rfl⟩ | ⟨passed, stops⟩)
    · exact now failed
    · exact later passed name stops

variable {P : σ → Prop} {fails safe : κ → Prop} {first : κ} {rest : List κ} {fault : Option ε}
  {f : σ → Except ε σ} {c : σ}

theorem failsIn_statement {next : Unit → Eff σ ε α} (named : fails first ↔ fault.isSome = true ∨ ∃ e, f c = .error e)
    (here : P c ↔ safe first)
    (after : ¬ fails first → ∀ c', f c = .ok c' →
      (FailsIn P (next ()) c' ↔ ∀ name, StopsAt fails rest name → safe name)) :
    FailsIn P (statement fault f >>= next) c ↔ ∀ name, StopsAt fails (first :: rest) name → safe name := by
  rw [stopsAt_cons, ← here]
  by_cases failed : fails first
  · have stopped : ∃ e, statement fault f c = (.error e, c) := by
      rcases named.mp failed with present | ⟨e, own⟩
      · obtain ⟨e, rfl⟩ := Option.isSome_iff_exists.mp present
        exact ⟨e, by unfold statement; split <;> simp_all⟩
      · cases fault with
        | none => exact ⟨e, by simp [statement, own]⟩
        | some other => exact ⟨other, by simp [statement]⟩
    obtain ⟨e, stopped⟩ := stopped
    unfold FailsIn
    rw [bind_of_error stopped]
    simp [failed]
  · have passed := fun reason => failed (named.mpr reason)
    cases fault with
    | some e => exact absurd (.inl rfl) passed
    | none =>
      cases done : f c with
      | error e => exact absurd (.inr ⟨e, done⟩) passed
      | ok c' =>
        have ran : statement none f c = (.ok (), c') := by simp [statement, done]
        unfold FailsIn
        rw [bind_of_ok ran]
        simp only [failed, false_imp_iff, true_and, not_false_eq_true, forall_const]
        exact after failed c' done

theorem failsIn_pure (a : α) : FailsIn P (pure a : Eff σ ε α) c ↔ ∀ name, StopsAt fails [] name → safe name :=
  iff_of_true (fun _ failed => by cases failed) (fun _ stops => stops.elim)

theorem failsIn_last (named : fails first ↔ fault.isSome = true ∨ ∃ e, f c = .error e) (here : P c ↔ safe first) :
    FailsIn P (statement fault f) c ↔ ∀ name, StopsAt fails [first] name → safe name := by
  rw [← bind_pure_right (statement fault f)]
  exact failsIn_statement named here (fun _ _ _ => failsIn_pure ())

end Eff

end Aeterna.Lib
