import Aeterna.Lib.Courses
import Aeterna.Lib.Runs
import Aeterna.Tenancy.Wiring

namespace Aeterna.Tenancy
open Lib (Program Pool Thread Note Along Throughout run)
open Function Lib.Pool Pod

abbrev WireNotes := List (Note WireCall.Answer)

def Owes (slug : String) : WireNotes → Prop
  | [] => False
  | note :: rest =>
    match note.1 with
    | .markLoading marked => marked = slug ∨ Owes slug rest
    | .markAvailable marked => marked ≠ slug ∧ Owes slug rest
    | .markFailed marked _ => marked ≠ slug ∧ Owes slug rest
    | _ => Owes slug rest

def Marked (slug : String) (notes : WireNotes) : Prop := ∃ note ∈ notes, note.1 = .markLoading slug

theorem Owes.marked {slug : String} {notes : WireNotes} (owes : Owes slug notes) : Marked slug notes := by
  induction notes with
  | nil => exact owes.elim
  | cons note rest ih =>
    have later : Owes slug rest → Marked slug (note :: rest) := by
      intro owes
      obtain ⟨other, member, same⟩ := ih owes
      exact ⟨other, List.mem_cons_of_mem _ member, same⟩
    unfold Owes at owes
    split at owes
    · rename_i marked call
      rcases owes with rfl | owes
      · exact ⟨note, List.mem_cons_self, call⟩
      · exact later owes
    · exact later owes.2
    · exact later owes.2
    · exact later owes

def Paid (notes : WireNotes) : Prop := (∀ slug, ¬ Owes slug notes) ∨ ∃ rest,
    notes = ⟨.shutdownRequested, true⟩ :: rest

def OwesOnly (kind : String → Prop) (notes : WireNotes) : Prop := ∀ slug, Owes slug notes → kind slug

section
variable {α : Type} {kind : String → Prop} {notes : WireNotes} {slug tenantId : String} {pod : Pod}
  {post : Except String α → WireNotes → Pod → Prop}

/-- Whatever the answers, the calls come to `post`. -/
abbrev Comes (program : WireProgram α) (post : Except String α → WireNotes → Pod → Prop) (notes : WireNotes)
    (pod : Pod) : Prop :=
  program.Meets (watching exec (fun _ => True)) post notes pod

theorem wireOne_comes {f : Except String Unit → WireProgram α} (owes : OwesOnly kind notes)
    (each : ∀ wired later pod, OwesOnly kind later → Comes (f wired) post later pod) :
      Comes (wireOne tenantId >>= f) post notes pod := by
  refine meets_watched (fun llm pod => ?_)
  cases llm with
  | error e => exact each _ _ pod owes
  | ok _ =>
    refine meets_watched (fun embedding pod => ?_)
    cases embedding with
    | error e => exact each _ _ pod owes
    | ok _ => exact each _ _ pod owes

variable {f : Unit → WireProgram α}

theorem markTerminal_comes {wired : Except String Unit} (owes : OwesOnly kind notes)
    (each : ∀ later pod, OwesOnly (fun other => kind other ∧ other ≠ slug) later → Comes (f ()) post later pod) :
    Comes (markTerminal slug wired >>= f) post notes pod := by
  cases wired with
  | ok _ => exact meets_watched (fun _ pod => each _ pod (fun other owed => ⟨owes other owed.2, Ne.symm owed.1⟩))
  | error e =>
    exact meets_watched
      (fun _ pod => each _ pod (fun other owed => ⟨owes other owed.2, Ne.symm owed.1⟩))

theorem seedLoading_comes {tenants : List ListedTenant} (owes : OwesOnly kind notes)
    (each : ∀ later pod, OwesOnly (fun slug => kind slug ∨ slug ∈ tenants.map ListedTenant.slug) later →
    Comes (f ()) post later pod) :
    Comes (seedLoading tenants >>= f) post notes pod := by
  induction tenants generalizing notes pod kind with
  | nil => exact each notes pod (fun slug owed => .inl (owes slug owed))
  | cons t rest ih =>
    refine meets_watched (fun answer pod => ?_)
    have more : OwesOnly (fun slug => kind slug ∨ slug = t.slug) (⟨.markLoading t.slug, answer⟩ :: notes) := by
      rintro slug (rfl | owed)
      · exact .inr rfl
      · exact .inl (owes slug owed)
    apply ih more
    intro later pod owes
    apply each later pod
    intro slug owed
    rcases owes slug owed with (old | own) | later
    · exact .inl old
    · exact .inr (List.mem_cons.mpr (.inl own))
    · exact .inr (List.mem_cons_of_mem _ later)

theorem wireAll_comes {tenants : List ListedTenant}
    (owes : OwesOnly (fun slug => slug ∈ tenants.map ListedTenant.slug) notes) :
    Comes (wireAll tenants) (fun _ notes _ => Paid notes) notes pod := by
  induction tenants generalizing notes pod with
  | nil => exact .inl (fun slug owed => absurd (owes slug owed) List.not_mem_nil)
  | cons t rest ih =>
    refine meets_watched (fun shutdown pod => ?_)
    cases shutdown with
    | true => exact .inr ⟨_, rfl⟩
    | false =>
      refine wireOne_comes owes (fun wired later pod owes => ?_)
      refine markTerminal_comes owes (fun later pod owes => ?_)
      apply ih
      intro slug owed
      obtain ⟨member, apart⟩ := owes slug owed
      exact (List.mem_cons.mp member).resolve_left apart

theorem cooldownElapsed_comes {lastAttemptAt : Nat} {f : Bool → WireProgram α} (each : ∀ elapsed cooldown now pod,
      Comes (f elapsed) post (⟨.now, now⟩ :: ⟨.retryCooldown, cooldown⟩ :: notes) pod) :
    Comes (cooldownElapsed lastAttemptAt >>= f) post notes pod :=
  meets_watched (fun cooldown _ => meets_watched (fun now pod => each _ cooldown now pod))

theorem wiring_comes (owes : OwesOnly (fun other => other = slug) notes)
    (each : ∀ later pod, (∀ other, ¬ Owes other later) → Comes (f ()) post later pod) :
    Comes (wireOne tenantId >>= fun wired => markTerminal slug wired >>= f) post notes pod := by
  refine wireOne_comes owes (fun wired later pod owes => ?_)
  refine markTerminal_comes owes (fun later pod owes => ?_)
  exact each later pod (fun other owed => (owes other owed).2 (owes other owed).1)

end

section
variable {slug : String} {notes : WireNotes} {pod : Pod}

theorem slug_only {answer : Unit} (paid : ∀ slug, ¬ Owes slug notes) :
    OwesOnly (fun other => other = slug) (⟨.markLoading slug, answer⟩ :: notes) := by
  rintro other (rfl | owed)
  · rfl
  · exact absurd owed (paid other)

theorem wireNow_paid (paid : ∀ slug, ¬ Owes slug notes) : Comes (wireNow slug)
    (fun _ notes _ => Paid notes) notes pod := by
  have clear : ∀ reason (notes : WireNotes) pod, (∀ slug, ¬ Owes slug notes) →
      Comes (failedSnapshotOr slug reason) (fun _ notes _ => Paid notes) notes pod := by
    intro reason notes pod paid
    refine meets_watched (fun found pod => ?_)
    cases found with
    | some state => exact .inl paid
    | none => exact meets_watched (fun _ _ => .inl paid)
  refine meets_watched (fun resolved pod => ?_)
  rcases resolved with e | none | tenantId
  · exact meets_watched (fun _ pod => clear _ _ pod (fun slug owed => paid slug owed.2))
  · exact meets_watched (fun _ pod => clear _ _ pod (fun slug owed => paid slug owed.2))
  · refine meets_watched (fun _ pod => wiring_comes (slug_only paid) (fun later pod paid => ?_))
    refine meets_watched (fun found pod => ?_)
    cases found with
    | some state => exact .inl paid
    | none => exact meets_watched (fun _ _ => .inl paid)

theorem ensureWired_paid : Comes (ensureWired slug) (fun _ notes _ => Paid notes) [] pod := by
  refine meets_watched (fun current pod => ?_)
  rcases current with _ | since | ⟨rev, wiredAt⟩ | ⟨reason, lastAttemptAt, retryCount⟩
  · exact wireNow_paid (fun _ owed => owed)
  · exact .inl (fun _ owed => owed)
  · exact .inl (fun _ owed => owed)
  · refine cooldownElapsed_comes (fun elapsed cooldown now pod => ?_)
    cases elapsed with
    | true => exact wireNow_paid (fun _ owed => owed)
    | false => exact .inl (fun _ owed => owed)

theorem handleEvent_paid (event : TenantChangeEvent) : Comes (handleEvent event) (fun _ notes _ => Paid notes)
    [] pod := by
  have forgotten : ∀ (notes : WireNotes) pod, (∀ slug, ¬ Owes slug notes) →
      Comes (do let _ ← wireCall (.forget event.slug)) (fun _ notes _ => Paid notes) notes pod :=
    fun notes pod paid => meets_watched (fun _ _ => .inl paid)
  have rewired : ∀ tenantId (notes : WireNotes) pod, (∀ slug, ¬ Owes slug notes) →
      Comes (do
        let _ ← wireCall (.markLoading event.slug)
        let wired ← wireOne tenantId
        markTerminal event.slug wired) (fun _ notes _ => Paid notes) notes pod := by
    intro tenantId notes pod paid
    refine meets_watched (fun _ pod => wireOne_comes (slug_only paid) (fun wired later pod owes => ?_))
    have ends : Comes (markTerminal event.slug wired >>= pure) (fun _ notes _ => Paid notes) later pod :=
      markTerminal_comes owes (fun later pod owes => .inl (fun other owed => (owes other owed).2 (owes other owed).1))
    rwa [bind_pure] at ends
  unfold handleEvent
  obtain ⟨slug, kind⟩ := event
  cases kind with
  | provisioningStep => exact .inl (fun _ owed => owed)
  | deactivated =>
    refine meets_watched (fun resolved pod => ?_)
    rcases resolved with e | none | tenantId
    · exact .inl (fun _ owed => owed)
    · exact forgotten _ pod (fun _ owed => owed)
    · exact meets_watched (fun _ pod => forgotten _ pod (fun _ owed => owed))
  | _ =>
    refine meets_watched (fun resolved pod => ?_)
    rcases resolved with e | none | tenantId
    · exact .inl (fun _ owed => owed)
    · exact forgotten _ pod (fun _ owed => owed)
    · exact meets_watched (fun _ pod => rewired tenantId _ pod (fun _ owed => owed))

theorem runEagerWire_paid : Comes runEagerWire (fun _ notes _ => Paid notes) [] pod := by
  refine meets_watched (fun listed pod => ?_)
  cases listed with
  | error e => exact .inl (fun _ owed => owed)
  | ok tenants =>
    have nothing : OwesOnly (fun _ => False) [⟨.listTenants false, .ok tenants⟩] := fun _ owed => owed
    refine seedLoading_comes nothing (fun later pod owes => ?_)
    exact wireAll_comes (fun slug owed => (owes slug owed).resolve_left id)

theorem task_paid (task : WireTask) : Comes task.program (fun _ notes _ => Paid notes) [] pod := by
  cases task with
  | eager => exact runEagerWire_paid
  | event event => exact handleEvent_paid event
  | ensure slug =>
    refine Program.Meets.bind (ensureWired_paid.mono ?_)
    intro outcome notes pod paid
    cases outcome with
    | ok _ => exact paid
    | error _ => exact paid

end

structure Wirings (ι : Type) where
  pool : Pool ι WireCall WireCall.Answer String Unit Pod
  dropped : ι → Bool := fun _ => false

inductive WireLabel (ι : Type) where
  | advance (i : ι)
  | drop (i : ι)
  | change (surroundings : WiringSurroundings)

def TenantRuntimeRegistry.Loading (registry : TenantRuntimeRegistry) (slug : String) : Prop :=
  ∃ since, registry.state slug = some (.loading since)

section
variable {ι : Type} [DecidableEq ι]

namespace Wirings

def step (w : Wirings ι) : WireLabel ι → Option (Wirings ι)
  | .advance i => if w.dropped i then none else some { w with pool := w.pool.step exec i }
  | .drop i => some { w with dropped := update w.dropped i true }
  | .change surroundings => some { w with pool := { w.pool with state := { w.pool.state with surroundings } } }

variable (w : Wirings ι)

def Running (i : ι) : Prop := w.dropped i = false ∧ (w.pool.thread i).program.Awaits (fun _ => True)

def Loading (slug : String) : Prop := w.pool.state.registry.Loading slug

/-- A tenant in wiring is one that a running call has marked so. -/
def NotWedged : Prop := ∀ slug, w.Loading slug → ∃ i, w.Running i ∧ Marked slug (w.pool.thread i).notes

/-- What a call owes, another one owes as well. -/
def Covered (i : ι) : Prop :=
  ∀ slug, Owes slug (w.pool.thread i).notes → w.Loading slug → ∃ j, j ≠ i ∧ w.Running j ∧
    Owes slug (w.pool.thread j).notes

/-- No step leaves a tenant that is in wiring without a call that owes it: no such call is dropped, or sees a
shutdown. -/
def Careful : WireLabel ι → Prop
  | .advance i => (w.pool.thread i).program.Awaits (fun call => call = .shutdownRequested) →
    w.pool.state.surroundings.shutdown = true → w.Covered i
  | .drop i => w.Covered i
  | .change _ => True

structure Attended : Prop where
  owner : ∀ slug, w.Loading slug → ∃ i, w.Running i ∧ Owes slug (w.pool.thread i).notes
  pays : ∀ i, ∃ pod, Comes (w.pool.thread i).program (fun _ notes _ => Paid notes) (w.pool.thread i).notes pod

end Wirings

omit [DecidableEq ι] in
theorem saw_shutdown {program : WireProgram Unit} {notes : WireNotes} {slug : String} {pod : Pod}
    (comes : Comes program (fun _ notes _ => Paid notes) notes pod) (ended : ¬ program.Awaits (fun _ => True))
    (owes : Owes slug notes) :
    ∃ rest, notes = ⟨.shutdownRequested, true⟩ :: rest := by
  have paid : Paid notes := by
    cases program with
    | done _ => exact comes
    | fail _ => exact comes
    | call _ _ => exact absurd trivial ended
  exact paid.resolve_left (fun nothing => nothing slug owes)

omit [DecidableEq ι] in
theorem loading_of_update {state : String → Option TenantRuntimeState} {marked slug : String}
    {next : Option TenantRuntimeState} {since : Nat}
    (loading : update state marked next slug = some (.loading since))
    (outcome : next ≠ some (.loading since)) :
    marked ≠ slug ∧ state slug = some (.loading since) := by
  by_cases same : slug = marked
  · rw [same, update_self] at loading
    exact absurd loading outcome
  · rw [update_of_ne same] at loading
    exact ⟨Ne.symm same, loading⟩

theorem exec_loading {call : WireCall} {pod : Pod} {slug : String}
    (loading : (exec call pod).2.registry.Loading slug) :
    call = .markLoading slug ∨
      pod.registry.Loading slug ∧ call ≠ .markAvailable slug ∧ ∀ reason, call ≠ .markFailed slug reason := by
  obtain ⟨since, loading⟩ := loading
  cases call with
  | markLoading marked =>
    by_cases same : slug = marked
    · subst same
      exact .inl rfl
    · have before : pod.registry.state slug = some (.loading since) :=
        (update_of_ne same _ _).symm.trans loading
      exact .inr ⟨⟨since, before⟩, nofun, nofun⟩
  | markAvailable marked =>
    obtain ⟨apart, before⟩ := loading_of_update loading nofun
    refine .inr ⟨⟨since, before⟩, fun same => ?_, nofun⟩
    exact apart (WireCall.markAvailable.inj same)
  | markFailed marked reason =>
    obtain ⟨apart, before⟩ := loading_of_update loading nofun
    refine .inr ⟨⟨since, before⟩, nofun, fun other same => ?_⟩
    exact apart (WireCall.markFailed.inj same).1
  | forget marked =>
    obtain ⟨_, before⟩ := loading_of_update loading nofun
    exact .inr ⟨⟨since, before⟩, nofun, nofun⟩
  | _ => exact .inr ⟨⟨since, loading⟩, nofun, nofun⟩

theorem Owes.kept {slug : String} {notes : WireNotes} {note : Note WireCall.Answer} (owes : Owes slug notes)
    (available : note.1 ≠ .markAvailable slug) (failed : ∀ reason, note.1 ≠ .markFailed slug reason) :
      Owes slug (note :: notes) := by
  unfold Owes
  split
  · exact .inr owes
  · rename_i marked call
    exact ⟨fun same => available (same ▸ call), owes⟩
  · rename_i marked reason call
    exact ⟨fun same => failed reason (same ▸ call), owes⟩
  · exact owes

namespace Wirings
variable {w next : Wirings ι}

omit [DecidableEq ι] in
theorem Attended.notWedged (attended : w.Attended) : w.NotWedged := by
  intro slug loading
  obtain ⟨i, running, owes⟩ := attended.owner slug loading
  exact ⟨i, running, owes.marked⟩

variable {i : ι}

theorem owner_of_update {pod : Pod} {thread : Thread WireCall WireCall.Answer String Unit} {slug : String}
    (going : w.dropped i = false)
    (owner : (∃ j, j ≠ i ∧ w.Running j ∧ Owes slug (w.pool.thread j).notes) ∨ thread.program.Awaits (fun _ => True) ∧
    Owes slug thread.notes) :
    ∃ j, (⟨⟨pod, update w.pool.thread i thread⟩, w.dropped⟩ : Wirings ι).Running j ∧
      Owes slug (update w.pool.thread i thread j).notes := by
  rcases owner with ⟨j, apart, running, owes⟩ | ⟨awaits, owes⟩
  · refine ⟨j, ⟨running.1, ?_⟩, ?_⟩
    · simp only [update_of_ne apart]
      exact running.2
    · rw [update_of_ne apart]
      exact owes
  · refine ⟨i, ⟨going, ?_⟩, ?_⟩
    · simp only [update_self]
      exact awaits
    · rw [update_self]
      exact owes

omit [DecidableEq ι] in
theorem covered_of_ended {c : WireCall} {rest : c.Answer → WireProgram Unit} {pod : Pod} {slug : String}
    (careful : w.Careful (.advance i)) (shape : (w.pool.thread i).program = .call c rest)
    (later : Comes (rest (exec c w.pool.state).1) (fun _ notes _ => Paid notes)
    (⟨c, (exec c w.pool.state).1⟩ :: (w.pool.thread i).notes) pod)
    (ended : ¬ (rest (exec c w.pool.state).1).Awaits (fun _ => True))
    (owes : Owes slug (⟨c, (exec c w.pool.state).1⟩ :: (w.pool.thread i).notes)) : c = .shutdownRequested ∧
      w.Covered i := by
  obtain ⟨_, same⟩ := saw_shutdown later ended owes
  obtain ⟨head, _⟩ := List.cons.inj same
  cases c with
  | shutdownRequested =>
    have requested : w.pool.state.surroundings.shutdown = true := eq_of_heq (Sigma.mk.inj head).2
    refine ⟨rfl, careful ?_ requested⟩
    rw [shape]
    exact rfl
  | _ => cases head

theorem Attended.advance (attended : w.Attended) (careful : w.Careful (.advance i)) (going : w.dropped i = false) :
    ({ w with pool := w.pool.step exec i } : Wirings ι).Attended := by
  obtain ⟨owner, pays⟩ := attended
  cases shape : (w.pool.thread i).program with
  | done _ =>
    unfold Pool.step
    rw [shape]
    exact ⟨owner, pays⟩
  | fail _ =>
    unfold Pool.step
    rw [shape]
    exact ⟨owner, pays⟩
  | call c rest =>
    rw [Lib.Pool.step_call shape]
    have later : Comes (rest (exec c w.pool.state).1) (fun _ notes _ => Paid notes)
        (⟨c, (exec c w.pool.state).1⟩ :: (w.pool.thread i).notes) (exec c w.pool.state).2 := by
      obtain ⟨pod, comes⟩ := pays i
      rw [shape] at comes
      exact (comes w.pool.state trivial trivial trivial).2.2
    constructor
    · intro slug loading
      apply owner_of_update going
      rcases exec_loading loading with rfl | ⟨before, available, failed⟩
      · have owes : Owes slug (⟨.markLoading slug, ()⟩ :: (w.pool.thread i).notes) := .inl rfl
        refine .inr ⟨?_, owes⟩
        by_contra ended
        cases (covered_of_ended careful shape later ended owes).1
      · obtain ⟨j, running, owes⟩ := owner slug before
        by_cases same : j = i
        · subst same
          have still : Owes slug (⟨c, (exec c w.pool.state).1⟩ :: (w.pool.thread j).notes) :=
            owes.kept available failed
          by_cases goesOn : (rest (exec c w.pool.state).1).Awaits (fun _ => True)
          · exact .inr ⟨goesOn, still⟩
          · exact .inl ((covered_of_ended careful shape later goesOn still).2 slug owes before)
        · exact .inl ⟨j, same, running, owes⟩
    · intro j
      by_cases same : j = i
      · subst same
        simp only [update_self]
        exact ⟨_, later⟩
      · simp only [update_of_ne same]
        exact pays j

theorem Attended.drop (attended : w.Attended) (careful : w.Careful (.drop i)) :
    ({ w with dropped := update w.dropped i true } : Wirings ι).Attended := by
  refine ⟨fun slug loading => ?_, attended.pays⟩
  have stays : ∀ j, j ≠ i → w.Running j →
      ({ w with dropped := update w.dropped i true } : Wirings ι).Running j :=
    fun j apart running => ⟨(update_of_ne apart _ _).trans running.1, running.2⟩
  obtain ⟨j, running, owes⟩ := attended.owner slug loading
  by_cases same : j = i
  · subst same
    obtain ⟨k, apart, running, owes⟩ := careful slug owes loading
    exact ⟨k, stays k apart running, owes⟩
  · exact ⟨j, stays j same running, owes⟩

theorem Attended.step (attended : w.Attended) {label : WireLabel ι} (careful : w.Careful label)
    (first : w.step label = some next) :
    next.Attended := by
  cases label with
  | advance i =>
    obtain ⟨going, moved⟩ := Option.ite_none_left_eq_some.mp first
    cases moved
    exact attended.advance careful (Bool.eq_false_iff.mpr going)
  | drop i =>
    cases first
    exact attended.drop careful
  | change surroundings =>
    cases first
    exact ⟨attended.owner, attended.pays⟩

/-- Calls that have not begun, on a pod with no tenant in wiring. -/
def begin (pod : Pod) (tasks : ι → WireTask) : Wirings ι := ⟨⟨pod, fun i => ⟨(tasks i).program, []⟩⟩, fun _ => false⟩

omit [DecidableEq ι] in
theorem begin_attended {pod : Pod} {tasks : ι → WireTask} (idle : ∀ slug, ¬ pod.registry.Loading slug) :
    (begin pod tasks).Attended :=
  ⟨fun slug loading => absurd loading (idle slug), fun i => ⟨pod, task_paid (tasks i)⟩⟩

/-- Wiring never wedges a tenant in the runs whose steps are careful. -/
theorem careful_wiring_never_wedges {pod : Pod} {tasks : ι → WireTask} {labels : List (WireLabel ι)}
    (idle : ∀ slug, ¬ pod.registry.Loading slug) (careful : Along step Careful (begin pod tasks) labels) :
    Throughout step NotWedged (begin pod tasks) labels :=
  Lib.throughout_of_along (fun _ => Attended.notWedged)
    (fun _ _ _ attended careful first => attended.step careful first)
    (begin_attended idle) careful

def acmePod : Pod where
  surroundings :=
    { getTenant := fun _ => .ok (some "tenant-acme"), listTenants := fun _ => .ok [], llm := fun _ => .ok (), embedding := fun _ => .ok () }

def disconnect : List (WireLabel Unit) := [.advance (), .advance (), .advance (), .drop ()]

theorem a_dropped_ensure_wired_wedges : ¬ ∀ (pod : Pod) (tasks : Unit → WireTask) (labels : List (WireLabel Unit)),
      (∀ slug, ¬ pod.registry.Loading slug) →
      Throughout step NotWedged (begin pod tasks) labels := by
  intro never
  have held := never acmePod (fun _ => .ensure "acme") disconnect (fun _ loading => nomatch loading)
  have wedged := held disconnect [] _ rfl rfl
  obtain ⟨i, running, _⟩ := wedged "acme" ⟨0, by rfl⟩
  cases running.1

theorem ensure_wired_undisturbed : (∀ slug, ¬ acmePod.registry.Loading slug) ∧
      Throughout step NotWedged (begin acmePod (fun _ : Unit => .ensure "acme"))
        [.advance (), .advance (), .advance ()] := by
  have idle : ∀ slug, ¬ acmePod.registry.Loading slug := fun _ loading => nomatch loading
  refine ⟨idle, careful_wiring_never_wedges idle ⟨nofun, fun second first => ?_⟩⟩
  cases first
  refine ⟨nofun, fun third first => ?_⟩
  cases first
  exact ⟨nofun, fun _ _ => trivial⟩

end Wirings

end

end Aeterna.Tenancy
