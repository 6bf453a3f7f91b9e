import Aeterna.Lib.Courses
import Aeterna.Operations.VersionGuard

namespace Aeterna.Operations
open Lib (CallFault Program Pool Thread)
open Function Lib.CallFault GuardCommand

def Purges : GuardCommand → Prop
  | .scan _ _ | .unlink _ => True
  | _ => False

def Astray (pfx : String) : GuardCommand → Prop
  | .unlink keys => ∃ key ∈ keys, hasPrefix pfx key = false
  | _ => False

section
variable {pfx : String} {β : Type}

/-- A replica begins a purge only with the lock, and removes what a page has shown. -/
def Follows (pfx : String) : (c : GuardCommand) → (c.Answer → GuardM β) → Prop
  | .acquirePurgeLock, next => ∀ answer, (answer ≠ .ok true → ¬ (next answer).Awaits Purges) ∧
    ¬ (next answer).Awaits (Astray pfx)
  | .scan _ shown, next => shown = pfx ∧ ∀ answer,
    (∀ cursor keys, answer = .ok (cursor, keys) → ∀ key ∈ keys, hasPrefix pfx key = true) →
      ¬ (next answer).Awaits (Astray pfx)
  | .unlink _, next => ∀ answer, ¬ (next answer).Awaits (Astray pfx)
  | _, next => ∀ answer, ¬ (next answer).Awaits Purges ∧ ¬ (next answer).Awaits (Astray pfx)

structure Calm (pfx : String) (program : GuardM β) : Prop where
  idle : ¬ program.Awaits Purges
  aimed : ¬ program.Awaits (Astray pfx)
  each : program.Each (Follows pfx)

theorem writeKeys_calm (keys : List String) : Calm pfx (writeKeys keys) := by
  induction keys with
  | nil => exact ⟨id, id, trivial⟩
  | cons key rest ih => exact ⟨id, id, fun _ => ⟨ih.idle, ih.aimed⟩, fun _ => ih.each⟩

section
variable {k : Nat → GuardM VersionAction} {finish : Except VersionGuardError VersionAction → GuardM β}

theorem unlinkPage_aimed {keys : List String} (shown : ∀ key ∈ keys, hasPrefix pfx key = true)
    (rest : ∀ n, ¬ ((k n).attempt >>= finish).Awaits (Astray pfx)) :
    ¬ ((unlinkPage keys >>= k).attempt >>= finish).Awaits (Astray pfx) := by
  unfold unlinkPage
  split
  · exact rest 0
  · rintro ⟨key, member, outside⟩
    rw [shown key (List.mem_filter.mp member).1] at outside
    cases outside

theorem unlinkPage_each (keys : List String) (rest : ∀ n, ¬ ((k n).attempt >>= finish).Awaits (Astray pfx) ∧
      ((k n).attempt >>= finish).Each (Follows pfx)) (fails : ∀ e, Calm pfx (finish (.error e))) :
    ((unlinkPage keys >>= k).attempt >>= finish).Each (Follows pfx) := by
  unfold unlinkPage
  split
  · exact (rest 0).2
  · refine ⟨fun answer => ?_, fun answer => ?_⟩
    · cases answer with
      | error e => exact (fails _).aimed
      | ok n => exact (rest n).1
    · cases answer with
      | error e => exact (fails _).each
      | ok n => exact (rest n).2

theorem flushPrefix_each (rounds cursor removed : Nat) (rest : ∀ n, ¬ ((k n).attempt >>= finish).Awaits (Astray pfx) ∧
      ((k n).attempt >>= finish).Each (Follows pfx)) (fails : ∀ e, Calm pfx (finish (.error e))) :
    ¬ ((flushPrefix pfx rounds cursor removed >>= k).attempt >>= finish).Awaits (Astray pfx) ∧
      ((flushPrefix pfx rounds cursor removed >>= k).attempt >>= finish).Each (Follows pfx) := by
  induction rounds generalizing cursor removed with
  | zero => exact ⟨(fails _).aimed, (fails _).each⟩
  | succ rounds ih =>
    let onward (nextCursor n : Nat) : GuardM Nat :=
      if nextCursor = 0 then pure (removed + n) else flushPrefix pfx rounds nextCursor (removed + n)
    have after : ∀ nextCursor n, ¬ ((onward nextCursor n >>= k).attempt >>= finish).Awaits (Astray pfx) ∧
        ((onward nextCursor n >>= k).attempt >>= finish).Each (Follows pfx) := by
      intro nextCursor n
      dsimp only [onward]
      split
      · exact rest _
      · exact ih _ _
    refine ⟨id, ⟨rfl, fun answer shown => ?_⟩, fun answer => ?_⟩
    · cases answer with
      | error e => exact (fails _).aimed
      | ok page =>
        show ¬ (((unlinkPage page.2 >>= onward page.1) >>= k).attempt >>= finish).Awaits (Astray pfx)
        rw [bind_assoc]
        exact unlinkPage_aimed (shown page.1 page.2 rfl) (fun n => (after page.1 n).1)
    · cases answer with
      | error e => exact (fails _).each
      | ok page =>
        show (((unlinkPage page.2 >>= onward page.1) >>= k).attempt >>= finish).Each (Follows pfx)
        rw [bind_assoc]
        exact unlinkPage_each page.2 (after page.1) fails

end

section
variable {finish : Except VersionGuardError VersionAction → GuardM β}

theorem setSentinel_calm (version : String) (action : VersionAction) (ends : ∀ outcome, Calm pfx (finish outcome)) :
    Calm pfx ((setSentinel version action).attempt >>= finish) := by
  refine ⟨id, id, fun answer => ?_, fun answer => ?_⟩
  · cases answer with
    | error e => exact ⟨(ends _).idle, (ends _).aimed⟩
    | ok _ => exact ⟨(ends _).idle, (ends _).aimed⟩
  · cases answer with
    | error e => exact (ends _).each
    | ok _ => exact (ends _).each

theorem purge_calm (rounds : Nat) (version previous : String) (ends : ∀ outcome, Calm pfx (finish outcome)) :
    Calm pfx ((purge pfx rounds version previous).attempt >>= finish) := by
  have sets : ∀ n, ¬ ((setSentinel version (.purged previous n)).attempt >>= finish).Awaits (Astray pfx) ∧
      ((setSentinel version (.purged previous n)).attempt >>= finish).Each (Follows pfx) :=
    fun n => ⟨(setSentinel_calm version _ ends).aimed, (setSentinel_calm version _ ends).each⟩
  have flushed := flushPrefix_each rounds 0 0 sets (fun _ => ends _)
  refine ⟨id, id, fun answer => ?_, fun answer => ?_⟩
  · cases answer with
    | error e => exact ⟨fun _ => (ends _).idle, (ends _).aimed⟩
    | ok won =>
      cases won with
      | false => exact ⟨fun _ => (ends _).idle, (ends _).aimed⟩
      | true => exact ⟨fun other => absurd rfl other, flushed.1⟩
  · cases answer with
    | error e => exact (ends _).each
    | ok won =>
      cases won with
      | false => exact (ends _).each
      | true => exact flushed.2

theorem ensureVersion_calm (rounds : Nat) (version : String) (ends : ∀ outcome, Calm pfx (finish outcome)) :
    Calm pfx ((ensureVersion pfx rounds version).attempt >>= finish) := by
  have decided : ∀ decision, Calm pfx ((carryOut pfx rounds version decision).attempt >>= finish) := by
    intro decision
    cases decision with
    | noOp => exact ends _
    | initialiseSentinel => exact setSentinel_calm version _ ends
    | purgeRequired previous => exact purge_calm rounds version previous ends
  refine ⟨id, id, fun answer => ?_, fun answer => ?_⟩
  · cases answer with
    | error e => exact ⟨(ends _).idle, (ends _).aimed⟩
    | ok current => exact ⟨(decided _).idle, (decided _).aimed⟩
  · cases answer with
    | error e => exact (ends _).each
    | ok current => exact (decided _).each

end

theorem replica_calm (rounds : Nat) (version : String) (keys : List String) :
    Calm pfx (replica pfx rounds version keys) := ensureVersion_calm rounds version (fun _ => writeKeys_calm keys)

end

abbrev Replicas (ι : Type) : Type := Pool ι GuardCommand Answer VersionGuardError Unit GuardRedis

section
variable {ι : Type} [DecidableEq ι] (pfx : String) (rounds : ι → Nat) (version : String) (keys : ι → List String)
  (w : GuardRedis)

def replicas : Replicas ι where
  state := { w with firstLock := none, written := [], survivors := w.present, lost := [] }
  thread i := { program := replica pfx (rounds i) version (keys i) }

def Meanwhile (w next : GuardRedis) : Prop :=
  ∃ keys now page last fault, w.now ≤ now ∧
    next = { w.remove keys with now := now, page := page, last := last, fault := fault }

def Purging (thread : Thread GuardCommand Answer VersionGuardError Unit) : Prop :=
  thread.program.Awaits Purges

def AfterPurge (pool : Replicas ι) (i : ι) : Prop :=
  pool.Permitted (fun _ c w => ∀ key, c = .write key → hasPrefix pfx key = true →
    w.firstLock ≠ none ∧ ∀ j, ¬ Purging (pool.thread j)) i

/-- No key that a replica has written is removed before the first lock runs out. -/
def KeepsWritten (allowed : Replicas ι → ι → Prop) : Prop :=
  ∀ pool, Pool.Course guardExec allowed Meanwhile (replicas pfx rounds version keys w) pool → pool.state.lost = []

structure Guarded (pool : Replicas ι) : Prop where
  clean : pool.state.lost = []
  lock : ∀ expiry, pool.state.firstLock = some expiry → ∃ latest, pool.state.lockUntil = some latest ∧ expiry ≤ latest
  finished : pool.state.Unexpired → (∃ key ∈ pool.state.written, hasPrefix pfx key = true) →
    pool.state.firstLock ≠ none ∧ ∀ i, ¬ Purging (pool.thread i)
  aimed : ∀ i, ¬ (pool.thread i).program.Awaits (Astray pfx)
  each : ∀ i, (pool.thread i).program.Each (Follows pfx)

variable {pfx rounds version keys w} {pool : Replicas ι} {i : ι} {c : GuardCommand} {next : c.Answer → GuardM Unit}

variable {thread : Thread GuardCommand Answer VersionGuardError Unit}

theorem purging_update (none : ∀ j, j ≠ i → ¬ Purging (pool.thread j)) (own : ¬ Purging thread) (j : ι) :
    ¬ Purging (update pool.thread i thread j) := by
  by_cases same : j = i
  · subst same
    rwa [update_self]
  · rw [update_of_ne same]
    exact none j same

theorem Guarded.threads (guarded : Guarded pfx pool) (shape : (pool.thread i).program = .call c next) :
    (∀ j, ¬ (update pool.thread i ⟨next (guardExec c pool.state).1,
        ⟨c, (guardExec c pool.state).1⟩ :: (pool.thread i).notes⟩ j).program.Awaits (Astray pfx)) ∧
      ∀ j, (update pool.thread i ⟨next (guardExec c pool.state).1,
        ⟨c, (guardExec c pool.state).1⟩ :: (pool.thread i).notes⟩ j).program.Each (Follows pfx) := by
  have each := guarded.each i
  rw [shape] at each
  obtain ⟨follows, later⟩ := each
  have aimed : ¬ (next (guardExec c pool.state).1).Awaits (Astray pfx) := by
    cases c with
    | acquirePurgeLock => exact (follows _).2
    | getVersion => exact (follows _).2
    | setVersion v => exact (follows _).2
    | write key => exact (follows _).2
    | unlink keys => exact follows _
    | scan cursor shown =>
      obtain ⟨rfl, follows⟩ := follows
      refine follows _ (fun cursor' keys answered key member => ?_)
      have page := (settle_ok answered).1
      unfold GuardRedis.scan at page
      dsimp only at page
      split at page <;>
      · cases page
        exact (List.mem_filter.mp member).2
  refine ⟨fun j => ?_, fun j => ?_⟩
  · by_cases same : j = i
    · subst same
      rwa [update_self]
    · rw [update_of_ne same]
      exact guarded.aimed j
  · by_cases same : j = i
    · subst same
      rw [update_self]
      exact later _
    · rw [update_of_ne same]
      exact guarded.each j

theorem acquire_unlocked (free : ¬ w.Locked) : w.acquire = { w with
    lockUntil := some (w.now + PURGE_LOCK_TTL)
    firstLock := some (w.firstLock.getD (w.now + PURGE_LOCK_TTL)) } := if_neg free

theorem acquire_lock (lock : ∀ expiry, w.firstLock = some expiry → ∃ latest, w.lockUntil = some latest ∧
    expiry ≤ latest)
    (free : ¬ w.Locked) : (∀ expiry, w.acquire.firstLock = some expiry → ∃ latest, w.acquire.lockUntil = some latest ∧
      expiry ≤ latest) ∧ (w.firstLock = none ∨ ¬ w.acquire.Unexpired) := by
  rw [acquire_unlocked free]
  cases first : w.firstLock with
  | none =>
    refine ⟨fun expiry taken => ⟨_, rfl, ?_⟩, .inl rfl⟩
    cases taken
    exact Nat.le_refl _
  | some expiry =>
    obtain ⟨latest, held, early⟩ := lock expiry first
    have past : latest ≤ w.now := by
      by_contra ahead
      exact free ⟨latest, held, by omega⟩
    refine ⟨fun expiry' taken => ⟨_, rfl, ?_⟩, .inr (fun unexpired => ?_)⟩
    · cases taken
      dsimp only [Option.getD_some]
      omega
    · have ahead := unexpired expiry rfl
      dsimp only at ahead
      omega

theorem guardExec_acquire (w : GuardRedis) :
    ((guardExec .acquirePurgeLock w).1 ≠ .ok true ∧ (guardExec .acquirePurgeLock w).2 = w) ∨
      ¬ w.Locked ∧ (guardExec .acquirePurgeLock w).2 = w.acquire := by
  by_cases locked : w.Locked
  · refine .inl ⟨fun answered => ?_, ?_⟩
    · have won := (settle_ok answered).1
      rw [decide_eq_true locked] at won
      cases won
    · exact settle_keeps (Q := fun next => next = w) rfl (fun _ => if_pos locked)
  · cases fault : w.fault .acquirePurgeLock with
    | none => exact .inr ⟨locked, by simp only [guardExec, fault, settle]⟩
    | some fault' =>
      cases fault' with
      | unanswered e => exact .inr ⟨locked, by simp only [guardExec, fault, settle]⟩
      | refused e =>
        refine .inl ⟨fun answered => ?_, by simp only [guardExec, fault, settle]⟩
        simp only [guardExec, fault, settle] at answered
        cases answered

structure Steady (w next : GuardRedis) : Prop where
  lock : next.lockUntil = w.lockUntil
  first : next.firstLock = w.firstLock
  now : next.now = w.now
  written : next.written = w.written
  lost : next.lost = w.lost

theorem Guarded.steady (guarded : Guarded pfx pool) {next : GuardRedis} (steady : Steady pool.state next)
    (own : pool.state.Unexpired → (∃ key ∈ pool.state.written, hasPrefix pfx key = true) → ¬ Purging thread)
    (aimed : ∀ j, ¬ (update pool.thread i thread j).program.Awaits (Astray pfx))
    (each : ∀ j, (update pool.thread i thread j).program.Each (Follows pfx)) :
    Guarded pfx ⟨next, update pool.thread i thread⟩ where
  clean := steady.lost.trans guarded.clean
  lock := by
    dsimp only
    rw [steady.first, steady.lock]
    exact guarded.lock
  finished := by
    dsimp only [GuardRedis.Unexpired]
    rw [steady.first, steady.now, steady.written]
    intro unexpired written
    obtain ⟨taken, none⟩ := guarded.finished unexpired written
    exact ⟨taken, purging_update (fun j _ => none j) (own unexpired written)⟩
  aimed := aimed
  each := each

theorem steady_refl (w : GuardRedis) : Steady w w := ⟨rfl, rfl, rfl, rfl, rfl⟩

theorem scan_steady (cursor : Nat) (shown : String) (w : GuardRedis) : Steady w (w.scan cursor shown).2 := by
  unfold GuardRedis.scan
  dsimp only
  split
  · exact steady_refl w
  · exact ⟨rfl, rfl, rfl, rfl, rfl⟩

theorem Guarded.step (guarded : Guarded pfx pool) (after : AfterPurge pfx pool i)
    (shape : (pool.thread i).program = .call c next) :
    Guarded pfx ⟨(guardExec c pool.state).2, update pool.thread i
      ⟨next (guardExec c pool.state).1, ⟨c, (guardExec c pool.state).1⟩ :: (pool.thread i).notes⟩⟩ := by
  obtain ⟨aimed, each⟩ := guarded.threads shape
  have follows := guarded.each i
  rw [shape] at follows
  have own := follows.1
  -- a replica that purges rules out written keys
  have purges : Purges c → pool.state.Unexpired → ¬ ∃ key ∈ pool.state.written, hasPrefix pfx key = true := by
    intro purges unexpired written
    refine (guarded.finished unexpired written).2 i ?_
    rw [Purging, shape]
    exact purges
  cases c with
  | getVersion =>
    refine guarded.steady (settle_keeps (steady_refl _) (fun _ => steady_refl _)) (fun _ _ => ?_) aimed each
    exact (own _).1
  | setVersion v =>
    have steady : Steady pool.state (guardExec (.setVersion v) pool.state).2 :=
      settle_keeps (steady_refl _) (fun _ => ⟨rfl, rfl, rfl, rfl, rfl⟩)
    refine guarded.steady steady (fun _ _ => ?_) aimed each
    exact (own _).1
  | scan cursor shown =>
    exact guarded.steady (settle_keeps (steady_refl _) (fun _ => scan_steady cursor shown _))
      (fun unexpired written => absurd written (purges trivial unexpired)) aimed each
  | acquirePurgeLock =>
    obtain ⟨lostRace, same⟩ | ⟨free, same⟩ := guardExec_acquire pool.state
    · refine guarded.steady ?_ (fun _ _ => ?_) aimed each
      · rw [same]
        exact steady_refl _
      · exact (own _).1 lostRace
    · have fields : (guardExec .acquirePurgeLock pool.state).2.written = pool.state.written ∧
          (guardExec .acquirePurgeLock pool.state).2.lost = pool.state.lost := by
        rw [same, acquire_unlocked free]
        exact ⟨rfl, rfl⟩
      obtain ⟨lock, first⟩ := acquire_lock guarded.lock free
      refine ⟨fields.2.trans guarded.clean, ?_, ?_, aimed, each⟩
      · dsimp only
        rw [same]
        exact lock
      · dsimp only
        rw [fields.1, same]
        intro unexpired written
        refine first.elim (fun untaken => ?_) (fun expired => absurd unexpired expired)
        have before : pool.state.Unexpired := fun expiry taken => by
          rw [untaken] at taken
          cases taken
        exact absurd untaken (guarded.finished before written).1
  | unlink keys =>
    have unlinked : Steady pool.state (guardExec (.unlink keys) pool.state).2 := by
      refine settle_keeps (steady_refl _) (fun _ => ⟨rfl, rfl, rfl, rfl, ?_⟩)
      dsimp only [GuardRedis.unlink]
      split
      · rename_i unexpired
        have none : keys.filter (· ∈ pool.state.written) = [] := by
          rw [List.filter_eq_nil_iff]
          intro key member written
          refine purges trivial unexpired ⟨key, of_decide_eq_true written, ?_⟩
          by_contra outside
          refine guarded.aimed i ?_
          rw [shape]
          exact ⟨key, member, Bool.not_eq_true _ ▸ outside⟩
        rw [none, List.append_nil]
      · rfl
    exact guarded.steady unlinked (fun unexpired written => absurd written (purges trivial unexpired)) aimed each
  | write key =>
    have idle := (own (guardExec (.write key) pool.state).1).1
    have permitted := after _ _ shape key rfl
    generalize new : (⟨next (guardExec (.write key) pool.state).1,
      ⟨.write key, (guardExec (.write key) pool.state).1⟩ ::
      (pool.thread i).notes⟩ : Thread GuardCommand Answer VersionGuardError Unit) =
        thread at aimed each ⊢
    have still : ¬ Purging thread := new ▸ idle
    refine settle_keeps (Q := fun next => Guarded pfx ⟨next, update pool.thread i thread⟩)
      (guarded.steady (steady_refl _) (fun _ _ => still) aimed each)
        (fun _ => ⟨guarded.clean, guarded.lock, ?_, aimed, each⟩)
    rintro unexpired ⟨other, member, inside⟩
    rcases List.mem_cons.mp member with rfl | before
    · obtain ⟨taken, none⟩ := permitted inside
      exact ⟨taken, purging_update (fun j _ => none j) still⟩
    · obtain ⟨taken, none⟩ := guarded.finished unexpired ⟨other, before, inside⟩
      exact ⟨taken, purging_update (fun j _ => none j) still⟩

omit [DecidableEq ι] in
theorem replicas_guarded : Guarded pfx (replicas pfx rounds version keys w) where
  clean := rfl
  lock := nofun
  finished := fun _ ⟨_, member, _⟩ => by cases member
  aimed i := (replica_calm (rounds i) version (keys i)).aimed
  each i := (replica_calm (rounds i) version (keys i)).each

theorem keepsWritten : KeepsWritten pfx rounds version keys w (AfterPurge pfx) := by
  intro pool course
  have guarded : Guarded pfx pool := by
    refine course.keeps replicas_guarded ?_ ?_
    · exact fun pool i c next guarded after shape => guarded.step after shape
    · rintro pool t guarded ⟨keys, now, page, last, fault, later, rfl⟩
      refine ⟨guarded.clean, guarded.lock, fun unexpired written => ?_, guarded.aimed, guarded.each⟩
      exact guarded.finished (fun expiry taken => Nat.lt_of_le_of_lt later (unexpired expiry taken)) written
  exact guarded.clean

end

end Aeterna.Operations
