import Aeterna.Operations.VersionWrites

namespace Aeterna.Operations
open Lib (CallFault Program Pool Contract)
open Lib.CallFault
open List hiding set

section
variable {ι : Type} [DecidableEq ι] {pfx : String} {rounds : ι → Nat} {version : String} {keys : ι → List String}
  {w : GuardRedis}

def Old (pfx : String) (w : GuardRedis) (key : String) : Prop :=
  key ∈ w.survivors ∧ hasPrefix pfx key = true ∧ key ≠ SERVER_VERSION_KEY ∧ key ≠ PURGE_LOCK_KEY

structure Purged (pfx version : String) (w : GuardRedis) : Prop where
  known : w.version ≠ none
  present : ∀ key ∈ w.survivors, key ∈ w.present
  gone : w.version = some version → ∀ key, ¬ Old pfx w key

structure Onward (pfx : String) (w next : GuardRedis) : Prop where
  old : ∀ key, Old pfx next key → Old pfx w key
  cursors : w.cursors ≤ next.cursors
  owed : ∀ cursor, cursor ≤ w.cursors → ∀ key, key ∈ w.owed cursor → Old pfx next key → key ∈ next.owed cursor

theorem Onward.refl (w : GuardRedis) : Onward pfx w w := ⟨fun _ old => old, Nat.le_refl _, fun _ _ _ owes _ => owes⟩

theorem Onward.trans {a b c : GuardRedis} (first : Onward pfx a b) (second : Onward pfx b c) : Onward pfx a c where
  old key old := first.old key (second.old key old)
  cursors := Nat.le_trans first.cursors second.cursors
  owed cursor known key owes old :=
    second.owed cursor (Nat.le_trans known first.cursors) key
      (first.owed cursor known key owes (second.old key old)) old

theorem remove_onward (keys : List String) (w : GuardRedis) : Onward pfx w (w.remove keys) := by
  refine ⟨fun key ⟨stays, others⟩ => ⟨mem_of_mem_filter stays, others⟩, Nat.le_refl _,
    fun cursor _ key owes old => ?_⟩
  exact mem_filter.mpr ⟨owes, (mem_filter.mp old.1).2⟩

theorem remove_purged (keys : List String) (purged : Purged pfx version w) : Purged pfx version (w.remove keys) := by
  refine ⟨purged.known, fun key stays => ?_, fun set key old =>
    purged.gone set key ((remove_onward keys w).old key old)⟩
  obtain ⟨was, kept⟩ := mem_filter.mp stays
  exact mem_filter.mpr ⟨purged.present key was, kept⟩

def Justified (pfx : String) (w : GuardRedis) : GuardCommand → Prop
  | .setVersion _ => ∀ key, ¬ Old pfx w key
  | _ => True

theorem guardExec_onward (c : GuardCommand) (w : GuardRedis) : Onward pfx w (guardExec c w).2 := by
  have same : ∀ {next : GuardRedis}, next.survivors = w.survivors → next.cursors = w.cursors → next.owed = w.owed →
      Onward pfx w next := by
    intro next survivors cursors owed
    refine ⟨fun key old => ?_, Nat.le_of_eq cursors.symm, fun cursor _ key owes _ => owed ▸ owes⟩
    unfold Old at old ⊢
    rwa [survivors] at old
  cases c with
  | getVersion => exact settle_keeps (.refl w) (fun _ => .refl w)
  | setVersion v => exact settle_keeps (.refl w) (fun _ => same rfl rfl rfl)
  | acquirePurgeLock =>
    refine settle_keeps (.refl w) (fun _ => ?_)
    unfold GuardRedis.acquire
    split
    · exact .refl w
    · exact same rfl rfl rfl
  | scan cursor shown =>
    refine settle_keeps (.refl w) (fun _ => ?_)
    unfold GuardRedis.scan
    dsimp only
    split
    · exact .refl w
    · refine ⟨fun _ old => old, Nat.le_succ _, fun cursor known key owes _ => ?_⟩
      dsimp only
      rwa [if_neg (by omega)]
  | unlink keys =>
    have onward : Onward pfx w (w.remove keys) := remove_onward keys w
    exact settle_keeps (.refl w) (fun _ => ⟨onward.old, onward.cursors, onward.owed⟩)
  | write key => exact settle_keeps (.refl w) (fun _ => same rfl rfl rfl)

theorem guardExec_purged {c : GuardCommand} (purged : Purged pfx version w) (justified : Justified pfx w c) :
    Purged pfx version (guardExec c w).2 := by
  cases c with
  | getVersion => exact settle_keeps purged (fun _ => purged)
  | setVersion v => exact settle_keeps purged (fun _ => ⟨nofun, purged.present, fun _ => justified⟩)
  | acquirePurgeLock =>
    refine settle_keeps purged (fun _ => ?_)
    unfold GuardRedis.acquire
    split
    · exact purged
    · exact ⟨purged.known, purged.present, purged.gone⟩
  | scan cursor shown =>
    refine settle_keeps purged (fun _ => ?_)
    unfold GuardRedis.scan
    dsimp only
    split
    · exact purged
    · exact ⟨purged.known, purged.present, purged.gone⟩
  | unlink keys =>
    have removed := remove_purged keys purged
    exact settle_keeps purged (fun _ => ⟨removed.known, removed.present, removed.gone⟩)
  | write key =>
    refine settle_keeps purged (fun _ => ⟨purged.known, fun other stays => ?_, purged.gone⟩)
    by_cases same : other = key
    · exact mem_cons.mpr (.inl same)
    · exact mem_cons.mpr (.inr (mem_filter.mpr ⟨purged.present other stays, decide_eq_true same⟩))

def guardContract (pfx version : String) : Contract GuardCommand.Answer GuardRedis where
  exec := guardExec
  inv := Purged pfx version
  rely := Onward pfx
  guar := Onward pfx
  ok := fun _ _ _ => True

section
variable {β : Type} {s : GuardRedis} {notes : List (Lib.Note GuardCommand.Answer)}
  {post : Except VersionGuardError β → List (Lib.Note GuardCommand.Answer) → GuardRedis → Prop}

theorem guardCall_meets {c : GuardCommand} {next : c.Answer → GuardM β}
    (justified : ∀ t, Onward pfx s t → Justified pfx t c)
    (rest : ∀ t notes, Onward pfx s t → Purged pfx version t →
      (next (guardExec c t).1).Meets (guardContract pfx version) post notes (guardExec c t).2) :
    (guardCall c >>= next).Meets (guardContract pfx version) post notes s :=
  .asked (fun t onward purged _ =>
    ⟨guardExec_purged purged (justified t onward), guardExec_onward c t, rest t _ onward purged⟩)

def Owes (pfx : String) (cursor : Nat) (w : GuardRedis) : Prop :=
  cursor = 0 ∨ cursor ≤ w.cursors ∧ ∀ key, Old pfx w key → key ∈ w.owed cursor

variable {cursor : Nat} {key : String}

theorem Owes.onward {next : GuardRedis} (owes : Owes pfx cursor w) (onward : Onward pfx w next) :
    Owes pfx cursor next := by
  refine owes.imp id (fun ⟨known, all⟩ => ⟨Nat.le_trans known onward.cursors, fun key old => ?_⟩)
  exact onward.owed cursor known key (all key (onward.old key old)) old

theorem Owes.due (owes : Owes pfx cursor w) (purged : Purged pfx version w) (old : Old pfx w key) :
    key ∈ w.due cursor pfx := by
  unfold GuardRedis.due
  obtain rfl | ⟨_, all⟩ := owes
  · rw [if_pos rfl]
    exact mem_filter.mpr ⟨purged.present key old.1, old.2.1⟩
  · split
    · exact mem_filter.mpr ⟨purged.present key old.1, old.2.1⟩
    · exact all key old

theorem scan_shows (owes : Owes pfx cursor w) (purged : Purged pfx version w) (old : Old pfx w key) :
    key ∈ (w.scan cursor pfx).1.2 ∨
      (w.scan cursor pfx).1.1 ≠ 0 ∧ key ∈ (w.scan cursor pfx).2.owed (w.scan cursor pfx).1.1 := by
  have due := owes.due purged old
  by_cases shown : key ∈ w.page.filter (hasPrefix pfx)
  · left
    unfold GuardRedis.scan
    dsimp only
    split <;> exact shown
  · right
    have rest : key ∈ (w.due cursor pfx).filter (· ∉ w.page.filter (hasPrefix pfx)) :=
      mem_filter.mpr ⟨due, decide_eq_true shown⟩
    unfold GuardRedis.scan
    dsimp only
    rw [if_neg (fun ends => ne_nil_of_mem rest ends.1)]
    refine ⟨Nat.succ_ne_zero _, ?_⟩
    dsimp only
    rwa [if_pos rfl]

theorem scan_cursor (cursor : Nat) (w : GuardRedis) : (w.scan cursor pfx).1.1 ≤ (w.scan cursor pfx).2.cursors := by
  unfold GuardRedis.scan
  dsimp only
  split
  · exact Nat.zero_le _
  · exact Nat.le_refl _

theorem mem_toUnlink {keys : List String} (member : key ∈ keys) (old : Old pfx w key) : key ∈ toUnlink keys := by
  refine mem_filter.mpr ⟨member, ?_⟩
  simp [old.2.2.1, old.2.2.2]

theorem unlinkPage_meets (keys : List String) : (unlinkPage keys).Meets (guardContract pfx version)
    (fun outcome _ last => Onward pfx s last ∧ ∀ n, outcome = .ok n → ∀ key ∈ keys, ¬ Old pfx last key) notes s := by
  unfold unlinkPage
  split
  · rename_i none
    refine ⟨.refl s, fun _ _ key member old => ?_⟩
    have inside := mem_toUnlink member old
    rw [none] at inside
    cases inside
  · refine guardCall_meets (fun _ _ => trivial) (fun t notes onward _ => ?_)
    have near := onward.trans (guardExec_onward (.unlink (toUnlink keys)) t)
    refine .orFail (fun n answered => ⟨near, fun _ _ key member old => ?_⟩)
      (fun e _ => ⟨near, fun _ failed => nomatch failed⟩)
    have after : (guardExec (.unlink (toUnlink keys)) t).2 = t.unlink (toUnlink keys) :=
      (settle_ok answered).2
    have inside := mem_toUnlink member old
    rw [after] at old
    exact of_decide_eq_true (mem_filter.mp old.1).2 inside

theorem flushPrefix_meets (rounds : Nat) (removed : Nat) (owes : Owes pfx cursor s) :
    (flushPrefix pfx rounds cursor removed).Meets (guardContract pfx version)
      (fun outcome _ last => Onward pfx s last ∧ ∀ n, outcome = .ok n → ∀ key, ¬ Old pfx last key) notes s := by
  induction rounds generalizing cursor removed s notes with
  | zero => exact ⟨.refl s, fun _ failed => nomatch failed⟩
  | succ rounds ih =>
    refine guardCall_meets (fun _ _ => trivial) (fun t notes onward purged => ?_)
    have near := onward.trans (guardExec_onward (.scan cursor pfx) t)
    have shows := fun key (old : Old pfx t key) => scan_shows (owes.onward onward) purged old
    cases answer : (guardExec (.scan cursor pfx) t).1 with
    | error e => exact ⟨near, fun _ failed => nomatch failed⟩
    | ok page =>
      obtain ⟨same, after⟩ := settle_ok answer
      have after : (guardExec (.scan cursor pfx) t).2 = (t.scan cursor pfx).2 := after
      have step : Onward pfx t (guardExec (.scan cursor pfx) t).2 := guardExec_onward _ t
      rw [same] at shows
      rw [after] at near step ⊢
      refine (unlinkPage_meets page.2).seq
        (fun e _ last ⟨further, _⟩ => ⟨near.trans further, fun _ failed => nomatch failed⟩) ?_
      rintro n notes last ⟨further, gone⟩
      have still : ∀ key, Old pfx last key → page.1 ≠ 0 ∧ key ∈ (t.scan cursor pfx).2.owed page.1 := by
        intro key old
        refine (shows key (step.old key (further.old key old))).resolve_left (fun shown => ?_)
        exact gone n rfl key shown old
      have cursor' : (t.scan cursor pfx).1.1 ≤ (t.scan cursor pfx).2.cursors := scan_cursor cursor t
      rw [same] at cursor'
      split
      · rename_i ends
        exact ⟨near.trans further, fun _ _ key old => (still key old).1 ends⟩
      · have owes' : Owes pfx page.1 last := by
          refine .inr ⟨Nat.le_trans cursor' further.cursors, fun key old => ?_⟩
          exact further.owed page.1 cursor' key (still key old).2 old
        exact (ih (removed + n) owes').mono
          (fun outcome _ u ⟨later, left⟩ => ⟨(near.trans further).trans later, left⟩)

theorem setSentinel_meets (action : VersionAction) (none : ∀ key, ¬ Old pfx s key) :
    (setSentinel version action).Meets (guardContract pfx version) (fun _ _ _ => True) notes s := by
  refine guardCall_meets (fun t onward key old => none key (onward.old key old)) (fun t notes _ _ => ?_)
  cases (guardExec (.setVersion version) t).1 <;> trivial

theorem purge_meets (rounds : Nat) (previous : String) :
    (purge pfx rounds version previous).Meets (guardContract pfx version) (fun _ _ _ => True) notes s := by
  refine guardCall_meets (fun _ _ => trivial) (fun t notes _ _ => ?_)
  cases (guardExec .acquirePurgeLock t).1 with
  | error e => trivial
  | ok won =>
    cases won with
    | false => trivial
    | true =>
      refine (flushPrefix_meets rounds 0 (.inl rfl)).seq (fun _ _ _ _ => trivial) ?_
      exact fun n _ last flushed => setSentinel_meets _ (flushed.2 n rfl)

theorem ensureVersion_meets (rounds : Nat) :
    (ensureVersion pfx rounds version).Meets (guardContract pfx version) (fun _ _ _ => True) notes s := by
  refine guardCall_meets (fun _ _ => trivial) (fun t notes _ purged => ?_)
  cases answer : (guardExec .getVersion t).1 with
  | error e => trivial
  | ok current =>
    have read := (settle_ok answer).1
    obtain ⟨v, known⟩ := Option.ne_none_iff_exists'.mp purged.known
    rw [known] at read
    subst read
    show (carryOut pfx rounds version (decideAction (some v) version)).Meets _ _ _ _
    unfold decideAction
    dsimp only
    split
    · trivial
    · exact purge_meets rounds v

theorem writeKeys_meets (keys : List String) :
    (writeKeys keys).Meets (guardContract pfx version) (fun _ _ _ => True) notes s := by
  induction keys generalizing notes s with
  | nil => trivial
  | cons key rest ih => exact guardCall_meets (fun _ _ => trivial) (fun t notes _ _ => ih)

end

def RemovesOld (pfx : String) (rounds : ι → Nat) (version : String) (keys : ι → List String) (w : GuardRedis)
    (allowed : Replicas ι → ι → Prop) : Prop :=
  ∀ pool, Pool.Course guardExec allowed Meanwhile (replicas pfx rounds version keys w) pool →
    pool.state.version = some version → ∀ key ∈ pool.state.survivors, hasPrefix pfx key = true →
      key = SERVER_VERSION_KEY ∨ key = PURGE_LOCK_KEY

theorem removesOld {previous : String} (found : w.version = some previous) (differs : previous ≠ version)
    (allowed : Replicas ι → ι → Prop) : RemovesOld pfx rounds version keys w allowed := by
  intro pool course set key stays inside
  have start : Purged pfx version (replicas pfx rounds version keys w).state := by
    refine ⟨fun none => ?_, fun _ present => present, fun set => ?_⟩
    · have none : w.version = Option.none := none
      rw [found] at none
      cases none
    · have set : w.version = some version := set
      rw [found] at set
      exact absurd (Option.some.inj set) differs
  have known : Pool.Course (guardContract pfx version).exec
      (fun pool i => pool.Permitted (guardContract pfx version).ok i)
      Meanwhile (replicas pfx rounds version keys w) pool :=
    course.mono (fun _ _ _ _ _ _ => trivial) (fun _ _ moved => moved)
  have promising : pool.Promising (guardContract pfx version) (fun _ _ _ _ => True) := by
    refine known.promising Onward.refl Onward.trans id ?_ start (fun i => ?_)
    · rintro a b purged ⟨keys, now, page, last, fault, _, rfl⟩
      have removed := remove_purged keys purged
      have onward : Onward pfx a (a.remove keys) := remove_onward keys a
      exact ⟨⟨removed.known, removed.present, removed.gone⟩, ⟨onward.old, onward.cursors, onward.owed⟩⟩
    · have ensured : ((ensureVersion pfx (rounds i) version).attempt : GuardM _).Meets (guardContract pfx version)
          (fun _ _ _ => True) [] (replicas pfx rounds version keys w).state :=
            .attempt (ensureVersion_meets (rounds i))
      exact ensured.seq (fun _ _ _ _ => trivial) (fun _ _ _ _ => writeKeys_meets (keys i))
  by_contra other
  obtain ⟨notVersion, notLock⟩ := not_or.mp other
  exact promising.1.gone set key ⟨stays, inside, notVersion, notLock⟩

/-- Whatever the replicas write, old keys are gone once the sentinel is set; and keys that are written after
the purge only are not removed while the first lock runs. -/
theorem ensureVersion_purges (pfx : String) (rounds : ι → Nat) (version : String) (keys : ι → List String)
    (w : GuardRedis) (previous : String) (found : w.version = some previous) (differs : previous ≠ version) :
    (∀ allowed, RemovesOld pfx rounds version keys w allowed) ∧ KeepsWritten pfx rounds version keys w
      (AfterPurge pfx) :=
  ⟨removesOld found differs, keepsWritten⟩

end

def upgraded : GuardRedis where
  version := some "0.8.0"
  present := ["aeterna:jobs:1"]
  page := ["aeterna:jobs:1", "aeterna:jobs:2"]

theorem ensureVersion_purges_sample : (∀ allowed, RemovesOld DEFAULT_PURGE_PREFIX (fun _ : Bool => 5) "0.9.0"
      (fun _ => ["aeterna:jobs:2"]) upgraded allowed) ∧
      KeepsWritten DEFAULT_PURGE_PREFIX (fun _ : Bool => 5) "0.9.0" (fun _ => ["aeterna:jobs:2"]) upgraded
        (AfterPurge DEFAULT_PURGE_PREFIX) :=
  ensureVersion_purges DEFAULT_PURGE_PREFIX _ "0.9.0" _ upgraded "0.8.0" rfl (by decide)

def keyPurged : Replicas Bool :=
  [false, true, false, true, true, false, false].foldl (Pool.step guardExec)
    (replicas DEFAULT_PURGE_PREFIX (fun _ => 5) "0.9.0" (fun _ => ["aeterna:jobs:2"]) upgraded)

theorem loser_key_removed : ¬ KeepsWritten DEFAULT_PURGE_PREFIX (fun _ : Bool => 5) "0.9.0"
    (fun _ => ["aeterna:jobs:2"])
    upgraded (fun _ _ => True) := by
  intro keeps
  have course : Pool.Course guardExec (fun _ _ => True) Meanwhile
      (replicas DEFAULT_PURGE_PREFIX (fun _ : Bool => 5) "0.9.0" (fun _ => ["aeterna:jobs:2"]) upgraded) keyPurged :=
    .schedule (fun _ _ => trivial) .start _
  have lost : keyPurged.state.lost = ["aeterna:jobs:2"] := by decide +kernel
  have kept := keeps keyPurged course
  rw [lost] at kept
  cases kept

end Aeterna.Operations
