import Mathlib
import Aeterna.Access.RefreshTokens

namespace Aeterna
open Lib Program Function Pool

inductive RefreshRequest where
  | insert (token : String) (entry : RefreshEntry) (ttl : UInt64)
  | take (token kind : String)
  | revoke (token kind : String)

inductive RefreshOutcome where
  | inserted
  | taken (result : Except RefreshTokenTakeResult RefreshEntry)
  | revoked

def RefreshRequest.program (backend : RefreshBackend) : RefreshRequest → RefreshM RefreshOutcome
  | .insert token entry ttl => do
    insertToken backend token entry ttl
    pure .inserted
  | .take token kind => do
    let result ← takeForKind backend token kind
    pure (.taken result)
  | .revoke token kind => do
    revokeForKind backend token kind
    pure .revoked

abbrev RefreshPool (ι : Type) := Pool ι RefreshCall RefreshCall.Answer Empty RefreshOutcome RefreshStores

abbrev RefreshNote := Note RefreshCall.Answer

/-- The calls before their first step. -/
def refreshPool {ι : Type} (backend : RefreshBackend) (stores : RefreshStores) (requests : ι → RefreshRequest) :
    RefreshPool ι where
  state := stores
  thread i := { program := (requests i).program backend }

section
variable (backend : RefreshBackend) (token : String)

def RefreshCall.Puts (entry : RefreshEntry) : RefreshCall → Prop
  | .mapInsert id stored => backend = .inMemory ∧ id = token ∧ stored = entry
  | .setEx id stored _ => backend = .redis ∧ id = token ∧ stored = entry
  | _ => False

def RefreshCall.Writes (c : RefreshCall) : Prop := ∃ entry, c.Puts backend token entry

def Consumes : RefreshNote → Prop
  | ⟨.mapRemove id, some _⟩ => backend = .inMemory ∧ id = token
  | ⟨.getDel id, .ok (some _)⟩ => backend = .redis ∧ id = token
  | _ => False

def Closes (kind : String) : RefreshNote → Prop
  | ⟨.mapRevoke id named, _⟩ => backend = .inMemory ∧ id = token ∧ named = kind
  | ⟨.get id, .ok none⟩ => backend = .redis ∧ id = token
  | ⟨.get id, .error _⟩ => backend = .redis ∧ id = token
  | ⟨.del id, _⟩ => backend = .redis ∧ id = token
  | _ => False

def RefreshStores.found (s : RefreshStores) : Option RefreshPayload :=
  match backend with
  | .inMemory => (s.tokens token).map .entry
  | .redis => s.live token

def RefreshStores.Holds (P : RefreshEntry → Prop) (s : RefreshStores) : Prop :=
  ∀ payload, s.found backend token = some payload → ∃ entry, payload = .entry entry ∧ P entry

end

namespace RefreshStores
variable {s t : RefreshStores} {token : String} {backend : RefreshBackend}

theorem live_drop (id : String) : (s.drop id).live token = if token = id then none else s.live token := by
  unfold drop live
  by_cases same : token = id
  · subst same
    simp
  · simp [same]

theorem live_putIndex (ids : List String) :
    (s.putIndex ids).live token = if token = listKey then none else s.live token := by
  unfold putIndex live
  by_cases same : token = listKey
  · subst same
    split <;> simp_all
  · simp [same]

section
variable (c : RefreshCall) (s : RefreshStores) (token : String)

theorem exec_tokens : (exec c s).2.tokens token = s.tokens token ∨ (exec c s).2.tokens token = none ∨
      ∃ entry, c.Puts .inMemory token entry ∧ (exec c s).2.tokens token = some entry := by
  cases c with
  | mapInsert id entry =>
    by_cases same : token = id
    · subst same
      exact .inr (.inr ⟨entry, ⟨rfl, rfl, rfl⟩, update_self ..⟩)
    · exact .inl (update_of_ne same ..)
  | mapRemove id =>
    by_cases same : token = id
    · subst same
      exact .inr (.inl (update_self ..))
    · exact .inl (update_of_ne same ..)
  | mapRevoke id kind =>
    simp only [exec]
    split
    · by_cases same : token = id
      · subst same
        exact .inr (.inl (update_self ..))
      · exact .inl (update_of_ne same ..)
    · exact .inl rfl
  | setEx id entry ttl =>
    simp only [exec]
    split <;> exact .inl rfl
  | sadd id =>
    simp only [exec]
    split <;> exact .inl rfl
  | srem id =>
    simp only [exec]
    split <;> exact .inl rfl
  | getDel id =>
    simp only [exec]
    split <;> exact .inl rfl
  | _ => exact .inl rfl

theorem exec_live : (exec c s).2.live token = s.live token ∨ (exec c s).2.live token = none ∨
      ∃ entry, c.Puts .redis token entry ∧ (exec c s).2.live token = some (.entry entry) := by
  have dropped (id : String) : (s.drop id).live token = s.live token ∨ (s.drop id).live token = none := by
    rw [live_drop]
    split
    · exact .inr rfl
    · exact .inl rfl
  have indexed (ids : List String) : (s.putIndex ids).live token = s.live token ∨
      (s.putIndex ids).live token = none := by
    rw [live_putIndex]
    split
    · exact .inr rfl
    · exact .inl rfl
  cases c with
  | setEx id entry ttl =>
    simp only [exec]
    split
    · exact .inl rfl
    · by_cases same : token = id
      · subst same
        simp only [live, update_self]
        split
        · exact .inr (.inr ⟨entry, ⟨rfl, rfl, rfl⟩, rfl⟩)
        · exact .inr (.inl rfl)
      · simp only [live, update_of_ne same]
        exact .inl trivial
  | sadd id =>
    simp only [exec]
    split
    · exact (indexed _).imp_right .inl
    · exact .inl rfl
  | srem id =>
    simp only [exec]
    split
    · exact (indexed _).imp_right .inl
    · exact .inl rfl
  | del id => exact (dropped id).imp_right .inl
  | getDel id =>
    simp only [exec]
    split
    · exact .inl rfl
    · exact (dropped id).imp_right .inl
  | mapRevoke id kind =>
    simp only [exec]
    split <;> exact .inl rfl
  | _ => exact .inl rfl

theorem exec_found :
    (exec c s).2.found backend token = s.found backend token ∨ (exec c s).2.found backend token = none ∨
      ∃ entry, c.Puts backend token entry ∧ (exec c s).2.found backend token = some (.entry entry) := by
  cases backend with
  | inMemory =>
    simp only [found]
    rcases exec_tokens c s token with same | none | ⟨entry, puts, stored⟩
    · exact .inl (by rw [same])
    · exact .inr (.inl (by rw [none, Option.map_none]))
    · exact .inr (.inr ⟨entry, puts, by rw [stored, Option.map_some]⟩)
  | redis => exact exec_live c s token

end

theorem exec_gone {c : RefreshCall} (gone : s.found backend token = none) (other : ¬ c.Writes backend token) :
    (exec c s).2.found backend token = none := by
  rcases exec_found c s token with same | none | ⟨entry, puts, _⟩
  · exact same.trans gone
  · exact none
  · exact (other ⟨entry, puts⟩).elim

variable {P : RefreshEntry → Prop}

theorem Holds.exec {c : RefreshCall} (holds : s.Holds backend token P)
    (fine : ∀ entry, c.Puts backend token entry → P entry) : (exec c s).2.Holds backend token P := by
  intro payload present
  rcases exec_found c s token with same | none | ⟨stored, puts, put⟩
  · exact holds payload (same.symm.trans present)
  · rw [none] at present
    cases present
  · rw [put] at present
    cases present
    exact ⟨stored, rfl, fine stored puts⟩

theorem Holds.mono {Q : RefreshEntry → Prop} (holds : s.Holds backend token P) (wider : ∀ entry, P entry → Q entry) :
    s.Holds backend token Q := by
  intro payload present
  obtain ⟨entry, same, described⟩ := holds payload present
  exact ⟨entry, same, wider entry described⟩

theorem Later.found (later : s.Later t) (token : String) :
    t.found backend token = s.found backend token ∨ t.found backend token = none := by
  obtain ⟨now, after, rfl⟩ := later
  cases backend with
  | inMemory => exact .inl rfl
  | redis =>
    unfold RefreshStores.found RefreshStores.live
    dsimp only
    split
    · split
      · rename_i before
        have sooner : s.now < _ := Int.lt_of_le_of_lt after before
        rw [if_pos sooner]
        exact .inl rfl
      · exact .inr rfl
    · exact .inl rfl

theorem Later.gone (later : s.Later t) (gone : s.found backend token = none) : t.found backend token = none := by
  rcases later.found token with same | none
  · exact same.trans gone
  · exact none

theorem Holds.later (holds : s.Holds backend token P) (later : s.Later t) : t.Holds backend token P := by
  intro payload present
  rcases later.found token with same | none
  · exact holds payload (same.symm.trans present)
  · rw [none] at present
    cases present

theorem exec_now (c : RefreshCall) (s : RefreshStores) : (exec c s).2.now = s.now := by
  cases c with
  | mapRevoke id kind =>
    simp only [exec]
    split <;> rfl
  | setEx id entry ttl =>
    simp only [exec]
    split <;> rfl
  | sadd id =>
    simp only [exec]
    split <;> rfl
  | srem id =>
    simp only [exec]
    split <;> rfl
  | getDel id =>
    simp only [exec]
    split <;> rfl
  | _ => rfl

theorem exec_consumes {c : RefreshCall} (consumes : Consumes backend token ⟨c, (exec c s).1⟩) :
    s.found backend token ≠ none ∧ (exec c s).2.found backend token = none := by
  cases c with
  | mapRemove id =>
    cases there : s.tokens id with
    | none => simp [Consumes, exec, there] at consumes
    | some entry =>
      simp only [Consumes, exec, there] at consumes
      obtain ⟨rfl, rfl⟩ := consumes
      simp [found, exec, there]
  | getDel id =>
    by_cases set : s.isSet id
    · simp [Consumes, exec, set] at consumes
    · cases there : s.live id with
      | none => simp [Consumes, exec, set, there] at consumes
      | some payload =>
        simp only [Consumes, exec, set, there] at consumes
        obtain ⟨rfl, rfl⟩ := consumes
        simp [found, exec, set, there, live_drop]
  | _ => exact consumes.elim

theorem exec_closes {c : RefreshCall} {kind : String} (closes : Closes backend token kind ⟨c, (exec c s).1⟩)
    (holds : s.Holds backend token (fun entry => entry.tokenKind = kind)) :
      (exec c s).2.found backend token = none := by
  cases c with
  | mapRevoke id named =>
    obtain ⟨rfl, rfl, rfl⟩ := closes
    cases there : s.tokens id with
    | none => simp [found, exec, there]
    | some entry =>
      obtain ⟨_, same, kind⟩ := holds (.entry entry) (by simp [found, there])
      cases same
      simp [found, exec, there, kind]
  | get id =>
    by_cases set : s.isSet id
    · simp only [Closes, exec, set] at closes
      obtain ⟨rfl, rfl⟩ := closes
      unfold isSet at set
      simp only [found, exec, live]
      split at set
      · simp_all
      · cases set
    · cases there : s.live id with
      | none =>
        simp only [Closes, exec, set, there] at closes
        obtain ⟨rfl, rfl⟩ := closes
        simpa [found, exec] using there
      | some payload => simp [Closes, exec, set, there] at closes
  | del id =>
    obtain ⟨rfl, rfl⟩ := closes
    simp [found, exec, live_drop]
  | _ => exact closes.elim

end RefreshStores

/-- Calls that store nothing. -/
def RefreshCall.Quiet : RefreshCall → Prop
  | .mapInsert _ _ => False
  | .setEx _ _ _ => False
  | _ => True

theorem RefreshCall.not_writes (c : RefreshCall) (quiet : c.Quiet) (backend : RefreshBackend) (token : String) :
    ¬ c.Writes backend token := by
  rintro ⟨entry, puts⟩
  cases c with
  | mapInsert id stored => exact quiet
  | setEx id stored ttl => exact quiet
  | _ => exact puts

section
variable {token kind : String} {backend : RefreshBackend}

theorem redisGet_quiet : (RedisStore.get token).Uses RefreshCall.Quiet := by
  refine Uses.bind (.ask trivial) (fun answer => ?_)
  split <;> trivial

theorem redisDelete_quiet : (RedisStore.delete token).Uses RefreshCall.Quiet := by
  refine Uses.bind (.ask trivial) (fun answer => ?_)
  split
  · trivial
  · refine Uses.bind (.ask trivial) (fun answer => ?_)
    split <;> trivial

theorem redisTake_quiet : (RedisStore.take token).Uses RefreshCall.Quiet := by
  refine Uses.bind (.ask trivial) (fun answer => ?_)
  split
  · trivial
  · trivial
  · refine Uses.bind (.ask trivial) (fun answer => ?_)
    split <;> trivial

theorem takeForKind_quiet : (takeForKind backend token kind).Uses RefreshCall.Quiet := by
  cases backend with
  | inMemory =>
    refine Uses.bind (.ask trivial) (fun now => Uses.bind (.ask trivial) (fun found => ?_))
    split
    · trivial
    · split_ifs
      · exact Uses.bind (.ask trivial) (fun _ => trivial)
      · trivial
      · refine Uses.bind (.ask trivial) (fun removed => ?_)
        split <;> trivial
  | redis =>
    refine Uses.bind redisGet_quiet (fun found => ?_)
    split
    · trivial
    · trivial
    · refine Uses.bind (.ask trivial) (fun now => ?_)
      split_ifs
      · exact Uses.bind redisDelete_quiet (fun _ => trivial)
      · trivial
      · refine Uses.bind redisTake_quiet (fun taken => ?_)
        split
        · exact Uses.bind (.ask trivial) (fun _ => trivial)
        · trivial
        · trivial

theorem revokeForKind_quiet : (revokeForKind backend token kind).Uses RefreshCall.Quiet := by
  cases backend with
  | inMemory => exact .ask trivial
  | redis =>
    refine Uses.bind redisGet_quiet (fun found => ?_)
    split
    · split_ifs
      · exact Uses.bind redisDelete_quiet (fun _ => trivial)
      · trivial
    · trivial
    · trivial

def RefreshEntry.Matches (inserted entry : RefreshEntry) : Prop :=
  entry = { inserted with expiresAt := entry.expiresAt }

def StoresOnly (backend : RefreshBackend) (id : String) (inserted : RefreshEntry) (c : RefreshCall) : Prop :=
  ∀ token entry, c.Puts backend token entry → token = id ∧ inserted.Matches entry

theorem RefreshCall.storesOnly (c : RefreshCall) (quiet : c.Quiet) {id : String} {inserted : RefreshEntry} :
    StoresOnly backend id inserted c :=
  fun token entry puts => (c.not_writes quiet backend token ⟨entry, puts⟩).elim

theorem insertToken_storesOnly {entry : RefreshEntry} {ttl : UInt64} :
    (insertToken backend token entry ttl).Uses (StoresOnly backend token entry) := by
  refine Uses.bind (.ask (RefreshCall.utcNow.storesOnly trivial)) (fun now => ?_)
  cases backend with
  | inMemory =>
    refine .ask ?_
    rintro id stored ⟨_, rfl, rfl⟩
    exact ⟨rfl, rfl⟩
  | redis =>
    refine Uses.bind (Uses.bind (.ask ?_) (fun answer => ?_)) (fun _ => trivial)
    · rintro id stored ⟨_, rfl, rfl⟩
      exact ⟨rfl, rfl⟩
    · split
      · trivial
      · exact .ask ((RefreshCall.sadd token).storesOnly trivial)

theorem insertToken_once {entry : RefreshEntry} {ttl : UInt64} {id : String} :
    (insertToken backend token entry ttl).Once (RefreshCall.Writes backend id) := by
  refine Uses.bind_once (.ask (RefreshCall.utcNow.not_writes trivial backend id)) (fun now => ?_)
  cases backend with
  | inMemory => exact .ask _
  | redis =>
    refine Once.bind (Once.bind (.ask _) (fun answer => ?_)) (fun _ => trivial)
    split
    · trivial
    · exact .ask ((RefreshCall.sadd token).not_writes trivial .redis id)

theorem program_idle (request : RefreshRequest) (other : ∀ entry ttl, request ≠ .insert token entry ttl) :
    (request.program backend).Uses (fun c => ¬ c.Writes backend token) := by
  cases request with
  | insert id entry ttl =>
    have different : id ≠ token := by
      rintro rfl
      exact other entry ttl rfl
    refine Uses.bind (insertToken_storesOnly.mono ?_) (fun _ => trivial)
    rintro c only ⟨stored, puts⟩
    exact different (only token stored puts).1.symm
  | take id kind =>
    exact Uses.bind (takeForKind_quiet.mono (fun c quiet => c.not_writes quiet backend token))
      (fun _ => trivial)
  | revoke id kind =>
    exact Uses.bind (revokeForKind_quiet.mono (fun c quiet => c.not_writes quiet backend token))
      (fun _ => trivial)

theorem program_once (request : RefreshRequest) :
    (request.program backend).Once (RefreshCall.Writes backend token) := by
  cases request with
  | insert id entry ttl => exact Once.bind insertToken_once (fun _ => trivial)
  | take id kind => exact (program_idle _ (fun _ _ same => by cases same)).once
  | revoke id kind => exact (program_idle _ (fun _ _ same => by cases same)).once

end

section
variable {ι : Type} (backend : RefreshBackend) (token : String)

def Idle (thread : Thread RefreshCall RefreshCall.Answer Empty RefreshOutcome) : Prop :=
  thread.program.Uses (fun c => ¬ c.Writes backend token)

def Consumed (notes : List RefreshNote) : Prop := ∃ note ∈ notes, Consumes backend token note

structure UsedOnce (pool : RefreshPool ι) : Prop where
  once : ∀ j, (pool.thread j).program.Once (RefreshCall.Writes backend token)
  writer : ∀ i j, Idle backend token (pool.thread i) ∨ Idle backend token (pool.thread j) ∨ i = j
  unwritten : ∀ j, Idle backend token (pool.thread j) ∨
    (pool.state.found backend token = none ∧ ∀ i, ¬ Consumed backend token (pool.thread i).notes)
  present : pool.state.found backend token ≠ none → ∀ i, ¬ Consumed backend token (pool.thread i).notes
  single : ∀ i j, Consumed backend token (pool.thread i).notes → Consumed backend token (pool.thread j).notes → i = j

variable {backend token}

theorem Consumed.cons_cases {note : RefreshNote} {notes : List RefreshNote}
    (consumed : Consumed backend token (note :: notes)) :
    Consumes backend token note ∨ Consumed backend token notes := by
  obtain ⟨found, member, consumes⟩ := consumed
  rcases List.mem_cons.mp member with rfl | earlier
  · exact .inl consumes
  · exact .inr ⟨found, earlier, consumes⟩

theorem not_consumes_of_writes {c : RefreshCall} (writes : c.Writes backend token) (answer : c.Answer) :
    ¬ Consumes backend token ⟨c, answer⟩ := by
  obtain ⟨entry, puts⟩ := writes
  cases c with
  | mapInsert id stored => exact fun impossible => impossible
  | setEx id stored ttl => exact fun impossible => impossible
  | _ => exact puts.elim

variable [DecidableEq ι]

abbrev called (pool : RefreshPool ι) (i : ι) (c : RefreshCall) (next : c.Answer → RefreshM RefreshOutcome) :
    RefreshPool ι :=
  ⟨(RefreshStores.exec c pool.state).2, update pool.thread i
    ⟨next (RefreshStores.exec c pool.state).1, ⟨c, (RefreshStores.exec c pool.state).1⟩ :: (pool.thread i).notes⟩⟩

section
variable {pool : RefreshPool ι} {i : ι} {c : RefreshCall} {next : c.Answer → RefreshM RefreshOutcome}

theorem called_consumed {j : ι} (consumed : Consumed backend token ((called pool i c next).thread j).notes) :
    (j = i ∧ Consumes backend token ⟨c, (RefreshStores.exec c pool.state).1⟩) ∨
      Consumed backend token (pool.thread j).notes := by
  by_cases same : j = i
  · subst same
    simp only [update_self] at consumed
    exact consumed.cons_cases.imp_left (fun consumes => ⟨rfl, consumes⟩)
  · simp only [update_of_ne same] at consumed
    exact .inr consumed

theorem called_idle (shape : (pool.thread i).program = .call c next) {j : ι}
    (idle : Idle backend token (pool.thread j)) :
    Idle backend token ((called pool i c next).thread j) := by
  by_cases same : j = i
  · subst same
    simp only [update_self]
    unfold Idle at idle
    rw [shape] at idle
    exact idle.2 _
  · simp only [update_of_ne same]
    exact idle

section
variable (used : UsedOnce backend token pool) (shape : (pool.thread i).program = .call c next)
include used shape

theorem UsedOnce.called_once (j : ι) :
    ((called pool i c next).thread j).program.Once (RefreshCall.Writes backend token) := by
  by_cases same : j = i
  · subst same
    have shaped := used.once j
    rw [shape] at shaped
    simp only [update_self]
    exact (shaped _).2
  · simp only [update_of_ne same]
    exact used.once j

theorem UsedOnce.called_writer (j k : ι) : Idle backend token ((called pool i c next).thread j) ∨
      Idle backend token ((called pool i c next).thread k) ∨ j = k :=
  (used.writer j k).imp (called_idle shape) (Or.imp_left (called_idle shape))

theorem UsedOnce.call_writes (writes : c.Writes backend token) : UsedOnce backend token (called pool i c next) := by
  have shaped := used.once i
  rw [shape] at shaped
  have busy : ¬ Idle backend token (pool.thread i) := by
    unfold Idle
    rw [shape]
    exact fun idle => idle.1 writes
  have untaken : ∀ j, ¬ Consumed backend token ((called pool i c next).thread j).notes := by
    intro j consumed
    rcases called_consumed consumed with ⟨_, consumes⟩ | before
    · exact not_consumes_of_writes writes _ consumes
    · exact ((used.unwritten i).resolve_left busy).2 j before
  have idle : ∀ j, Idle backend token ((called pool i c next).thread j) := by
    intro j
    by_cases same : j = i
    · subst same
      simp only [update_self]
      exact (shaped _).1 writes
    · rcases used.writer i j with first | second | equal
      · exact (busy first).elim
      · exact called_idle shape second
      · exact (same equal.symm).elim
  exact ⟨used.called_once shape, fun j _ => .inl (idle j), fun j => .inl (idle j), fun _ => untaken,
    fun j k consumed => (untaken j consumed).elim⟩

theorem UsedOnce.call_consumes (consumes : Consumes backend token ⟨c, (RefreshStores.exec c pool.state).1⟩) :
    UsedOnce backend token (called pool i c next) := by
  obtain ⟨there, taken⟩ := RefreshStores.exec_consumes consumes
  have untaken := used.present there
  have mine : ∀ j, Consumed backend token ((called pool i c next).thread j).notes → j = i := by
    intro j consumed
    rcases called_consumed consumed with ⟨same, _⟩ | before
    · exact same
    · exact (untaken j before).elim
  refine ⟨used.called_once shape, used.called_writer shape, ?_, fun still => (still taken).elim, ?_⟩
  · intro j
    rcases used.unwritten j with idle | ⟨none, _⟩
    · exact .inl (called_idle shape idle)
    · exact (there none).elim
  · intro j k first second
    rw [mine j first, mine k second]

theorem UsedOnce.call_quiet (quiet : ¬ c.Writes backend token)
    (keeps : ¬ Consumes backend token ⟨c, (RefreshStores.exec c pool.state).1⟩) :
    UsedOnce backend token (called pool i c next) := by
  have gone : pool.state.found backend token = none → (called pool i c next).state.found backend token = none :=
    fun none => RefreshStores.exec_gone none quiet
  have same : ∀ j, Consumed backend token ((called pool i c next).thread j).notes →
      Consumed backend token (pool.thread j).notes := by
    intro j consumed
    rcases called_consumed consumed with ⟨_, other⟩ | before
    · exact (keeps other).elim
    · exact before
  refine ⟨used.called_once shape, used.called_writer shape, ?_, ?_, ?_⟩
  · intro j
    rcases used.unwritten j with idle | ⟨none, untaken⟩
    · exact .inl (called_idle shape idle)
    · exact .inr ⟨gone none, fun k consumed => untaken k (same k consumed)⟩
  · intro still j consumed
    exact used.present (fun none => still (gone none)) j (same j consumed)
  · intro j k first second
    exact used.single j k (same j first) (same k second)

theorem UsedOnce.call : UsedOnce backend token (called pool i c next) := by
  by_cases writes : c.Writes backend token
  · exact used.call_writes shape writes
  · by_cases consumes : Consumes backend token ⟨c, (RefreshStores.exec c pool.state).1⟩
    · exact used.call_consumes shape consumes
    · exact used.call_quiet shape writes consumes

end

end

structure FreshTokens (backend : RefreshBackend) (stores : RefreshStores) (requests : ι → RefreshRequest) : Prop where
  distinct : ∀ i j token entry entry' ttl ttl', requests i = .insert token entry ttl →
    requests j = .insert token entry' ttl' → i = j
  absent : ∀ i token entry ttl, requests i = .insert token entry ttl → stores.found backend token = none

/-- A token that the next step of `i` stores has not been named in a revocation. -/
def Unnamed (backend : RefreshBackend) (requests : ι → RefreshRequest) (pool : RefreshPool ι) (i : ι) : Prop :=
  ∀ c next, (pool.thread i).program = .call c next → ∀ token, c.Writes backend token →
    ∀ r kind, requests r = .revoke token kind → (pool.thread r).notes = []

/-- The interleavings of calls with fresh tokens. -/
abbrev RefreshCourse (backend : RefreshBackend) (requests : ι → RefreshRequest) (start pool : RefreshPool ι) : Prop :=
  Course RefreshStores.exec (Unnamed backend requests) RefreshStores.Later start pool

section
variable {requests : ι → RefreshRequest} {stores : RefreshStores} {pool last : RefreshPool ι} {k : ι}
  {inserted : RefreshEntry} {ttl : UInt64}

omit [DecidableEq ι] in
theorem FreshTokens.idle (fresh : FreshTokens backend stores requests)
    (insertion : requests k = .insert token inserted ttl) {j : ι} (other : j ≠ k) :
    Idle backend token ((refreshPool backend stores requests).thread j) := by
  refine program_idle (requests j) ?_
  intro entry ttl' same
  exact other (fresh.distinct j k token entry inserted ttl' ttl same insertion)

section
variable (course : RefreshCourse backend requests (refreshPool backend stores requests) pool)
  (fresh : FreshTokens backend stores requests) (insertion : requests k = .insert token inserted ttl)
include course fresh insertion

theorem RefreshCourse.usedOnce : UsedOnce backend token pool := by
  refine Course.keeps (I := UsedOnce backend token) course ?_ ?_ ?_
  · have untaken : ∀ i, ¬ Consumed backend token ((refreshPool backend stores requests).thread i).notes := by
      rintro i ⟨note, member, _⟩
      cases member
    refine ⟨fun j => program_once (requests j), ?_, ?_, fun _ => untaken, fun i j consumed =>
      (untaken i consumed).elim⟩
    · intro i j
      by_cases first : i = k
      · by_cases second : j = k
        · exact .inr (.inr (first.trans second.symm))
        · exact .inr (.inl (fresh.idle insertion second))
      · exact .inl (fresh.idle insertion first)
    · intro j
      by_cases same : j = k
      · exact .inr ⟨fresh.absent k token inserted ttl insertion, untaken⟩
      · exact .inl (fresh.idle insertion same)
  · intro pool i c next used _ shape
    exact used.call shape
  · intro pool t used later
    refine ⟨used.once, used.writer, ?_, ?_, used.single⟩
    · exact fun j => (used.unwritten j).imp_right (fun unwritten => ⟨later.gone unwritten.1, unwritten.2⟩)
    · exact fun still => used.present (fun none => still (later.gone none))

theorem RefreshCourse.holds : pool.state.Holds backend token inserted.Matches := by
  have calls : ∀ j, ((refreshPool backend stores requests).thread j).program.Uses
      (fun c => ∀ entry, c.Puts backend token entry → inserted.Matches entry) := by
    intro j
    by_cases same : j = k
    · subst same
      simp only [refreshPool, insertion, RefreshRequest.program]
      refine Uses.bind (insertToken_storesOnly.mono ?_) (fun _ => trivial)
      exact fun c only entry puts => (only token entry puts).2
    · refine Uses.mono (fresh.idle insertion same) ?_
      exact fun c quiet entry puts => (quiet ⟨entry, puts⟩).elim
  refine course.keeps_state calls ?_ (fun c s fine holds => holds.exec fine)
    (fun s t holds later => holds.later later)
  intro payload present
  have absent : stores.found backend token = none := fresh.absent k token inserted ttl insertion
  rw [show (refreshPool backend stores requests).state = stores from rfl, absent] at present
  cases present

end

theorem RefreshCourse.now (course : RefreshCourse backend requests pool last) : pool.state.now ≤ last.state.now := by
  have calls : ∀ j, (pool.thread j).program.Uses (fun _ => True) := fun j => .of_all (fun _ => trivial)
  refine course.keeps_state (I := fun s => pool.state.now ≤ s.now) calls (le_refl _) ?_ ?_
  · intro c s _ later
    rw [RefreshStores.exec_now]
    exact later
  · rintro s _ later ⟨now, after, rfl⟩
    exact le_trans later after

theorem RefreshCourse.closed (course : RefreshCourse backend requests (refreshPool backend stores requests) pool)
    (fresh : FreshTokens backend stores requests) (insertion : requests k = .insert token inserted ttl) {r : ι}
    (revocation : requests r = .revoke token inserted.tokenKind)
    (closed : ∃ note ∈ (pool.thread r).notes, Closes backend token inserted.tokenKind note) :
    pool.state.found backend token = none := by
  induction course with
  | start =>
    obtain ⟨note, member, _⟩ := closed
    cases member
  | @step pool i before unnamed ih =>
    cases shape : (pool.thread i).program with
    | done a =>
      simp only [Pool.step, shape] at closed ⊢
      exact ih closed
    | fail e => exact e.elim
    | call c next =>
      rw [step_call shape] at closed ⊢
      have records : (r = i ∧ Closes backend token inserted.tokenKind ⟨c, (RefreshStores.exec c pool.state).1⟩) ∨
          ∃ note ∈ (pool.thread r).notes, Closes backend token inserted.tokenKind note := by
        obtain ⟨note, member, closes⟩ := closed
        by_cases same : r = i
        · subst same
          simp only [update_self] at member
          rcases List.mem_cons.mp member with rfl | earlier
          · exact .inl ⟨rfl, closes⟩
          · exact .inr ⟨note, earlier, closes⟩
        · simp only [update_of_ne same] at member
          exact .inr ⟨note, member, closes⟩
      rcases records with ⟨rfl, closes⟩ | earlier
      · have kinds : pool.state.Holds backend token (fun entry => entry.tokenKind = inserted.tokenKind) :=
          (RefreshCourse.holds before fresh insertion).mono (fun entry same => by rw [same])
        exact RefreshStores.exec_closes closes kinds
      · have quiet : ¬ c.Writes backend token := by
          intro writes
          obtain ⟨note, member, _⟩ := earlier
          rw [unnamed c next shape token writes r _ revocation] at member
          cases member
        exact RefreshStores.exec_gone (ih earlier) quiet
  | drift _ later ih => exact later.gone (ih closed)

end

end

section
variable {backend : RefreshBackend} {token kind : String} {inserted : RefreshEntry} {since : Int}
  {notes : List RefreshNote} {s : RefreshStores} {I : RefreshStores → Prop}

theorem refreshStep_meets {α : Type} {c : RefreshCall} {f : c.Answer → RefreshM α}
    {post : Except Empty α → List RefreshNote → RefreshStores → Prop}
    (each : ∀ t (answer : c.Answer), I t → (RefreshStores.exec c t).1 = answer →
      (f answer).Meets (watching RefreshStores.exec I) post (⟨c, answer⟩ :: notes) (RefreshStores.exec c t).2) :
    (refreshStep c >>= f).Meets (watching RefreshStores.exec I) post notes s :=
  fun t holds _ _ => ⟨trivial, trivial, each t _ holds rfl⟩

theorem timestamp_le {a b : Int} (le : a ≤ b) : timestamp a ≤ timestamp b := Int.ediv_le_ediv (by decide) le

def Rightful (backend : RefreshBackend) (token kind : String) (inserted : RefreshEntry) (since : Int)
    (entry : RefreshEntry) (notes : List RefreshNote) : Prop :=
  kind = inserted.tokenKind ∧ inserted.Matches entry ∧ timestamp since < entry.expiresAt ∧
    Consumed backend token notes

abbrev whileHeld (backend : RefreshBackend) (token : String) (inserted : RefreshEntry) (since : Int)
    (s : RefreshStores) : Prop :=
  s.Holds backend token inserted.Matches ∧ since ≤ s.now

theorem takeFromMap_meets :
    (takeFromMap token kind).Meets (watching RefreshStores.exec (whileHeld .inMemory token inserted since))
      (fun outcome notes _ => ∀ entry, outcome = .ok (.ok entry) →
        Rightful .inMemory token kind inserted since entry notes)
      notes s := by
  have held {t : RefreshStores} {entry : RefreshEntry} (holds : whileHeld .inMemory token inserted since t)
      (present : t.tokens token = some entry) : inserted.Matches entry := by
    obtain ⟨_, same, matched⟩ := holds.1 (.entry entry) (by simp [RefreshStores.found, present])
    cases same
    exact matched
  unfold takeFromMap
  refine refreshStep_meets (fun t₀ now started clock => refreshStep_meets (fun t₁ read holds₁ present₁ => ?_))
  have sooner : timestamp since ≤ timestamp now := clock ▸ timestamp_le started.2
  cases read with
  | none => exact fun _ impossible => by cases impossible
  | some first =>
    dsimp only
    by_cases expired : first.expiresAt ≤ timestamp now
    · rw [if_pos expired]
      exact refreshStep_meets (fun _ _ _ _ => fun _ impossible => by cases impossible)
    rw [if_neg expired]
    by_cases other : first.tokenKind ≠ kind
    · rw [if_pos other]
      exact fun _ impossible => by cases impossible
    rw [if_neg other]
    have named : kind = inserted.tokenKind := by
      rw [← not_ne_iff.mp other, held holds₁ present₁]
    refine refreshStep_meets (fun t₂ taken holds₂ present₂ => ?_)
    cases taken with
    | none => exact fun _ impossible => by cases impossible
    | some second =>
      intro entry returned
      have value : (if second.expiresAt > timestamp now then .ok second else .error .missing :
        Except RefreshTokenTakeResult RefreshEntry) = .ok entry := Except.ok.inj returned
      split at value
      · rename_i fresh
        cases value
        exact ⟨named, held holds₂ present₂, lt_of_le_of_lt sooner fresh, _, List.mem_cons_self, rfl, rfl⟩
      · cases value

theorem storeGet_meets (heldKind : String) :
    (RedisStore.get token).Meets (watching RefreshStores.exec (whileHeld .redis token inserted since))
      (fun outcome notes _ => ∀ answer, outcome = .ok answer →
        (∀ entry, answer = .ok (some entry) → inserted.Matches entry) ∧
        ((∃ entry, answer = .ok (some entry)) ∨ ∃ note ∈ notes, Closes .redis token heldKind note)) notes s := by
  refine refreshStep_meets (fun t answer holds present => ?_)
  match answer with
  | .error e =>
    rintro _ ⟨⟩
    exact ⟨fun _ impossible => (by cases impossible), .inr ⟨_, List.mem_cons_self, rfl, rfl⟩⟩
  | .ok none =>
    rintro _ ⟨⟩
    exact ⟨fun _ impossible => (by cases impossible), .inr ⟨_, List.mem_cons_self, rfl, rfl⟩⟩
  | .ok (some payload) =>
    have live : t.live token = some payload := by
      simp only [RefreshStores.exec] at present
      split at present
      · cases present
      · exact Except.ok.inj present
    obtain ⟨entry, rfl, matched⟩ := holds.1 payload live
    rintro _ ⟨⟩
    refine ⟨?_, .inl ⟨entry, rfl⟩⟩
    rintro other ⟨⟩
    exact matched

theorem storeTake_meets :
    (RedisStore.take token).Meets (watching RefreshStores.exec (whileHeld .redis token inserted since))
      (fun outcome notes _ => ∀ entry, outcome = .ok (.ok (some entry)) →
        inserted.Matches entry ∧ Consumed .redis token notes) notes s := by
  refine refreshStep_meets (fun t answer holds present => ?_)
  match answer with
  | .error e => exact fun _ impossible => by cases impossible
  | .ok none => exact fun _ impossible => by cases impossible
  | .ok (some payload) =>
    have live : t.live token = some payload := by
      simp only [RefreshStores.exec] at present
      split at present
      · cases present
      · exact Except.ok.inj present
    obtain ⟨entry, rfl, matched⟩ := holds.1 payload live
    refine refreshStep_meets (fun t removed _ _ => ?_)
    match removed with
    | .error e => exact fun _ impossible => by cases impossible
    | .ok () =>
      rintro other ⟨⟩
      exact ⟨matched, _, List.mem_cons_of_mem _ List.mem_cons_self, rfl, rfl⟩

theorem takeFromRedis_meets :
    (takeFromRedis token kind).Meets (watching RefreshStores.exec (whileHeld .redis token inserted since))
      (fun outcome notes _ => ∀ entry, outcome = .ok (.ok entry) →
        Rightful .redis token kind inserted since entry notes)
      notes s := by
  unfold takeFromRedis
  refine (storeGet_meets kind).seq (fun e => e.elim) (fun read notes s reads => ?_)
  match read with
  | .error e => exact fun _ impossible => by cases impossible
  | .ok none => exact fun _ impossible => by cases impossible
  | .ok (some first) =>
    have matched := (reads _ rfl).1 first rfl
    refine refreshStep_meets (fun t₁ now _ _ => ?_)
    by_cases expired : first.expiresAt ≤ timestamp now
    · rw [if_pos expired]
      refine (watching_true _ _ (RedisStore.delete token) _ _).seq (fun e => e.elim) ?_
      exact fun _ _ _ _ _ impossible => by cases impossible
    rw [if_neg expired]
    by_cases other : first.tokenKind ≠ kind
    · rw [if_pos other]
      exact fun _ impossible => by cases impossible
    rw [if_neg other]
    have named : kind = inserted.tokenKind := by
      rw [← not_ne_iff.mp other, matched]
    refine storeTake_meets.seq (fun e => e.elim) (fun taken notes s takes => ?_)
    match taken with
    | .error e => exact fun _ impossible => by cases impossible
    | .ok none => exact fun _ impossible => by cases impossible
    | .ok (some second) =>
      obtain ⟨same, note, member, consumes⟩ := takes second rfl
      refine refreshStep_meets (fun t₂ later holds clock => ?_)
      intro entry returned
      have sooner : timestamp since ≤ timestamp later := clock ▸ timestamp_le holds.2
      have value : (if second.expiresAt > timestamp later then .ok second else .error .missing :
        Except RefreshTokenTakeResult RefreshEntry) = .ok entry := Except.ok.inj returned
      split at value
      · rename_i fresh
        cases value
        exact ⟨named, same, lt_of_le_of_lt sooner fresh, note, List.mem_cons_of_mem _ member, consumes⟩
      · cases value

theorem take_meets : (RefreshRequest.program backend (.take token kind)).Meets
      (watching RefreshStores.exec (whileHeld backend token inserted since))
      (fun outcome notes _ => ∀ entry, outcome = .ok (.taken (.ok entry)) →
        Rightful backend token kind inserted since entry notes) notes s := by
  have taking : (takeForKind backend token kind).Meets
      (watching RefreshStores.exec (whileHeld backend token inserted since))
      (fun outcome notes _ => ∀ entry, outcome = .ok (.ok entry) →
        Rightful backend token kind inserted since entry notes)
      notes s := by
    cases backend with
    | inMemory => exact takeFromMap_meets
    | redis => exact takeFromRedis_meets
  refine taking.seq (fun e => e.elim) (fun result notes s takes => ?_)
  rintro entry ⟨⟩
  exact takes entry rfl

theorem storeDelete_meets (heldKind : String) : (RedisStore.delete token).Meets (watching RefreshStores.exec I)
      (fun _ notes _ => ∃ note ∈ notes, Closes .redis token heldKind note) notes s := by
  refine refreshStep_meets (fun t deleted _ _ => ?_)
  have closes : Closes .redis token heldKind ⟨.del token, deleted⟩ := ⟨rfl, rfl⟩
  match deleted with
  | .error e => exact ⟨_, List.mem_cons_self, closes⟩
  | .ok count =>
    refine refreshStep_meets (fun t removed _ _ => ?_)
    match removed with
    | .error e => exact ⟨_, List.mem_cons_of_mem _ List.mem_cons_self, closes⟩
    | .ok () => exact ⟨_, List.mem_cons_of_mem _ List.mem_cons_self, closes⟩

theorem revoke_meets : (RefreshRequest.program backend (.revoke token inserted.tokenKind)).Meets
      (watching RefreshStores.exec (whileHeld backend token inserted since))
      (fun outcome notes _ => outcome = .ok .revoked → ∃ note ∈ notes, Closes backend token inserted.tokenKind note)
      notes s := by
  cases backend with
  | inMemory => exact refreshStep_meets (fun _ _ _ _ _ => ⟨_, List.mem_cons_self, rfl, rfl, rfl⟩)
  | redis =>
    have revoking : (revokeForKind .redis token inserted.tokenKind).Meets
        (watching RefreshStores.exec (whileHeld .redis token inserted since))
        (fun _ notes _ => ∃ note ∈ notes, Closes .redis token inserted.tokenKind note) notes s := by
      unfold revokeForKind
      refine (storeGet_meets inserted.tokenKind).seq (fun e => e.elim) (fun read notes s reads => ?_)
      have closing := fun none => (reads _ rfl).2.resolve_left none
      match read with
      | .error e => exact closing (by simp)
      | .ok none => exact closing (by simp)
      | .ok (some entry) =>
        have same : entry.tokenKind = inserted.tokenKind := by rw [(reads _ rfl).1 entry rfl]
        dsimp only
        rw [if_pos same]
        exact (storeDelete_meets inserted.tokenKind).seq (fun e => e.elim) (fun _ _ _ closed => closed)
    exact revoking.seq (fun e => e.elim) (fun _ _ _ closed _ => closed)

theorem take_refused : (RefreshRequest.program backend (.take token kind)).Meets
      (watching RefreshStores.exec (fun s => s.found backend token = none))
      (fun outcome _ _ => ∀ entry, outcome ≠ .ok (.taken (.ok entry))) notes s := by
  have missing : (takeForKind backend token kind).Meets
      (watching RefreshStores.exec (fun s => s.found backend token = none))
      (fun outcome _ _ => ∀ entry, outcome ≠ .ok (.ok entry)) notes s := by
    cases backend with
    | inMemory =>
      refine refreshStep_meets (fun _ now _ _ => refreshStep_meets (fun t read gone present => ?_))
      have nothing : t.tokens token = none := by simpa [RefreshStores.found] using gone
      have none : read = none := present.symm.trans nothing
      subst none
      exact fun _ impossible => by cases impossible
    | redis =>
      have nothing : (RedisStore.get token).Meets
          (watching RefreshStores.exec (fun s => s.found .redis token = none))
          (fun outcome _ _ => ∀ entry, outcome ≠ .ok (.ok (some entry))) notes s := by
        refine refreshStep_meets (fun t answer gone present => ?_)
        match answer with
        | .error e => exact fun _ impossible => by cases impossible
        | .ok none => exact fun _ impossible => by cases impossible
        | .ok (some payload) =>
          simp only [RefreshStores.exec] at present
          split at present
          · cases present
          · have live : t.live token = some payload := Except.ok.inj present
            rw [show t.live token = none from gone] at live
            cases live
      refine nothing.seq (fun e => e.elim) (fun read notes s unread => ?_)
      match read with
      | .error e => exact fun _ impossible => by cases impossible
      | .ok none => exact fun _ impossible => by cases impossible
      | .ok (some entry) => exact (unread entry rfl).elim
  refine missing.seq (fun e => e.elim) (fun result notes s unsuccessful => ?_)
  rintro entry ⟨⟩
  exact unsuccessful entry rfl

end

section
variable {ι : Type} [DecidableEq ι]

/-- What holds of the calls with an inserted token at the end of a run: one call takes it, which named its kind
and started before it expires, and no call that started after a revocation of its kind has returned. -/
structure SingleUse (backend : RefreshBackend) (requests : ι → RefreshRequest) (start pool : RefreshPool ι)
    (token : String) (inserted : RefreshEntry) : Prop where
  once : ∀ i j kind kind' entry entry', requests i = .take token kind → requests j = .take token kind' →
    (pool.thread i).program = .done (.taken (.ok entry)) → (pool.thread j).program = .done (.taken (.ok entry')) →
      i = j
  rightful : ∀ earlier i kind entry, RefreshCourse backend requests start earlier →
    RefreshCourse backend requests earlier pool →
    requests i = .take token kind → (earlier.thread i).notes = [] →
    (pool.thread i).program = .done (.taken (.ok entry)) →
    kind = inserted.tokenKind ∧ inserted.Matches entry ∧ timestamp earlier.state.now < entry.expiresAt
  revoked : ∀ earlier r i kind entry, RefreshCourse backend requests start earlier →
    RefreshCourse backend requests earlier pool →
    requests r = .revoke token inserted.tokenKind → (earlier.thread r).program = .done .revoked →
    requests i = .take token kind → (earlier.thread i).notes = [] →
    (pool.thread i).program ≠ .done (.taken (.ok entry))

theorem refresh_tokens_single_use (backend : RefreshBackend) (stores : RefreshStores)
    (requests : ι → RefreshRequest) (fresh : FreshTokens backend stores requests) (pool : RefreshPool ι)
    (course : RefreshCourse backend requests (refreshPool backend stores requests) pool) (k : ι)
    (token : String) (inserted : RefreshEntry) (ttl : UInt64)
    (insertion : requests k = .insert token inserted ttl) :
    SingleUse backend requests (refreshPool backend stores requests) pool token inserted := by
  have rightful (earlier : RefreshPool ι) (i : ι) (kind : String) (entry : RefreshEntry)
      (before : RefreshCourse backend requests (refreshPool backend stores requests) earlier)
      (after : RefreshCourse backend requests earlier pool) (taking : requests i = .take token kind)
      (unstarted : (earlier.thread i).notes = []) (taken : (pool.thread i).program = .done (.taken (.ok entry))) :
      Rightful backend token kind inserted earlier.state.now entry (pool.thread i).notes := by
    have held : ∀ reached, RefreshCourse backend requests earlier reached →
        whileHeld backend token inserted earlier.state.now reached.state :=
      fun reached later => ⟨RefreshCourse.holds (before.trans later) fresh insertion, RefreshCourse.now later⟩
    have meets : (earlier.thread i).program.Meets
        (watching RefreshStores.exec (whileHeld backend token inserted earlier.state.now))
        (fun outcome notes _ => ∀ entry, outcome = .ok (.taken (.ok entry)) →
          Rightful backend token kind inserted earlier.state.now entry notes) (earlier.thread i).notes stores := by
      rw [before.unstarted unstarted]
      simp only [refreshPool, taking]
      exact take_meets
    exact after.returned held meets taken entry rfl
  refine ⟨?_, ?_, ?_⟩
  · intro i j kind kind' entry entry' first second taken taken'
    have used := RefreshCourse.usedOnce course fresh insertion
    obtain ⟨_, _, _, consumed⟩ := rightful _ i kind entry .start course first rfl taken
    obtain ⟨_, _, _, consumed'⟩ := rightful _ j kind' entry' .start course second rfl taken'
    exact used.single i j consumed consumed'
  · intro earlier i kind entry before after taking unstarted taken
    obtain ⟨named, matched, sooner, _⟩ := rightful earlier i kind entry before after taking unstarted taken
    exact ⟨named, matched, sooner⟩
  · intro earlier r i kind entry before after revocation returned taking unstarted taken
    have held : ∀ reached, RefreshCourse backend requests (refreshPool backend stores requests) reached →
        whileHeld backend token inserted stores.now reached.state :=
      fun reached later => ⟨RefreshCourse.holds later fresh insertion, RefreshCourse.now later⟩
    have closing : ((refreshPool backend stores requests).thread r).program.Meets
        (watching RefreshStores.exec (whileHeld backend token inserted stores.now))
        (fun outcome notes _ => outcome = .ok .revoked → ∃ note ∈ notes, Closes backend token inserted.tokenKind note)
        [] stores := by
      simp only [refreshPool, revocation]
      exact revoke_meets
    have closed : ∃ note ∈ (earlier.thread r).notes, Closes backend token inserted.tokenKind note :=
      before.returned held closing returned rfl
    have gone : ∀ reached, RefreshCourse backend requests earlier reached →
        reached.state.found backend token = none := by
      intro reached later
      obtain ⟨note, member, closes⟩ := closed
      refine RefreshCourse.closed (before.trans later) fresh insertion revocation ⟨note, ?_, closes⟩
      exact (later.notes r).subset member
    have refuses : (earlier.thread i).program.Meets
        (watching RefreshStores.exec (fun s => s.found backend token = none))
        (fun outcome _ _ => ∀ entry, outcome ≠ .ok (.taken (.ok entry))) (earlier.thread i).notes stores := by
      rw [before.unstarted unstarted]
      simp only [refreshPool, taking]
      exact take_refused
    exact after.returned gone refuses taken entry rfl

end

theorem three_callers : NeZero 3 := ⟨by decide⟩

attribute [local instance] three_callers

def loginEntry : RefreshEntry := ⟨"t1", "ada", 7, none, 0, "plugin_access"⟩

def loginRequests : Fin 3 → RefreshRequest
  | 0 => .insert "r1" loginEntry 60
  | 1 => .take "r1" "plugin_access"
  | 2 => .take "r1" "plugin_access"

def loginPool (backend : RefreshBackend) : RefreshPool (Fin 3) :=
  [0, 0, 0, 1, 2, 1, 2, 1, 2, 1, 1, 2, 2].foldl (Pool.step RefreshStores.exec) (refreshPool backend {} loginRequests)

theorem loginRequests_fresh (backend : RefreshBackend) : FreshTokens backend {} loginRequests := by
  have only : ∀ i token entry ttl, loginRequests i = .insert token entry ttl → i = 0 := by
    intro i token entry ttl same
    match i with
    | 0 => rfl
    | 1 => cases same
    | 2 => cases same
  refine ⟨?_, ?_⟩
  · intro i j token entry entry' ttl ttl' first second
    rw [only i token entry ttl first, only j token entry' ttl' second]
  · intro i token entry ttl _
    cases backend <;> rfl

theorem loginPool_course (backend : RefreshBackend) :
    RefreshCourse backend loginRequests (refreshPool backend {} loginRequests) (loginPool backend) := by
  have unnamed : ∀ pool i, Unnamed backend loginRequests pool i := by
    intro pool i c next _ token _ r kind revocation
    match r with
    | 0 => cases revocation
    | 1 => cases revocation
    | 2 => cases revocation
  exact Course.start.schedule unnamed _

theorem login_token_used_once :
    (∀ backend, ((loginPool backend).thread 1).program = .done (.taken (.ok { loginEntry with expiresAt := 60 })) ∧
      ((loginPool backend).thread 2).program = .done (.taken (.error .missing))) ∧
    ∀ backend, SingleUse backend loginRequests (refreshPool backend {} loginRequests)
      (loginPool backend) "r1" loginEntry := by
  refine ⟨?_, fun backend => refresh_tokens_single_use backend {} loginRequests (loginRequests_fresh backend) _
    (loginPool_course backend) 0 "r1" loginEntry 60 rfl⟩
  intro backend
  cases backend <;> exact ⟨rfl, rfl⟩

end Aeterna
