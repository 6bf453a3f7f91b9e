import Aeterna.Lib.Registers
import Aeterna.Sync.Convergence
import Aeterna.Sync.Locality
import Aeterna.Sync.Moves

namespace Aeterna.Sync
open Lib

/-- The operations that write the whole state back. -/
inductive Rewrite where
  | syncIncremental
  | syncFederation (upstreams : List String)
  | resolveConflicts (conflicts : List SyncConflict)
  | resolveFederationConflict (upstreamId : String)
  | pruneFailedItems (daysOld : Int)

/-- An operation with everything that answers it; its load would be call number `first`. -/
structure Call where
  env : Env
  first : Nat := 0
  rewrite : Rewrite

namespace Call
variable (call : Call)

def operation : SyncM Unit :=
  match call.rewrite with
  | .syncIncremental => Sync.syncIncremental call.env
  | .syncFederation upstreams => Sync.syncFederation call.env upstreams
  | .resolveConflicts conflicts => Sync.resolveConflicts call.env conflicts
  | .resolveFederationConflict upstreamId => Sync.resolveFederationConflict call.env upstreamId
  | .pruneFailedItems daysOld => Sync.pruneFailedItems call.env daysOld

def loaded : SyncM Unit :=
  match call.rewrite with
  | .syncIncremental => syncIncrementalLoaded call.env
  | .syncFederation upstreams => do
    Eff.forEach (syncUpstreamOnce call.env) upstreams
    persistWorking call.env
  | .resolveConflicts conflicts => do
    resolveLoaded call.env conflicts
    persistWorking call.env
  | .resolveFederationConflict upstreamId => do
    updateWorking (·.dropUpstream upstreamId)
    persistWorking call.env
  | .pruneFailedItems daysOld => do
    let now ← currentTime call.env
    let w ← Eff.get
    let kept := w.working.recentFailures now daysOld
    if w.working.failedItems.length - kept.length > 0 then
      updateWorking (fun s => { s with failedItems := kept })
      persistWorking call.env
    else pure ()

def startFrom (r : Registers SyncState) : World where
  states := r.cache
  persisted := r.disk
  tick := if r.cache.isSome then call.first + 1 else call.first

def run (r : Registers SyncState) : Registers SyncState :=
  ⟨(call.operation (call.startFrom r)).2.states, (call.operation (call.startFrom r)).2.persisted⟩

/-- What becomes of a copy: the operation is run on it with nothing saved or published, and whatever
it has then saved and published is what it would put in the registers. -/
def client : Client SyncState where
  loads := (call.env.fault call.first).isNone
  work s :=
    let done := (call.loaded { working := s, tick := call.first + 1 }).2
    match done.states, done.persisted with
    | some t, _ => some (t, .saved)
    | none, some t => some (t, .failed true)
    | none, none => none

end Call

theorem operation_loaded (call : Call) : call.operation = beginOperation call.env >>= fun _ => call.loaded := by
  unfold Call.operation Call.loaded
  cases call.rewrite <;> rfl

theorem loaded_local (call : Call) : LocalUntilSave call.loaded := by
  unfold Call.loaded
  cases call.rewrite with
  | syncIncremental => exact syncIncrementalLoaded_local call.env
  | syncFederation upstreams =>
    exact (forEach_local (syncUpstreamOnce_local call.env) _).bind_save (fun _ => persistWorking_local call.env)
  | resolveConflicts conflicts =>
    exact (forEach_local (resolveConflict_local call.env) _).bind_save (fun _ => persistWorking_local call.env)
  | resolveFederationConflict upstreamId =>
    exact (updateWorking_local _).bind_save (fun _ => persistWorking_local call.env)
  | pruneFailedItems daysOld =>
    refine (currentTime_local call.env).bind_save (fun now => get_localUntilSave (fun a b same => ?_) (fun w => ?_))
    · simp only [same]
    · simp only
      split
      · exact (updateWorking_local _).bind_save (fun _ => persistWorking_local call.env)
      · exact (pure_local ()).ended

theorem loaded_act (call : Call) {s : SyncState} {w : World} (working : w.working = s)
    (tick : w.tick = call.first + 1) :
    (⟨(call.loaded w).2.states, (call.loaded w).2.persisted⟩ : Registers SyncState) =
      call.client.act s ⟨w.states, w.persisted⟩ := by
  obtain ⟨-, states, persisted, saved⟩ := loaded_local call w.states w.persisted
    { working := s, tick := call.first + 1 } w ⟨working.symm, tick.symm, rfl, rfl, rfl, rfl⟩
  simp only [Client.act, Call.client]
  generalize (call.loaded { working := s, tick := call.first + 1 }).2 = done at states persisted saved
  rw [states, persisted]
  cases published : done.states with
  | some t => rw [saved t published]; rfl
  | none =>
    cases done.persisted with
    | some t => rfl
    | none => rfl

theorem alone_run (call : Call) (r : Registers SyncState) : call.client.alone {} r = call.run r := by
  unfold Call.run
  rw [operation_loaded]
  rcases getOrLoadState_cases call.env (call.startFrom r) with ⟨s, hit, load⟩ | ⟨miss, fault, fails, load⟩ |
    ⟨miss, answers, load⟩
  · have hit : r.cache = some s := hit
    have begun : beginOperation call.env (call.startFrom r) = (.ok (), { call.startFrom r with working := s }) :=
      Eff.bind_of_ok load
    have tick : (call.startFrom r).tick = call.first + 1 := by simp [Call.startFrom, hit]
    rw [Eff.bind_of_ok begun, alone_hit hit]
    exact (loaded_act call (w := { call.startFrom r with working := s }) rfl tick).symm
  · have miss : r.cache = none := miss
    have begun : beginOperation call.env (call.startFrom r) = (.error _, (call.startFrom r).advance) :=
      Eff.bind_of_error load
    have tick : (call.startFrom r).tick = call.first := by simp [Call.startFrom, miss]
    rw [tick] at fails
    rw [Eff.bind_of_error begun, alone_unanswered miss (by simp [Call.client, fails])]
    rfl
  · have miss : r.cache = none := miss
    have tick : (call.startFrom r).tick = call.first := by simp [Call.startFrom, miss]
    rw [tick] at answers
    let loaded : World := { (call.startFrom r).advance with
      states := some (r.disk.getD {}), working := r.disk.getD {} }
    have begun : beginOperation call.env (call.startFrom r) = (.ok (), loaded) := Eff.bind_of_ok load
    rw [Eff.bind_of_ok begun, alone_miss miss (by simp [Call.client, answers])]
    exact (loaded_act call (w := loaded) rfl (congrArg (· + 1) tick)).symm

/-- Two operations that never install, save or publish a copy after the other has saved or published
one since they looked leave the state of one of the two serial orders, in memory and on disk. -/
theorem fresh_calls_serial (calls : Bool → Call) {r : Registers SyncState} {d : Duo SyncState}
    (run : Duo.Run {} (fun t => (calls t).client) Duo.Fresh r d) (finished : d.Finished) :
    ∃ t, d.registers = (calls (!t)).run ((calls t).run r) := by
  obtain ⟨t, serial⟩ := fresh_run_serial run finished
  exact ⟨t, by rw [serial, alone_run, alone_run]⟩

def settleUpstream (upstreamId : String) : Call where
  env := sampleEnv "plain" .accepted
  rewrite := .resolveFederationConflict upstreamId

def twoConflicts : Registers SyncState :=
  let s : SyncState := { federationConflicts := [⟨"north", "upstream moved", 0⟩, ⟨"south", "upstream moved", 0⟩] }
  ⟨some s, some s⟩

def settlers (t : Bool) : Client SyncState := (settleUpstream (if t then "north" else "south")).client

def Registers.conflicting (r : Registers SyncState) : List String × List String :=
  ((r.cache.getD {}).federationConflicts.map (·.upstreamId), (r.disk.getD {}).federationConflicts.map (·.upstreamId))

theorem fresh_calls_settle_both : ∃ d : Duo SyncState,
    Duo.Run {} settlers Duo.Fresh twoConflicts d ∧ Registers.conflicting d.registers = ([], []) ∧
      ∃ t, d.registers = (settleUpstream (if !t then "north" else "south")).run
        ((settleUpstream (if t then "north" else "south")).run twoConflicts) := by
  have run : Duo.Run {} settlers Duo.Fresh twoConflicts
      ([true, true, true, true, false, false, false, false].foldl (Duo.step {} settlers)
        (.initial twoConflicts)) := by
    repeat' refine Duo.Run.step _ ?_ (by intro writes; rfl)
    exact .start
  refine ⟨_, run, by decide +kernel, ?_⟩
  exact fresh_calls_serial (fun t => settleUpstream (if t then "north" else "south")) run
    (fun t => by cases t <;> rfl)

theorem stale_calls_lose_update : ∃ d : Duo SyncState,
    Duo.Run {} settlers (fun _ _ => True) twoConflicts d ∧ d.Finished ∧
      Registers.conflicting d.registers = (["north"], ["north"]) ∧
      ∀ t, d.registers ≠ (settleUpstream (if !t then "north" else "south")).run
        ((settleUpstream (if t then "north" else "south")).run twoConflicts) := by
  have run : Duo.Run {} settlers (fun _ _ => True) twoConflicts
      ([true, false, true, false, true, true, false, false].foldl (Duo.step {} settlers)
        (.initial twoConflicts)) := by
    repeat' refine Duo.Run.step _ ?_ trivial
    exact .start
  refine ⟨_, run, fun t => by cases t <;> rfl, by decide +kernel, ?_⟩
  intro t same
  have conflicting := congrArg Registers.conflicting same
  revert conflicting
  cases t <;> decide +kernel

end Aeterna.Sync
