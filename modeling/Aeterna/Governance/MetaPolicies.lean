import Aeterna.Lib.Runs
import Mathlib.Data.List.Sort

namespace Aeterna.Governance
open Lib (Along)
open List Option

inductive GovernanceLayer where
  | tenant | org | team | project
  deriving DecidableEq

/-- A row of `meta_governance_policies`. The body is its minimal role, its permissions, and its two configurations. -/
structure MetaGovernancePolicy (β : Type) where
  id : String
  layer : GovernanceLayer
  scopeId : Option String
  body : β
  active : Bool
  updatedAt : Int

inductive UniqueViolation where
  | primaryKey | layerDefault

variable {β : Type}

namespace MetaGovernancePolicy

def key (policy : MetaGovernancePolicy β) : GovernanceLayer × Option String := (policy.layer, policy.scopeId)

def terms (policy : MetaGovernancePolicy β) : β × Bool := (policy.body, policy.active)

end MetaGovernancePolicy

def withKey (key : GovernanceLayer × Option String) (rows : List (MetaGovernancePolicy β)) :
    List (MetaGovernancePolicy β) := rows.filter (fun row => row.key = key)

/-- `ORDER BY updated_at DESC LIMIT 1`. -/
def latest (rows : List (MetaGovernancePolicy β)) : Option (MetaGovernancePolicy β) :=
  (rows.insertionSort (fun a b => a.updatedAt ≥ b.updatedAt)).head?

def getEffectivePolicy (layer : GovernanceLayer) (scopeId : Option String) (rows : List (MetaGovernancePolicy β)) :
    Option (MetaGovernancePolicy β) :=
  (scopeId.bind (fun sid => latest ((withKey (layer, some sid) rows).filter (·.active)))).or
    (latest ((withKey (layer, none) rows).filter (·.active)))

def rewriteRow (now : Int) (policy row : MetaGovernancePolicy β) : MetaGovernancePolicy β :=
  if row.key = policy.key then { row with body := policy.body, active := policy.active, updatedAt := now } else row

def upsertPolicy (now : Int) (policy : MetaGovernancePolicy β) (rows : List (MetaGovernancePolicy β)) :
    Except UniqueViolation (String × List (MetaGovernancePolicy β)) :=
  match if policy.scopeId.isSome then withKey policy.key rows else [] with
  | row :: _ => .ok (row.id, rows.map (rewriteRow now policy))
  | [] =>
    if rows.any (fun row => row.id = policy.id) then .error .primaryKey
    else if policy.scopeId = none ∧ policy.active ∧ ((withKey policy.key rows).any (·.active)) then
      .error .layerDefault
    else .ok (policy.id, rows ++ [{ policy with updatedAt := now }])

/-- The rows, and the policies that were stored so far. -/
structure MetaGovernance (β : Type) where
  rows : List (MetaGovernancePolicy β) := []
  stored : List (MetaGovernancePolicy β) := []

namespace MetaGovernance

def after (s : MetaGovernance β) (call : MetaGovernancePolicy β × Int) : MetaGovernance β :=
  match upsertPolicy call.2 call.1 s.rows with
  | .ok (_, rows) => ⟨rows, s.stored ++ [call.1]⟩
  | .error _ => s

def step (s : MetaGovernance β) (call : MetaGovernancePolicy β × Int) : Option (MetaGovernance β) :=
  some (s.after call)

def lastStored (s : MetaGovernance β) (key : GovernanceLayer × Option String) : Option (MetaGovernancePolicy β) :=
  (withKey key s.stored).getLast?

def lastActive (s : MetaGovernance β) (key : GovernanceLayer × Option String) : Option (MetaGovernancePolicy β) :=
  (s.lastStored key).filter (·.active)

def LastWins (s : MetaGovernance β) : Prop :=
  ∀ layer scopeId, (getEffectivePolicy layer scopeId s.rows).map (·.terms) =
    ((scopeId.bind (fun sid => s.lastActive (layer, some sid))).or (s.lastActive (layer, none))).map (·.terms)

def StoredBefore (s : MetaGovernance β) (policy : MetaGovernancePolicy β) : Prop :=
  ∃ old ∈ s.stored, old.id = policy.id ∧ old.key = policy.key

/-- A policy that was stored before is taken again, and the policy stored last wins. -/
structure Holds (s : MetaGovernance β) (call : MetaGovernancePolicy β × Int) : Prop where
  taken : s.StoredBefore call.1 → ∃ id rows, upsertPolicy call.2 call.1 s.rows = .ok (id, rows)
  wins : (s.after call).LastWins

/-- A default is stored once, and an inactive one only where its layer has no active one. -/
def FreshDefault (s : MetaGovernance β) (call : MetaGovernancePolicy β × Int) : Prop :=
  call.1.scopeId = none → ¬ s.StoredBefore call.1 ∧
    (call.1.active = false → (∀ row ∈ s.rows, row.id ≠ call.1.id) →
      ∀ row ∈ s.rows, row.key = call.1.key → row.active = false)

structure Tracks (s : MetaGovernance β) : Prop where
  scopes : ∀ layer sid, (withKey (layer, some sid) s.rows).map (·.terms) =
    ((s.lastStored (layer, some sid)).map (·.terms)).toList
  defaults : ∀ layer, (withKey (layer, none) s.rows).map (fun row => (row.id, row.terms)) =
    (withKey (layer, none) s.stored).map (fun row => (row.id, row.terms))
  once : ∀ layer, ((withKey (layer, none) s.rows).filter (·.active)).length ≤ 1

theorem Tracks.start : Tracks ({} : MetaGovernance β) := ⟨fun _ _ => rfl, fun _ => rfl, fun _ => Nat.zero_le 1⟩

section
variable {s : MetaGovernance β} {policy row : MetaGovernancePolicy β} {rows : List (MetaGovernancePolicy β)}
  {key : GovernanceLayer × Option String} {now : Int}

theorem mem_withKey : row ∈ withKey key rows ↔ row ∈ rows ∧ row.key = key := by simp [withKey]

theorem withKey_append (rows : List (MetaGovernancePolicy β)) (policy : MetaGovernancePolicy β)
    (key : GovernanceLayer × Option String) :
    withKey key (rows ++ [policy]) = withKey key rows ++ if policy.key = key then [policy] else [] := by
  by_cases same : policy.key = key <;> simp [withKey, filter_append, same]

theorem latest_filter (few : (rows.filter (·.active)).length ≤ 1) :
    latest (rows.filter (·.active)) = (rows.filter (·.active)).head? := by
  cases split : rows.filter (·.active) with
  | nil => rfl
  | cons first rest =>
    rw [split] at few
    cases rest with
    | nil => rfl
    | cons second rest =>
      simp at few

theorem head_active (rows : List (MetaGovernancePolicy β)) :
    ((rows.filter (·.active)).head?).map (·.terms) = ((rows.map (·.terms)).filter (·.2)).head? := by
  rw [List.filter_map, head?_map]
  rfl

theorem Tracks.effective_scoped (tracks : s.Tracks) (layer : GovernanceLayer) (sid : String) :
    (latest ((withKey (layer, some sid) s.rows).filter (·.active))).map (·.terms) =
      (s.lastActive (layer, some sid)).map (·.terms) := by
  have terms := tracks.scopes layer sid
  have few : ((withKey (layer, some sid) s.rows).filter (·.active)).length ≤ 1 := by
    have length := congrArg List.length terms
    rw [length_map] at length
    apply (length_filter_le _ _).trans
    rw [length]
    cases (s.lastStored (layer, some sid)).map (·.terms) <;> simp
  rw [latest_filter few, head_active, terms]
  unfold lastActive
  cases s.lastStored (layer, some sid) with
  | none => rfl
  | some last => cases active : last.active <;> simp [Option.filter, MetaGovernancePolicy.terms, active]

theorem Tracks.effective_default (tracks : s.Tracks) (layer : GovernanceLayer) :
    (latest ((withKey (layer, none) s.rows).filter (·.active))).map (·.terms) =
      (((withKey (layer, none) s.stored).filter (·.active)).head?).map (·.terms) := by
  have terms : (withKey (layer, none) s.rows).map (·.terms) = (withKey (layer, none) s.stored).map (·.terms) := by
    have both := congrArg (map Prod.snd) (tracks.defaults layer)
    rw [List.map_map, List.map_map] at both
    exact both
  rw [latest_filter (tracks.once layer), head_active, head_active, terms]

theorem Tracks.lastWins_iff (tracks : s.Tracks) : s.LastWins ↔ ∀ layer,
    (((withKey (layer, none) s.stored).filter (·.active)).head?).map (·.terms) =
      (s.lastActive (layer, none)).map (·.terms) := by
  constructor
  · intro wins layer
    have default := wins layer none
    rw [getEffectivePolicy, bind_none, none_or, bind_none, none_or,
      tracks.effective_default] at default
    exact default
  · intro defaults layer scopeId
    unfold getEffectivePolicy
    rw [map_or, map_or, tracks.effective_default, defaults layer]
    cases scopeId with
    | none => rfl
    | some sid => rw [bind_some, bind_some, tracks.effective_scoped]

theorem upsertPolicy_cases (now : Int) (policy : MetaGovernancePolicy β) (rows : List (MetaGovernancePolicy β)) :
    (policy.scopeId ≠ none ∧ ∃ row ∈ rows, row.key = policy.key ∧
      ∃ id, upsertPolicy now policy rows = .ok (id, rows.map (rewriteRow now policy))) ∨
    ((policy.scopeId ≠ none → withKey policy.key rows = []) ∧ (((∀ row ∈ rows, row.id ≠ policy.id) ∧
          (policy.scopeId = none → policy.active → ∀ row ∈ withKey policy.key rows, row.active = false) ∧
          upsertPolicy now policy rows = .ok (policy.id, rows ++ [{ policy with updatedAt := now }])) ∨
        (((∃ row ∈ rows, row.id = policy.id) ∨ policy.scopeId = none ∧ policy.active) ∧
          ∃ e, upsertPolicy now policy rows = .error e))) := by
  unfold upsertPolicy
  cases held : if policy.scopeId.isSome then withKey policy.key rows else [] with
  | cons row rest =>
    left
    split at held
    · rename_i some
      have member : row ∈ withKey policy.key rows := by
        rw [held]
        exact mem_cons_self
      exact ⟨isSome_iff_ne_none.mp some, row, (mem_withKey.mp member).1, (mem_withKey.mp member).2, _, rfl⟩
    · cases held
  | nil =>
    right
    refine ⟨fun some => ?_, ?_⟩
    · rwa [if_pos (isSome_iff_ne_none.mpr some)] at held
    · dsimp only
      split
      · rename_i used
        exact Or.inr ⟨Or.inl (by simpa using used), _, rfl⟩
      · rename_i unused
        split
        · rename_i clash
          exact Or.inr ⟨Or.inr ⟨clash.1, clash.2.1⟩, _, rfl⟩
        · rename_i apart
          refine Or.inl ⟨by simpa using unused, fun none active row member => ?_, rfl⟩
          by_contra live
          exact apart ⟨none, active, List.any_eq_true.mpr ⟨row, member, by simpa using live⟩⟩

theorem withKey_rewrite (now : Int) (policy : MetaGovernancePolicy β) (rows : List (MetaGovernancePolicy β)) :
    withKey key (rows.map (rewriteRow now policy)) = (withKey key rows).map (rewriteRow now policy) := by
  have same : ∀ row, (rewriteRow now policy row).key = row.key := by
    intro row
    unfold rewriteRow
    split <;> rfl
  unfold withKey
  rw [List.filter_map]
  apply congrArg (map _)
  apply filter_congr
  intro row _
  show decide ((rewriteRow now policy row).key = key) = _
  rw [same]

theorem withKey_rewrite_other (now : Int) (apart : policy.key ≠ key) :
    withKey key (rows.map (rewriteRow now policy)) = withKey key rows := by
  rw [withKey_rewrite]
  have same : ∀ row ∈ withKey key rows, rewriteRow now policy row = id row := by
    intro row member
    exact if_neg (fun own => apart (own.symm.trans (mem_withKey.mp member).2))
  rw [map_congr_left same, List.map_id]

variable (written : List (MetaGovernancePolicy β))

theorem lastStored_append : (⟨written, s.stored ++ [policy]⟩ : MetaGovernance β).lastStored key =
      if policy.key = key then some policy else s.lastStored key := by
  unfold lastStored
  dsimp only
  rw [withKey_append]
  split <;> simp

theorem Tracks.few (tracks : s.Tracks) (layer : GovernanceLayer) (sid : String) :
    (withKey (layer, some sid) s.rows).length ≤ 1 := by
  have length := congrArg List.length (tracks.scopes layer sid)
  rw [length_map] at length
  rw [length]
  cases (s.lastStored (layer, some sid)).map (·.terms) <;> simp

theorem Tracks.updated (tracks : s.Tracks) (inScope : policy.scopeId ≠ none) (held : row ∈ s.rows)
    (own : row.key = policy.key) (now : Int) :
    Tracks ⟨s.rows.map (rewriteRow now policy), s.stored ++ [policy]⟩ := by
  have apart : ∀ layer, policy.key ≠ (layer, none) := fun layer same => inScope (congrArg Prod.snd same)
  refine ⟨fun layer sid => ?_, fun layer => ?_, fun layer => ?_⟩
  · rw [lastStored_append]
    dsimp only
    by_cases here : policy.key = (layer, some sid)
    · have few := tracks.few layer sid
      have member : row ∈ withKey (layer, some sid) s.rows := mem_withKey.mpr ⟨held, own.trans here⟩
      rw [if_pos here, withKey_rewrite]
      cases split : withKey (layer, some sid) s.rows with
      | nil =>
        rw [split] at member
        cases member
      | cons only rest =>
        rw [split] at few member
        have none : rest = [] := by simpa using few
        subst none
        cases mem_singleton.mp member
        simp [rewriteRow, own, MetaGovernancePolicy.terms]
    · rw [if_neg here, withKey_rewrite_other now here]
      exact tracks.scopes layer sid
  · dsimp only
    rw [withKey_rewrite_other now (apart layer), withKey_append, if_neg (apart layer), append_nil]
    exact tracks.defaults layer
  · dsimp only
    rw [withKey_rewrite_other now (apart layer)]
    exact tracks.once layer

theorem Tracks.inserted (tracks : s.Tracks) (absent : policy.scopeId ≠ none → withKey policy.key s.rows = [])
    (single : policy.scopeId = none → policy.active → ∀ row ∈ withKey policy.key s.rows, row.active = false)
    (now : Int) : Tracks ⟨s.rows ++ [{ policy with updatedAt := now }], s.stored ++ [policy]⟩ := by
  have rows : ∀ key, withKey key (s.rows ++ [{ policy with updatedAt := now }]) =
      withKey key s.rows ++ if policy.key = key then [{ policy with updatedAt := now }] else [] :=
    withKey_append s.rows { policy with updatedAt := now }
  refine ⟨fun layer sid => ?_, fun layer => ?_, fun layer => ?_⟩
  · rw [lastStored_append, rows]
    by_cases here : policy.key = (layer, some sid)
    · have inScope : policy.scopeId ≠ none := by
        intro none
        cases none.symm.trans (congrArg Prod.snd here)
      rw [if_pos here, if_pos here, ← here, absent inScope]
      rfl
    · rw [if_neg here, if_neg here, append_nil]
      exact tracks.scopes layer sid
  · dsimp only
    rw [rows, withKey_append]
    split
    · rw [map_append, map_append, tracks.defaults layer]
      rfl
    · rw [append_nil, append_nil]
      exact tracks.defaults layer
  · dsimp only
    rw [rows]
    split
    · rename_i here
      have none : policy.scopeId = none := congrArg Prod.snd here
      rw [filter_append, length_append]
      cases live : policy.active with
      | false =>
        have once := tracks.once layer
        simpa [live] using once
      | true =>
        have inactive : (withKey (layer, Option.none) s.rows).filter (·.active) = [] := by
          apply filter_eq_nil_iff.mpr
          intro row member
          simp [single none live row (here ▸ member)]
        rw [inactive]
        simp
    · rw [append_nil]
      exact tracks.once layer

theorem Tracks.after (tracks : s.Tracks) (call : MetaGovernancePolicy β × Int) : (s.after call).Tracks := by
  unfold MetaGovernance.after
  rcases upsertPolicy_cases call.2 call.1 s.rows with
    ⟨inScope, row, held, own, id, ran⟩ | ⟨absent, ⟨_, single, ran⟩ | ⟨_, e, ran⟩⟩
  · rw [ran]
    exact tracks.updated inScope held own call.2
  · rw [ran]
    exact tracks.inserted absent single call.2
  · rw [ran]
    exact tracks

theorem Tracks.active_iff (tracks : s.Tracks) (layer : GovernanceLayer) :
    (∀ row ∈ s.rows, row.key = (layer, none) → row.active = false) ↔
      (withKey (layer, none) s.stored).filter (·.active) = [] := by
  have same := tracks.defaults layer
  have flags : ∀ rows : List (MetaGovernancePolicy β), rows.filter (·.active) = [] ↔
      (rows.map (fun row => (row.id, row.terms))).filter (·.2.2) = [] := by
    intro rows
    rw [List.filter_map, map_eq_nil_iff]
    rfl
  rw [flags, ← same, ← flags, filter_eq_nil_iff]
  simp [mem_withKey]

theorem lastActive_append : (⟨written, s.stored ++ [policy]⟩ : MetaGovernance β).lastActive key =
      if policy.key = key then (some policy).filter (·.active) else s.lastActive key := by
  unfold lastActive
  rw [lastStored_append]
  split <;> rfl

theorem Tracks.wins_iff (tracks : s.Tracks) (wins : s.LastWins) (call : MetaGovernancePolicy β × Int) :
    (s.after call).LastWins ↔ (call.1.scopeId = none → call.1.active = false →
      (∀ row ∈ s.rows, row.id ≠ call.1.id) → ∀ row ∈ s.rows, row.key = call.1.key → row.active = false) := by
  have before := tracks.lastWins_iff.mp wins
  have next := tracks.after call
  rw [next.lastWins_iff]
  unfold MetaGovernance.after
  rcases upsertPolicy_cases call.2 call.1 s.rows with
    ⟨inScope, row, held, own, id, ran⟩ | ⟨absent, ⟨free, single, ran⟩ | ⟨refused, e, ran⟩⟩
  · rw [ran]
    refine iff_of_true (fun layer => ?_) (fun none => absurd none inScope)
    have apart : call.1.key ≠ (layer, none) := fun same => inScope (congrArg Prod.snd same)
    dsimp only
    rw [lastActive_append, if_neg apart, withKey_append, if_neg apart, append_nil]
    exact before layer
  · rw [ran]
    by_cases none : call.1.scopeId = none
    · have own : call.1.key = (call.1.layer, Option.none) := Prod.ext rfl none
      have others : ∀ layer, call.1.key ≠ (layer, Option.none) →
          (((withKey (layer, Option.none) (s.stored ++ [call.1])).filter (·.active)).head?).map (·.terms) =
            ((⟨s.rows ++ [{ call.1 with updatedAt := call.2 }], s.stored ++ [call.1]⟩ : MetaGovernance β).lastActive
              (layer, Option.none)).map (·.terms) := by
        intro layer apart
        rw [lastActive_append, if_neg apart, withKey_append, if_neg apart, append_nil]
        exact before layer
      have here := tracks.active_iff call.1.layer
      rw [← own] at here
      have last : ((withKey call.1.key (s.stored ++ [call.1])).filter (·.active)) =
          (withKey call.1.key s.stored).filter (·.active) ++ [call.1].filter (·.active) := by
        rw [withKey_append, if_pos rfl, filter_append]
      constructor
      · intro all _ inactive _
        have now := all call.1.layer
        dsimp only at now
        rw [← own, lastActive_append, if_pos rfl, last] at now
        apply here.mpr
        simpa [Option.filter, inactive] using now
      · intro single' layer
        by_cases same : call.1.key = (layer, Option.none)
        · dsimp only
          rw [← same, lastActive_append, if_pos rfl, last]
          have empty : (withKey call.1.key s.stored).filter (·.active) = [] := by
            apply here.mp
            cases live : call.1.active with
            | false => exact single' none live free
            | true =>
              intro row held equal
              exact single none live row (mem_withKey.mpr ⟨held, equal⟩)
          rw [empty]
          cases live : call.1.active <;> simp [Option.filter, live]
        · exact others layer same
    · refine iff_of_true (fun layer => ?_) (fun same => absurd same none)
      have apart : call.1.key ≠ (layer, Option.none) := fun same => none (congrArg Prod.snd same)
      dsimp only
      rw [lastActive_append, if_neg apart, withKey_append, if_neg apart, append_nil]
      exact before layer
  · rw [ran]
    refine iff_of_true before (fun none inactive free => ?_)
    rcases refused with ⟨row, held, same⟩ | ⟨_, active⟩
    · exact absurd same (free row held)
    · rw [inactive] at active
      cases active

theorem Tracks.taken_iff (tracks : s.Tracks) (call : MetaGovernancePolicy β × Int) :
    (s.StoredBefore call.1 → ∃ id rows, upsertPolicy call.2 call.1 s.rows = .ok (id, rows)) ↔
      (call.1.scopeId = none → ¬ s.StoredBefore call.1) := by
  constructor
  · rintro taken none ⟨old, stored, sameId, sameKey⟩
    obtain ⟨id, rows, ran⟩ := taken ⟨old, stored, sameId, sameKey⟩
    have own : call.1.key = (call.1.layer, Option.none) := Prod.ext rfl none
    have named : (old.id, old.terms) ∈ (withKey call.1.key s.rows).map (fun row => (row.id, row.terms)) := by
      rw [own, tracks.defaults, ← own]
      exact List.mem_map.mpr ⟨old, mem_withKey.mpr ⟨stored, sameKey⟩, rfl⟩
    obtain ⟨row, member, same⟩ := List.mem_map.mp named
    have held : ∃ row ∈ s.rows, row.id = call.1.id :=
      ⟨row, (mem_withKey.mp member).1, (congrArg Prod.fst same).trans sameId⟩
    rcases upsertPolicy_cases call.2 call.1 s.rows with ⟨inScope, _⟩ | ⟨_, ⟨free, _⟩ | ⟨_, e, failed⟩⟩
    · exact inScope none
    · obtain ⟨row, member, same⟩ := held
      exact free row member same
    · rw [failed] at ran
      cases ran
  · rintro fresh ⟨old, stored, sameId, sameKey⟩
    have inScope : call.1.scopeId ≠ none := fun none => fresh none ⟨old, stored, sameId, sameKey⟩
    rcases upsertPolicy_cases call.2 call.1 s.rows with ⟨_, row, _, _, id, ran⟩ | ⟨absent, _⟩
    · exact ⟨id, _, ran⟩
    · obtain ⟨sid, some⟩ := ne_none_iff_exists'.mp inScope
      have own : call.1.key = (call.1.layer, Option.some sid) := Prod.ext rfl some
      have terms := tracks.scopes call.1.layer sid
      rw [← own, absent inScope] at terms
      have member : old ∈ withKey call.1.key s.stored := mem_withKey.mpr ⟨stored, sameKey⟩
      have last : (s.lastStored call.1.key).isSome := by
        rw [lastStored, getLast?_isSome]
        exact ne_nil_of_mem member
      obtain ⟨latest, found⟩ := isSome_iff_exists.mp last
      rw [found] at terms
      cases terms

theorem active_perm {key : GovernanceLayer × Option String} (perm : rows ~ s.rows)
    (few : ((withKey key s.rows).filter (·.active)).length ≤ 1) :
    (withKey key rows).filter (·.active) = (withKey key s.rows).filter (·.active) := by
  have perm : (withKey key rows).filter (·.active) ~ (withKey key s.rows).filter (·.active) :=
    (perm.filter _).filter _
  generalize (withKey key s.rows).filter (·.active) = active at perm few
  cases active with
  | nil => exact perm.eq_nil
  | cons row rest =>
    cases rest with
    | nil => exact perm.eq_singleton
    | cons other rest => simp at few

/-- Whatever was upserted, the effective policy depends neither on the order of the rows nor on equal times. -/
theorem effective_perm (calls : List (MetaGovernancePolicy β × Int)) (perm : rows ~ (calls.foldl after {}).rows)
    (layer : GovernanceLayer) (scopeId : Option String) :
    getEffectivePolicy layer scopeId rows = getEffectivePolicy layer scopeId (calls.foldl after {}).rows := by
  have tracks : (calls.foldl after {}).Tracks :=
    foldlRecOn calls after Tracks.start (fun s tracks call _ => tracks.after call)
  unfold getEffectivePolicy
  rw [active_perm perm (tracks.once layer)]
  cases scopeId with
  | none => rfl
  | some sid =>
    have one := active_perm perm ((length_filter_le _ _).trans (tracks.few layer sid))
    rw [bind_some, bind_some, one]

theorem two_scopes_swapped :
    getEffectivePolicy .org none [⟨"q", .org, none, (), true, 1⟩, ⟨"p", .org, some "o", (), true, 1⟩] =
      getEffectivePolicy .org none
        ([(⟨"p", .org, some "o", (), true, 0⟩, 1), (⟨"q", .org, none, (), true, 0⟩, 1)].foldl after {}).rows :=
  effective_perm _ (Perm.swap _ _ _) .org none

end

end MetaGovernance

end Aeterna.Governance
