import Aeterna.Idp.Passes

namespace Aeterna.Idp
open Lib (Eff)
open List Session Lib.Eff

def Held (d : Directory) (teamId userId : String) : Prop := (d.memberships.get (teamId, userId)).isSome

instance (d : Directory) (teamId userId : String) : Decidable (Held d teamId userId) :=
  inferInstanceAs (Decidable (_ = true))

theorem mem_teamMemberships {d : Directory} {teamId userId : String} : userId ∈ teamMemberships d teamId ↔
    Held d teamId userId := by
  unfold teamMemberships Held
  rw [mem_map, Option.isSome_iff_exists]
  constructor
  · rintro ⟨⟨⟨team, member⟩, role⟩, inside, rfl⟩
    obtain ⟨here, same⟩ := mem_filter.mp inside
    have same : team = teamId := by simpa using same
    exact ⟨role, Lib.Table.get_eq_some.mpr (same ▸ here)⟩
  · rintro ⟨role, held⟩
    exact ⟨((teamId, userId), role), mem_filter.mpr ⟨Lib.Table.get_eq_some.mp held, by simp⟩, rfl⟩

def foundIds (rows : List User) (members : List IdpUser) : List String :=
  members.filterMap (fun member => userIdByIdpSubject rows member.idpSubject)

structure MembersOnly (s next : Session) : Prop where
  users : next.directory.users = s.directory.users
  mappings : next.directory.idpGroupMappings = s.directory.idpGroupMappings
  errors : next.report.errors = s.report.errors

theorem MembersOnly.refl (s : Session) : MembersOnly s s := ⟨rfl, rfl, rfl⟩

theorem MembersOnly.trans {a b c : Session} (first : MembersOnly a b) (second : MembersOnly b c) : MembersOnly a c :=
  ⟨second.users.trans first.users, second.mappings.trans first.mappings, second.errors.trans first.errors⟩

section
variable {service : IdpSyncService} {teamId : String} {existing expected ids ids' : List String}
  {members : List IdpUser}
variable {s mid next : Session}

structure Added (teamId : String) (existing ids : List String) (s next : Session) : Prop where
  only : MembersOnly s next
  held : ∀ team id, Held next.directory team id ↔ Held s.directory team id ∨ team = teamId ∧ id ∈ ids ∧ id ∉ existing
  rises : s.changes ≤ next.changes
  still : next.changes = s.changes ↔ ∀ id ∈ ids, id ∈ existing

theorem Added.none : Added teamId existing [] s s where
  only := .refl s
  held := by simp
  rises := Nat.le_refl _
  still := by simp

theorem Added.append (first : Added teamId existing ids s mid) (second : Added teamId existing ids' mid next) :
    Added teamId existing (ids ++ ids') s next where
  only := first.only.trans second.only
  held := by
    intro team id
    rw [second.held, first.held, mem_append]
    tauto
  rises := Nat.le_trans first.rises second.rises
  still := by
    have low := first.rises
    have high := second.rises
    rw [forall_mem_append, ← first.still, ← second.still]
    omega

theorem added_one {userId : String} (absent : userId ∉ existing) : Added teamId existing [userId] s
      (s.mapMemberships (Lib.Table.insertOrIgnore (teamId, userId) "member")).countAdded where
  only := ⟨rfl, rfl, rfl⟩
  held := by
    intro team id
    show ((s.directory.memberships.insertOrIgnore (teamId, userId) "member").get (team, id)).isSome = true ↔ _
    rw [Lib.Table.get_insertOrIgnore]
    by_cases same : (team, id) = (teamId, userId)
    · obtain ⟨rfl, rfl⟩ := Prod.mk.inj same
      simp [absent]
    · rw [if_neg same]
      have apart : ¬ (team = teamId ∧ id ∈ [userId] ∧ id ∉ existing) := by
        rintro ⟨left, right, _⟩
        exact same (Prod.ext left (mem_singleton.mp right))
      simp only [apart, or_false]
      rfl
  rises := by
    simp only [changes, countAdded, SyncReport.changes, mapMemberships]
    omega
  still := by
    simp only [changes, countAdded, SyncReport.changes, mapMemberships,
      forall_mem_singleton, absent, iff_false]
    omega

theorem expectMember_ok (live : service.dryRun = false) (teamId : String) (existing : List String) (s : Session)
    (member : IdpUser) :
    ∃ next, expectMember service teamId existing member s =
        (.ok (userIdByIdpSubject s.directory.users.rows member.idpSubject).toList, next) ∧
      Added teamId existing (userIdByIdpSubject s.directory.users.rows member.idpSubject).toList s next := by
  unfold expectMember
  rw [bind_of_ok (get_run s)]
  cases userIdByIdpSubject s.directory.users.rows member.idpSubject with
  | none => exact ⟨s, rfl, .none⟩
  | some userId =>
    dsimp only
    by_cases here : userId ∈ existing
    · rw [if_pos here]
      refine ⟨s, rfl, ⟨.refl s, fun team id => ?_, Nat.le_refl _, ?_⟩⟩
      · have inside : ¬ (team = teamId ∧ id ∈ [userId] ∧ id ∉ existing) := by
          rintro ⟨_, same, absent⟩
          exact absent (mem_singleton.mp same ▸ here)
        exact ⟨.inl, fun either => either.resolve_right inside⟩
      · exact ⟨fun _ id same => mem_singleton.mp same ▸ here, fun _ => rfl⟩
    · rw [if_neg here, written, live]
      exact ⟨_, rfl, added_one here⟩

theorem expectMembers_ok (live : service.dryRun = false) (teamId : String) (existing : List String)
    (members : List IdpUser) (s : Session) :
    ∃ next, gather (expectMember service teamId existing) members s =
      (.ok (foundIds s.directory.users.rows members), next) ∧
      Added teamId existing (foundIds s.directory.users.rows members) s next := by
  induction members generalizing s with
  | nil => exact ⟨s, rfl, .none⟩
  | cons member rest ih =>
    obtain ⟨mid, first, added⟩ := expectMember_ok live teamId existing s member
    obtain ⟨next, later, others⟩ := ih mid
    rw [added.only.users] at later others
    have ids : foundIds s.directory.users.rows (member :: rest) =
        (userIdByIdpSubject s.directory.users.rows member.idpSubject).toList ++
          foundIds s.directory.users.rows rest := by
      unfold foundIds
      rw [filterMap_cons]
      cases userIdByIdpSubject s.directory.users.rows member.idpSubject <;> rfl
    rw [ids]
    refine ⟨next, ?_, added.append others⟩
    exact (bind_of_ok first).trans ((bind_of_ok later).trans rfl)

structure Trimmed (teamId : String) (expected entries : List String) (s next : Session) : Prop where
  only : MembersOnly s next
  held : ∀ team id, Held next.directory team id ↔ Held s.directory team id ∧
    ¬ (team = teamId ∧ id ∈ entries ∧ id ∉ expected)
  rises : s.changes ≤ next.changes
  still : next.changes = s.changes ↔ ∀ id ∈ entries, id ∈ expected

theorem dropUnexpected_ok (live : service.dryRun = false) (teamId : String) (expected : List String)
    (s : Session) (userId : String) :
    ∃ next, dropUnexpected service teamId expected userId s = (.ok (), next) ∧
      Trimmed teamId expected [userId] s next := by
  unfold dropUnexpected
  by_cases here : userId ∈ expected
  · rw [if_pos here]
    refine ⟨s, rfl, ⟨.refl s, fun team id => ?_, Nat.le_refl _, ?_⟩⟩
    · have inside : ¬ (team = teamId ∧ id ∈ [userId] ∧ id ∉ expected) := fun ⟨_, same, absent⟩ =>
        absent (mem_singleton.mp same ▸ here)
      exact ⟨fun held => ⟨held, inside⟩, And.left⟩
    · exact ⟨fun _ id same => mem_singleton.mp same ▸ here, fun _ => rfl⟩
  · rw [if_neg here, written, live]
    refine ⟨_, rfl, ⟨⟨rfl, rfl, rfl⟩, fun team id => ?_, ?_, ?_⟩⟩
    · show ((s.directory.memberships.keepOnly (fun key _ => key ≠ (teamId, userId))).get (team, id)).isSome = true ↔
        (s.directory.memberships.get (team, id)).isSome = true ∧ _
      rw [Lib.Table.get_keepOnly]
      by_cases same : (team, id) = (teamId, userId)
      · obtain ⟨rfl, rfl⟩ := Prod.mk.inj same
        cases s.directory.memberships.get (team, id) <;> simp [here, Option.filter]
      · have apart : ¬ (team = teamId ∧ id ∈ [userId] ∧ id ∉ expected) := fun ⟨left, right, _⟩ =>
          same (Prod.ext left (mem_singleton.mp right))
        simp only [apart, not_false_eq_true, and_true]
        cases s.directory.memberships.get (team, id) with
        | none => rfl
        | some role => simp [Option.filter, same]
    · simp only [changes, countRemoved, SyncReport.changes, mapMemberships]
      omega
    · simp only [changes, countRemoved, SyncReport.changes, mapMemberships,
        forall_mem_singleton, here, iff_false]
      omega

theorem dropAll_ok (live : service.dryRun = false) (teamId : String) (expected entries : List String) (s : Session) :
    ∃ next, forEach (dropUnexpected service teamId expected) entries s = (.ok (), next) ∧
      Trimmed teamId expected entries s next := by
  induction entries generalizing s with
  | nil => exact ⟨s, rfl, ⟨.refl s, by simp, Nat.le_refl _, by simp⟩⟩
  | cons userId rest ih =>
    obtain ⟨mid, first, one⟩ := dropUnexpected_ok live teamId expected s userId
    obtain ⟨next, later, others⟩ := ih mid
    refine ⟨next, (bind_of_ok first).trans later, ⟨one.only.trans others.only, fun team id => ?_, ?_, ?_⟩⟩
    · rw [others.held, one.held, mem_singleton, mem_cons]
      tauto
    · exact Nat.le_trans one.rises others.rises
    · have low := one.rises
      have high := others.rises
      rw [forall_mem_cons, ← others.still, ← forall_mem_singleton (p := (· ∈ expected)), ← one.still]
      omega

theorem syncTeamMemberships_ok (live : service.dryRun = false) (teamId : String) (members : List IdpUser)
    (s : Session) :
    ∃ next, syncTeamMemberships service teamId members s = (.ok (), next) ∧ MembersOnly s next ∧
      (∀ team id, Held next.directory team id ↔
        if team = teamId then id ∈ foundIds s.directory.users.rows members else Held s.directory team id) ∧
      s.changes ≤ next.changes ∧
      (next.changes = s.changes ↔ ∀ id, id ∈ foundIds s.directory.users.rows members ↔
        Held s.directory teamId id) := by
  obtain ⟨mid, gathered, added⟩ := expectMembers_ok live teamId (teamMemberships s.directory teamId) members s
  obtain ⟨next, dropped, trimmed⟩ := dropAll_ok live teamId (foundIds s.directory.users.rows members)
    (teamMemberships s.directory teamId) mid
  refine ⟨next, (bind_of_ok (get_run s)).trans ((bind_of_ok gathered).trans dropped),
    added.only.trans trimmed.only,
    fun team id => ?_, Nat.le_trans added.rises trimmed.rises, ?_⟩
  · rw [trimmed.held, added.held]
    by_cases here : team = teamId
    · subst here
      rw [if_pos rfl]
      simp only [mem_teamMemberships, true_and]
      tauto
    · simp [here]
  · have low := added.rises
    have high := trimmed.rises
    have both : next.changes = s.changes ↔ mid.changes = s.changes ∧ next.changes = mid.changes := by omega
    rw [both, added.still, trimmed.still]
    simp only [mem_teamMemberships]
    exact ⟨fun ⟨there, back⟩ id => ⟨there id, back id⟩, fun same => ⟨fun id => (same id).mp, fun id => (same id).mpr⟩⟩

def membersOf (service : IdpSyncService) (group : IdpGroup) : List IdpUser :=
  match service.client.getGroupMembers group.id with
  | .ok members => members
  | .error _ => []

def Fetched (service : IdpSyncService) (group : IdpGroup) : Prop := ∃ members,
    service.client.getGroupMembers group.id = .ok members

structure Grouped (service : IdpSyncService) (mapping : String → Option String) (groups : List IdpGroup)
    (s next : Session) : Prop where
  only : MembersOnly s next
  others : ∀ teamId, (∀ group ∈ groups, mapping group.id ≠ some teamId) → ∀ id, Held next.directory teamId id ↔
    Held s.directory teamId id
  last : ∀ teamId, ∀ group ∈ groups, mapping group.id = some teamId → ∃ last ∈ groups, mapping last.id = some teamId ∧
    ∀ id, Held next.directory teamId id ↔ id ∈ foundIds s.directory.users.rows (membersOf service last)
  rises : s.changes ≤ next.changes
  still : next.changes = s.changes ↔ ∀ group ∈ groups, ∀ teamId, mapping group.id = some teamId →
    ∀ id, id ∈ foundIds s.directory.users.rows (membersOf service group) ↔ Held s.directory teamId id

variable {mapping : String → Option String} {group : IdpGroup} {groups : List IdpGroup}

theorem syncGroup_ok (live : service.dryRun = false) (s : Session)
    (fetched : ∀ teamId, mapping group.id = some teamId → Fetched service group) :
    ∃ next, syncGroup service mapping group s = (.ok (), next) ∧ Grouped service mapping [group] s next := by
  unfold syncGroup
  cases found : mapping group.id with
  | none =>
    refine ⟨s, rfl, ⟨.refl s, fun _ _ _ => Iff.rfl, fun teamId other inside same => ?_, Nat.le_refl _, ?_⟩⟩
    · rw [mem_singleton.mp inside, found] at same
      cases same
    · refine ⟨fun _ other inside teamId same => ?_, fun _ => rfl⟩
      rw [mem_singleton.mp inside, found] at same
      cases same
  | some teamId =>
    obtain ⟨members, got⟩ := fetched teamId found
    obtain ⟨mid, ran, only, held, rises, still⟩ := syncTeamMemberships_ok live teamId members s
    have these : membersOf service group = members := by
      unfold membersOf
      rw [got]
    dsimp only
    rw [got]
    dsimp only
    have seen : ((syncTeamMemberships service teamId members).outcome : Synced (Except IdpSyncError Unit)) s =
        (.ok (.ok ()), mid) := by
      rw [outcome_run, ran]
    refine ⟨mid.countGroup, (bind_of_ok seen).trans rfl,
      ⟨⟨only.users, only.mappings, only.errors⟩, fun other absent id => ?_, ?_, rises, ?_⟩⟩
    · refine (held other id).trans ?_
      rw [if_neg (fun same : other = teamId => absent group (mem_singleton_self _) (same ▸ found))]
    · intro other one inside same
      refine ⟨group, mem_singleton_self _, ?_, fun id => ?_⟩
      · rw [mem_singleton.mp inside] at same
        exact same
      · rw [mem_singleton.mp inside, found] at same
        refine (held other id).trans ?_
        rw [if_pos (Option.some.inj same).symm, these]
    · refine Iff.trans still ?_
      rw [forall_mem_singleton, found, these]
      exact ⟨fun every other same => Option.some.inj same ▸ every, fun every => every teamId rfl⟩

theorem Grouped.cons {rest : List IdpGroup} (first : Grouped service mapping [group] s mid)
    (later : Grouped service mapping rest mid next) :
    Grouped service mapping (group :: rest) s next where
  only := first.only.trans later.only
  others := by
    intro teamId absent id
    rw [later.others teamId (fun other inside => absent other (mem_cons_of_mem _ inside)),
      first.others teamId ?_]
    exact forall_mem_singleton.mpr (absent group mem_cons_self)
  last := by
    intro teamId one inside same
    by_cases more : ∃ other ∈ rest, mapping other.id = some teamId
    · obtain ⟨other, there, leads⟩ := more
      obtain ⟨last, member, mapped, held⟩ := later.last teamId other there leads
      rw [first.only.users] at held
      exact ⟨last, mem_cons_of_mem _ member, mapped, held⟩
    · have gone : ∀ other ∈ rest, mapping other.id ≠ some teamId := fun other there leads =>
          more ⟨other, there, leads⟩
      have here : one = group := (mem_cons.mp inside).resolve_right (fun there => gone one there same)
      obtain ⟨last, member, mapped, held⟩ := first.last teamId group (mem_singleton_self _) (here ▸ same)
      exact ⟨last, mem_cons.mpr (.inl (mem_singleton.mp member)), mapped,
        fun id => (later.others teamId gone id).trans (held id)⟩
  rises := Nat.le_trans first.rises later.rises
  still := by
    have low := first.rises
    have high := later.rises
    have both : next.changes = s.changes ↔ mid.changes = s.changes ∧ next.changes = mid.changes := by omega
    rw [both, first.still, later.still, forall_mem_singleton, forall_mem_cons, first.only.users]
    refine and_congr_right (fun here => ?_)
    -- a group that changes nothing leaves the members of its team
    have same : ∀ teamId id, Held mid.directory teamId id ↔ Held s.directory teamId id := by
      intro teamId id
      by_cases mapped : mapping group.id = some teamId
      · obtain ⟨last, member, _, held⟩ := first.last teamId group (mem_singleton_self _) mapped
        rw [held, mem_singleton.mp member]
        exact here teamId mapped id
      · exact first.others teamId (forall_mem_singleton.mpr mapped) id
    simp only [same]

theorem syncGroups_ok (live : service.dryRun = false) (s : Session)
    (fetched : ∀ group ∈ groups, ∀ teamId, mapping group.id = some teamId → Fetched service group) :
    ∃ next, forEach (syncGroup service mapping) groups s = (.ok (), next) ∧
      Grouped service mapping groups s next := by
  induction groups generalizing s with
  | nil =>
    refine ⟨s, rfl, ⟨.refl s, fun _ _ _ => Iff.rfl, fun _ _ inside => absurd inside not_mem_nil,
      Nat.le_refl _, ?_⟩⟩
    exact ⟨fun _ _ inside => absurd inside not_mem_nil, fun _ => rfl⟩
  | cons group rest ih =>
    obtain ⟨mid, first, one⟩ := syncGroup_ok live s (fetched group mem_cons_self)
    obtain ⟨next, later, others⟩ := ih mid (fun other inside => fetched other (mem_cons_of_mem _ inside))
    exact ⟨next, (bind_of_ok first).trans later, one.cons others⟩

theorem syncGroup_errors (live : service.dryRun = false) {u : Unit}
    (ran : syncGroup service mapping group s = (.ok u, next)) :
    s.report.errors.length ≤ next.report.errors.length ∧
      (next.report.errors.length = s.report.errors.length → ∀ teamId, mapping group.id = some teamId →
        Fetched service group) := by
  by_cases fetched : ∀ teamId, mapping group.id = some teamId → Fetched service group
  · obtain ⟨other, ran', grouped⟩ := syncGroup_ok live s fetched
    rw [ran'] at ran
    cases ran
    exact ⟨Nat.le_of_eq (congrArg length grouped.only.errors.symm), fun _ => fetched⟩
  · unfold syncGroup at ran
    cases found : mapping group.id with
    | none => exact absurd (fun teamId same => absurd (found.symm.trans same) (Option.some_ne_none _).symm) fetched
    | some teamId =>
      rw [found] at ran
      dsimp only at ran
      cases got : service.client.getGroupMembers group.id with
      | ok members => exact absurd (fun _ _ => ⟨members, got⟩) fetched
      | error e =>
        rw [got] at ran
        dsimp only at ran
        cases ran
        have longer : (s.addError "group" group.id e.text).report.errors.length = s.report.errors.length + 1 := by
          simp [addError]
        omega

theorem syncGroups_fetched (live : service.dryRun = false) {u : Unit}
    (ran : forEach (syncGroup service mapping) groups s = (.ok u, next))
    (same : next.report.errors.length = s.report.errors.length) :
    ∀ group ∈ groups, ∀ teamId, mapping group.id = some teamId → Fetched service group :=
  (forEach_still (I := fun _ => True) (fun _ _ _ _ ran => (syncGroup_errors live ran).1)
    (fun _ _ _ _ _ ran same => ⟨trivial, (syncGroup_errors live ran).2 same⟩) trivial ran same).2

end

end Aeterna.Idp
