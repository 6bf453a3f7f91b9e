import Aeterna.Idp.Groups

namespace Aeterna.Idp
open Lib (Eff)
open List Lib.Eff

def Known (provider : String) (rows : List User) (id subject : String) : Prop :=
  ∃ row ∈ rows, row.Of provider ∧ row.id = id ∧ row.idpSubject = some subject

def Leads (provider : String) (d : Directory) (groupId teamId : String) : Prop :=
  d.idpGroupMappings.get (groupId, provider) = some teamId

instance (provider : String) (d : Directory) (groupId teamId : String) :
    Decidable (Leads provider d groupId teamId) :=
  inferInstanceAs (Decidable (_ = _))

def Belongs (service : IdpSyncService) (groups : List IdpGroup) (d : Directory) (teamId id : String) : Prop :=
  ∃ group ∈ groups, Leads service.provider.name d group.id teamId ∧
    ∃ member ∈ membersOf service group, Known service.provider.name d.users.rows id member.idpSubject

structure Answers (service : IdpSyncService) (fuel : Nat) (users : List IdpUser) (groups : List IdpGroup) : Prop where
  users : fetchPages service.client.listUsers fuel none = .ok users
  groups : fetchPages service.client.listGroups fuel none = .ok groups

def Quiet (service : IdpSyncService) (fuel : Nat) (s : Session) : Prop :=
  ∃ report last, syncAll service fuel s = (.ok report, last) ∧ report.usersCreated = 0 ∧ report.usersUpdated = 0 ∧
    report.usersDeactivated = 0 ∧ report.membershipsAdded = 0 ∧ report.membershipsRemoved = 0

structure Converged (service : IdpSyncService) (fuel : Nat) (users : List IdpUser) (groups : List IdpGroup)
    (s : Session) : Prop where
  active : ∀ subject, (∃ row ∈ s.directory.users.rows, row.Of service.provider.name ∧ row.idpSubject = some subject ∧
    row.isActive = true) ↔
    ∃ user ∈ users, user.idpSubject = subject ∧ user.active = true
  members : ∀ groupId teamId, Leads service.provider.name s.directory groupId teamId →
    ∀ id, Held s.directory teamId id ↔ Belongs service groups s.directory teamId id
  quiet : Quiet service fuel s

structure Unshared (service : IdpSyncService) (groups : List IdpGroup) (d : Directory) : Prop where
  mappings : ∀ group ∈ groups, ∀ provider teamId, Leads provider d group.id teamId →
    Leads service.provider.name d group.id teamId
  subjects : ∀ group ∈ groups, ∀ teamId, Leads service.provider.name d group.id teamId →
    ∀ member ∈ membersOf service group,
    ∀ row ∈ d.users.rows, row.idpSubject = some member.idpSubject → row.Of service.provider.name

structure Fits (service : IdpSyncService) (users : List IdpUser) (groups : List IdpGroup) (d : Directory) : Prop where
  settles : Settles service.provider.name users d.users.rows
  agree : ∀ a ∈ groups, ∀ b ∈ groups, ∀ teamId, Leads service.provider.name d a.id teamId →
    Leads service.provider.name d b.id teamId →
    ∀ user ∈ users, user.idpSubject ∈ (membersOf service a).map IdpUser.idpSubject →
      user.idpSubject ∈ (membersOf service b).map IdpUser.idpSubject
  gone : ∀ groupId teamId, Leads service.provider.name d groupId teamId →
    (∀ group ∈ groups, ¬ Leads service.provider.name d group.id teamId) → ∀ id, ¬ Held d teamId id

section
variable {service : IdpSyncService} {fuel : Nat} {users : List IdpUser} {groups : List IdpGroup} {s next : Session}
  {report : SyncReport}

theorem fetchPages_mem {α : Type} {list : Option String → Except IdpSyncError (List α × Option String)}
    {token : Option String} {items : List α} (fetched : fetchPages list fuel token = .ok items) {item : α}
    (member : item ∈ items) :
    ∃ token page next, list token = .ok (page, next) ∧ item ∈ page := by
  induction fuel generalizing token items with
  | zero => cases fetched
  | succ fuel ih =>
    unfold fetchPages at fetched
    cases page : list token with
    | error e =>
      rw [page] at fetched
      cases fetched
    | ok answer =>
      obtain ⟨these, later⟩ := answer
      rw [page] at fetched
      cases later with
      | none =>
        cases fetched
        exact ⟨token, _, _, page, member⟩
      | some after =>
        obtain ⟨others, rest, rfl⟩ := Lib.except_map_ok.mp fetched
        rcases mem_append.mp member with here | there
        · exact ⟨token, _, _, page, here⟩
        · exact ih rest there

theorem Answers.provided (answers : Answers service fuel users groups) : ∀ user ∈ users,
    user.idpProvider = service.provider.name := by
  intro user member
  obtain ⟨token, page, later, listed, here⟩ := fetchPages_mem answers.users member
  exact service.client.provides token page later listed user here

theorem syncAll_eq : syncAll service fuel s = (do
      let users ← Eff.ofExcept (fetchPages service.client.listUsers fuel none)
      let groups ← Eff.ofExcept (fetchPages service.client.listGroups fuel none)
      (syncUsers service users).mapError .failed
      (syncGroupsAndMemberships service groups).mapError .failed
      let s ← Eff.get
      pure s.report : Eff Session Halt SyncReport) { s with report := {} } := rfl

theorem syncAll_ok (answers : Answers service fuel users groups) (ran : syncAll service fuel s = (.ok report, next)) :
    ∃ mid, syncUsers service users { s with report := {} } = (.ok (), mid) ∧
      forEach (syncGroup service (teamOfGroup mid.directory)) groups mid = (.ok (), next) ∧
        report = next.report := by
  rw [syncAll_eq, answers.users, answers.groups] at ran
  obtain ⟨_, _, first, ran⟩ := bind_ok ran
  cases first
  obtain ⟨_, _, first, ran⟩ := bind_ok ran
  cases first
  obtain ⟨_, mid, first, ran⟩ := bind_ok ran
  obtain ⟨_, last, second, ran⟩ := bind_ok ran
  cases ran
  exact ⟨mid, mapError_ok first, mapError_ok second, rfl⟩

theorem syncAll_of_ok {mid : Session} (answers : Answers service fuel users groups)
    (first : syncUsers service users { s with report := {} } = (.ok (), mid))
    (second : forEach (syncGroup service (teamOfGroup mid.directory)) groups mid = (.ok (), next)) :
    syncAll service fuel s = (.ok next.report, next) := by
  rw [syncAll_eq, answers.users, answers.groups]
  have passed : (syncGroupsAndMemberships service groups) mid = (.ok (), next) := second
  refine (bind_of_ok rfl).trans ((bind_of_ok rfl).trans ?_)
  refine (bind_of_ok (mapError_of_ok first)).trans ((bind_of_ok (mapError_of_ok passed)).trans rfl)

theorem quiet_iff (live : service.dryRun = false) (answers : Answers service fuel users groups)
    (fetched : ∀ group ∈ groups, ∀ teamId, teamOfGroup s.directory group.id = some teamId → Fetched service group) :
    Quiet service fuel s ↔ InSync service.provider.name users s.directory.users.rows ∧
      ∀ group ∈ groups, ∀ teamId, teamOfGroup s.directory group.id = some teamId →
        ∀ id, id ∈ foundIds s.directory.users.rows (membersOf service group) ↔ Held s.directory teamId id := by
  obtain ⟨next, looped, grouped⟩ := syncGroups_ok live { s with report := {} } fetched
  constructor
  · rintro ⟨report, last, ran, zero⟩
    obtain ⟨mid, first, second, rfl⟩ := syncAll_ok answers ran
    have low := syncUsers_grows first
    have start : (Session.changes { s with report := {} }) = 0 := rfl
    have ended : last.changes = 0 := by
      simp only [Session.changes, SyncReport.changes]
      omega
    have mappings : mid.directory.idpGroupMappings = s.directory.idpGroupMappings :=
      (syncUsers_ok live first).2.mappings
    have fetched' : ∀ group ∈ groups, ∀ teamId, teamOfGroup mid.directory group.id = some teamId →
        Fetched service group := by
      unfold teamOfGroup
      rw [mappings]
      exact fetched
    obtain ⟨after, second', grouped'⟩ := syncGroups_ok live mid fetched'
    obtain rfl : after = last := (Prod.mk.inj (second'.symm.trans second)).2
    have high := grouped'.rises
    obtain ⟨rfl, sync⟩ := syncUsers_still first (by omega)
    exact ⟨sync, grouped'.still.mp (by omega)⟩
  · rintro ⟨sync, same⟩
    have first := syncUsers_quiet (s := { s with report := {} }) sync
    have ended : next.changes = 0 := grouped.still.mpr same
    simp only [Session.changes, SyncReport.changes] at ended
    refine ⟨_, _, syncAll_of_ok answers first looped, ?_⟩
    omega

variable {d : Directory} {teamId : String}

theorem teamOfGroup_eq (unshared : Unshared service groups d) {group : IdpGroup} (inside : group ∈ groups) :
    teamOfGroup d group.id = some teamId ↔ Leads service.provider.name d group.id teamId := by
  have sound : ∀ teamId, teamOfGroup d group.id = some teamId → Leads service.provider.name d group.id teamId := by
    intro teamId found
    obtain ⟨⟨⟨groupId, provider⟩, team⟩, last, rfl⟩ := Option.map_eq_some_iff.mp found
    obtain ⟨here, same⟩ := mem_filter.mp (mem_of_getLast? last)
    have same : groupId = group.id := by simpa using same
    exact unshared.mappings group inside provider team (Lib.Table.get_eq_some.mpr (same ▸ here))
  refine ⟨sound teamId, fun leads => ?_⟩
  cases found : teamOfGroup d group.id with
  | none =>
    have empty := getLast?_eq_none_iff.mp (Option.map_eq_none_iff.mp found)
    have here : ((group.id, service.provider.name), teamId) ∈ d.idpGroupMappings.rows.filter
        (fun e => e.1.1 = group.id) :=
      mem_filter.mpr ⟨Lib.Table.get_eq_some.mp leads, by simp⟩
    rw [empty] at here
    exact absurd here not_mem_nil
  | some other => exact (sound other found).symm.trans leads

def Foreign (provider : String) (start rows : List User) : Prop :=
  ∀ row ∈ rows, ¬ row.Of provider → ∃ old ∈ start, ¬ old.Of provider ∧ old.idpSubject = row.idpSubject

theorem Foreign.step {provider : String} {start rows last : List User} {user : IdpUser}
    (foreign : Foreign provider start rows) (provided : user.idpProvider = provider)
    (step : Step provider start user rows last) : Foreign provider start last := by
  intro row inside other
  cases step with
  | idle => exact foreign row inside other
  | @update old =>
    obtain ⟨origin, here, rfl⟩ := mem_map.mp inside
    by_cases hit : origin.id = old.id
    · rw [if_pos hit] at other ⊢
      exact foreign origin here other
    · rw [if_neg hit] at other ⊢
      exact foreign origin here other
  | take =>
    obtain ⟨origin, here, rfl⟩ := mem_map.mp inside
    by_cases hit : origin.email = user.email
    · rw [if_pos hit] at other
      exact absurd (congrArg some provided) other
    · rw [if_neg hit] at other ⊢
      exact foreign origin here other
  | insert =>
    rcases mem_append.mp inside with earlier | added
    · exact foreign row earlier other
    · rw [mem_singleton.mp added] at other
      exact absurd (congrArg some provided) other

theorem Foreign.retired {provider : String} {start rows last : List User} (foreign : Foreign provider start rows)
    (retired : Retired provider users start rows last) : Foreign provider start last := by
  intro row inside other
  obtain ⟨before, here, ⟨_, rfl⟩ | ⟨_, rfl⟩⟩ := retired.mem_iff.mp inside
  · exact foreign before here other
  · exact foreign row here other

theorem Unshared.after {mid : Session} (live : service.dryRun = false)
    (provided : ∀ user ∈ users, user.idpProvider = service.provider.name)
    (unshared : Unshared service groups s.directory) (ran : syncUsers service users s = (.ok (), mid)) :
    Unshared service groups mid.directory := by
  obtain ⟨⟨existing, rows, lists, written, retired⟩, only⟩ := syncUsers_ok live ran
  have begins : Foreign service.provider.name s.directory.users.rows s.directory.users.rows := fun row inside other =>
      ⟨row, inside, other, rfl⟩
  obtain ⟨foreign, _⟩ := Written.keeps (J := fun _ => Foreign service.provider.name s.directory.users.rows) (by
    intro done user rest id rows split _ foreign _
    have member : user ∈ users := split ▸ mem_append_right _ mem_cons_self
    exact foreign.step (provided user member) (step_of_stepRows lists id user rows))
    (nil_append users).symm s.directory.users.apart begins written
  have foreign := foreign.retired retired
  refine ⟨?_, ?_⟩
  · unfold Leads
    rw [only.mappings]
    exact unshared.mappings
  · unfold Leads
    rw [only.mappings]
    intro group inside teamId leads member listed row here subject
    refine Classical.byContradiction (fun other => ?_)
    obtain ⟨old, before, oldOther, same⟩ := foreign row here other
    exact oldOther (unshared.subjects group inside teamId leads member listed old before (same.trans subject))

theorem Unshared.of_same {e : Directory} (unshared : Unshared service groups d) (users : e.users = d.users)
    (mappings : e.idpGroupMappings = d.idpGroupMappings) : Unshared service groups e := by
  obtain ⟨first, second⟩ := unshared
  refine ⟨?_, ?_⟩
  · unfold Leads at first ⊢
    rwa [mappings]
  · unfold Leads at second ⊢
    rwa [mappings, users]

theorem mem_foundIds (unshared : Unshared service groups d) {group : IdpGroup}
    (inside : group ∈ groups) (leads : Leads service.provider.name d group.id teamId) {id : String} :
    id ∈ foundIds d.users.rows (membersOf service group) ↔
      ∃ member ∈ membersOf service group, Known service.provider.name d.users.rows id member.idpSubject := by
  unfold foundIds
  rw [mem_filterMap]
  refine exists_congr (fun member => and_congr_right (fun listed => ?_))
  have own : ∀ row ∈ d.users.rows, row.idpSubject = some member.idpSubject → row.Of service.provider.name :=
    unshared.subjects group inside teamId leads member listed
  unfold userIdByIdpSubject
  constructor
  · intro found
    obtain ⟨row, first, rfl⟩ := Option.map_eq_some_iff.mp found
    have here := mem_of_find?_eq_some first
    have subject : row.idpSubject = some member.idpSubject := by simpa using find?_some first
    exact ⟨row, here, own row here subject, rfl, subject⟩
  · rintro ⟨row, here, rowOwn, rfl, subject⟩
    cases first : d.users.rows.find? (fun row => row.idpSubject = some member.idpSubject) with
    | none => exact absurd (find?_eq_none.mp first row here) (by simp [subject])
    | some other =>
      have there := mem_of_find?_eq_some first
      have named : other.idpSubject = some member.idpSubject := by simpa using find?_some first
      exact congrArg (fun row => some (User.id row))
        (eq_of_subject d.users.apart there here (own other there named) rowOwn named subject)

theorem found_subset_iff (sync : InSync service.provider.name users d.users.rows)
    (unshared : Unshared service groups d) {a b : IdpGroup} (inA : a ∈ groups) (inB : b ∈ groups)
    (leadsA : Leads service.provider.name d a.id teamId) (leadsB : Leads service.provider.name d b.id teamId) :
    (∀ id ∈ foundIds d.users.rows (membersOf service a), id ∈ foundIds d.users.rows (membersOf service b)) ↔
      ∀ user ∈ users, user.idpSubject ∈ (membersOf service a).map IdpUser.idpSubject →
        user.idpSubject ∈ (membersOf service b).map IdpUser.idpSubject := by
  constructor
  · intro every user listed inside
    obtain ⟨member, here, same⟩ := mem_map.mp inside
    obtain ⟨row, there, own, subject, _⟩ := sync.listed user listed
    have found := (mem_foundIds unshared inA leadsA).mpr ⟨member, here, row, there, own, rfl, same ▸ subject⟩
    obtain ⟨other, among, held, heldHere, _, sameId, named⟩ :=
        (mem_foundIds unshared inB leadsB).mp (every row.id found)
    obtain rfl := eq_of_id d.users.apart heldHere there sameId
    exact mem_map.mpr ⟨other, among, Option.some.inj (named.symm.trans subject)⟩
  · intro every id found
    obtain ⟨member, here, row, there, own, sameId, subject⟩ := (mem_foundIds unshared inA leadsA).mp found
    obtain ⟨user, listed, named⟩ := sync.known row there own
    have same : member.idpSubject = user.idpSubject := Option.some.inj (subject.symm.trans named)
    obtain ⟨other, among, equal⟩ := mem_map.mp (every user listed (mem_map.mpr ⟨member, here, same⟩))
    exact (mem_foundIds unshared inB leadsB).mpr
      ⟨other, among, row, there, own, sameId, named.trans (congrArg some equal.symm)⟩

theorem InSync.active (sync : InSync service.provider.name users s.directory.users.rows) (subject : String) :
    (∃ row ∈ s.directory.users.rows, row.Of service.provider.name ∧ row.idpSubject = some subject ∧
      row.isActive = true) ↔
      ∃ user ∈ users, user.idpSubject = subject ∧ user.active = true := by
  constructor
  · rintro ⟨row, here, own, named, active⟩
    obtain ⟨user, listed, same⟩ := sync.known row here own
    obtain ⟨other, there, otherOwn, otherSubject, fields⟩ := sync.listed user listed
    obtain rfl := eq_of_subject s.directory.users.apart there here otherOwn own otherSubject same
    exact ⟨user, listed, Option.some.inj (same.symm.trans named), fields.active.symm.trans active⟩
  · rintro ⟨user, listed, rfl, active⟩
    obtain ⟨row, here, own, subject, fields⟩ := sync.listed user listed
    exact ⟨row, here, own, subject, fields.active.trans active⟩

/-- If no other provider's mapping or user is taken for one of this provider, a sync that wrote and had no
errors has converged exactly if the entries settle the rows, the groups of a team agree, and no team has
members left whose groups are gone. -/
theorem sync_converges_iff (live : service.dryRun = false) (answers : Answers service fuel users groups)
    (unshared : Unshared service groups s.directory) (ran : syncAll service fuel s = (.ok report, next))
    (clean : report.errors = []) :
    Converged service fuel users groups next ↔ Fits service users groups s.directory := by
  obtain ⟨mid, first, second, rfl⟩ := syncAll_ok answers ran
  obtain ⟨⟨existing, rows, lists, written, retired⟩, only⟩ := syncUsers_ok live first
  have noErrors : next.report.errors.length = mid.report.errors.length := by
    rw [clean, only.errors]
  have fetched := syncGroups_fetched live second noErrors
  obtain ⟨last, second', grouped⟩ := syncGroups_ok live mid fetched
  obtain rfl : last = next := (Prod.mk.inj (second'.symm.trans second)).2
  have unsharedMid : Unshared service groups mid.directory :=
    Unshared.after (s := { s with report := {} }) live answers.provided unshared first
  have unsharedLast := unsharedMid.of_same grouped.only.users grouped.only.mappings
  have leads : ∀ groupId teamId, Leads service.provider.name last.directory groupId teamId ↔
      Leads service.provider.name s.directory groupId teamId := by
    intro groupId teamId
    unfold Leads
    rw [grouped.only.mappings, only.mappings]
  have teams : ∀ group ∈ groups, ∀ teamId, teamOfGroup mid.directory group.id = some teamId ↔
      Leads service.provider.name last.directory group.id teamId := by
    intro group inside teamId
    rw [teamOfGroup_eq unsharedMid inside, leads]
    unfold Leads
    rw [only.mappings]
  have quiet : Quiet service fuel last ↔ InSync service.provider.name users last.directory.users.rows ∧
      ∀ group ∈ groups, ∀ teamId, Leads service.provider.name last.directory group.id teamId →
        ∀ id, id ∈ foundIds last.directory.users.rows (membersOf service group) ↔ Held last.directory teamId id := by
    rw [quiet_iff live answers (fun group inside teamId found =>
      fetched group inside teamId ((teams group inside teamId).mpr ((teamOfGroup_eq unsharedLast inside).mp found)))]
    refine and_congr_right (fun _ => forall₂_congr (fun group inside => forall_congr' (fun teamId => ?_)))
    rw [teamOfGroup_eq unsharedLast inside]
  have inSync : InSync service.provider.name users last.directory.users.rows ↔
      Settles service.provider.name users s.directory.users.rows := by
    rw [grouped.only.users]
    exact inSync_iff_settles lists answers.provided s.directory.users.apart written retired
  have lastGroup : ∀ teamId, ∀ group ∈ groups, Leads service.provider.name last.directory group.id teamId →
      ∃ other ∈ groups, Leads service.provider.name last.directory other.id teamId ∧
        ∀ id, Held last.directory teamId id ↔ id ∈ foundIds last.directory.users.rows (membersOf service other) := by
    intro teamId group inside mapped
    obtain ⟨other, member, found, held⟩ := grouped.last teamId group inside ((teams group inside teamId).mpr mapped)
    exact ⟨other, member, (teams other member teamId).mp found, grouped.only.users.symm ▸ held⟩
  have idle : ∀ teamId, (∀ group ∈ groups, ¬ Leads service.provider.name s.directory group.id teamId) →
      ∀ id, Held last.directory teamId id ↔ Held s.directory teamId id := by
    intro teamId absent id
    rw [grouped.others teamId (fun group inside found =>
      absent group inside ((leads _ _).mp ((teams group inside teamId).mp found)))]
    unfold Held
    rw [only.memberships]
  constructor
  · rintro ⟨_, members, still⟩
    obtain ⟨sync, same⟩ := quiet.mp still
    refine ⟨inSync.mp sync, fun a inA b inB teamId leadsA leadsB => ?_, fun groupId teamId mapped absent id held =>
      ?_⟩
    · have leadsA := (leads _ _).mpr leadsA
      have leadsB := (leads _ _).mpr leadsB
      refine (found_subset_iff sync unsharedLast inA inB leadsA leadsB).mp (fun id found => ?_)
      exact (same b inB teamId leadsB id).mpr ((same a inA teamId leadsA id).mp found)
    · obtain ⟨group, inside, here, _⟩ := (members groupId teamId ((leads _ _).mpr mapped) id).mp
          ((idle teamId absent id).mpr held)
      exact absent group inside ((leads _ _).mp here)
  · rintro ⟨settles, agree, gone⟩
    have sync := inSync.mpr settles
    have among : ∀ a ∈ groups, ∀ b ∈ groups, ∀ teamId, Leads service.provider.name last.directory a.id teamId →
        Leads service.provider.name last.directory b.id teamId →
          ∀ id ∈ foundIds last.directory.users.rows (membersOf service a),
        id ∈ foundIds last.directory.users.rows (membersOf service b) := by
      intro a inA b inB teamId leadsA leadsB
      exact (found_subset_iff sync unsharedLast inA inB leadsA leadsB).mpr
        (agree a inA b inB teamId ((leads _ _).mp leadsA) ((leads _ _).mp leadsB))
    have held : ∀ teamId, ∀ group ∈ groups, Leads service.provider.name last.directory group.id teamId →
        ∀ id, id ∈ foundIds last.directory.users.rows (membersOf service group) ↔ Held last.directory teamId id := by
      intro teamId group inside mapped id
      obtain ⟨other, member, mapped', held⟩ := lastGroup teamId group inside mapped
      rw [held]
      exact ⟨among group inside other member teamId mapped mapped' id,
        among other member group inside teamId mapped' mapped id⟩
    refine ⟨sync.active, fun groupId teamId mapped id => ?_,
      quiet.mpr ⟨sync, fun group inside teamId => held teamId group inside⟩⟩
    constructor
    · intro here
      by_cases listed : ∃ group ∈ groups, Leads service.provider.name last.directory group.id teamId
      · obtain ⟨group, inside, leading⟩ := listed
        exact ⟨group, inside, leading, (mem_foundIds unsharedLast inside leading).mp
          ((held teamId group inside leading id).mpr here)⟩
      · have absent : ∀ group ∈ groups, ¬ Leads service.provider.name s.directory group.id teamId :=
          fun group inside leading => listed ⟨group, inside, (leads _ _).mpr leading⟩
        exact absurd ((idle teamId absent id).mp here) (gone groupId teamId ((leads _ _).mp mapped) absent id)
    · rintro ⟨group, inside, leading, known⟩
      exact (held teamId group inside leading id).mp ((mem_foundIds unsharedLast inside leading).mpr known)

end

def ann : IdpUser := { id := "1", email := "ann@site", idpProvider := "github", idpSubject := "ann" }

def ben : IdpUser := { id := "2", email := "ben@site", idpProvider := "github", idpSubject := "ben" }

def organization (groups : List (String × List IdpUser)) : IdpSyncService where
  provider := .gitHub
  client := {
    listUsers := fun _ => .ok ([ann, ben], none)
    listGroups := fun _ => .ok (groups.map (fun e => ⟨e.1, e.1⟩), none)
    getGroupMembers := fun groupId => .ok ((groups.lookup groupId).getD [])
    provides := by
      intro _ users _ listed user member
      cases listed
      have either : user = ann ∨ user = ben := by simpa using member
      rcases either with rfl | rfl <;> rfl }
  newV4 := fun n => if n = 0 then "u1" else "u2"

def unsynced : Session where
  directory :=
    { idpGroupMappings := ⟨[(("all", "github"), "core"), (("staff", "github"), "core")], by decide⟩, memberships := .empty }

theorem organization_answers (groups : List (String × List IdpUser)) :
    Answers (organization groups) 1 [ann, ben] (groups.map (fun e => ⟨e.1, e.1⟩)) where
  users := rfl
  groups := rfl

theorem unsynced_unshared (service : IdpSyncService) (gitHub : service.provider = .gitHub) (groups : List IdpGroup) :
    Unshared service groups unsynced.directory where
  mappings := by
    intro group _ provider teamId leads
    have own : provider = "github" := by
      have here : _ ∈ [((_, _), _), _] := Lib.Table.get_eq_some.mp leads
      rcases mem_pair.mp here with same | same <;> exact congrArg (fun e => e.1.2) same
    subst own
    rw [gitHub]
    exact leads
  subjects := fun _ _ _ _ _ _ _ here => absurd here not_mem_nil

theorem unsynced_settles : Settles "github" [ann, ben] unsynced.directory.users.rows where
  agree := by
    intro a inA b inB same
    rcases mem_pair.mp inA with rfl | rfl <;> rcases mem_pair.mp inB with rfl | rfl
    · exact fun _ fields => fields
    · exact absurd same (by decide)
    · exact absurd same (by decide)
    · exact fun _ fields => fields
  emails := by decide
  kept := fun _ here => absurd here not_mem_nil
  moved := fun _ _ _ _ _ _ here => absurd here not_mem_nil

def oneTeam : IdpSyncService := organization [("all", [ann, ben]), ("staff", [ben, ann])]

theorem sync_converges_iff_sample : Converged oneTeam 1 [ann, ben] [⟨"all", "all"⟩, ⟨"staff", "staff"⟩]
    (syncAll oneTeam 1 unsynced).2 := by
  have ran : syncAll oneTeam 1 unsynced = (.ok { usersCreated := 2, groupsSynced := 2, membershipsAdded := 2 },
      (syncAll oneTeam 1 unsynced).2) :=
    Prod.ext (by rfl) rfl
  refine (sync_converges_iff rfl (organization_answers _) (unsynced_unshared _ rfl _) ran rfl).mpr
    ⟨unsynced_settles, ?_, ?_⟩
  · intro a inA b inB teamId _ _ user listed _
    rcases mem_pair.mp inB with rfl | rfl <;> rcases mem_pair.mp listed with rfl | rfl <;> decide
  · intro _ _ _ _ id
    rw [Held]
    exact Bool.false_ne_true

def twoTeams : IdpSyncService := organization [("all", [ann]), ("staff", [ben])]

theorem apart_groups_do_not_converge :
    ¬ ∀ (service : IdpSyncService) (fuel : Nat) (users : List IdpUser) (groups : List IdpGroup) (s next : Session)
      (report : SyncReport),
      service.dryRun = false → Answers service fuel users groups → syncAll service fuel s = (.ok report, next) →
        report.errors = [] →
        Converged service fuel users groups next := by
  intro all
  have ran : syncAll twoTeams 1 unsynced =
      (.ok { usersCreated := 2, groupsSynced := 2, membershipsAdded := 2, membershipsRemoved := 1 },
        (syncAll twoTeams 1 unsynced).2) :=
    Prod.ext (by rfl) rfl
  have converged := all twoTeams 1 [ann, ben] [⟨"all", "all"⟩, ⟨"staff", "staff"⟩] unsynced _ _ rfl
      (organization_answers _) ran rfl
  have belongs : Belongs twoTeams [⟨"all", "all"⟩, ⟨"staff", "staff"⟩]
      (syncAll twoTeams 1 unsynced).2.directory "core" "u1" := by
    refine ⟨⟨"all", "all"⟩, mem_cons_self, by decide +kernel, ann, mem_cons_self, ann.toRow "u1", ?_,
      rfl, rfl, rfl⟩
    decide +kernel
  have held := (converged.members "all" "core" (by decide +kernel) "u1").mpr belongs
  exact absurd held (by decide +kernel)

end Aeterna.Idp
