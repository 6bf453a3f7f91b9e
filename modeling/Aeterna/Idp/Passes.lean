import Aeterna.Idp.Users
import Aeterna.Lib.Sequences

namespace Aeterna.Idp
open Lib (Eff)
open List Lib.Eff Session

def SyncReport.changes (report : SyncReport) : Nat :=
  report.usersCreated + report.usersUpdated + report.usersDeactivated + report.membershipsAdded +
    report.membershipsRemoved

def Session.changes (s : Session) : Nat := s.report.changes

structure UsersOnly (s next : Session) : Prop where
  mappings : next.directory.idpGroupMappings = s.directory.idpGroupMappings
  memberships : next.directory.memberships = s.directory.memberships
  errors : next.report.errors = s.report.errors

theorem UsersOnly.refl (s : Session) : UsersOnly s s := ⟨rfl, rfl, rfl⟩

theorem UsersOnly.trans {a b c : Session} (first : UsersOnly a b) (second : UsersOnly b c) : UsersOnly a c :=
  ⟨second.mappings.trans first.mappings, second.memberships.trans first.memberships, second.errors.trans first.errors⟩

section
variable {service : IdpSyncService} {existing : List (String × User)} {user : IdpUser} {s next : Session} {u : Unit}

theorem userStatement_ok {f : List User → List User} (ran : userStatement f s = (.ok u, next)) :
    ∃ apart : (f s.directory.users.rows).Pairwise User.Apart,
      next = s.setUsers ⟨f s.directory.users.rows, apart⟩ := by
  have unfolded : userStatement f s =
      (Eff.ofExcept ((UserTable.commit (f s.directory.users.rows)).mapError .databaseError) >>=
        fun users => Eff.modify (setUsers users)) s := rfl
  rw [unfolded, UserTable.commit] at ran
  split at ran
  · rename_i apart
    cases ran
    exact ⟨apart, rfl⟩
  · cases ran

theorem createUser_ok (ran : createUser service user s = (.ok u, next)) :
    ∃ id, (insertRow id user s.directory.users.rows).Pairwise User.Apart ∧
      next.directory.users.rows = insertRow id user s.directory.users.rows ∧ UsersOnly s next ∧
        next.report = s.report := by
  obtain ⟨apart, rfl⟩ := userStatement_ok
    (show userStatement (insertRow (service.newV4 s.drawn) user) { s with drawn := s.drawn + 1 } = (.ok u, next) from
      ran)
  exact ⟨_, apart, rfl, ⟨rfl, rfl, rfl⟩, rfl⟩

theorem updateStatement_ok {id : String} {f : User → User} (ran : userStatement (updateRow id f) s = (.ok u, next)) :
    (updateRow id f s.directory.users.rows).Pairwise User.Apart ∧
      next.directory.users.rows = updateRow id f s.directory.users.rows ∧ UsersOnly s next ∧
        next.report = s.report := by
  obtain ⟨apart, rfl⟩ := userStatement_ok ran
  exact ⟨apart, rfl, ⟨rfl, rfl, rfl⟩, rfl⟩

theorem written_report {write : Synced Unit} (quiet : ∀ s next u, write s = (.ok u, next) → next.report = s.report)
    (ran : written service write s = (.ok u, next)) : next.report = s.report := by
  unfold written at ran
  split at ran
  · cases ran
    rfl
  · exact quiet _ _ _ ran

theorem syncUser_changes (ran : syncUser service existing user s = (.ok u, next)) :
    (next.changes = s.changes ∧ next = s ∧ ∃ row, entryOf existing user.idpSubject = some row ∧ row.Matches user) ∨
      next.changes = s.changes + 1 := by
  unfold syncUser at ran
  cases found : entryOf existing user.idpSubject with
  | some row =>
    rw [found] at ran
    dsimp only at ran
    by_cases due : userNeedsUpdate row user = true
    · rw [if_pos due] at ran
      obtain ⟨_, mid, first, second⟩ := bind_ok ran
      have same := written_report (fun _ _ _ ran => (updateStatement_ok ran).2.2.2) first
      cases second
      refine .inr ?_
      simp only [changes, countUpdated, SyncReport.changes, same]
      omega
    · rw [if_neg due] at ran
      cases ran
      exact .inl ⟨rfl, rfl, row, rfl, userNeedsUpdate_eq_false.mp (Bool.eq_false_iff.mpr due)⟩
  | none =>
    rw [found] at ran
    dsimp only at ran
    obtain ⟨_, mid, first, second⟩ := bind_ok ran
    have same : mid.report = s.report := by
      refine written_report (fun _ _ _ ran => ?_) first
      obtain ⟨_, _, _, _, report⟩ := createUser_ok ran
      exact report
    cases second
    refine .inr ?_
    simp only [changes, countCreated, SyncReport.changes, same]
    omega

theorem syncUser_rows (live : service.dryRun = false) (ran : syncUser service existing user s = (.ok u, next))
    (apart : s.directory.users.rows.Pairwise User.Apart) :
    ∃ id, (stepRows existing id user s.directory.users.rows).Pairwise User.Apart ∧
      next.directory.users.rows = stepRows existing id user s.directory.users.rows ∧ UsersOnly s next := by
  unfold syncUser written at ran
  rw [live] at ran
  unfold stepRows
  cases found : entryOf existing user.idpSubject with
  | some row =>
    rw [found] at ran
    dsimp only at ran ⊢
    by_cases due : userNeedsUpdate row user = true
    · rw [if_pos due] at ran ⊢
      obtain ⟨_, mid, first, second⟩ := bind_ok ran
      obtain ⟨apart', rows, only, _⟩ := updateStatement_ok first
      cases second
      exact ⟨"", apart', rows, ⟨only.mappings, only.memberships, only.errors⟩⟩
    · rw [if_neg due] at ran ⊢
      cases ran
      exact ⟨"", apart, rfl, .refl _⟩
  | none =>
    rw [found] at ran
    dsimp only at ran ⊢
    obtain ⟨_, mid, first, second⟩ := bind_ok ran
    obtain ⟨id, apart', rows, only, _⟩ := createUser_ok first
    cases second
    exact ⟨id, apart', rows, ⟨only.mappings, only.memberships, only.errors⟩⟩

theorem syncUsers_written {users : List IdpUser} (live : service.dryRun = false)
    (ran : forEach (syncUser service existing) users s = (.ok u, next))
    (apart : s.directory.users.rows.Pairwise User.Apart) :
    Written existing users s.directory.users.rows next.directory.users.rows ∧ UsersOnly s next := by
  induction users generalizing s with
  | nil =>
    cases ran
    exact ⟨rfl, .refl _⟩
  | cons user rest ih =>
    obtain ⟨_, mid, first, later⟩ := bind_ok ran
    obtain ⟨id, apart', rows, only⟩ := syncUser_rows live first apart
    rw [← rows] at apart'
    obtain ⟨written, others⟩ := ih later apart'
    rw [rows] at written
    exact ⟨⟨id, rows ▸ apart', written⟩, only.trans others⟩

variable {entry : String × User} {seen : List String}

theorem existingUser_eq_ok {row : User} :
    existingUser row = .ok entry ↔ entry.2 = row ∧ row.idpSubject = some entry.1 := by
  obtain ⟨subject, held⟩ := entry
  unfold existingUser
  cases named : row.idpSubject with
  | none => simp
  | some found =>
    simp only [Except.ok.injEq, Prod.mk.injEq, Option.some_inj]
    exact ⟨fun ⟨a, b⟩ => ⟨b.symm, a⟩, fun ⟨a, b⟩ => ⟨b, a.symm⟩⟩

theorem getExistingUsersByIdp_ok {provider : String} (ran : getExistingUsersByIdp provider s = (.ok existing, next)) :
    next = s ∧ (∀ entry, entry ∈ existing ↔
      entry.2 ∈ s.directory.users.rows ∧ entry.2.Of provider ∧ entry.2.idpSubject = some entry.1) ∧
      ∀ row ∈ s.directory.users.rows, row.Of provider → ∃ entry ∈ existing, entry.2 = row := by
  have unfolded : getExistingUsersByIdp provider s =
      ((s.directory.users.rows.filter (fun row => row.idpProvider = some provider)).mapM existingUser, s) := rfl
  rw [unfolded] at ran
  obtain ⟨read, rfl⟩ := Prod.mk.inj ran
  have same := Lib.mapM_eq_ok.mp read
  refine ⟨rfl, fun entry => ?_, fun row here own => ?_⟩
  swap
  · have read : existingUser row ∈ existing.map .ok := by
      rw [← same]
      exact mem_map.mpr ⟨row, mem_filter.mpr ⟨here, decide_eq_true own⟩, rfl⟩
    obtain ⟨entry, inside, read⟩ := mem_map.mp read
    exact ⟨entry, inside, (existingUser_eq_ok.mp read.symm).1⟩
  have lift : entry ∈ existing ↔ (.ok entry : Except IdpSyncError _) ∈ existing.map .ok := by simp
  rw [lift, ← same, mem_map]
  constructor
  · rintro ⟨row, inside, read⟩
    obtain ⟨rfl, subject⟩ := existingUser_eq_ok.mp read
    obtain ⟨here, own⟩ := mem_filter.mp inside
    exact ⟨here, by simpa [User.Of] using own, subject⟩
  · rintro ⟨here, own, subject⟩
    exact ⟨entry.2, mem_filter.mpr ⟨here, by simpa [User.Of] using own⟩, existingUser_eq_ok.mpr ⟨rfl, subject⟩⟩

theorem lists_of_mem {provider : String} {rows : List User} (apart : rows.Pairwise User.Apart)
    (each : ∀ entry, entry ∈ existing ↔ entry.2 ∈ rows ∧ entry.2.Of provider ∧ entry.2.idpSubject = some entry.1) :
    Lists provider rows existing := by
  intro subject row
  unfold entryOf
  constructor
  · intro found
    obtain ⟨⟨key, held⟩, first, rfl⟩ := Option.map_eq_some_iff.mp found
    have same : key = subject := by simpa using find?_some first
    subst same
    exact (each _).mp (mem_of_find?_eq_some first)
  · rintro ⟨here, own, named⟩
    have member := (each (subject, row)).mpr ⟨here, own, named⟩
    cases first : existing.find? (fun e => e.1 = subject) with
    | none => exact absurd (find?_eq_none.mp first _ member) (by simp)
    | some entry =>
      obtain ⟨key, held⟩ := entry
      have same : key = subject := by simpa using find?_some first
      subst same
      obtain ⟨there, heldOwn, heldNamed⟩ := (each _).mp (mem_of_find?_eq_some first)
      exact congrArg some (eq_of_subject apart there here heldOwn own heldNamed named)

theorem syncExisting_ok (live : service.dryRun = false) (ran : syncExisting service seen entry s = (.ok u, next)) :
    next.directory.users.rows = s.directory.users.rows.map
      (fun row => if entry.1 ∉ seen ∧ row.id = entry.2.id then row.deactivate else row) ∧
      UsersOnly s next := by
  unfold syncExisting written at ran
  rw [live] at ran
  by_cases here : entry.1 ∈ seen
  · rw [if_pos here] at ran
    cases ran
    refine ⟨?_, .refl _⟩
    rw [map_congr_left (fun row _ => if_neg (fun both => both.1 here)), map_id']
  · rw [if_neg here] at ran
    obtain ⟨_, mid, first, second⟩ := bind_ok ran
    obtain ⟨_, rows, only, _⟩ := updateStatement_ok first
    cases second
    refine ⟨rows.trans (map_congr_left (fun row _ => ?_)), ⟨only.mappings, only.memberships, only.errors⟩⟩
    by_cases same : row.id = entry.2.id
    · rw [if_pos same, if_pos ⟨here, same⟩]
    · rw [if_neg same, if_neg (fun both => same both.2)]

theorem syncExisting_rows {entries : List (String × User)} (live : service.dryRun = false)
    (ran : forEach (syncExisting service seen) entries s = (.ok u, next)) :
    (∃ f, next.directory.users.rows = s.directory.users.rows.map f ∧ ∀ row : User,
      ((∃ entry ∈ entries, entry.1 ∉ seen ∧ row.id = entry.2.id) → f row = row.deactivate) ∧
      (¬ (∃ entry ∈ entries, entry.1 ∉ seen ∧ row.id = entry.2.id) → f row = row)) ∧ UsersOnly s next := by
  induction entries generalizing s with
  | nil =>
    cases ran
    refine ⟨⟨fun row => row, (map_id' _).symm, fun row => ⟨?_, fun _ => rfl⟩⟩, .refl _⟩
    rintro ⟨_, absent, _⟩
    exact absurd absent not_mem_nil
  | cons entry rest ih =>
    obtain ⟨_, mid, first, later⟩ := bind_ok ran
    obtain ⟨rows, only⟩ := syncExisting_ok live first
    obtain ⟨⟨f, mapped, each⟩, others⟩ := ih later
    rw [rows, map_map] at mapped
    refine ⟨⟨_, mapped, fun row => ?_⟩, only.trans others⟩
    simp only [mem_cons, exists_eq_or_imp, Function.comp_apply]
    by_cases hit : entry.1 ∉ seen ∧ row.id = entry.2.id
    · rw [if_pos hit]
      refine ⟨fun _ => ?_, fun none => absurd (.inl hit) none⟩
      by_cases again : ∃ other ∈ rest, other.1 ∉ seen ∧ row.deactivate.id = other.2.id
      · exact (each row.deactivate).1 again
      · exact (each row.deactivate).2 again
    · rw [if_neg hit]
      exact ⟨fun some => (each row).1 (some.resolve_left hit),
        fun none => (each row).2 (fun later => none (.inr later))⟩

theorem syncExisting_changes (ran : syncExisting service seen entry s = (.ok u, next)) :
    (next.changes = s.changes ∧ next = s ∧ entry.1 ∈ seen) ∨ next.changes = s.changes + 1 := by
  unfold syncExisting at ran
  by_cases here : entry.1 ∈ seen
  · rw [if_pos here] at ran
    cases ran
    exact .inl ⟨rfl, rfl, here⟩
  · rw [if_neg here] at ran
    obtain ⟨_, mid, first, second⟩ := bind_ok ran
    have same := written_report (fun _ _ _ ran => (updateStatement_ok ran).2.2.2) first
    cases second
    refine .inr ?_
    simp only [changes, countDeactivated, SyncReport.changes, same]
    omega

section
variable {users : List IdpUser}

theorem syncUsers_ok (live : service.dryRun = false) (ran : syncUsers service users s = (.ok u, next)) :
    (∃ existing rows, Lists service.provider.name s.directory.users.rows existing ∧
      Written existing users s.directory.users.rows rows ∧
      Retired service.provider.name users s.directory.users.rows rows next.directory.users.rows) ∧
        UsersOnly s next := by
  obtain ⟨existing, first, listed, passed⟩ := bind_ok ran
  obtain ⟨rfl, each, all⟩ := getExistingUsersByIdp_ok listed
  obtain ⟨_, mid, looped, last⟩ := bind_ok passed
  obtain ⟨written, only⟩ := syncUsers_written live looped first.directory.users.apart
  obtain ⟨⟨f, mapped, each'⟩, others⟩ := syncExisting_rows live last
  refine ⟨⟨existing, _, lists_of_mem first.directory.users.apart each, written, f, mapped, fun row => ?_⟩,
    only.trans others⟩
  have same : Dropped service.provider.name users first.directory.users.rows row ↔
      ∃ entry ∈ existing, entry.1 ∉ users.map IdpUser.idpSubject ∧ row.id = entry.2.id := by
    constructor
    · rintro ⟨old, here, own, unlisted, sameId⟩
      obtain ⟨entry, inside, rfl⟩ := all old here own
      refine ⟨entry, inside, fun seen => unlisted ?_, sameId⟩
      obtain ⟨user, member, subject⟩ := mem_map.mp seen
      exact ⟨user, member, ((each entry).mp inside).2.2.trans (congrArg some subject.symm)⟩
    · rintro ⟨entry, inside, unseen, sameId⟩
      obtain ⟨here, own, subject⟩ := (each entry).mp inside
      refine ⟨entry.2, here, own, ?_, sameId⟩
      rintro ⟨user, member, named⟩
      exact unseen (mem_map.mpr ⟨user, member, Option.some.inj (named.symm.trans subject)⟩)
  rw [same]
  exact each' row

theorem syncUser_grows (ran : syncUser service existing user s = (.ok u, next)) : s.changes ≤ next.changes := by
  rcases syncUser_changes ran with ⟨same, _⟩ | more <;> omega

theorem syncExisting_grows {seen : List String} {entry : String × User}
    (ran : syncExisting service seen entry s = (.ok u, next)) :
    s.changes ≤ next.changes := by
  rcases syncExisting_changes ran with ⟨same, _⟩ | more <;> omega

theorem syncUsers_grows (ran : syncUsers service users s = (.ok u, next)) : s.changes ≤ next.changes := by
  obtain ⟨existing, first, listed, passed⟩ := bind_ok ran
  obtain ⟨rfl, _⟩ := getExistingUsersByIdp_ok listed
  obtain ⟨_, mid, looped, last⟩ := bind_ok passed
  exact Nat.le_trans (forEach_rises (fun _ _ _ _ => syncUser_grows) looped)
    (forEach_rises (fun _ _ _ _ => syncExisting_grows) last)

theorem syncUsers_still (ran : syncUsers service users s = (.ok u, next)) (same : next.changes = s.changes) :
    next = s ∧ InSync service.provider.name users s.directory.users.rows := by
  obtain ⟨existing, first, listed, passed⟩ := bind_ok ran
  obtain ⟨rfl, each, all⟩ := getExistingUsersByIdp_ok listed
  obtain ⟨_, mid, looped, last⟩ := bind_ok passed
  have low := forEach_rises (fun _ _ _ _ => syncUser_grows) looped
  have high := forEach_rises (fun _ _ _ _ => syncExisting_grows) last
  have lists := lists_of_mem first.directory.users.apart each
  obtain ⟨rfl, found⟩ := forEach_still (I := (· = first))
    (P := fun user => ∃ row, entryOf existing user.idpSubject = some row ∧ row.Matches user)
      (fun _ _ _ _ => syncUser_grows)
    (by
      rintro user c next u rfl ran unchanged
      rcases syncUser_changes ran with ⟨_, kept, fits⟩ | more
      · exact ⟨kept, fits⟩
      · omega) rfl looped (by omega)
  obtain ⟨rfl, seen⟩ := forEach_still (I := (· = mid)) (P := fun entry => entry.1 ∈ users.map IdpUser.idpSubject)
    (fun _ _ _ _ => syncExisting_grows)
    (by
      rintro entry c next u rfl ran unchanged
      rcases syncExisting_changes ran with ⟨_, kept, member⟩ | more
      · exact ⟨kept, member⟩
      · omega) rfl last (by omega)
  refine ⟨rfl, fun user member => ?_, fun row here own => ?_⟩
  · obtain ⟨row, entry, fields⟩ := found user member
    obtain ⟨here, own, subject⟩ := (lists _ _).mp entry
    exact ⟨row, here, own, subject, fields⟩
  · obtain ⟨entry, inside, rfl⟩ := all row here own
    obtain ⟨user, member, subject⟩ := mem_map.mp (seen entry inside)
    exact ⟨user, member, ((each entry).mp inside).2.2.trans (congrArg some subject.symm)⟩

theorem syncUsers_quiet (sync : InSync service.provider.name users s.directory.users.rows) :
    syncUsers service users s = (.ok (), s) := by
  have decoded : ∃ existing, getExistingUsersByIdp service.provider.name s = (.ok existing, s) := by
    refine ⟨(s.directory.users.rows.filter (fun row => row.idpProvider = some service.provider.name)).map
      (fun row => (row.idpSubject.getD "", row)), Prod.ext (Lib.mapM_eq_ok.mpr ?_) rfl⟩
    rw [map_map]
    refine map_congr_left (fun row inside => ?_)
    obtain ⟨here, own⟩ := mem_filter.mp inside
    obtain ⟨user, _, subject⟩ := sync.known row here (by simpa [User.Of] using own)
    refine existingUser_eq_ok.mpr ⟨rfl, ?_⟩
    show row.idpSubject = some (row.idpSubject.getD "")
    rw [subject]
    rfl
  obtain ⟨existing, listed⟩ := decoded
  obtain ⟨_, each, _⟩ := getExistingUsersByIdp_ok listed
  have lists := lists_of_mem s.directory.users.apart each
  have looped : forEach (syncUser service existing) users s = (.ok (), s) := by
    refine forEach_idle (fun user member => ?_)
    obtain ⟨row, here, own, subject, fields⟩ := sync.listed user member
    unfold syncUser
    rw [(lists _ _).mpr ⟨here, own, subject⟩]
    show (if userNeedsUpdate row user = true then _ else _ : Synced Unit) s = _
    rw [userNeedsUpdate_eq_false.mpr fields]
    rfl
  have last : forEach (syncExisting service (users.map IdpUser.idpSubject)) existing s = (.ok (), s) := by
    refine forEach_idle (fun entry inside => ?_)
    obtain ⟨here, own, subject⟩ := (each entry).mp inside
    obtain ⟨user, member, named⟩ := sync.known entry.2 here own
    have seen : entry.1 ∈ users.map IdpUser.idpSubject :=
      mem_map.mpr ⟨user, member, Option.some.inj (named.symm.trans subject)⟩
    unfold syncExisting
    rw [if_pos seen]
    rfl
  exact (bind_of_ok listed).trans ((bind_of_ok looped).trans last)

end

end

end Aeterna.Idp
