import Aeterna.Idp.Sync
import Mathlib.Data.List.Pairwise

namespace Aeterna.Idp
open List

theorem User.Apart.symm {a b : User} (apart : a.Apart b) : b.Apart a :=
  ⟨Ne.symm apart.1, Ne.symm apart.2.1, fun ⟨first, second, provider, subject⟩ =>
    apart.2.2 ⟨provider ▸ first, subject ▸ second, provider.symm, subject.symm⟩⟩

instance : Std.Symm User.Apart := ⟨fun _ _ apart => apart.symm⟩

section
variable {rows : List User} {a b : User}

section
variable (apart : rows.Pairwise User.Apart) (inA : a ∈ rows) (inB : b ∈ rows)
include apart inA inB

theorem apart_of_ne (differ : a ≠ b) : a.Apart b :=
  apart.forall inA inB differ

theorem eq_of_id (same : a.id = b.id) : a = b :=
  Classical.byContradiction (fun differ => (apart_of_ne apart inA inB differ).1 same)

theorem eq_of_email (same : a.email = b.email) : a = b :=
  Classical.byContradiction (fun differ => (apart_of_ne apart inA inB differ).2.1 same)

end

def User.Of (provider : String) (row : User) : Prop := row.idpProvider = some provider

theorem eq_of_subject (apart : rows.Pairwise User.Apart) (inA : a ∈ rows) (inB : b ∈ rows)
    {provider subject : String} (ofA : a.Of provider) (ofB : b.Of provider) (subA : a.idpSubject = some subject)
    (subB : b.idpSubject = some subject) : a = b := by
  refine Classical.byContradiction (fun differ => (apart_of_ne apart inA inB differ).2.2 ⟨?_, ?_, ?_, ?_⟩)
  · exact Option.isSome_of_eq_some ofA
  · exact Option.isSome_of_eq_some subA
  · exact ofA.trans ofB.symm
  · exact subA.trans subB.symm

end

structure User.Matches (row : User) (user : IdpUser) : Prop where
  email : row.email = user.email
  firstName : row.firstName = user.firstName
  lastName : row.lastName = user.lastName
  displayName : row.displayName = user.displayName
  active : row.isActive = user.active

theorem userNeedsUpdate_eq_false {row : User} {user : IdpUser} : userNeedsUpdate row user = false ↔
    row.Matches user := by
  unfold userNeedsUpdate
  simp only [Bool.or_eq_false_iff, bne_eq_false_iff_eq, decide_eq_false_iff_not, not_not]
  constructor
  · rintro ⟨⟨⟨⟨email, first⟩, last⟩, display⟩, active⟩
    exact ⟨email, first, last, display, active.symm⟩
  · intro m
    exact ⟨⟨⟨⟨m.email, m.firstName⟩, m.lastName⟩, m.displayName⟩, m.active.symm⟩

theorem IdpUser.toRow_matches (id : String) (user : IdpUser) : (user.toRow id).Matches user :=
  ⟨rfl, rfl, rfl, rfl, rfl⟩

/-- Two entries have the same fields. -/
def IdpUser.Agrees (a b : IdpUser) : Prop := ∀ row : User, row.Matches a → row.Matches b

theorem IdpUser.agrees_of_matches {a b : IdpUser} {row : User} (first : row.Matches a) (second : row.Matches b) :
    a.Agrees b := fun _ m =>
  ⟨m.email.trans (first.email.symm.trans second.email),
    m.firstName.trans (first.firstName.symm.trans second.firstName),
    m.lastName.trans (first.lastName.symm.trans second.lastName),
    m.displayName.trans (first.displayName.symm.trans second.displayName),
      m.active.trans (first.active.symm.trans second.active)⟩

theorem IdpUser.Agrees.active {a b : IdpUser} (agrees : a.Agrees b) : a.active = b.active :=
  (agrees _ (a.toRow_matches a.id)).active

def Listed (users : List IdpUser) (row : User) : Prop := ∃ user ∈ users, row.idpSubject = some user.idpSubject

def New (provider : String) (rows : List User) (user : IdpUser) : Prop :=
  ∀ row ∈ rows, row.Of provider → row.idpSubject ≠ some user.idpSubject

structure InSync (provider : String) (users : List IdpUser) (rows : List User) : Prop where
  listed : ∀ user ∈ users, ∃ row ∈ rows, row.Of provider ∧ row.idpSubject = some user.idpSubject ∧ row.Matches user
  known : ∀ row ∈ rows, row.Of provider → Listed users row

/-- The entries that bring rows in line. Entries of one subject agree, and those of different subjects have
different emails. A row that is not listed is taken over by a new entry that is not active. A new entry comes
behind those of the listed row that has its email. -/
structure Settles (provider : String) (users : List IdpUser) (rows : List User) : Prop where
  agree : ∀ a ∈ users, ∀ b ∈ users, a.idpSubject = b.idpSubject → a.Agrees b
  emails : ∀ a ∈ users, ∀ b ∈ users, a.email = b.email → a.idpSubject = b.idpSubject
  kept : ∀ row ∈ rows, row.Of provider → Listed users row ∨ ∃ user ∈ users, New provider rows user ∧
    user.email = row.email ∧ user.active = false
  moved : ∀ done user rest, users = done ++ user :: rest → New provider rows user → ∀ row ∈ rows, row.Of provider →
    Listed users row → row.email = user.email → Listed done row

def stepRows (existing : List (String × User)) (id : String) (user : IdpUser) (rows : List User) : List User :=
  match entryOf existing user.idpSubject with
  | some row => if userNeedsUpdate row user then updateRow row.id (User.overwrite user) rows else rows
  | none => insertRow id user rows

def Lists (provider : String) (rows : List User) (existing : List (String × User)) : Prop :=
  ∀ subject row, entryOf existing subject = some row ↔ row ∈ rows ∧ row.Of provider ∧ row.idpSubject = some subject

theorem Lists.entry_none {provider : String} {rows : List User} {existing : List (String × User)}
    (lists : Lists provider rows existing) {user : IdpUser} :
    entryOf existing user.idpSubject = none ↔ New provider rows user := by
  constructor
  · intro none row member own same
    rw [(lists user.idpSubject row).mpr ⟨member, own, same⟩] at none
    cases none
  · intro fresh
    cases found : entryOf existing user.idpSubject with
    | none => rfl
    | some row =>
      obtain ⟨member, own, same⟩ := (lists _ _).mp found
      exact absurd same (fresh row member own)

def Written (existing : List (String × User)) : List IdpUser → List User → List User → Prop
  | [], rows, last => last = rows
  | user :: rest, rows, last =>
    ∃ id, (stepRows existing id user rows).Pairwise User.Apart ∧
      Written existing rest (stepRows existing id user rows) last

theorem Written.keeps {existing : List (String × User)} {users : List IdpUser} {J : List IdpUser → List User → Prop}
    (step : ∀ done user rest id rows, users = done ++ user :: rest → rows.Pairwise User.Apart → J done rows →
      (stepRows existing id user rows).Pairwise User.Apart → J (done ++ [user]) (stepRows existing id user rows))
    {done rest : List IdpUser} {rows last : List User} (split : users = done ++ rest)
    (apart : rows.Pairwise User.Apart)
    (holds : J done rows) (written : Written existing rest rows last) : J users last ∧ last.Pairwise User.Apart := by
  induction rest generalizing done rows with
  | nil =>
    rw [append_nil] at split
    cases written
    exact split ▸ ⟨holds, apart⟩
  | cons user rest ih =>
    obtain ⟨id, next, written⟩ := written
    refine ih ?_ next (step done user rest id rows split apart holds next) written
    rw [split, append_assoc]
    rfl

/-- The step for an entry maps the rows, which keep their ids, or adds a row to them. -/
inductive Step (provider : String) (start : List User) (user : IdpUser) (rows : List User) : List User → Prop where
  | idle {row : User} (here : row ∈ start) (own : row.Of provider) (subject : row.idpSubject = some user.idpSubject)
      (same : row.Matches user) : Step provider start user rows rows
  | update {row : User} (here : row ∈ start) (own : row.Of provider)
      (subject : row.idpSubject = some user.idpSubject) :
      Step provider start user rows (rows.map (fun r => if r.id = row.id then r.overwrite user else r))
  | take {row : User} (fresh : New provider start user) (here : row ∈ rows) (email : row.email = user.email) :
      Step provider start user rows (rows.map (fun r => if r.email = user.email then r.takeOver user else r))
  | insert (fresh : New provider start user) (absent : ∀ row ∈ rows, row.email ≠ user.email) (id : String) :
      Step provider start user rows (rows ++ [user.toRow id])

theorem step_of_stepRows {provider : String} {start : List User} {existing : List (String × User)}
    (lists : Lists provider start existing) (id : String) (user : IdpUser) (rows : List User) :
      Step provider start user rows (stepRows existing id user rows) := by
  unfold stepRows
  cases found : entryOf existing user.idpSubject with
  | some row =>
    obtain ⟨here, own, subject⟩ := (lists _ _).mp found
    dsimp only
    split
    · exact .update here own subject
    · rename_i fine
      exact .idle here own subject (userNeedsUpdate_eq_false.mp (Bool.eq_false_iff.mpr fine))
  | none =>
    have fresh := lists.entry_none.mp found
    dsimp only
    unfold insertRow
    split
    · rename_i hit
      obtain ⟨row, here, email⟩ := any_eq_true.mp hit
      exact .take fresh here (of_decide_eq_true email)
    · rename_i missing
      refine .insert fresh (fun row here email => missing ?_) id
      exact any_eq_true.mpr ⟨row, here, decide_eq_true email⟩

section
variable {provider : String} {users : List IdpUser} {start : List User}

/-- How far the rows are in line after the steps for some of the entries. -/
structure Progress (provider : String) (users : List IdpUser) (start : List User) (done : List IdpUser)
    (rows : List User) : Prop where
  /-- A processed entry has its row: the one that it had, and a row that is not listed only if the entry is not
  active. -/
  listed : ∀ user ∈ done, ∃ row ∈ rows, row.Of provider ∧ row.idpSubject = some user.idpSubject ∧
    row.Matches user ∧ (∀ old ∈ start, old.Of provider → old.idpSubject = some user.idpSubject → row.id = old.id) ∧
    (∀ old ∈ start, old.Of provider → ¬ Listed users old → row.id = old.id → user.active = false)
  known : ∀ row ∈ rows, row.Of provider → row ∈ start ∨ Listed done row
  waiting : ∀ row ∈ start, row.Of provider → Listed users row → ¬ Listed done row → row ∈ rows
  ids : ∀ old ∈ start, ∃ row ∈ rows, row.id = old.id
  own : ∀ old ∈ start, old.Of provider → ∀ row ∈ rows, row.id = old.id → row.Of provider

theorem Listed.append {done : List IdpUser} {row : User} (listed : Listed done row) (user : IdpUser) :
    Listed (done ++ [user]) row := by
  obtain ⟨entry, inside, subject⟩ := listed
  exact ⟨entry, mem_append_left _ inside, subject⟩

theorem Progress.init (apart : start.Pairwise User.Apart) : Progress provider users start [] start where
  listed := fun _ member => absurd member not_mem_nil
  known := fun _ member _ => .inl member
  waiting := fun _ member _ _ _ => member
  ids := fun old member => ⟨old, member, rfl⟩
  own := fun _ member own _ other same => eq_of_id apart other member same ▸ own

theorem Progress.step {done : List IdpUser} {user : IdpUser} {rows next : List User} {row : User}
    (progress : Progress provider users start done rows)
    (agree : ∀ other ∈ done, other.idpSubject = user.idpSubject → user.Agrees other)
    (here : row ∈ next) (own : row.Of provider) (subject : row.idpSubject = some user.idpSubject)
    (fields : row.Matches user)
    (same : ∀ old ∈ start, old.Of provider → old.idpSubject = some user.idpSubject → row.id = old.id)
    (idle : ∀ old ∈ start, old.Of provider → ¬ Listed users old → row.id = old.id → user.active = false)
    (stay : ∀ old ∈ rows, old ∈ next ∨ old.id = row.id ∧
      (old.Of provider → ∀ other ∈ done, old.idpSubject = some other.idpSubject →
        other.idpSubject = user.idpSubject) ∧
      (old ∈ start → old.Of provider → Listed users old → Listed (done ++ [user]) old))
    (origin : ∀ old ∈ next, old = row ∨ old ∈ rows) : Progress provider users start (done ++ [user]) next where
  listed := by
    intro entry member
    rcases mem_append.mp member with earlier | last
    · obtain ⟨old, inside, oldOwn, oldSubject, oldMatches, oldSame, oldIdle⟩ := progress.listed entry earlier
      rcases stay old inside with kept | ⟨_, merged, _⟩
      · exact ⟨old, kept, oldOwn, oldSubject, oldMatches, oldSame, oldIdle⟩
      · have equal := merged oldOwn entry earlier oldSubject
        have agrees := agree entry earlier equal
        refine ⟨row, here, own, equal ▸ subject, agrees row fields, equal ▸ same,
          fun other there otherOwn unlisted sameId => ?_⟩
        rw [← agrees.active]
        exact idle other there otherOwn unlisted sameId
    · rw [mem_singleton.mp last]
      exact ⟨row, here, own, subject, fields, same, idle⟩
  known := by
    intro old inside oldOwn
    rcases origin old inside with rfl | before
    · exact .inr ⟨user, mem_append_right _ (mem_singleton_self _), subject⟩
    · exact (progress.known old before oldOwn).imp_right (·.append user)
  waiting := by
    intro old before oldOwn listed waiting
    have held := progress.waiting old before oldOwn listed (fun now => waiting (now.append user))
    rcases stay old held with kept | ⟨_, _, handled⟩
    · exact kept
    · exact absurd (handled before oldOwn listed) waiting
  ids := by
    intro old before
    obtain ⟨held, inside, sameId⟩ := progress.ids old before
    rcases stay held inside with kept | ⟨equal, _, _⟩
    · exact ⟨held, kept, sameId⟩
    · exact ⟨row, here, equal.symm.trans sameId⟩
  own := by
    intro old before oldOwn held inside sameId
    rcases origin held inside with rfl | earlier
    · exact own
    · exact progress.own old before oldOwn held earlier sameId

section
variable {c : User → Prop} [DecidablePred c] {f : User → User} {rows : List User} {row held : User}
  (only : ∀ other ∈ rows, c other → other = row)
include only

theorem mem_of_map_one (there : held ∈ rows.map (fun r => if c r then f r else r)) : held = f row ∨ held ∈ rows := by
  obtain ⟨origin, inside, rfl⟩ := mem_map.mp there
  by_cases hit : c origin
  · rw [if_pos hit, only origin inside hit]
    exact .inl rfl
  · rw [if_neg hit]
    exact .inr inside

theorem mem_map_one (there : held ∈ rows) : held ∈ rows.map (fun r => if c r then f r else r) ∨ held = row := by
  by_cases hit : c held
  · exact .inr (only held there hit)
  · exact .inl (mem_map.mpr ⟨held, there, if_neg hit⟩)

end

section
variable {done rest : List IdpUser} {user : IdpUser} {rows next : List User} {row : User}
  (progress : Progress provider users start done rows) (settles : Settles provider users start)
  (split : users = done ++ user :: rest)

include split in
theorem mem_of_split : user ∈ users ∧ ∀ entry ∈ done, entry ∈ users :=
  ⟨split ▸ mem_append_right _ mem_cons_self, fun _ earlier => split ▸ mem_append_left _ earlier⟩

include settles split in
theorem Settles.agrees : ∀ other ∈ done, other.idpSubject = user.idpSubject → user.Agrees other :=
  fun other earlier same => settles.agree user (mem_of_split split).1 other ((mem_of_split split).2 other earlier)
    same.symm

include progress settles split

theorem Progress.hit (apart : rows.Pairwise User.Apart) (fresh : New provider start user)
    (here : row ∈ rows) (email : row.email = user.email) (own : row.Of provider) :
    (∃ entry ∈ done, row.idpSubject = some entry.idpSubject ∧ entry.idpSubject = user.idpSubject) ∨ row ∈ start ∧
      ¬ Listed users row := by
  obtain ⟨member, inside⟩ := mem_of_split split
  by_cases processed : Listed done row
  · obtain ⟨entry, earlier, subject⟩ := processed
    obtain ⟨held, there, heldOwn, heldSubject, fields, _⟩ := progress.listed entry earlier
    obtain rfl := eq_of_subject apart here there own heldOwn subject heldSubject
    exact .inl ⟨entry, earlier, subject, settles.emails entry (inside entry earlier) user member
      (fields.email.symm.trans email)⟩
  · have before := (progress.known row here own).resolve_right processed
    refine .inr ⟨before, fun listed => processed ?_⟩
    exact settles.moved done user rest split fresh row before own listed email

variable {old : User}

theorem Progress.current (before : old ∈ start) (own : old.Of provider)
    (subject : old.idpSubject = some user.idpSubject) :
    ∃ row ∈ rows, row.id = old.id ∧ row.Of provider ∧ row.idpSubject = some user.idpSubject ∧
      (old.Matches user → row.Matches user) := by
  obtain ⟨member, inside⟩ := mem_of_split split
  by_cases processed : Listed done old
  · obtain ⟨entry, earlier, entrySubject⟩ := processed
    have equal : entry.idpSubject = user.idpSubject := Option.some.inj (entrySubject.symm.trans subject)
    obtain ⟨row, here, rowOwn, rowSubject, fields, same, _⟩ := progress.listed entry earlier
    refine ⟨row, here, same old before own entrySubject, rowOwn, equal ▸ rowSubject, fun _ => ?_⟩
    exact settles.agree entry (inside entry earlier) user member equal row fields
  · exact ⟨old, progress.waiting old before own ⟨user, member, subject⟩ processed, rfl, own, subject, id⟩

omit progress settles in
theorem only_current (startApart : start.Pairwise User.Apart) (before : old ∈ start)
    (own : old.Of provider) (subject : old.idpSubject = some user.idpSubject) (sameId : row.id = old.id) :
    (∀ other ∈ start, other.Of provider → other.idpSubject = some user.idpSubject → row.id = other.id) ∧
      ∀ other ∈ start, other.Of provider → ¬ Listed users other → row.id = other.id → user.active = false := by
  refine ⟨fun other there otherOwn otherSubject => ?_, fun other there _ unlisted equal => ?_⟩
  · rw [eq_of_subject startApart there before otherOwn own otherSubject subject]
    exact sameId
  · have equalRows := eq_of_id startApart there before (equal.symm.trans sameId)
    exact absurd ⟨user, (mem_of_split split).1, equalRows ▸ subject⟩ unlisted

theorem Progress.update (startApart : start.Pairwise User.Apart) (apart : rows.Pairwise User.Apart)
    (before : old ∈ start) (own : old.Of provider) (subject : old.idpSubject = some user.idpSubject) :
    Progress provider users start (done ++ [user])
      (rows.map (fun r => if r.id = old.id then r.overwrite user else r)) := by
  obtain ⟨row, here, sameId, rowOwn, rowSubject, _⟩ := progress.current settles split before own subject
  have sameId' : (row.overwrite user).id = old.id := sameId
  obtain ⟨same, idle⟩ := only_current split startApart before own subject sameId'
  have only : ∀ other ∈ rows, other.id = old.id → other = row :=
    fun _ there equal => eq_of_id apart there here (equal.trans sameId.symm)
  refine progress.step (settles.agrees split) (mem_map.mpr ⟨row, here, if_pos sameId⟩) rowOwn rowSubject
    ⟨rfl, rfl, rfl, rfl, rfl⟩ same idle (fun held there => ?_) (fun _ there => mem_of_map_one only there)
  rcases mem_map_one only there with stays | rfl
  · exact .inl stays
  · refine .inr ⟨rfl, fun _ other _ otherSubject => ?_, fun _ _ _ => ?_⟩
    · exact Option.some.inj (otherSubject.symm.trans rowSubject)
    · exact ⟨user, mem_append_right _ (mem_singleton_self _), rowSubject⟩

theorem Progress.take (apart : rows.Pairwise User.Apart) (provided : user.idpProvider = provider)
    (fresh : New provider start user) (here : row ∈ rows) (email : row.email = user.email) :
    Progress provider users start (done ++ [user])
      (rows.map (fun r => if r.email = user.email then r.takeOver user else r)) := by
  obtain ⟨member, inside⟩ := mem_of_split split
  have own : (row.takeOver user).Of provider := congrArg some provided
  have only : ∀ other ∈ rows, other.email = user.email → other = row :=
    fun _ there equal => eq_of_email apart there here (equal.trans email.symm)
  refine progress.step (settles.agrees split) (mem_map.mpr ⟨row, here, if_pos email⟩) own rfl
    ⟨email, rfl, rfl, rfl, rfl⟩ (fun old before oldOwn subject => absurd subject (fresh old before oldOwn)) ?_ ?_
    (fun _ there => mem_of_map_one only there)
  · intro old before oldOwn unlisted sameId
    have rowOwn := progress.own old before oldOwn row here sameId
    rcases progress.hit settles split apart fresh here email rowOwn with ⟨entry, earlier, subject, equal⟩ |
      ⟨there, lost⟩
    · obtain ⟨held, heldHere, heldOwn, heldSubject, _, _, idle⟩ := progress.listed entry earlier
      obtain rfl := eq_of_subject apart here heldHere rowOwn heldOwn subject heldSubject
      rw [← (settles.agree entry (inside entry earlier) user member equal).active]
      exact idle old before oldOwn unlisted sameId
    · obtain ⟨taker, takes, _, takerEmail, inactive⟩ := (settles.kept row there rowOwn).resolve_left lost
      have equal := settles.emails taker takes user member (takerEmail.trans email)
      rw [← (settles.agree taker takes user member equal).active]
      exact inactive
  · intro held there
    rcases mem_map_one only there with stays | rfl
    · exact .inl stays
    · refine .inr ⟨rfl, fun heldOwn other earlier subject => ?_, fun before heldOwn listed => ?_⟩
      · rcases progress.hit settles split apart fresh here email heldOwn with ⟨entry, _, entrySubject, same⟩ |
          ⟨_, lost⟩
        · exact (Option.some.inj (subject.symm.trans entrySubject)).trans same
        · exact absurd ⟨other, inside other earlier, subject⟩ lost
      · rcases progress.hit settles split apart fresh here email heldOwn with ⟨entry, earlier, entrySubject, _⟩ |
          ⟨_, lost⟩
        · exact Listed.append ⟨entry, earlier, entrySubject⟩ user
        · exact absurd listed lost

theorem Progress.advance (startApart : start.Pairwise User.Apart) (provided : user.idpProvider = provider)
    (apart : rows.Pairwise User.Apart) (nextApart : next.Pairwise User.Apart)
    (step : Step provider start user rows next) : Progress provider users start (done ++ [user]) next := by
  cases step with
  | @idle old before own subject fields =>
    obtain ⟨row, here, sameId, rowOwn, rowSubject, rowFields⟩ := progress.current settles split before own subject
    obtain ⟨same, idle⟩ := only_current split startApart before own subject sameId
    exact progress.step (settles.agrees split) here rowOwn rowSubject (rowFields fields) same idle
      (fun _ held => .inl held) (fun _ held => .inr held)
  | update before own subject => exact progress.update settles split startApart apart before own subject
  | take fresh here email => exact progress.take settles split apart provided fresh here email
  | insert fresh absent id =>
    have own : (user.toRow id).Of provider := congrArg some provided
    have added : user.toRow id ∈ rows ++ [user.toRow id] := mem_append_right _ (mem_singleton_self _)
    refine progress.step (settles.agrees split) added own rfl (user.toRow_matches id)
      (fun old before oldOwn subject => absurd subject (fresh old before oldOwn)) ?_
      (fun _ held => .inl (mem_append_left _ held)) ?_
    · intro old before oldOwn _ sameId
      obtain ⟨held, there, heldId⟩ := progress.ids old before
      have equal := eq_of_id nextApart (mem_append_left _ there) added (heldId.trans sameId.symm)
      exact absurd (congrArg User.email equal) (absent held there)
    · intro held there
      rcases mem_append.mp there with earlier | last
      · exact .inr earlier
      · exact .inl (mem_singleton.mp last)

end

def Dropped (provider : String) (users : List IdpUser) (start : List User) (row : User) : Prop :=
  ∃ old ∈ start, old.Of provider ∧ ¬ Listed users old ∧ row.id = old.id

def Retired (provider : String) (users : List IdpUser) (start rows last : List User) : Prop :=
  ∃ f : User → User, last = rows.map f ∧ ∀ row, (Dropped provider users start row → f row = row.deactivate) ∧
    (¬ Dropped provider users start row → f row = row)

theorem Retired.mem_iff {rows last : List User} (retired : Retired provider users start rows last) {row : User} :
    row ∈ last ↔ ∃ before ∈ rows, (Dropped provider users start before ∧ row = before.deactivate) ∨
      (¬ Dropped provider users start before ∧ row = before) := by
  obtain ⟨f, rfl, each⟩ := retired
  rw [mem_map]
  constructor
  · rintro ⟨before, here, rfl⟩
    by_cases dropped : Dropped provider users start before
    · exact ⟨before, here, .inl ⟨dropped, (each before).1 dropped⟩⟩
    · exact ⟨before, here, .inr ⟨dropped, (each before).2 dropped⟩⟩
  · rintro ⟨before, here, ⟨dropped, rfl⟩ | ⟨kept, rfl⟩⟩
    · exact ⟨before, here, (each before).1 dropped⟩
    · exact ⟨row, here, (each row).2 kept⟩

theorem User.deactivate_of_inactive {row : User} (inactive : row.isActive = false) : row.deactivate = row := by
  cases row
  cases inactive
  rfl

theorem Progress.inSync {rows last : List User} (progress : Progress provider users start users rows)
    (settles : Settles provider users start) (apart : rows.Pairwise User.Apart)
    (retired : Retired provider users start rows last) :
    InSync provider users last where
  listed := by
    intro user member
    obtain ⟨row, here, own, subject, fields, _, idle⟩ := progress.listed user member
    refine ⟨row, retired.mem_iff.mpr ⟨row, here, ?_⟩, own, subject, fields⟩
    by_cases dropped : Dropped provider users start row
    · obtain ⟨old, before, oldOwn, unlisted, sameId⟩ := dropped
      have inactive : row.isActive = false := fields.active.trans (idle old before oldOwn unlisted sameId)
      exact .inl ⟨⟨old, before, oldOwn, unlisted, sameId⟩, (User.deactivate_of_inactive inactive).symm⟩
    · exact .inr ⟨dropped, rfl⟩
  known := by
    intro row inside own
    obtain ⟨before, here, same⟩ := retired.mem_iff.mp inside
    have kept : row.idpSubject = before.idpSubject ∧ row.idpProvider = before.idpProvider := by
      obtain ⟨_, rfl⟩ | ⟨_, rfl⟩ := same <;> exact ⟨rfl, rfl⟩
    have ownBefore : before.Of provider := kept.2.symm.trans own
    suffices listed : Listed users before by
      obtain ⟨user, member, subject⟩ := listed
      exact ⟨user, member, kept.1.trans subject⟩
    rcases progress.known before here ownBefore with old | listed
    · obtain listed | ⟨user, member, _, email, _⟩ := settles.kept before old ownBefore
      · exact listed
      · obtain ⟨taken, there, _, subject, fields, _⟩ := progress.listed user member
        obtain rfl := eq_of_email apart here there (email.symm.trans fields.email.symm)
        exact ⟨user, member, subject⟩
    · exact listed

section
variable {rows last : List User}

section
variable (sync : InSync provider users last) (apart : last.Pairwise User.Apart) {a b : IdpUser}
  (inA : a ∈ users) (inB : b ∈ users)
include sync apart inA inB

theorem InSync.agree (same : a.idpSubject = b.idpSubject) : a.Agrees b := by
  obtain ⟨row, here, own, subject, fields⟩ := sync.listed a inA
  obtain ⟨other, there, otherOwn, otherSubject, otherFields⟩ := sync.listed b inB
  obtain rfl := eq_of_subject apart here there own otherOwn subject (same ▸ otherSubject)
  exact IdpUser.agrees_of_matches fields otherFields

theorem InSync.emails (same : a.email = b.email) : a.idpSubject = b.idpSubject := by
  obtain ⟨row, here, _, subject, fields⟩ := sync.listed a inA
  obtain ⟨other, there, _, otherSubject, otherFields⟩ := sync.listed b inB
  obtain rfl := eq_of_email apart here there (fields.email.trans (same.trans otherFields.email.symm))
  exact Option.some.inj (subject.symm.trans otherSubject)

end

def Traced (provider : String) (start : List User) (old : User) (done : List IdpUser) (rows : List User) : Prop :=
  ∃ row ∈ rows, row.id = old.id ∧ row.Of provider ∧ (¬ Listed done old → row.email = old.email) ∧
    (row.idpSubject = old.idpSubject ∨
      ∃ user ∈ done, New provider start user ∧ (¬ Listed done old → user.email = old.email) ∧
        row.idpSubject = some user.idpSubject)

variable {old : User}

theorem Traced.step {done : List IdpUser} {user : IdpUser} (provided : user.idpProvider = provider)
    (startApart : start.Pairwise User.Apart) (before : old ∈ start)
    (traced : Traced provider start old done rows) (step : Step provider start user rows last) :
    Traced provider start old (done ++ [user]) last := by
  obtain ⟨row, here, sameId, rowOwn, email, subject⟩ := traced
  have earlier : ¬ Listed (done ++ [user]) old → ¬ Listed done old := fun absent listed => absent (listed.append user)
  have stays : row.idpSubject = old.idpSubject ∨ ∃ entry ∈ done ++ [user], New provider start entry ∧
      (¬ Listed (done ++ [user]) old → entry.email = old.email) ∧ row.idpSubject = some entry.idpSubject := by
    refine subject.imp_right ?_
    rintro ⟨entry, member, fresh, had, same⟩
    exact ⟨entry, mem_append_left _ member, fresh, fun absent => had (earlier absent), same⟩
  cases step with
  | idle => exact ⟨row, here, sameId, rowOwn, fun absent => email (earlier absent), stays⟩
  | @update other there otherOwn otherSubject =>
    by_cases hit : row.id = other.id
    · have same := eq_of_id startApart there before (hit.symm.trans sameId)
      refine ⟨row.overwrite user, mem_map.mpr ⟨row, here, if_pos hit⟩, sameId, rowOwn, fun absent => ?_, stays⟩
      exact absurd ⟨user, mem_append_right _ (mem_singleton_self _), same ▸ otherSubject⟩ absent
    · exact ⟨row, mem_map.mpr ⟨row, here, if_neg hit⟩, sameId, rowOwn, fun absent => email (earlier absent),
        stays⟩
  | @take taken fresh there takenEmail =>
    by_cases hit : row.email = user.email
    · refine ⟨row.takeOver user, mem_map.mpr ⟨row, here, if_pos hit⟩, sameId, congrArg some provided,
        fun absent => email (earlier absent),
          .inr ⟨user, mem_append_right _ (mem_singleton_self _), fresh, ?_, rfl⟩⟩
      exact fun absent => hit.symm.trans (email (earlier absent))
    · exact ⟨row, mem_map.mpr ⟨row, here, if_neg hit⟩, sameId, rowOwn, fun absent => email (earlier absent),
        stays⟩
  | insert fresh absent id =>
    exact ⟨row, mem_append_left _ here, sameId, rowOwn, fun absent => email (earlier absent), stays⟩

def Sole (provider : String) (old : User) (rows : List User) : Prop :=
  ∀ row ∈ rows, row.Of provider → row.idpSubject = old.idpSubject → row.id = old.id

theorem Sole.step {user : IdpUser} (before : old ∈ start) (own : old.Of provider)
    (sole : Sole provider old rows) (step : Step provider start user rows last) : Sole provider old last := by
  intro row inside rowOwn subject
  cases step with
  | idle => exact sole row inside rowOwn subject
  | @update other =>
    obtain ⟨origin, here, rfl⟩ := mem_map.mp inside
    by_cases hit : origin.id = other.id
    · rw [if_pos hit] at rowOwn subject ⊢
      exact sole origin here rowOwn subject
    · rw [if_neg hit] at rowOwn subject ⊢
      exact sole origin here rowOwn subject
  | take fresh =>
    obtain ⟨origin, here, rfl⟩ := mem_map.mp inside
    by_cases hit : origin.email = user.email
    · rw [if_pos hit] at subject
      exact absurd subject.symm (fresh old before own)
    · rw [if_neg hit] at rowOwn subject ⊢
      exact sole origin here rowOwn subject
  | insert fresh =>
    rcases mem_append.mp inside with earlier | added
    · exact sole row earlier rowOwn subject
    · rw [mem_singleton.mp added] at subject
      exact absurd subject.symm (fresh old before own)

def Lost (provider : String) (start : List User) (old : User) (rows : List User) : Prop :=
  ∃ row ∈ rows, row.id = old.id ∧ ∃ user, New provider start user ∧ row.idpSubject = some user.idpSubject

theorem Lost.step {user : IdpUser} (lost : Lost provider start old rows) (step : Step provider start user rows last) :
    Lost provider start old last := by
  obtain ⟨row, here, sameId, entry, fresh, subject⟩ := lost
  cases step with
  | idle => exact ⟨row, here, sameId, entry, fresh, subject⟩
  | @update other =>
    by_cases hit : row.id = other.id
    · exact ⟨row.overwrite user, mem_map.mpr ⟨row, here, if_pos hit⟩, sameId, entry, fresh, subject⟩
    · exact ⟨row, mem_map.mpr ⟨row, here, if_neg hit⟩, sameId, entry, fresh, subject⟩
  | take taker =>
    by_cases hit : row.email = user.email
    · exact ⟨row.takeOver user, mem_map.mpr ⟨row, here, if_pos hit⟩, sameId, user, taker, rfl⟩
    · exact ⟨row, mem_map.mpr ⟨row, here, if_neg hit⟩, sameId, entry, fresh, subject⟩
  | insert => exact ⟨row, mem_append_left _ here, sameId, entry, fresh, subject⟩

theorem Traced.lost {done : List IdpUser} {user : IdpUser} (traced : Traced provider start old done rows)
    (fresh : New provider start user) (email : old.email = user.email) (unprocessed : ¬ Listed done old)
    (step : Step provider start user rows last) : Lost provider start old last := by
  obtain ⟨row, here, sameId, _, had, _⟩ := traced
  have hit : row.email = user.email := (had unprocessed).trans email
  cases step with
  | idle there own subject => exact absurd subject (fresh _ there own)
  | update there own subject => exact absurd subject (fresh _ there own)
  | take => exact ⟨row.takeOver user, mem_map.mpr ⟨row, here, if_pos hit⟩, sameId, user, fresh, rfl⟩
  | insert _ absent => exact absurd hit (absent row here)

theorem Retired.keeps_apart (retired : Retired provider users start rows last) (apart : rows.Pairwise User.Apart) :
    last.Pairwise User.Apart := by
  obtain ⟨f, rfl, each⟩ := retired
  have columns : ∀ row, (f row).id = row.id ∧ (f row).email = row.email ∧ (f row).idpProvider = row.idpProvider ∧
      (f row).idpSubject = row.idpSubject := by
    intro row
    by_cases dropped : Dropped provider users start row
    · rw [(each row).1 dropped]
      exact ⟨rfl, rfl, rfl, rfl⟩
    · rw [(each row).2 dropped]
      exact ⟨rfl, rfl, rfl, rfl⟩
  refine apart.map f (fun a b apart => ?_)
  obtain ⟨idA, emailA, providerA, subjectA⟩ := columns a
  obtain ⟨idB, emailB, providerB, subjectB⟩ := columns b
  rw [User.Apart, idA, idB, emailA, emailB, providerA, providerB, subjectA, subjectB]
  exact apart

theorem Written.split {existing : List (String × User)} {first second : List IdpUser}
    (written : Written existing (first ++ second) rows last) :
    ∃ mid, Written existing first rows mid ∧ Written existing second mid last := by
  induction first generalizing rows with
  | nil => exact ⟨rows, rfl, written⟩
  | cons user rest ih =>
    obtain ⟨id, next, written⟩ := written
    obtain ⟨mid, before, after⟩ := ih written
    exact ⟨mid, ⟨id, next, before⟩, after⟩

variable {existing : List (String × User)}

section
variable (lists : Lists provider start existing)
include lists

theorem Written.traced (provided : ∀ user ∈ users, user.idpProvider = provider) (apart : start.Pairwise User.Apart)
    (written : Written existing users start rows) (before : old ∈ start) (own : old.Of provider) :
    Traced provider start old users rows ∧ rows.Pairwise User.Apart := by
  have begins : Traced provider start old [] start := ⟨old, before, rfl, own, fun _ => rfl, .inl rfl⟩
  refine Written.keeps (J := Traced provider start old) ?_ rfl apart begins written
  intro done user rest id rows split _ traced _
  have member : user ∈ users := split ▸ mem_append_right _ mem_cons_self
  exact traced.step (provided user member) apart before (step_of_stepRows lists id user rows)

theorem Written.sole (apart : start.Pairwise User.Apart)
    (written : Written existing users start rows) (before : old ∈ start) (own : old.Of provider)
    {subject : String} (named : old.idpSubject = some subject) : Sole provider old rows := by
  have begins : Sole provider old start := fun row there rowOwn same =>
    congrArg User.id (eq_of_subject apart there before rowOwn own (same.trans named) named)
  refine (Written.keeps (J := fun _ => Sole provider old) ?_ (nil_append users).symm apart begins written).1
  exact fun _ user _ id rows _ _ sole _ => sole.step before own (step_of_stepRows lists id user rows)

theorem inSync_iff_settles (provided : ∀ user ∈ users, user.idpProvider = provider) (apart : start.Pairwise User.Apart)
    (written : Written existing users start rows) (retired : Retired provider users start rows last) :
    InSync provider users last ↔ Settles provider users start := by
  constructor
  swap
  · intro settles
    obtain ⟨progress, rowsApart⟩ := Written.keeps (J := Progress provider users start)
        (fun done user rest id rows split apart' progress next =>
      progress.advance settles split apart
        (provided user (split ▸ mem_append_right _ mem_cons_self)) apart' next
        (step_of_stepRows lists id user rows)) rfl apart (.init apart) written
    exact progress.inSync settles rowsApart retired
  intro sync
  have written' := written
  have rowsApart : rows.Pairwise User.Apart := by
    refine (Written.keeps (J := fun _ _ => True) ?_ (nil_append users).symm apart trivial written).2
    exact fun _ _ _ _ _ _ _ _ _ => trivial
  have lastApart := retired.keeps_apart rowsApart
  refine ⟨fun a inA b inB => sync.agree lastApart inA inB, fun a inA b inB => sync.emails lastApart inA inB, ?_, ?_⟩
  · intro row here own
    by_cases listed : Listed users row
    · exact .inl listed
    refine .inr ?_
    obtain ⟨held, there, sameId, heldOwn, email, subject⟩ := (written.traced lists provided apart here own).1
    have inLast : held.deactivate ∈ last :=
      retired.mem_iff.mpr ⟨held, there, .inl ⟨⟨row, here, own, listed, sameId⟩, rfl⟩⟩
    rcases subject with same | ⟨user, member, fresh, had, named⟩
    · obtain ⟨entry, inside, found⟩ := sync.known held.deactivate inLast heldOwn
      exact absurd ⟨entry, inside, same.symm.trans found⟩ listed
    · obtain ⟨taken, inside, takenOwn, takenSubject, fields⟩ := sync.listed user member
      obtain rfl := eq_of_subject lastApart inside inLast takenOwn heldOwn takenSubject named
      exact ⟨user, member, fresh, had listed, fields.active.symm⟩
  · intro done user rest split fresh row here own listed email
    refine Classical.byContradiction (fun unprocessed => ?_)
    rw [split] at written
    obtain ⟨mid, first, later⟩ := written.split
    obtain ⟨traced, midApart⟩ := first.traced lists
        (fun entry member => provided entry (split ▸ mem_append_left _ member)) apart here own
    obtain ⟨id, nextApart, later⟩ := later
    have lost := traced.lost fresh email unprocessed (step_of_stepRows lists id user mid)
    obtain ⟨lost, _⟩ := Written.keeps (J := fun _ => Lost provider start row) (fun _ entry _ id rows _ _ lost _ =>
      lost.step (step_of_stepRows lists id entry rows)) (nil_append rest).symm nextApart lost later
    obtain ⟨thief, there, sameId, entry, new, stolen⟩ := lost
    obtain ⟨named, member, subject⟩ := listed
    obtain ⟨found, inLast, foundOwn, foundSubject, _⟩ := sync.listed named member
    obtain ⟨before, inRows, same⟩ := retired.mem_iff.mp inLast
    have kept : found.idpSubject = before.idpSubject ∧ found.idpProvider = before.idpProvider := by
      obtain ⟨_, rfl⟩ | ⟨_, rfl⟩ := same <;> exact ⟨rfl, rfl⟩
    have beforeSubject : before.idpSubject = row.idpSubject := kept.1.symm.trans (foundSubject.trans subject.symm)
    have sameRow := written'.sole lists apart here own subject before inRows
        (kept.2.symm.trans foundOwn) beforeSubject
    obtain rfl := eq_of_id rowsApart inRows there (sameRow.trans sameId.symm)
    exact new row here own (beforeSubject.symm.trans stolen)

end

end

end

end Aeterna.Idp
