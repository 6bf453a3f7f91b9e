import Aeterna.Lib.Effect
import Aeterna.Lib.Table

namespace Aeterna.Idp
open Lib (Eff Table)

structure User where
  (id email : String)
  firstName : Option String := none
  lastName : Option String := none
  displayName : Option String := none
  idpProvider : Option String := none
  idpSubject : Option String := none
  isActive : Bool := true
  deriving DecidableEq

inductive UserStatus where
  | active | inactive | suspended | deprovisioned | pending
  deriving DecidableEq

structure IdpUser where
  (id email : String)
  firstName : Option String := none
  lastName : Option String := none
  displayName : Option String := none
  status : UserStatus := .active
  (idpProvider idpSubject : String)

structure IdpGroup where
  (id name : String)

def IdpUser.active (user : IdpUser) : Bool := user.status = .active

/-- Two users that `PRIMARY KEY (id)`, `UNIQUE (email)` and `UNIQUE (idp_provider, idp_subject)` let stand
side by side. -/
def User.Apart (a b : User) : Prop :=
  a.id ≠ b.id ∧ a.email ≠ b.email ∧
    ¬ (a.idpProvider.isSome ∧ a.idpSubject.isSome ∧ a.idpProvider = b.idpProvider ∧ a.idpSubject = b.idpSubject)

instance : DecidableRel User.Apart := fun _ _ => inferInstanceAs (Decidable (_ ∧ _))

structure UserTable where
  rows : List User := []
  apart : rows.Pairwise User.Apart := by exact .nil

def UserTable.commit (rows : List User) : Except String UserTable :=
  if apart : rows.Pairwise User.Apart then .ok ⟨rows, apart⟩
  else .error "duplicate key value violates unique constraint"

namespace User

def overwrite (user : IdpUser) (row : User) : User :=
  { row with
    email := user.email, firstName := user.firstName, lastName := user.lastName, displayName := user.displayName
    isActive := user.active }

def takeOver (user : IdpUser) (row : User) : User :=
  { row with
    firstName := user.firstName, lastName := user.lastName, displayName := user.displayName
    idpProvider := some user.idpProvider, idpSubject := some user.idpSubject, isActive := user.active }

def deactivate (row : User) : User := { row with isActive := false }

end User

variable (id : String)

def IdpUser.toRow (user : IdpUser) : User where
  id
  email := user.email
  firstName := user.firstName
  lastName := user.lastName
  displayName := user.displayName
  idpProvider := some user.idpProvider
  idpSubject := some user.idpSubject
  isActive := user.active

def updateRow (f : User → User) (rows : List User) : List User :=
  rows.map (fun row => if row.id = id then f row else row)

def insertRow (user : IdpUser) (rows : List User) : List User :=
  if rows.any (fun row => row.email = user.email) then
    rows.map (fun row => if row.email = user.email then row.takeOver user else row)
  else rows ++ [user.toRow id]

/-- Mappings are keyed by group and provider and lead to a team, memberships by team and user, with a role. -/
structure Directory where
  users : UserTable := {}
  idpGroupMappings : Table (String × String) String := {}
  memberships : Table (String × String) String := {}

structure SyncError where
  (entityType entityId error : String)
  deriving DecidableEq

structure SyncReport where
  usersCreated : Nat := 0
  usersUpdated : Nat := 0
  usersDeactivated : Nat := 0
  groupsSynced : Nat := 0
  membershipsAdded : Nat := 0
  membershipsRemoved : Nat := 0
  errors : List SyncError := []
  deriving DecidableEq

inductive IdpSyncError where
  | databaseError (reason : String)
  | clientError (text : String)

def IdpSyncError.text : IdpSyncError → String
  | databaseError reason => "Database error: " ++ reason
  | clientError text => text

/-- What a sync works on, with the number of ids that it has drawn. -/
structure Session where
  directory : Directory
  report : SyncReport := {}
  drawn : Nat := 0

abbrev Synced (α : Type) := Eff Session IdpSyncError α

namespace Session

variable (s : Session)

def countCreated : Session :=
  { s with report := { s.report with usersCreated := s.report.usersCreated + 1 } }

def countUpdated : Session :=
  { s with report := { s.report with usersUpdated := s.report.usersUpdated + 1 } }

def countDeactivated : Session :=
  { s with report := { s.report with usersDeactivated := s.report.usersDeactivated + 1 } }

def countGroup : Session :=
  { s with report := { s.report with groupsSynced := s.report.groupsSynced + 1 } }

def countAdded : Session :=
  { s with report := { s.report with membershipsAdded := s.report.membershipsAdded + 1 } }

def countRemoved : Session :=
  { s with report := { s.report with membershipsRemoved := s.report.membershipsRemoved + 1 } }

def addError (entityType entityId error : String) (s : Session) : Session :=
  { s with report := { s.report with errors := s.report.errors ++ [⟨entityType, entityId, error⟩] } }

def setUsers (users : UserTable) (s : Session) : Session := { s with directory := { s.directory with users } }

def mapMemberships (f : Table (String × String) String → Table (String × String) String) (s : Session) : Session :=
  { s with directory := { s.directory with memberships := f s.directory.memberships } }

end Session

def userStatement (f : List User → List User) : Synced Unit := do
  let s ← Eff.get
  let users ← Eff.ofExcept ((UserTable.commit (f s.directory.users.rows)).mapError .databaseError)
  Eff.modify (Session.setUsers users)

end Aeterna.Idp

namespace Aeterna.Idp
open Lib (Eff)

inductive IdpProvider where
  | okta | azureAd | gitHub
  deriving DecidableEq

def IdpProvider.name : IdpProvider → String
  | okta => "okta"
  | azureAd => "azure_ad"
  | gitHub => "github"

structure IdpClient (provider : IdpProvider) where
  listUsers : Option String → Except IdpSyncError (List IdpUser × Option String)
  listGroups : Option String → Except IdpSyncError (List IdpGroup × Option String)
  getGroupMembers : String → Except IdpSyncError (List IdpUser)
  provides : ∀ token users next, listUsers token = .ok (users, next) → ∀ user ∈ users,
    user.idpProvider = provider.name

structure IdpSyncService where
  provider : IdpProvider
  dryRun : Bool := false
  client : IdpClient provider
  /-- The ids that `Uuid::new_v4` gives. -/
  newV4 : Nat → String

inductive Halt where
  | failed (error : IdpSyncError)
  | unfinished

def fetchPages {α : Type} (list : Option String → Except IdpSyncError (List α × Option String)) :
    Nat → Option String → Except Halt (List α)
  | 0, _ => .error .unfinished
  | fuel + 1, token =>
    match list token with
    | .error e => .error (.failed e)
    | .ok (items, none) => .ok items
    | .ok (items, some next) => (fetchPages list fuel (some next)).map (items ++ ·)

def userNeedsUpdate (existing : User) (user : IdpUser) : Bool :=
  existing.email ≠ user.email || existing.firstName ≠ user.firstName || existing.lastName ≠ user.lastName ||
    existing.displayName ≠ user.displayName || user.active != existing.isActive

def existingUser (row : User) : Except IdpSyncError (String × User) :=
  match row.idpSubject with
  | some subject => .ok (subject, row)
  | none => .error (.databaseError "error occurred while decoding column \"idp_subject\": unexpected null")

def getExistingUsersByIdp (provider : String) : Synced (List (String × User)) := do
  let s ← Eff.get
  Eff.ofExcept ((s.directory.users.rows.filter (fun row => row.idpProvider = some provider)).mapM existingUser)

def entryOf (existing : List (String × User)) (subject : String) : Option User :=
  (existing.find? (fun e => e.1 = subject)).map Prod.snd

section
variable (service : IdpSyncService)

def written (write : Synced Unit) : Synced Unit := if service.dryRun then pure () else write

def createUser (user : IdpUser) : Synced Unit := do
  let s ← Eff.get
  Eff.modify (fun s => { s with drawn := s.drawn + 1 })
  userStatement (insertRow (service.newV4 s.drawn) user)

def updateUser (userId : String) (user : IdpUser) : Synced Unit :=
  userStatement (updateRow userId (User.overwrite user))

def deactivateUser (userId : String) : Synced Unit := userStatement (updateRow userId User.deactivate)

def syncUser (existing : List (String × User)) (user : IdpUser) : Synced Unit :=
  match entryOf existing user.idpSubject with
  | some row =>
    if userNeedsUpdate row user then do
      written service (updateUser row.id user)
      Eff.modify Session.countUpdated
    else pure ()
  | none => do
    written service (createUser service user)
    Eff.modify Session.countCreated

def syncExisting (seenIdpSubjects : List String) (entry : String × User) : Synced Unit :=
  if entry.1 ∈ seenIdpSubjects then pure ()
  else do
    written service (deactivateUser entry.2.id)
    Eff.modify Session.countDeactivated

def syncUsers (users : List IdpUser) : Synced Unit := do
  let existingUsers ← getExistingUsersByIdp service.provider.name
  Eff.forEach (syncUser service existingUsers) users
  Eff.forEach (syncExisting service (users.map IdpUser.idpSubject)) existingUsers

def teamOfGroup (d : Directory) (groupId : String) : Option String :=
  ((d.idpGroupMappings.rows.filter (fun e => e.1.1 = groupId)).getLast?).map Prod.snd

def teamMemberships (d : Directory) (teamId : String) : List String :=
  (d.memberships.rows.filter (fun e => e.1.1 = teamId)).map (fun e => e.1.2)

def userIdByIdpSubject (rows : List User) (idpSubject : String) : Option String :=
  (rows.find? (fun row => row.idpSubject = some idpSubject)).map User.id

def addTeamMembership (teamId userId role : String) : Synced Unit :=
  Eff.modify (Session.mapMemberships (Lib.Table.insertOrIgnore (teamId, userId) role))

def removeTeamMembership (teamId userId : String) : Synced Unit :=
  Eff.modify (Session.mapMemberships (Lib.Table.keepOnly (fun key _ => key ≠ (teamId, userId))))

variable (teamId : String)

def expectMember (existingMemberships : List String) (member : IdpUser) : Synced (List String) := do
  let s ← Eff.get
  match userIdByIdpSubject s.directory.users.rows member.idpSubject with
  | none => pure []
  | some userId =>
    if userId ∈ existingMemberships then pure [userId]
    else do
      written service (addTeamMembership teamId userId "member")
      Eff.modify Session.countAdded
      pure [userId]

def dropUnexpected (expectedUserIds : List String) (existingUserId : String) : Synced Unit :=
  if existingUserId ∈ expectedUserIds then pure ()
  else do
    written service (removeTeamMembership teamId existingUserId)
    Eff.modify Session.countRemoved

def syncTeamMemberships (members : List IdpUser) : Synced Unit := do
  let s ← Eff.get
  let existingMemberships := teamMemberships s.directory teamId
  let expectedUserIds ← Eff.gather (expectMember service teamId existingMemberships) members
  Eff.forEach (dropUnexpected service teamId expectedUserIds) existingMemberships

def syncGroup (groupToTeamMapping : String → Option String) (group : IdpGroup) : Synced Unit :=
  match groupToTeamMapping group.id with
  | none => pure ()
  | some teamId =>
    match service.client.getGroupMembers group.id with
    | .error e => Eff.modify (Session.addError "group" group.id e.text)
    | .ok members => do
      match ← (syncTeamMemberships service teamId members).outcome with
      | .ok () => pure ()
      | .error e => Eff.modify (Session.addError "group" group.id e.text)
      Eff.modify Session.countGroup

def syncGroupsAndMemberships (groups : List IdpGroup) : Synced Unit := do
  let s ← Eff.get
  Eff.forEach (syncGroup service (teamOfGroup s.directory)) groups

def syncAll (fuel : Nat) : Eff Session Halt SyncReport := do
  Eff.modify (fun s => { s with report := {} })
  let users ← Eff.ofExcept (fetchPages service.client.listUsers fuel none)
  let groups ← Eff.ofExcept (fetchPages service.client.listGroups fuel none)
  (syncUsers service users).mapError .failed
  (syncGroupsAndMemberships service groups).mapError .failed
  let s ← Eff.get
  pure s.report

end

end Aeterna.Idp
