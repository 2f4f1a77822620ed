import Mathlib.Data.List.Nodup
import NetBBS.Foundation.Refusal
import NetBBS.Python.Text

/-! # The account tables -/

namespace NetBBS

open Foundation List

namespace Auth

def sysopLevel : Int := 255

structure User where
  id : Nat
  username : Text
  passwordHash : Option Text
  publicKey : Option Text
  fingerprint : Option Text
  userLevel : Int
  createdAt : Text
  disabledAt : Option Text
  pendingApproval : Bool
  staffPermissions : Nat
  levelSetByHand : Bool
deriving DecidableEq

structure SshKey where
  id : Nat
  userId : Nat
  label : Text
  publicKey : Text
  fingerprint : Text
  createdAt : Text

structure RetiredUsername where
  username : Text
  retiredAt : Text
  userId : Option Nat

inductive RequestStatus where
  | open
  | refused
deriving DecidableEq

structure UsernameChangeRequest where
  id : Nat
  userId : Nat
  requestedUsername : Text
  requestedAt : Text
  status : RequestStatus

structure UsernameChange where
  id : Nat
  userId : Option Nat
  oldUsername : Text
  newUsername : Text
  renamedAt : Text
  requested : Bool

structure Tables where
  users : List User
  keys : List SshKey
  retired : List RetiredUsername
  requests : List UsernameChangeRequest
  changes : List UsernameChange
  highWater : Nat
  guest : Option (Nat × Text)
  linkHasRun : Bool
  linkMail : List Nat

/-- `COLLATE NOCASE`: ASCII letters compare without regard to case. -/
def nocase (name : Text) : Text := name.map Char.toLower

def atMost : Text → Text → Bool
  | [], _ => true
  | _ :: _, [] => false
  | a :: rest, b :: rest' =>
    if a.toNat < b.toNat then true
    else if a.toNat = b.toNat then atMost rest rest'
    else false

def User.Checked (user : User) : Prop :=
  (user.passwordHash.isSome ∨ user.publicKey.isSome) ∧
    (user.publicKey.isNone ↔ user.fingerprint.isNone)

instance (user : User) : Decidable user.Checked := by
  unfold User.Checked
  infer_instance

structure Tables.Valid (t : Tables) : Prop where
  userIds : (t.users.map User.id).Nodup
  usernames : (t.users.map fun user => nocase user.username).Nodup
  fingerprints : (t.users.filterMap User.fingerprint).Nodup
  checked : ∀ user ∈ t.users, user.Checked
  keyIds : (t.keys.map SshKey.id).Nodup
  keyFingerprints : (t.keys.map SshKey.fingerprint).Nodup
  keyUsers : ∀ key ∈ t.keys, ∃ user ∈ t.users, user.id = key.userId
  retiredNames : (t.retired.map fun row => nocase row.username).Nodup
  retiredUsers : ∀ row ∈ t.retired, ∀ id ∈ row.userId, ∃ user ∈ t.users, user.id = id
  requestIds : (t.requests.map UsernameChangeRequest.id).Nodup
  openRequests : ((t.requests.filter fun row => row.status = .open).map
    UsernameChangeRequest.userId).Nodup
  requestUsers : ∀ row ∈ t.requests, ∃ user ∈ t.users, user.id = row.userId
  changeIds : (t.changes.map UsernameChange.id).Nodup
  changeUsers : ∀ row ∈ t.changes, ∀ id ∈ row.userId, ∃ user ∈ t.users, user.id = id

instance (t : Tables) : Decidable t.Valid :=
  decidable_of_iff
    ((t.users.map User.id).Nodup ∧ (t.users.map fun user => nocase user.username).Nodup ∧
      (t.users.filterMap User.fingerprint).Nodup ∧ (∀ user ∈ t.users, user.Checked) ∧
      (t.keys.map SshKey.id).Nodup ∧ (t.keys.map SshKey.fingerprint).Nodup ∧
      (∀ key ∈ t.keys, ∃ user ∈ t.users, user.id = key.userId) ∧
      (t.retired.map fun row => nocase row.username).Nodup ∧
      (∀ row ∈ t.retired, ∀ id ∈ row.userId, ∃ user ∈ t.users, user.id = id) ∧
      (t.requests.map UsernameChangeRequest.id).Nodup ∧
      ((t.requests.filter fun row => row.status = .open).map UsernameChangeRequest.userId).Nodup ∧
      (∀ row ∈ t.requests, ∃ user ∈ t.users, user.id = row.userId) ∧ (t.changes.map UsernameChange.id).Nodup ∧
      ∀ row ∈ t.changes, ∀ id ∈ row.userId, ∃ user ∈ t.users, user.id = id)
    ⟨fun ⟨h₁, h₂, h₃, h₄, h₅, h₆, h₇, h₈, h₉, h₁₀, h₁₁, h₁₂, h₁₃, h₁₄⟩ =>
        ⟨h₁, h₂, h₃, h₄, h₅, h₆, h₇, h₈, h₉, h₁₀, h₁₁, h₁₂, h₁₃, h₁₄⟩,
      fun h => ⟨h.1, h.2, h.3, h.4, h.5, h.6, h.7, h.8, h.9, h.10, h.11, h.12, h.13, h.14⟩⟩

/-- `UPDATE users SET ... WHERE id = ?`. -/
def Tables.updateUser (id : Nat) (change : User → User) (t : Tables) : Tables :=
  { t with users := t.users.map fun user => if user.id = id then change user else user }

/-- `DELETE FROM users WHERE id = ?`, with what the foreign keys do. -/
def Tables.deleteUser (id : Nat) (t : Tables) : Tables :=
  { t with
    users := t.users.filter (·.id ≠ id)
    keys := t.keys.filter (·.userId ≠ id)
    retired := t.retired.map fun row =>
      if row.userId = some id then { row with userId := none } else row
    requests := t.requests.filter (·.userId ≠ id)
    changes := t.changes.map fun row =>
      if row.userId = some id then { row with userId := none } else row
    linkMail := t.linkMail.filter (· ≠ id) }

/-- `clear_designation_for_deleted_user`. -/
def Tables.forgetGuest (id : Nat) (t : Tables) : Tables :=
  { t with guest := t.guest.filter fun guest => guest.1 ≠ id }

/-- `INSERT OR REPLACE INTO retired_usernames`. -/
def Tables.retire (username now : Text) (userId : Option Nat) (t : Tables) : Tables :=
  { t with
    retired := t.retired.filter (fun row => nocase row.username ≠ nocase username) ++
      [⟨username, now, userId⟩] }

structure Database where
  tables : Tables
  valid : tables.Valid

/-- `AuthError`, `UserManagementError`, `UsernameChangeError` and what SQLite raises, by what they say. -/
inductive Refusal where
  | integrity
  | needsCredential
  | usernameTooLong (length : Nat)
  | usernameGrammar (username : Text)
  | usernameReserved (username : Text)
  | usernameDoorSuffix
  | usernameBotSuffix
  | usernameTaken (username : Text)
  | usernameRetired (username : Text)
  | keyTaken
  | levelRange
  | noLongerExists (id : Nat)
  | onlySysop
  | protectedAccount (username : Text)
  | pendingToSysop (username : Text)
  | lastSysop (username : Text)
  | promotionRange
  | unknownPermissionBits (mask : Nat)
  | sysopAlready (username : Text)
  | awaitingApproval (username : Text)
  | guestAccount (username : Text)
  | lockedOut (username : Text)
  | tooManyKeys (username : Text)
  | noSuchKey (username fingerprint : Text)
  | noLongerPending (username : Text)
  | notRetired (username : Text)
  | alreadyYourName (username : Text)
  | heldName (username : Text)
  | selfServiceReserved (username : Text)
  | closeToSysop (username : Text)
  | noLongerMayAsk
  | changedTooRecently
  | requestDecided
  | noLonger (wanted : Text) (problem : Refusal)
  | accountGone

namespace Database

def write (db : Database) (effect : Tables → Tables) : Except Refusal Database :=
  if h : (effect db.tables).Valid then .ok ⟨effect db.tables, h⟩ else .error .integrity

variable {db : Database} {id : Nat} {user : User}

theorem write_ok {db' : Database} {effect : Tables → Tables} (h : db.write effect = .ok db') :
    db'.tables = effect db.tables := by
  rw [write] at h
  split at h
  · cases h
    rfl
  · cases h

def getUserById (db : Database) (id : Nat) : Option User := db.tables.users.find? (·.id = id)

/-- `_get_user_by_id`. -/
def requireUserById (db : Database) (id : Nat) : Except Refusal User :=
  orRefuse (db.getUserById id) (.noLongerExists id)

/-- `record_action_without_commit`: the row names accounts that exist. -/
def recordAction (db : Database) (actor : Option Nat) (target : Nat) : Except Refusal Unit :=
  refuseIf (¬ ((∀ id ∈ actor, (db.getUserById id).isSome) ∧ (db.getUserById target).isSome)) .integrity

theorem getUserById_some
    (h : db.getUserById id = some user) : user ∈ db.tables.users ∧ user.id = id := by
  have hid := find?_some h
  exact ⟨mem_of_find?_eq_some h, by simpa using hid⟩

theorem getUserById_eq_some :
    db.getUserById id = some user ↔ user ∈ db.tables.users ∧ user.id = id := by
  constructor
  · exact getUserById_some
  · rintro ⟨hmem, rfl⟩
    obtain ⟨found, hfound⟩ : ∃ found, db.getUserById user.id = some found :=
      Option.isSome_iff_exists.mp (find?_isSome.mpr ⟨user, hmem, by simp⟩)
    obtain ⟨hfoundMem, hfoundId⟩ := getUserById_some hfound
    rw [hfound, inj_on_of_nodup_map db.valid.userIds hfoundMem hmem hfoundId]

end Database

end Auth

end NetBBS
