import NetBBS.Auth.Tables
import NetBBS.Foundation.Numbering

/-! # Account operations -/

namespace NetBBS

open Foundation

namespace Auth

inductive StaffPermission where
  | approveAccounts
  | manageAccounts
  | moderateAll

def StaffPermission.mask : StaffPermission → Nat
  | .approveAccounts => 1
  | .manageAccounts => 2
  | .moderateAll => 4

def coSysopPreset : Nat := 7

def User.hasStaff (user : User) (permission : StaffPermission) : Bool :=
  user.staffPermissions &&& permission.mask ≠ 0

def isValidLevel (level : Int) : Bool := 0 ≤ level && level ≤ sysopLevel

def User.isUsableSysop (user : User) : Bool :=
  sysopLevel ≤ user.userLevel && user.disabledAt.isNone && !user.pendingApproval

structure VerifyKey where
  publicKey : Text
  fingerprint : Text

def maxUsernameLength : Nat := 32

def isNameChar (c : Char) : Bool := c.isAlphanum || c = '_' || c = '.' || c = '-'

/-- `_USERNAME_PATTERN.match`; the `$` of the pattern also stands before a last line break. -/
def matchesPattern (username : Text) : Bool :=
  let body := if username.getLast? = some '\n' then username.dropLast else username
  !body.isEmpty && body.all isNameChar

def validateUsername (username : Text) : Except Refusal Unit := do
  refuseIf (username.length > maxUsernameLength) (.usernameTooLong username.length)
  refuseIf (¬ matchesPattern username) (.usernameGrammar username)
  refuseIf (nocase username = "new".toList) (.usernameReserved username)
  refuseIf (".door".toList.isSuffixOf (nocase username)) .usernameDoorSuffix
  refuseIf (".bot".toList.isSuffixOf (nocase username)) .usernameBotSuffix

namespace Database

def countSysops (db : Database) : Nat := (db.tables.users.filter User.isUsableSysop).length

def refuseIfLastSysop (db : Database) (target : User) (removesActiveSysop : Bool) :
    Except Refusal Unit :=
  if !removesActiveSysop then .ok ()
  else if !target.isUsableSysop then .ok ()
  else refuseIf (db.countSysops ≤ 1) (.lastSysop target.username)

def requireSysop (db : Database) (actor : Nat) : Except Refusal Unit :=
  refuseIf (¬ ∃ fresh ∈ db.getUserById actor, fresh.isUsableSysop) .onlySysop

def requireAccountAuthority (db : Database) (actor : Nat) (target : User)
    (permission : StaffPermission) : Except Refusal Unit := do
  if (db.getUserById actor).any User.isUsableSysop then return ()
  refuseIf (¬ (db.getUserById actor).any fun fresh =>
    fresh.disabledAt.isNone && !fresh.pendingApproval && fresh.hasStaff permission) .onlySysop
  refuseIf (sysopLevel ≤ target.userLevel ∨ target.staffPermissions ≠ 0)
    (.protectedAccount target.username)

def isUsernameRetired (db : Database) (username : Text) : Bool :=
  db.tables.retired.any fun row => decide (nocase row.username = nocase username)

/-- The account that bears a name. -/
def userNamed (db : Database) (username : Text) : Option User :=
  db.tables.users.find? fun user => decide (nocase user.username = nocase username)

def nextUserId (db : Database) : Nat :=
  max (maxNumber User.id db.tables.users) db.tables.highWater + 1

def addKey (userId : Nat) (label : Text) (key : VerifyKey) (now : Text) (t : Tables) : Tables :=
  { t with
    keys := t.keys ++
      [⟨maxNumber SshKey.id t.keys + 1, userId, label, key.publicKey, key.fingerprint, now⟩] }

def newUser (db : Database) (username : Text) (passwordHash : Option Text) (verifyKey : Option VerifyKey)
    (userLevel : Int) (pendingApproval : Bool) (now : Text) : User where
  id := db.nextUserId
  username
  passwordHash
  publicKey := verifyKey.map VerifyKey.publicKey
  fingerprint := verifyKey.map VerifyKey.fingerprint
  userLevel
  createdAt := now
  disabledAt := none
  pendingApproval
  staffPermissions := 0
  levelSetByHand := userLevel ≠ 0

def addUser (user : User) (t : Tables) : Tables :=
  { t with users := t.users ++ [user], highWater := max t.highWater user.id }

/-- `create_user` and `_create_user_with_password_hash`, once the password is hashed. -/
def createUser (username : Text) (passwordHash : Option Text) (verifyKey : Option VerifyKey)
    (userLevel : Int) (pendingApproval : Bool) (now : Text) (db : Database) :
    Except Refusal Database := do
  refuseIf (passwordHash.isNone ∧ verifyKey.isNone) .needsCredential
  validateUsername username
  refuseIf (¬ isValidLevel userLevel) .levelRange
  refuseIf (db.isUsernameRetired username) (.usernameRetired username)
  let user := db.newUser username passwordHash verifyKey userLevel pendingApproval now
  let taken : Refusal :=
    if (db.userNamed username).isSome ∨ verifyKey.isNone then .usernameTaken username else .keyTaken
  let inserted ← reword (fun _ => taken) (db.write (addUser user))
  match verifyKey with
  | none => return inserted
  | some key => reword (fun _ => taken) (inserted.write (addKey user.id "default".toList key now))

def checkLevelChange (db : Database) (current : User) (newLevel : Int) (changedBy : Nat) :
    Except Refusal Unit := do
  refuseIf (¬ isValidLevel newLevel) .levelRange
  db.requireAccountAuthority changedBy current .manageAccounts
  if sysopLevel ≤ newLevel then db.requireSysop changedBy
  refuseIf (sysopLevel ≤ newLevel ∧ current.pendingApproval) (.pendingToSysop current.username)
  db.refuseIfLastSysop current (newLevel < sysopLevel)

def setUserLevel (target : User) (newLevel : Int) (changedBy : User) (db : Database) :
    Except Refusal Database := do
  if newLevel = target.userLevel then return db
  let current ← db.requireUserById target.id
  if newLevel = current.userLevel then return db
  db.checkLevelChange current newLevel changedBy.id
  let after ← db.write (·.updateUser current.id fun user =>
    { user with userLevel := newLevel, levelSetByHand := true })
  after.recordAction (some changedBy.id) current.id
  return after

def promoteAutomatically (target : User) (fromLevel toLevel : Int) (db : Database) :
    Except Refusal Database := do
  refuseIf (¬ (0 ≤ fromLevel ∧ fromLevel < toLevel ∧ toLevel < sysopLevel)) .promotionRange
  let current ← db.requireUserById target.id
  if current.userLevel ≠ fromLevel ∨ current.levelSetByHand ∨ current.pendingApproval ∨
      current.disabledAt.isSome ∨ current.staffPermissions ≠ 0 then return db
  let after ← db.write (·.updateUser current.id fun user => { user with userLevel := toLevel })
  after.recordAction none current.id
  return after

def setUserDisabled (target : User) (disabled : Bool) (changedBy : User) (now : Text)
    (db : Database) : Except Refusal Database := do
  if disabled = target.disabledAt.isSome then return db
  let current ← db.requireUserById target.id
  if disabled = current.disabledAt.isSome then return db
  db.requireAccountAuthority changedBy.id current .manageAccounts
  db.refuseIfLastSysop current disabled
  let after ← db.write (·.updateUser current.id fun user =>
    { user with disabledAt := if disabled then some now else none })
  after.recordAction (some changedBy.id) current.id
  return after

def approvePendingUser (target approvedBy : User) (db : Database) : Except Refusal Database := do
  if !target.pendingApproval then return db
  let current ← db.requireUserById target.id
  if !current.pendingApproval then return db
  db.requireAccountAuthority approvedBy.id current .approveAccounts
  let after ← db.write (·.updateUser current.id fun user => { user with pendingApproval := false })
  after.recordAction (some approvedBy.id) current.id
  return after

def keysOf (db : Database) (id : Nat) : List SshKey := db.tables.keys.filter (·.userId = id)

def setPasswordHash (target : User) (passwordHash : Option Text) (changedBy : User)
    (db : Database) : Except Refusal Database := do
  let current ← db.requireUserById target.id
  if changedBy.id ≠ current.id then db.requireAccountAuthority changedBy.id current .manageAccounts
  refuseIf (passwordHash.isNone ∧ (db.keysOf current.id).length = 0 ∧ current.fingerprint.isNone)
    (.lockedOut current.username)
  let after ← db.write (·.updateUser current.id fun user => { user with passwordHash })
  after.recordAction (some changedBy.id) current.id
  return after

def maxSshKeysPerAccount : Nat := 10

/-- `label.strip() or "unlabeled"`. -/
def keyLabel (label : Text) : Text :=
  if Text.strip label = [] then "unlabeled".toList else Text.strip label

def addSshKey (target : User) (key : VerifyKey) (label : Text) (changedBy : User) (now : Text)
    (db : Database) : Except Refusal Database := do
  refuseIf ((db.keysOf target.id).length ≥ maxSshKeysPerAccount) (.tooManyKeys target.username)
  let added ← db.write (addKey target.id (keyLabel label) key now)
  let current ← orRefuse (added.getUserById target.id) .integrity
  let after ←
    if current.fingerprint.isNone then
      added.write (·.updateUser target.id fun user =>
        { user with publicKey := some key.publicKey, fingerprint := some key.fingerprint })
    else pure added
  after.recordAction (some changedBy.id) target.id
  return after

def remainingKey (db : Database) (id : Nat) (fingerprint : Text) : Option SshKey :=
  (((db.keysOf id).filter (·.fingerprint ≠ fingerprint)).mergeSort
    fun a b => atMost a.createdAt b.createdAt).head?

def removeSshKey (target : User) (fingerprint : Text) (changedBy : User) (db : Database) :
    Except Refusal Database := do
  let removed ← orRefuse ((db.keysOf target.id).find? (·.fingerprint = fingerprint))
    (.noSuchKey target.username fingerprint)
  let remaining := db.remainingKey target.id fingerprint
  refuseIf (remaining.isNone ∧ ¬ (db.getUserById target.id).any fun user => user.passwordHash.isSome)
    (.lockedOut target.username)
  let without ← db.write fun t => { t with keys := t.keys.filter (·.id ≠ removed.id) }
  let after ← without.write (·.updateUser target.id fun user =>
    { user with
      publicKey := remaining.map SshKey.publicKey
      fingerprint := remaining.map SshKey.fingerprint })
  after.recordAction (some changedBy.id) target.id
  return after

def isGuestAccount (db : Database) (user : User) : Bool :=
  db.tables.guest.any fun guest => decide (guest.1 = user.id) && decide (guest.2 = user.createdAt)

def setStaffPermissions (target : User) (permissions : Nat) (changedBy : User) (db : Database) :
    Except Refusal Database := do
  refuseIf (permissions &&& coSysopPreset ≠ permissions) (.unknownPermissionBits permissions)
  let current ← db.requireUserById target.id
  if permissions = current.staffPermissions then return db
  db.requireSysop changedBy.id
  refuseIf (permissions ≠ 0 ∧ sysopLevel ≤ current.userLevel) (.sysopAlready current.username)
  refuseIf (permissions ≠ 0 ∧ current.pendingApproval) (.awaitingApproval current.username)
  refuseIf (permissions ≠ 0 ∧ db.isGuestAccount current) (.guestAccount current.username)
  let after ← db.write (·.updateUser current.id fun user =>
    { user with staffPermissions := permissions })
  after.recordAction (some changedBy.id) current.id
  return after

def deletionRetiresUsername (db : Database) (user : User) : Bool :=
  if !db.tables.linkHasRun then false
  else if !user.pendingApproval then true
  else db.tables.linkMail.any fun recipient => decide (recipient = user.id)

def deleteUser (target deletedBy : User) (declining : Bool) (now : Text) (db : Database) :
    Except Refusal Database := do
  let current ← db.requireUserById target.id
  refuseIf (declining ∧ ¬ current.pendingApproval) (.noLongerPending current.username)
  if declining then db.requireAccountAuthority deletedBy.id current .approveAccounts
  else if deletedBy.id ≠ current.id then db.requireSysop deletedBy.id
  db.refuseIfLastSysop current true
  let cleared ← db.write (·.forgetGuest current.id)
  cleared.recordAction (some deletedBy.id) current.id
  let held ←
    if cleared.deletionRetiresUsername current then cleared.write (·.retire current.username now none)
    else pure cleared
  held.write (·.deleteUser current.id)

def declinePendingUser (target declinedBy : User) (now : Text) (db : Database) :
    Except Refusal Database :=
  deleteUser target declinedBy true now db

def releaseRetiredUsername (username : Text) (releasedBy : User) (db : Database) :
    Except Refusal Database := do
  refuseIf (¬ db.isUsernameRetired username) (.notRetired username)
  let after ← db.write fun t =>
    { t with retired := t.retired.filter fun row => nocase row.username ≠ nocase username }
  refuseIf (¬ (after.getUserById releasedBy.id).isSome) .integrity
  return after

end Database

/-- The account that a node is set up with. -/
def firstSysop : User where
  id := 1
  username := "Keeper".toList
  passwordHash := some "argon2".toList
  publicKey := none
  fingerprint := none
  userLevel := 255
  createdAt := "2026-01-01T00:00:00.000000Z".toList
  disabledAt := none
  pendingApproval := false
  staffPermissions := 0
  levelSetByHand := true

def Database.setUp : Database where
  tables :=
    { users := [firstSysop], keys := [], retired := [], requests := [], changes := [], highWater := 1,
      guest := none, linkHasRun := true, linkMail := [] }
  valid := by decide

end Auth

end NetBBS
