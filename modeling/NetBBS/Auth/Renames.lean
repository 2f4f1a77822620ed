import NetBBS.Auth.Transitions

/-! # Renaming a username -/

namespace NetBBS

open Foundation

namespace Auth

/-- `str.casefold`, and stamps to microseconds and back. -/
structure Library where
  casefold : Text → Text
  parse : Text → Int
  stamp : Int → Text

def microsecondsPerDay : Int := 24 * 60 * 60 * 1000000

/-- `text.replace(ab, c)` for two characters. -/
def replacePair (a b c : Char) : Text → Text
  | [] => []
  | [x] => [x]
  | x :: y :: rest =>
    if x = a ∧ y = b then c :: replacePair a b c rest else x :: replacePair a b c (y :: rest)

def skeletonFold (c : Char) : Char :=
  match c with
  | '0' => 'o'
  | '1' | 'i' | '|' => 'l'
  | '3' => 'e'
  | '4' => 'a'
  | '5' => 's'
  | '7' => 't'
  | '8' => 'b'
  | '9' => 'g'
  | '2' => 'z'
  | c => c

variable (lib : Library)

def usernameSkeleton (name : Text) : Text :=
  let folded := (lib.casefold name).filter fun c => c ≠ '_' ∧ c ≠ '-' ∧ c ≠ '.'
  (replacePair 'v' 'v' 'w' (replacePair 'r' 'n' 'm' folded)).map skeletonFold

def selfServiceReservedUsernames : List String :=
  ["sysop", "cosysop", "admin", "administrator", "root", "moderator", "mod", "staff", "support",
    "system", "operator", "postmaster", "guest", "netbbs"]

def readsAsStaffTitle (skeleton : Text) : Bool :=
  (selfServiceReservedUsernames.any fun word => decide (usernameSkeleton lib word.toList = skeleton)) ||
    skeleton.tails.any fun rest => "sysop".toList.isPrefixOf rest

/-- `RENAME_INTERVAL`, in days. -/
def renameIntervalDays : Int := 30

def maxAnnouncedRenames : Nat := 64
def announcedRenameDays : Int := 400

namespace Database

variable (lib : Library)

/-- `self_service_username_problem`, as the refusal it is turned into. -/
def selfServiceUsernameProblem (db : Database) (username : Text) : Except Refusal Unit := do
  validateUsername username
  let skeleton := usernameSkeleton lib username
  refuseIf (readsAsStaffTitle lib skeleton) (.selfServiceReserved username)
  refuseIf ((db.userNamed username).isSome ∨ db.isUsernameRetired username) (.usernameTaken username)
  refuseIf (∃ user ∈ db.tables.users, sysopLevel ≤ user.userLevel ∧
    usernameSkeleton lib user.username = skeleton) (.closeToSysop username)

def latestRename (db : Database) (id : Nat) : Option Text :=
  ((db.tables.changes.filter (·.userId = some id)).map UsernameChange.renamedAt).foldl
    (fun latest stamp => if latest.any fun l => atMost stamp l then latest else some stamp) none

/-- `next_request_allowed_at(...) is not None`. -/
def changedTooRecently (db : Database) (id : Nat) (now : Text) : Bool :=
  (db.latestRename id).any fun latest =>
    decide (lib.parse now < lib.parse latest + renameIntervalDays * microsecondsPerDay)

def sameName (a b : Text) : Bool := lib.casefold a = lib.casefold b

def requestUsernameChange (user : User) (newUsername now : Text) (db : Database) :
    Except Refusal Database := do
  let newUsername := Text.strip newUsername
  let current ← orRefuse (db.getUserById user.id) .noLongerMayAsk
  refuseIf (current.createdAt ≠ user.createdAt ∨ current.disabledAt.isSome) .noLongerMayAsk
  refuseIf current.pendingApproval (.awaitingApproval current.username)
  refuseIf (sameName lib newUsername current.username) (.alreadyYourName current.username)
  db.selfServiceUsernameProblem lib newUsername
  refuseIf (db.changedTooRecently lib current.id now) .changedTooRecently
  let after ← db.write fun t =>
    let others := t.requests.filter fun row => ¬ (row.userId = current.id ∧ row.status = .open)
    { t with
      requests := others ++ [⟨maxNumber UsernameChangeRequest.id others + 1, current.id, newUsername,
        now, .open⟩] }
  after.recordAction (some current.id) current.id
  return after

/-- `sysop_rename_problem`, as the refusal it is turned into. -/
def sysopRenameProblem (db : Database) (target : User) (newUsername : Text) : Except Refusal Unit := do
  refuseIf (sameName lib newUsername target.username) (.alreadyYourName target.username)
  validateUsername newUsername
  refuseIf (db.userNamed newUsername).isSome (.usernameTaken newUsername)
  refuseIf (db.isUsernameRetired newUsername) (.heldName newUsername)

def recordChange (current : User) (newUsername now : Text) (requested : Bool) (t : Tables) : Tables :=
  { t with
    changes := t.changes ++ [⟨maxNumber UsernameChange.id t.changes + 1, some current.id,
      current.username, newUsername, now, requested⟩]
    requests := t.requests.filter fun row => ¬ (row.userId = current.id ∧ row.status = .open) }

/-- `_rename_without_commit`. -/
def rename (db : Database) (current : User) (newUsername : Text) (actor : User) (requested : Bool)
    (now : Text) : Except Refusal Database := do
  db.sysopRenameProblem lib current newUsername
  let named ← db.write (·.updateUser current.id fun user => { user with username := newUsername })
  let held ←
    if named.deletionRetiresUsername current then
      named.write (·.retire current.username now (some current.id))
    else pure named
  let after ← held.write (recordChange current newUsername now requested)
  after.recordAction (some actor.id) current.id
  return after

def approveUsernameRequest (requestId : Nat) (approvedBy : User) (now : Text) (db : Database) :
    Except Refusal Database := do
  db.requireSysop approvedBy.id
  let row ← orRefuse (db.tables.requests.find? fun row => row.id = requestId ∧ row.status = .open)
    .requestDecided
  let current ← db.requireUserById row.userId
  reword (.noLonger row.requestedUsername) (db.selfServiceUsernameProblem lib row.requestedUsername)
  db.rename lib current row.requestedUsername approvedBy true now

def renameUser (target : User) (newUsername : Text) (renamedBy : User) (now : Text) (db : Database) :
    Except Refusal Database := do
  let newUsername := Text.strip newUsername
  db.requireSysop renamedBy.id
  let current ← db.requireUserById target.id
  refuseIf (current.createdAt ≠ target.createdAt) .accountGone
  db.rename lib current newUsername renamedBy false now

def accountFormerlyNamed (db : Database) (name : Text) : Option User := do
  let row ← db.tables.retired.find? fun row =>
    decide (nocase row.username = nocase name) && row.userId.isSome
  let id ← row.userId
  db.getUserById id

def getRecipientByName (db : Database) (name : Text) : Option User :=
  (db.userNamed name).or (db.accountFormerlyNamed name)

/-- `announced_renames`: the rows of the changes that are listed, the newest first. -/
def announcedRenames (db : Database) (now : Text) : List UsernameChange :=
  let since := lib.stamp (lib.parse now - announcedRenameDays * microsecondsPerDay)
  let listed := db.tables.changes.filter fun change =>
    atMost since change.renamedAt &&
      db.tables.retired.any fun row =>
        decide (nocase row.username = nocase change.oldUsername) && row.userId.isSome &&
          decide (row.userId = change.userId)
  (listed.mergeSort fun a b =>
    if a.renamedAt = b.renamedAt then decide (b.id ≤ a.id) else atMost b.renamedAt a.renamedAt).take
    maxAnnouncedRenames

variable {lib} {db db' : Database}

theorem rename_cases {current actor : User} {newUsername now : Text} {requested : Bool}
    (h : db.rename lib current newUsername actor requested now = .ok db') :
    (∀ user ∈ db.tables.users, nocase user.username ≠ nocase newUsername) ∧
      db.isUsernameRetired newUsername = false ∧ validateUsername newUsername = .ok () ∧
      db'.tables = recordChange current newUsername now requested
        (let named := db.tables.updateUser current.id fun user => { user with username := newUsername }
        if db.deletionRetiresUsername current then
          named.retire current.username now (some current.id) else named) := by
  rw [rename] at h
  obtain ⟨_, hproblem, h⟩ := (bind_eq_ok _ _ _).mp h
  obtain ⟨named, hnamed, h⟩ := (bind_eq_ok _ _ _).mp h
  simp only [sysopRenameProblem, bind_eq_ok, refuseIf_eq_ok] at hproblem
  obtain ⟨_, _, _, hname, _, htaken, hretired⟩ := hproblem
  have hsame : named.deletionRetiresUsername current = db.deletionRetiresUsername current := by
    rw [deletionRetiresUsername, deletionRetiresUsername, write_ok hnamed]
    rfl
  have hfree : ∀ user ∈ db.tables.users, nocase user.username ≠ nocase newUsername := by
    intro user huser hbears
    apply htaken
    exact List.find?_isSome.mpr ⟨user, huser, by simpa using hbears⟩
  refine ⟨hfree, by simpa using hretired, hname, ?_⟩
  rw [hsame] at h
  split at h
  · rename_i hretires
    simp only [bind_eq_ok, pure_eq_ok] at h
    obtain ⟨held, hheld, after, hafter, _, _, rfl⟩ := h
    rw [write_ok hafter, write_ok hheld, write_ok hnamed, if_pos hretires]
  · rename_i hretires
    simp only [pure_bind, bind_eq_ok, pure_eq_ok] at h
    obtain ⟨after, hafter, _, _, rfl⟩ := h
    rw [write_ok hafter, write_ok hnamed, if_neg hretires]

end Database

end Auth

end NetBBS
