import NetBBS.Auth.Renames

/-! # What a call does to the names -/

namespace NetBBS

open Foundation List

namespace Auth

inductive NameAction where
  | createUser (username : Text) (passwordHash : Option Text) (verifyKey : Option VerifyKey)
      (userLevel : Int) (pendingApproval : Bool) (now : Text)
  | renameUser (target : User) (newUsername : Text) (renamedBy : User) (now : Text)
  | requestUsernameChange (user : User) (newUsername now : Text)
  | approveUsernameRequest (requestId : Nat) (approvedBy : User) (now : Text)
  | approvePendingUser (target approvedBy : User)
  | declinePendingUser (target declinedBy : User) (now : Text)
  | deleteUser (target deletedBy : User) (now : Text)
  | releaseRetiredUsername (username : Text) (releasedBy : User)

namespace NameAction

def perform (lib : Library) : NameAction → Database → Except Refusal Database
  | .createUser username passwordHash verifyKey userLevel pendingApproval now =>
    Database.createUser username passwordHash verifyKey userLevel pendingApproval now
  | .renameUser target newUsername renamedBy now =>
    Database.renameUser lib target newUsername renamedBy now
  | .requestUsernameChange user newUsername now =>
    Database.requestUsernameChange lib user newUsername now
  | .approveUsernameRequest requestId approvedBy now =>
    Database.approveUsernameRequest lib requestId approvedBy now
  | .approvePendingUser target approvedBy => Database.approvePendingUser target approvedBy
  | .declinePendingUser target declinedBy now => Database.declinePendingUser target declinedBy now
  | .deleteUser target deletedBy now => Database.deleteUser target deletedBy false now
  | .releaseRetiredUsername username releasedBy =>
    Database.releaseRetiredUsername username releasedBy

/-- A transaction that raises is rolled back. -/
def step (lib : Library) (db : Database) (action : NameAction) : Database :=
  match action.perform lib db with
  | .ok db' => db'
  | .error _ => db

def Releases (lib : Library) (db : Database) (name : Text) : NameAction → Prop
  | .releaseRetiredUsername username releasedBy =>
    nocase username = name ∧
      ∃ db', perform lib (.releaseRetiredUsername username releasedBy) db = .ok db'
  | _ => False

end NameAction

namespace Database

/-- What a call can do to the names. -/
inductive NameEffect (action : NameAction) (db db' : Database) : Prop where
  | kept (change : User → User) (hid : ∀ user, (change user).id = user.id)
      (hname : ∀ user, (change user).username = user.username)
      (hpending : ∀ user, user.pendingApproval = false → (change user).pendingApproval = false)
      (husers : db'.tables.users = db.tables.users.map change)
      (hretired : db'.tables.retired = db.tables.retired)
  | created (user : User) (hid : user.id = db.nextUserId) (hfree : ∀ old ∈ db.tables.users, nocase old.username ≠ nocase user.username)
      (hnot : ∀ row ∈ db.tables.retired, nocase row.username ≠ nocase user.username)
      (husers : db'.tables.users = db.tables.users ++ [user])
      (hretired : db'.tables.retired = db.tables.retired)
  | renamed (current : User) (newUsername now : Text) (hcurrent : current ∈ db.tables.users)
      (hfree : ∀ old ∈ db.tables.users, nocase old.username ≠ nocase newUsername)
      (hnot : ∀ row ∈ db.tables.retired, nocase row.username ≠ nocase newUsername)
      (husers : db'.tables.users = (db.tables.updateUser current.id fun user =>
        { user with username := newUsername }).users)
      (hretired : db'.tables.retired =
        if db.deletionRetiresUsername current then
          (db.tables.retire current.username now (some current.id)).retired
        else db.tables.retired)
  | deleted (current : User) (now : Text) (hcurrent : current ∈ db.tables.users)
      (husers : db'.tables.users = db.tables.users.filter (·.id ≠ current.id))
      (hretired : db'.tables.retired =
        ((if db.deletionRetiresUsername current then db.tables.retire current.username now none
          else db.tables).deleteUser current.id).retired)
  | released (username : Text) (releasedBy : User)
      (haction : action = .releaseRetiredUsername username releasedBy)
      (husers : db'.tables.users = db.tables.users)
      (hretired : db'.tables.retired =
        db.tables.retired.filter fun row => nocase row.username ≠ nocase username)

structure SameMarks (db db' : Database) : Prop where
  linkHasRun : db'.tables.linkHasRun = db.tables.linkHasRun
  highWater : db.tables.highWater ≤ db'.tables.highWater
  covers : (∀ user ∈ db.tables.users, user.id ≤ db.tables.highWater) →
    ∀ user ∈ db'.tables.users, user.id ≤ db'.tables.highWater

theorem SameMarks.refl (db : Database) : SameMarks db db := ⟨rfl, le_refl _, fun h => h⟩

variable {lib : Library} {action : NameAction} {db db' : Database}

theorem sameMarks_of_eq (hlink : db'.tables.linkHasRun = db.tables.linkHasRun)
    (hwater : db'.tables.highWater = db.tables.highWater)
    (hback : ∀ user ∈ db'.tables.users, ∃ old ∈ db.tables.users, old.id = user.id) :
    SameMarks db db' := by
  refine ⟨hlink, hwater.ge, ?_⟩
  intro hcovers user huser
  obtain ⟨old, hold, hid⟩ := hback user huser
  rw [hwater, ← hid]
  exact hcovers old hold

theorem updateUser_back {t : Tables} {id : Nat} {change : User → User}
    (hid : ∀ user, (change user).id = user.id) :
    ∀ user ∈ (t.updateUser id change).users, ∃ old ∈ t.users, old.id = user.id := by
  intro user huser
  rcases mem_updateUser.mp huser with ⟨old, hold, _, rfl⟩ | ⟨hold, _⟩
  · exact ⟨old, hold, (hid old).symm⟩
  · exact ⟨user, hold, rfl⟩

theorem isUsernameRetired_eq_false {username : Text} (h : db.isUsernameRetired username = false) :
    ∀ row ∈ db.tables.retired, nocase row.username ≠ nocase username := by
  intro row hrow hsame
  have hyes : db.isUsernameRetired username = true :=
    any_eq_true.mpr ⟨row, hrow, by simpa using hsame⟩
  rw [h] at hyes
  cases hyes

theorem NameEffect.refl (action : NameAction) (db : Database) : NameEffect action db db :=
  .kept id (fun _ => rfl) (fun _ => rfl) (fun _ h => h) (by simp) rfl

variable {actor current : User} {now newUsername : Text} {requested : Bool}

theorem rename_keeps (h : db.rename lib current newUsername actor requested now = .ok db') :
    db'.tables.users = (db.tables.updateUser current.id fun user =>
        { user with username := newUsername }).users ∧
      db'.tables.linkHasRun = db.tables.linkHasRun ∧
      db'.tables.highWater = db.tables.highWater := by
  obtain ⟨_, _, _, htables⟩ := rename_cases h
  rw [htables]
  simp only [recordChange]
  split <;> exact ⟨rfl, rfl, rfl⟩

theorem nameEffect_rename (hcurrent : current ∈ db.tables.users)
    (h : db.rename lib current newUsername actor requested now = .ok db') :
    NameEffect action db db' ∧ SameMarks db db' := by
  obtain ⟨hfree, hretired, _, htables⟩ := rename_cases h
  obtain ⟨husers, hlink, hwater⟩ := rename_keeps h
  constructor
  · refine .renamed current newUsername now hcurrent hfree (isUsernameRetired_eq_false hretired)
      husers ?_
    rw [htables]
    simp only [recordChange]
    split <;> rfl
  · exact sameMarks_of_eq hlink hwater (husers ▸ updateUser_back fun _ => rfl)

theorem nameEffect_delete {target deletedBy : User} {declining : Bool}
    (h : deleteUser target deletedBy declining now db = .ok db') :
    NameEffect action db db' ∧ SameMarks db db' := by
  obtain ⟨current, hcurrent, htables, _⟩ := deleteUser_cases h
  constructor
  · refine .deleted current now hcurrent ?_ ?_
    · rw [htables]
      split <;> rfl
    · rw [htables]
      rfl
  · refine sameMarks_of_eq ?_ ?_ ?_
    · rw [htables]
      split <;> rfl
    · rw [htables]
      split <;> rfl
    · intro user huser
      exact ⟨user, deleteUser_left h huser, rfl⟩

theorem nameEffect_perform (h : action.perform lib db = .ok db') :
    NameEffect action db db' ∧ SameMarks db db' := by
  cases action with
  | createUser username passwordHash verifyKey userLevel pendingApproval now =>
    obtain ⟨htables, _, _, _, hretired⟩ := createUser_cases h
    have husers := createUser_users h
    constructor
    · refine .created _ rfl ?_ (isUsernameRetired_eq_false hretired) husers ?_
      · have hnames := db'.valid.usernames
        rw [husers, map_append, nodup_append] at hnames
        intro old hold
        exact hnames.2.2 _ (mem_map_of_mem hold) _ (by simp)
      · rw [htables]
        cases verifyKey <;> rfl
    · have hwater : db'.tables.highWater = max db.tables.highWater db.nextUserId := by
        rw [htables]
        cases verifyKey <;> rfl
      refine ⟨by rw [htables]; cases verifyKey <;> rfl, by omega, ?_⟩
      intro hcovers user huser
      rw [husers, mem_append, mem_singleton] at huser
      rcases huser with hold | rfl
      · have := hcovers user hold
        omega
      · rw [hwater]
        exact Nat.le_max_right _ _
  | renameUser target newUsername renamedBy now =>
    simp only [NameAction.perform, renameUser, bind_eq_ok] at h
    obtain ⟨_, _, current, hcurrent, _, _, hrename⟩ := h
    exact nameEffect_rename (requireUserById_ok hcurrent).1 hrename
  | requestUsernameChange user newUsername now =>
    simp only [NameAction.perform, requestUsernameChange, bind_eq_ok, pure_eq_ok] at h
    obtain ⟨_, _, _, _, _, _, _, _, _, _, _, _, after, hafter, _, _, rfl⟩ := h
    constructor
    · exact .kept id (fun _ => rfl) (fun _ => rfl) (fun _ h => h) (by rw [write_ok hafter]; simp)
        (by rw [write_ok hafter])
    · exact sameMarks_of_eq (by rw [write_ok hafter]) (by rw [write_ok hafter])
        (by rw [write_ok hafter]; exact fun user huser => ⟨user, huser, rfl⟩)
  | approveUsernameRequest requestId approvedBy now =>
    simp only [NameAction.perform, approveUsernameRequest, bind_eq_ok] at h
    obtain ⟨_, _, _, _, current, hcurrent, _, _, hrename⟩ := h
    exact nameEffect_rename (requireUserById_ok hcurrent).1 hrename
  | approvePendingUser target approvedBy =>
    rcases approvePendingUser_cases h with rfl | ⟨current, hcurrent, htables, _⟩
    · exact ⟨.refl _ _, .refl _⟩
    · constructor
      · refine .kept (fun user => if user.id = current.id then { user with pendingApproval := false }
          else user) ?_ ?_ ?_ (by rw [htables]; rfl) (by rw [htables]; rfl)
        · intro user
          split <;> rfl
        · intro user
          split <;> rfl
        · intro user hpending
          split
          · rfl
          · exact hpending
      · refine sameMarks_of_eq (by rw [htables]; rfl) (by rw [htables]; rfl) ?_
        rw [htables]
        exact updateUser_back fun _ => rfl
  | declinePendingUser target declinedBy now => exact nameEffect_delete h
  | deleteUser target deletedBy now => exact nameEffect_delete h
  | releaseRetiredUsername username releasedBy =>
    simp only [NameAction.perform, releaseRetiredUsername, bind_eq_ok, pure_eq_ok] at h
    obtain ⟨_, _, after, hafter, _, _, rfl⟩ := h
    exact ⟨.released username releasedBy rfl (by rw [write_ok hafter]) (by rw [write_ok hafter]),
      sameMarks_of_eq (by rw [write_ok hafter]) (by rw [write_ok hafter])
        (by rw [write_ok hafter]; exact fun user huser => ⟨user, huser, rfl⟩)⟩

end Database

end Auth

end NetBBS
