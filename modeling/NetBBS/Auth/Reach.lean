import NetBBS.Auth.Governance
import NetBBS.Foundation.Runs

/-! # Nobody widens their own reach -/

namespace NetBBS

open Foundation List

namespace Auth

/-- A call, with the snapshots its caller holds. -/
inductive Action where
  | createUser (username : Text) (passwordHash : Option Text) (verifyKey : Option VerifyKey)
      (userLevel : Int) (pendingApproval : Bool) (now : Text)
  | setUserLevel (target : User) (newLevel : Int) (changedBy : User)
  | promoteAutomatically (target : User) (fromLevel toLevel : Int)
  | setUserDisabled (target : User) (disabled : Bool) (changedBy : User) (now : Text)
  | approvePendingUser (target approvedBy : User)
  | declinePendingUser (target declinedBy : User) (now : Text)
  | deleteUser (target deletedBy : User) (now : Text)
  | setStaffPermissions (target : User) (permissions : Nat) (changedBy : User)
  | setPasswordHash (target : User) (passwordHash : Option Text) (changedBy : User)
  | addSshKey (target : User) (key : VerifyKey) (label : Text) (changedBy : User) (now : Text)
  | removeSshKey (target : User) (fingerprint : Text) (changedBy : User)

namespace Action

def perform : Action → Database → Except Refusal Database
  | .createUser username passwordHash verifyKey userLevel pendingApproval now =>
    Database.createUser username passwordHash verifyKey userLevel pendingApproval now
  | .setUserLevel target newLevel changedBy => Database.setUserLevel target newLevel changedBy
  | .promoteAutomatically target fromLevel toLevel =>
    Database.promoteAutomatically target fromLevel toLevel
  | .setUserDisabled target disabled changedBy now =>
    Database.setUserDisabled target disabled changedBy now
  | .approvePendingUser target approvedBy => Database.approvePendingUser target approvedBy
  | .declinePendingUser target declinedBy now => Database.declinePendingUser target declinedBy now
  | .deleteUser target deletedBy now => Database.deleteUser target deletedBy false now
  | .setStaffPermissions target permissions changedBy =>
    Database.setStaffPermissions target permissions changedBy
  | .setPasswordHash target passwordHash changedBy =>
    Database.setPasswordHash target passwordHash changedBy
  | .addSshKey target key label changedBy now => Database.addSshKey target key label changedBy now
  | .removeSshKey target fingerprint changedBy => Database.removeSshKey target fingerprint changedBy

/-- A transaction that raises is rolled back. -/
def step (db : Database) (action : Action) : Database :=
  match action.perform db with
  | .ok db' => db'
  | .error _ => db

theorem step_cases (db : Database) (action : Action) :
    action.perform db = .ok (step db action) ∨ step db action = db := by
  rw [step]
  cases hperform : action.perform db with
  | ok db' => exact .inl rfl
  | error e => exact .inr rfl

variable {db : Database} {action : Action}

/-- Whether the call may run only on someone's authority, or on a promotion rule's. -/
def guarded : Action → Bool
  | .createUser .. | .addSshKey .. | .removeSshKey .. => false
  | _ => true

/-- Who calls; a promotion rule is nobody. -/
def actor : Action → Option Nat
  | .setUserLevel _ _ changedBy | .setUserDisabled _ _ changedBy _ => some changedBy.id
  | .approvePendingUser _ approvedBy => some approvedBy.id
  | .declinePendingUser _ declinedBy _ => some declinedBy.id
  | .deleteUser _ deletedBy _ => some deletedBy.id
  | .setStaffPermissions _ _ changedBy | .setPasswordHash _ _ changedBy => some changedBy.id
  | _ => none

def setsPasswordOf : Action → Option Nat
  | .setPasswordHash _ _ changedBy => some changedBy.id
  | _ => none

def deletesOwn : Action → Option Nat
  | .deleteUser _ deletedBy _ => some deletedBy.id
  | _ => none

/-- What a call does that no usable SysOp makes. -/
structure WithinReach (action : Action) (db db' : Database) : Prop where
  noSysop : ∀ user ∈ db'.tables.users, sysopLevel ≤ user.userLevel →
    ∃ old ∈ db.tables.users, old.id = user.id ∧ sysopLevel ≤ old.userLevel
  noStaff : ∀ user ∈ db'.tables.users,
    ∃ old ∈ db.tables.users, old.id = user.id ∧ user.staffPermissions = old.staffPermissions
  untouched : ∀ user ∈ db.tables.users, user.Protected →
    (user ∈ db'.tables.users ∧ db'.keysOf user.id = db.keysOf user.id) ∨
      (action.setsPasswordOf = some user.id ∧ db'.keysOf user.id = db.keysOf user.id ∧
        ∃ passwordHash, { user with passwordHash } ∈ db'.tables.users) ∨
      (action.deletesOwn = some user.id ∧ ∀ other ∈ db'.tables.users, other.id ≠ user.id)

theorem withinReach_refl (action : Action) (db : Database) : action.WithinReach db db where
  noSysop user huser hlevel := ⟨user, huser, rfl, hlevel⟩
  noStaff user huser := ⟨user, huser, rfl, rfl⟩
  untouched _ huser _ := .inl ⟨huser, rfl⟩

variable {db' : Database}

theorem withinReach_update {current : User} {change : User → User} (hcurrent : current ∈ db.tables.users)
    (htables : db'.tables = db.tables.updateUser current.id change) (hid : (change current).id = current.id)
    (hlevel : sysopLevel ≤ (change current).userLevel → sysopLevel ≤ current.userLevel)
    (hstaff : (change current).staffPermissions = current.staffPermissions)
    (hreach : ¬ current.Protected) : action.WithinReach db db' where
  noSysop user huser hhigh := by
    rw [htables, Database.mem_updateUser] at huser
    rcases huser with ⟨old, hold, holdId, rfl⟩ | ⟨hold, _⟩
    · rw [Database.eq_of_id hold hcurrent holdId] at hhigh ⊢
      exact ⟨current, hcurrent, hid.symm, hlevel hhigh⟩
    · exact ⟨user, hold, rfl, hhigh⟩
  noStaff user huser := by
    rw [htables, Database.mem_updateUser] at huser
    rcases huser with ⟨old, hold, holdId, rfl⟩ | ⟨hold, _⟩
    · rw [Database.eq_of_id hold hcurrent holdId]
      exact ⟨current, hcurrent, hid.symm, hstaff⟩
    · exact ⟨user, hold, rfl, rfl⟩
  untouched user huser hprotected := by
    have hne : user.id ≠ current.id := by
      intro hsame
      rw [Database.eq_of_id huser hcurrent hsame] at hprotected
      exact hreach hprotected
    refine .inl ⟨?_, ?_⟩
    · rw [htables]
      exact Database.mem_updateUser.mpr (.inr ⟨huser, hne⟩)
    · rw [Database.keysOf, Database.keysOf, htables]
      rfl

theorem withinReach_setPasswordHash {target changedBy : User} {passwordHash : Option Text}
    (hset : Database.setPasswordHash target passwordHash changedBy db = .ok db')
    (hactor : ¬ db.SysopActs changedBy.id) :
    (Action.setPasswordHash target passwordHash changedBy).WithinReach db db' := by
  obtain ⟨current, hcurrent, htables, hmay, _⟩ := Database.setPasswordHash_cases hset
  rcases hmay with hown | hacts | hreach
  · have hkeys : ∀ id, db'.keysOf id = db.keysOf id := by
      intro id
      rw [Database.keysOf, Database.keysOf, htables]
      rfl
    have hback : ∀ user ∈ db'.tables.users, ∃ old ∈ db.tables.users, old.id = user.id ∧
        user.userLevel = old.userLevel ∧ user.staffPermissions = old.staffPermissions := by
      intro user huser
      rw [htables, Database.mem_updateUser] at huser
      rcases huser with ⟨old, hold, _, rfl⟩ | ⟨hold, _⟩
      · exact ⟨old, hold, rfl, rfl, rfl⟩
      · exact ⟨user, hold, rfl, rfl, rfl⟩
    constructor
    · intro user huser hhigh
      obtain ⟨old, hold, hid, hlevel, _⟩ := hback user huser
      exact ⟨old, hold, hid, hlevel ▸ hhigh⟩
    · intro user huser
      obtain ⟨old, hold, hid, _, hstaff⟩ := hback user huser
      exact ⟨old, hold, hid, hstaff⟩
    · intro user huser _
      by_cases hid : user.id = current.id
      · right
        left
        refine ⟨by rw [setsPasswordOf, hown, hid], hkeys _, passwordHash, ?_⟩
        rw [htables]
        exact Database.mem_updateUser.mpr (.inl ⟨user, huser, hid, rfl⟩)
      · left
        refine ⟨?_, hkeys _⟩
        rw [htables]
        exact Database.mem_updateUser.mpr (.inr ⟨huser, hid⟩)
  · exact absurd hacts hactor
  · exact withinReach_update hcurrent htables rfl id rfl hreach

theorem withinReach_delete {target deletedBy : User} {declining : Bool} {now : Text}
    (hdelete : Database.deleteUser target deletedBy declining now db = .ok db')
    (hactor : ¬ db.SysopActs deletedBy.id)
    (howns : declining = false → action.deletesOwn = some deletedBy.id) :
    action.WithinReach db db' := by
  obtain ⟨current, hcurrent, htables, hdeclining, hdeleting, _⟩ := Database.deleteUser_cases hdelete
  have husers : db'.tables.users = db.tables.users.filter (·.id ≠ current.id) := by
    rw [htables]
    split <;> rfl
  have hkeys : db'.tables.keys = db.tables.keys.filter (·.userId ≠ current.id) := by
    rw [htables]
    split <;> rfl
  have hback : ∀ user ∈ db'.tables.users, user ∈ db.tables.users ∧ user.id ≠ current.id := by
    intro user huser
    rw [husers] at huser
    simpa using huser
  constructor
  · intro user huser hhigh
    exact ⟨user, (hback user huser).1, rfl, hhigh⟩
  · intro user huser
    exact ⟨user, (hback user huser).1, rfl, rfl⟩
  · intro user huser hprotected
    by_cases hid : user.id = current.id
    · have hsame : user = current := Database.eq_of_id huser hcurrent hid
      cases hcase : declining with
      | true =>
        rcases (hdeclining hcase).2 with hacts | hreach
        · exact absurd hacts hactor
        · exact absurd (hsame ▸ hprotected) hreach
      | false =>
        rcases hdeleting hcase with hown | hacts
        · right
          right
          refine ⟨by rw [howns hcase, hown, hid], fun other hother => ?_⟩
          rw [hid]
          exact (hback other hother).2
        · exact absurd hacts hactor
    · left
      rw [husers]
      refine ⟨mem_filter.mpr ⟨huser, by simpa using hid⟩, ?_⟩
      rw [Database.keysOf, Database.keysOf, hkeys, filter_filter]
      apply filter_congr
      intro key _
      by_cases howner : key.userId = user.id
      · simp [howner, hid]
      · simp [howner]

theorem withinReach_perform (hperform : action.perform db = .ok db')
    (hguarded : action.guarded = true) (hactor : ∀ id ∈ action.actor, ¬ db.SysopActs id) :
    action.WithinReach db db' := by
  cases action with
  | createUser => cases hguarded
  | addSshKey => cases hguarded
  | removeSshKey => cases hguarded
  | setUserLevel target newLevel changedBy =>
    have hnot : ¬ db.SysopActs changedBy.id := hactor _ rfl
    rcases Database.setUserLevel_cases hperform with rfl |
      ⟨current, hcurrent, htables, _, hauthority, hhigh, _⟩
    · exact withinReach_refl _ _
    · exact withinReach_update hcurrent htables rfl
        (fun hlevel => absurd (hhigh hlevel).1 hnot) rfl (hauthority.resolve_left hnot)
  | promoteAutomatically target fromLevel toLevel =>
    rcases Database.promoteAutomatically_cases hperform with rfl |
      ⟨current, hcurrent, htables, _, hlow, hreach⟩
    · exact withinReach_refl _ _
    · exact withinReach_update hcurrent htables rfl
        (fun hlevel => absurd (show sysopLevel ≤ toLevel from hlevel) (by omega)) rfl hreach
  | setUserDisabled target disabled changedBy now =>
    have hnot : ¬ db.SysopActs changedBy.id := hactor _ rfl
    rcases Database.setUserDisabled_cases hperform with rfl |
      ⟨current, hcurrent, htables, hauthority, _⟩
    · exact withinReach_refl _ _
    · exact withinReach_update hcurrent htables rfl id rfl (hauthority.resolve_left hnot)
  | approvePendingUser target approvedBy =>
    have hnot : ¬ db.SysopActs approvedBy.id := hactor _ rfl
    rcases Database.approvePendingUser_cases hperform with rfl | ⟨current, hcurrent, htables, hauthority⟩
    · exact withinReach_refl _ _
    · exact withinReach_update hcurrent htables rfl id rfl (hauthority.resolve_left hnot)
  | declinePendingUser target declinedBy now =>
    exact withinReach_delete hperform (hactor _ rfl) fun hfalse => by cases hfalse
  | deleteUser target deletedBy now =>
    exact withinReach_delete hperform (hactor _ rfl) fun _ => rfl
  | setStaffPermissions target permissions changedBy =>
    have hnot : ¬ db.SysopActs changedBy.id := hactor _ rfl
    rcases Database.setStaffPermissions_cases hperform with rfl | ⟨current, _, _, hacts, _⟩
    · exact withinReach_refl _ _
    · exact absurd hacts hnot
  | setPasswordHash target passwordHash changedBy =>
    exact withinReach_setPasswordHash hperform (hactor _ rfl)

theorem governed_perform (h : db.Governed) (hperform : action.perform db = .ok db') :
    db'.Governed := by
  cases action with
  | createUser => exact h.createUser hperform
  | addSshKey => exact h.addSshKey hperform
  | removeSshKey => exact h.removeSshKey hperform
  | declinePendingUser => exact h.deleteUser hperform
  | deleteUser => exact h.deleteUser hperform
  | setPasswordHash => exact h.setPasswordHash hperform
  | setUserLevel target newLevel changedBy =>
    rcases Database.setUserLevel_cases hperform with rfl |
      ⟨current, hcurrent, htables, _, _, _, hlast⟩
    · exact h
    · refine h.update hcurrent htables (fun _ => ⟨rfl, rfl, rfl, rfl⟩) fun husable => ?_
      by_cases hlow : newLevel < sysopLevel
      · exact .inr (hlast hlow husable)
      · left
        simp only [User.isUsableSysop, Bool.and_eq_true, decide_eq_true_eq] at husable ⊢
        exact ⟨⟨Int.not_lt.mp hlow, husable.1.2⟩, husable.2⟩
  | promoteAutomatically target fromLevel toLevel =>
    rcases Database.promoteAutomatically_cases hperform with rfl |
      ⟨current, hcurrent, htables, _, _, hreach⟩
    · exact h
    · refine h.update hcurrent htables (fun _ => ⟨rfl, rfl, rfl, rfl⟩) fun husable => ?_
      simp only [User.isUsableSysop, Bool.and_eq_true, decide_eq_true_eq] at husable
      exact absurd (.inl husable.1.1) hreach
  | setUserDisabled target disabled changedBy now =>
    rcases Database.setUserDisabled_cases hperform with rfl |
      ⟨current, hcurrent, htables, _, hlast⟩
    · exact h
    · refine h.update hcurrent htables (fun _ => ⟨rfl, rfl, rfl, rfl⟩) fun husable => ?_
      cases disabled with
      | true => exact .inr (hlast rfl husable)
      | false =>
        left
        simp only [User.isUsableSysop, Bool.and_eq_true, decide_eq_true_eq] at husable ⊢
        exact ⟨⟨husable.1.1, rfl⟩, husable.2⟩
  | approvePendingUser target approvedBy =>
    rcases Database.approvePendingUser_cases hperform with rfl | ⟨current, hcurrent, htables, _⟩
    · exact h
    · refine h.update hcurrent htables (fun _ => ⟨rfl, rfl, rfl, rfl⟩) fun husable => ?_
      left
      simp only [User.isUsableSysop, Bool.and_eq_true, decide_eq_true_eq] at husable ⊢
      exact ⟨husable.1, rfl⟩
  | setStaffPermissions target permissions changedBy =>
    rcases Database.setStaffPermissions_cases hperform with rfl | ⟨current, hcurrent, htables, _, _⟩
    · exact h
    · exact h.update hcurrent htables (fun _ => ⟨rfl, rfl, rfl, rfl⟩) fun husable => .inl husable

/-- A registration is not made as a SysOp. -/
def Ordinary : Action → Prop
  | .createUser _ _ _ userLevel pendingApproval _ => pendingApproval = true → userLevel < sysopLevel
  | _ => True

theorem pendingHoldNothing_perform (h : db.PendingHoldNothing)
    (hordinary : action.Ordinary) (hperform : action.perform db = .ok db') :
    db'.PendingHoldNothing := by
  cases action with
  | createUser username passwordHash verifyKey userLevel pendingApproval now =>
    intro user huser hpending
    rw [Database.createUser_users hperform, mem_append, mem_singleton] at huser
    rcases huser with hold | rfl
    · exact h user hold hpending
    · have hlow : userLevel < sysopLevel := hordinary hpending
      rintro (hhigh | hstaff)
      · have hlevel : sysopLevel ≤ userLevel := hhigh
        omega
      · exact hstaff rfl
  | addSshKey target key label changedBy now =>
    obtain ⟨current, hcurrent, _, htables⟩ := Database.addSshKey_cases hperform
    intro user huser hpending
    rw [htables] at huser
    split at huser
    · rw [Database.mem_updateUser] at huser
      rcases huser with ⟨old, hold, _, rfl⟩ | ⟨hold, _⟩
      · exact h old hold hpending
      · exact h user hold hpending
    · exact h user huser hpending
  | removeSshKey target fingerprint changedBy =>
    obtain ⟨_, _, _, _, htables⟩ := Database.removeSshKey_cases hperform
    intro user huser hpending
    rw [htables, Database.mem_updateUser] at huser
    rcases huser with ⟨old, hold, _, rfl⟩ | ⟨hold, _⟩
    · exact h old hold hpending
    · exact h user hold hpending
  | declinePendingUser target declinedBy now =>
    intro user huser hpending
    exact h user (Database.deleteUser_left hperform huser) hpending
  | deleteUser target deletedBy now =>
    intro user huser hpending
    exact h user (Database.deleteUser_left hperform huser) hpending
  | setPasswordHash target passwordHash changedBy =>
    obtain ⟨current, hcurrent, htables, _⟩ := Database.setPasswordHash_cases hperform
    exact h.update hcurrent htables fun hold => hold
  | setUserLevel target newLevel changedBy =>
    rcases Database.setUserLevel_cases hperform with rfl |
      ⟨current, hcurrent, htables, _, _, hhigh, _⟩
    · exact h
    · refine h.update hcurrent htables fun hold hpending => ?_
      rintro (hlevel | hstaff)
      · have hnot := (hhigh hlevel).2
        rw [show current.pendingApproval = true from hpending] at hnot
        cases hnot
      · exact hold hpending (.inr hstaff)
  | promoteAutomatically target fromLevel toLevel =>
    rcases Database.promoteAutomatically_cases hperform with rfl |
      ⟨current, hcurrent, htables, _, hlow, hreach⟩
    · exact h
    · refine h.update hcurrent htables fun _ _ => ?_
      rintro (hlevel | hstaff)
      · have hhigh : sysopLevel ≤ toLevel := hlevel
        omega
      · exact hreach (.inr hstaff)
  | setUserDisabled target disabled changedBy now =>
    rcases Database.setUserDisabled_cases hperform with rfl | ⟨current, hcurrent, htables, _, _⟩
    · exact h
    · exact h.update hcurrent htables fun hold => hold
  | approvePendingUser target approvedBy =>
    rcases Database.approvePendingUser_cases hperform with rfl | ⟨current, hcurrent, htables, _⟩
    · exact h
    · exact h.update hcurrent htables fun _ hpending => by cases hpending
  | setStaffPermissions target permissions changedBy =>
    rcases Database.setStaffPermissions_cases hperform with rfl |
      ⟨current, hcurrent, htables, _, happroved⟩
    · exact h
    · refine h.update hcurrent htables fun hold hpending => ?_
      rintro (hlevel | hstaff)
      · exact hold hpending (.inl hlevel)
      · have hnot := happroved hstaff
        rw [show current.pendingApproval = true from hpending] at hnot
        cases hnot

theorem governed_step (h : db.Governed) (action : Action) : (step db action).Governed := by
  rcases step_cases db action with hperform | hsame
  · exact governed_perform h hperform
  · rwa [hsame]

theorem governed_foldl (h : db.Governed) (actions : List Action) : (actions.foldl step db).Governed :=
  foldl_invariant actions db h fun v _ hv => governed_step hv v.2

theorem pendingHoldNothing_foldl (h : db.PendingHoldNothing) (actions : List Action)
    (hordinary : ∀ action ∈ actions, action.Ordinary) :
    (actions.foldl step db).PendingHoldNothing := by
  refine foldl_invariant actions db h fun v hv hpending => ?_
  rcases step_cases v.1 v.2 with hperform | hsame
  · exact pendingHoldNothing_perform hpending (hordinary v.2 (visited_input actions db v hv)) hperform
  · rwa [hsame]

/-- In every state that calls lead to, whoever makes them: a usable SysOp is counted, every account has
a password or a key and shows one of its keys, and the next call stays within its caller's reach. -/
theorem node_keeps_sysop (db : Database) (hsysop : 1 ≤ db.countSysops)
    (hcredential : ∀ user ∈ db.tables.users, db.HasCredential user)
    (hmirror : ∀ user ∈ db.tables.users, db.Mirrors user) (actions : List Action) :
    let reached := actions.foldl step db
    1 ≤ reached.countSysops ∧
      (∀ (action : Action), action.guarded = true →
        (∀ id ∈ action.actor, ¬ reached.SysopActs id) → action.WithinReach reached (step reached action)) ∧
      (∀ user ∈ reached.tables.users, reached.HasCredential user) ∧
      (∀ user ∈ reached.tables.users, reached.Mirrors user) ∧
      (db.PendingHoldNothing → (∀ action ∈ actions, action.Ordinary) → reached.PendingHoldNothing) := by
  intro reached
  have hgoverned : reached.Governed :=
    governed_foldl ⟨Database.countSysops_pos.mp hsysop, hcredential, hmirror⟩ actions
  refine ⟨Database.countSysops_pos.mpr hgoverned.sysop, ?_, hgoverned.credential, hgoverned.mirror,
    fun hpending hordinary => pendingHoldNothing_foldl hpending actions hordinary⟩
  intro action hguarded hactor
  rcases step_cases reached action with hperform | hsame
  · exact withinReach_perform hperform hguarded hactor
  · rw [hsame]
    exact withinReach_refl action reached

/-- The only SysOp of a new node tries to leave. -/
theorem node_keeps_sysop_setUp :
    1 ≤ ([Action.deleteUser firstSysop firstSysop "2026-01-02T00:00:00.000000Z".toList].foldl step Database.setUp).countSysops :=
  (node_keeps_sysop Database.setUp (by decide)
    (by
      intro user huser
      rw [mem_singleton.mp huser]
      exact .inl rfl)
    (by
      intro user huser
      rw [mem_singleton.mp huser]
      exact ⟨fun _ => rfl, fun fingerprint hsome => by cases hsome⟩) _).1

end Action

end Auth

end NetBBS
