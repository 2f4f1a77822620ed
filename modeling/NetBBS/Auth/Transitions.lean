import NetBBS.Auth.Users

/-! # What each account operation can do -/

namespace NetBBS

open Foundation List

namespace Auth

/-- An account only a SysOp may change. -/
def User.Protected (user : User) : Prop := sysopLevel ≤ user.userLevel ∨ user.staffPermissions ≠ 0

instance (user : User) : Decidable user.Protected := by
  unfold User.Protected
  infer_instance

namespace Database

variable {db db' : Database}
variable {user target changedBy : User} {now fingerprint : Text} {passwordHash : Option Text}
    {verifyKey : Option VerifyKey}

theorem mem_updateUser {t : Tables} {id : Nat} {change : User → User} :
    user ∈ (t.updateUser id change).users ↔
      (∃ old ∈ t.users, old.id = id ∧ user = change old) ∨ user ∈ t.users ∧ user.id ≠ id := by
  simp only [Tables.updateUser, mem_map]
  constructor
  · rintro ⟨old, hold, rfl⟩
    by_cases hid : old.id = id
    · exact .inl ⟨old, hold, hid, by simp [hid]⟩
    · exact .inr ⟨by simpa [hid] using hold, by simp [hid]⟩
  · rintro (⟨old, hold, hid, rfl⟩ | ⟨hmem, hid⟩)
    · exact ⟨old, hold, by simp [hid]⟩
    · exact ⟨user, hmem, by simp [hid]⟩

theorem eq_of_id {other : User} (huser : user ∈ db.tables.users)
    (hother : other ∈ db.tables.users) (hid : user.id = other.id) : user = other :=
  inj_on_of_nodup_map db.valid.userIds huser hother hid

def SysopActs (db : Database) (actor : Nat) : Prop :=
  ∃ fresh ∈ db.tables.users, fresh.id = actor ∧ fresh.isUsableSysop = true

instance (db : Database) (actor : Nat) : Decidable (db.SysopActs actor) := by
  unfold SysopActs
  infer_instance

theorem requireUserById_ok {id : Nat} (h : db.requireUserById id = .ok user) :
    user ∈ db.tables.users ∧ user.id = id := by
  rw [requireUserById, orRefuse_eq_ok] at h
  exact getUserById_some h

variable {actor : Nat} {newLevel userLevel : Int} {deletedBy : User}
    {declining pendingApproval : Bool} {username : Text} {key : SshKey}

theorem requireSysop_ok (h : db.requireSysop actor = .ok ()) : db.SysopActs actor := by
  rw [requireSysop, refuseIf_eq_ok, not_not] at h
  obtain ⟨fresh, hfresh, husable⟩ := h
  obtain ⟨hmem, hid⟩ := getUserById_some hfresh
  exact ⟨fresh, hmem, hid, husable⟩

theorem requireAccountAuthority_ok {permission : StaffPermission}
    (h : db.requireAccountAuthority actor target permission = .ok ()) :
    db.SysopActs actor ∨ ¬ target.Protected := by
  rw [requireAccountAuthority] at h
  split at h
  · rename_i hany
    obtain ⟨fresh, hfresh, husable⟩ := (Option.any_eq_true _ _).mp hany
    obtain ⟨hmem, hid⟩ := getUserById_some hfresh
    exact .inl ⟨fresh, hmem, hid, husable⟩
  · right
    simp only [bind_eq_ok, refuseIf_eq_ok] at h
    obtain ⟨_, _, hreach⟩ := h
    exact hreach

theorem refuseIfLastSysop_ok {removes : Bool}
    (h : db.refuseIfLastSysop target removes = .ok ()) (hremoves : removes = true)
    (husable : target.isUsableSysop = true) : 2 ≤ db.countSysops := by
  simp only [refuseIfLastSysop, hremoves, husable, Bool.not_true, Bool.false_eq_true, if_false,
    refuseIf_eq_ok] at h
  omega

theorem checkLevelChange_ok {current : User} {changedBy : Nat}
    (h : db.checkLevelChange current newLevel changedBy = .ok ()) :
    isValidLevel newLevel = true ∧ (db.SysopActs changedBy ∨ ¬ current.Protected) ∧
      (sysopLevel ≤ newLevel → db.SysopActs changedBy ∧ current.pendingApproval = false) ∧
      (newLevel < sysopLevel → current.isUsableSysop = true → 2 ≤ db.countSysops) := by
  simp only [checkLevelChange, bind_eq_ok, refuseIf_eq_ok, not_not] at h
  obtain ⟨_, hvalid, _, hauthority, h⟩ := h
  split at h
  · rename_i hsysop
    simp only [bind_eq_ok, refuseIf_eq_ok] at h
    obtain ⟨_, hacts, _, hpending, hlast⟩ := h
    refine ⟨hvalid, requireAccountAuthority_ok hauthority, ?_, fun hlow => by omega⟩
    intro _
    exact ⟨requireSysop_ok hacts, by simpa [hsysop] using hpending⟩
  · rename_i hsysop
    simp only [bind_eq_ok, refuseIf_eq_ok] at h
    obtain ⟨_, _, hlast⟩ := h
    refine ⟨hvalid, requireAccountAuthority_ok hauthority, fun hhigh => absurd hhigh hsysop, ?_⟩
    intro hlow husable
    exact refuseIfLastSysop_ok hlast (by simpa using hlow) husable

theorem setUserLevel_cases (h : setUserLevel target newLevel changedBy db = .ok db') :
    db' = db ∨ ∃ current ∈ db.tables.users,
      db'.tables = db.tables.updateUser current.id (fun user =>
        { user with userLevel := newLevel, levelSetByHand := true }) ∧
      isValidLevel newLevel = true ∧ (db.SysopActs changedBy.id ∨ ¬ current.Protected) ∧
      (sysopLevel ≤ newLevel → db.SysopActs changedBy.id ∧ current.pendingApproval = false) ∧
      (newLevel < sysopLevel → current.isUsableSysop = true → 2 ≤ db.countSysops) := by
  rw [setUserLevel] at h
  split at h
  · cases h
    exact .inl rfl
  · simp only [bind_eq_ok] at h
    obtain ⟨current, hcurrent, h⟩ := h
    split at h
    · cases h
      exact .inl rfl
    · simp only [bind_eq_ok, pure_eq_ok] at h
      obtain ⟨_, hcheck, after, hwrite, _, _, rfl⟩ := h
      exact .inr ⟨current, (requireUserById_ok hcurrent).1, write_ok hwrite, checkLevelChange_ok hcheck⟩

theorem promoteAutomatically_cases {fromLevel toLevel : Int}
    (h : promoteAutomatically target fromLevel toLevel db = .ok db') :
    db' = db ∨ ∃ current ∈ db.tables.users,
      db'.tables = db.tables.updateUser current.id (fun user =>
        { user with userLevel := toLevel }) ∧
      0 ≤ toLevel ∧ toLevel < sysopLevel ∧ ¬ current.Protected := by
  simp only [promoteAutomatically, bind_eq_ok, refuseIf_eq_ok, not_not] at h
  obtain ⟨_, hrange, current, hcurrent, h⟩ := h
  split at h
  · cases h
    exact .inl rfl
  · rename_i hqualifies
    simp only [bind_eq_ok, pure_eq_ok] at h
    obtain ⟨after, hwrite, _, _, rfl⟩ := h
    simp only [not_or, not_not] at hqualifies
    refine .inr ⟨current, (requireUserById_ok hcurrent).1, write_ok hwrite, by omega, hrange.2.2, ?_⟩
    rintro (hlevel | hstaff)
    · omega
    · exact hstaff hqualifies.2.2.2.2

theorem setUserDisabled_cases {disabled : Bool}
    (h : setUserDisabled target disabled changedBy now db = .ok db') :
    db' = db ∨ ∃ current ∈ db.tables.users,
      db'.tables = db.tables.updateUser current.id (fun user =>
        { user with disabledAt := if disabled then some now else none }) ∧
      (db.SysopActs changedBy.id ∨ ¬ current.Protected) ∧
      (disabled = true → current.isUsableSysop = true → 2 ≤ db.countSysops) := by
  rw [setUserDisabled] at h
  split at h
  · cases h
    exact .inl rfl
  · simp only [bind_eq_ok] at h
    obtain ⟨current, hcurrent, h⟩ := h
    split at h
    · cases h
      exact .inl rfl
    · simp only [bind_eq_ok, pure_eq_ok] at h
      obtain ⟨_, hauthority, _, hlast, after, hwrite, _, _, rfl⟩ := h
      exact .inr ⟨current, (requireUserById_ok hcurrent).1, write_ok hwrite,
        requireAccountAuthority_ok hauthority, refuseIfLastSysop_ok hlast⟩

theorem approvePendingUser_cases {approvedBy : User}
    (h : approvePendingUser target approvedBy db = .ok db') :
    db' = db ∨ ∃ current ∈ db.tables.users,
      db'.tables = db.tables.updateUser current.id (fun user =>
        { user with pendingApproval := false }) ∧
      (db.SysopActs approvedBy.id ∨ ¬ current.Protected) := by
  rw [approvePendingUser] at h
  split at h
  · cases h
    exact .inl rfl
  · simp only [bind_eq_ok] at h
    obtain ⟨current, hcurrent, h⟩ := h
    split at h
    · cases h
      exact .inl rfl
    · simp only [bind_eq_ok, pure_eq_ok] at h
      obtain ⟨_, hauthority, after, hwrite, _, _, rfl⟩ := h
      exact .inr ⟨current, (requireUserById_ok hcurrent).1, write_ok hwrite,
        requireAccountAuthority_ok hauthority⟩

theorem setPasswordHash_cases (h : setPasswordHash target passwordHash changedBy db = .ok db') :
    ∃ current ∈ db.tables.users,
      db'.tables = db.tables.updateUser current.id (fun user => { user with passwordHash }) ∧
      (changedBy.id = current.id ∨ db.SysopActs changedBy.id ∨ ¬ current.Protected) ∧
      (passwordHash.isSome ∨ db.keysOf current.id ≠ [] ∨ current.fingerprint.isSome) := by
  simp only [setPasswordHash, bind_eq_ok] at h
  obtain ⟨current, hcurrent, h⟩ := h
  split at h
  · simp only [bind_eq_ok, pure_eq_ok, refuseIf_eq_ok] at h
    obtain ⟨_, hauthority, _, hlocked, after, hwrite, _, _, rfl⟩ := h
    refine ⟨current, (requireUserById_ok hcurrent).1, write_ok hwrite,
      .inr (requireAccountAuthority_ok hauthority), ?_⟩
    cases passwordHash <;> cases hfingerprint : current.fingerprint <;> simp_all
  · rename_i hown
    simp only [bind_eq_ok, pure_eq_ok, refuseIf_eq_ok] at h
    obtain ⟨_, hlocked, after, hwrite, _, _, rfl⟩ := h
    refine ⟨current, (requireUserById_ok hcurrent).1, write_ok hwrite, .inl (not_not.mp hown), ?_⟩
    cases passwordHash <;> cases hfingerprint : current.fingerprint <;> simp_all

theorem setStaffPermissions_cases {permissions : Nat}
    (h : setStaffPermissions target permissions changedBy db = .ok db') :
    db' = db ∨ ∃ current ∈ db.tables.users,
      db'.tables = db.tables.updateUser current.id (fun user =>
        { user with staffPermissions := permissions }) ∧
      db.SysopActs changedBy.id ∧ (permissions ≠ 0 → current.pendingApproval = false) := by
  simp only [setStaffPermissions, bind_eq_ok] at h
  obtain ⟨_, _, current, hcurrent, h⟩ := h
  split at h
  · cases h
    exact .inl rfl
  · simp only [bind_eq_ok, pure_eq_ok, refuseIf_eq_ok] at h
    obtain ⟨_, hacts, _, _, _, hpending, _, _, after, hwrite, _, _, rfl⟩ := h
    refine .inr ⟨current, (requireUserById_ok hcurrent).1, write_ok hwrite, requireSysop_ok hacts, ?_⟩
    intro hsome
    simpa [hsome] using hpending

section

variable (h : deleteUser target deletedBy declining now db = .ok db')

include h

theorem deleteUser_cases : ∃ current ∈ db.tables.users,
      db'.tables =
        ((if db.deletionRetiresUsername current then db.tables.retire current.username now none
          else db.tables).deleteUser current.id).forgetGuest current.id ∧
      (declining = true → current.pendingApproval = true ∧
        (db.SysopActs deletedBy.id ∨ ¬ current.Protected)) ∧
      (declining = false → deletedBy.id = current.id ∨ db.SysopActs deletedBy.id) ∧
      (current.isUsableSysop = true → 2 ≤ db.countSysops) := by
  rw [deleteUser] at h
  obtain ⟨current, hcurrent, h⟩ := (bind_eq_ok _ _ _).mp h
  obtain ⟨_, hpending, h⟩ := (bind_eq_ok _ _ _).mp h
  have hrest : ∀ {rest : Database},
      (do
        db.refuseIfLastSysop current true
        let cleared ← db.write (·.forgetGuest current.id)
        cleared.recordAction (some deletedBy.id) current.id
        let held ←
          if cleared.deletionRetiresUsername current then
            cleared.write (·.retire current.username now none)
          else pure cleared
        held.write (·.deleteUser current.id)) = .ok rest →
      rest.tables =
        ((if db.deletionRetiresUsername current then db.tables.retire current.username now none
          else db.tables).deleteUser current.id).forgetGuest current.id ∧
        (current.isUsableSysop = true → 2 ≤ db.countSysops) := by
    intro rest h
    obtain ⟨_, hlast, h⟩ := (bind_eq_ok _ _ _).mp h
    obtain ⟨cleared, hcleared, h⟩ := (bind_eq_ok _ _ _).mp h
    obtain ⟨_, _, h⟩ := (bind_eq_ok _ _ _).mp h
    have hsame : cleared.deletionRetiresUsername current = db.deletionRetiresUsername current := by
      rw [deletionRetiresUsername, deletionRetiresUsername, write_ok hcleared]
      rfl
    refine ⟨?_, refuseIfLastSysop_ok hlast rfl⟩
    rw [hsame] at h
    split at h
    · rename_i hretires
      obtain ⟨held, hheld, hdelete⟩ := (bind_eq_ok _ _ _).mp h
      rw [write_ok hdelete, write_ok hheld, write_ok hcleared, if_pos hretires]
      rfl
    · rename_i hretires
      rw [pure_bind] at h
      rw [write_ok h, write_ok hcleared, if_neg hretires]
      rfl
  have hmem := (requireUserById_ok hcurrent).1
  split at h
  · rename_i hdeclining
    obtain ⟨_, hauthority, h⟩ := (bind_eq_ok _ _ _).mp h
    obtain ⟨htables, hlast⟩ := hrest h
    refine ⟨current, hmem, htables, ?_, fun hnot => by simp [hdeclining] at hnot, hlast⟩
    intro _
    have hstill : current.pendingApproval = true := by simpa [hdeclining] using hpending
    exact ⟨hstill, requireAccountAuthority_ok hauthority⟩
  · rename_i hdeleting
    split at h
    · obtain ⟨_, hacts, h⟩ := (bind_eq_ok _ _ _).mp h
      obtain ⟨htables, hlast⟩ := hrest h
      exact ⟨current, hmem, htables, fun hdeclining => absurd hdeclining hdeleting,
        fun _ => .inr (requireSysop_ok hacts), hlast⟩
    · rename_i hown
      obtain ⟨htables, hlast⟩ := hrest h
      exact ⟨current, hmem, htables, fun hdeclining => absurd hdeclining hdeleting,
        fun _ => .inl (not_not.mp hown), hlast⟩

theorem deleteUser_left (huser : user ∈ db'.tables.users) :
    user ∈ db.tables.users := by
  obtain ⟨_, _, htables, _⟩ := deleteUser_cases h
  rw [htables] at huser
  split at huser <;> exact mem_of_mem_filter huser

end

theorem createUser_cases
    (h : createUser username passwordHash verifyKey userLevel pendingApproval now db = .ok db') :
    let user := db.newUser username passwordHash verifyKey userLevel pendingApproval now
    db'.tables = (verifyKey.elim id fun key => addKey user.id "default".toList key now)
        (addUser user db.tables) ∧
      (passwordHash.isSome ∨ verifyKey.isSome) ∧ validateUsername username = .ok () ∧
      isValidLevel userLevel = true ∧ db.isUsernameRetired username = false := by
  simp only [createUser, bind_eq_ok, refuseIf_eq_ok] at h
  obtain ⟨_, hcredential, _, hname, _, hlevel, _, hretired, inserted, hinserted, h⟩ := h
  have hgiven : passwordHash.isSome ∨ verifyKey.isSome := by
    cases passwordHash <;> cases verifyKey <;> simp_all
  refine ⟨?_, hgiven, hname, not_not.mp hlevel, by simpa using hretired⟩
  rw [reword_eq_ok] at hinserted
  cases verifyKey with
  | none =>
    cases h
    exact write_ok hinserted
  | some key =>
    rw [reword_eq_ok] at h
    rw [write_ok h, write_ok hinserted]
    rfl

theorem createUser_users
    (h : createUser username passwordHash verifyKey userLevel pendingApproval now db = .ok db') :
    db'.tables.users = db.tables.users ++
      [db.newUser username passwordHash verifyKey userLevel pendingApproval now] := by
  rw [(createUser_cases h).1]
  cases verifyKey <;> rfl

theorem addSshKey_cases {key : VerifyKey} {label : Text}
    (h : addSshKey target key label changedBy now db = .ok db') :
    ∃ current ∈ db.tables.users, current.id = target.id ∧
      db'.tables = (if current.fingerprint.isNone then
        (addKey current.id (keyLabel label) key now db.tables).updateUser current.id fun user =>
          { user with publicKey := some key.publicKey, fingerprint := some key.fingerprint }
        else addKey current.id (keyLabel label) key now db.tables) := by
  simp only [addSshKey, bind_eq_ok, orRefuse_eq_ok] at h
  obtain ⟨_, _, added, hadded, current, hcurrent, h⟩ := h
  obtain ⟨hmem, hid⟩ := getUserById_some hcurrent
  rw [write_ok hadded] at hmem
  refine ⟨current, hmem, hid, ?_⟩
  rw [hid]
  split at h
  · rename_i hnone
    simp only [bind_eq_ok, pure_eq_ok] at h
    obtain ⟨after, hafter, _, _, rfl⟩ := h
    rw [if_pos hnone, write_ok hafter, write_ok hadded]
  · rename_i hsome
    simp only [pure_bind, bind_eq_ok, pure_eq_ok] at h
    obtain ⟨_, _, rfl⟩ := h
    rw [if_neg hsome, write_ok hadded]

theorem mem_keysOf {id : Nat} : key ∈ db.keysOf id ↔ key ∈ db.tables.keys ∧ key.userId = id := by
  simp [keysOf]

theorem remainingKey_some {id : Nat} (h : db.remainingKey id fingerprint = some key) :
    key ∈ db.keysOf id ∧ key.fingerprint ≠ fingerprint := by
  have hmem : key ∈ (((db.keysOf id).filter (·.fingerprint ≠ fingerprint)).mergeSort
      fun a b => atMost a.createdAt b.createdAt) := mem_of_head? h
  simpa [mem_mergeSort] using hmem

theorem remainingKey_none {id : Nat} (h : db.remainingKey id fingerprint = none) :
    ∀ key ∈ db.keysOf id, key.fingerprint = fingerprint := by
  have hnil : ((db.keysOf id).filter (·.fingerprint ≠ fingerprint)).mergeSort
      (fun a b => atMost a.createdAt b.createdAt) = [] := head?_eq_none_iff.mp h
  intro key hkey
  by_contra hother
  have hmem : key ∈ ((db.keysOf id).filter (·.fingerprint ≠ fingerprint)).mergeSort
      (fun a b => atMost a.createdAt b.createdAt) := by
    simpa [mem_mergeSort] using ⟨hkey, hother⟩
  rw [hnil] at hmem
  cases hmem

theorem removeSshKey_cases (h : removeSshKey target fingerprint changedBy db = .ok db') :
    ∃ removed ∈ db.keysOf target.id, removed.fingerprint = fingerprint ∧
      (db.remainingKey target.id fingerprint = none →
        ∃ user ∈ db.tables.users, user.id = target.id ∧ user.passwordHash.isSome) ∧
      db'.tables =
        { db.tables with keys := db.tables.keys.filter (·.id ≠ removed.id) }.updateUser target.id
          fun user =>
            { user with
              publicKey := (db.remainingKey target.id fingerprint).map SshKey.publicKey
              fingerprint := (db.remainingKey target.id fingerprint).map SshKey.fingerprint } := by
  simp only [removeSshKey, bind_eq_ok, orRefuse_eq_ok, refuseIf_eq_ok, pure_eq_ok] at h
  obtain ⟨removed, hremoved, _, hlast, without, hwithout, after, hafter, _, _, rfl⟩ := h
  refine ⟨removed, mem_of_find?_eq_some hremoved, by simpa using find?_some hremoved, ?_, ?_⟩
  · intro hnone
    rw [hnone] at hlast
    obtain ⟨user, huser, hpassword⟩ := (Option.any_eq_true _ _).mp (by simpa using hlast)
    obtain ⟨hmem, hid⟩ := getUserById_some huser
    exact ⟨user, hmem, hid, hpassword⟩
  · rw [write_ok hafter, write_ok hwithout]

end Database

end Auth

end NetBBS
