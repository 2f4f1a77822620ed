import NetBBS.Auth.Transitions

/-! # The node stays governed -/

namespace NetBBS

open Foundation List

namespace Auth

namespace Database

variable {db db' : Database}

theorem countSysops_pos : 1 ≤ db.countSysops ↔ ∃ user ∈ db.tables.users, user.isUsableSysop = true := by
  rw [countSysops, Nat.succ_le_iff, length_pos_iff_exists_mem]
  simp

theorem another_sysop (h : 2 ≤ db.countSysops) (id : Nat) :
    ∃ user ∈ db.tables.users, user.isUsableSysop = true ∧ user.id ≠ id := by
  by_contra hnone
  push Not at hnone
  have hids : ((db.tables.users.filter User.isUsableSysop).map User.id).Nodup :=
    db.valid.userIds.sublist (filter_sublist.map _)
  have hall : ∀ other ∈ (db.tables.users.filter User.isUsableSysop).map User.id, other = id := by
    intro other hother
    obtain ⟨user, huser, rfl⟩ := mem_map.mp hother
    rw [mem_filter] at huser
    exact hnone user huser.1 huser.2
  have hlength : ((db.tables.users.filter User.isUsableSysop).map User.id).length ≤ 1 := by
    rw [eq_replicate_of_mem hall] at hids
    exact nodup_replicate.mp hids
  rw [length_map] at hlength
  rw [countSysops] at h
  omega

/-- How an account can log in. -/
def HasCredential (db : Database) (user : User) : Prop :=
  user.passwordHash.isSome ∨ db.keysOf user.id ≠ []

structure Mirrors (db : Database) (user : User) : Prop where
  none : user.fingerprint = none → db.keysOf user.id = []
  some : ∀ fingerprint, user.fingerprint = some fingerprint →
    ∃ key ∈ db.keysOf user.id, key.fingerprint = fingerprint ∧ user.publicKey = some key.publicKey

/-- What every transaction keeps. -/
structure Governed (db : Database) : Prop where
  sysop : ∃ user ∈ db.tables.users, user.isUsableSysop = true
  credential : ∀ user ∈ db.tables.users, db.HasCredential user
  mirror : ∀ user ∈ db.tables.users, db.Mirrors user

theorem sysop_updateUser (h : ∃ user ∈ db.tables.users, user.isUsableSysop = true) {current : User}
    {change : User → User} (hcurrent : current ∈ db.tables.users) (hspared : current.isUsableSysop = true →
      (change current).isUsableSysop = true ∨ 2 ≤ db.countSysops) :
    ∃ user ∈ (db.tables.updateUser current.id change).users, user.isUsableSysop = true := by
  obtain ⟨user, huser, husable⟩ := h
  by_cases hid : user.id = current.id
  · have hsame : user = current := eq_of_id huser hcurrent hid
    subst hsame
    rcases hspared husable with hstill | htwo
    · exact ⟨_, mem_updateUser.mpr (.inl ⟨user, huser, rfl, rfl⟩), hstill⟩
    · obtain ⟨other, hother, hotherUsable, hne⟩ := another_sysop htwo user.id
      exact ⟨other, mem_updateUser.mpr (.inr ⟨hother, hne⟩), hotherUsable⟩
  · exact ⟨user, mem_updateUser.mpr (.inr ⟨huser, hid⟩), husable⟩

theorem Mirrors.of_same {user old : User} (h : db.Mirrors old)
    (hkeys : db'.keysOf user.id = db.keysOf old.id) (hpublic : user.publicKey = old.publicKey)
    (hfingerprint : user.fingerprint = old.fingerprint) : db'.Mirrors user := by
  constructor
  · rw [hkeys, hfingerprint]
    exact h.none
  · rw [hkeys, hfingerprint, hpublic]
    exact h.some

variable {current : User} {change : User → User} {now : Text}

theorem Governed.update (h : db.Governed)
    (hcurrent : current ∈ db.tables.users) (htables : db'.tables = db.tables.updateUser current.id change)
    (hkeeps : ∀ user, (change user).id = user.id ∧ (change user).passwordHash = user.passwordHash ∧
      (change user).publicKey = user.publicKey ∧ (change user).fingerprint = user.fingerprint)
    (hspared : current.isUsableSysop = true →
      (change current).isUsableSysop = true ∨ 2 ≤ db.countSysops) : db'.Governed := by
  have hkeys : ∀ id, db'.keysOf id = db.keysOf id := by
    intro id
    rw [keysOf, keysOf, htables]
    rfl
  have hback : ∀ user ∈ db'.tables.users, ∃ old ∈ db.tables.users, user.id = old.id ∧
      user.passwordHash = old.passwordHash ∧ user.publicKey = old.publicKey ∧
      user.fingerprint = old.fingerprint := by
    intro user huser
    rw [htables, mem_updateUser] at huser
    rcases huser with ⟨old, hold, _, rfl⟩ | ⟨hold, _⟩
    · exact ⟨old, hold, hkeeps old⟩
    · exact ⟨user, hold, rfl, rfl, rfl, rfl⟩
  constructor
  · rw [htables]
    exact sysop_updateUser h.sysop hcurrent hspared
  · intro user huser
    obtain ⟨old, hold, hid, hpassword, _, _⟩ := hback user huser
    rw [HasCredential, hkeys, hid, hpassword]
    exact h.credential old hold
  · intro user huser
    obtain ⟨old, hold, hid, _, hpublic, hfingerprint⟩ := hback user huser
    exact (h.mirror old hold).of_same (by rw [hkeys, hid]) hpublic hfingerprint

theorem nextUserId_fresh (db : Database) : ∀ user ∈ db.tables.users, user.id ≠ db.nextUserId := by
  intro user huser hsame
  have hmax : user.id ≤ maxNumber User.id db.tables.users := le_maxNumber huser
  rw [hsame, nextUserId] at hmax
  omega

theorem keysOf_nextUserId (db : Database) : db.keysOf db.nextUserId = [] := by
  rw [eq_nil_iff_forall_not_mem]
  intro key hkey
  rw [mem_keysOf] at hkey
  obtain ⟨user, huser, hid⟩ := db.valid.keyUsers key hkey.1
  exact nextUserId_fresh db user huser (hid.trans hkey.2)

variable {passwordHash : Option Text} {target changedBy : User}

section

variable (h : db.Governed)

include h

theorem Governed.createUser {username : Text}
    {verifyKey : Option VerifyKey} {userLevel : Int} {pendingApproval : Bool}
    (hcreate : createUser username passwordHash verifyKey userLevel pendingApproval now db = .ok db') :
    db'.Governed := by
  obtain ⟨htables, hcredential, _, _, _⟩ := createUser_cases hcreate
  obtain ⟨user, huser⟩ :
      ∃ user, db.newUser username passwordHash verifyKey userLevel pendingApproval now = user := ⟨_, rfl⟩
  have hid : user.id = db.nextUserId := huser ▸ rfl
  have hpassword : user.passwordHash = passwordHash := huser ▸ rfl
  have hpublic : user.publicKey = verifyKey.map VerifyKey.publicKey := huser ▸ rfl
  have hfingerprint : user.fingerprint = verifyKey.map VerifyKey.fingerprint := huser ▸ rfl
  have husers := createUser_users hcreate
  rw [huser] at htables husers
  have hother : ∀ id, id ≠ user.id → db'.keysOf id = db.keysOf id := by
    intro id hne
    rw [keysOf, keysOf, htables]
    cases verifyKey with
    | none => rfl
    | some key => simp [addKey, addUser, hne.symm]
  constructor
  · obtain ⟨sysop, hsysop, husable⟩ := h.sysop
    exact ⟨sysop, by rw [husers]; exact mem_append_left _ hsysop, husable⟩
  · intro other hmem
    rw [husers, mem_append, mem_singleton] at hmem
    rcases hmem with hold | rfl
    · have hne : other.id ≠ user.id := hid ▸ nextUserId_fresh db other hold
      rw [HasCredential, hother _ hne]
      exact h.credential other hold
    · cases hkey : verifyKey with
      | none =>
        left
        simpa [hpassword, hkey] using hcredential
      | some key =>
        right
        rw [keysOf, htables, hkey]
        simp [addKey, addUser]
  · intro other hmem
    rw [husers, mem_append, mem_singleton] at hmem
    rcases hmem with hold | rfl
    · have hne : other.id ≠ user.id := hid ▸ nextUserId_fresh db other hold
      exact (h.mirror other hold).of_same (hother _ hne) rfl rfl
    · cases hkey : verifyKey with
      | none =>
        have hnone : db'.keysOf other.id = [] := by
          rw [keysOf, htables, hkey, hid]
          exact keysOf_nextUserId db
        exact ⟨fun _ => hnone, fun fingerprint hsome => by simp [hfingerprint, hkey] at hsome⟩
      | some key =>
        constructor
        · intro hnone
          simp [hfingerprint, hkey] at hnone
        · intro fingerprint hsome
          rw [hfingerprint, hkey] at hsome
          cases hsome
          refine ⟨⟨maxNumber SshKey.id db.tables.keys + 1, other.id, "default".toList, key.publicKey,
            key.fingerprint, now⟩, ?_, rfl, by rw [hpublic, hkey]; rfl⟩
          rw [mem_keysOf, htables, hkey]
          simp [addKey, addUser]

theorem Governed.setPasswordHash
    (hset : setPasswordHash target passwordHash changedBy db = .ok db') : db'.Governed := by
  obtain ⟨current, hcurrent, htables, _, hway⟩ := setPasswordHash_cases hset
  have hkeys : ∀ id, db'.keysOf id = db.keysOf id := by
    intro id
    rw [keysOf, keysOf, htables]
    rfl
  constructor
  · rw [htables]
    exact sysop_updateUser h.sysop hcurrent fun husable => .inl husable
  · intro user huser
    rw [htables, mem_updateUser] at huser
    rw [HasCredential, hkeys]
    rcases huser with ⟨old, hold, hid, rfl⟩ | ⟨hold, _⟩
    · rcases hway with hpassword | hhas | hshown
      · exact .inl hpassword
      · exact .inr (by rwa [show _ = current.id from hid])
      · obtain ⟨fingerprint, hfingerprint⟩ := Option.isSome_iff_exists.mp hshown
        obtain ⟨key, hkey, _⟩ := (h.mirror current hcurrent).some fingerprint hfingerprint
        right
        rw [show _ = current.id from hid]
        exact ne_nil_of_mem hkey
    · exact h.credential user hold
  · intro user huser
    rw [htables, mem_updateUser] at huser
    rcases huser with ⟨old, hold, _, rfl⟩ | ⟨hold, _⟩
    · exact (h.mirror old hold).of_same (hkeys _) rfl rfl
    · exact (h.mirror user hold).of_same (hkeys _) rfl rfl

theorem Governed.addSshKey {key : VerifyKey}
    {label : Text} (hadd : addSshKey target key label changedBy now db = .ok db') :
    db'.Governed := by
  obtain ⟨current, hcurrent, _, htables⟩ := addSshKey_cases hadd
  obtain ⟨row, hrow⟩ : ∃ row : SshKey, (⟨maxNumber SshKey.id db.tables.keys + 1, current.id,
      keyLabel label, key.publicKey, key.fingerprint, now⟩ : SshKey) = row := ⟨_, rfl⟩
  have hkeysAfter : db'.tables.keys = db.tables.keys ++ [row] := by
    rw [htables, ← hrow]
    split <;> rfl
  have hmore : ∀ id, ∀ old ∈ db.keysOf id, old ∈ db'.keysOf id := by
    intro id old hold
    rw [mem_keysOf] at hold ⊢
    rw [hkeysAfter]
    exact ⟨mem_append_left _ hold.1, hold.2⟩
  have hrowMem : row ∈ db'.keysOf current.id := by
    rw [mem_keysOf, hkeysAfter, ← hrow]
    exact ⟨by simp, rfl⟩
  have hother : ∀ id, id ≠ current.id → db'.keysOf id = db.keysOf id := by
    intro id hne
    rw [keysOf, keysOf, hkeysAfter, ← hrow]
    simp [hne.symm]
  have hback : ∀ user ∈ db'.tables.users, (user ∈ db.tables.users ∧
      (user.id = current.id → current.fingerprint.isSome)) ∨
      user = { current with
        publicKey := some key.publicKey, fingerprint := some key.fingerprint } := by
    intro user huser
    rw [htables] at huser
    split at huser
    · rw [mem_updateUser] at huser
      rcases huser with ⟨old, hold, hid, rfl⟩ | ⟨hold, hne⟩
      · exact .inr (by rw [eq_of_id hold hcurrent hid])
      · exact .inl ⟨hold, fun hid => absurd hid hne⟩
    · rename_i hsome
      exact .inl ⟨huser, fun _ => Option.isSome_iff_ne_none.mpr (by simpa using hsome)⟩
  constructor
  · rw [htables]
    split
    · exact sysop_updateUser h.sysop hcurrent fun husable => .inl husable
    · exact h.sysop
  · intro user huser
    rcases hback user huser with ⟨hold, _⟩ | rfl
    · rcases h.credential user hold with hpassword | hhas
      · exact .inl hpassword
      · obtain ⟨old, hmem⟩ := exists_mem_of_ne_nil _ hhas
        exact .inr (ne_nil_of_mem (hmore _ old hmem))
    · exact .inr (ne_nil_of_mem hrowMem)
  · intro user huser
    rcases hback user huser with ⟨hold, hshown⟩ | rfl
    · constructor
      · intro hnone
        by_cases hid : user.id = current.id
        · have hsame : user = current := eq_of_id hold hcurrent hid
          simp [← hsame, hnone] at hshown
        · rw [hother _ hid]
          exact (h.mirror user hold).none hnone
      · intro fingerprint hsome
        obtain ⟨old, hmem, hrest⟩ := (h.mirror user hold).some fingerprint hsome
        exact ⟨old, hmore _ old hmem, hrest⟩
    · constructor
      · intro hnone
        cases hnone
      · intro fingerprint hsome
        cases hsome
        exact ⟨row, hrowMem, by rw [← hrow], by rw [← hrow]⟩

theorem Governed.removeSshKey {fingerprint : Text}
    (hremove : removeSshKey target fingerprint changedBy db = .ok db') : db'.Governed := by
  obtain ⟨removed, hremoved, hfingerprint, hpassword, htables⟩ := removeSshKey_cases hremove
  rw [mem_keysOf] at hremoved
  obtain ⟨current, hcurrent, hid⟩ := db.valid.keyUsers removed hremoved.1
  rw [hremoved.2] at hid
  have hkeep : ∀ id, ∀ key ∈ db.keysOf id, key.fingerprint ≠ fingerprint → key ∈ db'.keysOf id := by
    intro id key hkey hne
    rw [mem_keysOf] at hkey ⊢
    rw [htables]
    refine ⟨mem_filter.mpr ⟨hkey.1, ?_⟩, hkey.2⟩
    simp only [decide_eq_true_eq]
    intro hsame
    rw [inj_on_of_nodup_map db.valid.keyIds hkey.1 hremoved.1 hsame] at hne
    exact hne hfingerprint
  have hother : ∀ id, id ≠ target.id → db'.keysOf id = db.keysOf id := by
    intro id hne
    rw [keysOf, keysOf, htables]
    show ((db.tables.keys.filter _).filter _) = _
    rw [filter_filter]
    apply filter_congr
    intro key hkey
    by_cases howner : key.userId = id
    · have hdifferent : key.id ≠ removed.id := by
        intro hsame
        rw [inj_on_of_nodup_map db.valid.keyIds hkey hremoved.1 hsame] at howner
        exact hne (howner.symm.trans hremoved.2)
      simp [howner, hdifferent]
    · simp [howner]
  have hnone : db.remainingKey target.id fingerprint = none → db'.keysOf target.id = [] := by
    intro hlast
    rw [eq_nil_iff_forall_not_mem]
    intro key hkey
    rw [mem_keysOf, htables] at hkey
    obtain ⟨hmem, hstill⟩ := mem_filter.mp hkey.1
    have hsame := remainingKey_none hlast key (mem_keysOf.mpr ⟨hmem, hkey.2⟩)
    rw [inj_on_of_nodup_map db.valid.keyFingerprints hmem hremoved.1
      (hsame.trans hfingerprint.symm)] at hstill
    simp at hstill
  constructor
  · rw [htables, ← hid]
    have hsysop := @sysop_updateUser db h.sysop current (fun user =>
      { user with
        publicKey := (db.remainingKey current.id fingerprint).map SshKey.publicKey
        fingerprint := (db.remainingKey current.id fingerprint).map SshKey.fingerprint })
      hcurrent fun husable => .inl husable
    exact hsysop
  · intro user huser
    rw [htables, mem_updateUser] at huser
    rcases huser with ⟨old, hold, holdId, rfl⟩ | ⟨hold, hne⟩
    · cases hremaining : db.remainingKey target.id fingerprint with
      | none =>
        obtain ⟨owner, howner, hownerId, hhas⟩ := hpassword hremaining
        rw [eq_of_id howner hold (hownerId.trans holdId.symm)] at hhas
        exact .inl hhas
      | some key =>
        obtain ⟨hmem, hne⟩ := remainingKey_some hremaining
        right
        rw [show _ = target.id from holdId]
        exact ne_nil_of_mem (hkeep _ key hmem hne)
    · rw [HasCredential, hother _ hne]
      exact h.credential user hold
  · intro user huser
    rw [htables, mem_updateUser] at huser
    rcases huser with ⟨old, hold, holdId, rfl⟩ | ⟨hold, hne⟩
    · constructor
      · intro hempty
        rw [show _ = target.id from holdId]
        exact hnone (by simpa using hempty)
      · intro shown hsome
        rw [Option.map_eq_some_iff] at hsome
        obtain ⟨key, hremaining, rfl⟩ := hsome
        obtain ⟨hmem, hne⟩ := remainingKey_some hremaining
        rw [show _ = target.id from holdId]
        exact ⟨key, hkeep _ key hmem hne, rfl, by rw [hremaining]; rfl⟩
    · exact (h.mirror user hold).of_same (hother _ hne) rfl rfl

theorem Governed.deleteUser {deletedBy : User} {declining : Bool}
    (hdelete : deleteUser target deletedBy declining now db = .ok db') :
    db'.Governed := by
  obtain ⟨current, hcurrent, htables, _, _, hlast⟩ := deleteUser_cases hdelete
  have husers : db'.tables.users = db.tables.users.filter (·.id ≠ current.id) := by
    rw [htables]
    split <;> rfl
  have hkeys : ∀ id, id ≠ current.id → db'.keysOf id = db.keysOf id := by
    intro id hne
    have hfiltered : db'.tables.keys = db.tables.keys.filter (·.userId ≠ current.id) := by
      rw [htables]
      split <;> rfl
    rw [keysOf, keysOf, hfiltered, filter_filter]
    apply filter_congr
    intro key _
    by_cases howner : key.userId = id
    · simp [howner, hne]
    · simp [howner]
  have hback : ∀ user ∈ db'.tables.users, user ∈ db.tables.users ∧ user.id ≠ current.id := by
    intro user huser
    rw [husers] at huser
    simpa using huser
  constructor
  · obtain ⟨sysop, hsysop, husable⟩ := h.sysop
    rw [husers]
    by_cases hid : sysop.id = current.id
    · rw [eq_of_id hsysop hcurrent hid] at husable
      obtain ⟨other, hother, hotherUsable, hne⟩ := another_sysop (hlast husable) current.id
      exact ⟨other, mem_filter.mpr ⟨hother, by simpa using hne⟩, hotherUsable⟩
    · exact ⟨sysop, mem_filter.mpr ⟨hsysop, by simpa using hid⟩, husable⟩
  · intro user huser
    obtain ⟨hold, hne⟩ := hback user huser
    rw [HasCredential, hkeys _ hne]
    exact h.credential user hold
  · intro user huser
    obtain ⟨hold, hne⟩ := hback user huser
    exact (h.mirror user hold).of_same (hkeys _ hne) rfl rfl

end

def PendingHoldNothing (db : Database) : Prop :=
  ∀ user ∈ db.tables.users, user.pendingApproval = true → ¬ user.Protected

theorem PendingHoldNothing.update (h : db.PendingHoldNothing)
    (hcurrent : current ∈ db.tables.users) (htables : db'.tables = db.tables.updateUser current.id change)
    (hchange : (current.pendingApproval = true → ¬ current.Protected) →
      (change current).pendingApproval = true → ¬ (change current).Protected) :
    db'.PendingHoldNothing := by
  intro user huser hpending
  rw [htables, mem_updateUser] at huser
  rcases huser with ⟨old, hold, hid, rfl⟩ | ⟨hold, _⟩
  · rw [eq_of_id hold hcurrent hid] at hpending ⊢
    exact hchange (h current hcurrent) hpending
  · exact h user hold hpending

end Database

end Auth

end NetBBS
