import NetBBS.Auth.Names
import NetBBS.Foundation.Runs

/-! # Whom a name reaches -/

namespace NetBBS

open Foundation List

namespace Auth

namespace Database

variable {lib : Library} {action : NameAction} {db db' : Database} {name : Text}

/-- No name is both borne and held. -/
def Apart (db : Database) : Prop :=
  ∀ user ∈ db.tables.users, ∀ row ∈ db.tables.retired, nocase user.username ≠ nocase row.username

def Bears (db : Database) (id : Nat) (name : Text) : Prop :=
  ∃ user ∈ db.tables.users, user.id = id ∧ user.pendingApproval = false ∧ nocase user.username = name

def HeldFor (db : Database) (name : Text) (holder : Option Nat) : Prop :=
  ∃ row ∈ db.tables.retired, nocase row.username = name ∧ row.userId = holder

def Gone (db : Database) (id : Nat) : Prop :=
  id ≤ db.tables.highWater ∧ ∀ user ∈ db.tables.users, user.id ≠ id

def StandsFor (db : Database) (name : Text) (id : Nat) : Prop :=
  db.Bears id name ∨ db.HeldFor name (some id) ∨ db.HeldFor name none ∧ db.Gone id

theorem eq_of_name {user other : User} (huser : user ∈ db.tables.users)
    (hother : other ∈ db.tables.users) (hname : nocase user.username = nocase other.username) :
    user = other :=
  inj_on_of_nodup_map db.valid.usernames huser hother hname

variable {now : Text} {holder : Option Nat} {row : RetiredUsername} {id : Nat}
variable {t : Tables} {current : User}

theorem mem_retire {username : Text} : row ∈ (t.retire username now holder).retired ↔
      (row ∈ t.retired ∧ nocase row.username ≠ nocase username) ∨ row = ⟨username, now, holder⟩ := by
  simp [Tables.retire]

theorem mem_retired_deleteUser : row ∈ (t.deleteUser id).retired ↔
      ∃ old ∈ t.retired, row = if old.userId = some id then { old with userId := none } else old := by
  simp only [Tables.deleteUser, mem_map]
  constructor
  · rintro ⟨old, hold, rfl⟩
    exact ⟨old, hold, rfl⟩
  · rintro ⟨old, hold, rfl⟩
    exact ⟨old, hold, rfl⟩

theorem retiring (hrow : row ∈ (if db.deletionRetiresUsername current then
      db.tables.retire current.username now holder else db.tables).retired) :
    row ∈ db.tables.retired ∨ nocase row.username = nocase current.username := by
  split at hrow
  · rcases mem_retire.mp hrow with ⟨hold, _⟩ | rfl
    · exact .inl hold
    · exact .inr rfl
  · exact .inl hrow

theorem still_retired
    (hapart : db.Apart) (hcurrent : current ∈ db.tables.users) (hrow : row ∈ db.tables.retired) :
    row ∈ (if db.deletionRetiresUsername current then
      db.tables.retire current.username now holder else db.tables).retired := by
  split
  · exact mem_retire.mpr (.inl ⟨hrow, (hapart current hcurrent row hrow).symm⟩)
  · exact hrow

theorem Apart.step (h : db.Apart) (heffect : NameEffect action db db') : db'.Apart := by
  intro user huser row hrow
  cases heffect with
  | kept change hid hname hpending husers hretired =>
    rw [husers] at huser
    rw [hretired] at hrow
    obtain ⟨old, hold, rfl⟩ := mem_map.mp huser
    rw [hname]
    exact h old hold row hrow
  | created new hid hfree hnot husers hretired =>
    rw [husers, mem_append, mem_singleton] at huser
    rw [hretired] at hrow
    rcases huser with hold | rfl
    · exact h user hold row hrow
    · exact (hnot row hrow).symm
  | renamed current newUsername now hcurrent hfree hnot husers hretired =>
    have hrow' : row ∈ db.tables.retired ∨ nocase row.username = nocase current.username := by
      apply retiring
      rw [hretired] at hrow
      split at hrow
      · rename_i hretires
        rw [if_pos hretires]
        exact hrow
      · rename_i hretires
        rw [if_neg hretires]
        exact hrow
    rw [husers, mem_updateUser] at huser
    rcases huser with ⟨old, hold, hid, rfl⟩ | ⟨hold, hne⟩
    · rcases hrow' with hheld | hsame
      · exact (hnot row hheld).symm
      · rw [hsame]
        exact (hfree current hcurrent).symm
    · rcases hrow' with hheld | hsame
      · exact h user hold row hheld
      · rw [hsame]
        intro hbears
        exact hne (congrArg User.id (eq_of_name hold hcurrent hbears))
  | deleted current now hcurrent husers hretired =>
    rw [husers, mem_filter] at huser
    have hne : user.id ≠ current.id := by simpa using huser.2
    rw [hretired, mem_retired_deleteUser] at hrow
    obtain ⟨old, hold, rfl⟩ := hrow
    have hname : nocase (if old.userId = some current.id then { old with userId := none }
        else old).username = nocase old.username := by
      split <;> rfl
    rw [hname]
    rcases retiring hold with hheld | hsame
    · exact h user huser.1 old hheld
    · rw [hsame]
      intro hbears
      exact hne (congrArg User.id (eq_of_name huser.1 hcurrent hbears))
  | released username releasedBy haction husers hretired =>
    rw [husers] at huser
    rw [hretired] at hrow
    exact h user huser row (mem_of_mem_filter hrow)

theorem Gone.step (h : db.Gone id) (heffect : NameEffect action db db')
    (hmarks : SameMarks db db') : db'.Gone id := by
  refine ⟨le_trans h.1 hmarks.highWater, ?_⟩
  intro user huser
  cases heffect with
  | kept change hid hname hpending husers hretired =>
    rw [husers] at huser
    obtain ⟨old, hold, rfl⟩ := mem_map.mp huser
    rw [hid]
    exact h.2 old hold
  | created new hid hfree hnot husers hretired =>
    rw [husers, mem_append, mem_singleton] at huser
    rcases huser with hold | rfl
    · exact h.2 user hold
    · have hlow := h.1
      rw [hid, nextUserId]
      omega
  | renamed current newUsername now hcurrent hfree hnot husers hretired =>
    rw [husers] at huser
    obtain ⟨old, hold, hid⟩ := updateUser_back (by intro other; rfl) user huser
    rw [← hid]
    exact h.2 old hold
  | deleted current now hcurrent husers hretired =>
    rw [husers] at huser
    exact h.2 user (mem_of_mem_filter huser)
  | released username releasedBy haction husers hretired =>
    rw [husers] at huser
    exact h.2 user huser

theorem StandsFor.step (hlink : db.tables.linkHasRun = true) (hapart : db.Apart)
    (hcovers : ∀ user ∈ db.tables.users, user.id ≤ db.tables.highWater) (h : db.StandsFor name id)
    (heffect : NameEffect action db db') (hmarks : SameMarks db db')
    (hrelease : ∀ username releasedBy, action = .releaseRetiredUsername username releasedBy →
      nocase username ≠ name) : db'.StandsFor name id := by
  have hretires : ∀ user : User, user.pendingApproval = false →
      db.deletionRetiresUsername user = true := by
    intro user hpending
    simp [deletionRetiresUsername, hlink, hpending]
  have hgone : db.Gone id → db'.Gone id := fun hgone => hgone.step heffect hmarks
  cases heffect with
  | kept change hid hname hpending husers hretired =>
    rcases h with ⟨user, huser, rfl, happroved, hbears⟩ | ⟨row, hrow, hrest⟩ |
      ⟨⟨row, hrow, hrest⟩, hleft⟩
    · refine .inl ⟨change user, ?_, hid user, hpending user happroved, by rw [hname, hbears]⟩
      rw [husers]
      exact mem_map_of_mem huser
    · exact .inr (.inl ⟨row, by rwa [hretired], hrest⟩)
    · exact .inr (.inr ⟨⟨row, by rwa [hretired], hrest⟩, hgone hleft⟩)
  | created new hid hfree hnot husers hretired =>
    rcases h with ⟨user, huser, hrest⟩ | ⟨row, hrow, hrest⟩ | ⟨⟨row, hrow, hrest⟩, hleft⟩
    · refine .inl ⟨user, ?_, hrest⟩
      rw [husers]
      exact mem_append_left _ huser
    · exact .inr (.inl ⟨row, by rwa [hretired], hrest⟩)
    · exact .inr (.inr ⟨⟨row, by rwa [hretired], hrest⟩, hgone hleft⟩)
  | renamed current newUsername now hcurrent hfree hnot husers hretired =>
    have hretired' : db'.tables.retired = (if db.deletionRetiresUsername current then
        db.tables.retire current.username now (some current.id) else db.tables).retired := by
      rw [hretired]
      split <;> rfl
    rcases h with ⟨user, huser, rfl, happroved, rfl⟩ | ⟨row, hrow, hrest⟩ |
      ⟨⟨row, hrow, hrest⟩, hleft⟩
    · by_cases hid : user.id = current.id
      · have hsame : user = current := eq_of_id huser hcurrent hid
        subst hsame
        refine .inr (.inl ⟨⟨user.username, now, some user.id⟩, ?_, rfl, rfl⟩)
        rw [hretired', if_pos (hretires user happroved)]
        exact mem_retire.mpr (.inr rfl)
      · refine .inl ⟨user, ?_, rfl, happroved, rfl⟩
        rw [husers]
        exact mem_updateUser.mpr (.inr ⟨huser, hid⟩)
    · exact .inr (.inl ⟨row, hretired' ▸ still_retired hapart hcurrent hrow, hrest⟩)
    · exact .inr (.inr ⟨⟨row, hretired' ▸ still_retired hapart hcurrent hrow, hrest⟩, hgone hleft⟩)
  | deleted current now hcurrent husers hretired =>
    have hleave : db'.Gone current.id := by
      refine ⟨le_trans (hcovers current hcurrent) hmarks.highWater, ?_⟩
      intro user huser
      rw [husers] at huser
      simpa using (mem_filter.mp huser).2
    have hmem : ∀ row ∈ db.tables.retired,
        (if row.userId = some current.id then { row with userId := none } else row) ∈
          db'.tables.retired := by
      intro row hrow
      rw [hretired]
      exact mem_retired_deleteUser.mpr ⟨row, still_retired hapart hcurrent hrow, rfl⟩
    rcases h with ⟨user, huser, rfl, happroved, rfl⟩ | ⟨row, hrow, hname, hholder⟩ |
      ⟨⟨row, hrow, hname, hholder⟩, hleft⟩
    · by_cases hid : user.id = current.id
      · have hsame : user = current := eq_of_id huser hcurrent hid
        subst hsame
        refine .inr (.inr ⟨⟨⟨user.username, now, none⟩, ?_, rfl, rfl⟩, hleave⟩)
        rw [hretired, if_pos (hretires user happroved)]
        exact mem_retired_deleteUser.mpr ⟨⟨user.username, now, none⟩, mem_retire.mpr (.inr rfl), rfl⟩
      · refine .inl ⟨user, ?_, rfl, happroved, rfl⟩
        rw [husers]
        exact mem_filter.mpr ⟨huser, by simpa using hid⟩
    · have hafter := hmem row hrow
      by_cases hid : id = current.id
      · rw [if_pos (by rw [hholder, hid])] at hafter
        exact .inr (.inr ⟨⟨_, hafter, hname, rfl⟩, hid ▸ hleave⟩)
      · rw [if_neg (by rw [hholder]; simpa using hid)] at hafter
        exact .inr (.inl ⟨_, hafter, hname, hholder⟩)
    · have hafter := hmem row hrow
      rw [if_neg (by simp [hholder])] at hafter
      exact .inr (.inr ⟨⟨_, hafter, hname, hholder⟩, hgone hleft⟩)
  | released username releasedBy haction husers hretired =>
    have hother : nocase username ≠ name := hrelease username releasedBy haction
    have hstays : ∀ row ∈ db.tables.retired, nocase row.username = name → row ∈ db'.tables.retired := by
      intro row hrow hname
      rw [hretired]
      refine mem_filter.mpr ⟨hrow, ?_⟩
      simpa [hname] using hother.symm
    rcases h with ⟨user, huser, hrest⟩ | ⟨row, hrow, hname, hholder⟩ |
      ⟨⟨row, hrow, hname, hholder⟩, hleft⟩
    · exact .inl ⟨user, by rwa [husers], hrest⟩
    · exact .inr (.inl ⟨row, hstays row hrow hname, hname, hholder⟩)
    · exact .inr (.inr ⟨⟨row, hstays row hrow hname, hname, hholder⟩, hgone hleft⟩)

end Database

end Auth

end NetBBS
