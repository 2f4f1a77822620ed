import NetBBS.Auth.NameTenure

/-! # One account for a name, on every run -/

namespace NetBBS

open Foundation List

namespace Auth

namespace Database

variable {lib : Library} {db : Database} {name : Text}

variable {user : User}

theorem userNamed_of_mem (huser : user ∈ db.tables.users)
    (hname : nocase user.username = nocase name) : db.userNamed name = some user := by
  obtain ⟨found, hfound⟩ : ∃ found, db.userNamed name = some found :=
    Option.isSome_iff_exists.mp (find?_isSome.mpr ⟨user, huser, by simpa using hname⟩)
  have hbears : nocase found.username = nocase name := by simpa using find?_some hfound
  rw [hfound, eq_of_name (mem_of_find?_eq_some hfound) huser (hbears.trans hname.symm)]

theorem userNamed_some (h : db.userNamed name = some user) :
    user ∈ db.tables.users ∧ nocase user.username = nocase name :=
  ⟨mem_of_find?_eq_some h, by simpa using find?_some h⟩

theorem eq_of_retired {row other : RetiredUsername} (hrow : row ∈ db.tables.retired)
    (hother : other ∈ db.tables.retired) (hname : nocase row.username = nocase other.username) :
    row = other :=
  inj_on_of_nodup_map db.valid.retiredNames hrow hother hname

theorem accountFormerlyNamed_some (h : db.accountFormerlyNamed name = some user) :
    user ∈ db.tables.users ∧ db.HeldFor (nocase name) (some user.id) := by
  simp only [accountFormerlyNamed, Option.bind_eq_bind, Option.bind_eq_some_iff] at h
  obtain ⟨row, hrow, id, hid, huser⟩ := h
  have hfound := find?_some hrow
  simp only [Bool.and_eq_true, decide_eq_true_eq] at hfound
  obtain ⟨hmem, huserId⟩ := getUserById_some huser
  exact ⟨hmem, row, mem_of_find?_eq_some hrow, hfound.1, by rw [hid, huserId]⟩

theorem accountFormerlyNamed_of_heldFor {id : Nat} (h : db.HeldFor (nocase name) (some id)) :
    ∃ user ∈ db.tables.users, user.id = id ∧ db.accountFormerlyNamed name = some user := by
  obtain ⟨row, hrow, hname, hholder⟩ := h
  obtain ⟨user, huser, hid⟩ := db.valid.retiredUsers row hrow id (by rw [hholder]; rfl)
  obtain ⟨found, hfound⟩ : ∃ found, db.tables.retired.find? (fun row =>
      decide (nocase row.username = nocase name) && row.userId.isSome) = some found :=
    Option.isSome_iff_exists.mp (find?_isSome.mpr ⟨row, hrow, by simp [hname, hholder]⟩)
  have hmatches := find?_some hfound
  simp only [Bool.and_eq_true, decide_eq_true_eq] at hmatches
  have hsame : found = row :=
    eq_of_retired (mem_of_find?_eq_some hfound) hrow (hmatches.1.trans hname.symm)
  refine ⟨user, huser, hid, ?_⟩
  have huserById : db.getUserById id = some user := getUserById_eq_some.mpr ⟨huser, hid⟩
  simp [accountFormerlyNamed, hfound, hsame, hholder, huserById]

theorem getRecipientByName_of_bearer (huser : user ∈ db.tables.users)
    (hname : nocase user.username = nocase name) : db.getRecipientByName name = some user := by
  rw [getRecipientByName, userNamed_of_mem huser hname]
  rfl

theorem userNamed_of_heldFor (hapart : db.Apart) {holder : Option Nat}
    (h : db.HeldFor (nocase name) holder) : db.userNamed name = none := by
  obtain ⟨row, hrow, hname, _⟩ := h
  rw [Option.eq_none_iff_forall_ne_some]
  intro user hfound
  obtain ⟨huser, hbears⟩ := userNamed_some hfound
  exact hapart user huser row hrow (hbears.trans hname.symm)

theorem getRecipientByName_of_heldFor (hapart : db.Apart) {id : Nat}
    (h : db.HeldFor (nocase name) (some id)) :
    ∃ user ∈ db.tables.users, user.id = id ∧ db.getRecipientByName name = some user := by
  obtain ⟨user, huser, hid, hformer⟩ := accountFormerlyNamed_of_heldFor h
  refine ⟨user, huser, hid, ?_⟩
  rw [getRecipientByName, userNamed_of_heldFor hapart h, hformer]
  rfl

theorem getRecipientByName_of_heldNobody (hapart : db.Apart) (h : db.HeldFor (nocase name) none) :
    db.getRecipientByName name = none := by
  have hformer : db.accountFormerlyNamed name = none := by
    rw [Option.eq_none_iff_forall_ne_some]
    intro user hfound
    obtain ⟨row, hrow, hname, hholder⟩ := h
    obtain ⟨_, other, hother, hotherName, hotherHolder⟩ := accountFormerlyNamed_some hfound
    rw [eq_of_retired hrow hother (hname.trans hotherName.symm), hotherHolder] at hholder
    cases hholder
  rw [getRecipientByName, userNamed_of_heldFor hapart h, hformer]
  rfl

theorem getRecipientByName_some (h : db.getRecipientByName name = some user) :
    user ∈ db.tables.users ∧
      (nocase user.username = nocase name ∨ db.HeldFor (nocase name) (some user.id)) := by
  rw [getRecipientByName, Option.or_eq_some_iff] at h
  rcases h with hbearer | ⟨_, hformer⟩
  · exact ⟨(userNamed_some hbearer).1, .inl (userNamed_some hbearer).2⟩
  · exact ⟨(accountFormerlyNamed_some hformer).1, .inr (accountFormerlyNamed_some hformer).2⟩

theorem mem_announcedRenames {now : Text} {change : UsernameChange}
    (h : change ∈ db.announcedRenames lib now) :
    ∃ id, change.userId = some id ∧ db.HeldFor (nocase change.oldUsername) (some id) := by
  have hlisted := mem_of_mem_take h
  rw [mem_mergeSort, mem_filter] at hlisted
  obtain ⟨_, hlisted⟩ := hlisted
  simp only [Bool.and_eq_true, any_eq_true, decide_eq_true_eq] at hlisted
  obtain ⟨_, row, hrow, ⟨hname, hsome⟩, hholder⟩ := hlisted
  obtain ⟨id, hid⟩ := Option.isSome_iff_exists.mp hsome
  exact ⟨id, hholder ▸ hid, row, hrow, hname, hid⟩

end Database

namespace NameAction

variable {lib : Library} {db : Database} {name : Text}

theorem step_cases (lib : Library) (db : Database) (action : NameAction) :
    (∃ db', action.perform lib db = .ok db' ∧ step lib db action = db') ∨ step lib db action = db := by
  rw [step]
  cases hperform : action.perform lib db with
  | ok db' => exact .inl ⟨db', rfl, rfl⟩
  | error e => exact .inr rfl

structure Named (db : Database) : Prop where
  linkHasRun : db.tables.linkHasRun = true
  covers : ∀ user ∈ db.tables.users, user.id ≤ db.tables.highWater
  apart : db.Apart

theorem named_step (h : Named db) (action : NameAction) : Named (step lib db action) := by
  rcases step_cases lib db action with ⟨db', hperform, hstep⟩ | hsame
  · obtain ⟨heffect, hmarks⟩ := Database.nameEffect_perform hperform
    rw [hstep]
    exact ⟨hmarks.linkHasRun.trans h.linkHasRun, hmarks.covers h.covers, h.apart.step heffect⟩
  · rwa [hsame]

theorem named_foldl (h : Named db) (actions : List NameAction) : Named (actions.foldl (step lib) db) :=
  foldl_invariant actions db h fun v _ hv => named_step hv v.2

variable {id : Nat}

theorem standsFor_step (h : Named db) (hstands : db.StandsFor name id) (action : NameAction) :
    action.Releases lib db name ∨ (step lib db action).StandsFor name id := by
  rcases step_cases lib db action with ⟨db', hperform, hstep⟩ | hsame
  · by_cases hrelease : action.Releases lib db name
    · exact .inl hrelease
    · right
      obtain ⟨heffect, hmarks⟩ := Database.nameEffect_perform hperform
      rw [hstep]
      refine hstands.step h.linkHasRun h.apart h.covers heffect hmarks ?_
      rintro username releasedBy rfl hname
      exact hrelease ⟨hname, db', hperform⟩
  · exact .inr (by rwa [hsame])

theorem standsFor_foldl (actions : List NameAction) (h : Named db) (hstands : db.StandsFor name id) :
    (∃ earlier release rest, actions = earlier ++ release :: rest ∧
      release.Releases lib (earlier.foldl (step lib) db) name) ∨
      (actions.foldl (step lib) db).StandsFor name id := by
  induction actions generalizing db with
  | nil => exact .inr hstands
  | cons action actions ih =>
    rcases standsFor_step h hstands action with hreleases | hstill
    · exact .inl ⟨[], action, actions, rfl, hreleases⟩
    · rcases ih (named_step h action) hstill with ⟨earlier, release, rest, rfl, hreleases⟩ | hend
      · exact .inl ⟨action :: earlier, release, rest, rfl, hreleases⟩
      · exact .inr hend

theorem newly_borne {action : NameAction} {user : User} (huser : user ∈ (step lib db action).tables.users)
    (hnew : ∀ old ∈ db.tables.users, old.id = user.id → nocase old.username ≠ nocase user.username) :
    (∀ old ∈ db.tables.users, nocase old.username ≠ nocase user.username) ∧
      ∀ row ∈ db.tables.retired, nocase row.username ≠ nocase user.username := by
  rcases step_cases lib db action with ⟨db', hperform, hstep⟩ | hsame
  · obtain ⟨heffect, _⟩ := Database.nameEffect_perform hperform
    rw [hstep] at huser
    cases heffect with
    | kept change hid hname hpending husers hretired =>
      rw [husers] at huser
      obtain ⟨old, hold, rfl⟩ := mem_map.mp huser
      exact absurd (by rw [hname]) (hnew old hold (hid old).symm)
    | created new hid hfree hnot husers hretired =>
      rw [husers, mem_append, mem_singleton] at huser
      rcases huser with hold | rfl
      · exact absurd rfl (hnew user hold rfl)
      · exact ⟨hfree, hnot⟩
    | renamed current newUsername now hcurrent hfree hnot husers hretired =>
      rw [husers, Database.mem_updateUser] at huser
      rcases huser with ⟨old, hold, _, rfl⟩ | ⟨hold, _⟩
      · exact ⟨hfree, hnot⟩
      · exact absurd rfl (hnew user hold rfl)
    | deleted current now hcurrent husers hretired =>
      rw [husers] at huser
      exact absurd rfl (hnew user (mem_of_mem_filter huser) rfl)
    | released username releasedBy haction husers hretired =>
      rw [husers] at huser
      exact absurd rfl (hnew user huser rfl)
  · rw [hsame] at huser
    exact absurd rfl (hnew user huser rfl)

theorem not_standsFor (hborne : ∀ old ∈ db.tables.users, nocase old.username ≠ name)
    (hheld : ∀ row ∈ db.tables.retired, nocase row.username ≠ name) : ¬ db.StandsFor name id := by
  rintro (⟨old, hold, _, _, hname⟩ | ⟨row, hrow, hname, _⟩ | ⟨⟨row, hrow, hname, _⟩, _⟩)
  · exact hborne old hold hname
  · exact hheld row hrow hname
  · exact hheld row hrow hname

theorem recipient_of_standsFor (h : Named db) (hstands : db.StandsFor (nocase name) id) :
    (∃ user ∈ db.tables.users, user.id = id ∧ db.getRecipientByName name = some user) ∨
      (db.getRecipientByName name = none ∧ ∀ user ∈ db.tables.users, user.id ≠ id) := by
  rcases hstands with ⟨user, huser, hid, _, hname⟩ | hheld | ⟨hheld, hgone⟩
  · exact .inl ⟨user, huser, hid, Database.getRecipientByName_of_bearer huser hname⟩
  · exact .inl (Database.getRecipientByName_of_heldFor h.apart hheld)
  · exact .inr ⟨Database.getRecipientByName_of_heldNobody h.apart hheld, hgone.2⟩

/-- On a node that has run Link, in every state that a run of calls leads to: names are unique, none is
both borne and held, a name reaches its bearer, or the account it is held for, or nobody. -/
theorem names_reach_one_account (lib : Library) (db : Database) (hlink : db.tables.linkHasRun = true)
    (hcovers : ∀ user ∈ db.tables.users, user.id ≤ db.tables.highWater) (hapart : db.Apart)
    (actions : List NameAction) :
    let reached := actions.foldl (step lib) db
    (∀ user ∈ reached.tables.users, ∀ other ∈ reached.tables.users,
      nocase user.username = nocase other.username → user = other) ∧
    reached.Apart ∧
    (∀ name, ∀ user ∈ reached.tables.users, nocase user.username = nocase name →
      reached.getRecipientByName name = some user) ∧
    (∀ name id, reached.HeldFor (nocase name) (some id) →
      ∃ user ∈ reached.tables.users, user.id = id ∧ reached.getRecipientByName name = some user) ∧
    (∀ name, reached.HeldFor (nocase name) none → reached.getRecipientByName name = none) ∧
    (∀ name user, reached.getRecipientByName name = some user → user ∈ reached.tables.users ∧
      (nocase user.username = nocase name ∨ reached.HeldFor (nocase name) (some user.id))) ∧
    (∀ now, ∀ change ∈ reached.announcedRenames lib now, ∃ user ∈ reached.tables.users,
      change.userId = some user.id ∧ reached.HeldFor (nocase change.oldUsername) (some user.id) ∧
      reached.getRecipientByName change.oldUsername = some user) ∧
    ∀ name id, reached.Bears id (nocase name) → ∀ (following : List NameAction),
      (∃ earlier release rest, following = earlier ++ release :: rest ∧
        release.Releases lib (earlier.foldl (step lib) reached) (nocase name)) ∨
      let later := following.foldl (step lib) reached
      ((∃ user ∈ later.tables.users, user.id = id ∧ later.getRecipientByName name = some user) ∨
        (later.getRecipientByName name = none ∧ ∀ user ∈ later.tables.users, user.id ≠ id)) ∧
      ∀ (action : NameAction), ∀ user ∈ (step lib later action).tables.users,
        nocase user.username = nocase name →
        ∃ old ∈ later.tables.users, old.id = user.id ∧ nocase old.username = nocase name := by
  intro reached
  have hnamed : Named reached := named_foldl ⟨hlink, hcovers, hapart⟩ actions
  refine ⟨fun user huser other hother hname => Database.eq_of_name huser hother hname, hnamed.apart,
    fun name user huser hname => Database.getRecipientByName_of_bearer huser hname,
    fun name id hheld => Database.getRecipientByName_of_heldFor hnamed.apart hheld,
    fun name hheld => Database.getRecipientByName_of_heldNobody hnamed.apart hheld,
    fun name user hfound => Database.getRecipientByName_some hfound, ?_, ?_⟩
  · intro now change hchange
    obtain ⟨id, hid, hheld⟩ := Database.mem_announcedRenames hchange
    obtain ⟨user, huser, rfl, hreaches⟩ := Database.getRecipientByName_of_heldFor hnamed.apart hheld
    exact ⟨user, huser, hid, hheld, hreaches⟩
  · intro name id hbears following
    rcases standsFor_foldl following hnamed (.inl hbears) with hreleased | hstands
    · exact .inl hreleased
    · right
      refine ⟨recipient_of_standsFor (named_foldl hnamed following) hstands, ?_⟩
      intro action user huser hname
      by_contra hnew
      push Not at hnew
      obtain ⟨hborne, hheld⟩ := newly_borne huser fun old hold hid => hname ▸ hnew old hold hid
      rw [hname] at hborne hheld
      exact not_standsFor hborne hheld hstands

/-- A new node on which a caller registers as the SysOp, in small letters. -/
theorem names_reach_one_account_setUp :
    ([NameAction.createUser "keeper".toList (some "argon2".toList) none 0 false
      "2026-01-02T00:00:00.000000Z".toList].foldl (step ⟨nocase, fun _ => 0, fun _ => []⟩)
      Database.setUp).getRecipientByName "KEEPER".toList = some firstSysop := by
  have hmem : firstSysop ∈ ([NameAction.createUser "keeper".toList (some "argon2".toList) none 0 false
      "2026-01-02T00:00:00.000000Z".toList].foldl (step ⟨nocase, fun _ => 0, fun _ => []⟩)
      Database.setUp).tables.users := by decide
  exact (names_reach_one_account ⟨nocase, fun _ => 0, fun _ => []⟩ Database.setUp rfl (by decide)
    (fun user _ row hrow => by cases hrow) _).2.2.1 "KEEPER".toList firstSysop hmem (by decide)

end NameAction

end Auth

end NetBBS
