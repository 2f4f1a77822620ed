import NetBBS.Link.Issuance.IssuedRows

/-! # One pass over the issued attestations -/

namespace NetBBS.Issuance

open Foundation List Dict

set_option linter.unusedSectionVars false

variable {ι κ σ : Type} [DecidableEq ι] [DecidableEq κ] {platform : Platform ι κ σ} {pass : Pass κ}
  {db : Db ι κ σ} {home : String} {bound : Int} {issued start : List (Issued ι κ σ)} {row : Issued ι κ σ}
  {user : Nat} {attr : Attribute} {value : Text}

theorem laterOf_eq_some (platform : Platform ι κ σ) (best : Option (Issued ι κ σ)) (row : Issued ι κ σ) :
    ∃ later, laterOf platform best row = some later ∧ (later = row ∨ best = some later) ∧
      row.issuedAt ≤ later.issuedAt ∧ ∀ old ∈ best, old.issuedAt ≤ later.issuedAt := by
  cases best with
  | none => exact ⟨row, rfl, .inl rfl, Int.le_refl _, by simp⟩
  | some best =>
    by_cases hlater : best.issuedAt < row.issuedAt ∨
        (best.issuedAt = row.issuedAt ∧ platform.before best.contentId row.contentId)
    · refine ⟨row, if_pos hlater, .inl rfl, Int.le_refl _, ?_⟩
      rintro old ⟨⟩
      rcases hlater with hlt | ⟨heq, -⟩ <;> omega
    · refine ⟨best, if_neg hlater, .inr rfl, ?_, ?_⟩
      · have hnot : ¬best.issuedAt < row.issuedAt := fun hlt => hlater (.inl hlt)
        omega
      · rintro old ⟨⟩
        exact Int.le_refl _

theorem foldl_laterOf {rows : List (Issued ι κ σ)} {best : Option (Issued ι κ σ)} {active : Issued ι κ σ}
    (h : rows.foldl (laterOf platform) best = some active) :
    (active ∈ rows ∨ best = some active) ∧ (∀ row ∈ rows, row.issuedAt ≤ active.issuedAt) ∧
      ∀ old ∈ best, old.issuedAt ≤ active.issuedAt := by
  induction rows generalizing best with
  | nil =>
    refine ⟨.inr h, by simp, ?_⟩
    rintro old hold
    rw [Option.mem_def, show best = some active from h] at hold
    cases hold
    exact Int.le_refl _
  | cons row rest ih =>
    obtain ⟨later, hlater, hfrom, hrow, hbest⟩ := laterOf_eq_some platform best row
    rw [foldl_cons, hlater] at h
    obtain ⟨hmem, hrest, hstep⟩ := ih h
    have hle : later.issuedAt ≤ active.issuedAt := hstep later rfl
    refine ⟨?_, ?_, fun old hold => Int.le_trans (hbest old hold) hle⟩
    · rcases hmem with hmem | hsame
      · exact .inl (.tail _ hmem)
      · cases hsame
        rcases hfrom with rfl | hfrom
        · exact .inl (.head _)
        · exact .inr hfrom
    · intro other hother
      rcases mem_cons.mp hother with rfl | hother
      · exact Int.le_trans hrow hle
      · exact hrest other hother

variable {user : Nat} {attr : Attribute} {now : Int} {value : Text}

theorem issuedActiveRow_spec {active : Issued ι κ σ}
    (h : issuedActiveRow platform issued user attr now = some active) :
    active ∈ issued ∧ active.Stands now user attr ∧
      ∀ row ∈ issued, row.Stands now user attr → row.issuedAt ≤ active.issuedAt := by
  obtain ⟨hmem, hle, -⟩ := foldl_laterOf h
  rcases hmem with hmem | hnone
  · obtain ⟨hmem, hstands⟩ := mem_filter.mp hmem
    exact ⟨hmem, of_decide_eq_true hstands, fun row hrow hstands =>
      hle row (mem_filter.mpr ⟨hrow, decide_eq_true hstands⟩)⟩
  · cases hnone

theorem issuedActiveRow_append (issued : List (Issued ι κ σ)) (row : Issued ι κ σ) (user : Nat) (attr : Attribute)
    (now : Int) : issuedActiveRow platform (issued ++ [row]) user attr now =
      if row.Stands now user attr then laterOf platform (issuedActiveRow platform issued user attr now) row
      else issuedActiveRow platform issued user attr now := by
  unfold issuedActiveRow
  rw [filter_append, foldl_append]
  by_cases hstands : row.Stands now user attr <;> simp [hstands]

theorem exists_issuedActiveRow (platform : Platform ι κ σ) (hrow : row ∈ issued)
    (hstands : row.Stands now user attr) : ∃ active, issuedActiveRow platform issued user attr now = some active := by
  obtain ⟨before, after, rfl⟩ := append_of_mem hrow
  have hsome : ∀ (rows : List (Issued ι κ σ)) (best : Issued ι κ σ),
      ∃ active, rows.foldl (laterOf platform) (some best) = some active := by
    intro rows
    induction rows with
    | nil => exact fun best => ⟨best, rfl⟩
    | cons row rest ih =>
      intro best
      obtain ⟨later, hlater, -⟩ := laterOf_eq_some platform (some best) row
      rw [foldl_cons, hlater]
      exact ih later
  unfold issuedActiveRow
  rw [filter_append, filter_cons_of_pos (by simpa using hstands), foldl_append, foldl_cons]
  obtain ⟨later, hlater, -⟩ := laterOf_eq_some platform
    ((before.filter fun other : Issued ι κ σ => decide (other.Stands now user attr)).foldl (laterOf platform) none) row
  rw [hlater]
  exact hsome _ later

structure Local (db : Db ι κ σ) : Prop where
  names : ∀ user other name, db.users.get? user = some name → db.users.get? other = some name → user = other
  stripped : ∀ key attestation, db.attestations.get? key = some attestation →
    Text.strip attestation.attestedValue = attestation.attestedValue
  subjects : ∀ key attestation, db.attestations.get? key = some attestation →
    ∃ name, db.users.get? key.1 = some name

theorem consented_eq_some {key : Nat × Attribute} :
    db.consented.get? key = some value ↔ ∃ attestation, db.attestations.get? key = some attestation ∧
      attestation.linkVisible = true ∧ attestation.selfAttested key.1 = false ∧
      attestation.attestedValue = value := by
  unfold Db.consented
  rw [get?_mapValues, Option.map_eq_some_iff]
  constructor
  · rintro ⟨attestation, hget, rfl⟩
    obtain ⟨hget, hkeep⟩ := (get?_filter_eq_some _ _ _ _).mp hget
    simp only [Bool.and_eq_true, Bool.not_eq_true'] at hkeep
    exact ⟨attestation, hget, hkeep.1, hkeep.2, rfl⟩
  · rintro ⟨attestation, hget, hvisible, hself, rfl⟩
    exact ⟨attestation, (get?_filter_eq_some _ _ _ _).mpr ⟨hget, by simp [hvisible, hself]⟩, rfl⟩

theorem mem_sortedConsents {item : (Nat × Attribute) × Text} :
    item ∈ db.sortedConsents ↔ db.consented.get? item.1 = some item.2 := by
  unfold Db.sortedConsents
  rw [mem_insertionSort, get?_eq_some]

theorem validateValue_eq_ok {result : Text}
    (h : validateValue platform pass attr value = .ok result) : result = Text.strip value := by
  unfold validateValue at h
  dsimp only at h
  split at h
  · cases h
  · split at h
    · split at h
      · cases h
      · split at h
        · cases h
        · exact (Except.ok.inj h).symm
    · split at h
      · cases h
      · exact (Except.ok.inj h).symm

theorem build_eq_ok (hlocal : Local db) {username : String} {envelope : Envelope ι} {issuedAt expiresAt : Int}
    (hconsent : db.consented.get? (user, attr) = some value)
    (h : buildLinkVisibleRemoteAttestation platform pass db user username attr issuedAt expiresAt = .ok envelope) :
    envelope = .attestation pass.homeNodeFingerprint username attr value issuedAt expiresAt := by
  obtain ⟨attestation, hget, hvisible, hself, rfl⟩ := consented_eq_some.mp hconsent
  unfold buildLinkVisibleRemoteAttestation at h
  rw [hget] at h
  simp only [hvisible, hself, Bool.true_eq_false, Bool.false_eq_true, if_false] at h
  split at h
  · cases h
  · split at h
    · cases h
    · rename_i result hvalid
      split at h
      · cases h
      · rw [← Except.ok.inj h, validateValue_eq_ok hvalid, hlocal.stripped _ _ hget]

/-- A consent the builder makes an object of. -/
def Exportable (platform : Platform ι κ σ) (pass : Pass κ) (db : Db ι κ σ) (user : Nat) (attr : Attribute) :
    Prop :=
  ∃ username envelope, db.users.get? user = some username ∧
    buildLinkVisibleRemoteAttestation platform pass db user username attr pass.now
      (pass.now + issuedAttestationLifetime) = .ok envelope

/-- The consent has an object of the current key that lasts. -/
def Served (platform : Platform ι κ σ) (pass : Pass κ) (issued : List (Issued ι κ σ)) (user : Nat)
    (attr : Attribute) (value : Text) : Prop :=
  neededAction pass (issuedActiveRow platform issued user attr pass.now) value = none

variable {active : Option (Issued ι κ σ)} {change : Change ι} {target : ι}

theorem neededAction_eq_none (h : neededAction pass active value = none) :
    ∃ row, active = some row ∧ row.attestedValue = some value ∧ row.signingKeyFingerprint = pass.signingKey ∧
      ∃ expiresAt ∈ row.expiresAt, pass.now + issuedAttestationRenewWithin < expiresAt := by
  cases active with
  | none => cases h
  | some row =>
    unfold neededAction at h
    dsimp only at h
    split at h
    · cases h
    · rename_i hvalue
      split at h
      · cases h
      · rename_i hkey
        split at h
        · rename_i hlasts
          exact ⟨row, rfl, not_not.mp hvalue, not_not.mp hkey, hlasts⟩
        · cases h

theorem neededAction_some (hvalue : row.attestedValue = some value)
    (hkey : row.signingKeyFingerprint = pass.signingKey)
    (hlasts : ∃ expiresAt ∈ row.expiresAt, pass.now + issuedAttestationRenewWithin < expiresAt) :
    neededAction pass (some row) value = none := by
  simp only [neededAction, hvalue, hkey, ne_eq, not_true_eq_false, if_false, if_pos hlasts]

theorem neededAction_ne_refused {action : Action} {reason : String}
    (h : neededAction pass active value = some (action, reason)) : action ≠ .refused := by
  unfold neededAction at h
  split at h
  · cases h
    decide
  · split at h
    · cases h
      decide
    · split at h
      · cases h
        decide
      · split at h
        · cases h
        · cases h
          decide

theorem issueOne_store
    (h : issueOne platform pass db issued ((user, attr), value) = some (change, some row)) :
    ∃ username envelope, ¬Served platform pass issued user attr value ∧ change.action ≠ .refused ∧
      db.users.get? user = some username ∧
      buildLinkVisibleRemoteAttestation platform pass db user username attr pass.now
        (pass.now + issuedAttestationLifetime) = .ok envelope ∧
      row = attestationRow platform pass user attr value envelope := by
  unfold issueOne at h
  dsimp only at h
  split at h
  · cases h
  · rename_i action reason hneeded
    split at h
    · cases h
    · rename_i username huser
      split at h
      · split at h
        · cases h
        · cases h
      · rename_i envelope hbuild
        cases h
        refine ⟨username, envelope, ?_, neededAction_ne_refused hneeded, huser, hbuild, rfl⟩
        rw [Served, hneeded]
        exact Option.some_ne_none _

theorem issueOne_report
    (h : issueOne platform pass db issued ((user, attr), value) = some (change, none)) :
    change.action = .refused ∧ ¬Exportable platform pass db user attr := by
  unfold issueOne at h
  dsimp only at h
  split at h
  · cases h
  · split at h
    · cases h
    · rename_i username huser
      split at h
      · rename_i message hbuild
        split at h
        · cases h
          refine ⟨rfl, ?_⟩
          rintro ⟨other, envelope, hother, hok⟩
          rw [huser] at hother
          cases hother
          rw [hbuild] at hok
          cases hok
        · cases h
      · cases h

theorem issueOne_none (h : issueOne platform pass db issued ((user, attr), value) = none)
    (hexport : Exportable platform pass db user attr) : Served platform pass issued user attr value := by
  obtain ⟨username, envelope, huser, hbuild⟩ := hexport
  unfold issueOne at h
  dsimp only at h
  split at h
  · rename_i hneeded
    exact hneeded
  · rw [huser] at h
    dsimp only at h
    rw [hbuild] at h
    cases h

theorem staleReason_eq_none : db.staleReason row = none ↔
    ∃ user attr value, row.userId = some user ∧ row.attr = some attr ∧
      db.consented.get? (user, attr) = some value ∧ row.attestedValue = some value ∧
      ∀ name, row.envelope.bind Envelope.opaqueUserId = some name → db.users.get? user = some name := by
  constructor
  · intro h
    unfold Db.staleReason at h
    split at h
    · cases h
    · rename_i user huser
      split at h
      · cases h
      · rename_i value hconsent
        obtain ⟨attr, hattr, hconsent⟩ := Option.bind_eq_some_iff.mp hconsent
        split at h
        · cases h
        · rename_i hvalue
          refine ⟨user, attr, value, huser, hattr, hconsent, not_not.mp hvalue, fun name hname => ?_⟩
          rw [hname] at h
          dsimp only at h
          split at h
          · cases h
          · rename_i hsame
            exact not_not.mp hsame
  · rintro ⟨user, attr, value, huser, hattr, hconsent, hvalue, hname⟩
    unfold Db.staleReason
    rw [huser, hattr]
    simp only [Option.bind_some, hconsent, hvalue, ne_eq, not_true_eq_false, if_false]
    split
    · rfl
    · rename_i name hfound
      rw [if_neg (not_not.mpr (hname name hfound))]

structure Issuing (platform : Platform ι κ σ) (pass : Pass κ) (db : Db ι κ σ) (start issued : List (Issued ι κ σ)) :
    Prop where
  sound : Sound platform pass.homeNodeFingerprint pass.now issued
  fresh : ∀ row ∈ issued, row.issuedAt = pass.now →
    row.signingKeyFingerprint = pass.signingKey ∧ (row.objectType = .attestation → row.revokedAt = none)
  agreed : ∀ row ∈ issued, row.Live pass.now → db.staleReason row = none
  refused : ∀ user attr, ¬Exportable platform pass db user attr →
    issuedActiveRow platform issued user attr pass.now = issuedActiveRow platform start user attr pass.now

theorem Issuing.needed_of_now (h : Issuing platform pass db start issued) (hrow : row ∈ issued)
    (hstands : row.Stands pass.now user attr) (hnow : row.issuedAt = pass.now)
    (hconsent : db.consented.get? (user, attr) = some value) : neededAction pass (some row) value = none := by
  obtain ⟨other, which, agreed, huser, hattr, hother, hvalue, -⟩ :=
    staleReason_eq_none.mp (h.agreed row hrow hstands.1)
  rw [hstands.2.1] at huser
  rw [hstands.2.2] at hattr
  cases huser
  cases hattr
  rw [hconsent] at hother
  cases hother
  obtain ⟨_, _, _, hasserts⟩ := h.sound.asserts row hrow hstands.1.1
  refine neededAction_some hvalue (h.fresh row hrow hnow).1 ⟨_, hasserts.expiresAt, ?_⟩
  rw [hnow]
  unfold issuedAttestationLifetime issuedAttestationRenewWithin day
  omega

theorem Issuing.served_of_now (h : Issuing platform pass db start issued) (hrow : row ∈ issued)
    (hstands : row.Stands pass.now user attr) (hnow : row.issuedAt = pass.now)
    (hconsent : db.consented.get? (user, attr) = some value) : Served platform pass issued user attr value := by
  obtain ⟨active, hactive⟩ := exists_issuedActiveRow platform hrow hstands
  obtain ⟨hmem, hactiveStands, hnewest⟩ := issuedActiveRow_spec hactive
  have hle := hnewest row hrow hstands
  have hdated := h.sound.dated active hmem
  rw [Served, hactive]
  exact h.needed_of_now hmem hactiveStands (by omega) hconsent

section Turn

variable {username : String} {envelope : Envelope ι}

theorem asserts_attestationRow (username : String) :
    Asserts platform pass.homeNodeFingerprint username attr value (attestationRow platform pass user attr value
      (.attestation pass.homeNodeFingerprint username attr value pass.now
        (pass.now + issuedAttestationLifetime))) where
  contentId := rfl
  attr := rfl
  expiresAt := rfl
  kept _ := ⟨rfl, rfl, rfl⟩
  blank hredacted := absurd rfl hredacted

theorem stands_attestationRow {other : Nat} {which : Attribute} :
    (attestationRow platform pass user attr value envelope).Stands pass.now other which ↔
      user = other ∧ attr = which := by
  constructor
  · rintro ⟨-, huser, hattr⟩
    exact ⟨Option.some.inj huser, Option.some.inj hattr⟩
  · rintro ⟨rfl, rfl⟩
    refine ⟨⟨rfl, rfl, _, rfl, ?_⟩, rfl, rfl⟩
    unfold issuedAttestationLifetime day
    omega

variable (h : Issuing platform pass db start issued) (hhash : platform.Collisionless) (hlocal : Local db)
  (hconsent : db.consented.get? (user, attr) = some value) (huser : db.users.get? user = some username)
  (hneeded : ¬Served platform pass issued user attr value)

include h hhash hlocal hconsent huser hneeded

theorem storeIssued_attestationRow :
    storeIssued issued (attestationRow platform pass user attr value
        (.attestation pass.homeNodeFingerprint username attr value pass.now
          (pass.now + issuedAttestationLifetime))) =
      issued ++ [attestationRow platform pass user attr value
        (.attestation pass.homeNodeFingerprint username attr value pass.now
          (pass.now + issuedAttestationLifetime))] := by
  refine insertOrIgnore_of_fresh fun other hother hid => ?_
  cases htype : other.objectType with
  | revocation =>
    obtain ⟨_, hwithdraws⟩ := h.sound.withdraws other hother htype
    cases hhash (hwithdraws.contentId.symm.trans hid)
  | attestation =>
    obtain ⟨name, verified, said, hasserts⟩ := h.sound.asserts other hother htype
    have hsame := hhash (hasserts.contentId.symm.trans hid)
    injection hsame with _ hname hverified _ hnow _
    have hlive : other.Live pass.now := by
      refine ⟨htype, (h.fresh other hother hnow).2 htype, _, hasserts.expiresAt, ?_⟩
      rw [hnow]
      unfold issuedAttestationLifetime day
      omega
    obtain ⟨owner, which, _, howner, hwhich, _, _, hcalled⟩ := staleReason_eq_none.mp (h.agreed other hother hlive)
    have hkept := hasserts.kept (h.sound.not_redacted hother hlive)
    have hcurrent : db.users.get? owner = some name := hcalled name (by rw [hkept.2.1]; rfl)
    rw [hname] at hcurrent
    have howned : owner = user := hlocal.names owner user username hcurrent huser
    have hstands : other.Stands pass.now user attr := by
      refine ⟨hlive, by rw [howner, howned], ?_⟩
      rw [hasserts.attr, hverified]
    exact hneeded (h.served_of_now hother hstands hnow hconsent)

theorem issuing_append (hexport : Exportable platform pass db user attr) :
    Issuing platform pass db start (issued ++ [attestationRow platform pass user attr value
      (.attestation pass.homeNodeFingerprint username attr value pass.now
        (pass.now + issuedAttestationLifetime))]) where
  sound := by
    rw [← storeIssued_attestationRow h hhash hlocal hconsent huser hneeded]
    exact sound_storeIssued h.sound (fun _ => ⟨username, attr, value, asserts_attestationRow username⟩)
      (fun htype => nomatch htype) (Int.le_refl _) rfl rfl
  fresh other hother hnow := by
    rcases mem_append.mp hother with hother | hother
    · exact h.fresh other hother hnow
    · rw [mem_singleton.mp hother]
      exact ⟨rfl, fun _ => rfl⟩
  agreed other hother hlive := by
    rcases mem_append.mp hother with hother | hother
    · exact h.agreed other hother hlive
    · rw [mem_singleton.mp hother, staleReason_eq_none]
      refine ⟨user, attr, value, rfl, rfl, hconsent, rfl, fun name hname => ?_⟩
      rw [huser]
      exact hname
  refused other which hrefused := by
    rw [issuedActiveRow_append, if_neg, h.refused other which hrefused]
    rw [stands_attestationRow]
    rintro ⟨rfl, rfl⟩
    exact hrefused hexport

end Turn

theorem issuing_issueStep (h : Issuing platform pass db start issued) (hhash : platform.Collisionless)
    (hlocal : Local db) (hconsent : db.consented.get? (user, attr) = some value) (changes : List (Change ι)) :
    Issuing platform pass db start (issueStep platform pass db (issued, changes) ((user, attr), value)).1 ∧
      (Exportable platform pass db user attr →
        Served platform pass (issueStep platform pass db (issued, changes) ((user, attr), value)).1 user attr value) ∧
      ∀ other which said, db.consented.get? (other, which) = some said →
        Served platform pass issued other which said →
        Served platform pass (issueStep platform pass db (issued, changes) ((user, attr), value)).1 other which
          said := by
  unfold issueStep
  cases hone : issueOne platform pass db issued ((user, attr), value) with
  | none => exact ⟨h, issueOne_none hone, fun _ _ _ _ hserved => hserved⟩
  | some result =>
    obtain ⟨change, stored⟩ := result
    cases stored with
    | none => exact ⟨h, fun hexport => absurd hexport (issueOne_report hone).2, fun _ _ _ _ hserved => hserved⟩
    | some row =>
      obtain ⟨username, envelope, hneeded, -, huser, hbuild, hrow⟩ := issueOne_store hone
      have hexport : Exportable platform pass db user attr := ⟨username, envelope, huser, hbuild⟩
      have hsays := build_eq_ok hlocal hconsent hbuild
      subst hrow hsays
      have hissuing := issuing_append h hhash hlocal hconsent huser hneeded hexport
      dsimp only
      rw [storeIssued_attestationRow h hhash hlocal hconsent huser hneeded]
      refine ⟨hissuing, fun _ => ?_, ?_⟩
      · exact hissuing.served_of_now (mem_append_right _ (.head _))
          (stands_attestationRow.mpr ⟨rfl, rfl⟩) rfl hconsent
      · intro other which said hother hserved
        by_cases hsame : user = other ∧ attr = which
        · exact hissuing.served_of_now (mem_append_right _ (.head _))
            (stands_attestationRow.mpr hsame) rfl hother
        · unfold Served at hserved ⊢
          rw [issuedActiveRow_append, if_neg (stands_attestationRow.not.mpr hsame)]
          exact hserved

def refusal (platform : Platform ι κ σ) (pass : Pass κ) (db : Db ι κ σ) (issued : List (Issued ι κ σ))
    (item : (Nat × Attribute) × Text) : Option (Change ι) :=
  match issueOne platform pass db issued item with
  | some (change, none) => some change
  | _ => none

theorem issueOne_congr {issued' : List (Issued ι κ σ)}
    (h : issuedActiveRow platform issued user attr pass.now = issuedActiveRow platform issued' user attr pass.now) :
    issueOne platform pass db issued ((user, attr), value) =
      issueOne platform pass db issued' ((user, attr), value) := by
  unfold issueOne
  dsimp only
  rw [h]

theorem refusal_of_exportable (hexport : Exportable platform pass db user attr) :
    refusal platform pass db issued ((user, attr), value) = none := by
  unfold refusal
  split
  · rename_i change hone
    exact absurd hexport (issueOne_report hone).2
  · rfl

theorem Issuing.refusal_eq (h : Issuing platform pass db start issued) (item : (Nat × Attribute) × Text) :
    refusal platform pass db issued item = refusal platform pass db start item := by
  obtain ⟨⟨user, attr⟩, value⟩ := item
  by_cases hexport : Exportable platform pass db user attr
  · rw [refusal_of_exportable hexport, refusal_of_exportable hexport]
  · unfold refusal
    rw [issueOne_congr (h.refused user attr hexport)]

theorem issued_all (hhash : platform.Collisionless) (hlocal : Local db) (items : List ((Nat × Attribute) × Text))
    (hitems : ∀ item ∈ items, db.consented.get? item.1 = some item.2) (h : Issuing platform pass db start issued)
    (changes : List (Change ι)) :
    Issuing platform pass db start (items.foldl (issueStep platform pass db) (issued, changes)).1 ∧
      (∀ item ∈ items, Exportable platform pass db item.1.1 item.1.2 →
        Served platform pass (items.foldl (issueStep platform pass db) (issued, changes)).1 item.1.1 item.1.2
          item.2) ∧
      (∀ other which said, db.consented.get? (other, which) = some said →
        Served platform pass issued other which said →
        Served platform pass (items.foldl (issueStep platform pass db) (issued, changes)).1 other which said) ∧
      (items.foldl (issueStep platform pass db) (issued, changes)).2.filter (fun change => change.action = .refused) =
        changes.filter (fun change => change.action = .refused) ++
          items.filterMap (refusal platform pass db start) := by
  induction items generalizing issued changes with
  | nil => exact ⟨h, by simp, fun _ _ _ _ hserved => hserved, by simp⟩
  | cons item rest ih =>
    have hitem := hitems item (.head _)
    obtain ⟨hnext, hown, hothers⟩ := issuing_issueStep h hhash hlocal hitem changes
    obtain ⟨hend, hrest, hkept, hrefused⟩ := ih (fun other hother => hitems other (.tail _ hother))
      hnext (issueStep platform pass db (issued, changes) item).2
    rw [foldl_cons]
    refine ⟨hend, ?_, fun other which said hother hserved =>
      hkept other which said hother (hothers other which said hother hserved), ?_⟩
    · intro other hother hexport
      rcases mem_cons.mp hother with rfl | hother
      · exact hkept _ _ _ hitem (hown hexport)
      · exact hrest other hother hexport
    · refine hrefused.trans ?_
      have hreported : (issueStep platform pass db (issued, changes) item).2.filter
          (fun change => change.action = .refused) =
          changes.filter (fun change => change.action = .refused) ++
            (refusal platform pass db start item).toList := by
        rw [← h.refusal_eq item]
        unfold issueStep refusal
        cases hone : issueOne platform pass db issued item with
        | none => simp
        | some result =>
          obtain ⟨change, stored⟩ := result
          cases stored with
          | none => simp [(issueOne_report hone).1]
          | some row =>
            obtain ⟨_, _, -, hother, -⟩ := issueOne_store hone
            simp [hother]
      rw [hreported, append_assoc]
      congr 1
      cases hone : refusal platform pass db start item with
      | none => simp [hone]
      | some change => simp [hone]

theorem issuedActiveRow_storeIssued (h : ¬row.Stands now user attr) :
    issuedActiveRow platform (storeIssued issued row) user attr now =
      issuedActiveRow platform issued user attr now := by
  unfold storeIssued
  rcases insertOrIgnore_cases Issued.contentId issued row with hsame | hnew
  · rw [hsame]
  · rw [hnew, issuedActiveRow_append, if_neg h]

theorem not_stands_revocationRow :
    ¬(revocationRow (σ := σ) platform pass target).Stands pass.now user attr := by
  rintro ⟨⟨htype, -⟩, -⟩
  cases htype

theorem issuing_storeIssued_revocation (h : Issuing platform pass db start issued) (target : ι) :
    Issuing platform pass db start (storeIssued issued (revocationRow platform pass target)) where
  sound := sound_storeIssued_revocation h.sound target
  fresh other hother hnow := by
    rcases mem_insertOrIgnore hother with hother | rfl
    · exact h.fresh other hother hnow
    · exact ⟨rfl, fun htype => nomatch htype⟩
  agreed other hother hlive := by
    rcases mem_insertOrIgnore hother with hother | rfl
    · exact h.agreed other hother hlive
    · cases hlive.1
  refused user attr hrefused := by
    rw [issuedActiveRow_storeIssued not_stands_revocationRow]
    exact h.refused user attr hrefused

structure Resigned (platform : Platform ι κ σ) (pass : Pass κ) (targets : List ι)
    (issued after : List (Issued ι κ σ)) : Prop where
  kept : ∀ row ∈ issued, row ∈ after
  added : ∀ row ∈ after, row ∈ issued ∨ row.objectType = .revocation
  covered : ∀ target ∈ targets, ∃ row ∈ after, row.Revokes target ∧ row.signingKeyFingerprint = pass.signingKey
  active : ∀ user attr, issuedActiveRow platform after user attr pass.now =
    issuedActiveRow platform issued user attr pass.now

theorem resigned (hhash : platform.Collisionless) (targets : List ι) (h : Issuing platform pass db start issued) :
    Issuing platform pass db start
        (targets.foldl (fun issued target => storeIssued issued (revocationRow platform pass target)) issued) ∧
      Resigned platform pass targets issued
        (targets.foldl (fun issued target => storeIssued issued (revocationRow platform pass target)) issued) := by
  induction targets generalizing issued with
  | nil => exact ⟨h, fun _ hrow => hrow, fun _ hrow => .inl hrow, by simp, fun _ _ => rfl⟩
  | cons target rest ih =>
    have hnext := issuing_storeIssued_revocation h target
    obtain ⟨hend, hrest⟩ := ih hnext
    refine ⟨hend, fun row hrow => hrest.kept row (subset_insertOrIgnore hrow), ?_, ?_, ?_⟩
    · intro row hrow
      rcases hrest.added row hrow with hrow | htype
      · rcases mem_insertOrIgnore hrow with hrow | rfl
        · exact .inl hrow
        · exact .inr rfl
      · exact .inr htype
    · intro other hother
      rcases mem_cons.mp hother with rfl | hother
      · obtain ⟨row, hrow, hid⟩ := exists_insertOrIgnore Issued.contentId issued (revocationRow platform pass other)
        obtain ⟨hrevokes, hnow⟩ := hnext.sound.revokes_of_contentId hhash hrow hid
        exact ⟨row, hrest.kept row hrow, hrevokes, (hnext.fresh row hrow hnow).1⟩
      · exact hrest.covered other hother
    · intro user attr
      exact (hrest.active user attr).trans (issuedActiveRow_storeIssued not_stands_revocationRow)

theorem mem_orphanedTargets : target ∈ orphanedTargets platform pass issued ↔
    (∃ row ∈ issued, row.Outstanding pass.now ∧ (∃ other ∈ issued, other.Revokes row.contentId) ∧
      row.contentId = target) ∧
    ¬∃ other ∈ issued, other.Revokes target ∧ other.signingKeyFingerprint = pass.signingKey := by
  unfold orphanedTargets
  rw [mem_filter, mem_insertionSort, mem_map]
  simp only [mem_filter, decide_eq_true_eq, and_assoc]

theorem redact_cases (now : Int) (row : Issued ι κ σ) :
    row.redact now = row ∨ (row.redactedAt = none ∧ row.Retired now ∧ row.redact now =
      { row with attestedValue := none, envelope := none, signature := none, redactedAt := some now }) := by
  unfold Issued.redact
  split
  · rename_i h
    exact .inr ⟨h.1, h.2, rfl⟩
  · exact .inl rfl

theorem redact_of_live (h : row.Live now) : row.redact now = row := by
  rcases redact_cases now row with hsame | ⟨-, ⟨-, hrevoked | ⟨expiresAt, hexpires, hover⟩⟩, -⟩
  · exact hsame
  · exact absurd h.2.1 hrevoked
  · obtain ⟨other, hother, hleft⟩ := h.2.2
    rw [Option.mem_def.mp hexpires] at hother
    cases hother
    omega

theorem redact_of_revocation (h : row.objectType = .revocation) : row.redact now = row := by
  rcases redact_cases now row with hsame | ⟨-, hretired, -⟩
  · exact hsame
  · cases h.symm.trans hretired.1

theorem live_redact : (row.redact now).Live now ↔ row.Live now := by
  rcases redact_cases now row with hsame | ⟨-, -, hblank⟩
  · rw [hsame]
  · rw [hblank]
    exact Iff.rfl

theorem stands_redact : (row.redact now).Stands now user attr ↔ row.Stands now user attr := by
  rcases redact_cases now row with hsame | ⟨-, -, hblank⟩
  · rw [hsame]
  · rw [hblank]
    exact Iff.rfl

theorem retired_redact : (row.redact now).Retired now ↔ row.Retired now := by
  rcases redact_cases now row with hsame | ⟨-, -, hblank⟩
  · rw [hsame]
  · rw [hblank]
    exact Iff.rfl

theorem redactedAt_redact (h : (row.redact now).Retired now) : (row.redact now).redactedAt ≠ none := by
  rw [retired_redact] at h
  unfold Issued.redact
  split
  · exact Option.some_ne_none _
  · rename_i hnot
    exact fun hnone => hnot ⟨hnone, h⟩

theorem issuedActiveRow_redact (issued : List (Issued ι κ σ)) (user : Nat) (attr : Attribute) (now : Int) :
    issuedActiveRow platform (issued.map (Issued.redact now)) user attr now =
      issuedActiveRow platform issued user attr now := by
  have hfilter : (issued.map (Issued.redact now)).filter (fun row => decide (row.Stands now user attr)) =
      issued.filter fun row => decide (row.Stands now user attr) := by
    induction issued with
    | nil => rfl
    | cons row rest ih =>
      by_cases hstands : row.Stands now user attr
      · rw [map_cons, filter_cons_of_pos (by simpa [stands_redact] using hstands),
          filter_cons_of_pos (by simpa using hstands), ih, redact_of_live hstands.1]
      · rw [map_cons, filter_cons_of_neg (by simpa [stands_redact] using hstands),
          filter_cons_of_neg (by simpa using hstands), ih]
  unfold issuedActiveRow
  rw [hfilter]

theorem sound_redact (h : Sound platform home bound issued) :
    Sound platform home bound (issued.map (Issued.redact bound)) where
  nodup := by
    have hids : Issued.contentId ∘ Issued.redact bound = (Issued.contentId : Issued ι κ σ → ι) := by
      funext row
      rcases redact_cases bound row with hsame | ⟨-, -, hblank⟩
      · simp [hsame]
      · simp [hblank]
    rw [map_map, hids]
    exact h.nodup
  asserts other hother htype := by
    obtain ⟨row, hrow, rfl⟩ := mem_map.mp hother
    rcases redact_cases bound row with hsame | ⟨-, hretired, hblank⟩
    · rw [hsame] at htype ⊢
      exact h.asserts row hrow htype
    · obtain ⟨username, attr, value, hasserts⟩ := h.asserts row hrow hretired.1
      rw [hblank]
      exact ⟨username, attr, value, hasserts.contentId, hasserts.attr, hasserts.expiresAt,
        (fun hnone => nomatch hnone), fun _ => ⟨rfl, rfl, rfl⟩⟩
  withdraws other hother htype := by
    obtain ⟨row, hrow, rfl⟩ := mem_map.mp hother
    rcases redact_cases bound row with hsame | ⟨-, hretired, hblank⟩
    · rw [hsame] at htype ⊢
      exact h.withdraws row hrow htype
    · rw [hblank] at htype
      cases hretired.1.symm.trans htype
  dated other hother := by
    obtain ⟨row, hrow, rfl⟩ := mem_map.mp hother
    rcases redact_cases bound row with hsame | ⟨-, -, hblank⟩
    · rw [hsame]
      exact h.dated row hrow
    · rw [hblank]
      exact h.dated row hrow
  retired other hother hredacted := by
    obtain ⟨row, hrow, rfl⟩ := mem_map.mp hother
    rw [retired_redact]
    rcases redact_cases bound row with hsame | ⟨-, hretired, -⟩
    · rw [hsame] at hredacted
      exact h.retired row hrow hredacted
    · exact hretired
  revoked other hother htype hrevoked := by
    obtain ⟨row, hrow, rfl⟩ := mem_map.mp hother
    have hfound : row.objectType = .attestation ∧ row.revokedAt ≠ none ∧
        (row.redact bound).contentId = row.contentId := by
      rcases redact_cases bound row with hsame | ⟨-, hretired, hblank⟩
      · rw [hsame] at htype hrevoked ⊢
        exact ⟨htype, hrevoked, rfl⟩
      · rw [hblank] at hrevoked ⊢
        exact ⟨hretired.1, hrevoked, rfl⟩
    obtain ⟨hattestation, hmarked, hid⟩ := hfound
    obtain ⟨revocation, hmem, hnames⟩ := h.revoked row hrow hattestation hmarked
    rw [hid]
    exact ⟨revocation, mem_map.mpr ⟨revocation, hmem, redact_of_revocation hnames.1⟩, hnames⟩

structure Settled (platform : Platform ι κ σ) (pass : Pass κ) (db : Db ι κ σ) : Prop where
  sound : Sound platform pass.homeNodeFingerprint pass.now db.issued
  agreed : ∀ row ∈ db.issued, row.Live pass.now → db.staleReason row = none
  served : ∀ user attr value, db.consented.get? (user, attr) = some value →
    Exportable platform pass db user attr → Served platform pass db.issued user attr value
  covered : ∀ row ∈ db.issued, row.Outstanding pass.now →
    ∃ other ∈ db.issued, other.Revokes row.contentId ∧ other.signingKeyFingerprint = pass.signingKey
  blank : ∀ row ∈ db.issued, row.Retired pass.now → row.redactedAt ≠ none

theorem Sound.readable (h : Sound platform home bound db.issued) : ¬∃ row ∈ db.live bound, row.envelope = none := by
  rintro ⟨row, hrow, hblank⟩
  obtain ⟨hmem, hlive⟩ := mem_filter.mp hrow
  have hlive := of_decide_eq_true hlive
  obtain ⟨_, _, _, hasserts⟩ := h.asserts row hmem hlive.1
  rw [(hasserts.kept (h.not_redacted hmem hlive)).2.1] at hblank
  cases hblank

theorem sweep_agreed (rows : List (Issued ι κ σ)) (acc : List (Issued ι κ σ) × List (Change ι))
    (h : ∀ row ∈ rows, db.staleReason row = none) : rows.foldl (sweepOne platform pass db) acc = acc := by
  induction rows with
  | nil => rfl
  | cons row rest ih =>
    have hfirst : sweepOne platform pass db acc row = acc := by
      unfold sweepOne
      rw [h row (.head _)]
    rw [foldl_cons, hfirst]
    exact ih fun other hother => h other (.tail _ hother)

theorem sweep_refuses_nothing (rows : List (Issued ι κ σ)) (acc : List (Issued ι κ σ) × List (Change ι)) :
    (rows.foldl (sweepOne platform pass db) acc).2.filter (fun change => change.action = .refused) =
      acc.2.filter fun change => change.action = .refused := by
  induction rows generalizing acc with
  | nil => rfl
  | cons row rest ih =>
    rw [foldl_cons, ih]
    unfold sweepOne
    split
    · rfl
    · simp

theorem issue_served (platform : Platform ι κ σ) (pass : Pass κ) (db : Db ι κ σ)
    (items : List ((Nat × Attribute) × Text)) (changes : List (Change ι))
    (hserved : ∀ item ∈ items, Exportable platform pass db item.1.1 item.1.2 →
      Served platform pass issued item.1.1 item.1.2 item.2) :
    items.foldl (issueStep platform pass db) (issued, changes) =
      (issued, changes ++ items.filterMap (refusal platform pass db issued)) := by
  induction items generalizing changes with
  | nil => simp
  | cons item rest ih =>
    obtain ⟨⟨user, attr⟩, value⟩ := item
    have hrest := fun changes => ih changes fun other hother => hserved other (.tail _ hother)
    rw [foldl_cons]
    unfold issueStep
    cases hone : issueOne platform pass db issued ((user, attr), value) with
    | none =>
      have hnone : refusal platform pass db issued ((user, attr), value) = none := by
        unfold refusal
        rw [hone]
      rw [filterMap_cons_none hnone]
      exact hrest changes
    | some result =>
      obtain ⟨change, stored⟩ := result
      cases stored with
      | none =>
        have hsome : refusal platform pass db issued ((user, attr), value) = some change := by
          unfold refusal
          rw [hone]
        rw [filterMap_cons_some hsome, append_cons]
        exact hrest (changes ++ [change])
      | some row =>
        obtain ⟨username, envelope, hneeded, -, huser, hbuild, -⟩ := issueOne_store hone
        exact absurd (hserved _ (.head _) ⟨username, envelope, huser, hbuild⟩) hneeded

theorem Settled.again (h : Settled platform pass db) : reconcileIssuedAttestations platform pass db =
    some (db, db.sortedConsents.filterMap (refusal platform pass db db.issued)) := by
  have hlive : (db.live pass.now).foldl (sweepOne platform pass db) (db.issued, []) = (db.issued, []) :=
    sweep_agreed _ _ fun row hrow =>
      h.agreed row (mem_filter.mp hrow).1 (of_decide_eq_true (mem_filter.mp hrow).2)
  have hissue := issue_served platform pass db db.sortedConsents [] fun item hitem =>
    h.served item.1.1 item.1.2 item.2 (mem_sortedConsents.mp hitem)
  have htargets : orphanedTargets platform pass db.issued = [] := by
    rw [eq_nil_iff_forall_not_mem]
    intro target htarget
    obtain ⟨⟨row, hrow, houtstanding, -, rfl⟩, hnone⟩ := mem_orphanedTargets.mp htarget
    exact hnone (h.covered row hrow houtstanding)
  have hredact : db.issued.map (Issued.redact pass.now) = db.issued := by
    refine (map_congr_left fun row hrow => ?_).trans (map_id _)
    rcases redact_cases pass.now row with hsame | ⟨hnone, hretired, -⟩
    · exact hsame
    · exact absurd hnone (h.blank row hrow hretired)
  unfold reconcileIssuedAttestations
  rw [if_neg h.sound.readable]
  dsimp only
  rw [hlive, hissue]
  unfold resignOrphanedRevocations
  simp [htargets, hredact]

theorem reconciles (pass : Pass κ) (hhash : platform.Collisionless) (hlocal : Local db)
    (hsound : Sound platform pass.homeNodeFingerprint bound db.issued) (hlater : bound < pass.now) :
    ∃ issued changes, reconcileIssuedAttestations platform pass db = some ({ db with issued }, changes) ∧
      Settled platform pass { db with issued } ∧
      reconcileIssuedAttestations platform pass { db with issued } =
        some ({ db with issued }, changes.filter fun change => change.action = .refused) := by
  have hnow := hsound.later (Int.le_of_lt hlater)
  have hsweep : Sweeping platform pass db (db.live pass.now) db.issued := by
    refine ⟨hnow, ?_, ?_⟩
    · intro row hrow hdate
      have hdated := hsound.dated row hrow
      omega
    · exact fun row hrow hlive => .inr (mem_filter.mpr ⟨hrow, decide_eq_true hlive⟩)
  obtain ⟨swept, hswept⟩ : ∃ swept, (db.live pass.now).foldl (sweepOne platform pass db) (db.issued, []) = swept :=
    ⟨_, rfl⟩
  have hclean : Sweeping platform pass db [] swept.1 := hswept ▸ Issuance.swept hhash hsweep
  have hissuing : Issuing platform pass db swept.1 swept.1 := by
    refine ⟨hclean.sound, ?_, ?_, fun _ _ _ => rfl⟩
    · intro row hrow hdate
      obtain ⟨hkey, htype⟩ := hclean.fresh row hrow hdate
      exact ⟨hkey, fun hother => nomatch htype.symm.trans hother⟩
    · intro row hrow hlive
      rcases hclean.agreed row hrow hlive with hagreed | hnone
      · exact hagreed
      · cases hnone
  obtain ⟨hsigned, hserved, -, hrefused⟩ := issued_all hhash hlocal db.sortedConsents
    (fun item hitem => mem_sortedConsents.mp hitem) hissuing swept.2
  generalize hloop : db.sortedConsents.foldl (issueStep platform pass db) (swept.1, swept.2) = signed
    at hsigned hserved hrefused
  obtain ⟨hend, hagain⟩ := resigned hhash (orphanedTargets platform pass signed.1) hsigned
  generalize hstored : (orphanedTargets platform pass signed.1).foldl
    (fun issued target => storeIssued issued (revocationRow platform pass target)) signed.1 = stored at hend hagain
  have hactive : ∀ user attr, issuedActiveRow platform (stored.map (Issued.redact pass.now)) user attr pass.now =
      issuedActiveRow platform signed.1 user attr pass.now := fun user attr =>
    (issuedActiveRow_redact stored user attr pass.now).trans (hagain.active user attr)
  have hsettled : Settled platform pass { db with issued := stored.map (Issued.redact pass.now) } := by
    refine ⟨sound_redact hend.sound, ?_, ?_, ?_, ?_⟩
    · intro other hother hlive
      obtain ⟨row, hrow, rfl⟩ := mem_map.mp hother
      rw [live_redact] at hlive
      rw [redact_of_live hlive]
      exact hend.agreed row hrow hlive
    · intro user attr value hconsent hexport
      have hitem : ((user, attr), value) ∈ db.sortedConsents := mem_sortedConsents.mpr hconsent
      unfold Served
      rw [hactive]
      exact hserved _ hitem hexport
    · intro other hother houtstanding
      obtain ⟨row, hrow, rfl⟩ := mem_map.mp hother
      have hfound : row.Outstanding pass.now ∧ (row.redact pass.now).contentId = row.contentId := by
        rcases redact_cases pass.now row with hsame | ⟨-, -, hblank⟩
        · rw [hsame] at houtstanding ⊢
          exact ⟨houtstanding, rfl⟩
        · rw [hblank] at houtstanding ⊢
          exact ⟨houtstanding, rfl⟩
      obtain ⟨hout, hid⟩ := hfound
      have hbefore : row ∈ signed.1 := by
        rcases hagain.added row hrow with hrow | htype
        · exact hrow
        · cases htype.symm.trans hout.1
      rw [hid]
      have hcovered : ∃ other ∈ stored, other.Revokes row.contentId ∧
          other.signingKeyFingerprint = pass.signingKey := by
        by_cases halready : ∃ other ∈ signed.1, other.Revokes row.contentId ∧
            other.signingKeyFingerprint = pass.signingKey
        · obtain ⟨other, hmem, hnames, hkey⟩ := halready
          exact ⟨other, hagain.kept other hmem, hnames, hkey⟩
        · exact hagain.covered row.contentId (mem_orphanedTargets.mpr
            ⟨⟨row, hbefore, hout, hsigned.sound.revoked row hbefore hout.1 hout.2.1, rfl⟩, halready⟩)
      obtain ⟨other, hmem, hnames, hkey⟩ := hcovered
      exact ⟨other, mem_map.mpr ⟨other, hmem, redact_of_revocation hnames.1⟩, hnames, hkey⟩
    · intro other hother hretired
      obtain ⟨row, hrow, rfl⟩ := mem_map.mp hother
      exact redactedAt_redact hretired
  refine ⟨stored.map (Issued.redact pass.now), signed.2 ++ (orphanedTargets platform pass signed.1).map fun target =>
    ⟨.revoked, some (revocationRow (σ := σ) platform pass target).contentId, none, none, "signing_key_rotated"⟩,
    ?_, hsettled, ?_⟩
  · unfold reconcileIssuedAttestations
    rw [if_neg hnow.readable]
    dsimp only
    rw [hswept, hloop]
    unfold resignOrphanedRevocations
    simp [hstored]
  · rw [hsettled.again]
    congr 2
    -- What the second pass reports is what the first one did, on the rows the sweep left.
    have hnothing : swept.2.filter (fun change => change.action = .refused) = [] := by
      rw [← hswept, sweep_refuses_nothing]
      rfl
    have hsame : ∀ item, refusal platform pass db (stored.map (Issued.redact pass.now)) item =
        refusal platform pass db swept.1 item := by
      rintro ⟨⟨user, attr⟩, value⟩
      rw [← hsigned.refusal_eq]
      unfold refusal
      rw [issueOne_congr (hactive user attr)]
    rw [filter_append, hrefused, hnothing, nil_append, filter_map,
      filter_eq_nil_iff.mpr (by simp), map_nil, append_nil]
    exact congrArg (fun report => db.sortedConsents.filterMap report) (funext hsame)

end NetBBS.Issuance
