import NetBBS.Link.Issuance.Attestations

/-! # The rows of the issued attestations -/

namespace NetBBS.Issuance

open Foundation List

set_option linter.unusedSectionVars false

variable {ι κ σ : Type} [DecidableEq ι] [DecidableEq κ] {platform : Platform ι κ σ} {pass : Pass κ}
  {db : Db ι κ σ} {home : String} {bound : Int} {issued : List (Issued ι κ σ)} {row : Issued ι κ σ}

structure Asserts (platform : Platform ι κ σ) (home username : String) (verified : Attribute) (value : Text)
    (row : Issued ι κ σ) : Prop where
  contentId : row.contentId =
    platform.contentId (.attestation home username verified value row.issuedAt
      (row.issuedAt + issuedAttestationLifetime))
  attr : row.attr = some verified
  expiresAt : row.expiresAt = some (row.issuedAt + issuedAttestationLifetime)
  kept : row.redactedAt = none → row.attestedValue = some value ∧
    row.envelope = some (.attestation home username verified value row.issuedAt
      (row.issuedAt + issuedAttestationLifetime)) ∧
    row.signature = some (platform.sign row.signingKeyFingerprint
      (.attestation home username verified value row.issuedAt (row.issuedAt + issuedAttestationLifetime)))
  blank : row.redactedAt ≠ none → row.attestedValue = none ∧ row.envelope = none ∧ row.signature = none

structure Withdraws (platform : Platform ι κ σ) (home : String) (target : ι) (row : Issued ι κ σ) : Prop where
  contentId : row.contentId = platform.contentId (.revocation home target row.issuedAt)
  envelope : row.envelope = some (.revocation home target row.issuedAt)
  signature : row.signature =
    some (platform.sign row.signingKeyFingerprint (.revocation home target row.issuedAt))

structure Sound (platform : Platform ι κ σ) (home : String) (bound : Int) (issued : List (Issued ι κ σ)) :
    Prop where
  nodup : (issued.map Issued.contentId).Nodup
  asserts : ∀ row ∈ issued, row.objectType = .attestation →
    ∃ username attr value, Asserts platform home username attr value row
  withdraws : ∀ row ∈ issued, row.objectType = .revocation → ∃ target, Withdraws platform home target row
  dated : ∀ row ∈ issued, row.issuedAt ≤ bound
  retired : ∀ row ∈ issued, row.redactedAt ≠ none → row.Retired bound
  revoked : ∀ row ∈ issued, row.objectType = .attestation → row.revokedAt ≠ none →
    ∃ other ∈ issued, other.Revokes row.contentId

theorem Sound.later {later : Int} (h : Sound platform home bound issued) (hle : bound ≤ later) :
    Sound platform home later issued where
  nodup := h.nodup
  asserts := h.asserts
  withdraws := h.withdraws
  dated row hrow := Int.le_trans (h.dated row hrow) hle
  retired row hrow hredacted := by
    obtain ⟨htype, hrevoked | ⟨expiresAt, hexpires, hover⟩⟩ := h.retired row hrow hredacted
    · exact ⟨htype, .inl hrevoked⟩
    · exact ⟨htype, .inr ⟨expiresAt, hexpires, Int.le_trans hover hle⟩⟩
  revoked := h.revoked

theorem sound_nil : Sound platform home bound [] where
  nodup := nodup_nil
  asserts := by simp
  withdraws := by simp
  dated := by simp
  retired := by simp
  revoked := by simp

theorem Sound.not_redacted (h : Sound platform home bound issued) (hrow : row ∈ issued) (hlive : row.Live bound) :
    row.redactedAt = none := by
  by_contra hredacted
  obtain ⟨-, hrevoked | ⟨expiresAt, hexpires, hover⟩⟩ := h.retired row hrow hredacted
  · exact hrevoked hlive.2.1
  · obtain ⟨other, hother, hleft⟩ := hlive.2.2
    rw [Option.mem_def.mp hexpires] at hother
    cases hother
    omega

theorem sound_storeIssued (h : Sound platform home bound issued)
    (hasserts : row.objectType = .attestation → ∃ username attr value, Asserts platform home username attr value row)
    (hwithdraws : row.objectType = .revocation → ∃ target, Withdraws platform home target row)
    (hdated : row.issuedAt ≤ bound) (hkept : row.redactedAt = none) (hstands : row.revokedAt = none) :
    Sound platform home bound (storeIssued issued row) where
  nodup := nodup_insertOrIgnore row h.nodup
  asserts other hother htype := by
    rcases mem_insertOrIgnore hother with hother | rfl
    · exact h.asserts other hother htype
    · exact hasserts htype
  withdraws other hother htype := by
    rcases mem_insertOrIgnore hother with hother | rfl
    · exact h.withdraws other hother htype
    · exact hwithdraws htype
  dated other hother := by
    rcases mem_insertOrIgnore hother with hother | rfl
    · exact h.dated other hother
    · exact hdated
  retired other hother hredacted := by
    rcases mem_insertOrIgnore hother with hother | rfl
    · exact h.retired other hother hredacted
    · exact absurd hkept hredacted
  revoked other hother htype hrevoked := by
    rcases mem_insertOrIgnore hother with hother | rfl
    · obtain ⟨revocation, hmem, hnames⟩ := h.revoked other hother htype hrevoked
      exact ⟨revocation, subset_insertOrIgnore hmem, hnames⟩
    · exact absurd hstands hrevoked

structure Kept (row row' : Issued ι κ σ) : Prop where
  contentId : row'.contentId = row.contentId
  objectType : row'.objectType = row.objectType
  attr : row'.attr = row.attr
  attestedValue : row'.attestedValue = row.attestedValue
  envelope : row'.envelope = row.envelope
  signature : row'.signature = row.signature
  issuedAt : row'.issuedAt = row.issuedAt
  expiresAt : row'.expiresAt = row.expiresAt
  signingKey : row'.signingKeyFingerprint = row.signingKeyFingerprint
  redactedAt : row'.redactedAt = row.redactedAt
  revoked : row.revokedAt ≠ none → row'.revokedAt ≠ none

theorem Kept.revokes {row' : Issued ι κ σ} (h : Kept row row') (target : ι) :
    row'.Revokes target ↔ row.Revokes target := by
  unfold Issued.Revokes
  rw [h.objectType, h.envelope]

theorem sound_map {change : Issued ι κ σ → Issued ι κ σ} (h : Sound platform home bound issued)
    (hkept : ∀ row, Kept row (change row))
    (hrevoked : ∀ row ∈ issued, row.objectType = .attestation → (change row).revokedAt ≠ none →
      row.revokedAt = none → ∃ other ∈ issued, other.Revokes row.contentId) :
    Sound platform home bound (issued.map change) where
  nodup := by
    rw [map_map, show Issued.contentId ∘ change = Issued.contentId from funext fun row => (hkept row).contentId]
    exact h.nodup
  asserts other hother htype := by
    obtain ⟨row, hrow, rfl⟩ := mem_map.mp hother
    have hk := hkept row
    obtain ⟨username, attr, value, hasserts⟩ := h.asserts row hrow (hk.objectType ▸ htype)
    refine ⟨username, attr, value, ?_, ?_, ?_, ?_, ?_⟩
    · rw [hk.contentId, hk.issuedAt]
      exact hasserts.contentId
    · rw [hk.attr]
      exact hasserts.attr
    · rw [hk.expiresAt, hk.issuedAt]
      exact hasserts.expiresAt
    · rw [hk.redactedAt, hk.attestedValue, hk.envelope, hk.signature, hk.signingKey, hk.issuedAt]
      exact hasserts.kept
    · rw [hk.redactedAt, hk.attestedValue, hk.envelope, hk.signature]
      exact hasserts.blank
  withdraws other hother htype := by
    obtain ⟨row, hrow, rfl⟩ := mem_map.mp hother
    have hk := hkept row
    obtain ⟨target, hwithdraws⟩ := h.withdraws row hrow (hk.objectType ▸ htype)
    refine ⟨target, ?_, ?_, ?_⟩
    · rw [hk.contentId, hk.issuedAt]
      exact hwithdraws.contentId
    · rw [hk.envelope, hk.issuedAt]
      exact hwithdraws.envelope
    · rw [hk.signature, hk.signingKey, hk.issuedAt]
      exact hwithdraws.signature
  dated other hother := by
    obtain ⟨row, hrow, rfl⟩ := mem_map.mp hother
    rw [(hkept row).issuedAt]
    exact h.dated row hrow
  retired other hother hredacted := by
    obtain ⟨row, hrow, rfl⟩ := mem_map.mp hother
    have hk := hkept row
    rw [hk.redactedAt] at hredacted
    obtain ⟨htype, hretired⟩ := h.retired row hrow hredacted
    refine ⟨hk.objectType.trans htype, hretired.imp hk.revoked ?_⟩
    rw [hk.expiresAt]
    exact id
  revoked other hother htype hmarked := by
    obtain ⟨row, hrow, rfl⟩ := mem_map.mp hother
    have hk := hkept row
    rw [hk.objectType] at htype
    have hfound : ∃ other ∈ issued, other.Revokes row.contentId := by
      by_cases hstood : row.revokedAt = none
      · exact hrevoked row hrow htype hmarked hstood
      · exact h.revoked row hrow htype hstood
    obtain ⟨other, hmem, hnames⟩ := hfound
    refine ⟨change other, mem_map_of_mem hmem, ?_⟩
    rw [hk.contentId, (hkept other).revokes]
    exact hnames

theorem kept_markRevoked (revocation : ι) (now : Int) (target : ι) (row : Issued ι κ σ) :
    Kept row (markRevoked revocation now target row) := by
  unfold markRevoked
  split <;> constructor <;> simp

theorem live_markRevoked {revocation target : ι} {now at' : Int}
    (h : (markRevoked revocation at' target row).Live now) :
    markRevoked revocation at' target row = row ∧ row.Live now ∧ row.contentId ≠ target := by
  unfold markRevoked at h ⊢
  split at h
  · exact absurd h.2.1 (by simp)
  · rename_i hother
    rw [if_neg hother]
    exact ⟨rfl, h, fun hsame => hother ⟨hsame, h.2.1⟩⟩

def Platform.Collisionless (platform : Platform ι κ σ) : Prop :=
  Function.Injective platform.contentId

theorem Sound.revokes_of_contentId (h : Sound platform home bound issued) (hhash : platform.Collisionless)
    (hrow : row ∈ issued) {target : ι} {now : Int}
    (hid : row.contentId = platform.contentId (.revocation home target now)) :
    row.Revokes target ∧ row.issuedAt = now := by
  cases htype : row.objectType with
  | attestation =>
    obtain ⟨username, attr, value, hasserts⟩ := h.asserts row hrow htype
    cases hhash (hasserts.contentId.symm.trans hid)
  | revocation =>
    obtain ⟨other, hwithdraws⟩ := h.withdraws row hrow htype
    have hsame := hhash (hwithdraws.contentId.symm.trans hid)
    injection hsame with _ hother hnow
    refine ⟨⟨htype, ?_⟩, hnow⟩
    rw [hwithdraws.envelope, hother]
    rfl

section

variable (h : Sound platform pass.homeNodeFingerprint pass.now issued)

include h

theorem sound_storeIssued_revocation (target : ι) :
    Sound platform pass.homeNodeFingerprint pass.now
      (storeIssued issued (revocationRow platform pass target)) :=
  sound_storeIssued h (fun htype => nomatch htype) (fun _ => ⟨target, rfl, rfl, rfl⟩) (Int.le_refl _) rfl rfl

theorem sound_revokeIssued (hhash : platform.Collisionless) (row : Issued ι κ σ) :
    Sound platform pass.homeNodeFingerprint pass.now (revokeIssued platform pass issued row) := by
  have hstored := sound_storeIssued_revocation h row.contentId
  refine sound_map hstored (kept_markRevoked _ _ _) ?_
  intro other _ _ hmarked hstood
  obtain ⟨revocation, hmem, hid⟩ := exists_insertOrIgnore Issued.contentId issued (revocationRow platform pass row.contentId)
  refine ⟨revocation, hmem, ?_⟩
  have htarget : other.contentId = row.contentId := by
    by_contra hne
    apply hmarked
    unfold markRevoked
    rw [if_neg fun hboth => hne hboth.1]
    exact hstood
  rw [htarget]
  exact (hstored.revokes_of_contentId hhash hmem hid).1

end

structure Sweeping (platform : Platform ι κ σ) (pass : Pass κ) (db : Db ι κ σ)
    (remaining issued : List (Issued ι κ σ)) : Prop where
  sound : Sound platform pass.homeNodeFingerprint pass.now issued
  fresh : ∀ row ∈ issued, row.issuedAt = pass.now →
    row.signingKeyFingerprint = pass.signingKey ∧ row.objectType = .revocation
  agreed : ∀ row ∈ issued, row.Live pass.now → db.staleReason row = none ∨ row ∈ remaining

variable {remaining : List (Issued ι κ σ)} {changes : List (Change ι)}

section

variable (hhash : platform.Collisionless)

include hhash

theorem sweeping_revokeIssued (h : Sweeping platform pass db (row :: remaining) issued) :
    Sweeping platform pass db remaining (revokeIssued platform pass issued row) where
  sound := sound_revokeIssued h.sound hhash row
  fresh other hother hnow := by
    obtain ⟨old, hold, rfl⟩ := mem_map.mp hother
    have hk := kept_markRevoked (revocationRow (σ := σ) platform pass row.contentId).contentId pass.now
      row.contentId old
    rw [hk.issuedAt] at hnow
    rw [hk.signingKey, hk.objectType]
    rcases mem_insertOrIgnore hold with hold | rfl
    · exact h.fresh old hold hnow
    · exact ⟨rfl, rfl⟩
  agreed other hother hlive := by
    obtain ⟨old, hold, rfl⟩ := mem_map.mp hother
    obtain ⟨hsame, hlive, hne⟩ := live_markRevoked hlive
    rw [hsame]
    rcases mem_insertOrIgnore hold with hold | rfl
    · rcases h.agreed old hold hlive with hagreed | hremaining
      · exact .inl hagreed
      · rcases mem_cons.mp hremaining with rfl | hremaining
        · exact absurd rfl hne
        · exact .inr hremaining
    · exact absurd hlive.1 (by simp [revocationRow])

theorem sweeping_sweepOne (h : Sweeping platform pass db (row :: remaining) issued) :
    Sweeping platform pass db remaining (sweepOne platform pass db (issued, changes) row).1 := by
  unfold sweepOne
  split
  · rename_i hagreed
    refine ⟨h.sound, h.fresh, fun other hother hlive => ?_⟩
    rcases h.agreed other hother hlive with hother | hremaining
    · exact .inl hother
    · rcases mem_cons.mp hremaining with rfl | hremaining
      · exact .inl hagreed
      · exact .inr hremaining
  · exact sweeping_revokeIssued hhash h

theorem swept (h : Sweeping platform pass db remaining issued) :
    Sweeping platform pass db [] (remaining.foldl (sweepOne platform pass db) (issued, changes)).1 := by
  induction remaining generalizing issued changes with
  | nil => exact h
  | cons row rest ih => exact ih (sweeping_sweepOne hhash h)

end

end NetBBS.Issuance
