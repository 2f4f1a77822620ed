import NetBBS.Foundation.Runs
import NetBBS.Link.Attestations.Received

/-! # What holds of received rows -/

namespace NetBBS.ReceivedAttestations

open Foundation List

variable {ε κ : Type} {format : Format ε κ} {tables : Tables ε} {now : Int}
variable {a b : Row ε} {key : κ} {change : Row ε → Row ε} {other : Revocation} {after : Tables ε}

theorem identity_eq_iff : a.identity = b.identity ↔
    a.contentId = b.contentId ∧ a.issuer = b.issuer ∧ a.subjectId = b.subjectId ∧
      a.expiresAt = b.expiresAt := by
  simp [Row.identity]

@[simp] theorem identity_forget (row : Row ε) : (row.forget now).identity = row.identity := by
  unfold Row.forget
  split <;> rfl

@[simp] theorem identity_revoke (revokedContentId contentId : String) (row : Row ε) :
    (row.revoke revokedContentId contentId now).identity = row.identity := by
  unfold Row.revoke
  split
  · rw [identity_forget]
    rfl
  · rfl

@[simp] theorem identity_restore (offered row : Row ε) : (offered.restore row).identity = row.identity := by
  unfold Row.restore
  split <;> rfl

@[simp] theorem identity_withdraw (issuer : String) (present : List String) (row : Row ε) :
    (row.withdraw issuer present now).identity = row.identity := by
  unfold Row.withdraw
  split
  · rw [identity_forget]
    rfl
  · rfl

theorem marks_forget (row : Row ε) :
    (row.forget now).revokedBy = row.revokedBy ∧ (row.forget now).revokedAt = row.revokedAt ∧
      ((row.forget now).redactedAt ≠ none → (row.forget now).revokedAt = none →
        row.redactedAt ≠ none ∨ row.expiresAt ≤ now) := by
  unfold Row.forget
  split
  · rename_i hretired
    exact ⟨rfl, rfl, fun _ hrevoked => .inr (hretired.2.resolve_left fun hsome => hsome hrevoked)⟩
  · exact ⟨rfl, rfl, fun hredacted _ => .inl hredacted⟩

def Reads (format : Format ε κ) (envelope : ε) : Item ε → Prop
  | .attestation row =>
    format.contentId envelope = some row.contentId ∧ format.issuerText envelope = row.issuer ∧
      (∃ attributeName value, format.payload envelope =
        .attestation true (some row.subjectId) attributeName value (some row.expiresAt)) ∧
      row.revokedBy = none ∧ row.revokedAt = none ∧ row.redactedAt = none
  | .revocation revocation =>
    format.contentId envelope = some revocation.contentId ∧
      format.issuerText envelope = revocation.issuer ∧
      format.payload envelope = .revocation revocation.revokedContentId

variable {wire : Wire ε} {item : Item ε} {keys : List κ} {envelope : ε}
    {contentId revokedContentId : String} {row : Row ε}

theorem reads_of_readWire (h : readWire format wire key now = .ok item) :
    ∃ envelope, wire.envelope = some envelope ∧ Reads format envelope item := by
  unfold readWire at h
  split at h
  · cases h
  · rename_i envelope henvelope
    refine ⟨envelope, henvelope, ?_⟩
    split at h
    · cases h
    · split at h
      · cases h
      · cases h
      · rename_i contentId issuedAt hid hissued
        split at h
        · cases h
        · split at h
          · cases h
          · split at h
            · cases h
            · rename_i revokedContentId hpayload
              cases h
              exact ⟨hid, rfl, hpayload⟩
            · rename_i optIn subjectId attributeName value expiresAt hpayload
              split at h
              · split at h
                · cases h
                · cases h
                  exact ⟨hid, rfl, ⟨_, _, hpayload⟩, rfl, rfl, rfl⟩
              · cases h

theorem readWire_ne_unknownSubject {error : IngestError}
    (h : readWire format wire key now = .error error) : error ≠ .unknownSubject := by
  rintro rfl
  unfold readWire at h
  split at h
  · cases h
  · split at h
    · cases h
    · split at h
      · cases h
      · cases h
      · split at h
        · cases h
        · split at h
          · cases h
          · split at h
            · cases h
            · cases h
            · split at h
              · split at h
                · cases h
                · cases h
              · cases h

def readFor (format : Format ε κ) (issuer : String) (keys : List κ) (now : Int) (wire : Wire ε) :
    Option (Item ε) :=
  if wire.envelope.bind format.issuerField ≠ some issuer then none
  else (verifyKeyFor format wire keys).bind fun key => (readWire format wire key now).toOption

variable {issuer : String}

theorem readFor_eq_some (h : readFor format issuer keys now wire = some item) :
    ∃ envelope, wire.envelope = some envelope ∧ format.issuerText envelope = issuer ∧
      Reads format envelope item := by
  unfold readFor at h
  split at h
  · cases h
  · rename_i hissuer
    obtain ⟨key, -, hread⟩ := Option.bind_eq_some_iff.mp h
    cases hwire : readWire format wire key now with
    | error error =>
      rw [hwire] at hread
      cases hread
    | ok found =>
      rw [hwire] at hread
      cases hread
      obtain ⟨envelope, henvelope, hreads⟩ := reads_of_readWire hwire
      rw [not_not, henvelope, Option.bind_some] at hissuer
      exact ⟨envelope, henvelope, format.issuerText_eq envelope issuer hissuer, hreads⟩

theorem ingestObject_of_none
    (found : Tables ε × List (Wire ε)) (h : readFor format issuer keys now wire = none) :
    ingestObject format issuer keys now found wire = found := by
  unfold readFor at h
  unfold ingestObject
  split
  · rfl
  · rename_i hissuer
    rw [if_neg hissuer] at h
    cases hkey : verifyKeyFor format wire keys with
    | none => rfl
    | some key =>
      rw [hkey, Option.bind_some] at h
      cases hwire : readWire format wire key now with
      | ok item =>
        rw [hwire] at h
        cases h
      | error error =>
        have hne := readWire_ne_unknownSubject hwire
        simp only [ingestRemoteAttestation, hwire, Except.bind]
        cases error with
        | unknownSubject => exact absurd rfl hne
        | _ => rfl

theorem ingestObject_of_some
    (found : Tables ε × List (Wire ε)) (h : readFor format issuer keys now wire = some item) :
    ingestObject format issuer keys now found wire = keep found wire (found.1.store now item) := by
  unfold readFor at h
  unfold ingestObject
  split
  · rename_i hissuer
    rw [if_pos hissuer] at h
    cases h
  · rename_i hissuer
    rw [if_neg hissuer] at h
    obtain ⟨key, hkey, hread⟩ := Option.bind_eq_some_iff.mp h
    cases hwire : readWire format wire key now with
    | error error =>
      rw [hwire] at hread
      cases hread
    | ok found =>
      rw [hwire] at hread
      cases hread
      simp only [hkey, ingestRemoteAttestation, hwire, Except.bind]

def Tables.Revoked (tables : Tables ε) (contentId : String) : Prop :=
  ∃ revocation ∈ tables.revocations, revocation.revokedContentId = contentId

def Describes (format : Format ε κ) (envelope : ε) (row : Row ε) : Prop :=
  format.contentId envelope = some row.contentId ∧ format.issuerText envelope = row.issuer ∧
    ∃ attributeName value, format.payload envelope =
      .attestation true (some row.subjectId) attributeName value (some row.expiresAt)

structure Faithful (format : Format ε κ) (tables : Tables ε) : Prop where
  nodup : (tables.rows.map Row.contentId).Nodup
  described : ∀ row ∈ tables.rows, ∃ envelope, Describes format envelope row
  known : ∀ row ∈ tables.rows, row.subjectId ∈ tables.subjects

structure Consistent (format : Format ε κ) (now : Int) (tables : Tables ε) : Prop
    extends Faithful format tables where
  revocationRead : ∀ revocation ∈ tables.revocations, ∃ envelope,
    format.contentId envelope = some revocation.contentId ∧
      format.payload envelope = .revocation revocation.revokedContentId
  final : ∀ revocation ∈ tables.revocations, ∃ row ∈ tables.rows,
    row.contentId = revocation.revokedContentId ∧ row.revokedBy ≠ none
  marked : ∀ row ∈ tables.rows, row.revokedBy ≠ none →
    row.revokedAt ≠ none ∧ tables.Revoked row.contentId
  retired : ∀ row ∈ tables.rows, row.redactedAt ≠ none → row.revokedAt = none → row.expiresAt ≤ now

def FindsUnwithdrawn (tables : Tables ε) : Item ε → Prop
  | .revocation revocation =>
    ∀ row ∈ tables.rows, row.contentId = revocation.revokedContentId → row.withdrawn = false
  | .attestation _ => True

theorem Describes.of_identity (h : Describes format envelope a)
    (hsame : b.identity = a.identity) : Describes format envelope b := by
  obtain ⟨hid, hissuer, hsubject, hexpires⟩ := identity_eq_iff.mp hsame
  unfold Describes
  rw [hid, hissuer, hsubject, hexpires]
  exact h

theorem Consistent.later (h : Consistent format now tables) {later : Int} (hle : now ≤ later) :
    Consistent format later tables :=
  { h with retired := fun row hrow hredacted hrevoked => (h.retired row hrow hredacted hrevoked).trans hle }

theorem Consistent.not_live (h : Consistent format now tables)
    (hrevoked : tables.Revoked contentId) (hrow : row ∈ tables.rows)
    (hid : row.contentId = contentId) : row.revokedAt ≠ none := by
  obtain ⟨revocation, hrevocation, rfl⟩ := hrevoked
  obtain ⟨target, htarget, hsame, hby⟩ := h.final revocation hrevocation
  rw [inj_on_of_nodup_map h.nodup hrow htarget (hid.trans hsame.symm)]
  exact (h.marked target htarget hby).1

theorem Faithful.mapRows (h : Faithful format tables)
    (hidentity : ∀ row ∈ tables.rows, (change row).identity = row.identity) (revocations : List Revocation) :
    Faithful format { tables with rows := tables.rows.map change, revocations } where
  nodup := by
    have hids : (tables.rows.map change).map Row.contentId = tables.rows.map Row.contentId := by
      rw [map_map]
      exact map_congr_left fun row hrow => (identity_eq_iff.mp (hidentity row hrow)).1
    rw [hids]
    exact h.nodup
  described row hrow := by
    obtain ⟨before, hbefore, rfl⟩ := mem_map.mp hrow
    obtain ⟨envelope, hdescribes⟩ := h.described before hbefore
    exact ⟨envelope, hdescribes.of_identity (hidentity before hbefore)⟩
  known row hrow := by
    obtain ⟨before, hbefore, rfl⟩ := mem_map.mp hrow
    rw [(identity_eq_iff.mp (hidentity before hbefore)).2.2.1]
    exact h.known before hbefore

section

variable (h : Consistent format now tables)

include h

theorem Consistent.mapRows (hidentity : ∀ row ∈ tables.rows, (change row).identity = row.identity)
    (hby : ∀ row ∈ tables.rows, (change row).revokedBy = row.revokedBy)
    (hat : ∀ row ∈ tables.rows, row.revokedBy ≠ none → (change row).revokedAt ≠ none)
    (hretired : ∀ row ∈ tables.rows, (change row).redactedAt ≠ none → (change row).revokedAt = none →
      row.expiresAt ≤ now) :
    Consistent format now { tables with rows := tables.rows.map change } where
  toFaithful := h.toFaithful.mapRows hidentity tables.revocations
  revocationRead := h.revocationRead
  final revocation hrevocation := by
    obtain ⟨row, hrow, hid, hrevoked⟩ := h.final revocation hrevocation
    refine ⟨change row, mem_map.mpr ⟨row, hrow, rfl⟩, ?_, ?_⟩
    · rw [(identity_eq_iff.mp (hidentity row hrow)).1, hid]
    · rw [hby row hrow]
      exact hrevoked
  marked row hrow hrevoked := by
    obtain ⟨before, hbefore, rfl⟩ := mem_map.mp hrow
    rw [hby before hbefore] at hrevoked
    refine ⟨hat before hbefore hrevoked, ?_⟩
    rw [(identity_eq_iff.mp (hidentity before hbefore)).1]
    exact (h.marked before hbefore hrevoked).2
  retired row hrow hredacted hnone := by
    obtain ⟨before, hbefore, rfl⟩ := mem_map.mp hrow
    rw [(identity_eq_iff.mp (hidentity before hbefore)).2.2.2]
    exact hretired before hbefore hredacted hnone

theorem Consistent.forget :
    Consistent format now (forgetRetiredRemoteAttestations tables now) := by
  apply h.mapRows
  · exact fun row _ => identity_forget row
  · exact fun row _ => (marks_forget row).1
  · intro row hrow hby
    rw [(marks_forget row).2.1]
    exact (h.marked row hrow hby).1
  · intro row hrow hredacted hnone
    rcases (marks_forget row).2.2 hredacted hnone with hbefore | hexpired
    · rw [(marks_forget row).2.1] at hnone
      exact h.retired row hrow hbefore hnone
    · exact hexpired

theorem Consistent.withdraw (issuer : String) (present : List String) : Consistent format now
      { tables with rows := tables.rows.map (Row.withdraw issuer present now) } := by
  apply h.mapRows
  · exact fun row _ => identity_withdraw issuer present row
  · intro row _
    unfold Row.withdraw
    split
    · exact (marks_forget _).1
    · rfl
  · intro row hrow hby
    unfold Row.withdraw
    split
    · rw [(marks_forget _).2.1]
      simp
    · exact (h.marked row hrow hby).1
  · intro row hrow hredacted hnone
    unfold Row.withdraw at hredacted hnone
    split at hnone
    · rw [(marks_forget _).2.1] at hnone
      cases hnone
    · rename_i hkept
      rw [if_neg hkept] at hredacted
      exact h.retired row hrow hredacted hnone

end

theorem marks_revoke (h : row.contentId = revokedContentId ∧ row.revokedAt = none) :
    (row.revoke revokedContentId contentId now).revokedBy = some contentId ∧
      (row.revoke revokedContentId contentId now).revokedAt = some now := by
  unfold Row.revoke
  rw [if_pos h]
  exact ⟨(marks_forget _).1, (marks_forget _).2.1⟩

theorem revoke_of_not (h : ¬(row.contentId = revokedContentId ∧ row.revokedAt = none)) :
    row.revoke revokedContentId contentId now = row := if_neg h

theorem revokedBy_restore (offered row : Row ε) : (offered.restore row).revokedBy = row.revokedBy := by
  unfold Row.restore
  split <;> rfl

theorem restore_of_not_withdrawn {offered : Row ε} (h : row.withdrawn = false) :
    offered.restore row = row := if_neg fun hboth => by rw [h] at hboth; cases hboth.2

theorem withdrawn_eq_false : row.withdrawn = false ↔ (row.revokedAt ≠ none → row.revokedBy ≠ none) := by
  unfold Row.withdrawn
  rw [decide_eq_false_iff_not, not_and]

theorem Consistent.restore (h : Consistent format now tables) (offered : Row ε) :
    Consistent format now { tables with rows := tables.rows.map offered.restore } := by
  apply h.mapRows
  · exact fun row _ => identity_restore offered row
  · exact fun row _ => revokedBy_restore offered row
  · intro row hrow hby
    rw [restore_of_not_withdrawn (withdrawn_eq_false.mpr fun _ => hby)]
    exact (h.marked row hrow hby).1
  · intro row hrow hredacted hnone
    unfold Row.restore at hredacted hnone
    split at hnone
    · rename_i hrestored
      rw [if_pos hrestored] at hredacted
      exact absurd rfl hredacted
    · rename_i hkept
      rw [if_neg hkept] at hredacted
      exact h.retired row hrow hredacted hnone

theorem Consistent.insert (h : Consistent format now tables)
    (hreads : Reads format envelope (.attestation row)) (hsubject : row.subjectId ∈ tables.subjects)
    (hnew : ¬tables.rows.any (fun old => decide (old.contentId = row.contentId)) = true) :
    Consistent format now { tables with rows := tables.rows ++ [row] } := by
  obtain ⟨hid, hissuer, hpayload, hby, hat, hredacted⟩ := hreads
  constructor
  · constructor
    · rw [map_append, map_singleton]
      refine nodup_append.mpr ⟨h.nodup, nodup_singleton _, ?_⟩
      intro a ha b hb
      rw [mem_singleton.mp hb]
      obtain ⟨old, hold, rfl⟩ := mem_map.mp ha
      exact fun hsame => hnew (any_eq_true.mpr ⟨old, hold, decide_eq_true hsame⟩)
    · intro other hother
      rcases mem_append.mp hother with hold | hlast
      · exact h.described other hold
      · rw [mem_singleton.mp hlast]
        exact ⟨envelope, hid, hissuer, hpayload⟩
    · intro other hother
      rcases mem_append.mp hother with hold | hlast
      · exact h.known other hold
      · rw [mem_singleton.mp hlast]
        exact hsubject
  · exact h.revocationRead
  · intro revocation hrevocation
    obtain ⟨target, htarget, hrest⟩ := h.final revocation hrevocation
    exact ⟨target, mem_append_left _ htarget, hrest⟩
  · intro other hother hrevoked
    rcases mem_append.mp hother with hold | hlast
    · exact h.marked other hold hrevoked
    · rw [mem_singleton.mp hlast] at hrevoked
      exact absurd hby hrevoked
  · intro other hother hblank hnone
    rcases mem_append.mp hother with hold | hlast
    · exact h.retired other hold hblank hnone
    · rw [mem_singleton.mp hlast] at hblank
      exact absurd hredacted hblank

def Tables.withRevocation (tables : Tables ε) (revocation : Revocation) : List Revocation :=
  if tables.revocations.any (fun old => decide (old.contentId = revocation.contentId)) = true then
    tables.revocations
  else tables.revocations ++ [revocation]

variable {revocation : Revocation}

theorem mem_withRevocation (h : other ∈ tables.revocations) :
    other ∈ tables.withRevocation revocation := by
  unfold Tables.withRevocation
  split
  · exact h
  · exact mem_append_left _ h

theorem of_mem_withRevocation (h : other ∈ tables.withRevocation revocation) :
    other ∈ tables.revocations ∨ other = revocation := by
  unfold Tables.withRevocation at h
  split at h
  · exact .inl h
  · exact (mem_append.mp h).imp id mem_singleton.mp

theorem Consistent.exists_withRevocation (h : Consistent format now tables)
    (hreads : Reads format envelope (.revocation revocation)) :
    ∃ stored ∈ tables.withRevocation revocation, stored.revokedContentId = revocation.revokedContentId := by
  unfold Tables.withRevocation
  split
  · rename_i hknown
    obtain ⟨old, hold, hsame⟩ := any_eq_true.mp hknown
    obtain ⟨envelope', hid, hpayload⟩ := h.revocationRead old hold
    have heq : envelope' = envelope := by
      apply format.contentId_injective _ _ _ hid
      rw [of_decide_eq_true hsame]
      exact hreads.1
    refine ⟨old, hold, ?_⟩
    rw [heq, hreads.2.2] at hpayload
    exact (Payload.revocation.inj hpayload).symm
  · exact ⟨revocation, mem_append_right _ (.head _), rfl⟩

theorem Consistent.revoke (h : Consistent format now tables)
    (hreads : Reads format envelope (.revocation revocation))
    (hfinds : FindsUnwithdrawn tables (.revocation revocation)) {target : Row ε} (htarget : target ∈ tables.rows)
    (hid : target.contentId = revocation.revokedContentId) :
    Consistent format now { tables with
      revocations := tables.withRevocation revocation
      rows := tables.rows.map (Row.revoke revocation.revokedContentId revocation.contentId now) } := by
  constructor
  · exact h.toFaithful.mapRows (fun row _ => identity_revoke _ _ row) _
  · intro other hother
    rcases of_mem_withRevocation hother with hold | rfl
    · exact h.revocationRead other hold
    · exact ⟨envelope, hreads.1, hreads.2.2⟩
  · intro other hother
    rcases of_mem_withRevocation hother with hold | rfl
    · obtain ⟨row, hrow, hsame, hby⟩ := h.final other hold
      have hkept : ¬(row.contentId = revocation.revokedContentId ∧ row.revokedAt = none) :=
        fun hboth => (h.marked row hrow hby).1 hboth.2
      refine ⟨row, mem_map.mpr ⟨row, hrow, revoke_of_not hkept⟩, hsame, hby⟩
    · refine ⟨_, mem_map.mpr ⟨target, htarget, rfl⟩, ?_, ?_⟩
      · rw [(identity_eq_iff.mp (identity_revoke _ _ target)).1, hid]
      · by_cases hnone : target.revokedAt = none
        · rw [(marks_revoke ⟨hid, hnone⟩).1]
          simp
        · rw [revoke_of_not fun hboth => hnone hboth.2]
          exact withdrawn_eq_false.mp (hfinds target htarget hid) hnone
  · intro row hrow hby
    obtain ⟨before, hbefore, rfl⟩ := mem_map.mp hrow
    by_cases hboth : before.contentId = revocation.revokedContentId ∧ before.revokedAt = none
    · rw [(marks_revoke hboth).2, (identity_eq_iff.mp (identity_revoke _ _ before)).1, hboth.1]
      exact ⟨by simp, h.exists_withRevocation hreads⟩
    · rw [revoke_of_not hboth] at hby ⊢
      obtain ⟨hat, stored, hstored, hsame⟩ := h.marked before hbefore hby
      exact ⟨hat, stored, mem_withRevocation hstored, hsame⟩
  · intro row hrow hredacted hnone
    obtain ⟨before, hbefore, rfl⟩ := mem_map.mp hrow
    by_cases hboth : before.contentId = revocation.revokedContentId ∧ before.revokedAt = none
    · rw [(marks_revoke hboth).2] at hnone
      cases hnone
    · rw [revoke_of_not hboth] at hredacted hnone ⊢
      exact h.retired before hbefore hredacted hnone

theorem store_cases (h : tables.store now item = .ok after) :
    (∃ revocation target, item = .revocation revocation ∧ target ∈ tables.rows ∧
      target.contentId = revocation.revokedContentId ∧
      after = { tables with
        revocations := tables.withRevocation revocation
        rows := tables.rows.map (Row.revoke revocation.revokedContentId revocation.contentId now) }) ∨
    ∃ row, item = .attestation row ∧ tables.active row.issuer now < maxActiveAttestationsPerIssuer ∧
      row.subjectId ∈ tables.subjects ∧
      ((tables.rows.any (fun old => decide (old.contentId = row.contentId)) = true ∧
          after = { tables with rows := tables.rows.map row.restore }) ∨
        (¬tables.rows.any (fun old => decide (old.contentId = row.contentId)) = true ∧
          after = { tables with rows := tables.rows ++ [row] })) := by
  cases item with
  | revocation revocation =>
    left
    simp only [Tables.store] at h
    split at h
    · cases h
    · rename_i target hfind
      split at h
      · cases h
      · cases h
        exact ⟨revocation, target, rfl, mem_of_find?_eq_some hfind,
          by simpa using find?_some hfind, rfl⟩
  | attestation row =>
    right
    simp only [Tables.store] at h
    split at h
    · cases h
    · rename_i hquota
      split at h
      · cases h
      · rename_i hsubject
        cases h
        refine ⟨row, rfl, Nat.lt_of_not_le hquota, not_not.mp hsubject, ?_⟩
        by_cases hany : tables.rows.any (fun old => decide (old.contentId = row.contentId)) = true
        · exact .inl ⟨hany, by rw [if_pos hany]⟩
        · exact .inr ⟨hany, by rw [if_neg hany]⟩

theorem Consistent.store (h : Consistent format now tables)
    (hreads : Reads format envelope item) (hfinds : FindsUnwithdrawn tables item)
    (hstore : tables.store now item = .ok after) : Consistent format now after := by
  rcases store_cases hstore with ⟨revocation, target, rfl, htarget, hid, rfl⟩ | ⟨row, rfl, -, hsubject, hrows⟩
  · exact h.revoke hreads hfinds htarget hid
  · rcases hrows with ⟨-, rfl⟩ | ⟨hnew, rfl⟩
    · exact h.restore row
    · exact h.insert hreads hsubject hnew

end NetBBS.ReceivedAttestations
