import NetBBS.Link.Attestations.ReceivedRows

/-! # Snapshots, pulls and revocations -/

namespace NetBBS.ReceivedAttestations

open Foundation List

variable {ε κ : Type} {format : Format ε κ} {tables : Tables ε} {now : Int}

def Tables.Live (tables : Tables ε) (now : Int) (contentId : String) : Prop :=
  ∃ row ∈ tables.rows, row.contentId = contentId ∧ row.live now = true

variable {row : Row ε} {item : Item ε} {after : Tables ε} {envelope : ε} {id : String}

theorem live_iff : row.live now = true ↔ row.revokedAt = none ∧ now < row.expiresAt := by
  simp [Row.live]

def HasRoom (found : Tables ε × List (Wire ε)) (now : Int) : Item ε → Prop
  | .revocation _ => True
  | .attestation row =>
    row.expiresAt ≤ now ∨ (∃ old ∈ found.1.rows, old.contentId = row.contentId ∧ old.live now = true) ∨
      found.1.active row.issuer now < maxActiveAttestationsPerIssuer ∧
        (row.subjectId ∈ found.1.subjects ∨ found.2.length < maxPendingObjectsPerIssuer)

theorem store_keeps (h : tables.store now item = .ok after) :
    after.subjects = tables.subjects ∧ after.authorities = tables.authorities ∧
      after.received = tables.received ∧ ∀ id, tables.Revoked id → after.Revoked id := by
  rcases store_cases h with ⟨revocation, target, rfl, htarget, hid, rfl⟩ | ⟨row, rfl, -, hsubject, hrows⟩
  · exact ⟨rfl, rfl, rfl, fun id ⟨stored, hstored, hsame⟩ => ⟨stored, mem_withRevocation hstored, hsame⟩⟩
  · rcases hrows with ⟨-, rfl⟩ | ⟨-, rfl⟩
    · exact ⟨rfl, rfl, rfl, fun _ hrevoked => hrevoked⟩
    · exact ⟨rfl, rfl, rfl, fun _ hrevoked => hrevoked⟩

theorem Consistent.live_store (h : Consistent format now tables)
    (hreads : Reads format envelope item) (hstore : tables.store now item = .ok after)
    (hlive : tables.Live now id) : after.Live now id ∨ after.Revoked id := by
  obtain ⟨live, hmem, hid, halive⟩ := hlive
  rcases store_cases hstore with ⟨revocation, target, rfl, -, -, rfl⟩ | ⟨row, rfl, -, -, hrows⟩
  · by_cases hsame : live.contentId = revocation.revokedContentId
    · right
      rw [← hid, hsame]
      exact h.exists_withRevocation hreads
    · left
      have hkept : live.revoke revocation.revokedContentId revocation.contentId now = live :=
        revoke_of_not fun hboth => hsame hboth.1
      exact ⟨live, mem_map.mpr ⟨live, hmem, hkept⟩, hid, halive⟩
  · left
    rcases hrows with ⟨-, rfl⟩ | ⟨-, rfl⟩
    · have hkept : row.restore live = live :=
        restore_of_not_withdrawn (withdrawn_eq_false.mpr fun hrevoked =>
          absurd (live_iff.mp halive).1 hrevoked)
      exact ⟨live, mem_map.mpr ⟨live, hmem, hkept⟩, hid, halive⟩
    · exact ⟨live, mem_append_left _ hmem, hid, halive⟩

theorem live_of_store (hstore : tables.store now item = .ok after) (hlive : after.Live now id) :
    tables.Live now id ∨ ∃ row, item = .attestation row ∧ row.contentId = id := by
  obtain ⟨live, hmem, hid, halive⟩ := hlive
  rcases store_cases hstore with ⟨revocation, target, rfl, -, -, rfl⟩ | ⟨row, rfl, -, -, hrows⟩
  · obtain ⟨before, hbefore, rfl⟩ := mem_map.mp hmem
    by_cases hboth : before.contentId = revocation.revokedContentId ∧ before.revokedAt = none
    · have hrevoked := (live_iff.mp halive).1
      rw [(marks_revoke hboth).2] at hrevoked
      cases hrevoked
    · rw [revoke_of_not hboth] at hid halive
      exact .inl ⟨before, hbefore, hid, halive⟩
  · rcases hrows with ⟨-, rfl⟩ | ⟨-, rfl⟩
    · obtain ⟨before, hbefore, rfl⟩ := mem_map.mp hmem
      by_cases hboth : before.contentId = row.contentId ∧ before.withdrawn = true
      · refine .inr ⟨row, rfl, ?_⟩
        rw [(identity_eq_iff.mp (identity_restore row before)).1] at hid
        rw [← hboth.1, hid]
      · have hkept : row.restore before = before := if_neg hboth
        rw [hkept] at hid halive
        exact .inl ⟨before, hbefore, hid, halive⟩
    · rcases mem_append.mp hmem with hold | hlast
      · exact .inl ⟨live, hold, hid, halive⟩
      · rw [mem_singleton.mp hlast] at hid
        exact .inr ⟨row, rfl, hid⟩

section

variable (h : Consistent format now tables)

include h

theorem Consistent.same_attestation {old : Row ε}
    (hreads : Reads format envelope (.attestation row)) (hold : old ∈ tables.rows)
    (hid : old.contentId = row.contentId) :
    old.issuer = row.issuer ∧ old.subjectId = row.subjectId ∧ old.expiresAt = row.expiresAt := by
  obtain ⟨envelope', hid', hissuer, attributeName, value, hpayload⟩ := h.described old hold
  obtain ⟨hrowId, hrowIssuer, ⟨attributeName', value', hrowPayload⟩, -⟩ := hreads
  have heq : envelope' = envelope := by
    apply format.contentId_injective _ _ _ hid'
    rw [hid]
    exact hrowId
  rw [heq, hrowPayload] at hpayload
  rw [heq, hrowIssuer] at hissuer
  injection hpayload with _ hsubject _ _ hexpires
  exact ⟨hissuer.symm, (Option.some.inj hsubject).symm, (Option.some.inj hexpires).symm⟩

theorem Consistent.offered_of_named {issuer : String} {keys : List κ}
    {wire : Wire ε} (hrow : row ∈ tables.rows)
    (hname : wire.envelope.bind format.contentId = some row.contentId)
    (hread : (readFor format issuer keys now wire).isSome = true) :
    ∃ offered, readFor format issuer keys now wire = some (.attestation offered) ∧
      offered.contentId = row.contentId := by
  obtain ⟨item, hitem⟩ := Option.isSome_iff_exists.mp hread
  obtain ⟨envelope, henvelope, -, hreads⟩ := readFor_eq_some hitem
  obtain ⟨envelope', hid, -, attributeName, value, hpayload⟩ := h.described row hrow
  rw [henvelope, Option.bind_some] at hname
  have heq : envelope' = envelope := format.contentId_injective _ _ _ hid hname
  cases item with
  | attestation offered => exact ⟨offered, hitem, Option.some.inj (hreads.1.symm.trans hname)⟩
  | revocation revocation =>
    rw [heq, hreads.2.2] at hpayload
    cases hpayload

theorem Consistent.store_offered
    (hreads : Reads format envelope (.attestation row)) (hexpires : now < row.expiresAt)
    (hsubject : row.subjectId ∈ tables.subjects)
    (hroom : tables.active row.issuer now < maxActiveAttestationsPerIssuer) :
    ∃ after, tables.store now (.attestation row) = .ok after ∧
      (after.Live now row.contentId ∨ after.Revoked row.contentId) := by
  simp only [Tables.store]
  rw [if_neg (Nat.not_le.mpr hroom), if_neg (not_not.mpr hsubject)]
  refine ⟨_, rfl, ?_⟩
  split
  · rename_i hknown
    obtain ⟨old, hold, hsame⟩ := any_eq_true.mp hknown
    have hid : old.contentId = row.contentId := of_decide_eq_true hsame
    have hstill : now < old.expiresAt := by
      rw [(h.same_attestation hreads hold hid).2.2]
      exact hexpires
    by_cases hwithdrawn : old.withdrawn = true
    · left
      refine ⟨_, mem_map.mpr ⟨old, hold, rfl⟩, ?_, ?_⟩
      · rw [(identity_eq_iff.mp (identity_restore row old)).1, hid]
      · unfold Row.restore
        rw [if_pos ⟨hid, hwithdrawn⟩]
        exact live_iff.mpr ⟨rfl, hstill⟩
    · by_cases hrevoked : old.revokedAt = none
      · left
        have hkept : row.restore old = old := if_neg fun hboth => hwithdrawn hboth.2
        exact ⟨old, mem_map.mpr ⟨old, hold, hkept⟩, hid, live_iff.mpr ⟨hrevoked, hstill⟩⟩
      · right
        have hby := withdrawn_eq_false.mp (Bool.eq_false_iff.mpr hwithdrawn) hrevoked
        rw [← hid]
        exact (h.marked old hold hby).2
  · left
    obtain ⟨-, -, -, -, hat, -⟩ := hreads
    exact ⟨row, mem_append_right _ (.head _), rfl, live_iff.mpr ⟨hat, hexpires⟩⟩

end

section Ingestion

variable {issuer : String} {keys : List κ} {wire : Wire ε} {found : Tables ε × List (Wire ε)}

def FindsTarget (format : Format ε κ) (issuer : String) (keys : List κ) (now : Int)
    (found : Tables ε × List (Wire ε)) (wire : Wire ε) : Prop :=
  ∀ item ∈ readFor format issuer keys now wire, FindsUnwithdrawn found.1 item

theorem ingestObject_cases (format : Format ε κ) (issuer : String) (keys : List κ) (now : Int)
    (found : Tables ε × List (Wire ε)) (wire : Wire ε) :
    (ingestObject format issuer keys now found wire).1 = found.1 ∨
      ∃ item envelope, readFor format issuer keys now wire = some item ∧ Reads format envelope item ∧
        found.1.store now item = .ok (ingestObject format issuer keys now found wire).1 := by
  cases hread : readFor format issuer keys now wire with
  | none =>
    rw [ingestObject_of_none found hread]
    exact .inl rfl
  | some item =>
    rw [ingestObject_of_some found hread]
    obtain ⟨envelope, -, -, hreads⟩ := readFor_eq_some hread
    cases hstore : found.1.store now item with
    | ok after => exact .inr ⟨item, envelope, rfl, hreads, hstore⟩
    | error error =>
      left
      unfold keep
      split
      · rename_i hok
        cases hok
      · split <;> rfl
      · rfl

theorem pending_ingestObject : found.2 ⊆ (ingestObject format issuer keys now found wire).2 := by
  cases hread : readFor format issuer keys now wire with
  | none =>
    rw [ingestObject_of_none found hread]
    exact List.Subset.refl _
  | some item =>
    rw [ingestObject_of_some found hread]
    unfold keep
    split
    · exact List.Subset.refl _
    · split
      · exact subset_append_left _ _
      · exact List.Subset.refl _
    · exact List.Subset.refl _

theorem Consistent.after_ingestObject (h : Consistent format now found.1)
    (hfinds : FindsTarget format issuer keys now found wire) :
    Consistent format now (ingestObject format issuer keys now found wire).1 := by
  rcases ingestObject_cases format issuer keys now found wire with hsame | ⟨item, envelope, hread, hreads, hstore⟩
  · rw [hsame]
    exact h
  · exact h.store hreads (hfinds item hread) hstore

theorem keeps_ingestObject :
    (ingestObject format issuer keys now found wire).1.subjects = found.1.subjects ∧
      (ingestObject format issuer keys now found wire).1.authorities =
        found.1.authorities ∧
      (ingestObject format issuer keys now found wire).1.received = found.1.received ∧
      ∀ id, found.1.Revoked id →
        (ingestObject format issuer keys now found wire).1.Revoked id := by
  rcases ingestObject_cases format issuer keys now found wire with hsame | ⟨item, envelope, -, -, hstore⟩
  · rw [hsame]
    exact ⟨rfl, rfl, rfl, fun _ hrevoked => hrevoked⟩
  · exact store_keeps hstore

section

variable (h : Consistent format now found.1)

include h

theorem Consistent.settled_ingestObject {id : String}
    (hsettled : found.1.Live now id ∨ found.1.Revoked id) :
    (ingestObject format issuer keys now found wire).1.Live now id ∨
      (ingestObject format issuer keys now found wire).1.Revoked id := by
  rcases hsettled with hlive | hrevoked
  · rcases ingestObject_cases format issuer keys now found wire with
      hsame | ⟨item, envelope, -, hreads, hstore⟩
    · rw [hsame]
      exact .inl hlive
    · exact h.live_store hreads hstore hlive
  · exact .inr (keeps_ingestObject.2.2.2 id hrevoked)

theorem Consistent.offered_ingestObject {row : Row ε}
    (hread : readFor format issuer keys now wire = some (.attestation row)) (hexpires : now < row.expiresAt)
    (hsubject : row.subjectId ∈ found.1.subjects) (hroom : HasRoom found now (.attestation row)) :
    (ingestObject format issuer keys now found wire).1.Live now row.contentId ∨
      (ingestObject format issuer keys now found wire).1.Revoked row.contentId := by
  rcases hroom with hexpired | hthere | ⟨hquota, -⟩
  · exact absurd hexpires (not_lt.mpr hexpired)
  · exact h.settled_ingestObject (.inl hthere)
  · obtain ⟨envelope, -, -, hreads⟩ := readFor_eq_some hread
    obtain ⟨after, hstore, hsettled⟩ := h.store_offered hreads hexpires hsubject hquota
    rw [ingestObject_of_some found hread, hstore]
    exact hsettled

theorem Consistent.waits_ingestObject {row : Row ε}
    (hread : readFor format issuer keys now wire = some (.attestation row)) (hexpires : now < row.expiresAt)
    (hsubject : row.subjectId ∉ found.1.subjects) (hroom : HasRoom found now (.attestation row)) :
    wire ∈ (ingestObject format issuer keys now found wire).2 := by
  obtain ⟨envelope, -, -, hreads⟩ := readFor_eq_some hread
  rcases hroom with hexpired | ⟨old, hold, hid, -⟩ | ⟨hquota, hplace⟩
  · exact absurd hexpires (not_lt.mpr hexpired)
  · rw [← (h.same_attestation hreads hold hid).2.1] at hsubject
    exact absurd (h.known old hold) hsubject
  · have hstore : found.1.store now (.attestation row) = .error .unknownSubject := by
      simp only [Tables.store]
      rw [if_neg (Nat.not_le.mpr hquota), if_pos hsubject]
    rw [ingestObject_of_some found hread, hstore]
    unfold keep
    simp only
    rw [if_pos (hplace.resolve_left hsubject)]
    exact mem_append_right _ (.head _)

end

theorem live_of_ingestObject {id : String}
    (hlive : (ingestObject format issuer keys now found wire).1.Live now id) :
    found.1.Live now id ∨
      ∃ row, readFor format issuer keys now wire = some (.attestation row) ∧ row.contentId = id := by
  rcases ingestObject_cases format issuer keys now found wire with hsame | ⟨item, envelope, hread, -, hstore⟩
  · rw [hsame] at hlive
    exact .inl hlive
  · rcases live_of_store hstore hlive with hbefore | ⟨row, rfl, hid⟩
    · exact .inl hbefore
    · exact .inr ⟨row, hread, hid⟩

end Ingestion

section Snapshot

variable {issuer : String} {keys : List κ} {objects : List (Wire ε)} {sequence : Int}

def SnapshotHolds (format : Format ε κ) (issuer : String) (objects : List (Wire ε)) (keys : List κ)
    (now : Int) (after : Tables ε) : Prop :=
  (∀ id, (∃ row ∈ after.rows, row.issuer = issuer ∧ row.contentId = id ∧ row.live now = true) ↔
    (∃ wire ∈ objects, ∃ row, readFor format issuer keys now wire = some (.attestation row) ∧
      row.contentId = id ∧ now < row.expiresAt ∧ row.subjectId ∈ after.subjects) ∧ ¬after.Revoked id) ∧
  ∀ wire ∈ objects, ∀ row, readFor format issuer keys now wire = some (.attestation row) →
    now < row.expiresAt → row.subjectId ∉ after.subjects →
      ∃ bundle, after.received.get? issuer = some bundle ∧ wire ∈ bundle.pending

def StillVerifies (format : Format ε κ) (issuer : String) (objects : List (Wire ε)) (keys : List κ)
    (now : Int) (tables : Tables ε) : Prop :=
  ∀ wire ∈ objects, ∀ row ∈ tables.rows, row.issuer = issuer → row.live now = true →
    wire.envelope.bind format.contentId = some row.contentId →
      (readFor format issuer keys now wire).isSome = true

def FindsAll (format : Format ε κ) (issuer : String) (objects : List (Wire ε)) (keys : List κ) (now : Int)
    (tables : Tables ε) : Prop :=
  ∀ v ∈ visited (ingestObject format issuer keys now) (tables, []) objects,
    FindsTarget format issuer keys now v.1 v.2 ∧
      ∀ item ∈ readFor format issuer keys now v.2, HasRoom v.1 now item

theorem Consistent.visited_ingestObjects (h : Consistent format now tables)
    (hfinds : ∀ v ∈ visited (ingestObject format issuer keys now) (tables, []) objects,
      FindsTarget format issuer keys now v.1 v.2) :
    ∀ v ∈ visited (ingestObject format issuer keys now) (tables, []) objects,
      Consistent format now v.1.1 ∧ v.1.1.subjects = tables.subjects :=
  @visited_invariant _ _ (ingestObject format issuer keys now)
    (fun found => Consistent format now found.1 ∧ found.1.subjects = tables.subjects) objects (tables, [])
    ⟨h, rfl⟩ fun v hv hbefore =>
      ⟨hbefore.1.after_ingestObject (hfinds v hv), keeps_ingestObject.1.trans hbefore.2⟩

theorem Consistent.after_ingestObjects (h : Consistent format now tables)
    (hfinds : ∀ v ∈ visited (ingestObject format issuer keys now) (tables, []) objects,
      FindsTarget format issuer keys now v.1 v.2) :
    Consistent format now (ingestObjects format issuer keys now tables objects).1 :=
  @foldl_invariant _ _ (ingestObject format issuer keys now) (fun found => Consistent format now found.1)
    objects (tables, []) h fun v hv hbefore => hbefore.after_ingestObject (hfinds v hv)

theorem keeps_ingestObjects :
    (ingestObjects format issuer keys now tables objects).1.subjects = tables.subjects ∧
      (ingestObjects format issuer keys now tables objects).1.authorities = tables.authorities ∧
      ∀ id, tables.Revoked id → (ingestObjects format issuer keys now tables objects).1.Revoked id := by
  apply @foldl_invariant _ _ (ingestObject format issuer keys now) (fun found =>
    found.1.subjects = tables.subjects ∧ found.1.authorities = tables.authorities ∧
      ∀ id, tables.Revoked id → found.1.Revoked id) objects (tables, []) ⟨rfl, rfl, fun _ hid => hid⟩
  intro v _ hbefore
  exact ⟨keeps_ingestObject.1.trans hbefore.1, keeps_ingestObject.2.1.trans hbefore.2.1,
    fun id hid => keeps_ingestObject.2.2.2 id (hbefore.2.2 id hid)⟩

theorem live_of_ingestObjects {id : String}
    (hlive : (ingestObjects format issuer keys now tables objects).1.Live now id) :
    tables.Live now id ∨ ∃ wire ∈ objects, ∃ row,
      readFor format issuer keys now wire = some (.attestation row) ∧ row.contentId = id := by
  revert hlive
  apply @foldl_invariant _ _ (ingestObject format issuer keys now) (fun found => found.1.Live now id →
    tables.Live now id ∨ ∃ wire ∈ objects, ∃ row,
      readFor format issuer keys now wire = some (.attestation row) ∧ row.contentId = id) objects (tables, [])
    .inl
  intro v hv hbefore hlive
  rcases live_of_ingestObject hlive with hold | ⟨row, hread, hid⟩
  · exact hbefore hold
  · exact .inr ⟨v.2, visited_input objects (tables, []) v hv, row, hread, hid⟩

variable {row : Row ε}

theorem Consistent.settled_ingestObjects (h : Consistent format now tables)
    (hfinds : FindsAll format issuer objects keys now tables) {wire : Wire ε} (hwire : wire ∈ objects)
    (hread : readFor format issuer keys now wire = some (.attestation row))
    (hexpires : now < row.expiresAt) (hsubject : row.subjectId ∈ tables.subjects) :
    (ingestObjects format issuer keys now tables objects).1.Live now row.contentId ∨
      (ingestObjects format issuer keys now tables objects).1.Revoked row.contentId := by
  have hvisited := h.visited_ingestObjects fun v hv => (hfinds v hv).1
  apply @foldl_establishes _ _ (ingestObject format issuer keys now)
    (fun found => found.1.Live now row.contentId ∨ found.1.Revoked row.contentId) objects (tables, []) wire hwire
  · rintro v hv rfl
    obtain ⟨hconsistent, hsubjects⟩ := hvisited v hv
    rw [← hsubjects] at hsubject
    exact hconsistent.offered_ingestObject hread hexpires hsubject ((hfinds v hv).2 _ hread)
  · intro v hv hsettled
    exact (hvisited v hv).1.settled_ingestObject hsettled

theorem Consistent.waits_ingestObjects (h : Consistent format now tables)
    (hfinds : FindsAll format issuer objects keys now tables) {wire : Wire ε} (hwire : wire ∈ objects)
    (hread : readFor format issuer keys now wire = some (.attestation row))
    (hexpires : now < row.expiresAt) (hsubject : row.subjectId ∉ tables.subjects) :
    wire ∈ (ingestObjects format issuer keys now tables objects).2 := by
  have hvisited := h.visited_ingestObjects fun v hv => (hfinds v hv).1
  apply @foldl_establishes _ _ (ingestObject format issuer keys now) (fun found => wire ∈ found.2) objects
    (tables, []) wire hwire
  · rintro v hv rfl
    obtain ⟨hconsistent, hsubjects⟩ := hvisited v hv
    rw [← hsubjects] at hsubject
    exact hconsistent.waits_ingestObject hread hexpires hsubject ((hfinds v hv).2 _ hread)
  · exact fun v _ hwaits => pending_ingestObject hwaits

theorem live_withdraw {present : List String}
    (h : (row.withdraw issuer present now).live now = true) :
    row.live now = true ∧ row.withdraw issuer present now = row := by
  unfold Row.withdraw at h ⊢
  split at h
  · have hrevoked := (live_iff.mp h).1
    rw [(marks_forget _).2.1] at hrevoked
    cases hrevoked
  · rename_i hkept
    exact ⟨h, if_neg hkept⟩

theorem mem_presentIds {id : String} :
    id ∈ presentIds format objects ↔ ∃ wire ∈ objects, wire.envelope.bind format.contentId = some id :=
  mem_filterMap

theorem Consistent.after_snapshot (h : Consistent format now tables)
    (hfinds : tables.takes issuer sequence = true → FindsAll format issuer objects keys now tables) :
    Consistent format now (applyAttestationSnapshot format tables issuer sequence objects keys now) := by
  unfold applyAttestationSnapshot
  split
  · exact h
  · rename_i htakes
    have hingested := h.after_ingestObjects fun v hv => (hfinds (by simpa using htakes) v hv).1
    have hwithdrawn := hingested.withdraw issuer (presentIds format objects)
    exact { hwithdrawn with }

theorem Consistent.snapshotHolds (h : Consistent format now tables) (htakes : tables.takes issuer sequence = true)
    (hfinds : FindsAll format issuer objects keys now tables)
    (hverifies : StillVerifies format issuer objects keys now tables) :
    SnapshotHolds format issuer objects keys now
      (applyAttestationSnapshot format tables issuer sequence objects keys now) := by
  have hingested := h.after_ingestObjects fun v hv => (hfinds v hv).1
  obtain ⟨hsubjects, -, -⟩ := @keeps_ingestObjects _ _ format tables now issuer keys objects
  unfold applyAttestationSnapshot
  rw [if_neg (by simp [htakes])]
  refine ⟨fun id => ⟨?_, ?_⟩, ?_⟩
  · rintro ⟨row, hrow, hissuer, rfl, hlive⟩
    obtain ⟨before, hbefore, rfl⟩ := mem_map.mp hrow
    obtain ⟨halive, hkept⟩ := live_withdraw hlive
    rw [hkept] at hissuer ⊢
    obtain ⟨hnone, hexpires⟩ := live_iff.mp halive
    have hredacted : before.redactedAt = none := by
      by_contra hblank
      exact absurd hexpires (not_lt.mpr (hingested.retired before hbefore hblank hnone))
    have hpresent : before.contentId ∈ presentIds format objects := by
      by_contra habsent
      have hchanged := hlive
      unfold Row.withdraw at hchanged
      rw [if_pos ⟨hissuer, hnone, hredacted, habsent⟩] at hchanged
      have hrevoked := (live_iff.mp hchanged).1
      rw [(marks_forget _).2.1] at hrevoked
      cases hrevoked
    have hread : ∃ wire ∈ objects, ∃ offered,
        readFor format issuer keys now wire = some (.attestation offered) ∧
          offered.contentId = before.contentId := by
      rcases live_of_ingestObjects ⟨before, hbefore, rfl, halive⟩ with ⟨old, hold, hid, holdLive⟩ | hoffered
      · obtain ⟨wire, hwire, hname⟩ := mem_presentIds.mp hpresent
        obtain ⟨envelope, hdescribes⟩ := hingested.described before hbefore
        obtain ⟨envelope', hdescribes'⟩ := h.described old hold
        have heq : envelope' = envelope := by
          apply format.contentId_injective _ _ _ hdescribes'.1
          rw [hid]
          exact hdescribes.1
        have holdIssuer : old.issuer = issuer := by
          rw [← hdescribes'.2.1, heq, hdescribes.2.1, hissuer]
        rw [← hid] at hname ⊢
        exact ⟨wire, hwire, h.offered_of_named hold hname
          (hverifies wire hwire old hold holdIssuer holdLive hname)⟩
      · exact hoffered
    obtain ⟨wire, hwire, offered, hoffered, hid⟩ := hread
    obtain ⟨envelope, -, -, hreads⟩ := readFor_eq_some hoffered
    obtain ⟨-, hsubject, hsame⟩ := hingested.same_attestation hreads hbefore hid.symm
    refine ⟨⟨wire, hwire, offered, hoffered, hid, ?_, ?_⟩, ?_⟩
    · rw [← hsame]
      exact hexpires
    · rw [← hsubject]
      exact hingested.known before hbefore
    · exact fun hrevoked => hingested.not_live hrevoked hbefore rfl hnone
  · rintro ⟨⟨wire, hwire, row, hread, rfl, hexpires, hsubject⟩, hrevoked⟩
    have hknown : row.subjectId ∈ (ingestObjects format issuer keys now tables objects).1.subjects := hsubject
    rw [hsubjects] at hknown
    obtain ⟨envelope, henvelope, htext, hreads⟩ := readFor_eq_some hread
    rcases h.settled_ingestObjects hfinds hwire hread hexpires hknown with ⟨live, hlive, hid, halive⟩ | hmid
    · have hpresent : live.contentId ∈ presentIds format objects := by
        refine mem_presentIds.mpr ⟨wire, hwire, ?_⟩
        rw [henvelope, Option.bind_some, hid]
        exact hreads.1
      have hkept : live.withdraw issuer (presentIds format objects) now = live :=
        if_neg fun hall => hall.2.2.2 hpresent
      refine ⟨live, mem_map.mpr ⟨live, hlive, hkept⟩, ?_, hid, halive⟩
      rw [(hingested.same_attestation hreads hlive hid).1, ← hreads.2.1, htext]
    · exact absurd hmid hrevoked
  · intro wire hwire row hread hexpires hsubject
    have hunknown : row.subjectId ∉ (ingestObjects format issuer keys now tables objects).1.subjects := hsubject
    rw [hsubjects] at hunknown
    exact ⟨_, Dict.get?_set_self _ _ _, h.waits_ingestObjects hfinds hwire hread hexpires hunknown⟩

end Snapshot

structure Recipient (ε : Type) extends Tables ε where
  clock : Int

inductive Happening (ε κ : Type) where
  | meet (subjectId : String)
  | snapshot (issuer : String) (sequence : Int) (objects : List (Wire ε)) (keys : List κ) (now : Int)
  | pull (wire : Wire ε) (key : κ) (now : Int)
  | retry (issuer : String) (keys : List κ) (now : Int)
  | forget (now : Int)

def Recipient.step (format : Format ε κ) (recipient : Recipient ε) : Happening ε κ → Recipient ε
  | .meet subjectId => { recipient with subjects := recipient.subjects ++ [subjectId] }
  | .snapshot issuer sequence objects keys now =>
    ⟨applyAttestationSnapshot format recipient.toTables issuer sequence objects keys now, now⟩
  | .pull wire key now =>
    ⟨(ingestRemoteAttestation format recipient.toTables wire key now).toOption.getD recipient.toTables, now⟩
  | .retry issuer keys now => ⟨retryPendingAttestationObjects format recipient.toTables issuer keys now, now⟩
  | .forget now => ⟨forgetRetiredRemoteAttestations recipient.toTables now, now⟩

def Recipient.start (authorities : List String) (clock : Int) : Recipient ε := { authorities, clock }

def recipientRun (format : Format ε κ) (authorities : List String) (clock : Int)
    (steps : List (Happening ε κ)) : Recipient ε :=
  steps.foldl (Recipient.step format) (.start authorities clock)

def Undisturbed (format : Format ε κ) (recipient : Recipient ε) : Happening ε κ → Prop
  | .meet _ => True
  | .snapshot issuer sequence objects keys now =>
    recipient.clock ≤ now ∧ (recipient.takes issuer sequence = true →
      FindsAll format issuer objects keys now recipient.toTables ∧
        StillVerifies format issuer objects keys now recipient.toTables)
  | .pull wire key now =>
    recipient.clock ≤ now ∧
      ∀ item ∈ (readWire format wire key now).toOption, FindsUnwithdrawn recipient.toTables item
  | .retry issuer keys now =>
    recipient.clock ≤ now ∧ ∀ bundle ∈ recipient.received.get? issuer,
      ∀ v ∈ visited (ingestObject format issuer keys now) (recipient.toTables, []) bundle.pending,
        FindsTarget format issuer keys now v.1 v.2
  | .forget now => recipient.clock ≤ now

def SnapshotsHold (format : Format ε κ) (recipient : Recipient ε) : Happening ε κ → Prop
  | .snapshot issuer sequence objects keys now =>
    (sequence ≤ recipient.lastAppliedSequence issuer →
      applyAttestationSnapshot format recipient.toTables issuer sequence objects keys now =
        recipient.toTables) ∧
    (recipient.takes issuer sequence = true → SnapshotHolds format issuer objects keys now
        (applyAttestationSnapshot format recipient.toTables issuer sequence objects keys now))
  | _ => True

def PullsAccept (format : Format ε κ) (recipient : Recipient ε) : Happening ε κ → Prop
  | .pull wire key now => ∀ revocation, readWire format wire key now = .ok (.revocation revocation) →
      ∀ after, ingestRemoteAttestation format recipient.toTables wire key now = .ok after →
        after.Revoked revocation.revokedContentId
  | _ => True

theorem ingestRemoteAttestation_eq_ok {wire : Wire ε} {key : κ}
    (h : ingestRemoteAttestation format tables wire key now = .ok after) :
    ∃ item envelope, readWire format wire key now = .ok item ∧ Reads format envelope item ∧
      tables.store now item = .ok after := by
  unfold ingestRemoteAttestation at h
  cases hread : readWire format wire key now with
  | error error =>
    rw [hread] at h
    cases h
  | ok item =>
    rw [hread] at h
    obtain ⟨envelope, -, hreads⟩ := reads_of_readWire hread
    exact ⟨item, envelope, rfl, hreads, h⟩

theorem pull_cases (format : Format ε κ) (tables : Tables ε) (wire : Wire ε) (key : κ) (now : Int) :
    (ingestRemoteAttestation format tables wire key now).toOption.getD tables = tables ∨
      ∃ item envelope, readWire format wire key now = .ok item ∧ Reads format envelope item ∧
        tables.store now item =
          .ok ((ingestRemoteAttestation format tables wire key now).toOption.getD tables) := by
  cases hingest : ingestRemoteAttestation format tables wire key now with
  | error error => exact .inl rfl
  | ok after => exact .inr (ingestRemoteAttestation_eq_ok hingest)

theorem Consistent.meet (h : Consistent format now tables) (subjectId : String) :
    Consistent format now { tables with subjects := tables.subjects ++ [subjectId] } :=
  { h with known := fun row hrow => mem_append_left _ (h.known row hrow) }

variable {recipient : Recipient ε}

theorem Consistent.step (h : Consistent format recipient.clock recipient.toTables)
    (happening : Happening ε κ) (hfine : Undisturbed format recipient happening) :
    Consistent format (recipient.step format happening).clock (recipient.step format happening).toTables := by
  cases happening with
  | meet subjectId => exact h.meet subjectId
  | snapshot issuer sequence objects keys now =>
    exact (h.later hfine.1).after_snapshot fun htakes => (hfine.2 htakes).1
  | pull wire key now =>
    have hlater := h.later hfine.1
    rcases pull_cases format recipient.toTables wire key now with hsame | ⟨item, envelope, hread, hreads, hstore⟩
    · simp only [Recipient.step]
      rw [hsame]
      exact hlater
    · exact hlater.store hreads (hfine.2 item (by rw [hread]; rfl)) hstore
  | retry issuer keys now =>
    have hlater := h.later hfine.1
    simp only [Recipient.step]
    unfold retryPendingAttestationObjects
    split
    · exact hlater
    · rename_i bundle hbundle
      exact { hlater.after_ingestObjects (hfine.2 bundle hbundle) with }
  | forget now => exact (h.later hfine).forget

theorem revoked_step (recipient : Recipient ε) (happening : Happening ε κ)
    (hrevoked : recipient.Revoked id) : (recipient.step format happening).Revoked id := by
  cases happening with
  | meet subjectId => exact hrevoked
  | snapshot issuer sequence objects keys now =>
    simp only [Recipient.step]
    unfold applyAttestationSnapshot
    split
    · exact hrevoked
    · exact keeps_ingestObjects.2.2 id hrevoked
  | pull wire key now =>
    simp only [Recipient.step]
    rcases pull_cases format recipient.toTables wire key now with hsame | ⟨item, envelope, -, -, hstore⟩
    · rw [hsame]
      exact hrevoked
    · exact (store_keeps hstore).2.2.2 id hrevoked
  | retry issuer keys now =>
    simp only [Recipient.step]
    unfold retryPendingAttestationObjects
    split
    · exact hrevoked
    · exact keeps_ingestObjects.2.2 id hrevoked
  | forget now => exact hrevoked

section

variable (h : Consistent format recipient.clock recipient.toTables)

include h

theorem snapshotsHold
    (happening : Happening ε κ) (hfine : Undisturbed format recipient happening) :
    SnapshotsHold format recipient happening := by
  cases happening with
  | snapshot issuer sequence objects keys now =>
    refine ⟨fun hstale => ?_, fun htakes => ?_⟩
    · have hnot : recipient.takes issuer sequence = false :=
        decide_eq_false fun htakes => absurd htakes.2 (not_lt.mpr hstale)
      exact if_pos hnot
    · exact (h.later hfine.1).snapshotHolds htakes (hfine.2 htakes).1 (hfine.2 htakes).2
  | _ => trivial

theorem pullsAccept (happening : Happening ε κ) : PullsAccept format recipient happening := by
  cases happening with
  | pull wire key now =>
    intro revocation hread after hingest
    obtain ⟨item, envelope, hitem, hreads, hstore⟩ := ingestRemoteAttestation_eq_ok hingest
    rw [hread] at hitem
    cases hitem
    rcases store_cases hstore with ⟨_, target, heq, -, -, rfl⟩ | ⟨row, heq, -⟩
    · cases heq
      exact h.exists_withRevocation hreads
    · cases heq
  | _ => trivial

end

theorem consistent_start (authorities : List String) (clock : Int) :
    Consistent format clock (Recipient.start authorities clock : Recipient ε).toTables where
  nodup := nodup_nil
  described _ hrow := by cases hrow
  known _ hrow := by cases hrow
  revocationRead _ hrevocation := by cases hrevocation
  final _ hrevocation := by cases hrevocation
  marked _ hrow := by cases hrow
  retired _ hrow := by cases hrow

/-- In a run that nothing disturbs a snapshot is authoritative, and what was revoked is not live again. -/
theorem snapshots_hold_and_revocations_last (format : Format ε κ) (authorities : List String) (clock : Int)
    (steps : List (Happening ε κ))
    (hfine : ∀ v ∈ visited (Recipient.step format) (.start authorities clock) steps,
      Undisturbed format v.1 v.2) :
    (∀ v ∈ visited (Recipient.step format) (.start authorities clock) steps,
      SnapshotsHold format v.1 v.2 ∧ PullsAccept format v.1 v.2) ∧
    ∀ earlier later, steps = earlier ++ later →
      ∀ id, (recipientRun format authorities clock earlier).Revoked id →
        ∀ row ∈ (recipientRun format authorities clock steps).rows, row.contentId = id →
          row.revokedAt ≠ none := by
  have hvisited := @visited_invariant _ _ (Recipient.step format)
    (fun recipient => Consistent format recipient.clock recipient.toTables) steps (.start authorities clock)
    (consistent_start authorities clock) fun v hv h => h.step v.2 (hfine v hv)
  have hfinal := @foldl_invariant _ _ (Recipient.step format)
    (fun recipient => Consistent format recipient.clock recipient.toTables) steps (.start authorities clock)
    (consistent_start authorities clock) fun v hv h => h.step v.2 (hfine v hv)
  refine ⟨fun v hv => ⟨snapshotsHold (hvisited v hv) v.2 (hfine v hv), pullsAccept (hvisited v hv) v.2⟩, ?_⟩
  rintro earlier later rfl id hrevoked row hrow hid
  have hstill : (recipientRun format authorities clock (earlier ++ later)).Revoked id := by
    unfold recipientRun
    rw [foldl_append]
    exact @foldl_invariant _ _ (Recipient.step format) (fun recipient => recipient.Revoked id) later _ hrevoked
      fun v _ h => revoked_step v.1 v.2 h
  exact hfinal.not_live hstill hrow hid

instance (tables : Tables ε) (item : Item ε) : Decidable (FindsUnwithdrawn tables item) := by
  cases item <;> unfold FindsUnwithdrawn <;> infer_instance

instance (found : Tables ε × List (Wire ε)) (now : Int) (item : Item ε) :
    Decidable (HasRoom found now item) := by
  cases item <;> unfold HasRoom <;> infer_instance

instance (format : Format ε κ) (issuer : String) (keys : List κ) (now : Int)
    (found : Tables ε × List (Wire ε)) (wire : Wire ε) :
    Decidable (FindsTarget format issuer keys now found wire) := by
  unfold FindsTarget
  infer_instance

instance (format : Format ε κ) (recipient : Recipient ε) (happening : Happening ε κ) :
    Decidable (Undisturbed format recipient happening) := by
  cases happening <;> unfold Undisturbed <;> try unfold FindsAll StillVerifies
  all_goals infer_instance

instance (tables : Tables ε) (id : String) : Decidable (tables.Revoked id) := by
  unfold Tables.Revoked
  infer_instance

/-- Two objects of one issuer: an attestation and its revocation. -/
def sampleFormat : Format String Unit where
  contentId := some
  issuerField _ := some "issuer"
  issuerText _ := "issuer"
  issuedAt _ := some 0
  payload envelope :=
    if envelope = "revocation" then .revocation "attestation"
    else if envelope = "attestation" then
      .attestation true (some "subject") (some "name") (fun _ => some "Ada") (some 1000)
    else .unsupported
  verify _ _ _ := true
  contentId_injective _ _ _ ha hb := (Option.some.inj ha).trans (Option.some.inj hb).symm
  issuerText_eq _ _ h := Option.some.inj h

def sampleAttestation : Wire String := ⟨some "attestation", "signature"⟩

def sampleRevoked : Wire String := ⟨some "revocation", "signature"⟩

def withdrawnFirst : List (Happening String Unit) :=
  [.meet "subject", .snapshot "issuer" 1 [sampleAttestation] [()] 1, .snapshot "issuer" 2 [] [()] 2,
    .pull sampleRevoked () 3]

/-- The revoked attestation is live again. -/
theorem withdrawn_then_revoked_is_live_again :
    (recipientRun sampleFormat ["issuer"] 0 withdrawnFirst).Revoked "attestation" ∧
      ∃ row ∈ (recipientRun sampleFormat ["issuer"] 0
          (withdrawnFirst ++ [.snapshot "issuer" 3 [sampleAttestation] [()] 4])).rows,
        row.contentId = "attestation" ∧ row.live 4 = true := by
  decide +kernel

def revokedFirst : List (Happening String Unit) :=
  [.meet "subject", .snapshot "issuer" 1 [sampleAttestation] [()] 1, .pull sampleRevoked () 2,
    .snapshot "issuer" 2 [] [()] 3, .snapshot "issuer" 3 [sampleAttestation] [()] 4, .forget 5]

theorem revokedFirst_lasts :
    (recipientRun sampleFormat ["issuer"] 0 revokedFirst).rows.all (fun row =>
      decide (row.contentId = "attestation" → row.revokedAt ≠ none)) = true := by
  rw [all_eq_true]
  intro row hrow
  rw [decide_eq_true_iff]
  exact (snapshots_hold_and_revocations_last sampleFormat ["issuer"] 0 revokedFirst (by decide +kernel)).2
    (revokedFirst.take 3) (revokedFirst.drop 3) rfl "attestation" (by decide +kernel) row hrow

end NetBBS.ReceivedAttestations
