import NetBBS.Link.Trust.Ingest
import NetBBS.Link.Trust.Runs

/-! # Refused pulls -/

namespace NetBBS.Trust

open Foundation Dict

variable {host : WireHost} {now : Instant} {db : WireDb} {obj : SignedTrustObject}
    {contentId issuer : String} {family : TrustObjectType} {revokedBy : Option String}
    {revokedAt : Option Instant}

def Carries (db : WireDb) (contentId : String) (family : TrustObjectType) (issuer : String)
    (revokedBy : Option String) (revokedAt : Option Instant) : Prop :=
  ∃ row, db.wireObjects.get? contentId = some row ∧ row.objectType = family ∧
    row.issuerFingerprint = issuer ∧ revokedBy = row.revoked.map Revocation.revokedBy ∧
    revokedAt = row.revoked.map Revocation.revokedAt

/-- Every report has its carrier. -/
structure Consistent (db : WireDb) : Prop where
  signals : ∀ contentId row, db.trust.inputs.signals.get? contentId = some row →
    Carries db contentId .trustSignal row.issuerFingerprint row.revokedBy row.revokedAt
  vouches : ∀ contentId row, db.trust.inputs.vouches.get? contentId = some row →
    Carries db contentId .trustVouch row.issuerFingerprint row.revokedBy row.revokedAt

theorem Carries.store (h : Carries db contentId family issuer revokedBy revokedAt) :
    Carries (storeWireObject db obj) contentId family issuer revokedBy revokedAt := by
  obtain ⟨row, hrow, hrest⟩ := h
  refine ⟨row, ?_, hrest⟩
  unfold storeWireObject
  rw [get?_setDefault]
  split
  · rename_i hsame
    rw [hsame, hrow]
    rfl
  · exact hrow

theorem carries_stored (hnew : db.wireObjects.get? obj.contentId = none) :
    Carries (storeWireObject db obj) obj.contentId obj.payload.objectType obj.issuerFingerprint none
      none := by
  refine ⟨obj.wireRow, ?_, rfl, rfl, rfl, rfl⟩
  unfold storeWireObject
  rw [get?_setDefault, if_pos rfl, hnew]
  rfl

variable {revocation : String} {c c' : Connection WireDb} {e : IngestError}
variable {target : String} {row : WireRow} {after : TrustInputs}

theorem Carries.revoke_other (hother : contentId ≠ target)
    (h : Carries db contentId family issuer revokedBy revokedAt) :
    Carries (revokeWireObject db target revocation now) contentId family issuer revokedBy
      revokedAt := by
  obtain ⟨row, hrow, hrest⟩ := h
  refine ⟨row, ?_, hrest⟩
  unfold revokeWireObject
  split
  · show get? _ _ = _
    rw [get?_set_ne _ _ (Ne.symm hother)]
    exact hrow
  · exact hrow

theorem Carries.revoke (h : Carries db contentId family issuer revokedBy revokedAt) :
    Carries (revokeWireObject db contentId revocation now) contentId family issuer
      (some revocation) (some now) := by
  obtain ⟨row, hrow, hfamily, hissuer, -, -⟩ := h
  refine ⟨{ row with revoked := some ⟨revocation, now⟩ }, ?_, hfamily, hissuer, rfl, rfl⟩
  unfold revokeWireObject
  rw [hrow]
  exact get?_set_self _ _ _

theorem Consistent.carry (h : Consistent db) (hreach : obj.reach host now db = .carries) :
    Consistent (carryObject now db obj) := by
  have hadmitted := admitted_of_reach (.inl hreach)
  rw [reach_of_admitted hadmitted] at hreach
  unfold carryObject
  cases hpayload : obj.payload with
  | signal payload =>
    constructor
    · intro contentId row hrow
      exact (h.signals contentId row hrow).store
    · intro contentId row hrow
      exact (h.vouches contentId row hrow).store
  | vouch subject expiresAt =>
    rw [hpayload] at hreach
    cases hreach
  | revocation ofVouch target =>
    rw [hpayload] at hreach
    cases ofVouch with
    | true =>
      simp only [TrustPayload.reach] at hreach
      split at hreach
      · cases hreach
      · cases hreach
    | false =>
      simp only [TrustPayload.reach] at hreach
      split at hreach
      · cases hreach
      · rename_i hheld
        have hnone := (contains_eq_false _ _).mp (Bool.eq_false_iff.mpr hheld)
        obtain ⟨wire, hwire, -, -, hfamily⟩ := target_of_admitted hadmitted hpayload
        constructor
        · intro contentId row hrow
          simp only [storeWireObject_trust, revokeWireObject_trust] at hrow
          apply Carries.store
          apply Carries.revoke_other _ (h.signals contentId row hrow)
          rintro rfl
          rw [hnone] at hrow
          cases hrow
        · intro contentId row hrow
          simp only [storeWireObject_trust, revokeWireObject_trust] at hrow
          apply Carries.store
          apply Carries.revoke_other _ (h.vouches contentId row hrow)
          rintro rfl
          obtain ⟨wire', hwire', hfamily', -⟩ := h.vouches contentId row hrow
          rw [hwire] at hwire'
          rw [← Option.some.inj hwire', hfamily] at hfamily'
          cases hfamily'

theorem carryObject_report
    (h : obj.payload.objectType = .trustSignal ∨ obj.payload.objectType = .trustVouch) :
    carryObject now db obj = storeWireObject db obj := by
  unfold carryObject
  cases hpayload : obj.payload with
  | signal payload => rfl
  | vouch subject expiresAt => rfl
  | revocation ofVouch target =>
    rw [hpayload] at h
    cases ofVouch <;> rcases h with h | h <;> cases h

theorem carryObject_revocation {ofVouch : Bool} (h : obj.payload = .revocation ofVouch target) :
    carryObject now db obj = storeWireObject (revokeWireObject db target obj.contentId now) obj := by
  unfold carryObject
  rw [h]

theorem SignalRow.revoke_unrevoked {row : SignalRow} {revocation : String}
    (h : row.revokedAt = none) : (row.revoke revocation now).issuerFingerprint =
      row.issuerFingerprint ∧ (row.revoke revocation now).revokedBy = some revocation ∧
      (row.revoke revocation now).revokedAt = some now := by
  unfold SignalRow.revoke
  rw [if_pos h]
  exact ⟨rfl, rfl, rfl⟩

theorem VouchRow.revoke_unrevoked {row : VouchRow} {revocation : String}
    (h : row.revokedAt = none) : (row.revoke revocation now).issuerFingerprint =
      row.issuerFingerprint ∧ (row.revoke revocation now).revokedBy = some revocation ∧
      (row.revoke revocation now).revokedAt = some now := by
  unfold VouchRow.revoke
  rw [if_pos h]
  exact ⟨rfl, rfl, rfl⟩

section

variable (h : Carries db contentId family issuer revokedBy revokedAt)

include h

theorem Carries.unrevoked
    (hrow : db.wireObjects.get? contentId = some row) (hnone : row.revoked = none) :
    revokedAt = none := by
  obtain ⟨held, hheld, -, -, -, hrevoked⟩ := h
  rw [hrow] at hheld
  rw [hrevoked, ← Option.some.inj hheld, hnone]
  rfl

theorem Carries.family_eq (hrow : db.wireObjects.get? contentId = some row) :
    row.objectType = family := by
  obtain ⟨held, hheld, hfamily, -⟩ := h
  rw [hrow] at hheld
  rw [Option.some.inj hheld, hfamily]

end

theorem Consistent.apply {trust : TrustDb} (h : Consistent db)
    (hadmitted : judgeObject host now db obj = .ok .admitted)
    (happlied : AppliedTo now obj db.trust.inputs trust.inputs) :
    Consistent (carryObject now { db with trust } obj) := by
  obtain ⟨reporter, hscreen, -⟩ := checked_of_admitted hadmitted
  have hnew := new_of_screened hscreen
  have hstored : Carries (storeWireObject { db with trust } obj) obj.contentId
      obj.payload.objectType obj.issuerFingerprint none none := carries_stored hnew
  have hkept : ∀ contentId family issuer revokedBy revokedAt,
      Carries db contentId family issuer revokedBy revokedAt →
        Carries { db with trust } contentId family issuer revokedBy revokedAt :=
    fun _ _ _ _ _ hcarries => hcarries
  cases happlied with
  | signal row hfamily hissuer hunrevoked _ hvouches hsignals =>
    rw [carryObject_report (.inl hfamily)]
    constructor
    · intro contentId held hheld
      rw [storeWireObject_trust, hsignals, get?_setDefault] at hheld
      split at hheld
      · rename_i hsame
        cases hbefore : db.trust.inputs.signals.get? obj.contentId with
        | none =>
          rw [hbefore] at hheld
          rw [← Option.some.inj hheld, ← hsame, Option.getD_none, hissuer, hunrevoked.1,
            hunrevoked.2, ← hfamily]
          exact hstored
        | some before =>
          obtain ⟨wire, hwire, -⟩ := h.signals _ _ hbefore
          rw [hnew] at hwire
          cases hwire
      · exact (hkept _ _ _ _ _ (h.signals contentId held hheld)).store
    · intro contentId held hheld
      rw [storeWireObject_trust, hvouches] at hheld
      exact (hkept _ _ _ _ _ (h.vouches contentId held hheld)).store
  | vouch row hfamily hissuer hunrevoked _ hsignals hvouches =>
    rw [carryObject_report (.inr hfamily)]
    constructor
    · intro contentId held hheld
      rw [storeWireObject_trust, hsignals] at hheld
      exact (hkept _ _ _ _ _ (h.signals contentId held hheld)).store
    · intro contentId held hheld
      rw [storeWireObject_trust, hvouches, get?_setDefault] at hheld
      split at hheld
      · rename_i hsame
        cases hbefore : db.trust.inputs.vouches.get? obj.contentId with
        | none =>
          rw [hbefore] at hheld
          rw [← Option.some.inj hheld, ← hsame, Option.getD_none, hissuer, hunrevoked.1,
            hunrevoked.2, ← hfamily]
          exact hstored
        | some before =>
          obtain ⟨wire, hwire, -⟩ := h.vouches _ _ hbefore
          rw [hnew] at hwire
          cases hwire
      · exact (hkept _ _ _ _ _ (h.vouches contentId held hheld)).store
  | signalRevoked target row hpayload hrow _ hvouches hsignals =>
    rw [carryObject_revocation hpayload]
    obtain ⟨wire, hwire, -, hnone, hfamily⟩ := target_of_admitted hadmitted hpayload
    have hcarried := h.signals target row hrow
    obtain ⟨hissuer, hby, hat⟩ := @SignalRow.revoke_unrevoked now row obj.contentId
      (hcarried.unrevoked hwire hnone)
    constructor
    · intro contentId held hheld
      rw [storeWireObject_trust, revokeWireObject_trust, hsignals, get?_set] at hheld
      apply Carries.store
      split at hheld
      · rename_i hsame
        rw [← Option.some.inj hheld, hissuer, hby, hat, ← hsame]
        exact (hkept _ _ _ _ _ hcarried).revoke
      · rename_i hother
        exact (hkept _ _ _ _ _ (h.signals contentId held hheld)).revoke_other (Ne.symm hother)
    · intro contentId held hheld
      rw [storeWireObject_trust, revokeWireObject_trust, hvouches] at hheld
      apply Carries.store
      have hcarries := h.vouches contentId held hheld
      apply (hkept _ _ _ _ _ hcarries).revoke_other
      intro hsame
      rw [hsame] at hcarries
      rw [hcarries.family_eq hwire] at hfamily
      cases hfamily
  | vouchRevoked target row hpayload hrow _ hsignals hvouches =>
    rw [carryObject_revocation hpayload]
    obtain ⟨wire, hwire, -, hnone, hfamily⟩ := target_of_admitted hadmitted hpayload
    have hcarried := h.vouches target row hrow
    obtain ⟨hissuer, hby, hat⟩ := @VouchRow.revoke_unrevoked now row obj.contentId
      (hcarried.unrevoked hwire hnone)
    constructor
    · intro contentId held hheld
      rw [storeWireObject_trust, revokeWireObject_trust, hsignals] at hheld
      apply Carries.store
      have hcarries := h.signals contentId held hheld
      apply (hkept _ _ _ _ _ hcarries).revoke_other
      intro hsame
      rw [hsame] at hcarries
      rw [hcarries.family_eq hwire] at hfamily
      cases hfamily
    · intro contentId held hheld
      rw [storeWireObject_trust, revokeWireObject_trust, hvouches, get?_set] at hheld
      apply Carries.store
      split at hheld
      · rename_i hsame
        rw [← Option.some.inj hheld, hissuer, hby, hat, ← hsame]
        exact (hkept _ _ _ _ _ hcarried).revoke
      · rename_i hother
        exact (hkept _ _ _ _ _ (h.vouches contentId held hheld)).revoke_other (Ne.symm hother)

variable {keys : KnownKeys}

/-- What can be read in the trust tables of an object. -/
inductive Fact where
  | signal (contentId : String)
  | vouch (contentId : String)
  | signalRevoked (contentId : String)
  | vouchRevoked (contentId : String)

def Fact.Holds (inputs : TrustInputs) : Fact → Prop
  | .signal contentId => ∃ row, inputs.signals.get? contentId = some row
  | .vouch contentId => ∃ row, inputs.vouches.get? contentId = some row
  | .signalRevoked contentId =>
    ∃ row, inputs.signals.get? contentId = some row ∧ row.revokedAt ≠ none
  | .vouchRevoked contentId =>
    ∃ row, inputs.vouches.get? contentId = some row ∧ row.revokedAt ≠ none

private theorem revoke_signal_ne_none {row : SignalRow} :
    (row.revoke revocation now).revokedAt ≠ none := by
  unfold SignalRow.revoke
  split
  · simp
  · assumption

private theorem revoke_vouch_ne_none {row : VouchRow} :
    (row.revoke revocation now).revokedAt ≠ none := by
  unfold VouchRow.revoke
  split
  · simp
  · assumption

private theorem kept_setDefault {υ : Type} {rows : Dict String υ} {contentId key : String}
    {row new : υ} (h : rows.get? key = some row) :
    (rows.setDefault contentId new).get? key = some row := by
  rw [get?_setDefault]
  split
  · rename_i hsame
    rw [hsame, h]
    rfl
  · exact h

variable {fact : Fact}

theorem AppliedTo.grows {before : TrustInputs}
    (h : AppliedTo now obj before after) (hfact : fact.Holds before) : fact.Holds after := by
  cases h with
  | signal row _ _ _ _ hvouches hsignals =>
    cases fact with
    | vouch contentId | vouchRevoked contentId =>
      simp only [Fact.Holds, hvouches]
      exact hfact
    | signal contentId =>
      obtain ⟨held, hheld⟩ := hfact
      exact ⟨held, by rw [hsignals]; exact kept_setDefault hheld⟩
    | signalRevoked contentId =>
      obtain ⟨held, hheld, hrevoked⟩ := hfact
      exact ⟨held, by rw [hsignals]; exact kept_setDefault hheld, hrevoked⟩
  | vouch row _ _ _ _ hsignals hvouches =>
    cases fact with
    | signal contentId | signalRevoked contentId =>
      simp only [Fact.Holds, hsignals]
      exact hfact
    | vouch contentId =>
      obtain ⟨held, hheld⟩ := hfact
      exact ⟨held, by rw [hvouches]; exact kept_setDefault hheld⟩
    | vouchRevoked contentId =>
      obtain ⟨held, hheld, hrevoked⟩ := hfact
      exact ⟨held, by rw [hvouches]; exact kept_setDefault hheld, hrevoked⟩
  | signalRevoked target row _ _ _ hvouches hsignals =>
    cases fact with
    | vouch contentId | vouchRevoked contentId =>
      simp only [Fact.Holds, hvouches]
      exact hfact
    | signal contentId =>
      obtain ⟨held, hheld⟩ := hfact
      simp only [Fact.Holds, hsignals, get?_set]
      split
      · exact ⟨_, rfl⟩
      · exact ⟨held, hheld⟩
    | signalRevoked contentId =>
      obtain ⟨held, hheld, hrevoked⟩ := hfact
      simp only [Fact.Holds, hsignals, get?_set]
      split
      · exact ⟨_, rfl, revoke_signal_ne_none⟩
      · exact ⟨held, hheld, hrevoked⟩
  | vouchRevoked target row _ _ _ hsignals hvouches =>
    cases fact with
    | signal contentId | signalRevoked contentId =>
      simp only [Fact.Holds, hsignals]
      exact hfact
    | vouch contentId =>
      obtain ⟨held, hheld⟩ := hfact
      simp only [Fact.Holds, hvouches, get?_set]
      split
      · exact ⟨_, rfl⟩
      · exact ⟨held, hheld⟩
    | vouchRevoked contentId =>
      obtain ⟨held, hheld, hrevoked⟩ := hfact
      simp only [Fact.Holds, hvouches, get?_set]
      split
      · exact ⟨_, rfl, revoke_vouch_ne_none⟩
      · exact ⟨held, hheld, hrevoked⟩

theorem AppliedTo.news (hconsistent : Consistent db)
    (hadmitted : judgeObject host now db obj = .ok .admitted) (h : AppliedTo now obj db.trust.inputs after) :
    ∃ fact : Fact, fact.Holds after ∧ ¬fact.Holds db.trust.inputs := by
  obtain ⟨reporter, hscreen, -⟩ := checked_of_admitted hadmitted
  have hnew := new_of_screened hscreen
  cases h with
  | signal row _ _ _ _ _ hsignals =>
    refine ⟨.signal obj.contentId, ?_, ?_⟩
    · simp only [Fact.Holds, hsignals, get?_setDefault, if_true]
      exact ⟨_, rfl⟩
    · intro hheld
      obtain ⟨held, hheld⟩ := hheld
      obtain ⟨wire, hwire, -⟩ := hconsistent.signals _ _ hheld
      rw [hnew] at hwire
      cases hwire
  | vouch row _ _ _ _ _ hvouches =>
    refine ⟨.vouch obj.contentId, ?_, ?_⟩
    · simp only [Fact.Holds, hvouches, get?_setDefault, if_true]
      exact ⟨_, rfl⟩
    · intro hheld
      obtain ⟨held, hheld⟩ := hheld
      obtain ⟨wire, hwire, -⟩ := hconsistent.vouches _ _ hheld
      rw [hnew] at hwire
      cases hwire
  | signalRevoked target row hpayload hrow _ _ hsignals =>
    obtain ⟨wire, hwire, -, hnone, -⟩ := target_of_admitted hadmitted hpayload
    refine ⟨.signalRevoked target, ?_, ?_⟩
    · simp only [Fact.Holds, hsignals, get?_set_self]
      exact ⟨_, rfl, revoke_signal_ne_none⟩
    · intro hheld
      obtain ⟨held, hheld, hrevoked⟩ := hheld
      exact hrevoked ((hconsistent.signals _ _ hheld).unrevoked hwire hnone)
  | vouchRevoked target row hpayload hrow _ _ hvouches =>
    obtain ⟨wire, hwire, -, hnone, -⟩ := target_of_admitted hadmitted hpayload
    refine ⟨.vouchRevoked target, ?_, ?_⟩
    · simp only [Fact.Holds, hvouches, get?_set_self]
      exact ⟨_, rfl, revoke_vouch_ne_none⟩
    · intro hheld
      obtain ⟨held, hheld, hrevoked⟩ := hheld
      exact hrevoked ((hconsistent.vouches _ _ hheld).unrevoked hwire hnone)

variable {result : TrustIngestResult} {batch : List SignedTrustObject}

def NoneApplied (host : WireHost) (now : Instant) : WireDb → List SignedTrustObject → Prop
  | _, [] => True
  | db, obj :: rest =>
    obj.reach host now db = .raises ∨
      (obj.reach host now db = .leaves ∧ NoneApplied host now db rest) ∨
        (obj.reach host now db = .carries ∧ NoneApplied host now (carryObject now db obj) rest)

theorem ingestEach_cons_ok {obj : SignedTrustObject}
    {result' : TrustIngestResult} (h : ingestObject host now keys result obj c = .ok result' c') :
    ingestEach host now keys result (obj :: batch) c = ingestEach host now keys result' batch c' := by
  rw [ingestEach, Connection.bind_ok h]

theorem ingestEach_cons_error {obj : SignedTrustObject}
    (h : ingestObject host now keys result obj c = .error e c') :
    ingestEach host now keys result (obj :: batch) c = .error e c' := by
  rw [ingestEach, Connection.bind_error h]

theorem ingestEach_noneApplied {c c' : Connection WireDb} {e : IngestError}
    (h : NoneApplied host now c.working batch)
    (hrun : ingestEach host now keys result batch c = .error e c') :
    c'.committed = c.committed := by
  induction batch generalizing c result with
  | nil => cases hrun
  | cons obj rest ih =>
    rcases h with hreach | ⟨hreach, hrest⟩ | ⟨hreach, hrest⟩
    · obtain ⟨e', after, hobj, hcommitted⟩ := @ingestObject_raises host now keys obj c result hreach
      rw [ingestEach_cons_error hobj] at hrun
      injection hrun with _ hafter
      rw [← hafter, hcommitted]
    · obtain ⟨result', hobj⟩ := @ingestObject_leaves host now keys obj c result hreach
      rw [ingestEach_cons_ok hobj] at hrun
      exact ih hrest hrun
    · obtain ⟨result', hobj⟩ := @ingestObject_carries host now keys obj c result hreach
      rw [ingestEach_cons_ok hobj] at hrun
      exact ih (c := ⟨c.committed, carryObject now c.working obj⟩) hrest hrun

theorem ingestEach_keeps
    (hcommitted : fact.Holds c.committed.trust.inputs) (hworking : fact.Holds c.working.trust.inputs)
    (hrun : ingestEach host now keys result batch c = .error e c') :
    fact.Holds c'.committed.trust.inputs := by
  induction batch generalizing c result with
  | nil => cases hrun
  | cons obj rest ih =>
    cases hreach : obj.reach host now c.working with
    | raises =>
      obtain ⟨e', after, hobj, hsame⟩ := @ingestObject_raises host now keys obj c result hreach
      rw [ingestEach_cons_error hobj] at hrun
      injection hrun with _ hafter
      rw [← hafter, hsame]
      exact hcommitted
    | leaves =>
      obtain ⟨result', hobj⟩ := @ingestObject_leaves host now keys obj c result hreach
      rw [ingestEach_cons_ok hobj] at hrun
      exact ih hcommitted hworking hrun
    | carries =>
      obtain ⟨result', hobj⟩ := @ingestObject_carries host now keys obj c result hreach
      rw [ingestEach_cons_ok hobj] at hrun
      apply ih (c := ⟨c.committed, carryObject now c.working obj⟩) hcommitted _ hrun
      rw [carryObject_trust]
      exact hworking
    | applies =>
      obtain ⟨result', trust, happlied, hobj⟩ :=
        @ingestObject_applies host now keys obj c result hreach
      rw [ingestEach_cons_ok hobj] at hrun
      apply ih (happlied.grows hworking) _ hrun
      rw [carryObject_trust]
      exact happlied.grows hworking

theorem ingestEach_applied {c c' : Connection WireDb} {e : IngestError}
    (hconsistent : Consistent c.working) (h : ¬NoneApplied host now c.working batch)
    (hrun : ingestEach host now keys result batch c = .error e c') :
    ∃ fact : Fact, fact.Holds c'.committed.trust.inputs ∧ ¬fact.Holds c.working.trust.inputs := by
  induction batch generalizing c result with
  | nil => exact absurd trivial h
  | cons obj rest ih =>
    cases hreach : obj.reach host now c.working with
    | raises => exact absurd (.inl hreach) h
    | leaves =>
      obtain ⟨result', hobj⟩ := @ingestObject_leaves host now keys obj c result hreach
      rw [ingestEach_cons_ok hobj] at hrun
      apply ih hconsistent _ hrun
      intro hrest
      exact h (.inr (.inl ⟨hreach, hrest⟩))
    | carries =>
      obtain ⟨result', hobj⟩ := @ingestObject_carries host now keys obj c result hreach
      rw [ingestEach_cons_ok hobj] at hrun
      have hlater := ih (hconsistent.carry hreach)
        (fun hrest => h (.inr (.inr ⟨hreach, hrest⟩))) hrun
      rw [carryObject_trust] at hlater
      exact hlater
    | applies =>
      obtain ⟨result', trust, happlied, hobj⟩ :=
        @ingestObject_applies host now keys obj c result hreach
      rw [ingestEach_cons_ok hobj] at hrun
      obtain ⟨fact, hfact, hnews⟩ :=
        happlied.news hconsistent (admitted_of_reach (.inr hreach))
      refine ⟨fact, ?_, hnews⟩
      apply ingestEach_keeps hfact _ hrun
      rw [carryObject_trust]
      exact hfact

structure PullInvariant (host : WireHost) (now : Instant) (P : WireDb → Prop) : Prop where
  carry : ∀ db obj, P db → obj.reach host now db = .carries → P (carryObject now db obj)
  apply : ∀ db obj trust, P db → judgeObject host now db obj = .ok .admitted →
    AppliedTo now obj db.trust.inputs trust.inputs → P (carryObject now { db with trust } obj)

theorem consistent_pullInvariant : PullInvariant host now Consistent where
  carry _ _ h hreach := h.carry hreach
  apply _ _ _ h hadmitted happlied := h.apply hadmitted happlied

theorem ingestEach_invariant {P : WireDb → Prop} {c c' : Connection WireDb}
    {result' : TrustIngestResult} (hP : PullInvariant host now P) (h : P c.working)
    (hrun : ingestEach host now keys result batch c = .ok result' c') : P c'.working := by
  induction batch generalizing c result with
  | nil =>
    injection hrun with _ hafter
    rw [← hafter]
    exact h
  | cons obj rest ih =>
    cases hreach : obj.reach host now c.working with
    | raises =>
      obtain ⟨e', after, hobj, -⟩ := @ingestObject_raises host now keys obj c result hreach
      rw [ingestEach_cons_error hobj] at hrun
      cases hrun
    | leaves =>
      obtain ⟨result'', hobj⟩ := @ingestObject_leaves host now keys obj c result hreach
      rw [ingestEach_cons_ok hobj] at hrun
      exact ih h hrun
    | carries =>
      obtain ⟨result'', hobj⟩ := @ingestObject_carries host now keys obj c result hreach
      rw [ingestEach_cons_ok hobj] at hrun
      exact ih (hP.carry _ _ h hreach) hrun
    | applies =>
      obtain ⟨result'', trust, happlied, hobj⟩ :=
        @ingestObject_applies host now keys obj c result hreach
      rw [ingestEach_cons_ok hobj] at hrun
      exact ih (hP.apply _ _ _ h (admitted_of_reach (.inr hreach)) happlied) hrun

def pull (host : WireHost) (now : Instant) (keys : KnownKeys) (batch : List SignedTrustObject)
    (db : WireDb) : Except IngestError TrustIngestResult × WireDb :=
  Connection.finish (ingestTrustObjects host now keys batch) db

def Oversized (batch : List SignedTrustObject) : Prop :=
  maxTrustObjectsPerResponse < batch.length ∨ maxTrustResponseBytes < encodedSize batch

def RefusedInTime (host : WireHost) (now : Instant) (db : WireDb) (batch : List SignedTrustObject) : Prop :=
  Oversized batch ∨ NoneApplied host now db batch

structure SameTables (a b : WireDb) : Prop where
  wireObjects : a.wireObjects = b.wireObjects
  signals : a.trust.inputs.signals = b.trust.inputs.signals
  vouches : a.trust.inputs.vouches = b.trust.inputs.vouches
  subjects : a.trust.inputs.subjects = b.trust.inputs.subjects
  effectiveStates : a.trust.effectiveStates = b.trust.effectiveStates

theorem Fact.holds_congr {a b : WireDb} (h : SameTables a b) :
    fact.Holds a.trust.inputs ↔ fact.Holds b.trust.inputs := by
  cases fact <;> simp only [Fact.Holds, h.signals, h.vouches]

theorem pull_oversized (h : Oversized batch) : (pull host now keys batch db).2 = db := by
  unfold pull ingestTrustObjects
  split
  · rfl
  · rename_i hcount
    rw [if_pos (h.resolve_left hcount)]
    rfl

theorem pull_of_size (h : ¬Oversized batch) : pull host now keys batch db =
    Connection.finish (Connection.within (ingestEach host now keys {} batch)) db := by
  unfold pull ingestTrustObjects
  rw [if_neg fun hcount => h (.inl hcount), if_neg fun hsize => h (.inr hsize)]

theorem refused_pull_iff (hconsistent : Consistent db)
    (hrefused : (pull host now keys batch db).1 = .error e) :
    SameTables (pull host now keys batch db).2 db ↔ RefusedInTime host now db batch := by
  by_cases hsize : Oversized batch
  · rw [pull_oversized hsize]
    exact ⟨fun _ => .inl hsize, fun _ => ⟨rfl, rfl, rfl, rfl, rfl⟩⟩
  · rw [pull_of_size hsize] at hrefused ⊢
    cases hrun : ingestEach host now keys {} batch (Connection.resting db) with
    | ok result c =>
      rw [Connection.finish_within_ok hrun] at hrefused
      cases hrefused
    | error e' c =>
      rw [Connection.finish_within_error hrun]
      constructor
      · intro hsame
        apply Or.inr
        by_contra hnone
        obtain ⟨fact, hholds, hnews⟩ := @ingestEach_applied host now keys {} batch
          (Connection.resting db) c e' hconsistent hnone hrun
        exact hnews ((Fact.holds_congr hsame).mp hholds)
      · intro hintime
        have hcommitted := @ingestEach_noneApplied host now keys {} batch (Connection.resting db) c e'
          (hintime.resolve_left hsize) hrun
        rw [hcommitted]
        exact ⟨rfl, rfl, rfl, rfl, rfl⟩

theorem pull_invariant {P : WireDb → Prop} (hP : PullInvariant host now P) (hdb : P db)
    (h : ∀ e, (pull host now keys batch db).1 = .error e → RefusedInTime host now db batch) :
    P (pull host now keys batch db).2 := by
  by_cases hsize : Oversized batch
  · rw [pull_oversized hsize]
    exact hdb
  · rw [pull_of_size hsize] at h ⊢
    cases hrun : ingestEach host now keys {} batch (Connection.resting db) with
    | ok result c =>
      rw [Connection.finish_within_ok hrun]
      exact @ingestEach_invariant host now keys {} batch P (Connection.resting db) c result hP hdb hrun
    | error e c =>
      rw [Connection.finish_within_error hrun] at h ⊢
      have hcommitted := @ingestEach_noneApplied host now keys {} batch (Connection.resting db) c e
        ((h e rfl).resolve_left hsize) hrun
      rw [hcommitted]
      exact hdb

end NetBBS.Trust
