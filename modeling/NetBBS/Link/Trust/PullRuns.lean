import NetBBS.Link.Trust.Pulls
import NetBBS.Link.Trust.Quarantine

/-! # Runs of a subscriber -/

namespace NetBBS.Trust

open Foundation List Option

def TrustOp.isReport : TrustOp → Bool
  | .recordTrustSignal _ | .revokeTrustSignal _ _ | .recordVouch _ | .revokeVouch _ _ => true
  | _ => false

structure OwnRevocation where
  contentId : String
  issuedAt : Instant
  ofVouch : Bool
  encodedSize : Nat

def OwnRevocation.object (revocation : OwnRevocation) (home target : String) : SignedTrustObject where
  contentId := revocation.contentId
  issuerFingerprint := home
  issuedAt := revocation.issuedAt
  payload := .revocation revocation.ofVouch target
  encodedSize := revocation.encodedSize
  valid := trivial

inductive WireOp where
  | trust (op : { op : TrustOp // op.isReport = false })
  | pull (keys : KnownKeys) (batch : List SignedTrustObject)
  | issue (obj : { obj : SignedTrustObject // obj.payload.revokes? = none })
  | retire (target : String) (revocation : OwnRevocation)
  /-- `_resign_orphaned_revocations`: the revocation of an own object is signed again. -/
  | resign (target : String) (revocation : OwnRevocation)

def WireOp.configured : WireOp → Option String
  | .trust ⟨.configureTrustedReporter fingerprint _ _ _ _ _, _⟩ => some fingerprint
  | _ => none

section Step

variable (host : WireHost) (home : String)

def isOwn (db : WireDb) (contentId : String) : Bool :=
  (db.wireObjects.get? contentId).any fun row => decide (row.issuerFingerprint = home)

def isLiveOwn (db : WireDb) (contentId : String) : Bool :=
  (db.wireObjects.get? contentId).any fun row =>
    decide (row.issuerFingerprint = home ∧ row.revoked = none)

def wireStep (db : WireDb) (op : Instant × WireOp) : WireDb :=
  match op.2 with
  | .trust trustOp => { db with trust := step host.toTrustHost db.trust (op.1, trustOp.1) }
  | .pull keys batch => (pull host op.1 keys batch db).2
  | .issue obj => storeWireObject db { obj.1 with issuerFingerprint := home }
  | .retire target revocation =>
    if isLiveOwn home db target = true then
      revokeWireObject (storeWireObject db (revocation.object home target)) target
        revocation.contentId op.1
    else db
  | .resign target revocation =>
    if isOwn home db target = true then storeWireObject db (revocation.object home target) else db

def wireRun (run : List (Instant × WireOp)) : WireDb :=
  run.foldl (wireStep host home) { trust := emptyDb }

def RefusalsInTime (run : List (Instant × WireOp)) : Prop :=
  ∀ before now keys batch after, run = before ++ (now, .pull keys batch) :: after →
    ∀ e, (pull host now keys batch (wireRun host home before)).1 = .error e →
      RefusedInTime host now (wireRun host home before) batch

def RefusalsTraceless (run : List (Instant × WireOp)) : Prop :=
  ∀ before now keys batch after, run = before ++ (now, .pull keys batch) :: after →
    ∀ e, (pull host now keys batch (wireRun host home before)).1 = .error e →
      SameTables (pull host now keys batch (wireRun host home before)).2 (wireRun host home before)

end Step

section Reports

variable {host : TrustHost} {db after : TrustDb} {now : Instant} {home : String}

structure ReportsKept (home : String) (a b : TrustInputs) : Prop where
  signals : ∀ contentId row, b.signals.get? contentId = some row →
    ∃ held, a.signals.get? contentId = some held ∧
      row.issuerFingerprint = held.issuerFingerprint ∧ row.revokedBy = held.revokedBy ∧
      row.revokedAt = held.revokedAt
  vouches : ∀ contentId row, b.vouches.get? contentId = some row →
    ∃ held, a.vouches.get? contentId = some held ∧
      row.issuerFingerprint = held.issuerFingerprint ∧ row.revokedBy = held.revokedBy ∧
      row.revokedAt = held.revokedAt
  reporters : b.reporters.contains home = true → a.reporters.contains home = true

variable {a inputs : TrustInputs} {contentId : String}

theorem ReportsKept.of_eq {b : TrustInputs} (hsignals : b.signals = a.signals)
    (hvouches : b.vouches = a.vouches)
    (hreporters : b.reporters.contains home = true → a.reporters.contains home = true) :
    ReportsKept home a b := by
  constructor
  · intro contentId row hrow
    rw [hsignals] at hrow
    exact ⟨row, hrow, rfl, rfl, rfl⟩
  · intro contentId row hrow
    rw [hvouches] at hrow
    exact ⟨row, hrow, rfl, rfl, rfl⟩
  · exact hreporters

theorem ReportsKept.refl : ReportsKept home a a := .of_eq rfl rfl id

variable {actor : Option Nat} {fingerprint : String}

theorem ReportsKept.changed {subject : TrustSubject}
    (hsignals : inputs.signals = db.inputs.signals) (hvouches : inputs.vouches = db.inputs.vouches)
    (hreporters : inputs.reporters = db.inputs.reporters) :
    ReportsKept home db.inputs (changeInputs host db inputs subject now actor).inputs := by
  rw [changeInputs_inputs]
  exact .of_eq hsignals hvouches (by rw [hreporters]; exact id)

theorem ReportsKept.policy
    (hsignals : inputs.signals = db.inputs.signals) (hvouches : inputs.vouches = db.inputs.vouches)
    (hreporters : inputs.reporters.contains home = true → db.inputs.reporters.contains home = true) :
    ReportsKept home db.inputs (recomputeAll host { db with inputs } now actor).inputs := by
  rw [recomputeAll_inputs]
  exact .of_eq hsignals hvouches hreporters

private theorem get?_of_filter {υ : Type} {rows : Dict String υ} {keep : String × υ → Bool}
    {row : υ} (h : (rows.filter keep).get? contentId = some row) :
    rows.get? contentId = some row := by
  rw [Dict.get?_eq_some] at h ⊢
  exact mem_of_mem_filter h

theorem markSignalEvidenceVerified_kept : ReportsKept home db.inputs
    (markSignalEvidenceVerified host db contentId now).2.inputs := by
  unfold markSignalEvidenceVerified
  split
  · rename_i row hrow
    split
    · rw [changeInputs_inputs]
      constructor
      · intro key held hheld
        simp only [Dict.get?_set] at hheld
        split at hheld
        · rename_i hsame
          rw [← Option.some.inj hheld, ← hsame]
          exact ⟨row, hrow, rfl, rfl, rfl⟩
        · exact ⟨held, hheld, rfl, rfl, rfl⟩
      · exact fun key held hheld => ⟨held, hheld, rfl, rfl, rfl⟩
      · exact id
    · exact .refl
  · exact .refl

theorem maintainTrustState_kept {retentionDays : Nat}
    (h : maintainTrustState host db retentionDays now = .ok after) :
    ReportsKept home db.inputs after.inputs := by
  simp only [maintainTrustState, bind_eq_ok, pure_eq_ok] at h
  obtain ⟨_, -, rfl⟩ := h
  simp only [recomputeAll_inputs]
  constructor
  · exact fun contentId row hrow => ⟨row, get?_of_filter hrow, rfl, rfl, rfl⟩
  · exact fun contentId row hrow => ⟨row, get?_of_filter hrow, rfl, rfl, rfl⟩
  · exact id

theorem forgetUntouchedNodeSubject_kept : ReportsKept home db.inputs
    (forgetUntouchedNodeSubject db fingerprint).2.inputs := by
  unfold forgetUntouchedNodeSubject
  simp only
  split
  · exact .refl
  · exact .of_eq rfl rfl id

theorem mergeRenamedUserSubject_kept {old new : TrustSubject} : ReportsKept home db.inputs
    (mergeRenamedUserSubject host db old new now).inputs := by
  unfold mergeRenamedUserSubject
  split
  · exact .refl
  · rename_i oldRow hold
    rw [recomputeSubject_inputs]
    constructor
    · intro contentId row hrow
      simp only [movedTables, Dict.get?_mapValues, map_eq_some_iff] at hrow
      obtain ⟨held, hheld, rfl⟩ := hrow
      exact ⟨held, hheld, rfl, rfl, rfl⟩
    · intro contentId row hrow
      simp only [movedTables, Dict.get?_mapValues, map_eq_some_iff] at hrow
      obtain ⟨held, hheld, rfl⟩ := hrow
      exact ⟨held, hheld, rfl, rfl, rfl⟩
    · exact id

theorem configureTrustedReporter_kept {domainId : String}
    {scopes : List (TrustDimension × String)} {nodes users : Bool} (hother : fingerprint ≠ home)
    (h : configureTrustedReporter host db fingerprint domainId scopes nodes users now actor =
      .ok after) : ReportsKept home db.inputs after.inputs := by
  simp only [configureTrustedReporter, bind_eq_ok, pure_eq_ok] at h
  obtain ⟨_, -, _, -, rfl⟩ := h
  apply ReportsKept.policy
  · rfl
  · rfl
  · intro hcontains
    simpa [withoutScopes, hother] using hcontains

theorem removeTrustedReporter_kept
    (h : removeTrustedReporter host db fingerprint now actor = .ok after) :
    ReportsKept home db.inputs after.inputs := by
  simp only [removeTrustedReporter, bind_eq_ok, pure_eq_ok] at h
  obtain ⟨_, -, rfl⟩ := h
  apply ReportsKept.policy
  · rfl
  · rfl
  · intro hcontains
    simp only [Dict.contains, Dict.get?_erase] at hcontains ⊢
    split at hcontains
    · cases hcontains
    · exact hcontains

theorem TrustOp.reportsKept {op : TrustOp} (hreport : op.isReport = false)
    (hself : ∀ fingerprint domainId scopes nodes users actor,
      op = .configureTrustedReporter fingerprint domainId scopes nodes users actor → fingerprint ≠ home)
    (h : op.apply host db now = .ok after) : ReportsKept home db.inputs after.inputs := by
  cases op with
  | registerSubject subject first =>
    simp only [TrustOp.apply, Trust.registerSubject, bind_eq_ok, pure_eq_ok] at h
    obtain ⟨_, -, rfl⟩ := h
    exact .changed (.refl _) (.refl _) (.refl _)
  | recordActivity subject date direct =>
    simp only [TrustOp.apply, Trust.recordActivity, bind_eq_ok, pure_eq_ok] at h
    obtain ⟨_, -, _, -, rfl⟩ := h
    exact .changed (.refl _) (.refl _) (.refl _)
  | configureTrustDomain domainId name weight actor =>
    simp only [TrustOp.apply, Trust.configureTrustDomain, bind_eq_ok] at h
    obtain ⟨_, -, h⟩ := h
    split at h
    · rw [← (pure_eq_ok _ _).mp h]
      exact .policy (.refl _) (.refl _) id
    · cases h
  | configureTrustedReporter fingerprint domainId scopes nodes users actor =>
    exact configureTrustedReporter_kept (hself _ _ _ _ _ _ rfl) h
  | removeTrustedReporter fingerprint actor => exact removeTrustedReporter_kept h
  | configureSoleAuthority fingerprint dimension category reason actor =>
    simp only [TrustOp.apply, Trust.configureSoleAuthority, bind_eq_ok, pure_eq_ok] at h
    obtain ⟨_, -, _, -, _, -, rfl⟩ := h
    exact .policy (.refl _) (.refl _) id
  | removeSoleAuthority fingerprint dimension category actor =>
    simp only [TrustOp.apply, Trust.removeSoleAuthority, bind_eq_ok, pure_eq_ok] at h
    obtain ⟨_, -, rfl⟩ := h
    exact .policy (.refl _) (.refl _) id
  | recordTrustSignal report => cases hreport
  | markSignalEvidenceVerified contentId =>
    obtain rfl := Except.ok.inj h
    exact markSignalEvidenceVerified_kept
  | revokeTrustSignal contentId revocation => cases hreport
  | recordVouch report => cases hreport
  | revokeVouch contentId revocation => cases hreport
  | setTrustOverride subject dimension state reason expiresAt actor =>
    obtain ⟨done, hdone, rfl⟩ := (map_eq_ok _ _ _).mp h
    simp only [Trust.setTrustOverride, bind_eq_ok, pure_eq_ok] at hdone
    obtain ⟨_, -, _, -, _, -, rfl⟩ := hdone
    exact .changed (.refl _) (.refl _) (.refl _)
  | clearTrustOverride overrideId actor =>
    simp only [TrustOp.apply, Trust.clearTrustOverride, bind_eq_ok, pure_eq_ok] at h
    obtain ⟨_, -, rfl⟩ := h
    exact .changed (.refl _) (.refl _) (.refl _)
  | recordLocalObservation report =>
    obtain ⟨done, hdone, rfl⟩ := (map_eq_ok _ _ _).mp h
    simp only [Trust.recordLocalObservation, bind_eq_ok] at hdone
    obtain ⟨_, -, _, -, _, -, hdone⟩ := hdone
    split at hdone
    · rw [← (pure_eq_ok _ _).mp hdone]
      exact .refl
    · rw [← (pure_eq_ok _ _).mp hdone]
      exact .changed (.refl _) (.refl _) (.refl _)
  | clearLocalObservation observationId =>
    simp only [TrustOp.apply, Trust.clearLocalObservation, bind_eq_ok, pure_eq_ok] at h
    obtain ⟨_, -, rfl⟩ := h
    exact .changed (.refl _) (.refl _) (.refl _)
  | recomputeAllTrustStates =>
    obtain rfl := Except.ok.inj h
    rw [recomputeAllTrustStates_inputs]
    exact .refl
  | maintainTrustState retentionDays => exact maintainTrustState_kept h
  | forgetUntouchedNodeSubject fingerprint =>
    obtain rfl := Except.ok.inj h
    exact forgetUntouchedNodeSubject_kept
  | mergeRenamedUserSubject old new =>
    obtain rfl := Except.ok.inj h
    exact mergeRenamedUserSubject_kept

end Reports

section Subscribed

variable {host : WireHost} {home : String} {db : WireDb} {now : Instant}

structure FromOthers (home : String) (db : WireDb) : Prop where
  reporters : db.trust.inputs.reporters.contains home = false
  signals : ∀ contentId row, db.trust.inputs.signals.get? contentId = some row →
    row.issuerFingerprint ≠ home
  vouches : ∀ contentId row, db.trust.inputs.vouches.get? contentId = some row →
    row.issuerFingerprint ≠ home

theorem FromOthers.of_trust {db' : WireDb} (h : FromOthers home db) (hsame : db'.trust = db.trust) :
    FromOthers home db' := by
  constructor
  · rw [hsame]
    exact h.reporters
  · rw [hsame]
    exact h.signals
  · rw [hsame]
    exact h.vouches

variable {contentId : String} {trust : TrustDb}

private theorem issuer_of_setDefault {υ : Type} {rows : Dict String υ} {key : String}
    {row new : υ} (h : (rows.setDefault contentId new).get? key = some row) :
    row = new ∨ ∃ held, rows.get? held = some row := by
  rw [Dict.get?_setDefault] at h
  split at h
  · cases hheld : rows.get? contentId with
    | none =>
      rw [hheld] at h
      exact .inl (Option.some.inj h).symm
    | some held =>
      rw [hheld] at h
      exact .inr ⟨contentId, hheld.trans h⟩
  · exact .inr ⟨key, h⟩

variable {revocation : String}

theorem SignalRow.revoke_issuer {row : SignalRow} :
    (row.revoke revocation now).issuerFingerprint = row.issuerFingerprint := by
  unfold SignalRow.revoke
  split <;> rfl

theorem VouchRow.revoke_issuer {row : VouchRow} :
    (row.revoke revocation now).issuerFingerprint = row.issuerFingerprint := by
  unfold VouchRow.revoke
  split <;> rfl

theorem fromOthers_pullInvariant : PullInvariant host now (FromOthers home) where
  carry _ _ h _ := h.of_trust (carryObject_trust _)
  apply db obj trust h hadmitted happlied := by
    obtain ⟨reporter, hscreen, -⟩ := checked_of_admitted hadmitted
    obtain ⟨listed, hlisted⟩ := reporter_of_screened hscreen
    have hissuer : obj.issuerFingerprint ≠ home := by
      intro hsame
      have hnone := (Dict.contains_eq_false _ _).mp h.reporters
      rw [← hsame, hlisted] at hnone
      cases hnone
    have hto : FromOthers home { db with trust } := by
      cases happlied with
      | signal row _ hrow _ hreporters hvouches hsignals =>
        constructor
        · exact hreporters ▸ h.reporters
        · intro contentId held hheld
          rw [hsignals] at hheld
          rcases issuer_of_setDefault hheld with rfl | ⟨key, hkey⟩
          · exact hrow ▸ hissuer
          · exact h.signals key held hkey
        · exact hvouches ▸ h.vouches
      | vouch row _ hrow _ hreporters hsignals hvouches =>
        constructor
        · exact hreporters ▸ h.reporters
        · exact hsignals ▸ h.signals
        · intro contentId held hheld
          rw [hvouches] at hheld
          rcases issuer_of_setDefault hheld with rfl | ⟨key, hkey⟩
          · exact hrow ▸ hissuer
          · exact h.vouches key held hkey
      | signalRevoked target row _ hrow hreporters hvouches hsignals =>
        constructor
        · exact hreporters ▸ h.reporters
        · intro contentId held hheld
          rw [hsignals, Dict.get?_set] at hheld
          split at hheld
          · rw [← Option.some.inj hheld, SignalRow.revoke_issuer]
            exact h.signals target row hrow
          · exact h.signals contentId held hheld
        · exact hvouches ▸ h.vouches
      | vouchRevoked target row _ hrow hreporters hsignals hvouches =>
        constructor
        · exact hreporters ▸ h.reporters
        · exact hsignals ▸ h.signals
        · intro contentId held hheld
          rw [hvouches, Dict.get?_set] at hheld
          split at hheld
          · rw [← Option.some.inj hheld, VouchRow.revoke_issuer]
            exact h.vouches target row hrow
          · exact h.vouches contentId held hheld
    exact hto.of_trust (carryObject_trust _)

theorem Consistent.reportsKept (h : Consistent db)
    (hkept : ReportsKept home db.trust.inputs trust.inputs) : Consistent { db with trust } := by
  constructor
  · intro contentId row hrow
    obtain ⟨held, hheld, hissuer, hby, hat⟩ := hkept.signals contentId row hrow
    rw [hissuer, hby, hat]
    exact h.signals contentId held hheld
  · intro contentId row hrow
    obtain ⟨held, hheld, hissuer, hby, hat⟩ := hkept.vouches contentId row hrow
    rw [hissuer, hby, hat]
    exact h.vouches contentId held hheld

theorem FromOthers.reportsKept (h : FromOthers home db)
    (hkept : ReportsKept home db.trust.inputs trust.inputs) : FromOthers home { db with trust } := by
  constructor
  · apply Bool.eq_false_iff.mpr
    intro hcontains
    have hbefore := hkept.reporters hcontains
    rw [h.reporters] at hbefore
    cases hbefore
  · intro contentId row hrow
    obtain ⟨held, hheld, hissuer, -⟩ := hkept.signals contentId row hrow
    rw [hissuer]
    exact h.signals contentId held hheld
  · intro contentId row hrow
    obtain ⟨held, hheld, hissuer, -⟩ := hkept.vouches contentId row hrow
    rw [hissuer]
    exact h.vouches contentId held hheld

theorem Consistent.store {obj : SignedTrustObject} (h : Consistent db) :
    Consistent (storeWireObject db obj) := by
  constructor
  · intro contentId row hrow
    exact (h.signals contentId row hrow).store
  · intro contentId row hrow
    exact (h.vouches contentId row hrow).store

theorem Consistent.retire {wire : WireRow} (h : Consistent db)
    (hothers : FromOthers home db) (hwire : db.wireObjects.get? contentId = some wire)
    (hown : wire.issuerFingerprint = home) :
    Consistent (revokeWireObject db contentId revocation now) := by
  have hother : ∀ key family issuer by' at', issuer ≠ home → Carries db key family issuer by' at' →
      key ≠ contentId := by
    intro key family issuer by' at' hissuer hcarries hsame
    obtain ⟨row, hrow, -, hrowIssuer, -⟩ := hcarries
    rw [hsame, hwire] at hrow
    rw [← Option.some.inj hrow, hown] at hrowIssuer
    exact hissuer hrowIssuer.symm
  constructor
  · intro key row hrow
    rw [revokeWireObject_trust] at hrow
    have hcarries := h.signals key row hrow
    exact hcarries.revoke_other (hother _ _ _ _ _ (hothers.signals key row hrow) hcarries)
  · intro key row hrow
    rw [revokeWireObject_trust] at hrow
    have hcarries := h.vouches key row hrow
    exact hcarries.revoke_other (hother _ _ _ _ _ (hothers.vouches key row hrow) hcarries)

end Subscribed

section Runs

variable {host : WireHost} {home : String} {db : WireDb} {op : Instant × WireOp}

theorem wireRun_snoc {run : List (Instant × WireOp)} :
    wireRun host home (run ++ [op]) = wireStep host home (wireRun host home run) op := by
  unfold wireRun
  rw [foldl_append]
  rfl

private theorem trustStep_kept {op : { op : TrustOp // op.isReport = false }} {now : Instant}
    (hself : (WireOp.trust op).configured ≠ some home) (trust : TrustDb) :
    ReportsKept home trust.inputs (step host.toTrustHost trust (now, op.1)).inputs := by
  unfold step
  split
  · rename_i after hafter
    apply TrustOp.reportsKept op.2 _ hafter
    intro fingerprint domainId scopes nodes users actor hop hsame
    apply hself
    obtain ⟨trustOp, hreport⟩ := op
    obtain rfl := hop
    rw [WireOp.configured, hsame]
  · exact .refl

theorem wireStep_kept (hconsistent : Consistent db)
    (hothers : FromOthers home db) (hself : op.2.configured ≠ some home)
    (hintime : ∀ keys batch, op.2 = .pull keys batch → ∀ e,
      (pull host op.1 keys batch db).1 = .error e → RefusedInTime host op.1 db batch) :
    Consistent (wireStep host home db op) ∧ FromOthers home (wireStep host home db op) := by
  obtain ⟨now, op⟩ := op
  cases op with
  | trust trustOp =>
    have hkept := @trustStep_kept host home trustOp now hself db.trust
    exact ⟨hconsistent.reportsKept hkept, hothers.reportsKept hkept⟩
  | pull keys batch =>
    exact ⟨pull_invariant consistent_pullInvariant hconsistent (hintime keys batch rfl),
      pull_invariant fromOthers_pullInvariant hothers (hintime keys batch rfl)⟩
  | issue obj => exact ⟨hconsistent.store, hothers.of_trust rfl⟩
  | resign target revocation =>
    unfold wireStep
    simp only
    split
    · exact ⟨hconsistent.store, hothers.of_trust rfl⟩
    · exact ⟨hconsistent, hothers⟩
  | retire target revocation =>
    unfold wireStep
    simp only
    split
    · rename_i hlive
      obtain ⟨wire, hwire, hown⟩ := (any_eq_true _ _).mp hlive
      have hstored : Carries (storeWireObject db (revocation.object home target)) target
          wire.objectType wire.issuerFingerprint (wire.revoked.map Revocation.revokedBy)
          (wire.revoked.map Revocation.revokedAt) :=
        Carries.store ⟨wire, hwire, rfl, rfl, rfl, rfl⟩
      obtain ⟨held, hheld, -, hissuer, -⟩ := hstored
      constructor
      · apply hconsistent.store.retire (hothers.of_trust rfl) hheld
        rw [hissuer]
        exact (of_decide_eq_true hown).1
      · apply hothers.of_trust
        rw [revokeWireObject_trust]
        rfl
    · exact ⟨hconsistent, hothers⟩

theorem wireRun_kept {run : List (Instant × WireOp)} (hself : ∀ op ∈ run, op.2.configured ≠ some home)
    (hintime : RefusalsInTime host home run) :
    Consistent (wireRun host home run) ∧ FromOthers home (wireRun host home run) := by
  induction run using List.reverseRecOn with
  | nil =>
    constructor
    · constructor
      · intro contentId row hrow
        cases hrow
      · intro contentId row hrow
        cases hrow
    · constructor
      · rfl
      · intro contentId row hrow
        cases hrow
      · intro contentId row hrow
        cases hrow
  | append_singleton run op ih =>
    obtain ⟨hconsistent, hothers⟩ := ih (fun op hop => hself op (mem_append_left _ hop))
      (fun before now keys batch after hsplit =>
        hintime before now keys batch (after ++ [op]) (by rw [hsplit]; simp))
    rw [wireRun_snoc]
    apply wireStep_kept hconsistent hothers (hself op (by simp))
    intro keys batch hpull e hrefused
    apply hintime run op.1 keys batch [] _ e hrefused
    rw [← hpull]

end Runs

section Cases

def plainWireHost : WireHost where
  toTrustHost := plainHost
  isoText _ := "2026"

def vouchOf (issuer contentId : String) : SignedTrustObject where
  contentId := contentId
  issuerFingerprint := issuer
  issuedAt := days 1
  payload := .vouch (.user "home" "user") ⟨"2027", days 100⟩
  encodedSize := 500
  valid := Nat.mul_lt_mul_of_pos_right (by decide : (1 : Nat) < 100) (by decide)

def listeningRun : List (Instant × WireOp) :=
  [(days 1, .trust ⟨.configureTrustDomain "domain" "Domain" 1 none, rfl⟩),
   (days 1, .trust ⟨.configureTrustedReporter "z" "domain" [] false true none, rfl⟩)]

/-- The second vouch is refused, after the first was applied. -/
def strangerBatch : List SignedTrustObject := [vouchOf "z" "first", vouchOf "stranger" "second"]

def strangerRun : List (Instant × WireOp) :=
  listeningRun ++ [(days 1, .pull (fun _ => none) strangerBatch)]

private theorem strangerRun_configures : ∀ op ∈ strangerRun, op.2.configured ≠ some "me" := by
  intro op hop
  have hconfigured : op.2.configured = none ∨ op.2.configured = some "z" := by
    rcases mem_append.mp hop with hop | hop
    · rcases mem_cons.mp hop with rfl | hop
      · exact .inl rfl
      · obtain rfl := mem_singleton.mp hop
        exact .inr rfl
    · obtain rfl := mem_singleton.mp hop
      exact .inl rfl
  rcases hconfigured with h | h
  · rw [h]
    simp
  · rw [h]
    simp

def PullsTraceless (host : WireHost) (home : String) : Prop :=
  ∀ run : List (Instant × WireOp), (∀ op ∈ run, op.2.configured ≠ some home) →
    RefusalsTraceless host home run ∧
      ∀ before after, run = before ++ after → Consistent (wireRun host home before)

end Cases

end NetBBS.Trust
