import NetBBS.Link.Trust.Recomputed
import NetBBS.Link.Trust.Wire

/-! # What an object does to the tables -/

namespace NetBBS.Trust

open Foundation Dict

/-- What the loop does with an object. -/
inductive Reach where
  | raises
  | leaves
  | carries
  | applies

section Reach

variable (host : WireHost) (now : Instant)

/-- What the loop does with an object it admits. -/
def TrustPayload.reach (trust : TrustDb) : TrustPayload → Reach
  | signal payload =>
    match payload.evidence with
    | .embedded _ => .applies
    | .digest => .carries
  | vouch _ _ => .applies
  | revocation true target =>
    if trust.inputs.vouches.contains target = true then .applies else .raises
  | revocation false target =>
    if trust.inputs.signals.contains target = true then .applies else .carries

def TrustPayload.reachAfter (trust : TrustDb) (payload : TrustPayload) :
    Except IngestError Verdict → Reach
  | .error _ => .raises
  | .ok .replayed => .leaves
  | .ok .skipped => .leaves
  | .ok .admitted => payload.reach trust

def SignedTrustObject.reach (db : WireDb) (obj : SignedTrustObject) : Reach :=
  obj.payload.reachAfter db.trust (judgeObject host now db obj)

def carryObject (db : WireDb) (obj : SignedTrustObject) : WireDb :=
  match obj.payload with
  | .revocation _ target => storeWireObject (revokeWireObject db target obj.contentId now) obj
  | _ => storeWireObject db obj

variable {db : WireDb}

@[simp] theorem storeWireObject_trust {obj : SignedTrustObject} :
    (storeWireObject db obj).trust = db.trust := rfl

@[simp] theorem revokeWireObject_trust {contentId revocationContentId : String} :
    (revokeWireObject db contentId revocationContentId now).trust = db.trust := by
  unfold revokeWireObject
  split <;> rfl

@[simp] theorem carryObject_trust {obj : SignedTrustObject} :
    (carryObject now db obj).trust = db.trust := by
  unfold carryObject
  split
  · rw [storeWireObject_trust, revokeWireObject_trust]
  · rfl

end Reach

section Helpers

variable {host : TrustHost} {trust : TrustDb} {now : Instant}

theorem changeInputs_inputs {inputs : TrustInputs} {subject : TrustSubject} {actor : Option Nat} :
    (changeInputs host trust inputs subject now actor).inputs = inputs := by
  rw [changeInputs, recomputeSubject_inputs]

theorem registerSubject_ok (host : TrustHost) (trust : TrustDb) (subject : TrustSubject)
    (now : Instant) : ∃ row known, registerSubject host trust subject now now = .ok known ∧
      known.inputs = { trust.inputs with
        subjects := trust.inputs.subjects.setDefault (canonical trust.inputs subject) row } := by
  have hnow : ¬now + futureTolerance < now := Nat.not_lt.mpr (Nat.le_add_right now futureTolerance)
  unfold registerSubject
  rw [refuseIf_neg hnow]
  exact ⟨_, _, rfl, changeInputs_inputs⟩

def SignalReport.row (report : SignalReport) (inputs : TrustInputs) : SignalRow :=
  { issuerFingerprint := report.issuerFingerprint
    subject := canonical inputs report.subject
    dimension := report.dimension
    category := report.category
    evidenceClass := report.evidenceClass
    effectiveExpiresAt := min report.expiresAt (report.issuedAt + maxLifetime report.evidenceClass)
    evidenceVerifiedAt := report.evidenceVerifiedAt }

theorem recordTrustSignal_ok (host : TrustHost) {report : SignalReport}
    (hvalid : validateCategoryEvidence report.dimension report.category report.evidenceClass = .ok ())
    (hissued : report.issuedAt ≤ now + futureTolerance) (hexpires : report.issuedAt < report.expiresAt)
    (hobserved : report.observedAt ≤ report.issuedAt + futureTolerance)
    (hknown : trust.inputs.subjects.contains (canonical trust.inputs report.subject) = true) :
    ∃ done, recordTrustSignal host trust report now = .ok done ∧
      done.2.inputs = { trust.inputs with
        signals := trust.inputs.signals.setDefault report.contentId (report.row trust.inputs) } := by
  unfold recordTrustSignal requireSubject
  simp only [hvalid, refuseIf_neg (Nat.not_lt.mpr hissued),
    refuseIf_neg (Nat.not_le.mpr hexpires), refuseIf_neg (Nat.not_lt.mpr hobserved), ok_bind]
  rw [refuseIf_neg (by rw [hknown]; simp)]
  simp only [ok_bind]
  by_cases hheld : trust.inputs.signals.contains report.contentId = true
  · rw [if_pos hheld, setDefault, if_pos hheld]
    exact ⟨_, rfl, rfl⟩
  · rw [if_neg hheld, setDefault, if_neg hheld]
    exact ⟨_, rfl, changeInputs_inputs⟩

def VouchReport.row (report : VouchReport) (inputs : TrustInputs) : VouchRow :=
  { issuerFingerprint := report.issuerFingerprint
    subject := canonical inputs report.subject
    effectiveExpiresAt := min report.expiresAt (report.issuedAt + vouchMaxLifetime) }

theorem recordVouch_ok (host : TrustHost) {report : VouchReport}
    (hissued : report.issuedAt ≤ now + futureTolerance) (hexpires : report.issuedAt < report.expiresAt)
    (hknown : trust.inputs.subjects.contains (canonical trust.inputs report.subject) = true) :
    ∃ done, recordVouch host trust report now = .ok done ∧
      done.2.inputs = { trust.inputs with
        vouches := trust.inputs.vouches.setDefault report.contentId (report.row trust.inputs) } := by
  unfold recordVouch requireSubject
  simp only [refuseIf_neg (Nat.not_lt.mpr hissued), refuseIf_neg (Nat.not_le.mpr hexpires), ok_bind]
  rw [refuseIf_neg (by rw [hknown]; simp)]
  simp only [ok_bind]
  by_cases hheld : trust.inputs.vouches.contains report.contentId = true
  · rw [if_pos hheld, setDefault, if_pos hheld]
    exact ⟨_, rfl, rfl⟩
  · rw [if_neg hheld, setDefault, if_neg hheld]
    exact ⟨_, rfl, changeInputs_inputs⟩

theorem revokeTrustSignal_ok (host : TrustHost) {contentId : String} {row : SignalRow}
    (revocation : String) (now : Instant) (hrow : trust.inputs.signals.get? contentId = some row) :
    ∃ after, revokeTrustSignal host trust contentId revocation now = .ok after ∧
      after.inputs = { trust.inputs with
        signals := trust.inputs.signals.set contentId (row.revoke revocation now) } := by
  unfold revokeTrustSignal
  rw [hrow]
  exact ⟨_, rfl, changeInputs_inputs⟩

theorem revokeVouch_ok (host : TrustHost) {contentId : String} {row : VouchRow}
    (revocation : String) (now : Instant) (hrow : trust.inputs.vouches.get? contentId = some row) :
    ∃ after, revokeVouch host trust contentId revocation now = .ok after ∧
      after.inputs = { trust.inputs with
        vouches := trust.inputs.vouches.set contentId (row.revoke revocation now) } := by
  unfold revokeVouch
  rw [hrow]
  exact ⟨_, rfl, changeInputs_inputs⟩

end Helpers

inductive AppliedTo (now : Instant) (obj : SignedTrustObject) (before after : TrustInputs) : Prop
  | signal (row : SignalRow) (family : obj.payload.objectType = .trustSignal)
      (issuer : row.issuerFingerprint = obj.issuerFingerprint)
      (unrevoked : row.revokedBy = none ∧ row.revokedAt = none)
      (reporters : after.reporters = before.reporters) (vouches : after.vouches = before.vouches)
      (signals : after.signals = before.signals.setDefault obj.contentId row)
  | vouch (row : VouchRow) (family : obj.payload.objectType = .trustVouch)
      (issuer : row.issuerFingerprint = obj.issuerFingerprint)
      (unrevoked : row.revokedBy = none ∧ row.revokedAt = none)
      (reporters : after.reporters = before.reporters) (signals : after.signals = before.signals)
      (vouches : after.vouches = before.vouches.setDefault obj.contentId row)
  | signalRevoked (target : String) (row : SignalRow) (payload : obj.payload = .revocation false target)
      (held : before.signals.get? target = some row)
      (reporters : after.reporters = before.reporters) (vouches : after.vouches = before.vouches)
      (signals : after.signals = before.signals.set target (row.revoke obj.contentId now))
  | vouchRevoked (target : String) (row : VouchRow) (payload : obj.payload = .revocation true target)
      (held : before.vouches.get? target = some row)
      (reporters : after.reporters = before.reporters) (signals : after.signals = before.signals)
      (vouches : after.vouches = before.vouches.set target (row.revoke obj.contentId now))

section Applied

variable {host : WireHost} {now : Instant} {keys : KnownKeys} {obj : SignedTrustObject}
  {c : Connection WireDb}

variable {helper : TrustDb → Except TrustError TrustDb} {reporter : Option ReporterRow}

theorem runHelper_ok {after : TrustDb} (h : helper c.working.trust = .ok after) :
    runHelper helper c = .ok () (Connection.resting { c.working with trust := after }) := by
  apply @Connection.within_attempt_ok _ _ _ _ c ((), { c.working with trust := after })
  simp only [h]
  rfl

theorem runHelper_error {e : TrustError} (h : helper c.working.trust = .error e) :
    runHelper helper c = .error (.trustError e) (Connection.resting c.committed) := by
  apply Connection.within_attempt_error
  simp only [h]
  rfl

theorem canonical_registered {inputs : TrustInputs} {subject : TrustSubject} {row : SubjectRow} :
    ({ inputs with subjects := inputs.subjects.setDefault (canonical inputs subject) row } :
      TrustInputs).subjects.contains (canonical
        { inputs with subjects := inputs.subjects.setDefault (canonical inputs subject) row }
          subject) = true := by
  have hsame : canonical
      { inputs with subjects := inputs.subjects.setDefault (canonical inputs subject) row } subject =
        canonical inputs subject := by
    cases subject <;> rfl
  rw [hsame]
  show Option.isSome (get? _ _) = true
  rw [get?_setDefault]
  split
  · rfl
  · simp_all

variable {db : WireDb}

theorem issued_of_screened
    (h : screenObject host now db obj = .ok reporter) : obj.issuedAt ≤ now + futureTolerance := by
  unfold screenObject at h
  obtain ⟨_, hissued, -⟩ := (bind_eq_ok _ _ _).mp h
  exact Nat.not_lt.mp ((refuseIf_eq_ok _ _ _).mp hissued)

theorem reporter_of_screened (h : screenObject host now db obj = .ok reporter) :
    ∃ row, db.trust.inputs.reporters.get? obj.issuerFingerprint = some row := by
  unfold screenObject at h
  obtain ⟨_, -, hrest⟩ := (bind_eq_ok _ _ _).mp h
  obtain ⟨row, hrow, -⟩ := (bind_eq_ok _ _ _).mp hrest
  exact ⟨row, (orRefuse_eq_ok _ _ _).mp hrow⟩

theorem new_of_screened {reporter : ReporterRow} (h : screenObject host now db obj = .ok (some reporter)) :
    db.wireObjects.get? obj.contentId = none := by
  unfold screenObject at h
  obtain ⟨_, -, hrest⟩ := (bind_eq_ok _ _ _).mp h
  obtain ⟨row, -, hrest⟩ := (bind_eq_ok _ _ _).mp hrest
  split at hrest
  · cases hrest
  · rename_i hnew
    exact (contains_eq_false _ _).mp (Bool.not_eq_true _ ▸ hnew)

theorem signal_recorded {trust : TrustDb} {report : SignalReport}
    (hvalid : validateCategoryEvidence report.dimension report.category report.evidenceClass = .ok ())
    (hissued : report.issuedAt ≤ now + futureTolerance) (hexpires : report.issuedAt < report.expiresAt)
    (hobserved : report.observedAt ≤ report.issuedAt + futureTolerance) :
    ∃ known done row, registerSubject host.toTrustHost trust report.subject now now = .ok known ∧
      recordTrustSignal host.toTrustHost known report now = .ok done ∧
      (row.issuerFingerprint = report.issuerFingerprint ∧ row.revokedBy = none ∧ row.revokedAt = none) ∧
      done.2.inputs.reporters = trust.inputs.reporters ∧
      done.2.inputs.vouches = trust.inputs.vouches ∧
      done.2.inputs.signals = trust.inputs.signals.setDefault report.contentId row := by
  obtain ⟨subjectRow, known, hregistered, hknown⟩ :=
    registerSubject_ok host.toTrustHost trust report.subject now
  have hsubject : known.inputs.subjects.contains (canonical known.inputs report.subject) = true := by
    rw [hknown]
    exact canonical_registered
  obtain ⟨done, hdone, hinputs⟩ :=
    recordTrustSignal_ok host.toTrustHost hvalid hissued hexpires hobserved hsubject
  refine ⟨known, done, report.row known.inputs, hregistered, hdone, ⟨rfl, rfl, rfl⟩, ?_, ?_, ?_⟩
  · rw [hinputs, hknown]
  · rw [hinputs, hknown]
  · rw [hinputs, hknown]

theorem vouch_recorded {trust : TrustDb} {report : VouchReport}
    (hissued : report.issuedAt ≤ now + futureTolerance) (hexpires : report.issuedAt < report.expiresAt) :
    ∃ known done row, registerSubject host.toTrustHost trust report.subject now now = .ok known ∧
      recordVouch host.toTrustHost known report now = .ok done ∧
      (row.issuerFingerprint = report.issuerFingerprint ∧ row.revokedBy = none ∧ row.revokedAt = none) ∧
      done.2.inputs.reporters = trust.inputs.reporters ∧
      done.2.inputs.signals = trust.inputs.signals ∧
      done.2.inputs.vouches = trust.inputs.vouches.setDefault report.contentId row := by
  obtain ⟨subjectRow, known, hregistered, hknown⟩ :=
    registerSubject_ok host.toTrustHost trust report.subject now
  have hsubject : known.inputs.subjects.contains (canonical known.inputs report.subject) = true := by
    rw [hknown]
    exact canonical_registered
  obtain ⟨done, hdone, hinputs⟩ := recordVouch_ok host.toTrustHost hissued hexpires hsubject
  refine ⟨known, done, report.row known.inputs, hregistered, hdone, ⟨rfl, rfl, rfl⟩, ?_, ?_, ?_⟩
  · rw [hinputs, hknown]
  · rw [hinputs, hknown]
  · rw [hinputs, hknown]

theorem runHelper_snd {α : Type} {helper : TrustDb → Except TrustError (α × TrustDb)}
    {done : α × TrustDb} (h : helper c.working.trust = .ok done) :
    runHelper (fun trust => Prod.snd <$> helper trust) c =
      .ok () (Connection.resting { c.working with trust := done.2 }) := by
  apply runHelper_ok
  rw [h]
  rfl

theorem applyObject_applies (hissued : obj.issuedAt ≤ now + futureTolerance)
    (h : obj.payload.reach c.working.trust = .applies) :
    ∃ trust, AppliedTo now obj c.working.trust.inputs trust.inputs ∧
      ∃ working, applyObject host now keys obj c = .ok () ⟨{ c.working with trust }, working⟩ ∧
        storeWireObject working obj = carryObject now { c.working with trust } obj := by
  have hvalid := obj.valid
  unfold applyObject carryObject
  cases hpayload : obj.payload with
  | signal payload =>
    rw [hpayload] at h hvalid
    obtain ⟨hcategory, hexpires, hobserved⟩ := hvalid
    cases hevidence : payload.evidence with
    | digest => simp [TrustPayload.reach, hevidence] at h
    | embedded data =>
      simp only [hevidence]
      let report : SignalReport :=
        { contentId := obj.contentId
          issuerFingerprint := obj.issuerFingerprint
          subject := payload.subject
          dimension := payload.dimension
          category := payload.category
          evidenceClass := payload.evidenceClass
          observedAt := payload.observedAt
          issuedAt := obj.issuedAt
          expiresAt := payload.expiresAt.instant
          evidenceVerifiedAt := if evidenceReproduces keys payload then some now else none }
      obtain ⟨known, done, row, hregistered, hdone, hrow, hreporters, hvouches, hsignals⟩ :=
        @signal_recorded host now c.working.trust report hcategory hissued hexpires hobserved
      refine ⟨done.2, .signal row (by rw [hpayload]; rfl) hrow.1 hrow.2 hreporters hvouches hsignals,
        { c.working with trust := done.2 }, ?_, rfl⟩
      rw [Connection.bind_ok (runHelper_ok hregistered)]
      exact runHelper_snd hdone
  | vouch subject expiresAt =>
    rw [hpayload] at hvalid
    let report : VouchReport :=
      { contentId := obj.contentId
        issuerFingerprint := obj.issuerFingerprint
        subject
        issuedAt := obj.issuedAt
        expiresAt := expiresAt.instant }
    obtain ⟨known, done, row, hregistered, hdone, hrow, hreporters, hsignals, hvouches⟩ :=
      @vouch_recorded host now c.working.trust report hissued hvalid
    refine ⟨done.2, .vouch row (by rw [hpayload]; rfl) hrow.1 hrow.2 hreporters hsignals hvouches,
      { c.working with trust := done.2 }, ?_, rfl⟩
    simp only
    rw [Connection.bind_ok (runHelper_ok hregistered)]
    exact runHelper_snd hdone
  | revocation ofVouch target =>
    rw [hpayload] at h
    cases ofVouch with
    | true =>
      by_cases hheld : c.working.trust.inputs.vouches.contains target = true
      · obtain ⟨row, hrow⟩ := (contains_iff _ _).mp hheld
        obtain ⟨after, hafter, hinputs⟩ := revokeVouch_ok host.toTrustHost obj.contentId now hrow
        refine ⟨after, .vouchRevoked target row hpayload hrow ?_ ?_ ?_, _, ?_, rfl⟩
        · rw [hinputs]
        · rw [hinputs]
        · rw [hinputs]
        · simp only [if_true]
          rw [Connection.bind_ok (rfl : Connection.read c = .ok c.working c),
            Connection.bind_ok (runHelper_ok hafter)]
          rfl
      · simp [TrustPayload.reach, hheld] at h
    | false =>
      by_cases hheld : c.working.trust.inputs.signals.contains target = true
      · obtain ⟨row, hrow⟩ := (contains_iff _ _).mp hheld
        obtain ⟨after, hafter, hinputs⟩ :=
          revokeTrustSignal_ok host.toTrustHost obj.contentId now hrow
        refine ⟨after, .signalRevoked target row hpayload hrow ?_ ?_ ?_, _, ?_, rfl⟩
        · rw [hinputs]
        · rw [hinputs]
        · rw [hinputs]
        · simp only [Bool.false_eq_true, if_false]
          rw [Connection.bind_ok (rfl : Connection.read c = .ok c.working c)]
          simp only [hheld, if_true]
          rw [Connection.bind_ok (runHelper_ok hafter)]
          rfl
      · simp [TrustPayload.reach, hheld] at h

theorem applyObject_carries (h : obj.payload.reach c.working.trust = .carries) :
    ∃ working, applyObject host now keys obj c = .ok () ⟨c.committed, working⟩ ∧
      storeWireObject working obj = carryObject now c.working obj := by
  unfold applyObject carryObject
  cases hpayload : obj.payload with
  | signal payload =>
    rw [hpayload] at h
    cases hevidence : payload.evidence with
    | digest =>
      simp only [hevidence]
      exact ⟨c.working, rfl, rfl⟩
    | embedded data => simp [TrustPayload.reach, hevidence] at h
  | vouch subject expiresAt =>
    rw [hpayload] at h
    cases h
  | revocation ofVouch target =>
    rw [hpayload] at h
    cases ofVouch with
    | true =>
      simp only [TrustPayload.reach] at h
      split at h
      · cases h
      · cases h
    | false =>
      by_cases hheld : c.working.trust.inputs.signals.contains target = true
      · simp [TrustPayload.reach, hheld] at h
      · refine ⟨_, ?_, rfl⟩
        simp only [Bool.false_eq_true, if_false]
        rw [Connection.bind_ok (rfl : Connection.read c = .ok c.working c)]
        simp only [hheld]
        rfl

theorem applyObject_raises (h : obj.payload.reach c.working.trust = .raises) :
    ∃ e c', applyObject host now keys obj c = .error e c' ∧ c'.committed = c.committed := by
  unfold applyObject
  cases hpayload : obj.payload with
  | signal payload =>
    rw [hpayload] at h
    cases hevidence : payload.evidence with
    | digest => simp [TrustPayload.reach, hevidence] at h
    | embedded data => simp [TrustPayload.reach, hevidence] at h
  | vouch subject expiresAt =>
    rw [hpayload] at h
    cases h
  | revocation ofVouch target =>
    rw [hpayload] at h
    cases ofVouch with
    | true =>
      by_cases hheld : c.working.trust.inputs.vouches.contains target = true
      · simp [TrustPayload.reach, hheld] at h
      · have hnone := (contains_eq_false _ _).mp (Bool.eq_false_iff.mpr hheld)
        refine ⟨.trustError (.valueError "unknown trust vouch: %r"), Connection.resting c.committed, ?_, rfl⟩
        simp only [if_true]
        rw [Connection.bind_ok (rfl : Connection.read c = .ok c.working c)]
        apply Connection.bind_error
        apply runHelper_error
        rw [revokeVouch, hnone]
        rfl
    | false =>
      simp only [TrustPayload.reach] at h
      split at h
      · cases h
      · cases h

end Applied

section Objects

variable {host : WireHost} {now : Instant} {keys : KnownKeys} {obj : SignedTrustObject}
  {c : Connection WireDb} {result : TrustIngestResult}

theorem ingestObject_judged : ingestObject host now keys result obj c =
    treatObject host now keys result obj (judgeObject host now c.working obj) c := by
  unfold ingestObject
  rw [Connection.bind_ok (rfl : Connection.read c = .ok c.working c)]

private theorem reach_ne_leaves {trust : TrustDb} {payload : TrustPayload} :
    payload.reach trust ≠ .leaves := by
  intro h
  cases payload with
  | signal payload =>
    simp only [TrustPayload.reach] at h
    split at h <;> cases h
  | vouch subject expiresAt => cases h
  | revocation ofVouch target =>
    cases ofVouch <;>
      · simp only [TrustPayload.reach] at h
        split at h <;> cases h

theorem ingestObject_raises (h : obj.reach host now c.working = .raises) :
    ∃ e c', ingestObject host now keys result obj c = .error e c' ∧ c'.committed = c.committed := by
  rw [ingestObject_judged]
  unfold SignedTrustObject.reach at h
  cases hverdict : judgeObject host now c.working obj with
  | error e =>
    rw [treatObject]
    exact ⟨e, c, rfl, rfl⟩
  | ok verdict =>
    rw [hverdict] at h
    cases verdict with
    | replayed => cases h
    | skipped => cases h
    | admitted =>
      obtain ⟨e, c', hraises, hcommitted⟩ := @applyObject_raises host now keys obj c h
      rw [treatObject, Connection.bind_error hraises]
      exact ⟨e, c', rfl, hcommitted⟩

theorem ingestObject_leaves (h : obj.reach host now c.working = .leaves) :
    ∃ result', ingestObject host now keys result obj c = .ok result' c := by
  rw [ingestObject_judged]
  unfold SignedTrustObject.reach at h
  cases hverdict : judgeObject host now c.working obj with
  | error e =>
    rw [hverdict] at h
    cases h
  | ok verdict =>
    rw [hverdict] at h
    cases verdict with
    | replayed =>
      rw [treatObject]
      exact ⟨_, rfl⟩
    | skipped =>
      rw [treatObject]
      exact ⟨_, rfl⟩
    | admitted => exact absurd h reach_ne_leaves

variable {db : WireDb}

theorem admitted_of_reach
    (h : obj.reach host now db = .carries ∨ obj.reach host now db = .applies) :
    judgeObject host now db obj = .ok .admitted := by
  unfold SignedTrustObject.reach at h
  cases hverdict : judgeObject host now db obj with
  | error e =>
    rw [hverdict] at h
    rcases h with h | h <;> cases h
  | ok verdict =>
    rw [hverdict] at h
    cases verdict with
    | admitted => rfl
    | replayed => rcases h with h | h <;> cases h
    | skipped => rcases h with h | h <;> cases h

theorem reach_of_admitted (h : judgeObject host now db obj = .ok .admitted) :
    obj.reach host now db = obj.payload.reach db.trust := by
  unfold SignedTrustObject.reach
  rw [h, TrustPayload.reachAfter]

theorem treatObject_admitted {committed working stored : WireDb}
    (happly : applyObject host now keys obj c = .ok () ⟨committed, working⟩)
    (hstore : storeWireObject working obj = stored) :
    treatObject host now keys result obj (.ok .admitted) c =
      .ok { result with accepted := result.accepted ++ [obj.contentId] } ⟨committed, stored⟩ := by
  subst hstore
  rw [treatObject, Connection.bind_ok happly]
  rfl

theorem ingestObject_carries (h : obj.reach host now c.working = .carries) :
    ∃ result', ingestObject host now keys result obj c =
      .ok result' ⟨c.committed, carryObject now c.working obj⟩ := by
  have hadmitted := admitted_of_reach (.inl h)
  rw [reach_of_admitted hadmitted] at h
  obtain ⟨working, happly, hstore⟩ := @applyObject_carries host now keys obj c h
  rw [ingestObject_judged, hadmitted]
  exact ⟨_, treatObject_admitted happly hstore⟩

theorem checked_of_admitted (h : judgeObject host now db obj = .ok .admitted) :
    ∃ reporter, screenObject host now db obj = .ok (some reporter) ∧
      checkAdmission host now db obj reporter = .ok () := by
  unfold judgeObject at h
  obtain ⟨screened, hscreened, hverdict⟩ := (bind_eq_ok _ _ _).mp h
  cases screened with
  | none => cases hverdict
  | some reporter =>
    rw [Option.elim_some] at hverdict
    refine ⟨reporter, hscreened, ?_⟩
    cases hcheck : checkAdmission host now db obj reporter with
    | error e =>
      rw [hcheck] at hverdict
      cases e <;> cases hverdict
    | ok admitted => rfl

theorem ingestObject_applies (h : obj.reach host now c.working = .applies) :
    ∃ result' trust, AppliedTo now obj c.working.trust.inputs trust.inputs ∧
      ingestObject host now keys result obj c =
        .ok result' ⟨{ c.working with trust }, carryObject now { c.working with trust } obj⟩ := by
  have hadmitted := admitted_of_reach (.inr h)
  obtain ⟨reporter, hscreen, -⟩ := checked_of_admitted hadmitted
  rw [reach_of_admitted hadmitted] at h
  obtain ⟨trust, hto, working, happly, hstore⟩ :=
    @applyObject_applies host now keys obj c (issued_of_screened hscreen) h
  rw [ingestObject_judged, hadmitted]
  exact ⟨_, trust, hto, treatObject_admitted happly hstore⟩

theorem target_of_admitted {ofVouch : Bool} {target : String}
    (h : judgeObject host now db obj = .ok .admitted) (hpayload : obj.payload = .revocation ofVouch target) :
    ∃ row, db.wireObjects.get? target = some row ∧
      row.issuerFingerprint = obj.issuerFingerprint ∧ row.revoked = none ∧
      row.objectType = if ofVouch then .trustVouch else .trustSignal := by
  obtain ⟨reporter, -, hcheck⟩ := checked_of_admitted h
  unfold checkAdmission at hcheck
  rw [hpayload] at hcheck
  simp only [bind_eq_ok, orRefuse_eq_ok, refuseIf_eq_ok] at hcheck
  obtain ⟨row, hrow, _, hissuer, _, hfamily, hunrevoked⟩ := hcheck
  exact ⟨row, hrow, not_not.mp hissuer, not_not.mp hunrevoked, not_not.mp hfamily⟩

end Objects

end NetBBS.Trust
