import NetBBS.Link.Trust.Recomputed

/-! # What a recompute goes by -/

namespace NetBBS.Trust

open Foundation Option

/-- What the tables say of a dimension of a subject, whatever its state was. -/
structure Findings where
  decided : Option Judgement
  localEvidence : List LocalEvidence
  remoteEvidence : List RemoteEvidence
  ordinary : Judgement

/-- What a quarantine nothing decides about any more comes to. -/
def Findings.recover (found : Findings) (now : Instant) (row : EffectiveRow) : Judgement :=
  let started := row.recoveryStartedAt.getD now
  if now < started + recoveryHold then
    { state := .quarantined
      reasonCode := .recoveryHold
      recoveryStartedAt := some started
      grounds := .recoveryHold started (started + recoveryHold) found.localEvidence
        found.remoteEvidence }
  else
    { state := .probationary
      reasonCode := .automaticRecovery
      recoveryStartedAt := none
      grounds := .recovered now }

def Findings.judge (found : Findings) (now : Instant) (previous : Option EffectiveRow) :
    Judgement :=
  found.decided.getD <|
    ((previous.filter fun row => decide (row.state = .quarantined)).map (found.recover now)).getD
      found.ordinary

variable {found : Findings} {now : Instant} {previous : Option EffectiveRow}

theorem Findings.judge_decided {judgement : Judgement} (h : found.decided = some judgement) :
    found.judge now previous = judgement := by
  rw [Findings.judge, h, getD_some]

theorem Findings.judge_recover {row : EffectiveRow} (h : found.decided = none)
    (hrow : row.state = .quarantined) : found.judge now (some row) = found.recover now row := by
  rw [Findings.judge, h, getD_none, filter_some, if_pos (decide_eq_true hrow),
    map_some, getD_some]

theorem Findings.judge_ordinary (h : found.decided = none)
    (hprevious : ∀ row, previous = some row → row.state ≠ .quarantined) :
    found.judge now previous = found.ordinary := by
  cases previous with
  | none => rw [Findings.judge, h, filter_none, map_none, getD_none, getD_none]
  | some row =>
    have hrow : ¬decide (row.state = .quarantined) = true := by
      simpa using hprevious row rfl
    rw [Findings.judge, h, getD_none, filter_some, if_neg hrow, map_none,
      getD_none]

variable (host : TrustHost) (db : TrustDb) (subject : TrustSubject) (dimension : TrustDimension)
    (now : Instant)

def triggerJudgement : Option Judgement :=
  let localEvidence := activeLocalEvidence db subject dimension now
  let remoteEvidence := activeRemoteEvidence db subject dimension now
  let alone := soleAuthorityMatches db dimension remoteEvidence
  let awaitingReview := equivocationAwaitingReview db subject dimension now
  if localAuto localEvidence ≠ [] ∨ remoteThresholdMet host db dimension remoteEvidence = true then
    some
      { state := .quarantined
        reasonCode :=
          if localAuto localEvidence ≠ [] then .localSelfVerifyingEvidence
          else if alone ≠ [] then .soleAuthoritySignal
          else .remoteDomainThreshold
        recoveryStartedAt := none
        grounds := .triggered localEvidence remoteEvidence
          (alone.map fun item => (item.issuerFingerprint, item.category)) }
  else if awaitingReview ≠ [] then
    some
      { state := .quarantined
        reasonCode := .equivocationReviewRequired
        recoveryStartedAt := none
        grounds := .awaitingReview awaitingReview }
  else none

def overrideJudgement : Option Judgement :=
  (activeOverride db subject dimension now).map fun entry =>
    { state := entry.2.state
      reasonCode := if entry.2.state = .blocked then .manualBlock else .sysopOverride
      recoveryStartedAt := none
      grounds := .override entry.1 entry.2.reason (activeLocalEvidence db subject dimension now)
        (activeRemoteEvidence db subject dimension now) }

def ordinaryJudgement : Judgement :=
  let ordinary := ordinaryState db subject dimension now
  { state := ordinary.1
    reasonCode := ordinary.2.1
    recoveryStartedAt := none
    grounds := .ordinary ordinary.2.2 }

def findings : Findings where
  decided := (overrideJudgement db subject dimension now).or
    (triggerJudgement host db subject dimension now)
  localEvidence := activeLocalEvidence db subject dimension now
  remoteEvidence := activeRemoteEvidence db subject dimension now
  ordinary := ordinaryJudgement db subject dimension now

variable {host : TrustHost} {db a b : TrustDb} {subject : TrustSubject}
    {dimension : TrustDimension} {now : Instant}

theorem judge_eq : judge host db subject dimension now =
    (findings host db subject dimension now).judge now
      (db.effectiveStates.get? (subject, dimension)) := by
  unfold judge
  simp only
  cases hoverride : activeOverride db subject dimension now with
  | some entry =>
    apply Eq.symm
    apply Findings.judge_decided
    simp [findings, overrideJudgement, hoverride]
  | none =>
    have hdecided : (findings host db subject dimension now).decided =
        triggerJudgement host db subject dimension now := by
      simp [findings, overrideJudgement, hoverride]
    simp only
    by_cases htrigger : localAuto (activeLocalEvidence db subject dimension now) ≠ [] ∨
        remoteThresholdMet host db dimension (activeRemoteEvidence db subject dimension now) = true
    · rw [if_pos htrigger]
      apply Eq.symm
      apply Findings.judge_decided
      rw [hdecided, triggerJudgement, if_pos htrigger]
    · rw [if_neg htrigger]
      by_cases hreview : equivocationAwaitingReview db subject dimension now ≠ []
      · rw [if_pos hreview]
        apply Eq.symm
        apply Findings.judge_decided
        rw [hdecided, triggerJudgement, if_neg htrigger, if_pos hreview]
      · rw [if_neg hreview]
        have hnone : (findings host db subject dimension now).decided = none := by
          rw [hdecided, triggerJudgement, if_neg htrigger, if_neg hreview]
        cases db.effectiveStates.get? (subject, dimension) with
        | none =>
          rw [Findings.judge_ordinary hnone (by simp)]
          rfl
        | some previous =>
          simp only
          by_cases hquarantined : previous.state = .quarantined
          · rw [if_pos hquarantined, Findings.judge_recover hnone hquarantined]
            rfl
          · rw [if_neg hquarantined, Findings.judge_ordinary hnone (by simpa using hquarantined)]
            rfl

structure SameEvidence (a b : TrustDb) : Prop where
  inputs : a.inputs = b.inputs
  stands : ∀ reporter, a.inputs.reporters.contains reporter = true →
    a.stands reporter = b.stands reporter

structure SameFindings (subject : TrustSubject) (a b : TrustDb) : Prop extends SameEvidence a b where
  countedDays : countedDays a subject = countedDays b subject

theorem SameEvidence.hears (h : SameEvidence a b) (signal : SignalRow) :
    a.hears now signal = b.hears now signal := by
  unfold TrustDb.hears
  by_cases hreporter : a.inputs.reporters.contains signal.issuerFingerprint = true
  · rw [h.stands _ hreporter, h.inputs]
  · have hreporter' := hreporter
    rw [h.inputs] at hreporter'
    simp only [Bool.not_eq_true] at hreporter hreporter'
    simp [hreporter, hreporter']

theorem SameEvidence.domainOf (h : SameEvidence a b) (reporter : String) :
    a.domainOf reporter = b.domainOf reporter := by
  unfold TrustDb.domainOf
  rw [h.inputs]

theorem SameEvidence.activeRemoteEvidence (h : SameEvidence a b) :
    activeRemoteEvidence a subject dimension now = activeRemoteEvidence b subject dimension now := by
  unfold Trust.activeRemoteEvidence
  simp only [h.hears, h.domainOf]
  rw [h.inputs]

theorem SameEvidence.activeLocalEvidence (h : SameEvidence a b) :
    activeLocalEvidence a subject dimension now = activeLocalEvidence b subject dimension now := by
  unfold Trust.activeLocalEvidence
  rw [h.inputs]

theorem SameEvidence.activeOverride (h : SameEvidence a b) :
    activeOverride a subject dimension now = activeOverride b subject dimension now := by
  unfold Trust.activeOverride activeOverrides
  rw [h.inputs]

theorem SameEvidence.vouchDomains (h : SameEvidence a b) :
    vouchDomains a subject now = vouchDomains b subject now := by
  unfold Trust.vouchDomains
  simp only
  congr 2
  rw [h.inputs]
  apply List.filterMap_congr
  intro entry _
  rw [h.domainOf]
  congr 1
  apply propext
  apply and_congr_right
  intro _
  apply and_congr_right
  intro hpermitted
  obtain ⟨row, hrow, -⟩ := (any_eq_true _ _).mp hpermitted
  have hreporter : a.inputs.reporters.contains entry.2.issuerFingerprint = true := by
    rw [h.inputs, Dict.contains, hrow]
    rfl
  rw [h.stands _ hreporter]

theorem SameFindings.ordinaryState (h : SameFindings subject a b) :
    ordinaryState a subject dimension now = ordinaryState b subject dimension now := by
  have htriggers : activeTriggers a subject now = activeTriggers b subject now := by
    unfold activeTriggers
    simp only [h.hears]
    rw [h.inputs]
  have hage : ageOk a subject now = ageOk b subject now := by
    unfold ageOk
    rw [h.inputs]
  unfold Trust.ordinaryState
  simp only [htriggers, hage, h.countedDays, h.vouchDomains]

theorem SameEvidence.soleAuthorityMatches (h : SameEvidence a b) (items : List RemoteEvidence) :
    soleAuthorityMatches a dimension items = soleAuthorityMatches b dimension items := by
  unfold Trust.soleAuthorityMatches
  rw [h.inputs]

theorem SameEvidence.equivocationAwaitingReview (h : SameEvidence a b) :
    equivocationAwaitingReview a subject dimension now =
      equivocationAwaitingReview b subject dimension now := by
  unfold Trust.equivocationAwaitingReview
  rw [h.inputs]

theorem SameFindings.findings (h : SameFindings subject a b) :
    findings host a subject dimension now = findings host b subject dimension now := by
  unfold Trust.findings overrideJudgement triggerJudgement ordinaryJudgement remoteThresholdMet
  simp only [h.soleAuthorityMatches, h.equivocationAwaitingReview, h.activeRemoteEvidence,
    h.activeLocalEvidence, h.activeOverride, h.ordinaryState]

theorem SameFindings.explain (h : SameFindings subject a b) (judgement : Judgement) :
    explain host a subject dimension now judgement =
      explain host b subject dimension now judgement := by
  unfold Trust.explain
  rw [h.activeRemoteEvidence]

end NetBBS.Trust
