import Mathlib.Data.List.Dedup
import Mathlib.Data.List.Sort
import Mathlib.Data.String.Basic
import NetBBS.Link.Trust.Tables

/-! # The effective state -/

namespace NetBBS.Trust

open Foundation

variable (host : TrustHost) (db : TrustDb)

def TrustDb.stands (reporter : String) : Bool :=
  !db.inputs.subjects.contains (.node reporter) ||
    [TrustDimension.identityIntegrity, .resourceBehavior].all fun dimension =>
      (db.effectiveStates.get? (.node reporter, dimension)).all fun row =>
        decide (row.state = .established)

def activeOverrides (subject : TrustSubject) (dimension : TrustDimension) (now : Instant) :
    List (Nat × OverrideRow) :=
  db.inputs.overrides.entries.filter fun entry =>
    decide (entry.2.subject = subject ∧ entry.2.dimension = dimension ∧ entry.2.clearedAt = none) &&
      entry.2.expiresAt.all fun expiry => decide (now < expiry)

/-- `_active_override`: a block before any other, else the latest. -/
def activeOverride (subject : TrustSubject) (dimension : TrustDimension) (now : Instant) :
    Option (Nat × OverrideRow) :=
  let active := activeOverrides db subject dimension now
  (active.filter fun entry => decide (entry.2.state = .blocked)).getLast?.or active.getLast?

def activeLocalEvidence (subject : TrustSubject) (dimension : TrustDimension) (now : Instant) :
    List LocalEvidence :=
  db.inputs.observations.entries.filterMap fun entry =>
    if entry.2.subject = subject ∧ entry.2.dimension = dimension ∧ entry.2.clearedAt = none ∧
        now < entry.2.expiresAt then
      some ⟨entry.1, entry.2.category, entry.2.evidenceClass⟩
    else none

def TrustDb.hears (now : Instant) (signal : SignalRow) : Bool :=
  db.inputs.reporters.contains signal.issuerFingerprint &&
    db.inputs.reporterScopes.contains
      (signal.issuerFingerprint, signal.dimension, signal.category) &&
    decide (signal.revokedAt = none ∧ now < signal.effectiveExpiresAt) &&
    db.stands signal.issuerFingerprint

def TrustDb.domainOf (reporter : String) : Option (String × Weight) := do
  let row ← db.inputs.reporters.get? reporter
  let domain ← db.inputs.domains.get? row.domainId
  pure (row.domainId, domain.weight)

def activeRemoteEvidence (subject : TrustSubject) (dimension : TrustDimension) (now : Instant) :
    List RemoteEvidence :=
  db.inputs.signals.entries.filterMap fun entry =>
    if (entry.2.subject = subject ∧ entry.2.dimension = dimension) ∧
        db.hears now entry.2 = true then
      (db.domainOf entry.2.issuerFingerprint).map fun domain =>
        { contentId := entry.1
          category := entry.2.category
          evidenceClass := entry.2.evidenceClass
          issuerFingerprint := entry.2.issuerFingerprint
          domainId := domain.1
          domainWeight := domain.2
          evidenceVerified := entry.2.evidenceVerifiedAt.isSome }
    else none

def vouchDomains (subject : TrustSubject) (now : Instant) : List String :=
  let permitted (row : ReporterRow) : Bool :=
    if subject.isNode then row.canVouchNodes else row.canVouchUsers
  let domains := db.inputs.vouches.entries.filterMap fun entry =>
    if (entry.2.subject = subject ∧ entry.2.revokedAt = none ∧ now < entry.2.effectiveExpiresAt) ∧
        (db.inputs.reporters.get? entry.2.issuerFingerprint).any permitted = true ∧
        db.stands entry.2.issuerFingerprint = true then
      (db.domainOf entry.2.issuerFingerprint).map Prod.fst
    else none
  domains.dedup.insertionSort fun a b => a ≤ b

def TrustDb.lastRestricted (subject : TrustSubject) : Option Instant :=
  ((db.decisionAudit.filter fun row => decide (row.subject = subject ∧
    (row.newState = .quarantined ∨ row.newState = .blocked))).map AuditRow.createdAt).max?

def countedDays (subject : TrustSubject) : List Day :=
  db.inputs.activityDays.entries.filterMap fun entry =>
    if entry.1.1 = subject ∧ (subject.isNode = true → entry.2 = true) ∧
        (db.lastRestricted subject).all (fun moment => decide (dateOf moment < entry.1.2)) = true then
      some entry.1.2
    else none

def ageOk (subject : TrustSubject) (now : Instant) : Bool :=
  (db.inputs.subjects.get? subject).any fun row =>
    if subject.isNode then
      row.firstVerifiedHelloAt.any fun first => decide (first + nodeProbationAge ≤ now)
    else decide (row.firstAcceptedAt + userProbationAge ≤ now)

def activeTriggers (subject : TrustSubject) (now : Instant) : List TrustDimension :=
  let applicable (dimension : TrustDimension) : Bool :=
    !subject.isNode || decide (dimension ≠ .contentConduct)
  let counts (dimension : TrustDimension) (category : String) : Bool :=
    applicable dimension && (categoriesByDimension dimension).contains category
  (db.inputs.observations.values.filterMap fun row =>
    if (row.subject = subject ∧ row.clearedAt = none ∧ now < row.expiresAt) ∧
        counts row.dimension row.category = true then some row.dimension else none) ++
  db.inputs.signals.values.filterMap fun row =>
    if row.subject = subject ∧ db.hears now row = true ∧ counts row.dimension row.category = true
    then some row.dimension else none

def ordinaryState (subject : TrustSubject) (dimension : TrustDimension) (now : Instant) :
    TrustState × ReasonCode × ProbationProgress :=
  let triggers := activeTriggers db subject now
  let progress : ProbationProgress :=
    { ageRequirementMet := ageOk db subject now
      activityDays := (countedDays db subject).length
      activeTriggerCount := triggers.length
      dimensionTriggerCount := (triggers.filter fun found => decide (found = dimension)).length
      vouchDomains := vouchDomains db subject now
      requiredVouchDomains := if subject.isNode then 2 else 1 }
  if progress.ageRequirementMet = true ∧ 3 ≤ progress.activityDays ∧
      progress.activeTriggerCount = 0 ∧
      progress.requiredVouchDomains ≤ progress.vouchDomains.length then
    (.established, .automaticGraduation, progress)
  else (.probationary, .probationRequirementsIncomplete, progress)

def isProof (evidenceClass : EvidenceClass) (category : String) : Bool :=
  decide (evidenceClass = .selfVerifying) && identityCategories.contains category

def localAuto (localEvidence : List LocalEvidence) : List LocalEvidence :=
  localEvidence.filter fun item => isProof item.evidenceClass item.category

def remoteAuto (remoteEvidence : List RemoteEvidence) : List RemoteEvidence :=
  remoteEvidence.filter fun item =>
    isProof item.evidenceClass item.category && item.evidenceVerified

def remoteDomains (remoteEvidence : List RemoteEvidence) : Dict String ℚ :=
  (remoteAuto remoteEvidence).foldl
    (fun domains item => domains.set item.domainId
      (max ((domains.get? item.domainId).getD 0) item.domainWeight.val))
    .empty

def soleAuthorityMatches (dimension : TrustDimension) (remoteEvidence : List RemoteEvidence) :
    List RemoteEvidence :=
  remoteEvidence.filter fun item =>
    !(decide (item.evidenceClass = .selfVerifying) && !item.evidenceVerified) &&
      db.inputs.soleAuthorities.contains (item.issuerFingerprint, dimension, item.category)

def remoteThresholdMet (dimension : TrustDimension) (remoteEvidence : List RemoteEvidence) : Bool :=
  let domains := remoteDomains remoteEvidence
  (decide (2 ≤ domains.size) && decide (2 ≤ host.floatSum domains.values)) ||
    !(soleAuthorityMatches db dimension remoteEvidence).isEmpty

def equivocationAwaitingReview (subject : TrustSubject) (dimension : TrustDimension)
    (now : Instant) : List String :=
  if dimension = .identityIntegrity then
    (db.inputs.observations.entries.filterMap fun entry =>
      if entry.2.subject = subject ∧ entry.2.dimension = dimension ∧
          entry.2.category = "signed_equivocation" ∧ entry.2.evidenceClass = .selfVerifying ∧
          entry.2.clearedAt = none ∧ entry.2.expiresAt ≤ now then some entry.1 else none)
      |>.insertionSort fun a b => a ≤ b
  else []

def thresholdProgress (remoteEvidence : List RemoteEvidence) : Option ThresholdProgress :=
  let domains := remoteDomains remoteEvidence
  if domains.entries.isEmpty then none
  else some ⟨domains.entries.insertionSort fun a b => a.1 ≤ b.1, host.floatSum domains.values⟩

structure Judgement where
  state : TrustState
  reasonCode : ReasonCode
  recoveryStartedAt : Option Instant
  grounds : Grounds

def judge (subject : TrustSubject) (dimension : TrustDimension) (now : Instant) : Judgement :=
  let localEvidence := activeLocalEvidence db subject dimension now
  let remoteEvidence := activeRemoteEvidence db subject dimension now
  let alone := soleAuthorityMatches db dimension remoteEvidence
  let awaitingReview := equivocationAwaitingReview db subject dimension now
  match activeOverride db subject dimension now with
  | some entry =>
    { state := entry.2.state
      reasonCode := if entry.2.state = .blocked then .manualBlock else .sysopOverride
      recoveryStartedAt := none
      grounds := .override entry.1 entry.2.reason localEvidence remoteEvidence }
  | none =>
    if localAuto localEvidence ≠ [] ∨ remoteThresholdMet host db dimension remoteEvidence = true then
      { state := .quarantined
        reasonCode :=
          if localAuto localEvidence ≠ [] then .localSelfVerifyingEvidence
          else if alone ≠ [] then .soleAuthoritySignal
          else .remoteDomainThreshold
        recoveryStartedAt := none
        grounds := .triggered localEvidence remoteEvidence
          (alone.map fun item => (item.issuerFingerprint, item.category)) }
    else if awaitingReview ≠ [] then
      { state := .quarantined
        reasonCode := .equivocationReviewRequired
        recoveryStartedAt := none
        grounds := .awaitingReview awaitingReview }
    else
      match db.effectiveStates.get? (subject, dimension) with
      | some previous =>
        if previous.state = .quarantined then
          let started := previous.recoveryStartedAt.getD now
          if now < started + recoveryHold then
            { state := .quarantined
              reasonCode := .recoveryHold
              recoveryStartedAt := some started
              grounds := .recoveryHold started (started + recoveryHold) localEvidence
                remoteEvidence }
          else
            { state := .probationary
              reasonCode := .automaticRecovery
              recoveryStartedAt := none
              grounds := .recovered now }
        else
          let (state, reasonCode, progress) := ordinaryState db subject dimension now
          { state, reasonCode, recoveryStartedAt := none, grounds := .ordinary progress }
      | none =>
        let (state, reasonCode, progress) := ordinaryState db subject dimension now
        { state, reasonCode, recoveryStartedAt := none, grounds := .ordinary progress }

def explain (subject : TrustSubject) (dimension : TrustDimension) (now : Instant)
    (judgement : Judgement) : Explanation :=
  match judgement.grounds with
  | .recovered recoveredAt => ⟨.recovered recoveredAt, none⟩
  | grounds => ⟨grounds, thresholdProgress host (activeRemoteEvidence db subject dimension now)⟩

/-- `_recompute_dimension`: a row that says the same is not written again, and only a change of the
state is audited. -/
def recomputeDimension (subject : TrustSubject) (dimension : TrustDimension) (now : Instant)
    (actorUserId : Option Nat) : TrustDb :=
  let previous := db.effectiveStates.get? (subject, dimension)
  let judgement := judge host db subject dimension now
  let row : EffectiveRow :=
    { state := judgement.state
      reasonCode := judgement.reasonCode
      recoveryStartedAt := judgement.recoveryStartedAt
      explanation := explain host db subject dimension now judgement
      evaluatedAt := now }
  if previous.any (fun old => decide (old.state = row.state ∧ old.reasonCode = row.reasonCode ∧
      old.recoveryStartedAt = row.recoveryStartedAt ∧ old.explanation = row.explanation)) = true then
    db
  else
    { db with
      effectiveStates := db.effectiveStates.set (subject, dimension) row
      decisionAudit :=
        if previous.any (fun old => decide (old.state = row.state)) = true then db.decisionAudit
        else db.decisionAudit ++ [{
          subject
          dimension
          previousState := previous.map EffectiveRow.state
          newState := row.state
          reasonCode := row.reasonCode
          actorUserId
          createdAt := now }] }

def recomputeSubject (subject : TrustSubject) (now : Instant) (actorUserId : Option Nat) : TrustDb :=
  trustDimensions.foldl
    (fun db dimension => recomputeDimension host db subject dimension now actorUserId) db

/-- `_recompute_all`: in the order of the table. -/
def recomputeAll (now : Instant) (actorUserId : Option Nat) : TrustDb :=
  db.inputs.subjects.keys.foldl
    (fun db subject => recomputeSubject host db subject now actorUserId) db

def passOrder : List TrustSubject :=
  db.inputs.subjects.keys.insertionSort fun a b => host.subjectId a ≤ host.subjectId b

/-- `recompute_all_trust_states`, with the changes of state it made. -/
def recomputeAllTrustStates (now : Instant) : List AuditRow × TrustDb :=
  let done := (passOrder host db).foldl
    (fun db subject => recomputeSubject host db subject now none) db
  (done.decisionAudit.drop db.decisionAudit.length, done)

end NetBBS.Trust
