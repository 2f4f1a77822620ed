import NetBBS.Link.Trust.Recompute
import NetBBS.Python.Text

/-! # Operations on the trust tables -/

namespace NetBBS.Trust

open Foundation

inductive TrustError where
  | valueError (message : String)
deriving DecidableEq

/-- `category.strip()`. -/
def stripText (text : String) : String := String.ofList (Text.strip text.toList)

def expandReporterScopes (scopes : List (TrustDimension × String)) :
    List (TrustDimension × String) :=
  (scopes.flatMap fun scope =>
    if stripText scope.2 = "*" then
      (categoriesByDimension scope.1).map fun category => (scope.1, category)
    else [(scope.1, stripText scope.2)]).dedup

/-- `validate_category_evidence`, but for its answer. -/
def validateCategoryEvidence (dimension : TrustDimension) (category : String)
    (evidenceClass : EvidenceClass) : Except TrustError Unit := do
  match trustDimensions.find? fun candidate => (categoriesByDimension candidate).contains category with
  | none => pure ()
  | some known =>
    refuseIf (known ≠ dimension) (.valueError "category %r does not belong to %s")
    if dimension = .contentConduct then
      refuseIf (evidenceClass ≠ .subjective)
        (.valueError "content-conduct categories require subjective evidence")
    else
      refuseIf (evidenceClass = .subjective)
        (.valueError "subjective evidence is only valid for content conduct")
    refuseIf (evidenceClass = .selfVerifying ∧ dimension ≠ .identityIntegrity)
      (.valueError "self-verifying evidence is only valid for identity integrity")

def followRenames (aliases : Dict (String × String) String) (node : String) :
    Nat → List String → String → String
  | 0, _, current => current
  | steps + 1, seen, current =>
    match aliases.get? (node, current) with
    | none => current
    | some next =>
      if next ∈ seen then current else followRenames aliases node steps (next :: seen) next

/-- `_canonical`: a renamed user under the name it has now. -/
def canonical (inputs : TrustInputs) : TrustSubject → TrustSubject
  | .node fingerprint => .node fingerprint
  | .user node name => .user node (followRenames inputs.userAliases node 64 [name] name)

variable (host : TrustHost) (db : TrustDb)

def requireSubject (subject : TrustSubject) : Except TrustError Unit :=
  refuseIf (db.inputs.subjects.contains subject = false)
    (.valueError "trust subject must be registered before recording inputs")

def changeInputs (inputs : TrustInputs) (subject : TrustSubject) (now : Instant)
    (actorUserId : Option Nat) : TrustDb :=
  recomputeSubject host { db with inputs } subject now actorUserId

def registerSubject (subject : TrustSubject) (firstAcceptedAt now : Instant) :
    Except TrustError TrustDb := do
  let subject := canonical db.inputs subject
  refuseIf (now + futureTolerance < firstAcceptedAt)
    (.valueError "first_accepted_at is more than five minutes in the future")
  let row : SubjectRow := ⟨firstAcceptedAt, if subject.isNode then some firstAcceptedAt else none⟩
  pure (changeInputs host db
    { db.inputs with subjects := db.inputs.subjects.setDefault subject row } subject now none)

def recordActivity (subject : TrustSubject) (activityDate : Day) (direct : Bool) (now : Instant) :
    Except TrustError TrustDb := do
  let subject := canonical db.inputs subject
  refuseIf (dateOf now < activityDate)
    (.valueError "trust activity date cannot be in the future")
  requireSubject db subject
  let held := (db.inputs.activityDays.get? (subject, activityDate)).getD false
  pure (changeInputs host db
    { db.inputs with
      activityDays := db.inputs.activityDays.set (subject, activityDate) (held || direct) } subject now none)

def configureTrustDomain (domainId displayName : String) (weight : ℚ) (now : Instant)
    (actorUserId : Option Nat) : Except TrustError TrustDb := do
  refuseIf (domainId = "" ∨ displayName = "")
    (.valueError "trust domain ID and display name must not be empty")
  if within : 0 ≤ weight ∧ weight ≤ 1 then
    pure (recomputeAll host
      { db with inputs := { db.inputs with
        domains := db.inputs.domains.set domainId ⟨displayName, ⟨weight, within⟩⟩ } } now actorUserId)
  else .error (.valueError "trust domain weight must be between 0.0 and 1.0")

def withoutScopes (inputs : TrustInputs) (fingerprint : String) : TrustInputs :=
  { inputs with
    reporterScopes := inputs.reporterScopes.filter fun scope => decide (scope.1 ≠ fingerprint)
    soleAuthorities := inputs.soleAuthorities.filter fun entry => decide (entry.1.1 ≠ fingerprint) }

def configureTrustedReporter (fingerprint domainId : String)
    (scopes : List (TrustDimension × String)) (canVouchNodes canVouchUsers : Bool) (now : Instant)
    (actorUserId : Option Nat) : Except TrustError TrustDb := do
  refuseIf (fingerprint = "") (.valueError "reporter fingerprint must not be empty")
  refuseIf (db.inputs.domains.contains domainId = false) (.valueError "unknown trust domain: %r")
  let inputs := withoutScopes db.inputs fingerprint
  pure (recomputeAll host
    { db with inputs := { inputs with
      reporters := inputs.reporters.set fingerprint ⟨domainId, canVouchNodes, canVouchUsers⟩
      reporterScopes := inputs.reporterScopes ++
        (expandReporterScopes scopes).map fun scope => (fingerprint, scope) } } now actorUserId)

def removeTrustedReporter (fingerprint : String) (now : Instant) (actorUserId : Option Nat) :
    Except TrustError TrustDb := do
  refuseIf (db.inputs.reporters.contains fingerprint = false)
    (.valueError "unknown trusted reporter: %r")
  let inputs := withoutScopes db.inputs fingerprint
  pure (recomputeAll host
    { db with inputs := { inputs with reporters := inputs.reporters.erase fingerprint } } now
    actorUserId)

def configureSoleAuthority (fingerprint : String) (dimension : TrustDimension)
    (category reason : String) (now : Instant) (actorUserId : Option Nat) :
    Except TrustError TrustDb := do
  refuseIf (stripText reason = "") (.valueError "sole-authority reason must not be empty")
  refuseIf ((categoriesByDimension dimension).contains category = false)
    (.valueError "sole authority requires a known category in the selected dimension")
  refuseIf (db.inputs.reporterScopes.contains (fingerprint, dimension, category) = false)
    (.valueError "sole authority requires an existing matching reporter scope")
  pure (recomputeAll host
    { db with inputs := { db.inputs with
      soleAuthorities := db.inputs.soleAuthorities.set (fingerprint, dimension, category) reason } }
    now actorUserId)

def removeSoleAuthority (fingerprint : String) (dimension : TrustDimension) (category : String)
    (now : Instant) (actorUserId : Option Nat) : Except TrustError TrustDb := do
  refuseIf (db.inputs.soleAuthorities.contains (fingerprint, dimension, category) = false)
    (.valueError "sole-authority exception is missing or already removed")
  pure (recomputeAll host
    { db with inputs := { db.inputs with
      soleAuthorities := db.inputs.soleAuthorities.erase (fingerprint, dimension, category) } }
    now actorUserId)

structure SignalReport where
  contentId : String
  issuerFingerprint : String
  subject : TrustSubject
  dimension : TrustDimension
  category : String
  evidenceClass : EvidenceClass
  observedAt : Instant
  issuedAt : Instant
  expiresAt : Instant
  evidenceVerifiedAt : Option Instant

def recordTrustSignal (report : SignalReport) (now : Instant) : Except TrustError (Bool × TrustDb) := do
  let subject := canonical db.inputs report.subject
  validateCategoryEvidence report.dimension report.category report.evidenceClass
  refuseIf (now + futureTolerance < report.issuedAt)
    (.valueError "issued_at is more than five minutes in the future")
  refuseIf (report.expiresAt ≤ report.issuedAt) (.valueError "expires_at must be after issued_at")
  refuseIf (report.issuedAt + futureTolerance < report.observedAt)
    (.valueError "observed_at cannot be after issued_at")
  requireSubject db subject
  if db.inputs.signals.contains report.contentId then pure (false, db)
  else
    let row : SignalRow :=
      { issuerFingerprint := report.issuerFingerprint
        subject
        dimension := report.dimension
        category := report.category
        evidenceClass := report.evidenceClass
        effectiveExpiresAt := min report.expiresAt (report.issuedAt + maxLifetime report.evidenceClass)
        evidenceVerifiedAt := report.evidenceVerifiedAt }
    pure (true, changeInputs host db
      { db.inputs with signals := db.inputs.signals.set report.contentId row } subject now none)

/-- `mark_signal_evidence_verified`: a signal already verified, or unknown, is left alone. -/
def markSignalEvidenceVerified (contentId : String) (now : Instant) : Bool × TrustDb :=
  match db.inputs.signals.get? contentId with
  | some row =>
    if row.evidenceVerifiedAt = none then
      (true, changeInputs host db
        { db.inputs with
          signals := db.inputs.signals.set contentId { row with evidenceVerifiedAt := some now } }
        row.subject now none)
    else (false, db)
  | none => (false, db)

def SignalRow.revoke (row : SignalRow) (revocationContentId : String) (now : Instant) : SignalRow :=
  if row.revokedAt = none then
    { row with revokedBy := some revocationContentId, revokedAt := some now }
  else row

def revokeTrustSignal (contentId revocationContentId : String) (now : Instant) :
    Except TrustError TrustDb := do
  let row ← orRefuse (db.inputs.signals.get? contentId) (.valueError "unknown trust signal: %r")
  pure (changeInputs host db
    { db.inputs with
      signals := db.inputs.signals.set contentId (row.revoke revocationContentId now) } row.subject now none)

structure VouchReport where
  contentId : String
  issuerFingerprint : String
  subject : TrustSubject
  issuedAt : Instant
  expiresAt : Instant

def recordVouch (report : VouchReport) (now : Instant) : Except TrustError (Bool × TrustDb) := do
  let subject := canonical db.inputs report.subject
  refuseIf (now + futureTolerance < report.issuedAt)
    (.valueError "issued_at is more than five minutes in the future")
  refuseIf (report.expiresAt ≤ report.issuedAt) (.valueError "expires_at must be after issued_at")
  requireSubject db subject
  if db.inputs.vouches.contains report.contentId then pure (false, db)
  else
    let row : VouchRow :=
      { issuerFingerprint := report.issuerFingerprint
        subject
        effectiveExpiresAt := min report.expiresAt (report.issuedAt + vouchMaxLifetime) }
    pure (true, changeInputs host db
      { db.inputs with vouches := db.inputs.vouches.set report.contentId row } subject now none)

def VouchRow.revoke (row : VouchRow) (revocationContentId : String) (now : Instant) : VouchRow :=
  if row.revokedAt = none then
    { row with revokedBy := some revocationContentId, revokedAt := some now }
  else row

def revokeVouch (contentId revocationContentId : String) (now : Instant) :
    Except TrustError TrustDb := do
  let row ← orRefuse (db.inputs.vouches.get? contentId) (.valueError "unknown trust vouch: %r")
  pure (changeInputs host db
    { db.inputs with
      vouches := db.inputs.vouches.set contentId (row.revoke revocationContentId now) } row.subject now none)

def nextOverrideId : Nat := db.inputs.overrides.keys.foldl max 0 + 1

def setTrustOverride (subject : TrustSubject) (dimension : TrustDimension) (state : TrustState)
    (reason : String) (expiresAt : Option Instant) (now : Instant) (actorUserId : Option Nat) :
    Except TrustError (Nat × TrustDb) := do
  let subject := canonical db.inputs subject
  refuseIf (stripText reason = "") (.valueError "trust override reason must not be empty")
  refuseIf (expiresAt.any (fun expiry => decide (expiry ≤ now)) = true)
    (.valueError "override expiry must be in the future")
  requireSubject db subject
  let cleared := db.inputs.overrides.mapValues fun row =>
    if row.subject = subject ∧ row.dimension = dimension ∧ row.clearedAt = none then
      { row with clearedAt := some now }
    else row
  let overrideId := nextOverrideId db
  pure (overrideId, changeInputs host db
    { db.inputs with
      overrides := cleared.set overrideId { subject, dimension, state, reason, expiresAt } }
    subject now actorUserId)

def clearTrustOverride (overrideId : Nat) (now : Instant) (actorUserId : Option Nat) :
    Except TrustError TrustDb := do
  let row ← orRefuse
    ((db.inputs.overrides.get? overrideId).filter fun row => decide (row.clearedAt = none))
    (.valueError "trust override is missing or already cleared: %d")
  pure (changeInputs host db
    { db.inputs with
      overrides := db.inputs.overrides.set overrideId { row with clearedAt := some now } }
    row.subject now actorUserId)

structure ObservationReport where
  observationId : String
  subject : TrustSubject
  dimension : TrustDimension
  category : String
  evidenceClass : EvidenceClass
  observedAt : Instant

def recordLocalObservation (report : ObservationReport) (now : Instant) :
    Except TrustError (Bool × TrustDb) := do
  let subject := canonical db.inputs report.subject
  validateCategoryEvidence report.dimension report.category report.evidenceClass
  refuseIf (now + futureTolerance < report.observedAt)
    (.valueError "observed_at is more than five minutes in the future")
  requireSubject db subject
  if db.inputs.observations.contains report.observationId then pure (false, db)
  else
    let row : ObservationRow :=
      { subject
        dimension := report.dimension
        category := report.category
        evidenceClass := report.evidenceClass
        expiresAt := report.observedAt + maxLifetime report.evidenceClass }
    pure (true, changeInputs host db
      { db.inputs with observations := db.inputs.observations.set report.observationId row }
      subject now none)

def clearLocalObservation (observationId : String) (now : Instant) : Except TrustError TrustDb := do
  let row ← orRefuse (db.inputs.observations.get? observationId)
    (.valueError "unknown local trust observation: %r")
  let cleared := if row.clearedAt = none then { row with clearedAt := some now } else row
  pure (changeInputs host db
    { db.inputs with observations := db.inputs.observations.set observationId cleared }
    row.subject now none)

/-- `maintain_trust_state`: after a recompute, what has been out of force for `retentionDays` goes. -/
def maintainTrustState (retentionDays : Nat) (now : Instant) : Except TrustError TrustDb := do
  refuseIf (retentionDays < 1) (.valueError "trust retention_days must be positive")
  let cutoff := now - days retentionDays
  let kept (ended : Option Instant) (expiry : Instant) : Bool :=
    match ended with
    | some moment => decide (cutoff ≤ moment)
    | none => decide (cutoff ≤ expiry)
  let done := recomputeAll host db now none
  pure { done with inputs := { done.inputs with
    signals := done.inputs.signals.filter fun e => kept e.2.revokedAt e.2.effectiveExpiresAt
    observations := done.inputs.observations.filter fun e => kept e.2.clearedAt e.2.expiresAt
    vouches := done.inputs.vouches.filter fun e => kept e.2.revokedAt e.2.effectiveExpiresAt } }

def withoutSubject (subject : TrustSubject) : TrustDb :=
  { db with
    inputs := { db.inputs with
      subjects := db.inputs.subjects.erase subject
      activityDays := db.inputs.activityDays.filter fun e => decide (e.1.1 ≠ subject) }
    effectiveStates := db.effectiveStates.filter fun e => decide (e.1.1 ≠ subject) }

/-- `forget_untouched_node_subject`: a node nothing was ever said about is forgotten. -/
def forgetUntouchedNodeSubject (fingerprint : String) : Bool × TrustDb :=
  let subject := TrustSubject.node fingerprint
  let named := (db.inputs.signals.values.any fun row => decide (row.subject = subject)) ||
    (db.inputs.observations.values.any fun row => decide (row.subject = subject)) ||
    (db.inputs.vouches.values.any fun row => decide (row.subject = subject)) ||
    (db.inputs.overrides.values.any fun row => decide (row.subject = subject)) ||
    (db.inputs.activityDays.keys.any fun key => decide (key.1 = subject)) ||
    db.inputs.attested.contains subject
  let changed := db.decisionAudit.any fun row =>
    decide (row.subject = subject) && (row.previousState.isSome || row.actorUserId.isSome)
  if named || changed then (false, db)
  else
    (true, withoutSubject
      { db with decisionAudit := db.decisionAudit.filter fun row => decide (row.subject ≠ subject) }
      subject)

def laxerOverride (old new : TrustSubject) (dimension : TrustDimension) (now : Instant) :
    Option Nat := do
  let keptOld ← activeOverride db old dimension now
  let keptNew ← activeOverride db new dimension now
  pure (if keptOld.2.state.strictness < keptNew.2.state.strictness then keptOld.1 else keptNew.1)

/-- `UPDATE link_trust_overrides SET cleared_at = ? WHERE override_id = ?`. -/
def clearOverride (now : Instant) (overrides : Dict Nat OverrideRow) (overrideId : Nat) :
    Dict Nat OverrideRow :=
  match overrides.get? overrideId with
  | some row => overrides.set overrideId { row with clearedAt := some now }
  | none => overrides

def oldStateKept (oldRow : EffectiveRow) (newRow : Option EffectiveRow) : Bool :=
  newRow.all fun newRow =>
    decide (newRow.state.strictness < oldRow.state.strictness) ||
      decide (oldRow.state = .quarantined ∧ newRow.state = .quarantined) &&
        oldRow.recoveryStartedAt.any fun oldStart =>
          newRow.recoveryStartedAt.all fun newStart => decide (newStart < oldStart)

def takeOldState (old new : TrustSubject) (states : Dict (TrustSubject × TrustDimension) EffectiveRow)
    (dimension : TrustDimension) : Dict (TrustSubject × TrustDimension) EffectiveRow :=
  match states.get? (old, dimension) with
  | none => states
  | some oldRow =>
    if oldStateKept oldRow (states.get? (new, dimension)) = true then
      states.set (new, dimension) oldRow
    else states

def takeOldStates (old new : TrustSubject) : Dict (TrustSubject × TrustDimension) EffectiveRow :=
  trustDimensions.foldl (takeOldState old new) db.effectiveStates

def mergeActivityDays (old new : TrustSubject) : Dict (TrustSubject × Day) Bool :=
  (db.inputs.activityDays.entries.foldl
    (fun activity entry =>
      if entry.1.1 = old then
        activity.set (new, entry.1.2) ((activity.get? (new, entry.1.2)).getD false || entry.2)
      else activity)
    db.inputs.activityDays).filter fun entry => decide (entry.1.1 ≠ old)

def movedTables (oldRow : SubjectRow) (old new : TrustSubject) (now : Instant) : TrustDb :=
  let moved (subject : TrustSubject) : TrustSubject := if subject = old then new else subject
  let first := ((db.inputs.subjects.get? new).map SubjectRow.firstAcceptedAt).elim
    oldRow.firstAcceptedAt (min oldRow.firstAcceptedAt)
  let newRow : SubjectRow :=
    { firstAcceptedAt := first
      firstVerifiedHelloAt := (db.inputs.subjects.get? new).bind SubjectRow.firstVerifiedHelloAt }
  let subjects := db.inputs.subjects.set new newRow
  let cleared := trustDimensions.filterMap fun dimension => laxerOverride db old new dimension now
  { inputs := { db.inputs with
      subjects := if old ∈ db.inputs.attested then subjects else subjects.erase old
      activityDays := mergeActivityDays db old new
      signals := db.inputs.signals.mapValues fun row => { row with subject := moved row.subject }
      observations := db.inputs.observations.mapValues fun row =>
        { row with subject := moved row.subject }
      vouches := db.inputs.vouches.mapValues fun row => { row with subject := moved row.subject }
      overrides := (cleared.foldl (clearOverride now) db.inputs.overrides).mapValues fun row =>
        { row with subject := moved row.subject } }
    effectiveStates := (takeOldStates db old new).filter fun entry => decide (entry.1.1 ≠ old)
    decisionAudit := db.decisionAudit.map fun row => { row with subject := moved row.subject } }

def mergeRenamedUserSubject (old new : TrustSubject) (now : Instant) : TrustDb :=
  match db.inputs.subjects.get? old with
  | none => db
  | some oldRow => recomputeSubject host (movedTables db oldRow old new now) new now none

end NetBBS.Trust
