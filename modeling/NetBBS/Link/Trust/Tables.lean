import Mathlib.Algebra.Field.Rat
import Mathlib.Algebra.Order.Ring.Rat
import NetBBS.Foundation.Dict
import NetBBS.Foundation.Refusal

/-! # The trust tables -/

namespace NetBBS.Trust

open Foundation

abbrev Instant := Nat

abbrev Day := Nat

def minutes (n : Nat) : Nat := n * 60000000

def hours (n : Nat) : Nat := n * 3600000000

def days (n : Nat) : Nat := n * 86400000000

def dateOf (moment : Instant) : Day := moment / days 1

inductive TrustDimension where
  | identityIntegrity
  | resourceBehavior
  | contentConduct
deriving DecidableEq

/-- `for dimension in TrustDimension`. -/
def trustDimensions : List TrustDimension :=
  [.identityIntegrity, .resourceBehavior, .contentConduct]

inductive TrustState where
  | probationary
  | established
  | quarantined
  | blocked
deriving DecidableEq

def TrustState.strictness : TrustState → Nat
  | .established => 0
  | .probationary => 1
  | .quarantined => 2
  | .blocked => 3

inductive EvidenceClass where
  | selfVerifying
  | observerAttested
  | subjective
deriving DecidableEq

def identityCategories : List String :=
  ["signed_equivocation", "revoked_key_use", "invalid_authority", "invalid_signature_delivery"]

def resourceCategories : List String :=
  ["malformed_traffic", "request_flood", "quota_evasion", "inventory_nondelivery", "relay_abuse"]

def contentCategories : List String :=
  ["spam", "harassment", "illegal_content", "off_topic", "other"]

def categoriesByDimension : TrustDimension → List String
  | .identityIntegrity => identityCategories
  | .resourceBehavior => resourceCategories
  | .contentConduct => contentCategories

def maxLifetime : EvidenceClass → Nat
  | .selfVerifying => days 90
  | .observerAttested => days 7
  | .subjective => days 30

def vouchMaxLifetime : Nat := days 180
def futureTolerance : Nat := minutes 5
def recoveryHold : Nat := hours 24
def nodeProbationAge : Nat := days 30
def userProbationAge : Nat := days 14

inductive TrustSubject where
  | node (fingerprint : String)
  | user (homeNode opaqueUserId : String)
deriving DecidableEq

def TrustSubject.isNode : TrustSubject → Bool
  | .node _ => true
  | .user _ _ => false

abbrev Weight := { w : ℚ // 0 ≤ w ∧ w ≤ 1 }

structure DomainRow where
  displayName : String
  weight : Weight

structure ReporterRow where
  domainId : String
  canVouchNodes : Bool
  canVouchUsers : Bool
deriving DecidableEq

structure SubjectRow where
  firstAcceptedAt : Instant
  firstVerifiedHelloAt : Option Instant

structure SignalRow where
  issuerFingerprint : String
  subject : TrustSubject
  dimension : TrustDimension
  category : String
  evidenceClass : EvidenceClass
  effectiveExpiresAt : Instant
  evidenceVerifiedAt : Option Instant
  revokedBy : Option String := none
  revokedAt : Option Instant := none
deriving DecidableEq

structure ObservationRow where
  subject : TrustSubject
  dimension : TrustDimension
  category : String
  evidenceClass : EvidenceClass
  expiresAt : Instant
  clearedAt : Option Instant := none

structure VouchRow where
  issuerFingerprint : String
  subject : TrustSubject
  effectiveExpiresAt : Instant
  revokedBy : Option String := none
  revokedAt : Option Instant := none

structure OverrideRow where
  subject : TrustSubject
  dimension : TrustDimension
  state : TrustState
  reason : String
  expiresAt : Option Instant
  clearedAt : Option Instant := none
deriving DecidableEq

inductive ReasonCode where
  | manualBlock
  | sysopOverride
  | localSelfVerifyingEvidence
  | soleAuthoritySignal
  | remoteDomainThreshold
  | equivocationReviewRequired
  | recoveryHold
  | automaticRecovery
  | automaticGraduation
  | probationRequirementsIncomplete
deriving DecidableEq

structure LocalEvidence where
  observationId : String
  category : String
  evidenceClass : EvidenceClass

instance decidableEqLocalEvidence : DecidableEq LocalEvidence := fun a b =>
  decidable_of_iff
    (a.observationId = b.observationId ∧ a.category = b.category ∧ a.evidenceClass = b.evidenceClass)
    (by cases a; cases b; simp)

/-- An active signal of a reporter in its scope. -/
structure RemoteEvidence where
  contentId : String
  category : String
  evidenceClass : EvidenceClass
  issuerFingerprint : String
  domainId : String
  domainWeight : Weight
  evidenceVerified : Bool

instance decidableEqRemoteEvidence : DecidableEq RemoteEvidence := fun a b =>
  decidable_of_iff
    (a.contentId = b.contentId ∧ a.category = b.category ∧ a.evidenceClass = b.evidenceClass ∧
      a.issuerFingerprint = b.issuerFingerprint ∧ a.domainId = b.domainId ∧
      a.domainWeight = b.domainWeight ∧ a.evidenceVerified = b.evidenceVerified)
    (by cases a; cases b; simp)

/-- What `_ordinary_state` explains itself with. -/
structure ProbationProgress where
  ageRequirementMet : Bool
  activityDays : Nat
  activeTriggerCount : Nat
  dimensionTriggerCount : Nat
  vouchDomains : List String
  requiredVouchDomains : Nat

instance decidableEqProbationProgress : DecidableEq ProbationProgress := fun a b =>
  decidable_of_iff
    (a.ageRequirementMet = b.ageRequirementMet ∧ a.activityDays = b.activityDays ∧
      a.activeTriggerCount = b.activeTriggerCount ∧
      a.dimensionTriggerCount = b.dimensionTriggerCount ∧ a.vouchDomains = b.vouchDomains ∧
      a.requiredVouchDomains = b.requiredVouchDomains)
    (by cases a; cases b; simp)

/-- What an explanation says, but for the threshold. -/
inductive Grounds where
  | override (overrideId : Nat) (reason : String) (localEvidence : List LocalEvidence)
      (remoteEvidence : List RemoteEvidence)
  | triggered (localEvidence : List LocalEvidence) (remoteEvidence : List RemoteEvidence)
      (soleAuthority : List (String × String))
  | awaitingReview (observationIds : List String)
  | recoveryHold (startedAt releaseAt : Instant) (localEvidence : List LocalEvidence)
      (remoteEvidence : List RemoteEvidence)
  | recovered (recoveredAt : Instant)
  | ordinary (progress : ProbationProgress)

-- A derived instance compares by rewriting one side into the other, which does not evaluate.
instance decidableEqGrounds : DecidableEq Grounds := by
  intro a b
  cases a <;> cases b
  case override.override i r l m i' r' l' m' =>
    exact decidable_of_iff (i = i' ∧ r = r' ∧ l = l' ∧ m = m') (by simp)
  case triggered.triggered l m s l' m' s' =>
    exact decidable_of_iff (l = l' ∧ m = m' ∧ s = s') (by simp)
  case awaitingReview.awaitingReview o o' =>
    exact decidable_of_iff (o = o') (by simp)
  case recoveryHold.recoveryHold t u l m t' u' l' m' =>
    exact decidable_of_iff (t = t' ∧ u = u' ∧ l = l' ∧ m = m') (by simp)
  case recovered.recovered t t' =>
    exact decidable_of_iff (t = t') (by simp)
  case ordinary.ordinary p p' =>
    exact decidable_of_iff (p = p') (by simp)
  all_goals exact isFalse (by simp)

/-- `_threshold_progress`: the domains that count, and their weight. -/
structure ThresholdProgress where
  countedDomains : List (String × ℚ)
  countedWeight : ℚ

instance decidableEqThresholdProgress : DecidableEq ThresholdProgress := fun a b =>
  decidable_of_iff
    (a.countedDomains = b.countedDomains ∧ a.countedWeight = b.countedWeight)
    (by cases a; cases b; simp)

structure Explanation where
  grounds : Grounds
  threshold : Option ThresholdProgress

instance decidableEqExplanation : DecidableEq Explanation := fun a b =>
  decidable_of_iff
    (a.grounds = b.grounds ∧ a.threshold = b.threshold)
    (by cases a; cases b; simp)

structure EffectiveRow where
  state : TrustState
  reasonCode : ReasonCode
  recoveryStartedAt : Option Instant
  explanation : Explanation
  evaluatedAt : Instant

instance decidableEqEffectiveRow : DecidableEq EffectiveRow := fun a b =>
  decidable_of_iff
    (a.state = b.state ∧ a.reasonCode = b.reasonCode ∧
      a.recoveryStartedAt = b.recoveryStartedAt ∧ a.explanation = b.explanation ∧
      a.evaluatedAt = b.evaluatedAt)
    (by cases a; cases b; simp)

structure AuditRow where
  subject : TrustSubject
  dimension : TrustDimension
  previousState : Option TrustState
  newState : TrustState
  reasonCode : ReasonCode
  actorUserId : Option Nat
  createdAt : Instant

/-- The tables a state is derived from. -/
structure TrustInputs where
  domains : Dict String DomainRow := .empty
  reporters : Dict String ReporterRow := .empty
  reporterScopes : List (String × TrustDimension × String) := []
  /-- With the reason. -/
  soleAuthorities : Dict (String × TrustDimension × String) String := .empty
  subjects : Dict TrustSubject SubjectRow := .empty
  /-- Whether the day was one of direct interaction. -/
  activityDays : Dict (TrustSubject × Day) Bool := .empty
  signals : Dict String SignalRow := .empty
  observations : Dict String ObservationRow := .empty
  vouches : Dict String VouchRow := .empty
  overrides : Dict Nat OverrideRow := .empty
  /-- The new name of a renamed user of a node. -/
  userAliases : Dict (String × String) String := .empty
  /-- The subjects an attestation names. -/
  attested : List TrustSubject := []

structure TrustDb where
  inputs : TrustInputs
  effectiveStates : Dict (TrustSubject × TrustDimension) EffectiveRow := .empty
  decisionAudit : List AuditRow := []

/-- What the library and the machine give. -/
structure TrustHost where
  /-- `subject_id`, of which only the order matters. -/
  subjectId : TrustSubject → String
  /-- `sum` of floats. -/
  floatSum : List ℚ → ℚ

end NetBBS.Trust
