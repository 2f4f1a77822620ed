import NetBBS.Link.Issuance.Attestations

/-! # Issuing signed vouches -/

namespace NetBBS.Issuance

open Foundation

structure TrustSubject where
  nodeFingerprint : String
  opaqueUserId : Option String := none
deriving DecidableEq

inductive VouchEnvelope (ι : Type) where
  | vouch (issuer vouchId : String) (subject : TrustSubject) (issuedAt expiresAt : Int) (explanation : Text)
  | revocation (issuer revocationId : String) (revokedContentId : ι) (issuedAt : Int)
deriving DecidableEq

/-- The ID drawn for the object. -/
def VouchEnvelope.token {ι : Type} : VouchEnvelope ι → String
  | .vouch _ token _ _ _ _ => token
  | .revocation _ token _ _ => token

def VouchEnvelope.subject {ι : Type} : VouchEnvelope ι → Option TrustSubject
  | .vouch _ _ subject _ _ _ => some subject
  | .revocation _ _ _ _ => none

def VouchEnvelope.expiresAt {ι : Type} : VouchEnvelope ι → Option Int
  | .vouch _ _ _ _ expiresAt _ => some expiresAt
  | .revocation _ _ _ _ => none

def VouchEnvelope.explanation {ι : Type} : VouchEnvelope ι → Option Text
  | .vouch _ _ _ _ _ explanation => some explanation
  | .revocation _ _ _ _ => none

def VouchEnvelope.revokedContentId {ι : Type} : VouchEnvelope ι → Option ι
  | .vouch _ _ _ _ _ _ => none
  | .revocation _ _ revoked _ => some revoked

structure VouchPlatform (ι κ σ : Type) where
  contentId : VouchEnvelope ι → ι
  sign : κ → VouchEnvelope ι → σ
  verify : κ → VouchEnvelope ι → σ → Bool
  tokenHex : Nat → String

structure WireObject (ι σ : Type) where
  contentId : ι
  envelope : VouchEnvelope ι
  signature : σ
  subject : Option TrustSubject
  expiresAt : Option Int
  revokedByContentId : Option ι := none
  revokedAt : Option Int := none

structure WireObjects (ι σ : Type) where
  rows : List (WireObject ι σ) := []
  drawn : Nat := 0

structure VouchDb (ι σ : Type) where
  intents : Dict TrustSubject Text := .empty
  restricted : List TrustSubject := []
  subjects : List TrustSubject := []
  objects : WireObjects ι σ := {}

/-- `IssuedVouchChange`. -/
structure VouchChange (ι : Type) where
  action : Action
  contentId : ι
  subject : Option TrustSubject
  reason : String

def issuedVouchLifetime : Int := 90 * day

def issuedVouchRenewWithin : Int := 30 * day

def maxVouchExplanationChars : Nat := 280

variable {ι σ : Type}

/-- `record_vouch_intent`; the node's own fingerprint where the caller knows it. -/
def VouchDb.recordVouchIntent (db : VouchDb ι σ) (subject : TrustSubject) (explanation : Text)
    (ownNodeFingerprint : Option String) : Except String (VouchDb ι σ) :=
  let explanation := Text.strip explanation
  if explanation = [] then .error "a vouch needs a reason; it is published with the vouch"
  else if maxVouchExplanationChars < explanation.length then
    .error "the reason is published with the vouch and may be at most 280 characters"
  else if ownNodeFingerprint = some subject.nodeFingerprint then
    .error "a node cannot vouch for itself or for its own users"
  else if subject ∉ db.subjects then .error "that identity is not a trust subject this node has met"
  else if subject ∈ db.restricted then
    .error ("this node has that identity quarantined or blocked; lift that first, " ++
      "or the vouch would say something this node does not act on")
  else .ok { db with intents := (db.intents.erase subject).set subject explanation }

def VouchDb.withdrawVouchIntent (db : VouchDb ι σ) (subject : TrustSubject) : VouchDb ι σ :=
  { db with intents := db.intents.erase subject }

section Pass

variable {ι κ σ : Type} [DecidableEq ι] (platform : VouchPlatform ι κ σ) (pass : Pass κ)

/-- Unrevoked and unexpired, as the query asks it. -/
def WireObject.Live (now : Int) (row : WireObject ι σ) : Prop :=
  row.envelope.subject.isSome ∧ row.revokedAt = none ∧ ∃ expiresAt ∈ row.expiresAt, now < expiresAt

instance (now : Int) (row : WireObject ι σ) : Decidable (row.Live now) := by
  unfold WireObject.Live
  infer_instance

/-- `_live_own_vouches`: newest first. -/
def liveOwnVouches (now : Int) (rows : List (WireObject ι σ)) : List (WireObject ι σ) :=
  (rows.filter fun row => decide (row.Live now)).reverse

def storeIssuedTrustObject (rows : List (WireObject ι σ)) (row : WireObject ι σ) : List (WireObject ι σ) :=
  insertOrIgnore WireObject.contentId rows row

def signedRow (envelope : VouchEnvelope ι) : WireObject ι σ :=
  { contentId := platform.contentId envelope
    envelope := envelope
    signature := platform.sign pass.signingKey envelope
    subject := envelope.subject
    expiresAt := envelope.expiresAt }

def WireObjects.sign (objects : WireObjects ι σ) (envelope : String → VouchEnvelope ι) : WireObjects ι σ :=
  { rows := storeIssuedTrustObject objects.rows (signedRow platform pass (envelope (platform.tokenHex objects.drawn)))
    drawn := objects.drawn + 1 }

/-- `build_trust_revocation`, but for its ID. -/
def revocationOf (target : ι) (revocationId : String) : VouchEnvelope ι :=
  .revocation pass.homeNodeFingerprint revocationId target pass.now

/-- `build_trust_vouch`, but for its ID. -/
def vouchFor (subject : TrustSubject) (explanation : Text) (vouchId : String) : VouchEnvelope ι :=
  .vouch pass.homeNodeFingerprint vouchId subject pass.now (pass.now + issuedVouchLifetime) explanation

/-- The `UPDATE` of `_revoke`. -/
def WireObject.markRevoked (revocation target : ι) (now : Int) (row : WireObject ι σ) : WireObject ι σ :=
  if row.contentId = target ∧ row.revokedAt = none then
    { row with revokedByContentId := some revocation, revokedAt := some now }
  else row

def WireObjects.nextId (objects : WireObjects ι σ) (envelope : String → VouchEnvelope ι) : ι :=
  platform.contentId (envelope (platform.tokenHex objects.drawn))

def WireObjects.revoke (objects : WireObjects ι σ) (row : WireObject ι σ) : WireObjects ι σ :=
  let stored := objects.sign platform pass (revocationOf pass row.contentId)
  { stored with
    rows := stored.rows.map
      (WireObject.markRevoked (objects.nextId platform (revocationOf pass row.contentId)) row.contentId pass.now) }

def VouchDb.Restricted (db : VouchDb ι σ) (subject : TrustSubject) : Prop :=
  subject ∈ db.restricted ∨ subject.nodeFingerprint = pass.homeNodeFingerprint

instance (db : VouchDb ι σ) (subject : TrustSubject) : Decidable (db.Restricted pass subject) := by
  unfold VouchDb.Restricted
  infer_instance

def VouchDb.staleReason (db : VouchDb ι σ) (row : WireObject ι σ) : Option String :=
  match row.subject with
  | none => some "intent_withdrawn"
  | some subject =>
    match db.intents.get? subject with
    | none => some "intent_withdrawn"
    | some explanation =>
      if db.Restricted pass subject then some "subject_restricted_here"
      else if row.envelope.explanation ≠ some explanation then some "explanation_replaced"
      else none

structure Sweep (ι σ : Type) where
  objects : WireObjects ι σ
  current : Dict TrustSubject (WireObject ι σ) := .empty
  changes : List (VouchChange ι) := []

def sweepVouch (db : VouchDb ι σ) (sweep : Sweep ι σ) (row : WireObject ι σ) : Sweep ι σ :=
  match db.staleReason pass row with
  | none =>
    match row.subject with
    | none => sweep
    | some subject => { sweep with current := sweep.current.setDefault subject row }
  | some reason =>
    { sweep with
      objects := sweep.objects.revoke platform pass row
      changes := sweep.changes ++ [⟨.revoked,
        sweep.objects.nextId platform (revocationOf pass row.contentId), row.envelope.subject, reason⟩] }

def neededVouch (active : Option (WireObject ι σ)) : Option (Action × String) :=
  match active with
  | none => some (.issued, "intent_recorded")
  | some row =>
    if platform.verify pass.signingKey row.envelope row.signature = false then
      some (.renewed, "signing_key_rotated")
    else if ∃ expiresAt ∈ row.expiresAt, pass.now + issuedVouchRenewWithin < expiresAt then none
    else some (.renewed, "approaching_expiry")

/-- One turn of the loop over the intents. -/
def issueVouch (db : VouchDb ι σ) (current : Dict TrustSubject (WireObject ι σ))
    (acc : WireObjects ι σ × List (VouchChange ι)) (item : TrustSubject × Text) :
    WireObjects ι σ × List (VouchChange ι) :=
  if db.Restricted pass item.1 then acc
  else match neededVouch platform pass (current.get? item.1) with
    | none => acc
    | some (action, reason) =>
      (acc.1.sign platform pass (vouchFor pass item.1 item.2),
        acc.2 ++ [⟨action, acc.1.nextId platform (vouchFor pass item.1 item.2), some item.1, reason⟩])

def revocationTargets (now : Int) (rows : List (WireObject ι σ)) : List ι :=
  (rows.filterMap fun row => row.envelope.revokedContentId.filter fun target =>
    decide (∃ named ∈ rows, named.contentId = target ∧ ∃ expiresAt ∈ named.expiresAt, now < expiresAt)).eraseDups

def orphanedVouches (rows : List (WireObject ι σ)) : List ι :=
  (revocationTargets pass.now rows).filter fun target =>
    decide (¬∃ row ∈ rows, row.envelope.revokedContentId = some target ∧
      platform.verify pass.signingKey row.envelope row.signature = true)

def resignVouch (acc : WireObjects ι σ × List (VouchChange ι)) (target : ι) :
    WireObjects ι σ × List (VouchChange ι) :=
  (acc.1.sign platform pass (revocationOf pass target),
    acc.2 ++ [⟨.revoked, acc.1.nextId platform (revocationOf pass target), none, "signing_key_rotated"⟩])

def reconcileIssuedVouches (db : VouchDb ι σ) : VouchDb ι σ × List (VouchChange ι) :=
  let sweep := (liveOwnVouches pass.now db.objects.rows).foldl (sweepVouch platform pass db) { objects := db.objects }
  let signed := db.intents.entries.foldl (issueVouch platform pass db sweep.current) (sweep.objects, sweep.changes)
  let again := (orphanedVouches platform pass signed.1.rows).foldl (resignVouch platform pass) signed
  ({ db with objects := again.1 }, again.2)

end Pass

end NetBBS.Issuance
