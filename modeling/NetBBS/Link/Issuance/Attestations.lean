import Mathlib.Algebra.GroupWithZero.Nat
import Mathlib.Data.List.Sort
import NetBBS.Foundation.Dict
import NetBBS.Foundation.Numbering
import NetBBS.Python.Text

/-! # Issuing signed attestations -/

namespace NetBBS.Issuance

open Foundation

inductive Attribute where
  | age
  | name
deriving DecidableEq

/-- The attributes in the order of their names. -/
def Attribute.rank : Attribute → Nat
  | .age => 0
  | .name => 1

inductive Envelope (ι : Type) where
  | attestation (issuer username : String) (attr : Attribute) (attestedValue : Text)
      (issuedAt expiresAt : Int)
  | revocation (issuer : String) (revokedContentId : ι) (issuedAt : Int)

def Envelope.opaqueUserId {ι : Type} : Envelope ι → Option String
  | .attestation _ username _ _ _ _ => some username
  | .revocation _ _ _ => none

def Envelope.revokedContentId {ι : Type} : Envelope ι → Option ι
  | .attestation _ _ _ _ _ _ => none
  | .revocation _ revoked _ => some revoked

structure Platform (ι κ σ : Type) where
  contentId : Envelope ι → ι
  before : ι → ι → Bool
  sign : κ → Envelope ι → σ
  fromisoformat : Text → Option Int

inductive ObjectType where
  | attestation
  | revocation
deriving DecidableEq

structure Issued (ι κ σ : Type) where
  contentId : ι
  objectType : ObjectType
  userId : Option Nat := none
  attr : Option Attribute := none
  attestedValue : Option Text := none
  envelope : Option (Envelope ι)
  signature : Option σ
  issuedAt : Int
  expiresAt : Option Int := none
  signingKeyFingerprint : κ
  revokedByContentId : Option ι := none
  revokedAt : Option Int := none
  redactedAt : Option Int := none

structure UserAttestation where
  attestedValue : Text
  verifierUserId : Option Nat
  linkVisible : Bool := false

structure Db (ι κ σ : Type) where
  users : Dict Nat String := .empty
  attestations : Dict (Nat × Attribute) UserAttestation := .empty
  issued : List (Issued ι κ σ) := []

structure Pass (κ : Type) where
  homeNodeFingerprint : String
  signingKey : κ
  now : Int
  today : Int

inductive Action where
  | issued
  | renewed
  | revoked
  | refused
deriving DecidableEq

/-- `IssuedAttestationChange`. -/
structure Change (ι : Type) where
  action : Action
  contentId : Option ι
  userId : Option Nat
  attr : Option Attribute
  reason : String

def day : Int := 86400 * 1000000

def issuedAttestationLifetime : Int := 90 * day

def issuedAttestationRenewWithin : Int := 30 * day

def maxLifetime : Int := 365 * day

def maxNameBytes : Nat := 128

section Pass

variable {ι κ σ : Type} [DecidableEq ι] [DecidableEq κ] (platform : Platform ι κ σ) (pass : Pass κ)

/-- `UserAttestation.self_attested`, and the condition of the consent query. -/
def UserAttestation.selfAttested (attestation : UserAttestation) (subject : Nat) : Bool :=
  decide (attestation.verifierUserId = some subject)

def validateValue (attr : Attribute) (value : Text) : Except String Text :=
  let value := Text.strip value
  if value = [] then .error "attested value must not be blank"
  else match attr with
    | .age =>
      match platform.fromisoformat value with
      | none => .error "age attestation must contain an ISO birthdate"
      | some birthdate =>
        if pass.today < birthdate then .error "attested birthdate cannot be in the future" else .ok value
    | .name =>
      if maxNameBytes < (value.map Char.utf8Size).sum then .error "attested name cannot exceed 128 bytes"
      else .ok value

def buildLinkVisibleRemoteAttestation (db : Db ι κ σ) (user : Nat) (username : String) (attr : Attribute)
    (issuedAt expiresAt : Int) : Except String (Envelope ι) :=
  match db.attestations.get? (user, attr) with
  | none => .error "local attestation is missing or not explicitly Link-visible"
  | some attestation =>
    if attestation.linkVisible = false then
      .error "local attestation is missing or not explicitly Link-visible"
    else if attestation.selfAttested user then .error "a self-verification is never shared over Link"
    else if pass.homeNodeFingerprint = "" then .error "trust subject node fingerprint must not be empty"
    else match validateValue platform pass attr attestation.attestedValue with
      | .error message => .error message
      | .ok value =>
        if expiresAt ≤ issuedAt ∨ issuedAt + maxLifetime < expiresAt then
          .error "remote attestation lifetime must be positive and at most 365 days"
        else .ok (.attestation pass.homeNodeFingerprint username attr value issuedAt expiresAt)

/-- `INSERT OR IGNORE` of `_store_issued`. -/
def storeIssued (issued : List (Issued ι κ σ)) (row : Issued ι κ σ) : List (Issued ι κ σ) :=
  insertOrIgnore Issued.contentId issued row

def revocationRow (target : ι) : Issued ι κ σ :=
  let envelope := .revocation pass.homeNodeFingerprint target pass.now
  { contentId := platform.contentId envelope
    objectType := .revocation
    envelope := some envelope
    signature := some (platform.sign pass.signingKey envelope)
    issuedAt := pass.now
    signingKeyFingerprint := pass.signingKey }

def attestationRow (user : Nat) (attr : Attribute) (value : Text) (envelope : Envelope ι) :
    Issued ι κ σ :=
  { contentId := platform.contentId envelope
    objectType := .attestation
    userId := some user
    attr := some attr
    attestedValue := some value
    envelope := some envelope
    signature := some (platform.sign pass.signingKey envelope)
    issuedAt := pass.now
    expiresAt := some (pass.now + issuedAttestationLifetime)
    signingKeyFingerprint := pass.signingKey }

/-- Unrevoked and unexpired, as the queries ask it. -/
def Issued.Live (now : Int) (row : Issued ι κ σ) : Prop :=
  row.objectType = .attestation ∧ row.revokedAt = none ∧ ∃ expiresAt ∈ row.expiresAt, now < expiresAt

instance (now : Int) (row : Issued ι κ σ) : Decidable (row.Live now) := by
  unfold Issued.Live
  infer_instance

def markRevoked (revocation : ι) (now : Int) (target : ι) (row : Issued ι κ σ) : Issued ι κ σ :=
  if row.contentId = target ∧ row.revokedAt = none then
    { row with revokedByContentId := some revocation, revokedAt := some now }
  else row

def revokeIssued (issued : List (Issued ι κ σ)) (row : Issued ι κ σ) : List (Issued ι κ σ) :=
  let revocation : Issued ι κ σ := revocationRow platform pass row.contentId
  (storeIssued issued revocation).map (markRevoked revocation.contentId pass.now row.contentId)

def Db.consented (db : Db ι κ σ) : Dict (Nat × Attribute) Text :=
  (db.attestations.filter fun entry => entry.2.linkVisible && !entry.2.selfAttested entry.1.1).mapValues
    UserAttestation.attestedValue

/-- Why a live object is revoked. -/
def Db.staleReason (db : Db ι κ σ) (row : Issued ι κ σ) : Option String :=
  match row.userId with
  | none => some "account_removed"
  | some user =>
    match row.attr.bind fun attr => db.consented.get? (user, attr) with
    | none => some "consent_withdrawn"
    | some value =>
      if row.attestedValue ≠ some value then some "attested_value_replaced"
      else match row.envelope.bind Envelope.opaqueUserId with
        | none => none
        | some name => if db.users.get? user ≠ some name then some "account_renamed" else none

/-- One turn of the loop over the live objects. -/
def sweepOne (db : Db ι κ σ) (acc : List (Issued ι κ σ) × List (Change ι)) (row : Issued ι κ σ) :
    List (Issued ι κ σ) × List (Change ι) :=
  match db.staleReason row with
  | none => acc
  | some reason =>
    (revokeIssued platform pass acc.1 row, acc.2 ++
      [⟨.revoked, some (revocationRow (σ := σ) platform pass row.contentId).contentId, row.userId, row.attr,
        reason⟩])

def Issued.Stands (now : Int) (user : Nat) (attr : Attribute) (row : Issued ι κ σ) : Prop :=
  row.Live now ∧ row.userId = some user ∧ row.attr = some attr

instance (now : Int) (user : Nat) (attr : Attribute) (row : Issued ι κ σ) :
    Decidable (row.Stands now user attr) := by
  unfold Issued.Stands
  infer_instance

/-- `ORDER BY issued_at DESC, content_id DESC LIMIT 1`, one row further. -/
def laterOf (best : Option (Issued ι κ σ)) (row : Issued ι κ σ) : Option (Issued ι κ σ) :=
  match best with
  | none => some row
  | some best =>
    if best.issuedAt < row.issuedAt ∨ (best.issuedAt = row.issuedAt ∧ platform.before best.contentId row.contentId)
    then some row else some best

def issuedActiveRow (issued : List (Issued ι κ σ)) (user : Nat) (attr : Attribute) (now : Int) :
    Option (Issued ι κ σ) :=
  (issued.filter fun row => decide (row.Stands now user attr)).foldl (laterOf platform) none

def neededAction (active : Option (Issued ι κ σ)) (value : Text) : Option (Action × String) :=
  match active with
  | none => some (.issued, "consent_granted")
  | some row =>
    if row.attestedValue ≠ some value then some (.issued, "consent_granted")
    else if row.signingKeyFingerprint ≠ pass.signingKey then some (.renewed, "signing_key_rotated")
    else if ∃ expiresAt ∈ row.expiresAt, pass.now + issuedAttestationRenewWithin < expiresAt then none
    else some (.renewed, "approaching_expiry")

/-- What one turn of the loop over the consents reports, and the row it stores. -/
def issueOne (db : Db ι κ σ) (issued : List (Issued ι κ σ)) (item : (Nat × Attribute) × Text) :
    Option (Change ι × Option (Issued ι κ σ)) :=
  let ((user, attr), value) := item
  match neededAction pass (issuedActiveRow platform issued user attr pass.now) value with
  | none => none
  | some (action, reason) =>
    match db.users.get? user with
    | none => none
    | some username =>
      match buildLinkVisibleRemoteAttestation platform pass db user username attr pass.now
          (pass.now + issuedAttestationLifetime) with
      | .error message =>
        -- Consent and value are as they were, so the object can never be exported.
        if ∃ current ∈ db.attestations.get? (user, attr),
            current.linkVisible = true ∧ current.attestedValue = value then
          some (⟨.refused, none, some user, some attr, "not_exportable: " ++ message⟩, none)
        else none
      | .ok envelope =>
        some (⟨action, some (platform.contentId envelope), some user, some attr, reason⟩,
          some (attestationRow platform pass user attr value envelope))

def issueStep (db : Db ι κ σ) (acc : List (Issued ι κ σ) × List (Change ι)) (item : (Nat × Attribute) × Text) :
    List (Issued ι κ σ) × List (Change ι) :=
  match issueOne platform pass db acc.1 item with
  | none => acc
  | some (change, none) => (acc.1, acc.2 ++ [change])
  | some (change, some row) => (storeIssued acc.1 row, acc.2 ++ [change])

/-- `sorted(consented.items())`. -/
def Db.sortedConsents (db : Db ι κ σ) : List ((Nat × Attribute) × Text) :=
  db.consented.entries.insertionSort fun a b =>
    a.1.1 < b.1.1 ∨ (a.1.1 = b.1.1 ∧ a.1.2.rank ≤ b.1.2.rank)

def Issued.Revokes (target : ι) (row : Issued ι κ σ) : Prop :=
  row.objectType = .revocation ∧ row.envelope.bind Envelope.revokedContentId = some target

instance (target : ι) (row : Issued ι κ σ) : Decidable (row.Revokes target) := by
  unfold Issued.Revokes
  infer_instance

def Issued.Outstanding (now : Int) (row : Issued ι κ σ) : Prop :=
  row.objectType = .attestation ∧ row.revokedAt ≠ none ∧ ∃ expiresAt ∈ row.expiresAt, now < expiresAt

instance (now : Int) (row : Issued ι κ σ) : Decidable (row.Outstanding now) := by
  unfold Issued.Outstanding
  infer_instance

def orphanedTargets (issued : List (Issued ι κ σ)) : List ι :=
  (((issued.filter fun row => decide (row.Outstanding pass.now ∧ ∃ other ∈ issued, other.Revokes row.contentId)).map
      Issued.contentId).insertionSort fun a b => platform.before b a = false).filter fun target =>
    decide (¬∃ other ∈ issued, other.Revokes target ∧ other.signingKeyFingerprint = pass.signingKey)

def resignOrphanedRevocations (issued : List (Issued ι κ σ)) : List (Issued ι κ σ) × List ι :=
  let targets := orphanedTargets platform pass issued
  (targets.foldl (fun issued target => storeIssued issued (revocationRow platform pass target)) issued,
    targets.map fun target => (revocationRow (σ := σ) platform pass target).contentId)

def Issued.Retired (now : Int) (row : Issued ι κ σ) : Prop :=
  row.objectType = .attestation ∧ (row.revokedAt ≠ none ∨ ∃ expiresAt ∈ row.expiresAt, expiresAt ≤ now)

instance (now : Int) (row : Issued ι κ σ) : Decidable (row.Retired now) := by
  unfold Issued.Retired
  infer_instance

/-- `_redact_retired_issued`, of one row. -/
def Issued.redact (now : Int) (row : Issued ι κ σ) : Issued ι κ σ :=
  if row.redactedAt = none ∧ row.Retired now then
    { row with attestedValue := none, envelope := none, signature := none, redactedAt := some now }
  else row

def Db.live (db : Db ι κ σ) (now : Int) : List (Issued ι κ σ) :=
  db.issued.filter fun row => decide (row.Live now)

/-- `reconcile_issued_attestations`. SQLite refuses to read the subject of a blank envelope (malformed JSON),
and a transaction that fails leaves nothing behind. -/
def reconcileIssuedAttestations (db : Db ι κ σ) : Option (Db ι κ σ × List (Change ι)) :=
  if ∃ row ∈ db.live pass.now, row.envelope = none then none
  else
    let swept := (db.live pass.now).foldl (sweepOne platform pass db) (db.issued, [])
    let signed := db.sortedConsents.foldl (issueStep platform pass db) swept
    let again := resignOrphanedRevocations platform pass signed.1
    some ({ db with issued := again.1.map (Issued.redact pass.now) },
      signed.2 ++ again.2.map fun contentId => ⟨.revoked, some contentId, none, none, "signing_key_rotated"⟩)

end Pass

end NetBBS.Issuance
