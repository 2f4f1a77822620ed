import Mathlib.Data.String.Basic
import NetBBS.Foundation.Dict

/-! # Attestations that this node received -/

namespace NetBBS.ReceivedAttestations

open Foundation

variable {ε κ : Type}

inductive Payload where
  | attestation (optIn : Bool) (subjectId attributeName : Option String) (value : Int → Option String)
      (expiresAt : Option Int)
  | revocation (revokedContentId : String)
  | unsupported

/-- How an envelope is read, named and verified. -/
structure Format (ε κ : Type) where
  contentId : ε → Option String
  /-- `payload.get("issuer_fingerprint")`, if it is a text. -/
  issuerField : ε → Option String
  /-- `str(payload.get("issuer_fingerprint", ""))`. -/
  issuerText : ε → String
  issuedAt : ε → Option Int
  payload : ε → Payload
  /-- `_verify_wire` accepts the envelope with this signature. -/
  verify : κ → ε → String → Bool
  contentId_injective : ∀ a b id, contentId a = some id → contentId b = some id → a = b
  issuerText_eq : ∀ envelope issuer, issuerField envelope = some issuer → issuerText envelope = issuer

/-- `{"envelope": …, "signature": …}`; an envelope that is no object is none. -/
structure Wire (ε : Type) where
  envelope : Option ε
  signature : String

structure Row (ε : Type) where
  contentId : String
  issuer : String
  subjectId : String
  attributeName : String
  attestedValue : String
  issuedAt : Int
  expiresAt : Int
  envelope : Option ε
  signature : String
  receivedAt : Int
  revokedBy : Option String := none
  revokedAt : Option Int := none
  redactedAt : Option Int := none

structure Revocation where
  contentId : String
  issuer : String
  revokedContentId : String
  issuedAt : Int
  receivedAt : Int

/-- A row of `link_attestation_bundles_received`. -/
structure Bundle (ε : Type) where
  sequence : Int
  appliedAt : Int
  pending : List (Wire ε)

structure Tables (ε : Type) where
  authorities : List String := []
  subjects : List String := []
  rows : List (Row ε) := []
  revocations : List Revocation := []
  received : Dict String (Bundle ε) := .empty

inductive IngestError where
  | unverified
  | malformed
  | tooFarInFuture
  | unknownTarget
  | quota
  | unknownSubject

def futureTolerance : Int := 5 * 60 * 1000000

def maxLifetime : Int := 365 * 24 * 60 * 60 * 1000000

def maxActiveAttestationsPerIssuer : Nat := 1000

def maxPendingObjectsPerIssuer : Nat := 1000

/-- Unrevoked and unexpired. -/
def Row.live (now : Int) (row : Row ε) : Bool := decide (row.revokedAt = none ∧ now < row.expiresAt)

/-- Revoked, but by no revoking object. -/
def Row.withdrawn (row : Row ε) : Bool := decide (row.revokedAt ≠ none ∧ row.revokedBy = none)

/-- `_forget_received_values` on one row. -/
def Row.forget (now : Int) (row : Row ε) : Row ε :=
  if row.redactedAt = none ∧ (row.revokedAt ≠ none ∨ row.expiresAt ≤ now) then
    { row with attestedValue := "", envelope := none, signature := "", redactedAt := some now }
  else row

def Row.revoke (revokedContentId contentId : String) (now : Int) (row : Row ε) : Row ε :=
  if row.contentId = revokedContentId ∧ row.revokedAt = none then
    ({ row with revokedBy := some contentId, revokedAt := some now }).forget now
  else row

def Row.restore (offered row : Row ε) : Row ε :=
  if row.contentId = offered.contentId ∧ row.withdrawn = true then
    { row with
      attestedValue := offered.attestedValue
      envelope := offered.envelope
      signature := offered.signature
      receivedAt := offered.receivedAt
      revokedAt := none
      redactedAt := none }
  else row

def Row.withdraw (issuer : String) (present : List String) (now : Int) (row : Row ε) : Row ε :=
  if row.issuer = issuer ∧ row.revokedAt = none ∧ row.redactedAt = none ∧ row.contentId ∉ present then
    ({ row with revokedAt := some now }).forget now
  else row

def Row.identity (row : Row ε) : String × String × String × Int :=
  (row.contentId, row.issuer, row.subjectId, row.expiresAt)

/-- What the checks of an object leave to be stored. -/
inductive Item (ε : Type) where
  | attestation (row : Row ε)
  | revocation (revocation : Revocation)

def readWire (format : Format ε κ) (wire : Wire ε) (key : κ) (now : Int) : Except IngestError (Item ε) :=
  match wire.envelope with
  | none => .error .unverified
  | some envelope =>
    if format.verify key envelope wire.signature = false then .error .unverified
    else
      match format.contentId envelope, format.issuedAt envelope with
      | none, _ => .error .unverified
      | some _, none => .error .malformed
      | some contentId, some issuedAt =>
        if format.issuerText envelope = "" then .error .malformed
        else if now + futureTolerance < issuedAt then .error .tooFarInFuture
        else
          match format.payload envelope with
          | .unsupported => .error .malformed
          | .revocation revokedContentId =>
            .ok (.revocation
              { contentId, issuer := format.issuerText envelope, revokedContentId, issuedAt, receivedAt := now })
          | .attestation optIn subjectId attributeName value expiresAt =>
            match optIn, subjectId, attributeName, value now, expiresAt with
            | true, some subjectId, some attributeName, some attestedValue, some expiresAt =>
              if expiresAt ≤ issuedAt ∨ issuedAt + maxLifetime < expiresAt then .error .malformed
              else
                .ok (.attestation
                  { contentId, issuer := format.issuerText envelope, subjectId, attributeName, attestedValue,
                    issuedAt, expiresAt, envelope := some envelope, signature := wire.signature,
                    receivedAt := now })
            | _, _, _, _, _ => .error .malformed

def Tables.active (tables : Tables ε) (issuer : String) (now : Int) : Nat :=
  (tables.rows.filter fun row => decide (row.issuer = issuer) && row.live now).length

def Tables.store (tables : Tables ε) (now : Int) : Item ε → Except IngestError (Tables ε)
  | .revocation revocation =>
    match tables.rows.find? fun row => decide (row.contentId = revocation.revokedContentId) with
    | none => .error .unknownTarget
    | some target =>
      if target.issuer ≠ revocation.issuer then .error .unknownTarget
      else
        .ok { tables with
          revocations :=
            if tables.revocations.any (fun old => decide (old.contentId = revocation.contentId)) = true then
              tables.revocations
            else tables.revocations ++ [revocation]
          rows := tables.rows.map (Row.revoke revocation.revokedContentId revocation.contentId now) }
  | .attestation row =>
    if maxActiveAttestationsPerIssuer ≤ tables.active row.issuer now then .error .quota
    else if row.subjectId ∉ tables.subjects then .error .unknownSubject
    else
      .ok { tables with
        rows :=
          if tables.rows.any (fun old => decide (old.contentId = row.contentId)) = true then
            tables.rows.map row.restore
          else tables.rows ++ [row] }

def ingestRemoteAttestation (format : Format ε κ) (tables : Tables ε) (wire : Wire ε) (key : κ) (now : Int) :
    Except IngestError (Tables ε) :=
  (readWire format wire key now).bind (tables.store now)

def verifyKeyFor (format : Format ε κ) (wire : Wire ε) (keys : List κ) : Option κ :=
  keys.find? fun key => wire.envelope.any fun envelope => format.verify key envelope wire.signature

def keep (found : Tables ε × List (Wire ε)) (wire : Wire ε) :
    Except IngestError (Tables ε) → Tables ε × List (Wire ε)
  | .ok tables => (tables, found.2)
  | .error .unknownSubject =>
    if found.2.length < maxPendingObjectsPerIssuer then (found.1, found.2 ++ [wire]) else found
  | .error _ => found

/-- `_ingest_objects` on one object, with the objects that wait. -/
def ingestObject (format : Format ε κ) (issuer : String) (keys : List κ) (now : Int)
    (found : Tables ε × List (Wire ε)) (wire : Wire ε) : Tables ε × List (Wire ε) :=
  if wire.envelope.bind format.issuerField ≠ some issuer then found
  else
    match verifyKeyFor format wire keys with
    | none => found
    | some key => keep found wire (ingestRemoteAttestation format found.1 wire key now)

def ingestObjects (format : Format ε κ) (issuer : String) (keys : List κ) (now : Int) (tables : Tables ε)
    (objects : List (Wire ε)) : Tables ε × List (Wire ε) :=
  objects.foldl (ingestObject format issuer keys now) (tables, [])

def Tables.lastAppliedSequence (tables : Tables ε) (issuer : String) : Int :=
  ((tables.received.get? issuer).map Bundle.sequence).getD 0

def presentIds (format : Format ε κ) (objects : List (Wire ε)) : List String :=
  objects.filterMap fun wire => wire.envelope.bind format.contentId

/-- Whether `apply_attestation_snapshot` goes on. -/
def Tables.takes (tables : Tables ε) (issuer : String) (sequence : Int) : Bool :=
  decide (issuer ∈ tables.authorities ∧ tables.lastAppliedSequence issuer < sequence)

def applyAttestationSnapshot (format : Format ε κ) (tables : Tables ε) (issuer : String) (sequence : Int)
    (objects : List (Wire ε)) (keys : List κ) (now : Int) : Tables ε :=
  if tables.takes issuer sequence = false then tables
  else
    let ingested := ingestObjects format issuer keys now tables objects
    { ingested.1 with
      rows := ingested.1.rows.map (Row.withdraw issuer (presentIds format objects) now)
      received := ingested.1.received.set issuer ⟨sequence, now, ingested.2⟩ }

def retryPendingAttestationObjects (format : Format ε κ) (tables : Tables ε) (issuer : String)
    (keys : List κ) (now : Int) : Tables ε :=
  match tables.received.get? issuer with
  | none => tables
  | some bundle =>
    let ingested := ingestObjects format issuer keys now tables bundle.pending
    { ingested.1 with received := ingested.1.received.set issuer { bundle with pending := ingested.2 } }

def forgetRetiredRemoteAttestations (tables : Tables ε) (now : Int) : Tables ε :=
  { tables with rows := tables.rows.map (Row.forget now) }

end NetBBS.ReceivedAttestations
