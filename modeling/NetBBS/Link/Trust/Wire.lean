import NetBBS.Foundation.Transaction
import NetBBS.Link.Trust.Operations
import NetBBS.Python.Json

/-! # Trust objects from the wire -/

namespace NetBBS.Trust

open Foundation

def maxTrustObjectsPerResponse : Nat := 100
def maxTrustResponseBytes : Nat := 1024 * 1024
def maxActiveSignalsPerIssuer : Nat := 1000
def maxActiveVouchesPerIssuer : Nat := 1000
def maxActiveSignalsPerIssuerSubjectCategory : Nat := 10

inductive TrustObjectType where
  | trustSignal
  | trustRevocation
  | trustVouch
  | trustVouchRevocation
deriving DecidableEq

structure Stamp where
  text : String
  instant : Instant

inductive Evidence where
  | embedded (data : Json)
  | digest

structure SignalPayload where
  subject : TrustSubject
  dimension : TrustDimension
  category : String
  evidenceClass : EvidenceClass
  evidence : Evidence
  observedAt : Instant
  expiresAt : Stamp

inductive TrustPayload where
  | signal (payload : SignalPayload)
  | vouch (subject : TrustSubject) (expiresAt : Stamp)
  | revocation (ofVouch : Bool) (revokedContentId : String)

namespace TrustPayload

def objectType : TrustPayload → TrustObjectType
  | signal _ => .trustSignal
  | vouch _ _ => .trustVouch
  | revocation true _ => .trustVouchRevocation
  | revocation false _ => .trustRevocation

def subject? : TrustPayload → Option TrustSubject
  | signal payload => some payload.subject
  | vouch subject _ => some subject
  | revocation _ _ => none

def category? : TrustPayload → Option String
  | signal payload => some payload.category
  | _ => none

def expiresAt? : TrustPayload → Option String
  | signal payload => some payload.expiresAt.text
  | vouch _ expiresAt => some expiresAt.text
  | revocation _ _ => none

def revokes? : TrustPayload → Option String
  | revocation _ target => some target
  | _ => none

def Valid (issuedAt : Instant) : TrustPayload → Prop
  | signal payload =>
    validateCategoryEvidence payload.dimension payload.category payload.evidenceClass = .ok () ∧
      issuedAt < payload.expiresAt.instant ∧ payload.observedAt ≤ issuedAt + minutes 5
  | vouch _ expiresAt => issuedAt < expiresAt.instant
  | revocation _ _ => True

end TrustPayload

structure SignedTrustObject where
  contentId : String
  issuerFingerprint : String
  issuedAt : Instant
  payload : TrustPayload
  /-- The length of its `to_dict` as JSON. -/
  encodedSize : Nat
  valid : payload.Valid issuedAt

structure Revocation where
  revokedBy : String
  revokedAt : Instant

structure WireRow where
  issuerFingerprint : String
  objectType : TrustObjectType
  subject : Option TrustSubject
  category : Option String
  expiresAt : Option String
  /-- The object that the envelope revokes. -/
  revokes : Option String
  /-- The length of the envelope with its signature, as JSON. -/
  encodedSize : Nat
  revoked : Option Revocation := none

structure WireDb where
  trust : TrustDb
  wireObjects : Dict String WireRow := .empty

structure WireHost extends TrustHost where
  isoText : Instant → String

abbrev KnownKeys := String → Option (Json → Bool)

inductive IngestError where
  | trustWireError (message : String)
  | trustObjectOutOfScope (message : String)
  | trustError (error : TrustError)

structure TrustIngestResult where
  accepted : List String := []
  replayed : List String := []
  skipped : List String := []

variable (host : WireHost) (db : WireDb)

def activeObjects (issuer : String) (objectType : TrustObjectType) (now : Instant) : List WireRow :=
  db.wireObjects.values.filter fun row =>
    decide (row.issuerFingerprint = issuer ∧ row.objectType = objectType ∧ row.revoked = none) &&
      row.expiresAt.any fun expiry => decide (host.isoText now < expiry)

def SignedTrustObject.wireRow (obj : SignedTrustObject) : WireRow :=
  { issuerFingerprint := obj.issuerFingerprint
    objectType := obj.payload.objectType
    subject := obj.payload.subject?
    category := obj.payload.category?
    expiresAt := obj.payload.expiresAt?
    revokes := obj.payload.revokes?
    encodedSize := obj.encodedSize }

def storeWireObject (obj : SignedTrustObject) : WireDb :=
  { db with wireObjects := db.wireObjects.setDefault obj.contentId obj.wireRow }

/-- `UPDATE link_trust_wire_objects SET revoked_by_content_id = ?, revoked_at = ?`. -/
def revokeWireObject (contentId revocationContentId : String) (now : Instant) : WireDb :=
  match db.wireObjects.get? contentId with
  | some row =>
    { db with
      wireObjects := db.wireObjects.set contentId
        { row with revoked := some ⟨revocationContentId, now⟩ } }
  | none => db

def evidenceReproduces (keys : KnownKeys) (payload : SignalPayload) : Bool :=
  match payload.evidence, payload.subject with
  | .embedded data, .node fingerprint =>
    decide (payload.evidenceClass = .selfVerifying ∧ payload.category = "signed_equivocation") &&
      (keys fingerprint).any fun reproduces => reproduces data
  | _, _ => false

variable (now : Instant) (keys : KnownKeys)

def screenObject (db : WireDb) (obj : SignedTrustObject) :
    Except IngestError (Option ReporterRow) := do
  refuseIf (now + minutes 5 < obj.issuedAt)
    (.trustWireError "issued_at is more than five minutes in the future")
  let reporter ← orRefuse (db.trust.inputs.reporters.get? obj.issuerFingerprint)
    (.trustWireError "issuer %s is not a configured reporter")
  if db.wireObjects.contains obj.contentId then pure none
  else do
    refuseIf (obj.payload.objectType = .trustSignal ∧ maxActiveSignalsPerIssuer ≤
        (activeObjects host db obj.issuerFingerprint .trustSignal now).length)
      (.trustWireError "issuer active-signal quota exceeded")
    refuseIf (obj.payload.objectType = .trustVouch ∧ maxActiveVouchesPerIssuer ≤
        (activeObjects host db obj.issuerFingerprint .trustVouch now).length)
      (.trustWireError "issuer active-vouch quota exceeded")
    pure (some reporter)

def checkAdmission (db : WireDb) (obj : SignedTrustObject) (reporter : ReporterRow) :
    Except IngestError Unit :=
  match obj.payload with
  | .signal payload => do
    refuseIf (db.trust.inputs.reporterScopes.contains
        (obj.issuerFingerprint, payload.dimension, payload.category) = false)
      (.trustObjectOutOfScope "reporter is not configured for this dimension/category")
    let about := (activeObjects host db obj.issuerFingerprint .trustSignal now).filter fun row =>
      decide (row.subject = some payload.subject ∧ row.category = some payload.category)
    refuseIf (maxActiveSignalsPerIssuerSubjectCategory ≤ about.length)
      (.trustWireError "issuer/subject/category active-signal quota exceeded")
  | .vouch subject _ =>
    refuseIf ((if subject.isNode then reporter.canVouchNodes else reporter.canVouchUsers) = false)
      (.trustObjectOutOfScope "reporter may not vouch for %s subjects")
  | .revocation ofVouch target => do
    let row ← orRefuse (db.wireObjects.get? target)
      (.trustObjectOutOfScope "revocation target is not held by this node")
    refuseIf (row.issuerFingerprint ≠ obj.issuerFingerprint)
      (.trustWireError "revocation target belongs to another issuer")
    refuseIf (row.objectType ≠ if ofVouch then .trustVouch else .trustSignal)
      (.trustWireError "revocation target belongs to another object family")
    refuseIf (row.revoked ≠ none)
      (.trustObjectOutOfScope "revocation target is already revoked")

def runHelper (helper : TrustDb → Except TrustError TrustDb) :
    Connection.Session WireDb IngestError Unit :=
  Connection.within <| Connection.attempt fun db => do
    let trust ← reword .trustError (helper db.trust)
    pure ((), { db with trust })

def applyObject (obj : SignedTrustObject) : Connection.Session WireDb IngestError Unit :=
  match obj.payload with
  | .signal payload =>
    match payload.evidence with
    | .digest => pure ()
    | .embedded _ => do
      runHelper fun trust => registerSubject host.toTrustHost trust payload.subject now now
      runHelper fun trust => Prod.snd <$> recordTrustSignal host.toTrustHost trust
        { contentId := obj.contentId
          issuerFingerprint := obj.issuerFingerprint
          subject := payload.subject
          dimension := payload.dimension
          category := payload.category
          evidenceClass := payload.evidenceClass
          observedAt := payload.observedAt
          issuedAt := obj.issuedAt
          expiresAt := payload.expiresAt.instant
          evidenceVerifiedAt := if evidenceReproduces keys payload then some now else none } now
  | .vouch subject expiresAt => do
    runHelper fun trust => registerSubject host.toTrustHost trust subject now now
    runHelper fun trust => Prod.snd <$> recordVouch host.toTrustHost trust
      { contentId := obj.contentId
        issuerFingerprint := obj.issuerFingerprint
        subject
        issuedAt := obj.issuedAt
        expiresAt := expiresAt.instant } now
  | .revocation ofVouch target => do
    let db ← Connection.read
    if ofVouch = true then
      runHelper fun trust => revokeVouch host.toTrustHost trust target obj.contentId now
    else if db.trust.inputs.signals.contains target = true then
      runHelper fun trust => revokeTrustSignal host.toTrustHost trust target obj.contentId now
    Connection.write fun db => revokeWireObject db target obj.contentId now

inductive Verdict where
  | replayed
  | skipped
  | admitted

def verdictOfCheck : Except IngestError Unit → Except IngestError Verdict
  | .ok () => .ok .admitted
  | .error (.trustObjectOutOfScope _) => .ok .skipped
  | .error (.trustWireError message) => .error (.trustWireError message)
  | .error (.trustError error) => .error (.trustError error)

def judgeObject (db : WireDb) (obj : SignedTrustObject) : Except IngestError Verdict := do
  let screened ← screenObject host now db obj
  screened.elim (pure .replayed) fun reporter =>
    verdictOfCheck (checkAdmission host now db obj reporter)

def treatObject (result : TrustIngestResult) (obj : SignedTrustObject) :
    Except IngestError Verdict → Connection.Session WireDb IngestError TrustIngestResult
  | .error e => Connection.raise e
  | .ok .replayed => pure { result with replayed := result.replayed ++ [obj.contentId] }
  | .ok .skipped => pure { result with skipped := result.skipped ++ [obj.contentId] }
  | .ok .admitted => do
    applyObject host now keys obj
    Connection.write fun db => storeWireObject db obj
    pure { result with accepted := result.accepted ++ [obj.contentId] }

def ingestObject (result : TrustIngestResult) (obj : SignedTrustObject) :
    Connection.Session WireDb IngestError TrustIngestResult := do
  let db ← Connection.read
  treatObject host now keys result obj (judgeObject host now db obj)

def ingestEach (result : TrustIngestResult) :
    List SignedTrustObject → Connection.Session WireDb IngestError TrustIngestResult
  | [] => pure result
  | obj :: rest => do
    let result ← ingestObject host now keys result obj
    ingestEach result rest

def encodedSize (batch : List SignedTrustObject) : Nat :=
  (batch.map SignedTrustObject.encodedSize).sum + 2 + (batch.length - 1)

def ingestTrustObjects (batch : List SignedTrustObject) :
    Connection.Session WireDb IngestError TrustIngestResult :=
  if maxTrustObjectsPerResponse < batch.length then
    Connection.raise (.trustWireError "trust response exceeds 100 objects")
  else if maxTrustResponseBytes < encodedSize batch then
    Connection.raise (.trustWireError "trust response exceeds 1 MiB")
  else Connection.within (ingestEach host now keys {} batch)

end NetBBS.Trust
