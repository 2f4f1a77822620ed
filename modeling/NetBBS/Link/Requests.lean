import NetBBS.Foundation.ReplayWindow
import NetBBS.Link.State

/-! # Signed pull requests -/

namespace NetBBS

open Foundation

variable {env : Env}

inductive PullKind where
  | inventory | trust | identity

def PullKind.objectType : PullKind → String
  | .inventory => "inventory_request"
  | .trust => "trust_pull_request"
  | .identity => "identity_request"

structure PullRequest where
  requesterFingerprint : Json
  responderFingerprint : Json
  createdAt : Json
  nonce : Json
  payload : Json
  signature : List UInt8

def idLists (lists : List (String × List Json)) : Json :=
  .obj (lists.map fun (name, ids) => (name, .arr ids))

structure InventoryRequest where
  requesterFingerprint : Json
  responderFingerprint : Json
  createdAt : Json
  nonce : Json
  signature : List UInt8
  boards : List (String × List Json)
  channels : List (String × List Json) := []
  fileAreas : List (String × List Json) := []
  notCarried : List (String × List Json) := []
  page : Option (Int × Int) := none
  communities : Option (List (String × List Json)) := none

/-- `_inventory_request_payload`: an optional part is signed only where it says something. -/
def InventoryRequest.payload (request : InventoryRequest) : Json :=
  let notCarried := request.notCarried.filter fun (_, ids) => !ids.isEmpty
  .obj ([("requester_fingerprint", request.requesterFingerprint),
      ("responder_fingerprint", request.responderFingerprint),
      ("created_at", request.createdAt), ("nonce", request.nonce),
      ("boards", idLists request.boards), ("channels", idLists request.channels),
      ("file_areas", idLists request.fileAreas)] ++
    (if notCarried.isEmpty then [] else [("not_carried", idLists notCarried)]) ++
    (match request.page with
      | some (index, count) => [("page", .obj [("index", .int index), ("count", .int count)])]
      | none => []) ++
    (match request.communities with
      | some communities => [("communities", idLists communities)]
      | none => []))

def InventoryRequest.pull (request : InventoryRequest) : PullRequest :=
  { request with payload := request.payload }

structure TrustPullRequest where
  requesterFingerprint : Json
  responderFingerprint : Json
  issuerFingerprint : Json
  afterContentId : Json
  limit : Json
  createdAt : Json
  nonce : Json
  revocationsOnly : Json
  signature : List UInt8

def TrustPullRequest.payload (request : TrustPullRequest) : Json :=
  .obj [("requester_fingerprint", request.requesterFingerprint),
    ("responder_fingerprint", request.responderFingerprint),
    ("issuer_fingerprint", request.issuerFingerprint),
    ("after_content_id", request.afterContentId), ("limit", request.limit),
    ("created_at", request.createdAt), ("nonce", request.nonce),
    ("revocations_only", request.revocationsOnly)]

def TrustPullRequest.pull (request : TrustPullRequest) : PullRequest :=
  { request with payload := request.payload }

structure IdentityRequest where
  requesterFingerprint : Json
  responderFingerprint : Json
  subjects : List Json
  createdAt : Json
  nonce : Json
  signature : List UInt8

def IdentityRequest.payload (request : IdentityRequest) : Json :=
  .obj [("requester_fingerprint", request.requesterFingerprint),
    ("responder_fingerprint", request.responderFingerprint),
    ("subjects", .arr request.subjects), ("created_at", request.createdAt), ("nonce", request.nonce)]

def IdentityRequest.pull (request : IdentityRequest) : PullRequest :=
  { request with payload := request.payload }

structure PullRefusals where
  stranger : Message
  otherRequester : Message
  otherResponder : Message
  unverified : Message
  outsideWindow : Message
  reusedNonce : Message

def PullKind.refusals (kind : PullKind) (own sender : String) (request : PullRequest) :
    PullRefusals :=
  match kind with
  | .inventory =>
    { stranger :=
        { text := "received an inventory_request from %s, which has no completed hello -- " ++
            "refusing (no pull from a stranger)"
          values := [.str sender] }
      otherRequester :=
        { text := "%s sent an inventory_request claiming a different requester_fingerprint " ++
            "(%r) -- refusing"
          values := [.str sender, request.requesterFingerprint] }
      otherResponder :=
        { text := "inventory_request from %s is addressed to %r, not this node (%r) -- refusing"
          values := [.str sender, request.responderFingerprint, .str own] }
      unverified :=
        { text := "inventory_request from %s does not verify against its current signing key"
          values := [.str sender] }
      outsideWindow :=
        { text := "inventory_request from %s is outside the %s-second freshness window -- refusing"
          values := [.str sender, .int 300] }
      reusedNonce :=
        { text := "inventory_request from %s reuses a recent nonce -- refusing"
          values := [.str sender] } }
  | .trust =>
    { stranger := { text := "refusing trust pull from a peer without a completed hello" }
      otherRequester := { text := "trust pull requester does not match the wire peer" }
      otherResponder := { text := "trust pull is addressed to a different responder" }
      unverified := { text := "trust pull signature does not verify" }
      outsideWindow := { text := "trust pull is outside the five-minute freshness window" }
      reusedNonce := { text := "trust pull reuses a recent nonce" } }
  | .identity =>
    { stranger := { text := "refusing an identity request from a peer without a completed hello" }
      otherRequester := { text := "identity request requester does not match the wire peer" }
      otherResponder := { text := "identity request is addressed to a different responder" }
      unverified := { text := "identity request signature does not verify" }
      outsideWindow := { text := "identity request is outside the five-minute freshness window" }
      reusedNonce := { text := "identity request reuses a recent nonce" } }

def hexDigits : List Char := "0123456789abcdefABCDEF".toList

def Json.iterate? : Json → Option (List Json)
  | .str s => some (s.toList.map fun c => .str c.toString)
  | .arr items => some items
  | .obj members => some (members.map fun (name, _) => .str name)
  | _ => none

/-- `item not in hexdigits`, refused: membership of a string is being a part of it. -/
def requireHexDigits (refusal : Message) : List Json → Except PyError Unit
  | [] => pure ()
  | item :: rest => do
    let part ← orRefuse item.str? .typeError
    refuseIf (¬part.toList <:+: hexDigits) (.linkProtocolError refusal)
    requireHexDigits refusal rest

def PullKind.checkNonce (kind : PullKind) (sender : String) (nonce : Json) :
    Except PyError Unit := do
  match kind with
  | .inventory =>
    let refusal :=
      { text := "inventory_request from %s has an invalid nonce -- refusing"
        values := [.str sender] }
    let items ← orRefuse nonce.iterate? .typeError
    refuseIf (items.length ≠ 32) (.linkProtocolError refusal)
    requireHexDigits refusal items
  | _ => pure ()

def LinkNode.seenNonces (node : LinkNode env) : PullKind → Dict (String × Key) Int
  | .inventory => node.inventoryRequests.seenNonces
  | .trust => node.trustPullRequests.seenNonces
  | .identity => node.identityRequests.seenNonces

def LinkNode.withSeenNonces (node : LinkNode env) (kind : PullKind)
    (seen : Dict (String × Key) Int) : LinkNode env :=
  match kind with
  | .inventory => { node with inventoryRequests := ⟨seen⟩ }
  | .trust => { node with trustPullRequests := ⟨seen⟩ }
  | .identity => { node with identityRequests := ⟨seen⟩ }

/-- `_INVENTORY_REQUEST_FRESHNESS_SECONDS` and `_TRUST_PULL_FRESHNESS_SECONDS`, in microseconds. -/
def freshnessMicros : Int := 5 * 60 * 1000000

/-- `_MAX_SEEN_INVENTORY_REQUEST_NONCES` and `_MAX_SEEN_TRUST_PULL_NONCES`. -/
def maxSeenNonces : Nat := 4096

def resolveSenderSigningKey (env : Env) (sender : PeerRecord) (senderFingerprint kind : String) :
    Except PyError VerifyKey := do
  let current ← resolveCurrentOperationalKey env sender.transitions sender.rootVerifyKey
    senderFingerprint (.str "signing")
  refuseIf (current.isNull = true) (.linkProtocolError
    { text := "rejected %s from %s: no currently-authorized signing key"
      values := [.str kind, .str senderFingerprint] })
  decodeVerifyKey current

/-- `verify_signature(key, canonical_bytes(build_envelope(object_type, payload)), signature)`. -/
def PullRequest.verifies (env : Env) (request : PullRequest) (objectType : String)
    (key : VerifyKey) : Except PyError Bool := do
  let bytes ← canonicalJsonBytes env (.obj [("netbbs_protocol", .int netbbsProtocolVersion),
    ("object_type", .str objectType), ("payload", request.payload)])
  pure (env.verifySignature key bytes request.signature)

def addressedPull (refusal : PullRefusals) (node : LinkNode env) (sender : String)
    (request : PullRequest) : Except PyError PeerRecord := do
  let record ← orRefuse (node.peerDirectory.peers.get? sender)
    (.linkProtocolError refusal.stranger)
  refuseIf (request.requesterFingerprint.pyEq (.str sender) = false)
    (.linkProtocolError refusal.otherRequester)
  refuseIf (request.responderFingerprint.pyEq (.str node.fingerprint) = false)
    (.linkProtocolError refusal.otherResponder)
  pure record

def currentTime (env : Env) (now : String) : Except PyError Int :=
  parseAwareTimestamp env (.str now) "current time"

/-- `created_at` of a request. -/
def PullKind.createdTime (kind : PullKind) (env : Env) (request : PullRequest) :
    Except PyError Int :=
  parseAwareTimestamp env request.createdAt (kind.objectType ++ ".created_at")

def signedPull (env : Env) (kind : PullKind) (refusal : PullRefusals) (sender : String)
    (record : PeerRecord) (request : PullRequest) : Except PyError Unit := do
  let key ← resolveSenderSigningKey env record sender kind.objectType
  let verified ← request.verifies env kind.objectType key
  refuseIf (verified = false) (.linkProtocolError refusal.unverified)
  kind.checkNonce sender request.nonce

def freshPull (env : Env) (kind : PullKind) (refusal : PullRefusals) (request : PullRequest)
    (now : String) : Except PyError Int := do
  let receivedAt ← currentTime env now
  let createdAt ← kind.createdTime env request
  refuseIf (freshnessMicros < (receivedAt - createdAt).natAbs)
    (.linkProtocolError refusal.outsideWindow)
  pure receivedAt

def LinkNode.recentNonces (node : LinkNode env) (kind : PullKind) (receivedAt : Int) :
    Dict (String × Key) Int :=
  ReplayWindow.prune (receivedAt - freshnessMicros) (node.seenNonces kind)

def tryNonce (kind : PullKind) (refusal : PullRefusals) (node : LinkNode env) (sender : String)
    (request : PullRequest) (receivedAt : Int) : LinkNode env × Except PyError Unit :=
  let seen := node.recentNonces kind receivedAt
  match request.nonce.toKey with
  | .error e => (node.withSeenNonces kind seen, .error e)
  | .ok nonce =>
    if seen.contains (sender, nonce) then
      (node.withSeenNonces kind seen, .error (.linkProtocolError refusal.reusedNonce))
    else
      (node.withSeenNonces kind (ReplayWindow.remember maxSeenNonces (sender, nonce) receivedAt seen), .ok ())

def handlePull (kind : PullKind) (node : LinkNode env) (sender : String) (request : PullRequest)
    (now : String) : LinkNode env × Except PyError Unit :=
  let refusal := kind.refusals node.fingerprint sender request
  match addressedPull refusal node sender request with
  | .error e => (node, .error e)
  | .ok record =>
    let node := { node with lastKeyResolvedFor := some sender }
    match signedPull env kind refusal sender record request with
    | .error e => (node, .error e)
    | .ok () =>
      match freshPull env kind refusal request now with
      | .error e => (node, .error e)
      | .ok receivedAt => tryNonce kind refusal node sender request receivedAt

def handleInventoryRequest (node : LinkNode env) (sender : String) (request : InventoryRequest)
    (now : String) : LinkNode env × Except PyError Unit :=
  handlePull .inventory node sender request.pull now

def handleTrustPullRequest (node : LinkNode env) (sender : String) (request : TrustPullRequest)
    (now : String) : LinkNode env × Except PyError Unit :=
  handlePull .trust node sender request.pull now

def handleIdentityRequest (node : LinkNode env) (sender : String) (request : IdentityRequest)
    (now : String) : LinkNode env × Except PyError Unit :=
  handlePull .identity node sender request.pull now

end NetBBS
