import NetBBS.Link.HandleEvents

/-! # Learning whose keys are whose -/

namespace NetBBS

open Foundation

variable {env : Env}

def maxIntroducedIdentities : Nat := 1024

def maxCarriedKeyChains : Nat := 32

def maxCarriedChainTransitions : Nat := 64

structure HelloMessage where
  rootPublicKey : List UInt8
  transitions : List SignedEvent
  descriptor : SignedEvent

/-- `_check_protocol_version` of every transition of a chain. -/
def checkTransitionVersions (sender : String) : List SignedEvent → Except PyError Unit
  | [] => pure ()
  | transition :: rest => do
    checkProtocolVersion transition.envelope (.str "key_transition") sender
    checkTransitionVersions sender rest

def refuseChain (text : String) (fingerprint : String) : PyError → PyError
  | .nodeIdentityError problem => .linkProtocolError
      { text := text ++ problem.text, values := .str fingerprint :: problem.values }
  | e => e

def claimIsCanonical (normalize : Json → Option String) (claim : Json) : Bool :=
  claim.isNull || (normalize claim).any fun spelled => claim.pyEq (.str spelled)

def profileClaimsAreCanonical (env : Env) (descriptor : SignedEvent) : Except PyError Bool := do
  let friendlyName ← descriptor.get "friendly_name"
  let canonicalDnsName ← descriptor.get "canonical_dns_name"
  pure (claimIsCanonical env.normalizeFriendlyName friendlyName &&
    claimIsCanonical env.normalizeDnsName canonicalDnsName)

def verifyHelloBundle (env : Env) (what : String) (message : HelloMessage) :
    Except PyError PeerRecord := do
  let rootVerifyKey ← VerifyKey.ofBytes message.rootPublicKey
  let fingerprint := fingerprintFromVerifyKey env rootVerifyKey
  checkTransitionVersions fingerprint message.transitions
  checkProtocolVersion message.descriptor.envelope (.str "endpoint_descriptor") fingerprint
  let current ← reword (refuseChain "hello from %s has an unverifiable transition chain: "
    fingerprint) (resolveCurrentOperationalKey env message.transitions rootVerifyKey fingerprint
      (.str "signing"))
  refuseIf (current.isNull = true)
    (protocolError "hello from %s has no currently-authorized signing key" [.str fingerprint])
  let verified ← verifyEndpointDescriptor env message.descriptor current
  refuseIf (verified = false)
    (protocolError "hello from %s's descriptor does not verify against its current signing key"
      [.str fingerprint])
  let subject ← message.descriptor.get "subject_fingerprint"
  refuseIf (subject.pyEq (.str fingerprint) = false)
    (protocolError "hello claiming to be %s carries a descriptor for a different subject (%r)"
      [.str fingerprint, subject])
  let canonical ← profileClaimsAreCanonical env message.descriptor
  refuseIf (canonical = false)
    (protocolError (what ++ " from %s carries invalid profile claims") [.str fingerprint])
  pure
    { fingerprint, rootVerifyKey
      transitions := message.transitions, descriptor := message.descriptor }

def transitionsNotIn (env : Env) (known : List String) :
    List SignedEvent → Except PyError (List SignedEvent)
  | [] => pure []
  | transition :: rest => do
    let contentId ← transition.contentId env
    let rest ← transitionsNotIn env known rest
    pure (if contentId ∈ known then rest else transition :: rest)

def knownThenNew (env : Env) (existing : PeerRecord) (transitions : List SignedEvent) :
    Except PyError (List SignedEvent) := do
  let known ← contentIds env existing.transitions
  pure (existing.transitions ++ (← transitionsNotIn env known transitions))

def mergeKnownChain (env : Env) (existing record : PeerRecord) : Except PyError PeerRecord := do
  let merged ← knownThenNew env existing record.transitions
  if eventsEq merged record.transitions then return record
  let current ← reword (refuseChain "hello from %s conflicts with the key history on file: "
    existing.fingerprint) (existing.resolveSigningKey env merged)
  let verified ← descriptorVerifiesUnder env record.descriptor current
  refuseIf (verified = false)
    (protocolError ("hello from %s is signed by a key its own key history on file has " ++
      "replaced -- refusing an older chain") [.str existing.fingerprint])
  return { record with transitions := merged }

inductive HelloVerdict where
  | stale (existing : PeerRecord)
  | admitted (record : PeerRecord)

def judgeHello (env : Env) (peers : Dict String PeerRecord) (maxPeers : Option Nat)
    (record : PeerRecord) : Except PyError HelloVerdict := do
  match peers.get? record.fingerprint with
  | some existing =>
    let newCreatedAt ← record.descriptor.getItem "created_at"
    let oldCreatedAt ← existing.descriptor.getItem "created_at"
    if ← newCreatedAt.pyLt oldCreatedAt then return .stale existing
    return .admitted (← mergeKnownChain env existing record)
  | none =>
    refuseIf (maxPeers.any (· ≤ peers.size) = true)
      (protocolError "hello from %s refused: already at this node's own max_peers limit (%s)"
        [.str record.fingerprint, .int (maxPeers.getD 0)])
    return .admitted record

def LinkNode.thenSweep {α : Type} (node : LinkNode env) (only : Option String) (told : α) :
    Except PyError α × LinkNode env :=
  let (swept, node) := node.sweepCompromisedCopies only
  (swept.map fun _ => told, node)

def LinkNode.handleHello (node : LinkNode env) (message : HelloMessage) (maxPeers : Option Nat) :
    Except PyError PeerRecord × LinkNode env :=
  match (do
    let record ← verifyHelloBundle env "hello" message
    judgeHello env node.peerDirectory.peers maxPeers record) with
  | .error e => (.error e, node)
  | .ok (.stale existing) => (.ok existing, node)
  | .ok (.admitted record) =>
    { node with peerDirectory := node.peerDirectory.admitPeer record }.thenSweep
      (some record.fingerprint) record

def LinkNode.handleIntroduction (node : LinkNode env) (message : HelloMessage) :
    Except PyError (Option PeerRecord) × LinkNode env :=
  match verifyHelloBundle env "introduction" message with
  | .error e => (.error e, node)
  | .ok record =>
    if record.fingerprint = node.fingerprint then (.ok none, node)
    else match node.peerDirectory.introduce env record maxIntroducedIdentities with
      | .error e => (.error e, node)
      | .ok none => (.ok none, node)
      | .ok (some directory) =>
        { node with peerDirectory := directory }.thenSweep (some record.fingerprint) (some record)

def carriedRecord (env : Env) (directory : PeerDirectory) (item : Json) :
    Except PyError (Option (String × PeerRecord)) := do
  let .str fingerprint ← item.getItem "fingerprint" | return none
  let some existing := directory.introduced.get? fingerprint | return none
  if directory.peers.contains fingerprint then return none
  let rootPublicKey ← b64decode (← item.getItem "root_public_key")
  if rootPublicKey ≠ existing.rootVerifyKey.bytes then return none
  let .arr rawTransitions ← item.getItem "transitions" | return none
  if maxCarriedChainTransitions < rawTransitions.length then return none
  let transitions ← rawTransitions.mapM SignedEvent.fromDict
  checkTransitionVersions fingerprint transitions
  let some merged ← mergeKeyChain env existing transitions | return none
  if eventsEq merged existing.transitions then return none
  return some (fingerprint, { existing with transitions := merged })

def applyCarried (env : Env) (directory : PeerDirectory) :
    List Json → List PeerRecord × PeerDirectory
  | [] => ([], directory)
  | item :: rest =>
    match carriedRecord env directory item with
    | .ok (some (fingerprint, record)) =>
      let directory := { directory with
        introduced := directory.introduced.set fingerprint record }
      let (changed, directory) := applyCarried env directory rest
      (record :: changed, directory)
    | _ => applyCarried env directory rest

def LinkNode.applyCarriedKeyChains (node : LinkNode env) (chains : Json) :
    Except PyError (List PeerRecord) × LinkNode env :=
  match chains with
  | .arr items =>
    let (changed, directory) := applyCarried env node.peerDirectory (items.take maxCarriedKeyChains)
    let node := { node with peerDirectory := directory }
    if changed.isEmpty then (.ok [], node) else node.thenSweep none changed
  | _ => (.ok [], node)

end NetBBS
