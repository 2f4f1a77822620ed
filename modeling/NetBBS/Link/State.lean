import Mathlib.Data.Finset.Basic
import NetBBS.Link.EventShapes
import NetBBS.Link.NodeIdentity

/-! # Peers and introduced identities -/

namespace NetBBS

open Foundation

structure PeerRecord where
  fingerprint : String
  rootVerifyKey : VerifyKey
  transitions : List SignedEvent
  descriptor : SignedEvent

/-- `_signing_transitions`: what a hello bundle carries. -/
def signingTransitions (transitions : List SignedEvent) (fingerprint : String) :
    Except PyError (List SignedEvent) :=
  relevantTransitions fingerprint (.str "signing") transitions

/-- `resolve_current_operational_key(..., purpose="signing")`, of a record with these
transitions. -/
def PeerRecord.resolveSigningKey (env : Env) (record : PeerRecord)
    (transitions : List SignedEvent) : Except PyError Json :=
  resolveCurrentOperationalKey env transitions record.rootVerifyKey record.fingerprint
    (.str "signing")

def contentIds (env : Env) (events : List SignedEvent) : Except PyError (List String) :=
  events.mapM (fun e => e.contentId env)

def newTransitions (env : Env) (known : List String) (fingerprint : String) :
    List SignedEvent → Except PyError (List SignedEvent)
  | [] => pure []
  | transition :: rest => do
    let contentId ← transition.contentId env
    if contentId ∈ known then newTransitions env known fingerprint rest
    else
      let named ← transition.get "subject_fingerprint"
      let stated ← transition.get "purpose"
      let rest ← newTransitions env known fingerprint rest
      pure (if named.pyEq (.str fingerprint) && stated.pyEq (.str "signing")
        then transition :: rest else rest)

def catchChainError {α : Type} (x : Except PyError α) (instead : Except PyError α) :
    Except PyError α :=
  match x with
  | .error (.nodeIdentityError _) => instead
  | x => x

/-- `merge_key_chain`; `none` where the merged chain does not verify. -/
def mergeKeyChain (env : Env) (existing : PeerRecord) (transitions : List SignedEvent) :
    Except PyError (Option (List SignedEvent)) := do
  let known ← contentIds env existing.transitions
  let new ← newTransitions env known existing.fingerprint transitions
  if new.isEmpty then return some existing.transitions
  let merged := existing.transitions ++ new
  catchChainError
    (do
      let current ← existing.resolveSigningKey env merged
      pure (if current.isNull then none else some merged))
    (pure none)

/-- `verify_endpoint_descriptor(descriptor, VerifyKey(b64decode(current)))`. -/
def verifyEndpointDescriptor (env : Env) (descriptor : SignedEvent) (current : Json) :
    Except PyError Bool := do
  let key ← decodeVerifyKey current
  let filed ← Filed.ofEvent env descriptor
  pure (filed.verifies key)

def descriptorVerifiesUnder (env : Env) (descriptor : SignedEvent) (current : Json) :
    Except PyError Bool :=
  if current.isNull then pure false else verifyEndpointDescriptor env descriptor current

def descriptorVerifiesUnderChain (env : Env) (descriptor : SignedEvent) (existing : PeerRecord)
    (transitions : List SignedEvent) : Except PyError Bool := do
  let current ← catchChainError (existing.resolveSigningKey env transitions) (pure .null)
  descriptorVerifiesUnder env descriptor current

structure PeerDirectory where
  peers : Dict String PeerRecord := .empty
  candidateDescriptors : Dict String SignedEvent := .empty
  introduced : Dict String PeerRecord := .empty

namespace PeerDirectory

def admitPeer (directory : PeerDirectory) (record : PeerRecord) : PeerDirectory where
  peers := directory.peers.set record.fingerprint record
  candidateDescriptors := directory.candidateDescriptors.erase record.fingerprint
  introduced := directory.introduced.erase record.fingerprint

/-- `sender.transitions = sender.transitions + (transition,)`. -/
def appendTransition (directory : PeerDirectory) (sender : String) (transition : SignedEvent) :
    PeerDirectory :=
  { directory with
    peers := match directory.peers.get? sender with
      | some record =>
        directory.peers.set sender { record with transitions := record.transitions ++ [transition] }
      | none => directory.peers }

def placeIntroduced (directory : PeerDirectory) (record : PeerRecord) : PeerDirectory :=
  { directory with
    introduced := (directory.introduced.erase record.fingerprint).set record.fingerprint record }

def refreshIntroduced (directory : PeerDirectory) (existing record : PeerRecord) :
    Option PeerDirectory :=
  if record.descriptor.pyEq existing.descriptor &&
      eventsEq record.transitions existing.transitions then none
  else some (directory.placeIntroduced record)

/-- `introduce`; `none` where the record was not kept. -/
def introduce (env : Env) (directory : PeerDirectory) (record : PeerRecord)
    (maxIntroduced : Nat) : Except PyError (Option PeerDirectory) := do
  if directory.peers.contains record.fingerprint then return none
  match directory.introduced.get? record.fingerprint with
  | some existing =>
    let some merged ← mergeKeyChain env existing record.transitions | return none
    let newCreatedAt ← (← record.descriptor.payload).getD "created_at" (.str "")
    let oldCreatedAt ← (← existing.descriptor.payload).getD "created_at" (.str "")
    let older ← newCreatedAt.pyLt oldCreatedAt
    let verified ← if older then pure false
      else descriptorVerifiesUnderChain env record.descriptor existing merged
    return directory.refreshIntroduced existing { record with
      transitions := merged
      descriptor := if verified then record.descriptor else existing.descriptor }
  | none =>
    let directory := if maxIntroduced ≤ directory.introduced.size then
        { directory with introduced := directory.introduced.popFirst }
      else directory
    return some (directory.placeIntroduced record)

end PeerDirectory

end NetBBS

/-! # The state of a node -/

namespace NetBBS

open Foundation

structure Genesis (env : Env) where
  filed : Filed env
  originFingerprint : String
  claimed : filed.field "origin_fingerprint" = .str originFingerprint

inductive RevisionKind where
  | boardPostEdit | boardPostModeratorEdit | boardPostTombstone
deriving DecidableEq

structure Revision (env : Env) where
  kind : RevisionKind
  filed : Filed env

namespace Revision

variable {env : Env}

def contentId (revision : Revision env) : String := revision.filed.contentId

def name (revision : Revision env) : Json := .str revision.contentId

/-- `payload["previous_event_id"]`. -/
def previousEventId (revision : Revision env) : Json := revision.filed.field "previous_event_id"

end Revision

structure BoardEventState (env : Env) where
  boards : Dict Key (Genesis env) := .empty
  postEdits : Dict String (List (Revision env)) := .empty

namespace BoardEventState

variable {env : Env}

def editChain (state : BoardEventState env) (rootPostId : String) : List (Revision env) :=
  (state.postEdits.get? rootPostId).getD []

/-- `is_tombstoned`: whether the head of the chain is a tombstone. -/
def isTombstoned (state : BoardEventState env) (rootPostId : String) : Bool :=
  (state.editChain rootPostId).getLast?.any (fun r => r.kind = .boardPostTombstone)

def extendEditChain (state : BoardEventState env) (rootPostId : String)
    (revision : Revision env) : BoardEventState env :=
  { state with
    postEdits := state.postEdits.set rootPostId (state.editChain rootPostId ++ [revision]) }

/-- `forget_edit`: the named entry and everything after it go. -/
def forgetEdit (state : BoardEventState env) (rootPostId contentId : String) :
    BoardEventState env :=
  match (state.editChain rootPostId).findIdx? (fun r => r.contentId = contentId) with
  | none => state
  | some 0 => { state with postEdits := state.postEdits.erase rootPostId }
  | some index =>
    { state with
      postEdits := state.postEdits.set rootPostId ((state.editChain rootPostId).take index) }

end BoardEventState

structure BoardLifecycleState (env : Env) where
  boardOrigin : Dict Key String := .empty
  boardLifecycleHead : Dict Key String := .empty
  pendingOriginTransfers : Dict Key (Filed env) := .empty
  boardClosures : Dict Key (Filed env) := .empty

namespace BoardLifecycleState

variable {env : Env}

def currentOrigin (state : BoardLifecycleState env) (boardId : Key)
    (genesisOriginFingerprint : String) : String :=
  (state.boardOrigin.get? boardId).getD genesisOriginFingerprint

def currentLifecycleHead (state : BoardLifecycleState env) (boardId : Key)
    (genesisContentId : String) : String :=
  (state.boardLifecycleHead.get? boardId).getD genesisContentId

def pendingOffer (state : BoardLifecycleState env) (boardId : Key) : Option (Filed env) :=
  state.pendingOriginTransfers.get? boardId

def recordOffer (state : BoardLifecycleState env) (boardId : Key) (offer : Filed env) :
    BoardLifecycleState env :=
  { state with
    pendingOriginTransfers := state.pendingOriginTransfers.set boardId offer
    boardLifecycleHead := state.boardLifecycleHead.set boardId offer.contentId }

def recordAcceptance (state : BoardLifecycleState env) (boardId : Key)
    (newOriginFingerprint acceptedContentId : String) : BoardLifecycleState env :=
  { state with
    boardOrigin := state.boardOrigin.set boardId newOriginFingerprint
    boardLifecycleHead := state.boardLifecycleHead.set boardId acceptedContentId
    pendingOriginTransfers := state.pendingOriginTransfers.erase boardId }

def isClosed (state : BoardLifecycleState env) (boardId : Key) : Bool :=
  state.boardClosures.contains boardId

def recordClosure (state : BoardLifecycleState env) (boardId : Key) (closure : Filed env) :
    BoardLifecycleState env :=
  { state with
    boardClosures := state.boardClosures.set boardId closure
    boardLifecycleHead := state.boardLifecycleHead.set boardId closure.contentId }

end BoardLifecycleState

structure CommunityEventState (env : Env) where
  communities : Dict String (Genesis env) := .empty
  closures : Dict String (Filed env) := .empty
  members : Dict String (Filed env) := .empty

namespace CommunityEventState

variable {env : Env}

/-- `created_at` of a membership list; the branch that accepts one checks that it is a string. -/
def createdAtText (members : Filed env) : String :=
  match members.field "created_at" with
  | .str s => s
  | _ => ""

/-- `record_members`: the newest `created_at` wins, then the greater content ID. -/
def recordMembers (state : CommunityEventState env) (communityId : String)
    (members : Filed env) : CommunityEventState env :=
  match state.members.get? communityId with
  | some held =>
    let newer := createdAtText held < createdAtText members ∨
      (createdAtText held = createdAtText members ∧ held.contentId < members.contentId)
    if newer then { state with members := state.members.set communityId members } else state
  | none => { state with members := state.members.set communityId members }

def memberIds (members : Filed env) (kind : String) : List Json :=
  match (members.field "members").member? kind with
  | some (.arr ids) => ids
  | _ => []

def communitiesListing (state : CommunityEventState env) (origin kind : String)
    (resourceId : Json) : List String :=
  state.members.entries.filterMap fun (communityId, members) =>
    match state.communities.get? communityId with
    | none => none
    | some genesis =>
      if genesis.originFingerprint ≠ origin then none
      else if state.closures.contains communityId then none
      else if (memberIds members kind).any (·.pyEq resourceId) then some communityId
      else none

end CommunityEventState

structure ModeratorRoster where
  effectiveAt : String
  contentId : String
  entries : List RosterEntry

structure InventoryRequestState where
  seenNonces : Dict (String × Key) Int := .empty

structure LinkNode (env : Env) where
  fingerprint : String
  knownEventIds : Finset String := ∅
  events : Dict String Json := .empty
  peerDirectory : PeerDirectory := {}
  boardEvents : BoardEventState env := {}
  boardLifecycle : BoardLifecycleState env := {}
  channelLifecycle : BoardLifecycleState env := {}
  inventoryRequests : InventoryRequestState := {}
  trustPullRequests : InventoryRequestState := {}
  identityRequests : InventoryRequestState := {}
  lastKeyResolvedFor : Option String := none
  channels : Dict Key (Genesis env) := .empty
  fileAreas : Dict Key (Genesis env) := .empty
  communityEvents : CommunityEventState env := {}
  moderatorRosters : Dict String ModeratorRoster := .empty
  staleCopies : Dict String String := .empty
  compromiseSwept : Finset (String × Key) := ∅
  chainSeen : Dict String (Nat × Option String) := .empty
  staleMarksPending : Dict String String := .empty
  refreshedPending : Dict String Json := .empty

namespace LinkNode

variable {env : Env}

/-- `known_identity`: a peer, or an identity known by introduction. -/
def knownIdentity (node : LinkNode env) (fingerprint : String) : Option PeerRecord :=
  (node.peerDirectory.peers.get? fingerprint).or
    (node.peerDirectory.introduced.get? fingerprint)

def boards (node : LinkNode env) : Dict Key (Genesis env) := node.boardEvents.boards

/-- `current_board_origin`, of a board whose genesis is on file. -/
def currentBoardOrigin (node : LinkNode env) (boardId : Key) (genesis : Genesis env) : String :=
  node.boardLifecycle.currentOrigin boardId genesis.originFingerprint

def currentBoardLifecycleHead (node : LinkNode env) (boardId : Key) (genesis : Genesis env) :
    String :=
  node.boardLifecycle.currentLifecycleHead boardId genesis.filed.contentId

/-- `current_channel_origin`, of a channel whose genesis is on file. -/
def currentChannelOrigin (node : LinkNode env) (channelId : Key) (genesis : Genesis env) :
    String :=
  node.channelLifecycle.currentOrigin channelId genesis.originFingerprint

end LinkNode

structure KnownIdentity (named : Json) where
  fingerprint : String
  record : PeerRecord
  named_eq : named = .str fingerprint

/-- `known_identity(named)`, and a refusal where the branches all refuse: nobody is known under
that name. -/
def LinkNode.requireIdentity {env : Env} (node : LinkNode env) (named : Json)
    (refusal : Message) : Except PyError (KnownIdentity named) :=
  match named with
  | .str fingerprint =>
    match node.knownIdentity fingerprint with
    | some record => .ok ⟨fingerprint, record, rfl⟩
    | none => .error (.missingDependency refusal (.str fingerprint))
  | .arr _ => .error .typeError
  | .obj _ => .error .typeError
  | other => .error (.missingDependency refusal other)

@[simp] theorem LinkNode.requireIdentity_eq_ok {env : Env} (node : LinkNode env) (named : Json)
    (refusal : Message) (identity : KnownIdentity named) :
    node.requireIdentity named refusal = .ok identity ↔
      node.knownIdentity identity.fingerprint = some identity.record := by
  obtain ⟨fingerprint, record, rfl⟩ := identity
  simp only [requireIdentity]
  cases node.knownIdentity fingerprint <;> simp

/-- `_resolve_sender_content_keys`: every key a signature on long-lived content may verify
under. -/
def resolveSenderContentKeys (env : Env) (sender : PeerRecord) (senderFingerprint kind : String) :
    Except PyError (List VerifyKey) := do
  let keys ← verifyingOperationalKeys env sender.transitions sender.rootVerifyKey
    senderFingerprint (.str "signing")
  let current ← resolveCurrentOperationalKey env sender.transitions sender.rootVerifyKey
    senderFingerprint (.str "signing")
  let current ← current.toKey
  refuseIf (keys.head? ≠ some current) (.linkProtocolError
    { text := "rejected %s from %s: no currently-authorized signing key"
      values := [.str kind, .str senderFingerprint] })
  pure (keys.filterMap fun key => (decodeVerifyKey key.toJson).toOption)

end NetBBS
