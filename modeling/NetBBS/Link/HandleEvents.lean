import NetBBS.Link.Handlers.Boards
import NetBBS.Link.Handlers.Channels
import NetBBS.Link.Handlers.Communities
import NetBBS.Link.Handlers.Lifecycle
import NetBBS.Link.StaleCopies

/-! # Letters and their acknowledgements -/

namespace NetBBS

open Foundation

variable {env : Env}

/-- `payload.get(key, {}).get("home_node_fingerprint")`. -/
def homeOf (payload : Json) (key : String) : Except PyError Json := do
  (← payload.getD key (.obj [])).get "home_node_fingerprint"

def handleLinkMessage (node : LinkNode env) (sender : String) (senderRecord : PeerRecord)
    (raw : Json) : Except PyError (Proposal env) := do
  let message ← Filed.fromDict env raw
  if message.contentId ∈ node.knownEventIds then return .skip
  let payload ← message.payload
  let recipientHome ← homeOf payload "recipient"
  refuseIf (recipientHome.pyEq (.str node.fingerprint) = false)
    (protocolError ("received a link_message addressed to %r, not this node (%r) -- refusing " ++
      "(strictly point-to-point, no relay on behalf of a different recipient)")
      [recipientHome, .str node.fingerprint])
  let senderInfo ← payload.getD "sender" (.obj [])
  let senderKind ← senderInfo.get "kind"
  refuseIf (senderKind.pyEq (.str "node_vouched_user") = false)
    (protocolError "link_message sender kind %r is not yet supported (only node_vouched_user is built)"
      [senderKind])
  let home ← senderInfo.get "home_node_fingerprint"
  refuseIf (home.pyEq (.str sender) = false)
    (protocolError ("%s sent a link_message vouching for a different home node (%r) -- refusing " ++
      "(no relay from a stranger yet)") [.str sender, home])
  return .acceptSigned message "link_message" sender senderRecord
    { text := "link_message from %s does not verify against its signing keys"
      values := [.str sender] }
    .nothing

variable {node : LinkNode env} {sender : String} {senderRecord : PeerRecord} {raw : Json}
    {proposal : Proposal env}

theorem handleLinkMessage_spec (hsender : node.knownIdentity sender = some senderRecord)
    (h : handleLinkMessage node sender senderRecord raw = .ok proposal) :
    ∃ event, Filed.fromDict env raw = .ok event ∧
      Judged node event False False (fun _ change => change = .nothing) proposal := by
  unfold handleLinkMessage at h
  refine judged_of_parse h fun message hnew h => ?_
  simp only [bind_eq_ok, refuseIf_eq_ok, pure_eq_ok, exists_const] at h
  obtain ⟨payload, -, recipientHome, -, -, senderInfo, -, senderKind, -, -, home, -, -, rfl⟩ := h
  exact .signed hnew hsender rfl

def resolveOwnLinkMessage (node : LinkNode env) (messageContentId : Json) :
    Except PyError SignedEvent := do
  let unknown := protocolError ("received an acknowledgement for %r, which is not a " ++
    "link_message this node knows about -- refusing") [messageContentId]
  let contentId ← orRefuse (← messageContentId.toStrKey) unknown
  let originalRaw ← orRefuse (node.events.get? contentId) unknown
  let objectType ← (← originalRaw.getItem "envelope").getItem "object_type"
  refuseIf (objectType.pyEq (.str "link_message") = false) unknown
  let original ← SignedEvent.fromDict originalRaw
  let home ← homeOf (← original.payload) "sender"
  refuseIf (home.pyEq (.str node.fingerprint) = false)
    (protocolError ("received an acknowledgement for %r, which this node did not originate -- " ++
      "refusing") [messageContentId])
  pure original

def handleAcknowledgement (what : String) (node : LinkNode env) (sender : String)
    (senderRecord : PeerRecord) (raw : Json) : Except PyError (Proposal env) := do
  let ack ← Filed.fromDict env raw
  if ack.contentId ∈ node.knownEventIds then return .skip
  ack.checkPayload
  let messageContentId := ack.field "message_content_id"
  let original ← resolveOwnLinkMessage node messageContentId
  let recipientNode := ack.field "recipient_node_fingerprint"
  refuseIf (recipientNode.pyEq (.str sender) = false)
    (protocolError ("%s sent a " ++ what ++ " vouching for a different recipient node (%r) -- " ++
      "refusing") [.str sender, recipientNode])
  let expectedRecipient ← homeOf (← original.payload) "recipient"
  refuseIf ((Json.str sender).pyEq expectedRecipient = false)
    (protocolError ("%s sent a " ++ what ++ " for %r, but that message was addressed to a " ++
      "different recipient node (%r) -- refusing")
      [.str sender, messageContentId, expectedRecipient])
  return .acceptSigned ack what sender senderRecord
    { text := "%s from %s does not verify against its signing keys"
      values := [.str what, .str sender] }
    .nothing

theorem handleAcknowledgement_spec {what : String}
        (hsender : node.knownIdentity sender = some senderRecord)
    (h : handleAcknowledgement what node sender senderRecord raw = .ok proposal) :
    ∃ event, Filed.fromDict env raw = .ok event ∧
      Judged node event False False (fun _ change => change = .nothing) proposal := by
  unfold handleAcknowledgement at h
  refine judged_of_parse h fun ack hnew h => ?_
  simp only [bind_eq_ok, refuseIf_eq_ok, pure_eq_ok, exists_const, Filed.checkPayload_eq_ok] at h
  obtain ⟨-, original, -, -, payload, -, recipient, -, -, rfl⟩ := h
  exact .signed hnew hsender rfl

def handleLinkMessageAccepted (node : LinkNode env) (sender : String) (senderRecord : PeerRecord)
    (raw : Json) : Except PyError (Proposal env) :=
  handleAcknowledgement "link_message_accepted" node sender senderRecord raw

def handleLinkMessageBounced (node : LinkNode env) (sender : String) (senderRecord : PeerRecord)
    (raw : Json) : Except PyError (Proposal env) :=
  handleAcknowledgement "link_message_bounced" node sender senderRecord raw

end NetBBS

namespace NetBBS

open Foundation

variable {env : Env}

/-- `any(existing.content_id == content_id for existing in transitions)`. -/
def anyContentId (env : Env) (contentId : String) : List SignedEvent → Except PyError Bool
  | [] => pure false
  | existing :: rest => do
    let existingId ← existing.contentId env
    if existingId = contentId then pure true else anyContentId env contentId rest

def rejectChain (sender : String) : PyError → PyError
  | .nodeIdentityError problem => .linkProtocolError
      { text := "rejected key_transition from %s: " ++ problem.text
        values := .str sender :: problem.values }
  | e => e

def handleKeyTransition (node : LinkNode env) (sender : String) (senderRecord : PeerRecord)
    (raw : Json) : Except PyError (Proposal env) := do
  let transition ← Filed.fromDict env raw
  if transition.contentId ∈ node.knownEventIds then return .skip
  let already ← anyContentId env transition.contentId senderRecord.transitions
  if already then return .heal transition.contentId
  transition.checkPayload
  let subject := transition.field "subject_fingerprint"
  refuseIf (subject.pyEq (.str sender) = false)
    (protocolError "%s sent a key_transition for a different subject (%r) -- refusing"
      [.str sender, subject])
  let purpose ← transition.getItem "purpose"
  let _ ← reword (rejectChain sender) (resolveCurrentOperationalKey env
    (senderRecord.transitions ++ [transition.event]) senderRecord.rootVerifyKey sender purpose)
  let compromised := match transition.field "compromised" with | .bool b => b | _ => false
  return .accept transition.contentId (.keyTransition sender transition.event compromised)

inductive JudgedTransition (node : LinkNode env) (sender : String) (senderRecord : PeerRecord)
    (transition : Filed env) : Proposal env → Prop where
  | known : transition.contentId ∈ node.knownEventIds →
      JudgedTransition node sender senderRecord transition .skip
  | healed : transition.contentId ∉ node.knownEventIds →
      anyContentId env transition.contentId senderRecord.transitions = .ok true →
      JudgedTransition node sender senderRecord transition (.heal transition.contentId)
  | extended {purpose resolved compromised} : transition.contentId ∉ node.knownEventIds →
      anyContentId env transition.contentId senderRecord.transitions = .ok false →
      transition.field "subject_fingerprint" = .str sender →
      resolveCurrentOperationalKey env (senderRecord.transitions ++ [transition.event])
        senderRecord.rootVerifyKey sender purpose = .ok resolved →
      JudgedTransition node sender senderRecord transition
        (.accept transition.contentId (.keyTransition sender transition.event compromised))

variable {node : LinkNode env} {raw : Json} {proposal : Proposal env}

theorem handleKeyTransition_spec {sender : String} {senderRecord : PeerRecord}
    (h : handleKeyTransition node sender senderRecord raw = .ok proposal) :
    ∃ transition, Filed.fromDict env raw = .ok transition ∧
      JudgedTransition node sender senderRecord transition proposal := by
  unfold handleKeyTransition at h
  rw [bind_eq_ok] at h
  obtain ⟨transition, hfiled, h⟩ := h
  refine ⟨transition, hfiled, ?_⟩
  split at h
  · rename_i hknown
    simp only [pure_eq_ok] at h
    exact h ▸ .known hknown
  · rename_i hnew
    rw [bind_eq_ok] at h
    obtain ⟨already, halready, h⟩ := h
    split at h
    · rename_i hin
      simp only [pure_eq_ok] at h
      exact h ▸ .healed hnew (hin ▸ halready)
    · rename_i hout
      simp only [bind_eq_ok, refuseIf_eq_ok, exists_const, pure_eq_ok, reword_eq_ok,
        Filed.checkPayload_eq_ok, Bool.not_eq_false, Json.pyEq_right_str] at h
      obtain ⟨-, hsubject, purpose, -, resolved, hresolved, rfl⟩ := h
      exact .extended hnew (Bool.eq_false_of_not_eq_true hout ▸ halready) hsubject hresolved

def acceptOpaque (node : LinkNode env) (raw objectType : Json) :
    Except PyError (Proposal env) := do
  refuseIf (objectType.str?.any isOpaqueTypeName = false)
    (protocolError "malformed event object_type: %r" [objectType])
  let malformed := protocolError "malformed %s event" [objectType]
  let signature ← raw.get "signature"
  refuseIf (signature.isStr = false) malformed
  let payload ← (← raw.getItem "envelope").get "payload"
  refuseIf (payload.isObj = false) malformed
  let size := (dumps .compact raw).length
  refuseIf (opaqueEventMaxBytes < size)
    (protocolError ("%s event is larger than the %s bytes this node keeps of an event type it " ++
      "does not understand") [objectType, .int opaqueEventMaxBytes])
  match rawContentId env raw with
  | .error _ => throw (protocolError "malformed %s event: %s" [objectType])
  | .ok contentId =>
    if contentId ∈ node.knownEventIds then return .skip
    return .accept contentId .nothing

theorem acceptOpaque_spec {objectType : Json}
    (h : acceptOpaque node raw objectType = .ok proposal) :
    ∃ contentId, rawContentId env raw = .ok contentId ∧
      ((contentId ∈ node.knownEventIds ∧ proposal = .skip) ∨
        (contentId ∉ node.knownEventIds ∧ proposal = .accept contentId .nothing)) := by
  simp only [acceptOpaque, bind_eq_ok, refuseIf_eq_ok, exists_const] at h
  obtain ⟨-, signature, -, -, envelope, -, payload, -, -, -, h⟩ := h
  split at h
  · simp at h
  · rename_i contentId hid
    refine ⟨contentId, hid, ?_⟩
    split at h
    · rename_i hknown
      simp only [pure_eq_ok] at h
      exact .inl ⟨hknown, h.symm⟩
    · rename_i hnew
      simp only [pure_eq_ok] at h
      exact .inr ⟨hnew, h.symm⟩

end NetBBS

namespace NetBBS

open Foundation

variable {env : Env}

def maxEventsPerRequest : Nat := 200

def checkProtocolVersion (envelope kind : Json) (sender : String) : Except PyError Unit := do
  let version ← envelope.get "netbbs_protocol"
  refuseIf (version.pyEq (.int netbbsProtocolVersion) = false)
    (protocolError ("%s sent a %s with netbbs_protocol=%r, this node only understands %r -- " ++
      "refusing rather than risk misinterpreting an incompatible payload shape")
      [.str sender, kind, version, .int netbbsProtocolVersion])

def envelopeType (sender : String) (raw : Json) : Except PyError Json := do
  let envelope ← raw.getItem "envelope"
  let objectType ← envelope.getItem "object_type"
  checkProtocolVersion envelope objectType sender
  pure objectType

def LinkNode.propose (node : LinkNode env) (sender : String) (senderRecord : PeerRecord)
    (now : Int) (raw objectType : Json) : Except PyError (Proposal env) :=
  match ObjectType.ofWire? objectType with
  | some .keyTransition => handleKeyTransition node sender senderRecord raw
  | some .boardGenesis => handleBoardGenesis node raw
  | some .boardPost => handleBoardPost node sender raw
  | some .boardPostEdit => handleBoardPostEdit node sender raw
  | some .boardPostModeratorEdit => handleBoardPostModeratorEdit node sender raw
  | some .boardPostTombstone => handleBoardPostTombstone node raw
  | some .boardOriginTransferOffer => handleBoardOriginTransferOffer node raw
  | some .boardOriginTransferAccepted => handleBoardOriginTransferAccepted node raw
  | some .boardClosure => handleBoardClosure node raw
  | some .boardPosting => handleBoardPosting node raw
  | some .boardPollVote => handleBoardPollVote node sender raw
  | some .channelGenesis => handleChannelGenesis node raw
  | some .channelMessage => handleChannelMessage node sender raw
  | some .fileAreaGenesis => handleFileAreaGenesis node raw
  | some .fileDescriptor => handleFileDescriptor node sender raw
  | some .linkMessage => handleLinkMessage node sender senderRecord raw
  | some .linkMessageAccepted => handleLinkMessageAccepted node sender senderRecord raw
  | some .linkMessageBounced => handleLinkMessageBounced node sender senderRecord raw
  | some .communityGenesis => acceptCommunityGenesis node raw
  | some .communityMembers => acceptCommunityMembers node raw
  | some .communityClosure => acceptCommunityClosure node raw
  | some .linkModerators => acceptLinkModerators node now raw
  | some .channelRestriction => acceptChannelRestriction node raw
  | some .channelTopic => acceptChannelTopic node raw
  | some .channelOriginTransferOffer => acceptChannelTransferOffer node raw
  | some .channelOriginTransferAccepted => acceptChannelTransferAccepted node raw
  | none => acceptOpaque node raw objectType

def LinkNode.settle (node : LinkNode env) (raw : Json) :
    Proposal env → Except PyError (Option String) × LinkNode env
  | .skip => (.ok none, node)
  | .heal contentId => (.ok none, node.heal contentId raw)
  | .accept contentId change =>
    let accepted := node.accept contentId raw change
    match change with
    | .keyTransition sender _ true =>
      let (swept, node) := accepted.sweepCompromisedCopies (some sender)
      (swept.map fun _ => some contentId, node)
    | _ => (.ok (some contentId), accepted)
  | .acceptSigned event kind signer record unverified change =>
    let noted := { node with lastKeyResolvedFor := some signer }
    match resolveSenderContentKeys env record signer kind with
    | .error e => (.error e, noted)
    | .ok keys =>
      if keys.any event.verifies then
        (.ok (some event.contentId), noted.accept event.contentId raw change)
      else (.error (.linkProtocolError unverified), noted)

def LinkNode.handleEvent (node : LinkNode env) (sender : String) (now : Int) (raw : Json) :
    Except PyError (Option String) × LinkNode env :=
  match envelopeType sender raw with
  | .error e => (.error e, node)
  | .ok objectType =>
    match node.freshCopy raw with
    | .dropped => (.ok none, node)
    | .fresh contentId => (.ok none, node.takeFreshCopy contentId raw)
    | .notStale =>
      match node.peerDirectory.peers.get? sender with
      | none => (.error (protocolError "received events from %s, which has no completed hello"
          [.str sender]), node)
      | some senderRecord =>
        match node.propose sender senderRecord now raw objectType with
        | .error e => (.error e, node)
        | .ok proposal => node.settle raw proposal

def LinkNode.handleEach (node : LinkNode env) (sender : String) (now : Int) :
    List Json → Except PyError (List String) × LinkNode env
  | [] => (.ok [], node)
  | raw :: rest =>
    match node.handleEvent sender now raw with
    | (.error e, node) => (.error e, node)
    | (.ok accepted, node) =>
      let (others, node) := node.handleEach sender now rest
      (others.map (accepted.toList ++ ·), node)

/-- `handle_events`: what it returns or raises, and the node it leaves behind. -/
def LinkNode.handleEvents (node : LinkNode env) (sender : String) (now : Int)
    (rawEvents : List Json) : Except PyError (List String) × LinkNode env :=
  match node.peerDirectory.peers.get? sender with
  | none => (.error (protocolError "received events from %s, which has no completed hello"
      [.str sender]), node)
  | some _ =>
    if maxEventsPerRequest < rawEvents.length then
      (.error (protocolError ("%s sent %s events in one request, more than the %s this node " ++
        "accepts in one request -- refusing (design doc §13.9: a genuine backlog still drains " ++
        "over several passes)") [.str sender, .int rawEvents.length, .int maxEventsPerRequest]), node)
    else node.handleEach sender now rawEvents

end NetBBS
