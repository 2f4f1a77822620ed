import NetBBS.Link.Handlers.Common

/-! # Channels and file areas -/

namespace NetBBS

open Foundation

variable {env : Env}

def handleChannelGenesis (node : LinkNode env) (raw : Json) : Except PyError (Proposal env) :=
  handleGenesis "channel_genesis" "channel_id" node.channels .channelGenesis node raw

def handleChannelMessage (node : LinkNode env) (sender : String) (raw : Json) :
    Except PyError (Proposal env) := do
  let message ← Filed.fromDict env raw
  if message.contentId ∈ node.knownEventIds then return .skip
  message.checkPayload
  let channelId := message.field "channel_id"
  let _ ← requireGenesis node.channels channelId
    (missing ("received a channel_message for channel_id %r, which has no verified " ++
      "channel_genesis on file -- refusing (no relay from a stranger yet)") [channelId])
  checkBoardPostContentSize message sender "channel_message"
  checkBotBlock message sender
  let _ ← parseAwareTimestamp env (message.field "created_at") "channel_message.created_at"
  let (home, record) ← requireVouchedAuthor node message "channel_message"
  return .acceptSigned message "channel_message" home record
    { text := "channel_message from home node %s does not verify against its signing keys"
      values := [.str home] }
    .nothing

variable {node : LinkNode env} {proposal : Proposal env}
variable {what sender permission : String} {raw : Json}

theorem handleChannelMessage_spec (h : handleChannelMessage node sender raw = .ok proposal) :
    ∃ event, Filed.fromDict env raw = .ok event ∧
      Judged node event False False (fun _ change => change = .nothing) proposal := by
  unfold handleChannelMessage at h
  refine judged_of_parse h fun message hnew h => ?_
  simp only [bind_eq_ok, pure_eq_ok, exists_const, Filed.checkPayload_eq_ok] at h
  obtain ⟨-, genesis, -, size, -, bot, -, createdAt, -, signer, hsigner, rfl⟩ := h
  exact .signed hnew (requireVouchedAuthor_spec hsigner) rfl

def channelModerationSigner (node : LinkNode env) (event : Filed env) (permission what : String) :
    Except PyError (String × PeerRecord) := do
  let channelId ← event.getItem "channel_id"
  let (channelKey, genesis) ← requireGenesis node.channels channelId
    (missing ("received a " ++ what ++ " for channel_id %r, which has no verified " ++
      "channel_genesis on file -- refusing (no relay from a stranger yet)") [channelId])
  let origin := node.currentChannelOrigin channelKey genesis
  let payload ← event.payload
  if payload.hasMember "moderator" then
    delegatedSigner node event "channel" channelId origin permission what
  else
    let signer ← node.requireIdentity (.str origin)
      { text := "received a " ++ what ++ " for channel_id %r whose origin (%r) has no completed " ++
          "hello with this node -- refusing (no relay from a stranger)"
        values := [channelId, .str origin] }
    pure (signer.fingerprint, signer.record)

theorem channelModerationSigner_spec {event : Filed env} {signer : String × PeerRecord}
    (h : channelModerationSigner node event permission what = .ok signer) :
    node.knownIdentity signer.1 = some signer.2 := by
  simp only [channelModerationSigner, bind_eq_ok] at h
  obtain ⟨channelId, -, genesis, -, payload, -, h⟩ := h
  split at h
  · exact (delegatedSigner_spec h).2.2
  · simp only [bind_eq_ok, pure_eq_ok, LinkNode.requireIdentity_eq_ok] at h
    obtain ⟨identity, hknown, rfl⟩ := h
    exact hknown

def handleChannelModeration (problem : Json → Option Message) (permission what : String)
    (node : LinkNode env) (raw : Json) : Except PyError (Proposal env) := do
  let event ← Filed.fromDict env raw
  if event.contentId ∈ node.knownEventIds then return .skip
  let payload ← event.payload
  match problem payload with
  | some message => throw (.linkProtocolError message)
  | none =>
    let (signer, record) ← channelModerationSigner node event permission what
    return .acceptSigned event what signer record
      { text := "%s from %s does not verify against its signing keys"
        values := [.str what, .str signer] }
      .nothing

theorem handleChannelModeration_spec {problem : Json → Option Message}
    (h : handleChannelModeration problem permission what node raw = .ok proposal) :
    ∃ event, Filed.fromDict env raw = .ok event ∧
      Judged node event False False (fun _ change => change = .nothing) proposal := by
  unfold handleChannelModeration at h
  refine judged_of_parse h fun event hnew h => ?_
  simp only [bind_eq_ok] at h
  obtain ⟨payload, -, h⟩ := h
  split at h
  · simp at h
  · simp only [bind_eq_ok, pure_eq_ok] at h
    obtain ⟨signer, hsigner, rfl⟩ := h
    exact .signed hnew (channelModerationSigner_spec hsigner) rfl

def acceptChannelTopic (node : LinkNode env) (raw : Json) : Except PyError (Proposal env) :=
  handleChannelModeration channelTopicProblem "topic" "channel_topic" node raw

def acceptChannelRestriction (node : LinkNode env) (raw : Json) : Except PyError (Proposal env) :=
  handleChannelModeration (channelRestrictionProblem env) "moderate" "channel_restriction" node raw

def handleFileAreaGenesis (node : LinkNode env) (raw : Json) : Except PyError (Proposal env) :=
  handleGenesis "file_area_genesis" "area_id" node.fileAreas .fileAreaGenesis node raw

def handleFileDescriptor (node : LinkNode env) (sender : String) (raw : Json) :
    Except PyError (Proposal env) := do
  let descriptor ← Filed.fromDict env raw
  if descriptor.contentId ∈ node.knownEventIds then return .skip
  descriptor.checkPayload
  let areaId := descriptor.field "area_id"
  let (_, genesis) ← requireGenesis node.fileAreas areaId
    (missing ("received a file_descriptor for area_id %r, which has no verified " ++
      "file_area_genesis on file -- refusing (no relay from a stranger yet)") [areaId])
  checkFileDescriptorContentSize descriptor sender
  let origin := genesis.originFingerprint
  let signer ← node.requireIdentity (.str origin)
    { text := "received a file_descriptor for area_id %r whose origin (%r) has no completed " ++
        "hello with this node -- refusing (no relay from a stranger)"
      values := [areaId, .str origin] }
  return .acceptSigned descriptor "file_descriptor" signer.fingerprint signer.record
    { text := "file_descriptor from origin %s does not verify against its signing keys"
      values := [.str origin] }
    .nothing

theorem handleFileDescriptor_spec (h : handleFileDescriptor node sender raw = .ok proposal) :
    ∃ event, Filed.fromDict env raw = .ok event ∧
      Judged node event False False (fun _ change => change = .nothing) proposal := by
  unfold handleFileDescriptor at h
  refine judged_of_parse h fun descriptor hnew h => ?_
  simp only [bind_eq_ok, pure_eq_ok, exists_const, Filed.checkPayload_eq_ok,
    LinkNode.requireIdentity_eq_ok] at h
  obtain ⟨-, genesis, -, size, -, signer, hsigner, rfl⟩ := h
  exact .signed hnew hsigner rfl

end NetBBS
