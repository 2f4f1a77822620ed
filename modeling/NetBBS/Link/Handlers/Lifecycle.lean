import NetBBS.Link.Handlers.Common

/-! # Origin succession and closure -/

namespace NetBBS

open Foundation Option

variable {env : Env}

def handleBoardOriginTransferOffer (node : LinkNode env) (raw : Json) :
    Except PyError (Proposal env) := do
  let offer ← Filed.fromDict env raw
  if offer.contentId ∈ node.knownEventIds then return .skip
  offer.checkPayload
  let boardId := offer.field "board_id"
  let (boardKey, genesis) ← requireGenesis node.boards boardId
    (missing ("received a board_origin_transfer_offer for board_id %r, which has no verified " ++
      "board_genesis on file -- refusing (no relay from a stranger yet)") [boardId])
  refuseIf (node.boardLifecycle.isClosed boardKey = true)
    (protocolError "board_id %r is closed -- refusing a further lifecycle event" [boardId])
  let currentOrigin := node.currentBoardOrigin boardKey genesis
  let signer ← node.requireIdentity (.str currentOrigin)
    { text := "received a board_origin_transfer_offer for board_id %r whose current origin (%r) " ++
        "has no completed hello with this node -- refusing (no relay from a stranger)"
      values := [boardId, .str currentOrigin] }
  let oldOrigin := offer.field "old_origin_fingerprint"
  refuseIf (oldOrigin.pyEq (.str currentOrigin) = false)
    (protocolError ("board_origin_transfer_offer for board_id %r claims an " ++
      "old_origin_fingerprint (%r) that doesn't match its actual current origin (%r)")
      [boardId, oldOrigin, .str currentOrigin])
  if (node.boardLifecycle.pendingOffer boardKey).any (·.contentId = offer.contentId) then
    return .heal offer.contentId
  refuseIf ((node.boardLifecycle.pendingOffer boardKey).isSome = true)
    (protocolError ("board_id %r already has an outstanding, unaccepted origin-transfer offer " ++
      "-- at most one may be in flight at a time") [boardId])
  let currentHead := node.currentBoardLifecycleHead boardKey genesis
  refuseIf ((offer.field "previous_event_id").pyEq (.str currentHead) = false)
    (protocolError ("board_origin_transfer_offer for board_id %r does not extend the current " ++
      "lifecycle head (%r)") [boardId, .str currentHead])
  return .acceptSigned offer "board_origin_transfer_offer" signer.fingerprint signer.record
    { text := "board_origin_transfer_offer from current origin %s does not verify against its " ++
        "signing keys"
      values := [.str currentOrigin] }
    (.boardOffer boardKey offer)

structure Offers (node : LinkNode env) (lifecycle : BoardLifecycleState env)
    (table : Dict Key (Genesis env)) (offer : Filed env) (key : Key) (signer : String) : Prop where
  signed : ∃ genesis, table.get? key = some genesis ∧
    signer = lifecycle.currentOrigin key genesis.originFingerprint ∧
    offer.field "previous_event_id" =
      .str (lifecycle.currentLifecycleHead key genesis.filed.contentId)
  fromOrigin : offer.field "old_origin_fingerprint" = .str signer
  nonePending : lifecycle.pendingOffer key = none

variable {node : LinkNode env} {raw : Json} {proposal : Proposal env}

theorem handleBoardOriginTransferOffer_spec
    (h : handleBoardOriginTransferOffer node raw = .ok proposal) :
    ∃ event, Filed.fromDict env raw = .ok event ∧
      Judged node event False
        (∃ key, (event.field "board_id").toKey = .ok key ∧ node.boardLifecycle.isClosed key = false ∧
          (node.boardLifecycle.pendingOffer key).any (·.contentId = event.contentId) = true)
        (fun signer change => ∃ key, (event.field "board_id").toKey = .ok key ∧
          node.boardLifecycle.isClosed key = false ∧
          Offers node node.boardLifecycle node.boards event key signer ∧
          change = .boardOffer key event) proposal := by
  unfold handleBoardOriginTransferOffer at h
  refine judged_of_parse h fun offer hnew h => ?_
  simp only [bind_eq_ok, refuseIf_eq_ok, exists_const, Filed.checkPayload_eq_ok,
    requireGenesis_eq_ok, LinkNode.requireIdentity_eq_ok, Bool.not_eq_true, Bool.not_eq_false,
    Json.pyEq_right_str] at h
  obtain ⟨-, ⟨key, genesis⟩, ⟨hkey, hgenesis⟩, hopen, signer, hsigner, hold, h⟩ := h
  have hname : signer.fingerprint = node.currentBoardOrigin key genesis :=
    (Json.str.inj signer.named_eq).symm
  split at h
  · rename_i hpending
    simp only [pure_eq_ok] at h
    exact h ▸ .healed hnew ⟨key, hkey, hopen, hpending⟩
  · simp only [bind_eq_ok, refuseIf_eq_ok, exists_const, pure_eq_ok, Bool.not_eq_true,
      Bool.not_eq_false, Json.pyEq_right_str, isSome_eq_false_iff, isNone_iff_eq_none] at h
    obtain ⟨hnone, hhead, rfl⟩ := h
    exact .signed hnew hsigner ⟨key, hkey, hopen,
      ⟨⟨genesis, hgenesis, hname, hhead⟩, by rw [hname, hold], hnone⟩, rfl⟩

def handleTransferAccepted (what idField newOriginField newOriginName : String)
    (lifecycle : BoardLifecycleState env) (record : Key → String → Filed env → Change env)
    (node : LinkNode env) (raw : Json) : Except PyError (Proposal env) := do
  let accepted ← Filed.fromDict env raw
  if accepted.contentId ∈ node.knownEventIds then return .skip
  accepted.checkPayload
  let resourceId := accepted.field idField
  let key ← resourceId.toKey
  if lifecycle.boardLifecycleHead.get? key = some accepted.contentId then
    return .heal accepted.contentId
  let offer ← orRefuse (lifecycle.pendingOffer key)
    (missing ("received a " ++ what ++ " for " ++ idField ++ " %r, which has no outstanding offer " ++
      "on file -- refusing (no relay from a stranger yet)") [resourceId])
  refuseIf ((accepted.field "previous_event_id").pyEq (.str offer.contentId) = false)
    (protocolError (what ++ " for " ++ idField ++ " %r does not reference the outstanding offer " ++
      "(%r)") [resourceId, .str offer.contentId])
  let newOrigin ← offer.get "new_origin_fingerprint"
  refuseIf ((accepted.field "new_origin_fingerprint").pyEq newOrigin = false)
    (protocolError (what ++ " for " ++ idField ++ " %r names a " ++ newOriginField ++
      " that doesn't match the offer it's accepting") [resourceId])
  let signer ← node.requireIdentity newOrigin
    { text := "received a " ++ what ++ " for " ++ idField ++ " %r whose " ++ newOriginName
      values := [resourceId, newOrigin] }
  return .acceptSigned accepted what signer.fingerprint signer.record
    { text := what ++ " from new origin %s does not verify against its signing keys"
      values := [newOrigin] }
    (record key signer.fingerprint accepted)

def handleBoardOriginTransferAccepted (node : LinkNode env) (raw : Json) :
    Except PyError (Proposal env) :=
  handleTransferAccepted "board_origin_transfer_accepted" "board_id" "new_origin_fingerprint"
    ("named new origin (%r) has no completed hello with this node -- refusing (no relay from a " ++
      "stranger)") node.boardLifecycle .boardAcceptance node raw

structure Accepts (lifecycle : BoardLifecycleState env) (accepted : Filed env) (key : Key)
    (newOrigin : String) : Prop where
  new : lifecycle.boardLifecycleHead.get? key ≠ some accepted.contentId
  pending : ∃ offer, lifecycle.pendingOffer key = some offer ∧
    accepted.field "previous_event_id" = .str offer.contentId ∧
    offer.field "new_origin_fingerprint" = .str newOrigin
  named : accepted.field "new_origin_fingerprint" = .str newOrigin

theorem handleTransferAccepted_spec {what idField newOriginField newOriginName : String}
    {lifecycle : BoardLifecycleState env} {record : Key → String → Filed env → Change env}
        (h : handleTransferAccepted what idField newOriginField newOriginName lifecycle record node raw =
      .ok proposal) :
    ∃ event, Filed.fromDict env raw = .ok event ∧
      Judged node event False
        (∃ key, (event.field idField).toKey = .ok key ∧
          lifecycle.boardLifecycleHead.get? key = some event.contentId)
        (fun signer change => ∃ key, (event.field idField).toKey = .ok key ∧
          Accepts lifecycle event key signer ∧ change = record key signer event) proposal := by
  unfold handleTransferAccepted at h
  refine judged_of_parse h fun accepted hnew h => ?_
  simp only [bind_eq_ok, exists_const, Filed.checkPayload_eq_ok] at h
  obtain ⟨-, key, hkey, h⟩ := h
  split at h
  · rename_i hhead
    simp only [pure_eq_ok] at h
    exact h ▸ .healed hnew ⟨key, hkey, hhead⟩
  · rename_i hhead
    simp only [bind_eq_ok, refuseIf_eq_ok, orRefuse_eq_ok, exists_const, pure_eq_ok,
      LinkNode.requireIdentity_eq_ok, Bool.not_eq_false, Json.pyEq_right_str] at h
    obtain ⟨offer, hoffer, hprevious, newOrigin, hnewOrigin, hnamed, ⟨signer, record, rfl⟩, hsigner, rfl⟩ := h
    exact .signed hnew hsigner ⟨key, hkey, ⟨hhead, ⟨offer, hoffer, hprevious,
      Filed.get_eq_field hnewOrigin⟩, (Json.pyEq_right_str _ _).mp hnamed⟩, rfl⟩

def handleBoardClosure (node : LinkNode env) (raw : Json) : Except PyError (Proposal env) := do
  let closure ← Filed.fromDict env raw
  if closure.contentId ∈ node.knownEventIds then return .skip
  closure.checkPayload
  let boardId := closure.field "board_id"
  let (boardKey, genesis) ← requireGenesis node.boards boardId
    (missing ("received a board_closure for board_id %r, which has no verified board_genesis on " ++
      "file -- refusing (no relay from a stranger yet)") [boardId])
  let existing := node.boardLifecycle.boardClosures.get? boardKey
  if existing.any (·.contentId = closure.contentId) then return .heal closure.contentId
  refuseIf (existing.isSome = true)
    (protocolError "board_id %r is already closed -- refusing a second, different board_closure"
      [boardId])
  let currentOrigin := node.currentBoardOrigin boardKey genesis
  let signer ← node.requireIdentity (.str currentOrigin)
    { text := "received a board_closure for board_id %r whose current origin (%r) has no " ++
        "completed hello with this node -- refusing (no relay from a stranger)"
      values := [boardId, .str currentOrigin] }
  let currentHead := node.currentBoardLifecycleHead boardKey genesis
  refuseIf ((closure.field "previous_event_id").pyEq (.str currentHead) = false)
    (protocolError "board_closure for board_id %r does not extend the current lifecycle head (%r)"
      [boardId, .str currentHead])
  return .acceptSigned closure "board_closure" signer.fingerprint signer.record
    { text := "board_closure from current origin %s does not verify against its signing keys"
      values := [.str currentOrigin] }
    (.boardClosure boardKey closure)

structure Closes (node : LinkNode env) (closure : Filed env) (key : Key) (signer : String) :
    Prop where
  open_ : node.boardLifecycle.isClosed key = false
  signed : ∃ genesis, node.boards.get? key = some genesis ∧
    signer = node.currentBoardOrigin key genesis ∧
    closure.field "previous_event_id" = .str (node.currentBoardLifecycleHead key genesis)

theorem handleBoardClosure_spec (h : handleBoardClosure node raw = .ok proposal) :
    ∃ event, Filed.fromDict env raw = .ok event ∧
      Judged node event False
        (∃ key, (event.field "board_id").toKey = .ok key ∧ (node.boardLifecycle.boardClosures.get? key).any
            (·.contentId = event.contentId) = true)
        (fun signer change => ∃ key, (event.field "board_id").toKey = .ok key ∧
          Closes node event key signer ∧ change = .boardClosure key event) proposal := by
  unfold handleBoardClosure at h
  refine judged_of_parse h fun closure hnew h => ?_
  simp only [bind_eq_ok, exists_const, Filed.checkPayload_eq_ok, requireGenesis_eq_ok] at h
  obtain ⟨-, ⟨key, genesis⟩, ⟨hkey, hgenesis⟩, h⟩ := h
  split at h
  · rename_i hexisting
    simp only [pure_eq_ok] at h
    exact h ▸ .healed hnew ⟨key, hkey, hexisting⟩
  · simp only [bind_eq_ok, refuseIf_eq_ok, exists_const, pure_eq_ok, Bool.not_eq_true,
      LinkNode.requireIdentity_eq_ok, Bool.not_eq_false, Json.pyEq_right_str] at h
    obtain ⟨hopen, signer, hsigner, hhead, rfl⟩ := h
    exact .signed hnew hsigner ⟨key, hkey, ⟨hopen, genesis, hgenesis,
      (Json.str.inj signer.named_eq).symm, hhead⟩, rfl⟩

def acceptChannelTransferOffer (node : LinkNode env) (raw : Json) :
    Except PyError (Proposal env) := do
  let offer ← Filed.fromDict env raw
  if offer.contentId ∈ node.knownEventIds then return .skip
  offer.checkPayload
  let channelId := offer.field "channel_id"
  let (channelKey, genesis) ← requireGenesis node.channels channelId
    (missing ("received a channel_origin_transfer_offer for channel_id %r, which has no verified " ++
      "channel_genesis on file -- refusing (no relay from a stranger yet)") [channelId])
  let currentOrigin := node.currentChannelOrigin channelKey genesis
  let signer ← node.requireIdentity (.str currentOrigin)
    { text := "received a channel_origin_transfer_offer for channel_id %r whose current origin " ++
        "(%r) has no completed hello with this node -- refusing"
      values := [channelId, .str currentOrigin] }
  refuseIf ((offer.field "old_origin_fingerprint").pyEq (.str currentOrigin) = false)
    (protocolError ("channel_origin_transfer_offer for channel_id %r claims an old origin that " ++
      "doesn't match its current origin (%r)") [channelId, .str currentOrigin])
  if (node.channelLifecycle.pendingOffer channelKey).any (·.contentId = offer.contentId) then
    return .heal offer.contentId
  refuseIf ((node.channelLifecycle.pendingOffer channelKey).isSome = true)
    (protocolError ("channel_id %r already has an outstanding, unaccepted origin-transfer offer " ++
      "-- at most one may be in flight at a time") [channelId])
  let head := node.channelLifecycle.currentLifecycleHead channelKey genesis.filed.contentId
  refuseIf ((offer.field "previous_event_id").pyEq (.str head) = false)
    (protocolError ("channel_origin_transfer_offer for channel_id %r does not extend the current " ++
      "lifecycle head (%r)") [channelId, .str head])
  return .acceptSigned offer "channel_origin_transfer_offer" signer.fingerprint signer.record
    { text := "channel_origin_transfer_offer from current origin %s does not verify against its " ++
        "signing keys"
      values := [.str currentOrigin] }
    (.channelOffer channelKey offer)

theorem acceptChannelTransferOffer_spec (h : acceptChannelTransferOffer node raw = .ok proposal) :
    ∃ event, Filed.fromDict env raw = .ok event ∧
      Judged node event False
        (∃ key, (event.field "channel_id").toKey = .ok key ∧
          (node.channelLifecycle.pendingOffer key).any (·.contentId = event.contentId) = true)
        (fun signer change => ∃ key, (event.field "channel_id").toKey = .ok key ∧
          Offers node node.channelLifecycle node.channels event key signer ∧
          change = .channelOffer key event) proposal := by
  unfold acceptChannelTransferOffer at h
  refine judged_of_parse h fun offer hnew h => ?_
  simp only [bind_eq_ok, refuseIf_eq_ok, exists_const, Filed.checkPayload_eq_ok,
    requireGenesis_eq_ok, LinkNode.requireIdentity_eq_ok, Bool.not_eq_false, Json.pyEq_right_str] at h
  obtain ⟨-, ⟨key, genesis⟩, ⟨hkey, hgenesis⟩, signer, hsigner, hold, h⟩ := h
  have hname : signer.fingerprint = node.currentChannelOrigin key genesis :=
    (Json.str.inj signer.named_eq).symm
  split at h
  · rename_i hpending
    simp only [pure_eq_ok] at h
    exact h ▸ .healed hnew ⟨key, hkey, hpending⟩
  · simp only [bind_eq_ok, refuseIf_eq_ok, exists_const, pure_eq_ok, Bool.not_eq_true,
      Bool.not_eq_false, Json.pyEq_right_str, isSome_eq_false_iff, isNone_iff_eq_none] at h
    obtain ⟨hnone, hhead, rfl⟩ := h
    exact .signed hnew hsigner ⟨key, hkey,
      ⟨⟨genesis, hgenesis, hname, hhead⟩, by rw [hname, hold], hnone⟩, rfl⟩

def acceptChannelTransferAccepted (node : LinkNode env) (raw : Json) :
    Except PyError (Proposal env) :=
  handleTransferAccepted "channel_origin_transfer_accepted" "channel_id" "new origin"
    "new origin (%r) has no completed hello with this node -- refusing" node.channelLifecycle
    .channelAcceptance node raw

end NetBBS
