import NetBBS.Link.Realtime.Checks

/-! # The payload schemas of the real-time frames -/

namespace NetBBS

namespace Realtime

def maxIdBytes : Nat := 128
def maxDisplayLabelBytes : Nat := 256
def maxChannelMessageBodyBytes : Nat := 4000
def maxErrorDetailBytes : Nat := 500
def maxCloseReasonBytes : Nat := 200
def maxPresenceEntries : Nat := 500
def maxDirectMessageBodyBytes : Nat := maxChannelMessageBodyBytes
def maxScrollbackSnapshotEntries : Nat := 20
def maxScrollbackEntryBodyBytes : Nat := 400
def relayMaxHops : Int := 1
def botBlockMaxBytes : Nat := 12 * 1024
def botPrivateAnswerMaxChars : Nat := 500

def presenceChanges : List String := ["join", "leave"]
def relayRoles : List String := ["initiator", "responder"]
def relayRejectOrigins : List String := ["relay", "party"]

def relayRejectReasons : List String :=
  ["not_serving", "invalid_target", "target_unreachable", "at_capacity", "pending_full", "declined",
    "timeout", "attach_failed", "policy_refused"]

def scrollbackEntryKinds : List String :=
  ["message", "join", "leave", "mute", "unmute", "ban", "unban", "kick", "action", "nick", "daybreak"]

def authorlessScrollbackEntryKinds : List String :=
  ["mute", "unmute", "ban", "unban", "kick", "daybreak"]

def directChatAnswers : List String := ["accepted", "declined", "busy", "unavailable"]
def directChatEndReasons : List String := ["left", "cancelled", "timed_out"]

/-- `if not passes: raise LinkProtocolError(f"{path}{problem}")`. -/
def require (passes : Bool) (path : PyStr) (problem : String) : Check :=
  .require passes { subject := path, problem }

/-- `f"{path}.{name}"`. -/
def fieldPath (path : PyStr) (name : String) : PyStr := path ++ PyStr.ofString ("." ++ name)

/-- `f"{path}[{index}]"`. -/
def indexPath (path : PyStr) (index : Nat) : PyStr := path ++ PyStr.ofString s!"[{index}]"

def forEach (path : PyStr) (items : List WireJson) (checks : WireJson → PyStr → List Check) :
    List Check :=
  items.zipIdx.flatMap fun entry => checks entry.1 (indexPath path entry.2)

def validateBoundedId (value : WireJson) (path : PyStr) : List Check :=
  [require (value.isStr && !value.text.isEmpty) path " must be a non-empty string",
    .fits value.text maxIdBytes { subject := path, problem := s!" exceeds {maxIdBytes} bytes" }]

def validateBoundedText (value : WireJson) (path : PyStr) (maxBytes : Nat) : List Check :=
  [require value.isStr path " must be a string",
    .fits value.text maxBytes { subject := path, problem := s!" exceeds {maxBytes} bytes" }]

/-- `_validate_bounded_id(payload[name], path=f"{path}.{name}")`. -/
def idField (payload : WireJson) (path : PyStr) (name : String) : List Check :=
  validateBoundedId (payload.field name) (fieldPath path name)

/-- `_validate_bounded_text(payload[name], path=f"{path}.{name}", max_bytes=max_bytes)`. -/
def textField (payload : WireJson) (path : PyStr) (name : String) (maxBytes : Nat) : List Check :=
  validateBoundedText (payload.field name) (fieldPath path name) maxBytes

def whenPresent (payload : WireJson) (name : String) (checks : List Check) : List Check :=
  if payload.hasKey name = true then checks else []

/-- A `created_at` that must name a moment. -/
def timestampField (py : Interpreter) (payload : WireJson) (path : PyStr) : List Check :=
  let value := payload.field "created_at"
  let problem := py.timestampProblem value.text
  [require value.isStr (fieldPath path "created_at") " must be a string",
    require problem.isNone (fieldPath path "created_at") (problem.getD "")]

/-- `value.body` of a message that must say something. -/
def notBlank (value : WireJson) (path : PyStr) : Check :=
  require (!value.text.isBlank) path " must not be blank"

def validateChannelIdOnlyPayload (payload : WireJson) (path : PyStr) : List Check :=
  require (payload.hasKeys ["channel_id"] []) path " must contain exactly channel_id" ::
    idField payload path "channel_id"

def validatePresenceEntry (nodeOptional : Bool) (entry : WireJson) (path : PyStr) : List Check :=
  let optional := if nodeOptional then ["node_fingerprint"] else []
  let problem :=
    if nodeOptional then
      " must contain exactly user_id and display_label, optionally with node_fingerprint"
    else " must contain exactly user_id and display_label"
  require (entry.isObj && entry.hasKeys ["user_id", "display_label"] optional) path problem ::
    idField entry path "user_id" ++
    textField entry path "display_label" maxDisplayLabelBytes ++
    whenPresent entry "node_fingerprint" (idField entry path "node_fingerprint")

def presenceEntries (nodeOptional : Bool) (payload : WireJson) (path : PyStr) : List Check :=
  let entries := payload.field "entries"
  let entriesPath := fieldPath path "entries"
  require entries.isArr entriesPath " must be a list" ::
    require (entries.items.length ≤ maxPresenceEntries) entriesPath
      s!" exceeds {maxPresenceEntries} entries" ::
    forEach entriesPath entries.items (validatePresenceEntry nodeOptional)

def validatePresenceSnapshotPayload (payload : WireJson) (path : PyStr) : List Check :=
  require (payload.hasKeys ["channel_id", "entries"] []) path
      " must contain exactly channel_id and entries" ::
    idField payload path "channel_id" ++ presenceEntries true payload path

/-- `payload["change"] not in _REALTIME_PRESENCE_CHANGES`. -/
def presenceChange (payload : WireJson) (path : PyStr) : Check :=
  .member (payload.field "change") presenceChanges
    { subject := fieldPath path "change", problem := " must be 'join' or 'leave'" }

def validatePresenceDeltaPayload (payload : WireJson) (path : PyStr) : List Check :=
  require (payload.hasKeys ["channel_id", "change", "user_id", "display_label"] ["node_fingerprint"]) path
      (" must contain exactly channel_id, change, user_id, and display_label, " ++
        "optionally with node_fingerprint") ::
    whenPresent payload "node_fingerprint" (idField payload path "node_fingerprint") ++
    idField payload path "channel_id" ++ presenceChange payload path ::
    idField payload path "user_id" ++
    textField payload path "display_label" maxDisplayLabelBytes

def validateNodePresenceSnapshotPayload (payload : WireJson) (path : PyStr) : List Check :=
  require (payload.hasKeys ["entries"] []) path " must contain exactly entries" ::
    presenceEntries false payload path

def validateNodePresenceDeltaPayload (payload : WireJson) (path : PyStr) : List Check :=
  require (payload.hasKeys ["change", "user_id", "display_label"] []) path
      " must contain exactly change, user_id, and display_label" ::
    presenceChange payload path ::
    idField payload path "user_id" ++
    textField payload path "display_label" maxDisplayLabelBytes

def dumpedTextLength (text : PyStr) : Option Nat := do
  let sizes ← text.mapM fun c =>
    if c = WireJson.quote ∨ c = WireJson.backslash ∨ c.val ∈ [8, 9, 10, 12, 13] then some 2
    else if c.val < 0x20 then some 6
    else c.utf8Size
  pure (2 + sizes.sum)

mutual

def dumpedLength (depth : Nat) : WireJson → Option Nat
  | .null => some 4
  | .bool value => some (if value then 4 else 5)
  | .int n => some ((if n < 0 then 1 else 0) + (Nat.toDigits 10 n.natAbs).length)
  | .float numeral => some numeral.length
  | .str value => dumpedTextLength value
  | .arr items =>
    if depth = 0 then none
    else do pure (2 + (items.length - 1) + (← dumpedItemsLength (depth - 1) items))
  | .obj members =>
    if depth = 0 then none
    else do pure (2 + (members.length - 1) + (← dumpedMembersLength (depth - 1) members))

def dumpedItemsLength (depth : Nat) : List WireJson → Option Nat
  | [] => some 0
  | item :: rest => do pure ((← dumpedLength depth item) + (← dumpedItemsLength depth rest))

def dumpedMembersLength (depth : Nat) : List (PyStr × WireJson) → Option Nat
  | [] => some 0
  | (key, item) :: rest => do
    pure ((← dumpedTextLength key) + 1 + (← dumpedLength depth item) + (← dumpedMembersLength depth rest))

end

/-- `bot_block_bytes`: what cannot be written is too big. -/
def botBlockBytes (py : Interpreter) (value : WireJson) : Nat :=
  (dumpedLength py.dumpsDepth value).getD (botBlockMaxBytes + 1)

def validateBotBlockField (py : Interpreter) (value : WireJson) (path : PyStr) : List Check :=
  [require value.isObj path " must be an object",
    require (botBlockBytes py value ≤ botBlockMaxBytes) path s!" exceeds {botBlockMaxBytes} bytes"]

def validateChannelMessagePayload (py : Interpreter) (payload : WireJson) (path : PyStr) :
    List Check :=
  let optionalIds :=
    if py.contentIdFirst then ["content_id", "author_node_fingerprint"]
    else ["author_node_fingerprint", "content_id"]
  require (payload.hasKeys ["channel_id", "user_id", "display_label", "body", "created_at"]
      ["author_node_fingerprint", "content_id", "announcement", "block"]) path
      (" must contain exactly channel_id, user_id, display_label, body, and created_at, " ++
        "optionally with author_node_fingerprint, content_id, announcement and block") ::
    whenPresent payload "announcement"
      [require (payload.field "announcement").isTrue (fieldPath path "announcement")
        " must be true when present"] ++
    idField payload path "channel_id" ++
    optionalIds.flatMap (fun name => whenPresent payload name (idField payload path name)) ++
    whenPresent payload "block"
      (require (!payload.hasKey "announcement") path " carries an announcement or a block, not both" ::
        validateBotBlockField py (payload.field "block") (fieldPath path "block")) ++
    idField payload path "user_id" ++
    textField payload path "display_label" maxDisplayLabelBytes ++
    require ((payload.field "body").isStr && !(payload.field "body").text.isEmpty)
      (fieldPath path "body") " must be a non-empty string" ::
    textField payload path "body" maxChannelMessageBodyBytes ++
    timestampField py payload path

def validateScrollbackEntry (py : Interpreter) (entry : WireJson) (path : PyStr) : List Check :=
  let kind := entry.field "kind"
  let body := entry.field "body"
  require (entry.isObj && entry.hasKeys ["kind", "author_label", "author_node_fingerprint",
      "author_user_id", "content_id", "body", "body_truncated", "created_at"]
      ["announcement", "block"]) path " has unexpected or missing fields" ::
    whenPresent entry "announcement"
      [require ((entry.field "announcement").isTrue && kind.isOneOf ["message"])
        (fieldPath path "announcement") " must be true, on a message entry"] ++
    whenPresent entry "block"
      (require (kind.isOneOf ["message"]) (fieldPath path "block") " belongs on a message" ::
        require (!entry.hasKey "announcement") path " carries an announcement or a block, not both" ::
        validateBotBlockField py (entry.field "block") (fieldPath path "block")) ++
    -- The set is asked only for a string.
    require (kind.isStr && kind.isOneOf scrollbackEntryKinds) (fieldPath path "kind")
      " is not a recognized scrollback event kind" ::
    textField entry path "author_label" maxDisplayLabelBytes ++
    (if kind.isOneOf authorlessScrollbackEntryKinds = true then
      [require ((entry.field "author_node_fingerprint").isNull &&
          (entry.field "author_user_id").isNull) path " authorless entries must not name an author"]
    else
      idField entry path "author_node_fingerprint" ++ idField entry path "author_user_id") ++
    (if (entry.field "content_id").isNull = true then [] else idField entry path "content_id") ++
    .require (!(kind.isOneOf ["message", "action", "nick", "daybreak"] && body.isNull))
      { subject := fieldPath path "body", problem := " is required for kind ", shown := some kind } ::
    (if body.isNull = true then []
    else textField entry path "body" maxScrollbackEntryBodyBytes) ++
    require (entry.field "body_truncated").isBool (fieldPath path "body_truncated") " must be a boolean" ::
    require (!((entry.field "body_truncated").isTrue && body.isNull)) (fieldPath path "body_truncated")
      " requires a body" ::
    timestampField py entry path

def validateScrollbackSnapshotPayload (py : Interpreter) (payload : WireJson) (path : PyStr) :
    List Check :=
  let entries := payload.field "entries"
  let entriesPath := fieldPath path "entries"
  require (payload.hasKeys ["channel_id", "request_id", "entries"] []) path
      " must contain exactly channel_id, request_id, and entries" ::
    idField payload path "channel_id" ++ idField payload path "request_id" ++
    require entries.isArr entriesPath " must be a list" ::
    require (entries.items.length ≤ maxScrollbackSnapshotEntries) entriesPath
      s!" exceeds {maxScrollbackSnapshotEntries} entries" ::
    forEach entriesPath entries.items (validateScrollbackEntry py)

def validateEmptyPayload (payload : WireJson) (path : PyStr) : List Check :=
  [require payload.keys.isEmpty path " must be an empty object"]

def validateErrorPayload (payload : WireJson) (path : PyStr) : List Check :=
  require (payload.hasKeys ["code", "detail"] []) path " must contain exactly code and detail" ::
    idField payload path "code" ++ textField payload path "detail" maxErrorDetailBytes

def validateClosePayload (payload : WireJson) (path : PyStr) : List Check :=
  require (payload.hasKeys ["reason"] []) path " must contain exactly reason" ::
    textField payload path "reason" maxCloseReasonBytes

def validateDirectMessagePayload (py : Interpreter) (payload : WireJson) (path : PyStr) :
    List Check :=
  require (payload.hasKeys ["to_user_id", "from_user_id", "from_display_label", "body", "created_at"] []) path
      " must contain exactly body, created_at, from_display_label, from_user_id, to_user_id" ::
    idField payload path "to_user_id" ++ idField payload path "from_user_id" ++
    textField payload path "from_display_label" maxDisplayLabelBytes ++
    textField payload path "body" maxDirectMessageBodyBytes ++
    notBlank (payload.field "body") (fieldPath path "body") ::
    timestampField py payload path

def validateDirectChatInvitePayload (py : Interpreter) (payload : WireJson) (path : PyStr) :
    List Check :=
  require (payload.hasKeys ["chat_id", "to_user_id", "from_user_id", "from_display_label",
      "created_at"] []) path
      " must contain exactly chat_id, created_at, from_display_label, from_user_id, to_user_id" ::
    ["chat_id", "to_user_id", "from_user_id"].flatMap (idField payload path) ++
    textField payload path "from_display_label" maxDisplayLabelBytes ++
    timestampField py payload path

/-- `_validate_direct_chat_answer_payload`: the answers are a tuple, which compares without
hashing. -/
def validateDirectChatAnswerPayload (payload : WireJson) (path : PyStr) : List Check :=
  require (payload.hasKeys ["chat_id", "outcome"] []) path
      " must contain exactly chat_id and outcome" ::
    idField payload path "chat_id" ++
    [require ((payload.field "outcome").isOneOf directChatAnswers) (fieldPath path "outcome")
      " is not a known answer"]

def validateDirectChatLinePayload (py : Interpreter) (payload : WireJson) (path : PyStr) :
    List Check :=
  require (payload.hasKeys ["chat_id", "body", "created_at"] []) path
      " must contain exactly chat_id, body and created_at" ::
    idField payload path "chat_id" ++
    textField payload path "body" maxDirectMessageBodyBytes ++
    notBlank (payload.field "body") (fieldPath path "body") ::
    timestampField py payload path

def validateDirectChatEndPayload (payload : WireJson) (path : PyStr) : List Check :=
  require (payload.hasKeys ["chat_id", "reason"] []) path
      " must contain exactly chat_id and reason" ::
    idField payload path "chat_id" ++
    [require ((payload.field "reason").isOneOf directChatEndReasons) (fieldPath path "reason")
      " is not a known reason"]

def validateOptionalRequestId (payload : WireJson) (path : PyStr) : List Check :=
  whenPresent payload "request_id" (idField payload path "request_id")

def validateRelayRequestPayload (payload : WireJson) (path : PyStr) : List Check :=
  require (payload.hasKeys ["target_fingerprint", "requester_fingerprint"]
      ["via_relay", "hops", "request_id"]) path
      (" must contain target_fingerprint and requester_fingerprint " ++
        "(optionally via_relay, hops, request_id)") ::
    validateOptionalRequestId payload path ++
    idField payload path "target_fingerprint" ++ idField payload path "requester_fingerprint" ++
    require ((payload.field "target_fingerprint").text ≠
      (payload.field "requester_fingerprint").text) path " target and requester must differ" ::
    whenPresent payload "via_relay" (idField payload path "via_relay") ++
    whenPresent payload "hops"
      [require ((payload.field "hops").isIntWithin 0 relayMaxHops) (fieldPath path "hops")
        " must be an integer between 0 and 1"]

def validateRelayWaitingPayload (payload : WireJson) (path : PyStr) : List Check :=
  require (payload.hasKeys ["target_fingerprint"] ["request_id"]) path
      " must contain exactly target_fingerprint (optionally request_id)" ::
    idField payload path "target_fingerprint" ++ validateOptionalRequestId payload path

def validateRelayReadyPayload (payload : WireJson) (path : PyStr) : List Check :=
  require (payload.hasKeys ["bridge_id", "peer_fingerprint", "role", "attach_token",
      "attach_address", "attach_port"] ["request_id", "for_fingerprint"]) path
      (" must contain exactly attach_address, attach_port, attach_token, bridge_id, " ++
        "peer_fingerprint, role (optionally request_id, for_fingerprint)") ::
    validateOptionalRequestId payload path ++
    whenPresent payload "for_fingerprint" (idField payload path "for_fingerprint") ++
    ["bridge_id", "peer_fingerprint", "attach_token", "attach_address"].flatMap
      (idField payload path) ++
    [.member (payload.field "role") relayRoles
        { subject := fieldPath path "role", problem := " must be initiator or responder" },
      require ((payload.field "attach_port").isIntWithin 1 65535) (fieldPath path "attach_port")
        " must be a TCP port"]

def validateRelayRejectPayload (payload : WireJson) (path : PyStr) : List Check :=
  require (payload.hasKeys ["target_fingerprint", "reason", "origin"]
      ["requester_fingerprint", "request_id"]) path
      (" must contain exactly target_fingerprint, reason, and origin " ++
        "(optionally requester_fingerprint, request_id)") ::
    validateOptionalRequestId payload path ++
    whenPresent payload "requester_fingerprint" (idField payload path "requester_fingerprint") ++
    idField payload path "target_fingerprint" ++
    [.member (payload.field "reason") relayRejectReasons
        { subject := fieldPath path "reason", problem := " is not a known relay rejection reason" },
      .member (payload.field "origin") relayRejectOrigins
        { subject := fieldPath path "origin", problem := " must be relay or party" }]

def isBotLetter (c : CodePoint) : Bool :=
  c.isAsciiLetter || c.val == 0x130 || c.val == 0x131 || c.val == 0x17F || c.val == 0x212A

/-- `re.fullmatch(r"[A-Za-z][A-Za-z0-9_-]{0,23}\.bot", label, re.IGNORECASE)`. -/
def isBotLabel (label : PyStr) : Bool :=
  let name := label.take (label.length - 4)
  let suffix := label.drop (label.length - 4)
  1 ≤ name.length && name.length ≤ 24 && (name.take 1).all isBotLetter &&
    name.all (fun c => isBotLetter c || c.isDigit || c.val == 0x5F || c.val == 0x2D) &&
    suffix.length == 4 &&
    (suffix.map fun c => if c.isAsciiLetter then c.val ||| 0x20 else c.val) ==
      [0x2E, 0x62, 0x6F, 0x74]

def validateBotLabel (value : WireJson) (path : PyStr) : List Check :=
  [require (value.isStr && isBotLabel value.text) path " needs a canonical bot label"]

def validateBotRequestPayload (payload : WireJson) (path : PyStr) : List Check :=
  let access := payload.field "access"
  require (payload.hasKeys ["channel_id", "bot", "caller", "text"] ["access", "private"]) path
      " needs channel_id, bot, caller and text" ::
    whenPresent payload "private"
      [require (payload.field "private").isTrue (fieldPath path "private") " must be true when present"] ++
    whenPresent payload "access"
      [require (access.isObj && access.hasKeys ["level", "authenticated"] [] &&
          (access.field "level").isIntWithin 0 255 && (access.field "authenticated").isBool)
        (fieldPath path "access") " needs level 0-255 and authenticated boolean"] ++
    ["channel_id", "bot", "caller"].flatMap (idField payload path) ++
    textField payload path "text" 4000 ++
    validateBotLabel (payload.field "bot") path

def validateBotResultPayload (py : Interpreter) (payload : WireJson) (path : PyStr) : List Check :=
  let answer := payload.field "private"
  let answerPath := fieldPath path "private"
  let answerText := (answer.field "text").text
  require (payload.hasKeys ["request_id", "error"] ["private"]) path
      " needs request_id and error" ::
    idField payload path "request_id" ++ textField payload path "error" 500 ++
    whenPresent payload "private"
      (require (answer.isObj && answer.hasKeys ["text"] ["block"]) answerPath
          " must contain exactly text, optionally with block" ::
        whenPresent answer "block"
          (validateBotBlockField py (answer.field "block") (fieldPath answerPath "block")) ++
        textField answer answerPath "text" (4 * botPrivateAnswerMaxChars) ++
        [require (!answerText.isBlank && answerText.length ≤ botPrivateAnswerMaxChars)
            (fieldPath answerPath "text") s!" must contain 1-{botPrivateAnswerMaxChars} characters",
          require (payload.field "error").text.isEmpty path
            " carries a private answer or an error, not both"])

def validateBotPresencePayload (payload : WireJson) (path : PyStr) : List Check :=
  let labels := payload.field "labels"
  require (payload.hasKeys ["channel_id", "author_node_fingerprint", "labels"] []) path
      " needs channel_id, author_node_fingerprint and labels" ::
    idField payload path "channel_id" ++ idField payload path "author_node_fingerprint" ++
    require (labels.isArr && labels.items.length ≤ 16) (fieldPath path "labels")
      " must be a list of at most 16 bot labels" ::
    labels.items.flatMap fun label => validateBotLabel label path

def realtimePayloadValidators (py : Interpreter) :
    List (String × (WireJson → PyStr → List Check)) :=
  [("bot_request", validateBotRequestPayload), ("bot_result", validateBotResultPayload py),
    ("bot_presence", validateBotPresencePayload), ("bot_readers", validateBotPresencePayload),
    ("relay_request", validateRelayRequestPayload), ("relay_waiting", validateRelayWaitingPayload),
    ("relay_ready", validateRelayReadyPayload), ("relay_reject", validateRelayRejectPayload),
    ("direct_message", validateDirectMessagePayload py),
    ("direct_chat_invite", validateDirectChatInvitePayload py),
    ("direct_chat_answer", validateDirectChatAnswerPayload),
    ("direct_chat_line", validateDirectChatLinePayload py), ("direct_chat_end", validateDirectChatEndPayload),
    ("subscribe", validateChannelIdOnlyPayload), ("unsubscribe", validateChannelIdOnlyPayload),
    ("presence_snapshot", validatePresenceSnapshotPayload), ("presence_delta", validatePresenceDeltaPayload),
    ("node_presence_snapshot", validateNodePresenceSnapshotPayload),
    ("node_presence_delta", validateNodePresenceDeltaPayload),
    ("channel_message", validateChannelMessagePayload py),
    ("scrollback_snapshot", validateScrollbackSnapshotPayload py), ("ping", validateEmptyPayload),
    ("pong", validateEmptyPayload), ("error", validateErrorPayload), ("close", validateClosePayload)]

end Realtime

end NetBBS
