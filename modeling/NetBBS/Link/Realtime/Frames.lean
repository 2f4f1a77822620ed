import NetBBS.Link.Realtime.Payloads

/-! # Receiving a real-time frame -/

namespace NetBBS

open Foundation

namespace Realtime

def realtimeProtocolVersion : Int := 4
def maxPlaintextBytes : Nat := 16 * 1024
def maxMessageIdBytes : Nat := 64
def jsonSafeInteger : Int := 2 ^ 53 - 1

def realtimeFrameTypes : List String :=
  ["subscribe", "unsubscribe", "presence_snapshot", "presence_delta", "node_presence_snapshot",
    "node_presence_delta", "channel_message", "scrollback_snapshot", "ping", "pong", "error",
    "close", "relay_request", "relay_waiting", "relay_ready", "relay_reject", "direct_message",
    "bot_request", "bot_result", "bot_presence", "bot_readers", "direct_chat_invite",
    "direct_chat_answer", "direct_chat_line", "direct_chat_end"]

mutual

/-- `_validate_realtime_json_value`, called with this many frames left. -/
def validateJsonValue (frames : Nat) (path : PyStr) : WireJson → List Check
  | .null | .bool _ | .str _ => [.call frames]
  | .int n =>
    [.call frames, require (-jsonSafeInteger ≤ n && n ≤ jsonSafeInteger) path
      " integer exceeds the interoperable JSON range"]
  | .float _ => [.call frames, require false path " must not contain floating-point values"]
  | .arr items => .call frames :: validateJsonItems (frames - 1) path 0 items
  | .obj members => .call frames :: validateJsonMembers (frames - 1) path members

def validateJsonItems (frames : Nat) (path : PyStr) (index : Nat) : List WireJson → List Check
  | [] => []
  | item :: rest =>
    validateJsonValue frames (indexPath path index) item ++
      validateJsonItems frames path (index + 1) rest

def validateJsonMembers (frames : Nat) (path : PyStr) : List (PyStr × WireJson) → List Check
  | [] => []
  | (key, item) :: rest =>
    validateJsonValue frames (path ++ PyStr.ofString "." ++ key) item ++
      validateJsonMembers frames path rest

end

structure RealtimeFrame where
  type : PyStr
  messageId : PyStr
  payload : WireJson

/-- `RealtimeFrame.from_dict` and `RealtimeFrame.__post_init__`. -/
def validateFrame (py : Interpreter) (value : WireJson) : List Check :=
  let frameType := value.field "type"
  let messageId := value.field "message_id"
  [require value.isObj [] "real-time frame must be an object",
    require (value.hasKeys ["version", "type", "message_id", "payload"] []) []
      "real-time frame must contain exactly version, type, message_id, and payload",
    require ((value.field "version").isIntWithin realtimeProtocolVersion realtimeProtocolVersion) []
      "unsupported real-time protocol version",
    .require (frameType.isOneOf realtimeFrameTypes)
      { subject := [], problem := "unsupported real-time frame type ", shown := some frameType },
    require (messageId.isStr && !messageId.text.isEmpty) []
      "real-time message_id must be a non-empty string",
    require (messageId.text.all fun c => c.val < 0x80) [] "real-time message_id must be ASCII",
    require (messageId.text.length ≤ maxMessageIdBytes && messageId.text.all fun c =>
        c.isAsciiLetter || c.isDigit || c.val == 0x2D || c.val == 0x5F) []
      "real-time message_id must be at most 64 ASCII letters, digits, '-' or '_'",
    require (value.field "payload").isObj [] "real-time payload must be an object"] ++
    validateJsonValue py.frames (PyStr.ofString "payload") (value.field "payload")

def RealtimeFrame.fromDict (py : Interpreter) (value : WireJson) :
    Except RealtimeError RealtimeFrame := do
  runAll Check.run (validateFrame py value)
  pure
    { type := (value.field "type").text
      messageId := (value.field "message_id").text
      payload := value.field "payload" }

def parseFrame (data : List UInt8) : Option WireJson :=
  if data = [] ∨ maxPlaintextBytes < data.length then none
  else (PyStr.decodeUtf8 false data).bind WireJson.strictJsonLoads

def malformedJson : RealtimeError :=
  .linkProtocolError { subject := [], problem := "malformed real-time JSON: " }

def RealtimeFrame.fromJsonBytes (py : Interpreter) (data : List UInt8) :
    Except RealtimeError RealtimeFrame := do
  refuseIf (data = [] ∨ maxPlaintextBytes < data.length) (.linkProtocolError
    { subject := [], problem := "real-time frame must be between 1 byte and 16 KiB" })
  let text ← orRefuse (PyStr.decodeUtf8 false data) malformedJson
  let value ← orRefuse (WireJson.strictJsonLoads text) malformedJson
  RealtimeFrame.fromDict py value

def validatePayload (py : Interpreter) (frameType : PyStr) (payload : WireJson) : List Check :=
  match (realtimePayloadValidators py).find? fun entry => PyStr.ofString entry.1 = frameType with
  | some (_, validator) => validator payload (frameType ++ PyStr.ofString " payload")
  | none => []

def validateRealtimeFramePayload (py : Interpreter) (frame : RealtimeFrame) :
    Except RealtimeError Unit :=
  runAll Check.run (validatePayload py frame.type frame.payload)

def receiveFrame (py : Interpreter) (data : List UInt8) : Except RealtimeError RealtimeFrame := do
  let frame ← RealtimeFrame.fromJsonBytes py data
  validateRealtimeFramePayload py frame
  pure frame

def frameChecks (py : Interpreter) (value : WireJson) : List Check :=
  validateFrame py value ++ validatePayload py (value.field "type").text (value.field "payload")

def ReachedChecksSafe (checks : List Check) : Prop :=
  ∀ before check after, checks = before ++ check :: after →
    (∀ other ∈ before, other.Passes) → check.Safe

theorem runAll_refuses_iff (checks : List Check) :
    (∀ e, runAll Check.run checks = .error e → e.isLinkProtocolError = true) ↔
      ReachedChecksSafe checks := by
  constructor
  · intro h before check after hsplit hbefore
    by_contra hunsafe
    obtain ⟨e, herror, hescapes⟩ := check.run_escapes_iff.mpr hunsafe
    have hrun : runAll Check.run checks = .error e := (runAll_eq_error_iff _ _ _).mpr
      ⟨before, check, after, hsplit,
        fun other hother => (other.run_eq_ok_iff).mpr (hbefore other hother), herror⟩
    rw [h e hrun] at hescapes
    exact absurd hescapes (by simp)
  · intro h e herror
    obtain ⟨before, check, after, hsplit, hbefore, hcheck⟩ := (runAll_eq_error_iff _ _ _).mp herror
    have hsafe := h before check after hsplit
      fun other hother => (other.run_eq_ok_iff).mp (hbefore other hother)
    by_contra hescapes
    exact check.run_escapes_iff.mp ⟨e, hcheck, Bool.not_eq_true _ ▸ hescapes⟩ hsafe

theorem receiveFrame_of_parse (py : Interpreter) {data : List UInt8} {value : WireJson}
    (h : parseFrame data = some value) :
    receiveFrame py data = (do
      runAll Check.run (frameChecks py value)
      pure { type := (value.field "type").text
             messageId := (value.field "message_id").text
             payload := value.field "payload" }) := by
  unfold parseFrame at h
  split at h
  · exact absurd h (by simp)
  · rename_i hsize
    obtain ⟨text, htext, hvalue⟩ := Option.bind_eq_some_iff.mp h
    unfold receiveFrame RealtimeFrame.fromJsonBytes RealtimeFrame.fromDict
      validateRealtimeFramePayload frameChecks
    rw [refuseIf_neg hsize, ok_bind, htext, orRefuse_some, ok_bind, hvalue, orRefuse_some, ok_bind,
      runAll_append]
    cases runAll Check.run (validateFrame py value) <;> rfl

theorem receiveFrame_of_unparsed (py : Interpreter) {data : List UInt8}
    (h : parseFrame data = none) :
    ∃ problem, receiveFrame py data = .error (.linkProtocolError problem) := by
  unfold parseFrame at h
  unfold receiveFrame RealtimeFrame.fromJsonBytes
  split at h
  · rename_i hsize
    rw [refuseIf_pos hsize]
    exact ⟨_, rfl⟩
  · rename_i hsize
    rw [refuseIf_neg hsize, ok_bind]
    cases htext : PyStr.decodeUtf8 false data with
    | none => exact ⟨_, rfl⟩
    | some text =>
      rw [htext, Option.bind_some] at h
      rw [orRefuse_some, ok_bind, h]
      exact ⟨_, rfl⟩

/-- A frame is accepted or refused as a protocol error exactly where no check that is made meets a
value it has no answer for. -/
theorem receiveFrame_accepts_or_refuses_iff (py : Interpreter) (data : List UInt8) :
    ((∃ frame, receiveFrame py data = .ok frame) ∨
        ∃ problem, receiveFrame py data = .error (.linkProtocolError problem)) ↔
      ∀ value, parseFrame data = some value → ReachedChecksSafe (frameChecks py value) := by
  cases hparse : parseFrame data with
  | none =>
    exact iff_of_true (.inr (receiveFrame_of_unparsed py hparse)) fun value h => absurd h (by simp)
  | some value =>
    rw [receiveFrame_of_parse py hparse]
    simp only [Option.some.injEq, forall_eq']
    rw [← runAll_refuses_iff]
    cases hrun : runAll Check.run (frameChecks py value) with
    | ok u => exact iff_of_true (.inl ⟨_, rfl⟩) fun e herror => absurd herror (by simp)
    | error e =>
      rw [error_bind]
      cases e with
      | linkProtocolError problem =>
        refine iff_of_true (.inr ⟨problem, rfl⟩) fun e herror => ?_
        rw [← Except.error.inj herror]
        rfl
      | typeError | unicodeEncodeError | recursionError =>
        refine iff_of_false (by simp) fun h => ?_
        exact absurd (h _ rfl) (by simp [RealtimeError.isLinkProtocolError])

/-- Whether something other than a refusal was raised. -/
def escapes {α : Type} : Except RealtimeError α → Bool
  | .error e => !e.isLinkProtocolError
  | .ok _ => false

def samplePython : Interpreter where
  frames := 900
  dumpsDepth := 900
  contentIdFirst := false
  timestampProblem _ := none

def frameBytes (text : String) : List UInt8 := text.toList.map fun c => c.toNat.toUInt8

def listAsChange : List UInt8 := frameBytes
  ("\x7b\"version\":4,\"type\":\"presence_delta\",\"message_id\":\"m1\",\"payload\":" ++
    "\x7b\"channel_id\":\"c\",\"change\":[],\"user_id\":\"u\",\"display_label\":\"U\"\x7d\x7d")

def surrogateAsChannel : List UInt8 := frameBytes
  ("\x7b\"version\":4,\"type\":\"subscribe\",\"message_id\":\"m2\",\"payload\":" ++
    "\x7b\"channel_id\":\"\\ud800\"\x7d\x7d")

theorem list_and_surrogate_escape :
    (¬ ((∃ frame, receiveFrame samplePython listAsChange = .ok frame) ∨
        ∃ problem, receiveFrame samplePython listAsChange = .error (.linkProtocolError problem))) ∧
      ¬ ((∃ frame, receiveFrame samplePython surrogateAsChannel = .ok frame) ∨
        ∃ problem,
          receiveFrame samplePython surrogateAsChannel = .error (.linkProtocolError problem)) := by
  have hnot : ∀ data, escapes (receiveFrame samplePython data) = true →
      ¬ ((∃ frame, receiveFrame samplePython data = .ok frame) ∨
        ∃ problem, receiveFrame samplePython data = .error (.linkProtocolError problem)) := by
    rintro data hescapes (⟨frame, hframe⟩ | ⟨problem, hproblem⟩)
    · rw [hframe] at hescapes
      exact absurd hescapes (by simp [escapes])
    · rw [hproblem] at hescapes
      exact absurd hescapes (by simp [escapes, RealtimeError.isLinkProtocolError])
  exact ⟨hnot _ (by decide +kernel), hnot _ (by decide +kernel)⟩

end Realtime

open List

namespace WireJson

mutual

def hasUtf8 : WireJson → Bool
  | .str value => !value.hasSurrogate
  | .arr items => itemsHaveUtf8 items
  | .obj members => membersHaveUtf8 members
  | _ => true

def itemsHaveUtf8 : List WireJson → Bool
  | [] => true
  | item :: rest => item.hasUtf8 && itemsHaveUtf8 rest

def membersHaveUtf8 : List (PyStr × WireJson) → Bool
  | [] => true
  | (_, item) :: rest => item.hasUtf8 && membersHaveUtf8 rest

end

mutual

/-- How many calls validating the value takes one inside the other. -/
def depth : WireJson → Nat
  | .arr items => 1 + itemsDepth items
  | .obj members => 1 + membersDepth members
  | _ => 1

def itemsDepth : List WireJson → Nat
  | [] => 0
  | item :: rest => max item.depth (itemsDepth rest)

def membersDepth : List (PyStr × WireJson) → Nat
  | [] => 0
  | (_, item) :: rest => max item.depth (membersDepth rest)

end

variable {value : WireJson}

section

variable (h : value.hasUtf8 = true)

include h

theorem hasUtf8_text : value.text.hasSurrogate = false := by
  cases value with
  | str text =>
    have htext : text.hasSurrogate = false := by simpa [hasUtf8] using h
    exact htext
  | _ => rfl

theorem hasUtf8_field (key : String) : (value.field key).hasUtf8 = true := by
  cases value with
  | obj members =>
    have hmembers : ∀ members : List (PyStr × WireJson), membersHaveUtf8 members = true →
        ((members.lookup (PyStr.ofString key)).getD .null).hasUtf8 = true := by
      intro members hall
      induction members with
      | nil => rfl
      | cons member rest ih =>
        obtain ⟨name, item⟩ := member
        rw [membersHaveUtf8, Bool.and_eq_true] at hall
        rw [lookup_cons]
        split
        · exact hall.1
        · exact ih hall.2
    exact hmembers members (by simpa [hasUtf8] using h)
  | _ => rfl

theorem hasUtf8_items : ∀ item ∈ value.items, item.hasUtf8 = true := by
  cases value with
  | arr items =>
    have hitems : ∀ items : List WireJson, itemsHaveUtf8 items = true →
        ∀ item ∈ items, item.hasUtf8 = true := by
      intro items hall
      induction items with
      | nil => exact fun item hmem => absurd hmem not_mem_nil
      | cons item rest ih =>
        rw [itemsHaveUtf8, Bool.and_eq_true] at hall
        exact forall_mem_cons.mpr ⟨hall.1, ih hall.2⟩
    exact hitems items (by simpa [hasUtf8] using h)
  | _ => exact fun item hmem => absurd hmem not_mem_nil

end

end WireJson

namespace Realtime

def AllSafe (checks : List Check) : Prop := ∀ check ∈ checks, check.Safe

theorem AllSafe.nil : AllSafe [] := fun _ hmem => absurd hmem not_mem_nil

theorem AllSafe.reached {checks : List Check} (h : AllSafe checks) : ReachedChecksSafe checks := by
  rintro before check after rfl -
  exact h check (by simp)

@[simp] theorem allSafe_nil : AllSafe [] ↔ True := iff_of_true .nil trivial

@[simp] theorem allSafe_cons (check : Check) (rest : List Check) :
    AllSafe (check :: rest) ↔ check.Safe ∧ AllSafe rest := forall_mem_cons

@[simp] theorem allSafe_append (first second : List Check) :
    AllSafe (first ++ second) ↔ AllSafe first ∧ AllSafe second := forall_mem_append

@[simp] theorem safe_require (passes : Bool) (path : PyStr) (problem : String) :
    (require passes path problem).Safe ↔ True := Iff.rfl

@[simp] theorem safe_require_problem (passes : Bool) (problem : FrameProblem) :
    (Check.require passes problem).Safe ↔ True := Iff.rfl

@[simp] theorem allSafe_whenPresent (payload : WireJson) (name : String) (checks : List Check) :
    AllSafe (whenPresent payload name checks) ↔ (payload.hasKey name = true → AllSafe checks) := by
  unfold whenPresent
  split <;> simp [*]

@[simp] theorem allSafe_ite (c : Prop) [Decidable c] (first second : List Check) :
    AllSafe (if c then first else second) ↔ (c → AllSafe first) ∧ (¬c → AllSafe second) := by
  split <;> simp [*]

theorem AllSafe.flatMap {α : Type} {values : List α} {checks : α → List Check}
    (h : ∀ value ∈ values, AllSafe (checks value)) : AllSafe (values.flatMap checks) := by
  intro check hmem
  obtain ⟨value, hvalue, hcheck⟩ := mem_flatMap.mp hmem
  exact h value hvalue check hcheck

theorem AllSafe.forEach {path : PyStr} {items : List WireJson} {checks : WireJson → PyStr → List Check}
    (h : ∀ item ∈ items, ∀ path, AllSafe (checks item path)) : AllSafe (forEach path items checks) :=
  .flatMap fun entry hentry => h entry.1 (fst_mem_of_mem_zipIdx hentry) _

section Fields

variable {payload : WireJson} (h : payload.hasUtf8 = true) (path : PyStr)
include h

theorem allSafe_idField (name : String) : AllSafe (idField payload path name) := by
  unfold idField validateBoundedId
  simp only [allSafe_cons, safe_require, allSafe_nil, and_true, true_and]
  exact WireJson.hasUtf8_text (WireJson.hasUtf8_field h name)

theorem allSafe_textField (name : String) (most : Nat) :
    AllSafe (textField payload path name most) := by
  unfold textField validateBoundedText
  simp only [allSafe_cons, safe_require, allSafe_nil, and_true, true_and]
  exact WireJson.hasUtf8_text (WireJson.hasUtf8_field h name)

theorem allSafe_presenceEntries (nodeOptional : Bool) :
    AllSafe (presenceEntries nodeOptional payload path) := by
  have hentries := WireJson.hasUtf8_items (WireJson.hasUtf8_field h "entries")
  unfold presenceEntries
  simp only [allSafe_cons, safe_require, true_and]
  apply AllSafe.forEach
  intro entry hentry path
  have hentry := hentries entry hentry
  unfold validatePresenceEntry
  simp only [allSafe_cons, allSafe_append, safe_require, true_and]
  exact ⟨⟨allSafe_idField hentry path _, allSafe_textField hentry path _ _⟩,
    (allSafe_whenPresent _ _ _).mpr fun _ => allSafe_idField hentry path _⟩

theorem allSafe_scrollbackEntry (py : Interpreter) :
    AllSafe (validateScrollbackEntry py payload path) := by
  have hid := allSafe_idField h path
  have htext := allSafe_textField h path
  simp [validateScrollbackEntry, timestampField, validateBotBlockField, hid, htext]

end Fields

/-- No list or object stands where a validator asks a set. -/
def MembersHashable (payload : WireJson) : Prop :=
  ∀ name ∈ ["change", "role", "reason", "origin"], (payload.field name).isHashable = true

theorem allSafe_validators (py : Interpreter) {payload : WireJson} (h : payload.hasUtf8 = true)
    (hmembers : MembersHashable payload) (path : PyStr) :
    ∀ entry ∈ realtimePayloadValidators py, AllSafe (entry.2 payload path) := by
  have hid := allSafe_idField h path
  have htext := allSafe_textField h path
  have hoptional : ∀ names : List String, AllSafe (names.flatMap fun name =>
      whenPresent payload name (idField payload path name)) :=
    fun names => .flatMap fun name _ => (allSafe_whenPresent _ _ _).mpr fun _ => hid name
  have htimestamp : AllSafe (timestampField py payload path) := by simp [timestampField]
  have hchange : (presenceChange payload path).Safe := hmembers "change" (by simp)
  have hmember : ∀ name ∈ ["change", "role", "reason", "origin"], ∀ members problem,
      (Check.member (payload.field name) members problem).Safe :=
    fun name hname _ _ => hmembers name hname
  have hlabels : ∀ value path, AllSafe (validateBotLabel value path) := by
    intro value path
    simp [validateBotLabel]
  have hblock : ∀ value path, AllSafe (validateBotBlockField py value path) := by
    intro value path
    simp [validateBotBlockField]
  have hnotBlank : ∀ value path, (notBlank value path).Safe := fun _ _ => trivial
  have hrequest : AllSafe (validateOptionalRequestId payload path) := by
    simp [validateOptionalRequestId, hid]
  have hpresence : AllSafe (validateBotPresencePayload payload path) := by
    have hall : AllSafe ((payload.field "labels").items.flatMap fun label =>
        validateBotLabel label path) := .flatMap fun label _ => hlabels label path
    simp [validateBotPresencePayload, hid, hall]
  have hanswer := WireJson.hasUtf8_field h "private"
  have hentries : AllSafe (forEach (fieldPath path "entries") (payload.field "entries").items
      (validateScrollbackEntry py)) := by
    apply AllSafe.forEach
    intro entry hentry path
    exact allSafe_scrollbackEntry (WireJson.hasUtf8_items (WireJson.hasUtf8_field h "entries") entry
      hentry) path py
  intro entry hentry
  simp only [realtimePayloadValidators, mem_cons, not_mem_nil, or_false] at hentry
  rcases hentry with rfl | rfl | rfl | rfl | rfl | rfl | rfl | rfl | rfl | rfl | rfl | rfl | rfl |
    rfl | rfl | rfl | rfl | rfl | rfl | rfl | rfl | rfl | rfl | rfl | rfl
  · simp [validateBotRequestPayload, hid, htext, hlabels]
  · simp [validateBotResultPayload, hid, htext, hblock, allSafe_textField hanswer]
  · exact hpresence
  · exact hpresence
  · simp [validateRelayRequestPayload, hid, hrequest]
  · simp [validateRelayWaitingPayload, hid, hrequest]
  · simp [validateRelayReadyPayload, hid, hrequest, hmember]
  · simp [validateRelayRejectPayload, hid, hrequest, hmember]
  · simp [validateDirectMessagePayload, hid, htext, hnotBlank, htimestamp]
  · simp [validateDirectChatInvitePayload, hid, htext, htimestamp]
  · simp [validateDirectChatAnswerPayload, hid]
  · simp [validateDirectChatLinePayload, hid, htext, hnotBlank, htimestamp]
  · simp [validateDirectChatEndPayload, hid]
  · simp [validateChannelIdOnlyPayload, hid]
  · simp [validateChannelIdOnlyPayload, hid]
  · simp [validatePresenceSnapshotPayload, hid, allSafe_presenceEntries h path true]
  · simp [validatePresenceDeltaPayload, hid, htext, hchange]
  · simp [validateNodePresenceSnapshotPayload, allSafe_presenceEntries h path false]
  · simp [validateNodePresenceDeltaPayload, hid, htext, hchange]
  · simp only [validateChannelMessagePayload, allSafe_cons, allSafe_append, hoptional]
    simp [hid, htext, hblock, htimestamp]
  · simp [validateScrollbackSnapshotPayload, hid, hentries]
  · simp [validateEmptyPayload]
  · simp [validateEmptyPayload]
  · simp [validateErrorPayload, hid, htext]
  · simp [validateClosePayload, htext]

mutual

theorem allSafe_validateJsonValue {frames : Nat} (path : PyStr) :
    ∀ value : WireJson, value.depth ≤ frames → AllSafe (validateJsonValue frames path value)
  | .null, h | .bool _, h | .str _, h => by
    simp only [WireJson.depth] at h
    simp only [validateJsonValue, allSafe_cons, allSafe_nil, and_true]
    exact Nat.one_le_iff_ne_zero.mp h
  | .int _, h | .float _, h => by
    simp only [WireJson.depth] at h
    simp only [validateJsonValue, allSafe_cons, allSafe_nil, safe_require, and_true]
    exact Nat.one_le_iff_ne_zero.mp h
  | .arr items, h => by
    simp only [WireJson.depth] at h
    simp only [validateJsonValue, allSafe_cons]
    exact ⟨(by omega : frames ≠ 0), allSafe_validateJsonItems path 0 items (by omega)⟩
  | .obj members, h => by
    simp only [WireJson.depth] at h
    simp only [validateJsonValue, allSafe_cons]
    exact ⟨(by omega : frames ≠ 0), allSafe_validateJsonMembers path members (by omega)⟩

theorem allSafe_validateJsonItems {frames : Nat} (path : PyStr) (index : Nat) :
    ∀ items : List WireJson, WireJson.itemsDepth items ≤ frames →
      AllSafe (validateJsonItems frames path index items)
  | [], _ => .nil
  | item :: rest, h => by
    simp only [WireJson.itemsDepth, Nat.max_le] at h
    simp only [validateJsonItems, allSafe_append]
    exact ⟨allSafe_validateJsonValue _ item h.1, allSafe_validateJsonItems path _ rest h.2⟩

theorem allSafe_validateJsonMembers {frames : Nat} (path : PyStr) :
    ∀ members : List (PyStr × WireJson), WireJson.membersDepth members ≤ frames →
      AllSafe (validateJsonMembers frames path members)
  | [], _ => .nil
  | (key, item) :: rest, h => by
    simp only [WireJson.membersDepth, Nat.max_le] at h
    simp only [validateJsonMembers, allSafe_append]
    exact ⟨allSafe_validateJsonValue _ item h.1, allSafe_validateJsonMembers path rest h.2⟩

end

end Realtime

end NetBBS
