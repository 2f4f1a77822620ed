import NetBBS.Boards.ContentId

/-! # Signed events -/

namespace NetBBS

open Foundation

def netbbsProtocolVersion : Int := 1

inductive ObjectType where
  | keyTransition
  | boardGenesis | boardPost | boardPostEdit | boardPostModeratorEdit | boardPostTombstone
  | boardOriginTransferOffer | boardOriginTransferAccepted | boardClosure
  | boardPosting | boardPollVote
  | channelGenesis | channelMessage
  | fileAreaGenesis | fileDescriptor
  | linkMessage | linkMessageAccepted | linkMessageBounced
  | communityGenesis | communityMembers | communityClosure
  | linkModerators
  | channelRestriction | channelTopic
  | channelOriginTransferOffer | channelOriginTransferAccepted
deriving DecidableEq

namespace ObjectType

def wireName : ObjectType → String
  | keyTransition => "key_transition"
  | boardGenesis => "board_genesis"
  | boardPost => "board_post"
  | boardPostEdit => "board_post_edit"
  | boardPostModeratorEdit => "board_post_moderator_edit"
  | boardPostTombstone => "board_post_tombstone"
  | boardOriginTransferOffer => "board_origin_transfer_offer"
  | boardOriginTransferAccepted => "board_origin_transfer_accepted"
  | boardClosure => "board_closure"
  | boardPosting => "board_posting"
  | boardPollVote => "board_poll_vote"
  | channelGenesis => "channel_genesis"
  | channelMessage => "channel_message"
  | fileAreaGenesis => "file_area_genesis"
  | fileDescriptor => "file_descriptor"
  | linkMessage => "link_message"
  | linkMessageAccepted => "link_message_accepted"
  | linkMessageBounced => "link_message_bounced"
  | communityGenesis => "community_genesis"
  | communityMembers => "community_members"
  | communityClosure => "community_closure"
  | linkModerators => "link_moderators"
  | channelRestriction => "channel_restriction"
  | channelTopic => "channel_topic"
  | channelOriginTransferOffer => "channel_origin_transfer_offer"
  | channelOriginTransferAccepted => "channel_origin_transfer_accepted"

/-- `KNOWN_EVENT_OBJECT_TYPES`. -/
def known : List ObjectType :=
  [keyTransition, boardGenesis, boardPost, boardPostEdit, boardPostModeratorEdit,
    boardPostTombstone, boardOriginTransferOffer, boardOriginTransferAccepted, boardClosure,
    boardPosting, boardPollVote, channelGenesis, channelMessage, fileAreaGenesis,
    fileDescriptor, linkMessage, linkMessageAccepted, linkMessageBounced, communityGenesis,
    communityMembers, communityClosure, linkModerators, channelRestriction, channelTopic,
    channelOriginTransferOffer, channelOriginTransferAccepted]

def ofWire? (value : Json) : Option ObjectType :=
  match value with
  | .str s => known.find? (fun t => t.wireName = s)
  | _ => none

def refetchable : ObjectType → Bool
  | keyTransition | linkMessage | linkMessageAccepted | linkMessageBounced => false
  | _ => true

theorem ofWire?_eq_some (value : Json) (t : ObjectType) :
    ofWire? value = some t ↔ value = .str t.wireName := by
  constructor
  · intro h
    cases value with
    | str s =>
      have hname := List.find?_some h
      simp only [decide_eq_true_eq] at hname
      rw [hname]
    | _ => simp [ofWire?] at h
  · rintro rfl
    cases t <;> decide

end ObjectType

structure SignedEvent where
  envelope : Json
  signature : List UInt8
deriving Inhabited

namespace SignedEvent

def fromDict (data : Json) : Except PyError SignedEvent := do
  let envelope ← data.getItem "envelope"
  let signature ← b64decode (← data.getItem "signature")
  pure { envelope, signature }

theorem fromDict_envelope {raw : Json} {event : SignedEvent} (h : fromDict raw = .ok event) :
    raw.getItem "envelope" = .ok event.envelope := by
  simp only [fromDict, bind_eq_ok, pure_eq_ok] at h
  obtain ⟨envelope, henv, -, -, signature, -, rfl⟩ := h
  exact henv

def payload (event : SignedEvent) : Except PyError Json := event.envelope.getItem "payload"

/-- `payload.get(key)`. -/
def get (event : SignedEvent) (key : String) : Except PyError Json := do
  (← event.payload).get key

/-- `payload[key]`. -/
def getItem (event : SignedEvent) (key : String) : Except PyError Json := do
  (← event.payload).getItem key

def contentId (env : Env) (event : SignedEvent) : Except PyError String :=
  computeContentId env event.envelope

def pyEq (a b : SignedEvent) : Bool := a.envelope.pyEq b.envelope && a.signature == b.signature

end SignedEvent

def eventsEq : List SignedEvent → List SignedEvent → Bool
  | [], [] => true
  | a :: as, b :: bs => a.pyEq b && eventsEq as bs
  | _, _ => false

structure Filed (env : Env) where
  event : SignedEvent
  contentId : String
  addressed : event.contentId env = .ok contentId

namespace Filed

variable {env : Env}

def ofEvent (env : Env) (event : SignedEvent) : Except PyError (Filed env) :=
  match addressed : event.contentId env with
  | .ok contentId => .ok ⟨event, contentId, addressed⟩
  | .error e => .error e

/-- `from_dict`, then `content_id`: the first two things every branch does with an event. -/
def fromDict (env : Env) (raw : Json) : Except PyError (Filed env) := do
  ofEvent env (← SignedEvent.fromDict raw)

def payload (filed : Filed env) : Except PyError Json := filed.event.payload

def get (filed : Filed env) (key : String) : Except PyError Json := filed.event.get key

def getItem (filed : Filed env) (key : String) : Except PyError Json := filed.event.getItem key

def checkPayload (filed : Filed env) : Except PyError Unit := do
  let payload ← filed.payload
  if payload.isObj then pure () else .error (.attributeError "get")

def field (filed : Filed env) (key : String) : Json :=
  ((filed.event.envelope.member? "payload").bind (·.member? key)).getD .null

def verifies (filed : Filed env) (key : VerifyKey) : Bool :=
  match canonicalJsonBytes env filed.event.envelope with
  | .ok bytes => env.verifySignature key bytes filed.event.signature
  | .error _ => false

theorem checkPayload_eq_ok (filed : Filed env) (u : Unit) :
    filed.checkPayload = .ok u ↔ ∃ payload, filed.payload = .ok payload ∧ payload.isObj = true := by
  simp only [checkPayload, bind_eq_ok]
  refine exists_congr fun payload => and_congr_right fun _ => ?_
  cases payload.isObj <;> simp

variable {filed : Filed env} {key : String} {value : Json}

theorem get_eq_field (h : filed.get key = .ok value) : filed.field key = value := by
  simp only [get, SignedEvent.get, SignedEvent.payload, bind_eq_ok, Json.getItem_eq_ok, Json.get_eq_ok] at h
  obtain ⟨payload, hp, -, hv⟩ := h
  simp [field, hp, hv]

theorem getItem_eq_field (h : filed.getItem key = .ok value) : filed.field key = value := by
  simp only [getItem, SignedEvent.getItem, SignedEvent.payload, bind_eq_ok, Json.getItem_eq_ok] at h
  obtain ⟨payload, hp, hv⟩ := h
  simp [field, hp, hv]

theorem getItem_of_field_eq_str {event : Filed env} {text : String}
    (h : event.field key = .str text) : event.getItem key = .ok (.str text) := by
  unfold field at h
  cases hpayload : event.event.envelope.member? "payload" with
  | none =>
    rw [hpayload] at h
    exact absurd h (by simp)
  | some payload =>
    rw [hpayload, Option.bind_some] at h
    cases hvalue : payload.member? key with
    | none =>
      rw [hvalue] at h
      exact absurd h (by simp)
    | some value =>
      rw [hvalue, Option.getD_some] at h
      unfold getItem SignedEvent.getItem SignedEvent.payload
      rw [(Json.getItem_eq_ok _ _ _).mpr hpayload, ok_bind, (Json.getItem_eq_ok _ _ _).mpr hvalue, h]

@[simp] theorem ofEvent_eq_ok (event : SignedEvent) (filed : Filed env) :
    ofEvent env event = .ok filed ↔ filed.event = event := by
  constructor
  · intro h
    unfold ofEvent at h
    split at h
    · simp only [Except.ok.injEq] at h
      exact h ▸ rfl
    · simp at h
  · rintro rfl
    obtain ⟨event, contentId, addressed⟩ := filed
    unfold ofEvent
    split
    · rename_i contentId' addressed'
      simp only at addressed'
      rw [addressed] at addressed'
      simp only [Except.ok.injEq] at addressed'
      subst addressed'
      rfl
    · rename_i e addressed'
      simp only at addressed'
      rw [addressed] at addressed'
      simp at addressed'

theorem fromDict_eq_ok (raw : Json) (filed : Filed env) :
    fromDict env raw = .ok filed ↔ SignedEvent.fromDict raw = .ok filed.event := by
  simp only [fromDict, bind_eq_ok, ofEvent_eq_ok]
  constructor
  · rintro ⟨event, h, rfl⟩
    exact h
  · intro h
    exact ⟨filed.event, h, rfl⟩

theorem fromDict_envelope {raw : Json} (h : fromDict env raw = .ok filed) :
    raw.getItem "envelope" = .ok filed.event.envelope :=
  SignedEvent.fromDict_envelope ((fromDict_eq_ok raw filed).mp h)

end Filed

def rawField (raw : Json) (key : String) : Json :=
  (((raw.member? "envelope").bind (·.member? "payload")).bind (·.member? key)).getD .null

def rawType (raw : Json) : Option ObjectType :=
  ((raw.member? "envelope").bind (·.member? "object_type")).bind ObjectType.ofWire?

variable {raw : Json}

theorem SignedEvent.get_eq_rawField {value : Json} {event : SignedEvent} {key : String}
    (h : SignedEvent.fromDict raw = .ok event) (hget : event.get key = .ok value) :
    rawField raw key = value := by
  have henv := (Json.getItem_eq_ok _ _ _).mp (SignedEvent.fromDict_envelope h)
  simp only [get, payload, bind_eq_ok, Json.getItem_eq_ok, Json.get_eq_ok] at hget
  obtain ⟨payload, hpayload, -, hvalue⟩ := hget
  simp [rawField, henv, hpayload, hvalue]

theorem Filed.field_eq_rawField {env : Env} {filed : Filed env}
    (h : Filed.fromDict env raw = .ok filed) (key : String) :
    filed.field key = rawField raw key := by
  have henv := (Json.getItem_eq_ok _ _ _).mp (Filed.fromDict_envelope h)
  simp [Filed.field, rawField, henv]

/-- `event_content_id(raw["envelope"])`. -/
def rawContentId (env : Env) (raw : Json) : Except PyError String := do
  computeContentId env (← raw.getItem "envelope")

theorem rawContentId_eq {env : Env} {filed : Filed env}
    (h : Filed.fromDict env raw = .ok filed) : rawContentId env raw = .ok filed.contentId := by
  simp only [rawContentId, bind_eq_ok]
  exact ⟨_, Filed.fromDict_envelope h, filed.addressed⟩

end NetBBS
