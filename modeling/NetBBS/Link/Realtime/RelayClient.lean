import NetBBS.Foundation.Dict

/-! # The party's side of a relayed rendezvous -/

namespace NetBBS

open Foundation

namespace RelayClient

inductive RejectReason where
  | notServing | invalidTarget | targetUnreachable | atCapacity | pendingFull | declined | timeout
  | attachFailed | policyRefused

inductive RejectOrigin where
  | relay | party
deriving DecidableEq

inductive Role where
  | initiator | responder

inductive RendezvousError where
  | relayUnreachable | timeout | attachFailed
  | rejected (reason : RejectReason)

structure ReadyPayload (φ ι η : Type) where
  peerFingerprint : φ
  role : Role
  attachToken : ι
  attachAddress : η
  attachPort : Int
  requestId : Option ι

inductive Frame (φ ι η : Type) where
  | relayRequest (messageId : ι) (target requester : φ) (viaRelay : Option φ) (requestId : Option ι)
  | relayWaiting (target : φ) (requestId : Option ι)
  | relayReject (target : φ) (reason : RejectReason) (origin : RejectOrigin) (requestId : Option ι)
  | relayReady (payload : ReadyPayload φ ι η)
  | other

structure Wait (φ ι : Type) where
  relay : φ
  future : Nat
  messageId : ι
deriving DecidableEq

structure Call (φ : Type) where
  target : φ
  future : Nat
  sending : Bool

structure Invitation (φ ι : Type) where
  relay : φ
  requester : φ
  messageId : ι

structure Attach (φ ι η : Type) where
  payload : ReadyPayload φ ι η
  sender : φ
  answered : Option Nat

variable {φ ι η ω : Type}

def Attach.peer (attach : Attach φ ι η) : φ := attach.payload.peerFingerprint

structure Config (φ η ω : Type) where
  own : φ
  timeout : Nat
  lower : η → η
  allowedAttachAddresses : Option (ω → φ → List (η × Int))

structure Surroundings (φ ω : Type) where
  now : Nat
  connected : φ → Bool
  node : ω

structure Client (φ ι η : Type) where
  waiting : Dict φ (Wait φ ι)
  accepted : Dict φ (φ × Nat)
  attaching : Dict φ (Attach φ ι η)
  nextFuture : Nat
  results : Dict Nat (Except RendezvousError φ)
  calls : List (Call φ)
  deciding : List (Invitation φ ι)
  running : List (Attach φ ι η)
  finished : List φ
  sent : List (φ × Frame φ ι η)

namespace Client

def init : Client φ ι η where
  waiting := .empty
  accepted := .empty
  attaching := .empty
  nextFuture := 0
  results := .empty
  calls := []
  deciding := []
  running := []
  finished := []
  sent := []

variable [DecidableEq φ] [DecidableEq ι] [DecidableEq η]

def send (s : Client φ ι η) (relay : φ) (frame : Frame φ ι η) : Client φ ι η :=
  { s with sent := s.sent ++ [(relay, frame)] }

/-- `_settle`: end the wait for a target and resolve its future, unless that is done. -/
def settle (s : Client φ ι η) (target : φ) (result : Except RendezvousError φ) : Client φ ι η :=
  match s.waiting.get? target with
  | none => s
  | some wait =>
    { s with
      waiting := s.waiting.erase target
      results := s.results.setDefault wait.future result }

/-- `request_bridge` up to the send of its request. -/
def requestBridge (c : Config φ η ω) (s : Client φ ι η) (relay target : φ) (viaRelay : Option φ)
    (messageId : ι) : Client φ ι η :=
  match s.waiting.get? target with
  | some wait => { s with calls := s.calls ++ [Call.mk target wait.future false] }
  | none =>
    if target = c.own then s
    else
      { s with
        waiting := s.waiting.set target ⟨relay, s.nextFuture, messageId⟩
        nextFuture := s.nextFuture + 1
        calls := s.calls ++ [Call.mk target s.nextFuture true] }.send relay
        (.relayRequest messageId target c.own viaRelay none)

def answersCurrentWait (s : Client φ ι η) (sender target : φ) (requestId : Option ι) : Bool :=
  match s.waiting.get? target with
  | none => false
  | some wait => wait.relay = sender && (requestId = none || requestId = some wait.messageId)

def ownsFrame (c : Config φ η ω) (s : Client φ ι η) (sender : φ) : Frame φ ι η → Bool
  | .relayRequest _ target _ _ _ => target = c.own
  | .relayWaiting target requestId => s.answersCurrentWait sender target requestId
  | .relayReject target _ origin requestId =>
    origin = .relay && s.answersCurrentWait sender target requestId
  | .relayReady payload =>
    s.answersCurrentWait sender payload.peerFingerprint payload.requestId ||
      match s.accepted.get? payload.peerFingerprint with
      | none => false
      | some accepted => accepted.1 = sender
  | .other => false

def expireAccepted (s : Client φ ι η) (now : Nat) : Client φ ι η :=
  { s with accepted := s.accepted.filter fun entry => decide (now ≤ entry.2.2) }

def declined (requester : φ) (invitationId : ι) : Frame φ ι η :=
  .relayReject requester .declined .party (some invitationId)

/-- `_handle_invitation` up to the policy decision. -/
def handleInvitation (c : Config φ η ω) (around : Surroundings φ ω) (s : Client φ ι η)
    (relay requester : φ) (invitationId : ι) : Client φ ι η :=
  if requester = c.own ∨ around.connected requester = true then
    s.send relay (declined requester invitationId)
  else { s with deciding := s.deciding ++ [Invitation.mk relay requester invitationId] }

def decided (c : Config φ η ω) (around : Surroundings φ ω) (s : Client φ ι η) (i : Nat)
    (allowed : Bool) (messageId : ι) : Client φ ι η :=
  match s.deciding[i]? with
  | none => s
  | some invitation =>
    if allowed = true then
      { s with
        deciding := s.deciding.eraseIdx i
        accepted := s.accepted.set invitation.requester
          (invitation.relay, around.now + c.timeout) }.send invitation.relay
        (.relayRequest messageId invitation.requester c.own none (some invitation.messageId))
    else
      { s with deciding := s.deciding.eraseIdx i }.send invitation.relay
        (declined invitation.requester invitation.messageId)

def relayFor (s : Client φ ι η) (peer : φ) : Option φ :=
  match s.waiting.get? peer with
  | some wait => some wait.relay
  | none => (s.accepted.get? peer).map Prod.fst

def inAddresses (c : Config φ η ω) (addresses : List (η × Int)) (payload : ReadyPayload φ ι η) :
    Bool :=
  addresses.any fun address =>
    c.lower address.1 = c.lower payload.attachAddress && address.2 = payload.attachPort

def attachAddressAllowed (c : Config φ η ω) (around : Surroundings φ ω) (relay : φ)
    (payload : ReadyPayload φ ι η) : Bool :=
  match c.allowedAttachAddresses with
  | none => true
  | some advertised => inAddresses c (advertised around.node relay) payload

def answered (s : Client φ ι η) (sender : φ) (payload : ReadyPayload φ ι η) : Option Nat :=
  if s.answersCurrentWait sender payload.peerFingerprint payload.requestId = true then
    (s.waiting.get? payload.peerFingerprint).map Wait.future
  else none

def start (s : Client φ ι η) (sender : φ) (payload : ReadyPayload φ ι η) : Client φ ι η :=
  let attach : Attach φ ι η := ⟨payload, sender, s.answered sender payload⟩
  { s with
    accepted := s.accepted.erase payload.peerFingerprint
    running := s.running ++ [attach]
    attaching := s.attaching.set payload.peerFingerprint attach }

def refuse (s : Client φ ι η) (peer : φ) : Client φ ι η :=
  { s with accepted := s.accepted.erase peer }.settle peer (.error .attachFailed)

def spawnAttach (c : Config φ η ω) (around : Surroundings φ ω) (s : Client φ ι η) (sender : φ)
    (payload : ReadyPayload φ ι η) : Client φ ι η :=
  if s.attaching.contains payload.peerFingerprint = true then s
  else
    match s.relayFor payload.peerFingerprint with
    | none => s.start sender payload
    | some relay =>
      if attachAddressAllowed c around relay payload = true then s.start sender payload
      else s.refuse payload.peerFingerprint

def handleFrame (c : Config φ η ω) (around : Surroundings φ ω) (s : Client φ ι η) (sender : φ)
    (frame : Frame φ ι η) : Client φ ι η :=
  let s := s.expireAccepted around.now
  match frame with
  | .relayRequest messageId _ requester _ _ => s.handleInvitation c around sender requester messageId
  | .relayWaiting _ _ => s
  | .relayReject target reason _ _ => s.settle target (.error (.rejected reason))
  | .relayReady payload =>
    if s.ownsFrame c sender frame = true then s.spawnAttach c around sender payload else s
  | .other => s

def onFrame (c : Config φ η ω) (around : Surroundings φ ω) (s : Client φ ι η) (sender : φ)
    (frame : Frame φ ι η) : Client φ ι η :=
  if s.ownsFrame c sender frame = true then s.handleFrame c around sender frame else s

end Client

inductive AttachOutcome where
  | failed | session | raised

inductive CallProgress where
  | sent | sendFailed | timedOut | returned

namespace Client

variable [DecidableEq φ] [DecidableEq ι] [DecidableEq η]

def attachEnds (s : Client φ ι η) (i : Nat) (outcome : AttachOutcome) : Client φ ι η :=
  match s.running[i]? with
  | none => s
  | some attach =>
    let s := { s with
      running := s.running.eraseIdx i
      finished := s.finished ++ [attach.peer] }
    match outcome with
    | .failed => s.settle attach.peer (.error .attachFailed)
    | .session => s.settle attach.peer (.ok attach.peer)
    | .raised => s

def attachDone (s : Client φ ι η) (i : Nat) : Client φ ι η :=
  match s.finished[i]? with
  | none => s
  | some peer =>
    { s with
      finished := s.finished.eraseIdx i
      attaching := s.attaching.erase peer }

/-- The rest of `request_bridge`. -/
def callGoesOn (s : Client φ ι η) (i : Nat) (progress : CallProgress) : Client φ ι η :=
  match s.calls[i]? with
  | none => s
  | some call =>
    match progress with
    | .sent => { s with calls := s.calls.set i { call with sending := false } }
    | .sendFailed =>
      if call.sending = true then
        { s with calls := s.calls.eraseIdx i }.settle call.target (.error .relayUnreachable)
      else s
    | .timedOut =>
      if call.sending = true then s
      else { s with calls := s.calls.eraseIdx i }.settle call.target (.error .timeout)
    | .returned =>
      if call.sending = false ∧ s.results.contains call.future = true then
        { s with calls := s.calls.eraseIdx i }
      else s

end Client

/-- What can happen next. -/
inductive Event (φ ι η : Type) where
  | requestBridge (relay target : φ) (viaRelay : Option φ) (messageId : ι)
  | call (i : Nat) (progress : CallProgress)
  | frame (sender : φ) (frame : Frame φ ι η)
  | decided (i : Nat) (allowed : Bool) (messageId : ι)
  | attachEnds (i : Nat) (outcome : AttachOutcome)
  | attachDone (i : Nat)

variable [DecidableEq φ] [DecidableEq ι] [DecidableEq η]

def step (c : Config φ η ω) (s : Client φ ι η) (met : Surroundings φ ω × Event φ ι η) :
    Client φ ι η :=
  match met.2 with
  | .requestBridge relay target viaRelay messageId =>
    s.requestBridge c relay target viaRelay messageId
  | .call i progress => s.callGoesOn i progress
  | .frame sender frame => s.onFrame c met.1 sender frame
  | .decided i allowed messageId => s.decided c met.1 i allowed messageId
  | .attachEnds i outcome => s.attachEnds i outcome
  | .attachDone i => s.attachDone i

end RelayClient

end NetBBS
