import NetBBS.Foundation.ReplayWindow

/-! # Channel lines shown live -/

namespace NetBBS

open Foundation

namespace LiveLines

def maxShownLive : Nat := 1024

/-- What a line is, for showing it once. -/
structure ShownKey (φ σ : Type) where
  authorNode : φ
  userId : σ
  createdAt : σ
  body : σ
deriving DecidableEq

structure Line (φ σ : Type) where
  channelId : σ
  authorNode : φ
  userId : σ
  createdAt : σ
  body : σ
deriving DecidableEq

structure Frame (φ σ : Type) where
  channelId : σ
  userId : σ
  createdAt : σ
  body : σ
  authorNodeFingerprint : Option φ

structure Envelope (φ σ : Type) where
  sender : φ
  receiver : φ
  frame : Frame φ σ
  apart : sender ≠ receiver

variable {φ σ : Type}

def Line.shownKey (line : Line φ σ) : ShownKey φ σ :=
  ⟨line.authorNode, line.userId, line.createdAt, line.body⟩

def Frame.line (frame : Frame φ σ) (peer : φ) : Line φ σ :=
  ⟨frame.channelId, frame.authorNodeFingerprint.getD peer, frame.userId, frame.createdAt, frame.body⟩

def Line.frame (line : Line φ σ) (authorNode : Option φ) : Frame φ σ :=
  ⟨line.channelId, line.userId, line.createdAt, line.body, authorNode⟩

structure World (φ σ : Type) where
  /-- `_decide_channel_subscribe_authorization`: the channel is linked, the peer allowed real-time
  traffic. -/
  authorized : σ → φ → Bool
  /-- `channel_origin_fingerprint`. -/
  origin : σ → Option φ
  /-- `decide_node_action` for events and for real-time traffic. -/
  eventsAllowed : φ → Bool
  realtimeAllowed : φ → Bool
  /-- `decide_user_authorship`. -/
  authorship : φ → σ → Bool
  /-- `restriction_in_force`. -/
  restricted : σ → φ → σ → Bool
  /-- The subscribers of a channel, each with whether its session passed the fresh re-check. -/
  subscribers : σ → Dict φ Bool
  peerCapable : φ → Bool
  /-- The peers with a session in the registry. -/
  connected : φ → Bool
  /-- The channel of a signed event is there and its content visible. -/
  visible : Line φ σ → Bool

def World.liveAuthorAllowed (world : World φ σ) (node : φ) (userId : σ) (relayed : Bool) : Bool :=
  if relayed = true ∧ world.eventsAllowed node = false then false
  else world.authorship node userId

inductive Task (φ σ : Type) where
  | authorizing (peer : φ) (frame : Frame φ σ)
  | readingOrigin (peer : φ) (frame : Frame φ σ)
  | judgingAuthor (peer : φ) (line : Line φ σ) (origin : Option φ)
  | checkingRestriction (peer : φ) (line : Line φ σ) (origin : Option φ)
  | naming (peer : φ) (line : Line φ σ) (origin : Option φ) (number : Nat)
  | relaying (peer : φ) (line : Line φ σ) (number : Nat)
  | checkingVisible (line : Line φ σ) (number : Nat)
  | announcing (line : Line φ σ)

structure Broadcast (φ σ : Type) where
  line : Line φ σ
  number : Nat
  live : Option (φ × Option φ)

structure Relayed (φ σ : Type) where
  peer : φ
  line : Line φ σ
  number : Nat
  receiver : φ

structure Node (φ σ : Type) where
  shownLive : List (ShownKey φ σ)
  /-- Every key ever remembered. -/
  remembered : List (ShownKey φ σ)
  tasks : List (Task φ σ)
  broadcasts : List (Broadcast φ σ)
  relays : List (Relayed φ σ)

namespace Node

def init : Node φ σ := ⟨[], [], [], [], []⟩

def await (node : Node φ σ) (task : Task φ σ) : Node φ σ :=
  { node with tasks := node.tasks ++ [task] }

/-- `_remember_shown`, for a key that is not there. -/
def remember (node : Node φ σ) (key : ShownKey φ σ) : Node φ σ :=
  { node with
    shownLive := rememberKey maxShownLive key node.shownLive
    remembered := node.remembered ++ [key] }

def show' (node : Node φ σ) (broadcast : Broadcast φ σ) : Node φ σ :=
  { node with broadcasts := node.broadcasts ++ [broadcast] }

end Node

variable [DecidableEq φ] [DecidableEq σ]

def World.liveSubscribers (world : World φ σ) (channelId : σ) : List φ :=
  ((world.subscribers channelId).filter fun entry => entry.2).keys

def World.relayReceivers (world : World φ σ) (line : Line φ σ) : List φ :=
  (world.liveSubscribers line.channelId).filter fun peer =>
    peer ≠ line.authorNode && world.peerCapable peer

def World.announceSessions (world : World φ σ) (own : φ) (channelId : σ) : List φ :=
  world.liveSubscribers channelId ++
    match world.origin channelId with
    | none => []
    | some origin =>
      if origin ≠ own ∧ world.connected origin = true ∧ world.realtimeAllowed origin = true then
        [origin]
      else []

namespace Node

def afterOrigin (node : Node φ σ) (own peer : φ) (line : Line φ σ) (origin : Option φ) : Node φ σ :=
  if line.authorNode ≠ peer ∧ origin ≠ some peer then node
  else if line.authorNode = own then node
  else node.await (.judgingAuthor peer line origin)

def showOnce (node : Node φ σ) (line : Line φ σ) (task : Nat → Task φ σ) : Node φ σ :=
  if line.shownKey ∈ node.shownLive then node
  else (node.remember line.shownKey).await (task node.remembered.length)

def goOn (own : φ) (world : World φ σ) (node : Node φ σ) :
    Task φ σ → Node φ σ × List (φ × Frame φ σ)
  | .authorizing peer frame =>
    (if world.authorized frame.channelId peer = true then node.await (.readingOrigin peer frame)
      else node, [])
  | .readingOrigin peer frame =>
    (node.afterOrigin own peer (frame.line peer) (world.origin frame.channelId), [])
  | .judgingAuthor peer line origin =>
    (if world.liveAuthorAllowed line.authorNode line.userId (line.authorNode ≠ peer) = true then
        node.await (.checkingRestriction peer line origin)
      else node, [])
  | .checkingRestriction peer line origin =>
    (if world.restricted line.channelId line.authorNode line.userId = true then node
      else node.showOnce line (.naming peer line origin), [])
  | .naming peer line origin number =>
    let shown := node.show' ⟨line, number, some (peer, origin)⟩
    (if origin = some own then shown.await (.relaying peer line number) else shown, [])
  | .relaying peer line number =>
    ({ node with
      relays := node.relays ++ (world.relayReceivers line).map (Relayed.mk peer line number) },
      (world.relayReceivers line).map fun receiver => (receiver, line.frame (some line.authorNode)))
  | .checkingVisible line number =>
    (if world.visible line = true then node.show' ⟨line, number, none⟩ else node, [])
  | .announcing line =>
    let sessions := world.announceSessions own line.channelId
    (if sessions = [] ∨ line.shownKey ∈ node.shownLive then node else node.remember line.shownKey,
      sessions.map fun receiver => (receiver, line.frame none))

end Node

structure Network (φ σ : Type) where
  nodes : φ → Node φ σ
  inFlight : List (Envelope φ σ)
  /-- The lines callers wrote, each at its author's node. -/
  written : List (Line φ σ)

def Network.init : Network φ σ := ⟨fun _ => .init, [], []⟩

def Network.set (net : Network φ σ) (own : φ) (node : Node φ σ) : Network φ σ :=
  { net with nodes := fun other => if other = own then node else net.nodes other }

/-- The frames of a node, on their way. -/
def post (own : φ) (sent : List (φ × Frame φ σ)) : List (Envelope φ σ) :=
  sent.filterMap fun message =>
    if h : own ≠ message.1 then some ⟨own, message.1, message.2, h⟩ else none

inductive Event (φ σ : Type) where
  | write (line : Line φ σ)
  | deliver (i : Nat)
  | lose (i : Nat)
  | goOn (own : φ) (i : Nat) (world : World φ σ)
  | materialize (own : φ) (line : Line φ σ)

def step (net : Network φ σ) : Event φ σ → Network φ σ
  | .write line =>
    { net.set line.authorNode ((net.nodes line.authorNode).await (.announcing line)) with
      written := net.written ++ [line] }
  | .deliver i =>
    match net.inFlight[i]? with
    | none => net
    | some envelope =>
      { net.set envelope.receiver
          ((net.nodes envelope.receiver).await (.authorizing envelope.sender envelope.frame)) with
        inFlight := net.inFlight.eraseIdx i }
  | .lose i => { net with inFlight := net.inFlight.eraseIdx i }
  | .goOn own i world =>
    match (net.nodes own).tasks[i]? with
    | none => net
    | some task =>
      let result := Node.goOn own world
        { net.nodes own with tasks := (net.nodes own).tasks.eraseIdx i } task
      { net.set own result.1 with inFlight := net.inFlight ++ post own result.2 }
  -- A node takes in only events that verify, so the line was written by its author.
  | .materialize own line =>
    if line ∈ net.written then
      net.set own ((net.nodes own).showOnce line (.checkingVisible line))
    else net

end LiveLines

end NetBBS
