import NetBBS.Foundation.Dict
import NetBBS.Foundation.Runs
import NetBBS.Python.Text

/-! # The chat hub -/

namespace NetBBS.Chat

open Foundation List

structure ParticipantId where
  username : Text
  sessionKey : Nat
deriving DecidableEq

/-- What a queue holds. How a message was sent is kept with it, but no operation looks at it. -/
inductive Item (α : Type) where
  | message (content : α) (priority : Bool)
  | overflow (droppedCount : Nat)
  | closed

variable {α : Type}

def Item.owed : Item α → Option α
  | .message content true => some content
  | _ => none

def Item.isOrdinary : Item α → Bool
  | .message _ false => true
  | _ => false

def Item.isClosed : Item α → Bool
  | .closed => true
  | _ => false

def noticeCount : List (Item α) → Nat
  | [] => 0
  | .overflow droppedCount :: rest => droppedCount + noticeCount rest
  | _ :: rest => noticeCount rest

/-- `asyncio.Queue.full`: a size of 0 is no bound. -/
def isFull (maxsize : Nat) (items : List (Item α)) : Bool := 0 < maxsize && maxsize ≤ items.length

/-- `_deliver`, of the items of a queue. -/
def deliver (maxsize : Nat) (content : α) (priority : Bool) (items : List (Item α)) :
    List (Item α) :=
  if isFull maxsize items = false then items ++ [.message content priority]
  else
    let replacement := if priority = true then .message content priority else .overflow 1
    if isFull maxsize items.tail = false then items.tail ++ [replacement] else items.tail

/-- What a queue owes its reader: priority messages, the ordinary messages dropped in all and since
the last read, and what the notices that were read say. The hub keeps none of it. -/
structure Ledger (α : Type) where
  owed : List α := []
  dropped : Nat := 0
  unread : Nat := 0
  noticed : Nat := 0
  /-- A delivery found the queue full, and no `ChannelClosed` at its front. -/
  crowded : Bool := false

structure Queue (α : Type) where
  items : List (Item α) := []
  ledger : Ledger α := {}

namespace Queue

def deliver (maxsize : Nat) (content : α) (priority : Bool) (queue : Queue α) : Queue α :=
  let items := Chat.deliver maxsize content priority queue.items
  let lost := (queue.items ++ [Item.message content priority]).countP Item.isOrdinary -
    items.countP Item.isOrdinary
  { items
    ledger := { queue.ledger with
      owed := queue.ledger.owed ++ (Item.message content priority).owed.toList
      dropped := queue.ledger.dropped + lost
      unread := queue.ledger.unread + lost
      crowded := queue.ledger.crowded ||
        (isFull maxsize queue.items && !queue.items.head?.any Item.isClosed) } }

/-- Emptied for a `ChannelClosed`, which stands for all that was owed. -/
def close (queue : Queue α) : Queue α :=
  { items := [.closed], ledger := { crowded := queue.ledger.crowded } }

def read (queue : Queue α) : Queue α :=
  match queue.items with
  | [] => queue
  | item :: rest =>
    { items := rest
      ledger := { queue.ledger with
        owed := queue.ledger.owed.drop item.owed.toList.length
        unread := 0
        noticed := queue.ledger.noticed + noticeCount [item] } }

/-- The priority messages wait in the order they were sent, the notices account for every message
dropped, and a notice waits for the last ones. -/
structure Sound (queue : Queue α) : Prop where
  owed : queue.items.filterMap Item.owed = queue.ledger.owed
  counted : queue.ledger.dropped = queue.ledger.noticed + noticeCount queue.items
  noticed : 0 < queue.ledger.unread → ∃ droppedCount, .overflow droppedCount ∈ queue.items

def Bounded (maxsize : Nat) (queue : Queue α) : Prop :=
  0 < maxsize → queue.items.length ≤ maxsize

end Queue

/-- A queue is the number of its object. -/
structure ChatHub (α : Type) where
  queueMaxsize : Nat
  channels : Dict Text (Dict ParticipantId Nat) := .empty
  lastActivity : Dict Text Text := .empty
  queues : List (Queue α) := []

namespace ChatHub

def isDirect (channelName : Text) : Bool := "__dm__:".toList.isPrefixOf channelName

def participants (channelName : Text) (hub : ChatHub α) : Dict ParticipantId Nat :=
  (hub.channels.get? channelName).getD .empty

def onQueue (queue : Nat) (change : Queue α → Queue α) (hub : ChatHub α) : ChatHub α :=
  { hub with queues := hub.queues.modify queue change }

def join (channelName : Text) (participantId : ParticipantId) (hub : ChatHub α) : ChatHub α :=
  { hub with
    channels := hub.channels.set channelName
      ((hub.participants channelName).set participantId hub.queues.length)
    queues := hub.queues ++ [{}] }

def leave (channelName : Text) (participantId : ParticipantId) (hub : ChatHub α) : ChatHub α :=
  match hub.channels.get? channelName with
  | none => hub
  | some participants =>
    let participants := participants.erase participantId
    if participants.entries.isEmpty = true ∧ isDirect channelName = true then
      { hub with
        channels := hub.channels.erase channelName
        lastActivity := hub.lastActivity.erase channelName }
    else { hub with channels := hub.channels.set channelName participants }

def deliver (content : α) (priority : Bool) (hub : ChatHub α) (queue : Nat) : ChatHub α :=
  hub.onQueue queue (Queue.deliver hub.queueMaxsize content priority)

def broadcast (channelName : Text) (message : α) (exclude : List ParticipantId) (priority : Bool)
    (now : Text) (hub : ChatHub α) : ChatHub α :=
  let told := (hub.participants channelName).entries.filter fun entry =>
    !exclude.any fun excluded => decide (excluded = entry.1)
  let sent := (told.map Prod.snd).foldl (deliver message priority) hub
  if isDirect channelName = true then sent
  else { sent with lastActivity := sent.lastActivity.set channelName now }

def sendTo (channelName : Text) (participantId : ParticipantId) (message : α) (priority : Bool)
    (hub : ChatHub α) : Bool × ChatHub α :=
  match (hub.participants channelName).get? participantId with
  | none => (false, hub)
  | some queue => (true, hub.deliver message priority queue)

def closeChannel (channelName : Text) (hub : ChatHub α) : Nat × ChatHub α :=
  let participants := (hub.participants channelName).values
  (participants.length, participants.foldl (fun hub queue => hub.onQueue queue Queue.close) hub)

inductive Step (α : Type) where
  | join (channelName : Text) (participantId : ParticipantId)
  | leave (channelName : Text) (participantId : ParticipantId)
  | broadcast (channelName : Text) (message : α) (exclude : List ParticipantId) (priority : Bool)
      (now : Text)
  | sendTo (channelName : Text) (participantId : ParticipantId) (message : α) (priority : Bool)
  | closeChannel (channelName : Text)
  | read (queue : Nat)

def step (hub : ChatHub α) : Step α → ChatHub α
  | .join channelName participantId => hub.join channelName participantId
  | .leave channelName participantId => hub.leave channelName participantId
  | .broadcast channelName message exclude priority now =>
    hub.broadcast channelName message exclude priority now
  | .sendTo channelName participantId message priority =>
    (hub.sendTo channelName participantId message priority).2
  | .closeChannel channelName => (hub.closeChannel channelName).2
  | .read queue => hub.onQueue queue Queue.read

def run (queueMaxsize : Nat) (steps : List (Step α)) : ChatHub α :=
  steps.foldl step { queueMaxsize }

end ChatHub

@[simp] theorem noticeCount_append (items added : List (Item α)) :
    noticeCount (items ++ added) = noticeCount items + noticeCount added := by
  induction items with
  | nil => simp [noticeCount]
  | cons item items ih => cases item <;> simp [noticeCount, ih, Nat.add_assoc]

namespace Queue

variable {maxsize : Nat} {content : α} {priority : Bool} {queue : Queue α}

/-- A delivery finds room, makes room for its message or a notice, or finds no bound to keep. -/
theorem deliver_cases (maxsize : Nat) (content : α) (priority : Bool) (items : List (Item α)) :
    (isFull maxsize items = false ∧
      Chat.deliver maxsize content priority items = items ++ [.message content priority]) ∨
    ∃ first rest, items = first :: rest ∧ isFull maxsize items = true ∧
      (maxsize < items.length ∨ Chat.deliver maxsize content priority items =
        rest ++ [if priority = true then .message content priority else .overflow 1]) := by
  unfold Chat.deliver
  by_cases hfull : isFull maxsize items = false
  · exact .inl ⟨hfull, if_pos hfull⟩
  · rw [if_neg hfull]
    simp only [isFull, Bool.not_eq_false, Bool.and_eq_true, decide_eq_true_eq] at hfull
    match items with
    | [] => simp at hfull; omega
    | first :: rest =>
      refine .inr ⟨first, rest, rfl, by simpa [isFull] using hfull, ?_⟩
      by_cases hlong : maxsize < (first :: rest).length
      · exact .inl hlong
      · rw [length_cons] at hlong
        have hroom : isFull maxsize rest = false := by
          simp only [isFull, Bool.and_eq_false_iff, decide_eq_false_iff_not]
          omega
        exact .inr (if_pos hroom)

theorem Bounded.deliver (h : queue.Bounded maxsize) :
    (queue.deliver maxsize content priority).Bounded maxsize := by
  intro hpos
  have hlength := h hpos
  rcases deliver_cases maxsize content priority queue.items with
    ⟨hfull, hitems⟩ | ⟨first, rest, hfirst, -, hlong | hitems⟩
  · simp only [Queue.deliver, hitems, length_append, length_singleton]
    simp [isFull, hpos] at hfull
    omega
  · omega
  · rw [hfirst, length_cons] at hlength
    simpa [Queue.deliver, hitems] using hlength

theorem Sound.deliver (hbound : queue.Bounded maxsize) (h : queue.Sound)
    (hroom : (queue.deliver maxsize content priority).ledger.crowded = false) :
    (queue.deliver maxsize content priority).Sound := by
  obtain ⟨howed, hcounted, hnoticed⟩ := h
  rcases deliver_cases maxsize content priority queue.items with
    ⟨hfull, hitems⟩ | ⟨first, rest, hfirst, hfull, hlong | hitems⟩
  · constructor
    · cases priority <;> simp [Queue.deliver, hitems, howed, Item.owed, filterMap_cons]
    · simpa [Queue.deliver, hitems, noticeCount] using hcounted
    · intro hunread
      obtain ⟨droppedCount, hmem⟩ := hnoticed (by simpa [Queue.deliver, hitems] using hunread)
      exact ⟨droppedCount, by simp [Queue.deliver, hitems, hmem]⟩
  · simp only [isFull, Bool.and_eq_true, decide_eq_true_eq] at hfull
    have := hbound hfull.1
    omega
  · have hclosed : first = .closed := by
      simp only [Queue.deliver, hfirst, Bool.or_eq_false_iff] at hroom
      cases first <;> simp_all [Item.isClosed]
    subst hclosed
    rw [hfirst] at howed hcounted hnoticed hitems
    rw [filterMap_cons_none rfl] at howed
    cases priority with
    | true =>
      refine ⟨?_, ?_, fun hunread => ?_⟩
      · simp [Queue.deliver, hfirst, hitems, howed, Item.owed]
      · simpa [Queue.deliver, hfirst, hitems, noticeCount, Item.isOrdinary] using hcounted
      · obtain ⟨droppedCount, hmem⟩ :=
          hnoticed (by simpa [Queue.deliver, hfirst, hitems, Item.isOrdinary] using hunread)
        exact ⟨droppedCount, by simpa [Queue.deliver, hfirst, hitems] using hmem⟩
    | false =>
      refine ⟨?_, ?_, fun _ => ⟨1, by simp [Queue.deliver, hfirst, hitems]⟩⟩
      · simp [Queue.deliver, hfirst, hitems, howed, Item.owed, filterMap_cons]
      · simp [Queue.deliver, hfirst, hitems, noticeCount, Item.isOrdinary] at hcounted ⊢
        omega

theorem Sound.read (h : queue.Sound) : queue.read.Sound := by
  have ⟨howed, hcounted, _⟩ := h
  unfold Queue.read
  split
  · exact h
  · next item rest hitems =>
    rw [hitems] at howed hcounted
    refine ⟨?_, ?_, fun hunread => absurd hunread (Nat.lt_irrefl 0)⟩
    · simp only [← howed, filterMap_cons]
      cases item.owed <;> rfl
    · rw [← singleton_append, noticeCount_append, ← Nat.add_assoc] at hcounted
      exact hcounted

/-- What holds of a queue whatever was done with the hub. -/
def Kept (maxsize : Nat) (queue : Queue α) : Prop :=
  queue.Bounded maxsize ∧ (queue.ledger.crowded = false → queue.Sound)

theorem kept_new : (⟨[], {}⟩ : Queue α).Kept maxsize :=
  ⟨fun _ => Nat.zero_le _, fun _ => ⟨rfl, rfl, fun h => absurd h (Nat.lt_irrefl 0)⟩⟩

theorem Kept.deliver (h : queue.Kept maxsize) :
    (queue.deliver maxsize content priority).Kept maxsize :=
  ⟨h.1.deliver, fun hroom => (h.2 (Bool.or_eq_false_iff.mp hroom).1).deliver h.1 hroom⟩

theorem Kept.close : queue.close.Kept maxsize :=
  ⟨id, fun _ => ⟨rfl, rfl, fun h => absurd h (Nat.lt_irrefl 0)⟩⟩

theorem Kept.read (h : queue.Kept maxsize) : queue.read.Kept maxsize := by
  have hledger : queue.read.ledger.crowded = queue.ledger.crowded ∧
      queue.read.items.length ≤ queue.items.length := by
    unfold Queue.read
    split
    · exact ⟨rfl, le_rfl⟩
    · next hitems => simp [hitems]
  exact ⟨fun hpos => hledger.2.trans (h.1 hpos), fun hroom => (h.2 (hledger.1 ▸ hroom)).read⟩

end Queue

namespace ChatHub

variable {hub : ChatHub α}

/-- Every queue is kept to the size the hub was made with. -/
def Kept (maxsize : Nat) (hub : ChatHub α) : Prop :=
  hub.queueMaxsize = maxsize ∧ ∀ queue ∈ hub.queues, queue.Kept maxsize

variable {maxsize : Nat}

theorem Kept.onQueue {change : Queue α → Queue α} (h : hub.Kept maxsize)
    (hchange : ∀ queue, queue.Kept maxsize → (change queue).Kept maxsize) (number : Nat) :
    (hub.onQueue number change).Kept maxsize := by
  refine ⟨h.1, fun queue hmem => ?_⟩
  obtain ⟨place, hplace⟩ := mem_iff_getElem?.mp hmem
  rw [ChatHub.onQueue, getElem?_modify, Option.map_eq_map, Option.map_eq_some_iff] at hplace
  obtain ⟨before, hbefore, rfl⟩ := hplace
  have hkept := h.2 before (mem_of_getElem? hbefore)
  split_ifs
  · exact hchange before hkept
  · exact hkept

theorem Kept.foldl {change : ChatHub α → Nat → ChatHub α}
    (hchange : ∀ hub, hub.Kept maxsize → ∀ number, (change hub number).Kept maxsize)
    (numbers : List Nat) (h : hub.Kept maxsize) : (numbers.foldl change hub).Kept maxsize := by
  induction numbers generalizing hub with
  | nil => exact h
  | cons number numbers ih => exact ih (hchange hub h number)

theorem Kept.deliver (message : α) (priority : Bool) (hub : ChatHub α) (h : hub.Kept maxsize)
    (number : Nat) : (hub.deliver message priority number).Kept maxsize := by
  obtain rfl := h.1
  exact h.onQueue (fun _ => Queue.Kept.deliver) number

theorem Kept.step (h : hub.Kept maxsize) (action : Step α) : (hub.step action).Kept maxsize := by
  cases action with
  | join channelName participantId =>
    refine ⟨h.1, fun queue hmem => ?_⟩
    rcases mem_append.mp hmem with hmem | hmem
    · exact h.2 queue hmem
    · exact mem_singleton.mp hmem ▸ Queue.kept_new
  | leave channelName participantId =>
    simp only [ChatHub.step, leave]
    split
    · exact h
    · split_ifs <;> exact h
  | broadcast channelName message exclude priority now =>
    have hsent := fun numbers => Kept.foldl (Kept.deliver message priority) numbers h
    simp only [ChatHub.step, broadcast]
    split_ifs <;> exact hsent _
  | sendTo channelName participantId message priority =>
    simp only [ChatHub.step, sendTo]
    split
    · exact h
    · exact Kept.deliver message priority hub h _
  | closeChannel channelName =>
    exact Kept.foldl (fun _ h number => h.onQueue (fun _ _ => Queue.Kept.close) number) _ h
  | read number => exact h.onQueue (fun _ => Queue.Kept.read) number

/-- In every run every queue keeps to its size, and one that no delivery found full of anything
but a `ChannelClosed` in front owes its reader exactly what it holds. -/
theorem queues_kept (maxsize : Nat) (steps : List (Step α)) :
    ∀ queue ∈ (run maxsize steps).queues, queue.Bounded maxsize ∧
      (queue.ledger.crowded = false → queue.Sound) :=
  (foldl_invariant (P := Kept maxsize) steps _ ⟨rfl, by simp⟩ fun v _ h => h.step v.2).2

def alice : ParticipantId := ⟨"alice".toList, 1⟩

/-- Alice is in the lobby and is kicked from it. -/
def kicked : List (Step String) :=
  [.join "lobby".toList alice, .sendTo "lobby".toList alice "kick" true]

theorem queues_kept_kicked : (⟨[.message "kick" true], { owed := ["kick"] }⟩ : Queue String).Sound :=
  (queues_kept 1 kicked _ (mem_singleton.mpr rfl)).2 rfl

/-- One line of chat takes the kick out of a queue for one item. -/
theorem kick_evicted : ¬∀ maxsize, ∀ steps : List (Step String),
    ∀ queue ∈ (run maxsize steps).queues, queue.Sound := by
  intro h
  have howed := (h 1 (kicked ++ [.sendTo "lobby".toList alice "hello" false]) _
    (mem_singleton.mpr rfl)).owed
  exact absurd howed (by decide)

end ChatHub

end NetBBS.Chat
