import NetBBS.Link.Trust.UserRenames
import NetBBS.Mail.Letters
import NetBBS.Python.WireJson

/-! # Delivering a letter from another node -/

namespace NetBBS.Mail

open Foundation PyStr

def maxMailRecipients : Nat := 20

def maxLinkMailClockSkew : Int := 5 * 60 * 1000000

def earliestLinkMailDate : Int := 946684800000000

/-- What no handler of `deliver_link_message` catches. -/
inductive Raised where
  | unicodeEncodeError
  | recursionError

inductive Loaded where
  | value (decoded : WireJson)
  | valueError
  | recursionError

structure GroupMember where
  userId : Option Nat := none
  name : Option PyStr := none
  address : Option PyStr := none

structure Machine where
  openSealed : Option WireJson → Option (List UInt8)
  loads : List UInt8 → Loaded
  parseUtcIso : PyStr → Option Int
  utcIso : Int → String
  isAlnum : PyStr → Bool
  lower : PyStr → PyStr
  /-- `encode_group_to`, a `json.dumps`. -/
  encodeGroupTo : List GroupMember → String

structure LinkMessage where
  contentId : String
  /-- The sender's node, which the protocol has verified. -/
  homeNode : String
  senderUser : WireJson
  recipientUser : WireJson
  ciphertext : Option WireJson
  createdAt : WireJson

inductive Answer where
  | accepted
  | bounced (reason : String)

structure Acknowledgement where
  id : Nat
  messageContentId : String
  target : String
  answer : Answer

structure WorkItem where
  kind : String
  referenceId : Nat
  target : String
deriving DecidableEq

structure Node where
  fingerprint : String
  users : List User := []
  /-- `retired_usernames`, with the account a name is held for. -/
  retired : List (PyStr × Option Nat) := []
  aliases : Trust.AliasDb
  /-- `mail_blocks` of Link addresses. -/
  blockedAddresses : List (Nat × String) := []
  box : Mailbox := {}
  acknowledgements : List Acknowledgement := []
  workItems : List WorkItem := []

def bindText (text : PyStr) : Option String :=
  if hasSurrogate text = true then none else some (String.ofList (text.map fun c => Char.ofNat c.val))

/-- `is_valid_user_part`, with the text. -/
def validUserPart : WireJson → Option String
  | .str text => (bindText text).filter Trust.isValidUserPart
  | _ => none

/-- Letters as `COLLATE NOCASE` compares them. -/
def noCase (text : PyStr) : PyStr :=
  text.map fun c => if 0x41 ≤ c.val ∧ c.val ≤ 0x5A then c + 0x20 else c

/-- `get_user_by_username`, for a text that can be bound. -/
def userByUsername (node : Node) (name : PyStr) : Option User :=
  node.users.find? fun user => decide (noCase user.username = noCase name)

def accountFormerlyNamed (node : Node) (name : PyStr) : Option User :=
  (node.retired.find? fun row => decide (noCase row.1 = noCase name) && row.2.isSome).bind fun row =>
    node.users.find? fun user => decide (some user.id = row.2)

/-- `get_recipient_by_name`: whoever the name reaches, if binding it does not raise. -/
def getRecipientByName (node : Node) (name : PyStr) : Except Raised (Option User) :=
  if (bindText name).isNone = true then .error .unicodeEncodeError
  else .ok ((userByUsername node name).or (accountFormerlyNamed node name))

def mailRecipientBounceReason (recipient : User) : Option String :=
  (mailRecipientRefusal recipient).map fun _ =>
    if recipient.isGuest = true then "no_mailbox" else "recipient_unavailable"

def addressesOfSameUser (node : Node) (user fingerprint : String) : List String :=
  let current := Trust.currentUserName node.aliases fingerprint user
  let names := current :: Trust.formerUserNames node.aliases fingerprint current
  (if user ∈ names then names else user :: names).map fun name => name ++ "@" ++ fingerprint

def blocksLinkSender (node : Node) (recipient : User) (user fingerprint : String) : Bool :=
  (addressesOfSameUser node user fingerprint).any fun address =>
    decide ((recipient.id, address) ∈ node.blockedAddresses)

def member? (members : List (PyStr × WireJson)) (name : String) : Option WireJson :=
  (members.find? fun entry => decide (entry.1 = ofString name)).map Prod.snd

def letterFields : WireJson → Option (PyStr × PyStr)
  | .obj members =>
    match member? members "subject", member? members "body" with
    | some (.str subject), some (.str body) =>
      (validateMailFields subject body).toOption.map fun stored => (stored, body)
    | _, _ => none
  | _ => none

/-- `split_link_address` at the last `@`. -/
def splitLinkAddress (machine : Machine) (address : PyStr) : Option (PyStr × PyStr) :=
  let fingerprint := (address.reverse.takeWhile fun c => decide (c ≠ CodePoint.ofChar '@')).reverse
  if fingerprint.length = address.length then none
  else
    let shape := machine.lower (stripped fingerprint)
    let isShape := decide (shape.length = 32) && shape.all fun c =>
      decide (0x61 ≤ c.val ∧ c.val ≤ 0x7A ∨ 0x32 ≤ c.val ∧ c.val ≤ 0x37)
    if isShape = true then some (address.take (address.length - fingerprint.length - 1), fingerprint)
    else none

def groupMember (machine : Machine) (node : Node) : WireJson → Option GroupMember
  | .str address =>
    (splitLinkAddress machine address).bind fun split =>
      if (validUserPart (.str split.1)).isNone = true then none
      else if split.2 = ofString node.fingerprint then
        match userByUsername node split.1 with
        | some account => some { userId := some account.id, name := some account.username }
        | none => some { name := some split.1 }
      else some { address := some address }
  | _ => none

def receivedGroup (machine : Machine) (node : Node) (homeNode : String) : WireJson → Option LetterGroup
  | .obj members =>
    match member? members "group", member? members "to" with
    | some (.str token), some (.arr addresses) =>
      if (1 ≤ token.length ∧ token.length ≤ 32) ∧ machine.isAlnum token = true then
        let found := (addresses.take maxMailRecipients).filterMap (groupMember machine node)
        if found.length < 2 then none
        else some ⟨(bindText token).getD "" ++ "@" ++ homeNode, machine.encodeGroupTo found⟩
      else none
    | _, _ => none
  | _ => none

def writtenAt (machine : Machine) (now : Int) : WireJson → String
  | .str createdAt =>
    match machine.parseUtcIso createdAt with
    | none => machine.utcIso now
    | some written =>
      if written < earliestLinkMailDate ∨ now + maxLinkMailClockSkew < written then machine.utcIso now
      else machine.utcIso written
  | _ => machine.utcIso now

/-- `_queue_acknowledgement`: the answer and its work item in one transaction. -/
def queueAcknowledgement (node : Node) (messageContentId target : String) (answer : Answer) : Node :=
  let id := maxNumber Acknowledgement.id node.acknowledgements + 1
  let item : WorkItem := ⟨"link_mail_ack", id, target⟩
  { node with
    acknowledgements := node.acknowledgements ++ [⟨id, messageContentId, target, answer⟩]
    workItems := if item ∈ node.workItems then node.workItems else node.workItems ++ [item] }

inductive Verdict where
  | deliver (recipient : User) (senderAddress : String) (subject body : PyStr) (group : Option LetterGroup)
  | bounce (reason : String)

def judge (machine : Machine) (node : Node) (message : LinkMessage) : Except Raised Verdict :=
  match validUserPart message.senderUser, message.recipientUser with
  | some senderUser, .str name => do
    match ← getRecipientByName node name with
    | none => pure (.bounce "unknown_recipient")
    | some recipient =>
      match mailRecipientBounceReason recipient with
      | some reason => pure (.bounce reason)
      | none =>
        if blocksLinkSender node recipient senderUser message.homeNode = true then
          pure (.bounce "blocked_by_recipient")
        else
          match machine.openSealed message.ciphertext with
          | none => pure (.bounce "undecryptable")
          | some plaintext =>
            match machine.loads plaintext with
            | .recursionError => .error .recursionError
            | .valueError => pure (.bounce "malformed")
            | .value decoded =>
              match letterFields decoded with
              | none => pure (.bounce "malformed")
              | some (subject, body) =>
                pure (.deliver recipient (senderUser ++ "@" ++ message.homeNode) subject body
                  (receivedGroup machine node message.homeNode decoded))
  | _, _ => pure (.bounce "malformed")

/-- `deliver_link_message`, with its answer. -/
def deliverLinkMessage (machine : Machine) (node : Node) (message : LinkMessage) (now : Int) :
    Except Raised (Node × Answer) := do
  let bounce (reason : String) : Node × Answer :=
    (queueAcknowledgement node message.contentId message.homeNode (.bounced reason), .bounced reason)
  match ← judge machine node message with
  | .bounce reason => pure (bounce reason)
  | .deliver recipient senderAddress subject body group =>
    let written := writtenAt machine now message.createdAt
    match deliverLinkLetter node.box recipient (ofString senderAddress) subject body written message.contentId
        group (machine.utcIso now) with
    | .error _ => pure (bounce "mailbox_full")
    | .ok box =>
      pure (queueAcknowledgement { node with box } message.contentId message.homeNode .accepted, .accepted)

end NetBBS.Mail
