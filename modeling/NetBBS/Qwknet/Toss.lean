import NetBBS.Boards.Posts
import NetBBS.Mail.LinkDelivery
import NetBBS.Python.Libraries
import NetBBS.Qwknet.Incoming

/-! # Tossing what comes in from a QWK network -/

namespace NetBBS.Qwknet

open Foundation Text

def mailConference : Number := toNumber 0

/-- Per network; the oldest go first. -/
def maxHeldMessages : Nat := 2000

def maxHeldPackets : Nat := 10

def maxRouteHops : Nat := 32

def maxName : Nat := 60

def maxHeaderValue : Nat := 1024

def cutNote : Text := "\n\n[The rest of this message was cut: it was longer than this node keeps.]".toList

structure QwknetNetwork where
  id : Nat
  ourId : Text
  hubId : Text

structure QwknetNode where
  id : Nat
  networkId : Nat
  qwkId : Text

/-- The Unicode tables, the hashes and the reading and writing of dates. -/
structure Machine where
  isPrintable : Char → Bool
  upper : Text → Text
  casefold : Text → Text
  /-- What `\d` matches. -/
  isDecimal : Char → Bool
  /-- `int` of decimal digits. -/
  decimal : Text → Nat
  /-- `datetime.strptime(text, "%Y%m%d%H%M%S")`. -/
  strptime : Text → Option DateTime
  /-- `datetime.fromisoformat` of the spellings that `isoformat` does not write. -/
  otherIsoformat : Text → Option DateTime
  /-- The hexadecimal digest of a text's UTF-8. -/
  sha256 : Text → Text
  /-- `compute_content_id` of a board, a parent, an author, a subject, a body and a date. -/
  contentId : String → Option String → String → String → String → String → String
  /-- `utc_iso` of an instant, in microseconds of year 1. -/
  utcIso : Int → String

structure Clock where
  /-- `datetime.now`, in microseconds of year 1. -/
  now : Int
  /-- `utcoffset` of the node's timezone, in microseconds. -/
  utcOffset : DateTime → Int

/-- `first or second or ""`. -/
def orText (first second : Option Text) : Text :=
  match first with
  | some (c :: rest) => c :: rest
  | _ => second.getD []

def isRouteLetter (c : Char) : Bool := decide ('A' ≤ c ∧ c ≤ 'Z') || decide ('0' ≤ c ∧ c ≤ '9')

/-- `_ROUTE_ID`. -/
def isRouteId : Text → Bool
  | [] => false
  | first :: rest =>
    isRouteLetter first && decide (rest.length ≤ 7) && rest.all fun c => isRouteLetter c || c = '_' || c = '-'

def parseRoute (machine : Machine) (text : Text) : List Text :=
  ((((machine.upper (strip text)).splitOn '/').map strip).takeWhile isRouteId).take maxRouteHops

def cleanName (machine : Machine) (name : Text) : Text :=
  let marked := (name.filter machine.isPrintable).flatMap fun c => if c = '@' then " at ".toList else [c]
  let cut := strip ((join ' ' (split marked)).take maxName)
  if cut = [] then "Unknown".toList else cut

def authorLabel (machine : Machine) (name origin : Text) : Text :=
  cleanName machine name ++ " (".toList ++ origin ++ [')']

def utf8Cut : Nat → Text → Text
  | _, [] => []
  | room, c :: rest => if c.utf8Size ≤ room then c :: utf8Cut (room - c.utf8Size) rest else []

def fit (text : Text) (maxBytes : Nat) : Text :=
  if utf8Length text ≤ maxBytes then text else utf8Cut (maxBytes - utf8Length cutNote) text ++ cutNote

def subjectLine (subject : Text) : Text :=
  let line := join ' ' (split subject)
  if line = [] then "(no subject)".toList else line

def foldLetter (c : Char) : Char :=
  if c = Char.ofNat 0x17F then 's'
  else if c = Char.ofNat 0x130 ∨ c = Char.ofNat 0x131 then 'i'
  else c.toLower

def kludgeNames : List Text := ["via", "msgid", "reply", "tz", "replyto"].map String.toList

/-- `text in texts`. -/
def isAmong (texts : List Text) (text : Text) : Bool := texts.any fun other => decide (other = text)

/-- `_KLUDGE_LINE`: the key and the value. -/
def kludgeLine : Text → Option (Text × Text)
  | '@' :: line =>
    let name := before ':' line
    if ':' ∈ line ∧ isAmong kludgeNames (name.map foldLetter) = true then
      some (name.map Char.toLower, (strip (after ':' line)).take maxHeaderValue)
    else none
  | _ => none

def takeKludges : Nat → List Text → List (Text × Text) × List Text
  | limit + 1, line :: rest =>
    match kludgeLine line with
    | some kludge => (kludge :: (takeKludges limit rest).1, (takeKludges limit rest).2)
    | none => ([], line :: rest)
  | _, lines => ([], lines)

/-- `split_kludges`; of a key given twice the first one counts. -/
def splitKludges (lines : List Text) : List (Text × Text) × List Text :=
  let (values, rest) := takeKludges 8 lines
  if values = [] then (values, rest)
  else (values, rest.dropWhile fun line => decide (strip line = []))

def kludge? (values : List (Text × Text)) (key : String) : Option Text :=
  (values.find? fun kludge => decide (kludge.1 = key.toList)).map Prod.snd

def Incoming.header? (message : Incoming) (key : String) : Option Text := message.headers.get? key.toList

def Incoming.kludges (message : Incoming) : List (Text × Text) × List Text :=
  splitKludges (message.body.splitOn '\n')

def Incoming.msgid (message : Incoming) : Text :=
  (strip (orText (message.header? "message-id") (kludge? message.kludges.1 "msgid"))).take 200

def Incoming.replyTo (message : Incoming) : Text :=
  (strip (orText (message.header? "in-reply-to") (kludge? message.kludges.1 "reply"))).take 200

/-- The path back to where it was written, nearest first. -/
def Incoming.route (machine : Machine) (source : Text) (message : Incoming) : List Text :=
  source :: parseRoute machine (orText (message.header? "sendernetaddr") (kludge? message.kludges.1 "via"))

def origin (route : List Text) : Text := route.getLast?.getD []

def digest (machine : Machine) (message : Incoming) : Text :=
  let joined := join (Char.ofNat 0)
    [(toString message.conference.val).toList, machine.casefold message.sender, message.subject, message.body,
      (message.when.map isoformat).getD []]
  "hash:".toList ++ (machine.sha256 joined).take 40

def Incoming.key (machine : Machine) (message : Incoming) : Text :=
  if message.msgid = [] then digest machine message else message.msgid

def Incoming.text (message : Incoming) : Text :=
  (join '\n' message.kludges.2).rdropWhile fun c => c = '\n'

def ordinal (moment : DateTime) : Nat :=
  let years := moment.year - 1
  365 * years + years / 4 - years / 100 + years / 400 +
    (List.range (moment.month - 1)).foldl (fun days month => days + daysInMonth moment.year (month + 1)) 0 +
      moment.day

def micros (moment : DateTime) : Int :=
  (((ordinal moment - 1 : Nat) * 86400 + moment.hour * 3600 + moment.minute * 60 + moment.second : Nat) : Int) *
    1000000 + moment.microsecond

def whenWritten (machine : Machine) (text : Text) : Option (Text × Option (Bool × Text × Text)) :=
  let digits := text.take 14
  if digits.length = 14 ∧ digits.all machine.isDecimal = true then
    let offset :=
      match (text.drop 14).dropWhile Text.isSpace with
      | sign :: h₁ :: h₂ :: m₁ :: m₂ :: _ =>
        if (sign = '+' ∨ sign = '-') ∧ [h₁, h₂, m₁, m₂].all machine.isDecimal = true then
          some (decide (sign = '+'), [h₁, h₂], [m₁, m₂])
        else none
      | _ => none
    some (digits, offset)
  else none

def headerMoment (machine : Machine) (clock : Clock) (text : Text) : Option WallTime := do
  let (digits, offset) ← whenWritten machine text
  let naive ← machine.strptime digits
  match offset with
  | none => some ⟨micros naive, some (clock.utcOffset naive)⟩
  | some (east, hours, minutes) =>
    let seconds := (machine.decimal hours * 60 + machine.decimal minutes) * 60
    -- A timezone is less than a day from UTC.
    if 86400 ≤ seconds then none
    else some ⟨micros naive, some (if east = true then seconds * 1000000 else -(seconds * 1000000))⟩

def Incoming.moment (machine : Machine) (clock : Clock) (message : Incoming) : Option WallTime :=
  (headerMoment machine clock ((message.header? "whenwritten").getD [])).or
    (message.when.map fun naive => ⟨micros naive, some (clock.utcOffset naive)⟩)

def instant (moment : WallTime) : Int := moment.micros - moment.utcOffset.getD 0

/-- `_written_at`; none where `astimezone` raises `OverflowError`. -/
def writtenAt (machine : Machine) (clock : Clock) (message : Incoming) : Option String :=
  match message.moment machine clock with
  | none => some (machine.utcIso clock.now)
  | some moment =>
    if clock.now < instant moment then some (machine.utcIso clock.now) else moment.toUtc.map machine.utcIso

/-- Why a message or a packet is held. -/
inductive HoldReason where
  | noBoard (conference : Number)
  | boardRefused (boardId : Nat) (refusal : Boards.PostError)
  | noSysop
  | routedNetmail
  | noAccount (name : Text)
  | notDelivered (username : PyStr) (refusal : Mail.MailError)
  | madeBy (bbsId : Text)

/-- A held row's BLOB. -/
inductive Content where
  | message (json : PyStr)
  | packet (data : List UInt8)

structure Held where
  id : Nat
  networkId : Nat
  source : Text
  conference : Option Number
  reason : HoldReason
  content : Content

structure QwknetPost where
  postId : String
  networkId : Nat
  msgid : Text
  route : Text
  hubNumber : Option Number
  sourceNodeId : Option Nat
  fromUplink : Bool

structure Outbound where
  networkId : Nat
  postId : String
  number : Number
  sourceNodeId : Option Nat
  fromUplink : Bool

/-- A row of `qwknet_conferences`. -/
structure ConferenceMapping where
  networkId : Nat
  number : Number
  boardKey : String

structure Db where
  boards : Boards.Db String := {}
  /-- The roots that `link_content_visible` hides. -/
  hiddenRoots : List String := []
  conferences : List ConferenceMapping := []
  nodes : List QwknetNode := []
  posts : List QwknetPost := []
  seen : List (Nat × Text) := []
  held : List Held := []
  outbound : List Outbound := []
  users : List Mail.User := []
  /-- `retired_usernames`, with the account a name is held for. -/
  retired : List (PyStr × Option Nat) := []
  box : Mail.Mailbox := {}

def seen (db : Db) (networkId : Nat) (key : Text) : Bool :=
  decide ((networkId, key) ∈ db.seen) ||
    db.posts.any fun row => decide (row.networkId = networkId ∧ row.msgid = key)

/-- `_remember_without_commit`. -/
def remember (db : Db) (networkId : Nat) (key : Text) : Db :=
  { db with seen := insertOrIgnore id db.seen (networkId, key) }

/-- `network_conferences(…).get(conference)`. -/
def networkConference (db : Db) (networkId : Nat) (conference : Number) : Option Boards.Board :=
  (db.conferences.find? fun row => decide (row.networkId = networkId ∧ row.number = conference)).bind fun row =>
    db.boards.boards.find? fun board => decide (board.boardId = row.boardKey)

def firstSysop (db : Db) : Option Mail.User :=
  ((db.users.filter (·.isUsableSysop)).insertionSort fun a b => a.id ≤ b.id).head?

/-- `get_recipient_by_name`. -/
def recipientByName (db : Db) (name : PyStr) : Option Mail.User :=
  (db.users.find? fun user => decide (Mail.noCase user.username = Mail.noCase name)).or <|
    (db.retired.find? fun row => decide (Mail.noCase row.1 = Mail.noCase name) && row.2.isSome).bind fun row =>
      db.users.find? fun user => decide (some user.id = row.2)

/-- `visible_post`: the root, with what its current version shows. -/
def visiblePost (db : Db) (postId : String) : Option (Boards.Post String) := do
  let row ← db.boards.posts.find? fun row => decide (row.postId = postId)
  let root ← db.boards.posts.find? fun root =>
    decide (root.postId = row.rootPostId ∧ root.boardId = row.boardId) &&
      (db.boards.current root.rootPostId root.boardId).isSome
  if root.postId ∈ db.hiddenRoots then none else some (Boards.resolveCurrentVersion db.boards root).1

def onBoard (db : Db) (boardId : Nat) (postId : String) : Bool :=
  db.boards.posts.any fun row => decide (row.postId = postId ∧ row.boardId = boardId)

/-- `_parent`. -/
def parentPost (db : Db) (networkId boardId : Nat) (replyTo : Text) (reference : Option Number) (fromHub : Bool) :
    Option String :=
  let byMsgid :=
    if replyTo = [] then none
    else (db.posts.find? fun row =>
      decide (row.networkId = networkId ∧ row.msgid = replyTo) && onBoard db boardId row.postId).map (·.postId)
  let byNumber :=
    match reference with
    | none => none
    | some number =>
      if number.val = 0 then none
      else if fromHub = true then
        (newest Boards.Post.id (db.boards.posts.filter fun post => decide (post.boardId = boardId) &&
          db.posts.any fun row =>
            decide (row.postId = post.postId ∧ row.networkId = networkId ∧ row.hubNumber = some number))).map
              (·.postId)
      else
        (db.boards.posts.find? fun post =>
          decide (post.id = number.val ∧ post.boardId = boardId ∧ post.postId = post.rootPostId)).map (·.postId)
  (byMsgid.or byNumber).bind fun postId =>
    (visiblePost db postId).bind fun parent =>
      if parent.tombstonedAt.isNone = true then some parent.rootPostId else none

/-- `create_labelled_post`, with the row it wrote. -/
def createLabelledPost (db : Boards.Db String) (board : Boards.Board) (authorLabel subject body : String)
    (parentPostId : Option String) (postId createdAt : String) :
    Except Boards.PostError (Boards.Db String × Boards.Post String) := do
  Boards.checkContentLength subject body
  refuseIf (∃ parent ∈ parentPostId,
    db.posts.any (fun row => decide (row.postId = parent ∧ row.boardId = board.id)) = false) .parentNotFound
  refuseIf (∃ row ∈ db.board? board.id, row.linkClosed = true) .boardClosed
  Boards.refuseIfBoardHidden db board.id
  let row : Boards.Post String :=
    { postId
      boardId := board.id
      parentPostId
      authorLabel
      subject
      body
      createdAt
      status := if board.moderated = true then .pending else .approved
      rootPostId := postId }
  let inserted ← orRefuse (db.insert row) .identicalContent
  pure (inserted, row)

def hold (held : List Held) (kind : Held → Bool) (limit : Nat) (row : Held) : List Held :=
  keepNewest Held.id kind limit (held ++ [{ row with id := maxNumber Held.id held + 1 }])

def isHeldMessage (networkId : Nat) (row : Held) : Bool :=
  decide (row.networkId = networkId) && row.conference.isSome

def holdMessage (db : Db) (networkId : Nat) (source : Text) (message : Incoming) (reason : HoldReason) : Db :=
  { db with
    held := hold db.held (isHeldMessage networkId) maxHeldMessages
      ⟨0, networkId, source, some message.conference, reason, .message message.asJson⟩ }

def holdPacket (db : Db) (networkId : Nat) (source : Text) (data : List UInt8) (reason : HoldReason) : Db :=
  { db with
    held := hold db.held (fun row => decide (row.networkId = networkId) && row.conference.isNone) maxHeldPackets
      ⟨0, networkId, source, none, reason, .packet data⟩ }

inductive Stop where
  /-- `_Hold`. -/
  | hold (reason : HoldReason)
  /-- An exception that `toss_message` does not catch. -/
  | overflowError

/-- The counters of a `TossResult`. -/
inductive Outcome where
  | posts
  | mail
  | duplicates
  | loops
  | held
  | skipped
deriving DecidableEq

structure TossResult where
  posts : Nat := 0
  mail : Nat := 0
  duplicates : Nat := 0
  loops : Nat := 0
  held : Nat := 0
  skipped : Nat := 0
  heldPacket : Option HoldReason := none
  /-- How many messages could not be read back. -/
  problems : Nat := 0

def TossResult.count (result : TossResult) : Outcome → TossResult
  | .posts => { result with posts := result.posts + 1 }
  | .mail => { result with mail := result.mail + 1 }
  | .duplicates => { result with duplicates := result.duplicates + 1 }
  | .loops => { result with loops := result.loops + 1 }
  | .held => { result with held := result.held + 1 }
  | .skipped => { result with skipped := result.skipped + 1 }

variable (machine : Machine)

/-- Whom a hub's letter is for. -/
def mailRecipient (db : Db) (network : QwknetNetwork) (toName : Text) : Except HoldReason Mail.User :=
  let name := strip toName
  let upper := machine.upper name
  if upper = "SYSOP".toList ∨ upper = network.ourId then orRefuse (firstSysop db) .noSysop
  else if upper = "NETMAIL".toList then .error .routedNetmail
  else orRefuse (recipientByName db (pyStr name)) (.noAccount name)

def deliverMail (clock : Clock) (db : Db) (network : QwknetNetwork) (message : Incoming) (route : List Text) :
    Except Stop Db := do
  let recipient ← reword .hold (mailRecipient machine db network message.toName)
  let createdAt ← orRefuse (writtenAt machine clock message) .overflowError
  let text := if message.text = [] then "(no text)".toList else message.text
  let box ← reword (fun refusal => .hold (.notDelivered recipient.username refusal)) <|
    Mail.deliverExternalMail db.box recipient (pyStr (authorLabel machine message.sender (origin route)))
      (pyStr ((subjectLine message.subject).take 200)) (pyStr (fit text Mail.maxMailBodyBytes)) createdAt
      (machine.utcIso clock.now)
  pure (remember { db with box } network.id (message.key machine))

def writePost (clock : Clock) (db : Db) (network : QwknetNetwork) (node : Option QwknetNode) (message : Incoming)
    (route : List Text) (board : Boards.Board) : Except Stop Db := do
  let parent := parentPost db network.id board.id message.replyTo message.reference node.isNone
  let label := String.ofList (authorLabel machine message.sender (origin route))
  let subject := String.ofList (subjectLine message.subject)
  let text := if message.text = [] then "(no text)".toList else message.text
  let body := String.ofList (fit text Boards.maxBodyBytes)
  let createdAt ← orRefuse (writtenAt machine clock message) .overflowError
  let (boards, post) ← reword (fun refusal => .hold (.boardRefused board.id refusal)) <|
    createLabelledPost db.boards board label subject body parent
      (machine.contentId board.boardId parent label subject body createdAt) createdAt
  let origins : QwknetPost :=
    { postId := post.postId
      networkId := network.id
      msgid := message.key machine
      route := join '/' route
      hubNumber := if node.isNone = true then message.number else none
      sourceNodeId := node.map (·.id)
      fromUplink := node.isNone }
  let queued : Outbound := ⟨network.id, post.postId, message.conference, node.map (·.id), node.isNone⟩
  pure
    { remember db network.id (message.key machine) with
      boards
      posts := (db.posts.filter fun row => decide (row.postId ≠ post.postId)) ++ [origins]
      outbound :=
        if post.status = .approved then
          insertOrIgnore (fun row => (row.networkId, row.postId)) db.outbound queued
        else db.outbound }

/-- Where a message came from. -/
def sourceOf (network : QwknetNetwork) (node : Option QwknetNode) : Text :=
  (node.map (·.qwkId)).getD network.hubId

def toss (clock : Clock) (network : QwknetNetwork) (node : Option QwknetNode) (message : Incoming) (db : Db) :
    Except Stop (Db × Outcome) :=
  let route := message.route machine (sourceOf network node)
  if message.status = 'V' then .ok (db, .skipped)
  else if isAmong route network.ourId = true then .ok (db, .loops)
  else if seen db network.id (message.key machine) = true then .ok (db, .duplicates)
  else if message.conference = mailConference then
    if node.isSome = true then .ok (db, .skipped)
    else do
      let after ← deliverMail machine clock db network message route
      pure (after, .mail)
  else do
    let board ← orRefuse (networkConference db network.id message.conference) (.hold (.noBoard message.conference))
    let after ← writePost machine clock db network node message route board
    pure (after, .posts)

/-- `toss_message`; where it raises, the database it leaves. -/
def tossMessage (clock : Clock) (network : QwknetNetwork) (node : Option QwknetNode) (message : Incoming)
    (state : Db × TossResult) : Except Db (Db × TossResult) :=
  match toss machine clock network node message state.1 with
  | .ok (db, outcome) => .ok (db, state.2.count outcome)
  | .error (.hold reason) =>
    .ok (holdMessage state.1 network.id (sourceOf network node) message reason, state.2.count .held)
  | .error .overflowError => .error state.1

/-- The messages of a packet in their order, each at its own time. -/
def tossAll (network : QwknetNetwork) (node : Option QwknetNode) :
    (Nat → Clock) → List Incoming → Db × TossResult → Except Db (Db × TossResult)
  | _, [], state => .ok state
  | clock, message :: rest, state => do
    let after ← tossMessage machine (clock 0) network node message state
    tossAll network node (fun i => clock (i + 1)) rest after

structure ReadPacket where
  bbsId : Text
  messages : List Incoming

/-- `toss_hub_packet`, once the packet was read. -/
def tossHubPacket (clock : Nat → Clock) (network : QwknetNetwork) (data : List UInt8) (packet : ReadPacket)
    (db : Db) : Except Db (Db × TossResult) :=
  if machine.upper packet.bbsId ≠ network.hubId then
    let reason := HoldReason.madeBy packet.bbsId
    .ok (holdPacket db network.id network.hubId data reason, { heldPacket := some reason })
  else tossAll machine network none clock packet.messages (db, {})

structure RepMessage where
  conference : Number
  toName : Text
  claimedFrom : Text
  subject : Text
  body : Text
  reference : Option Number
  isPrivate : Bool
  when : Option DateTime
  headers : Dict Text Text
  status : Char

def RepMessage.incoming (node : QwknetNode) (message : RepMessage) : Incoming where
  conference := message.conference
  number := none
  when := message.when
  toName := orText (message.headers.get? "to".toList) (some message.toName)
  sender := orText (message.headers.get? "sender".toList)
    (some (orText (some message.claimedFrom) (some node.qwkId)))
  subject := orText (message.headers.get? "subject".toList) (some message.subject)
  body := message.body
  reference := message.reference
  isPrivate := message.isPrivate
  headers := message.headers
  status := message.status

/-- `toss_node_rep`, once the reply packet was parsed, with as many problems as it had. -/
def tossNodeRep (clock : Nat → Clock) (network : QwknetNetwork) (node : QwknetNode) (problems : Nat)
    (messages : List RepMessage) (db : Db) : Except Db (Db × TossResult) :=
  tossAll machine network (some node) clock (messages.map (·.incoming node)) (db, { problems })

def nodeNamed (db : Db) (network : QwknetNetwork) (source : Text) : Option QwknetNode :=
  if source ≠ network.hubId then
    db.nodes.find? fun node => decide (node.networkId = network.id ∧ node.qwkId = source)
  else none

def readBack : Content → Option Incoming
  | .message json => Incoming.fromJson machine.otherIsoformat json
  | .packet _ => none

def heldOf (db : Db) (network : QwknetNetwork) (conference : Number) : List Held :=
  (db.held.filter fun row => decide (row.networkId = network.id ∧ row.conference = some conference)).insertionSort
    fun a b => a.id ≤ b.id

def Db.deleteHeld (db : Db) (id : Nat) : Db := { db with held := db.held.filter fun row => decide (row.id ≠ id) }

def retossRows (network : QwknetNetwork) :
    (Nat → Clock) → List Held → Db × TossResult → Except Db (Db × TossResult)
  | _, [], state => .ok state
  | clock, row :: rest, (db, result) => do
    let deleted := db.deleteHeld row.id
    let after ←
      match readBack machine row.content with
      | none => .ok (deleted, { result with problems := result.problems + 1 })
      | some message =>
        tossMessage machine (clock 0) network (nodeNamed deleted network row.source) message (deleted, result)
    retossRows network (fun i => clock (i + 1)) rest after

def retossConference (clock : Nat → Clock) (network : QwknetNetwork) (conference : Number) (db : Db) :
    Except Db (Db × TossResult) :=
  retossRows machine network clock (heldOf db network conference) (db, {})

end NetBBS.Qwknet
