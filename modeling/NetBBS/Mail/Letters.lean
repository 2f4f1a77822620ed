import Mathlib.Data.List.DropRight
import NetBBS.Foundation.Dict
import NetBBS.Foundation.Numbering
import NetBBS.Foundation.Refusal
import NetBBS.Python.CodePoints

/-! # Letters -/

namespace NetBBS.Mail

open Foundation PyStr

def maxMailSubjectBytes : Nat := 200

def maxMailBodyBytes : Nat := 20000

def maxMailPerRecipient : Nat := 500

def maxKeptPerRecipient : Nat := 100

/-- An account, as far as mail asks. -/
structure User where
  id : Nat
  username : PyStr
  disabledAt : Option String := none
  pendingApproval : Bool := false
  isGuest : Bool := false
  isUsableSysop : Bool := false

structure LetterGroup where
  id : String
  groupTo : String
deriving DecidableEq

structure MailRow where
  id : Nat
  letter : Nat
  senderUserId : Option Nat := none
  senderLabel : PyStr
  recipientUserId : Option Nat := none
  recipientRemoteAddress : Option PyStr := none
  subject : PyStr
  body : PyStr
  createdAt : String
  readAt : Option String := none
  senderDeletedAt : Option String := none
  recipientDeletedAt : Option String := none
  linkEventContentId : Option String := none
  linkSourceEventId : Option String := none
  fromSystem : Bool := false
  recipientLabel : Option PyStr := none
  keptAt : Option String := none
  mailGroup : Option LetterGroup := none
  firstReadAt : Option String := none
  firstReadShared : Bool := false
deriving DecidableEq

structure Mailbox where
  rows : List MailRow := []
  /-- `mail_eviction_notices`: how many letters each account lost to make room. -/
  evicted : Dict Nat Nat := .empty
  /-- `mail_blocks` of local senders: who blocks whom. -/
  blocks : List (Nat × Nat) := []
  /-- The accounts whose `mail_read_receipts` is off. -/
  receiptsOff : List Nat := []
  /-- Not a table: how many letters were ever stored. -/
  stored : Nat := 0

inductive MailError where
  | blankSubject
  | notText
  | subjectTooLong (bytes : Nat)
  | bodyTooLong (bytes : Nat)
  | externalLabel
  | guestRecipient (username : PyStr)
  | disabledRecipient (username : PyStr)
  | pendingRecipient (username : PyStr)
  | senderBlocked (username : PyStr)
  | mailboxFull (username : PyStr)
  | noSuchMessage (id : Nat)
  | notAParty (username : PyStr)
  | notTheRecipient (username : PyStr)
  | notTheSender (username : PyStr)
  | keptFull (room : Nat)

def stripped (text : PyStr) : PyStr := List.rdropWhile CodePoint.isSpace (text.dropWhile CodePoint.isSpace)

/-- `validate_mail_fields`: the subject as it is stored. -/
def validateMailFields (subject body : PyStr) : Except MailError PyStr := do
  let subject := stripped subject
  refuseIf (subject = []) .blankSubject
  let subjectBytes ← orRefuse (utf8Length subject) .notText
  let bodyBytes ← orRefuse (utf8Length body) .notText
  refuseIf (maxMailSubjectBytes < subjectBytes) (.subjectTooLong subjectBytes)
  refuseIf (maxMailBodyBytes < bodyBytes) (.bodyTooLong bodyBytes)
  pure subject

def mailRecipientRefusal (recipient : User) : Option MailError :=
  if recipient.isGuest = true then some (.guestRecipient recipient.username)
  else if recipient.disabledAt ≠ none then some (.disabledRecipient recipient.username)
  else if recipient.pendingApproval = true then some (.pendingRecipient recipient.username)
  else none

/-- `mail_sender_refusal` of a local sender. -/
def mailSenderRefusal (box : Mailbox) (recipient sender : User) : Option MailError :=
  if sender.isUsableSysop = true ∨ (recipient.id, sender.id) ∉ box.blocks then none
  else some (.senderBlocked recipient.username)

def refuseWith : Option MailError → Except MailError Unit
  | some e => .error e
  | none => .ok ()

def MailRow.heldBy (row : MailRow) (userId : Nat) : Bool :=
  decide (row.recipientUserId = some userId ∧ row.recipientDeletedAt = none)

def inboxCount (box : Mailbox) (userId : Nat) : Nat :=
  (box.rows.filter fun row => row.heldBy userId && row.keptAt.isNone).length

def keptCount (box : Mailbox) (userId : Nat) : Nat :=
  (box.rows.filter fun row => row.heldBy userId && row.keptAt.isSome).length

def evictable (box : Mailbox) (userId : Nat) : List MailRow :=
  box.rows.filter fun row => row.heldBy userId && row.readAt.isSome && row.keptAt.isNone

/-- `_remove_letters_without_commit`. -/
def removeLetters (box : Mailbox) (ids : List Nat) : Mailbox :=
  { box with rows := box.rows.filter fun row => decide (row.id ∉ ids) }

def Mailbox.update (box : Mailbox) (which : MailRow → Bool) (change : MailRow → MailRow) : Mailbox :=
  { box with rows := box.rows.map fun row => if which row = true then change row else row }

def MailRow.marked (senderDeletedAt recipientDeletedAt : Option String) (row : MailRow) : MailRow :=
  { row with senderDeletedAt, recipientDeletedAt }

def hardDeleteOrMark (box : Mailbox) (mailId : Nat) (senderDeletedAt recipientDeletedAt : Option String) :
    Mailbox :=
  if senderDeletedAt ≠ none ∧ recipientDeletedAt ≠ none then removeLetters box [mailId]
  else
    box.update (fun row => decide (row.id = mailId)) (MailRow.marked senderDeletedAt recipientDeletedAt)

/-- `make_room`: no result where the inbox is full and all of it unread or kept. -/
def makeRoom (box : Mailbox) (recipient : User) (now : String) : Option Mailbox :=
  if inboxCount box recipient.id < maxMailPerRecipient then some box
  else
    let candidates := evictable box recipient.id
    -- A notice from the system goes before any letter a person wrote.
    match (candidates.find? (·.fromSystem)).or candidates.head? with
    | none => none
    | some oldest =>
      let count := (box.evicted.get? recipient.id).getD 0
      some (hardDeleteOrMark { box with evicted := box.evicted.set recipient.id (count + 1) }
        oldest.id oldest.senderDeletedAt (some now))

def Mailbox.insert (box : Mailbox) (row : MailRow) : Mailbox :=
  { box with
    rows := box.rows ++ [{ row with id := maxNumber MailRow.id box.rows + 1, letter := box.stored }]
    stored := box.stored + 1 }

def sendMail (box : Mailbox) (sender recipient : User) (subject body : PyStr)
    (group : Option LetterGroup) (now : String) : Except MailError Mailbox := do
  let subject ← validateMailFields subject body
  refuseWith (mailRecipientRefusal recipient)
  refuseWith (mailSenderRefusal box recipient sender)
  let box ← orRefuse (makeRoom box recipient now) (.mailboxFull recipient.username)
  pure <| box.insert
    { id := 0
      letter := 0
      senderUserId := some sender.id
      senderLabel := sender.username
      recipientUserId := some recipient.id
      subject
      body
      createdAt := now
      mailGroup := group }

def systemSenderLabel : PyStr := ofString "System"

/-- `send_system_mail`: nobody's Sent folder holds it. -/
def sendSystemMail (box : Mailbox) (recipient : User) (subject body : PyStr)
    (group : Option LetterGroup) (now : String) : Except MailError Mailbox := do
  let subject ← validateMailFields subject body
  refuseWith (mailRecipientRefusal recipient)
  let box ← orRefuse (makeRoom box recipient now) (.mailboxFull recipient.username)
  pure <| box.insert
    { id := 0
      letter := 0
      senderLabel := systemSenderLabel
      recipientUserId := some recipient.id
      subject
      body
      createdAt := now
      senderDeletedAt := some now
      fromSystem := true
      mailGroup := group }

/-- `deliver_external_mail_without_commit`. -/
def deliverExternalMail (box : Mailbox) (recipient : User) (senderLabel subject body : PyStr)
    (createdAt now : String) : Except MailError Mailbox := do
  refuseIf (senderLabel.any (fun c => decide (c = CodePoint.ofChar '@')) = true) .externalLabel
  let subject ← validateMailFields subject body
  refuseWith (mailRecipientRefusal recipient)
  let box ← orRefuse (makeRoom box recipient now) (.mailboxFull recipient.username)
  pure <| box.insert
    { id := 0
      letter := 0
      senderLabel
      recipientUserId := some recipient.id
      subject
      body
      createdAt
      senderDeletedAt := some now }

def deliverLinkLetter (box : Mailbox) (recipient : User) (senderAddress subject body : PyStr)
    (createdAt contentId : String) (group : Option LetterGroup) (now : String) :
    Except MailError Mailbox := do
  let box ← orRefuse (makeRoom box recipient now) (.mailboxFull recipient.username)
  pure <| box.insert
    { id := 0
      letter := 0
      senderLabel := senderAddress
      recipientUserId := some recipient.id
      subject
      body
      createdAt
      linkSourceEventId := some contentId
      senderDeletedAt := some now
      mailGroup := group }

def composeLinkLetter (box : Mailbox) (sender : User) (address subject body : PyStr)
    (contentId : String) (group : Option LetterGroup) (now : String) : Except MailError Mailbox := do
  let subject ← validateMailFields subject body
  pure <| box.insert
    { id := 0
      letter := 0
      senderUserId := some sender.id
      senderLabel := sender.username
      recipientRemoteAddress := some address
      subject
      body
      createdAt := now
      linkEventContentId := some contentId
      mailGroup := group }

/-- `get_mail`: the letter under an id, for one of its two parties. -/
def getMail (box : Mailbox) (user : User) (mailId : Nat) : Except MailError MailRow := do
  let row ← orRefuse (box.rows.find? fun row => decide (row.id = mailId)) (.noSuchMessage mailId)
  refuseIf (row.senderUserId ≠ some user.id ∧ row.recipientUserId ≠ some user.id)
    (.notAParty user.username)
  pure row

def MailRow.own (row : MailRow) (sent : Bool) : Option Nat × Option String :=
  if sent = true then (row.senderUserId, row.senderDeletedAt)
  else (row.recipientUserId, row.recipientDeletedAt)

def MailRow.markOwn (sent : Bool) (now : String) (row : MailRow) : MailRow :=
  if sent = true then { row with senderDeletedAt := some now }
  else { row with recipientDeletedAt := some now }

def deleteSide (sent : Bool) (refusal : PyStr → MailError) (box : Mailbox) (user : User)
    (message : MailRow) (now : String) : Except MailError Mailbox := do
  refuseIf ((message.own sent).1 ≠ some user.id) (refusal user.username)
  let current ← getMail box user message.id
  if (current.own sent).2 ≠ none then pure box
  else
    let marked := current.markOwn sent now
    pure (hardDeleteOrMark box message.id marked.senderDeletedAt marked.recipientDeletedAt)

def deleteForRecipient (box : Mailbox) (user : User) (message : MailRow) (now : String) :
    Except MailError Mailbox :=
  deleteSide false .notTheRecipient box user message now

def deleteForSender (box : Mailbox) (user : User) (message : MailRow) (now : String) :
    Except MailError Mailbox :=
  deleteSide true .notTheSender box user message now

/-- `delete_letters`; the chunks of ids come to one list. -/
def deleteLetters (box : Mailbox) (user : User) (mailIds : List Nat) (sent : Bool) (now : String) :
    Mailbox :=
  let ids := (box.rows.filter fun row =>
    decide (row.id ∈ mailIds ∧ row.own sent = (some user.id, none))).map MailRow.id
  let gone := (box.rows.filter fun row =>
    decide (row.id ∈ ids ∧ (row.own (!sent)).2 ≠ none)).map MailRow.id
  (removeLetters box gone).update (fun row => decide (row.id ∈ ids)) (MailRow.markOwn sent now)

def toKeep (box : Mailbox) (user : User) (mailIds : List Nat) : List MailRow :=
  box.rows.filter fun row => row.heldBy user.id && row.keptAt.isNone && decide (row.id ∈ mailIds)

def MailRow.placed (keptAt : Option String) (row : MailRow) : MailRow := { row with keptAt }

/-- `set_kept`: all of them or none. -/
def setKept (box : Mailbox) (user : User) (mailIds : List Nat) (kept : Bool) (now : String) :
    Except MailError Mailbox := do
  let room := maxKeptPerRecipient - keptCount box user.id
  refuseIf (kept = true ∧ room < (toKeep box user mailIds).length) (.keptFull room)
  pure <| box.update
    (fun row => row.heldBy user.id && decide (row.keptAt.isSome ≠ kept) && decide (row.id ∈ mailIds))
    (MailRow.placed (if kept = true then some now else none))

def receiptsShared (box : Mailbox) (message : MailRow) : Bool :=
  match message.senderUserId with
  | none => false
  | some sender =>
    decide ((∀ recipient ∈ message.recipientUserId, recipient ∉ box.receiptsOff) ∧ sender ∉ box.receiptsOff)

def MailRow.opened (shared : Bool) (now : String) (row : MailRow) : MailRow :=
  { row with
    readAt := some now
    firstReadShared := if row.firstReadAt = none then shared else row.firstReadShared
    firstReadAt := row.firstReadAt.or (some now) }

def MailRow.unopened (row : MailRow) : MailRow := { row with readAt := none }

/-- `mark_read`: the row is looked for by its id alone. -/
def markRead (box : Mailbox) (user : User) (message : MailRow) (now : String) :
    Except MailError MailRow × Mailbox :=
  if message.recipientUserId ≠ some user.id ∨ message.readAt ≠ none then (.ok message, box)
  else
    let box := box.update (fun row => decide (row.id = message.id))
      (MailRow.opened (receiptsShared box message) now)
    (getMail box user message.id, box)

def markUnread (box : Mailbox) (user : User) (message : MailRow) : Except MailError MailRow × Mailbox :=
  if message.recipientUserId ≠ some user.id ∨ message.readAt = none then (.ok message, box)
  else
    let box := box.update
      (fun row => decide (row.id = message.id ∧ row.recipientUserId = some user.id))
      MailRow.unopened
    (getMail box user message.id, box)

def MailRow.released (user : User) (now : String) (row : MailRow) : MailRow :=
  { row with
    recipientDeletedAt := row.recipientDeletedAt.or (some now)
    recipientLabel := some user.username }

def MailRow.withRecipient (recipientUserId : Option Nat) (row : MailRow) : MailRow :=
  { row with recipientUserId }

def MailRow.withSender (senderUserId : Option Nat) (row : MailRow) : MailRow := { row with senderUserId }

/-- `release_mail_of_deleted_account_without_commit`, and the references to the account that its row
takes with it. -/
def releaseMail (box : Mailbox) (user : User) (now : String) : Mailbox :=
  let received row := decide (row.recipientUserId = some user.id)
  let sent row := decide (row.senderUserId = some user.id)
  -- Received mail that no one else sees.
  let seenByNobody := box.rows.filter fun row =>
    received row && decide (row.senderUserId = none ∨ row.senderUserId = row.recipientUserId ∨
      row.senderDeletedAt ≠ none)
  let box := removeLetters box (seenByNobody.map MailRow.id)
  let box := box.update received (MailRow.released user now)
  -- Sent local mail whose recipient no longer has it.
  let unheld := box.rows.filter fun row =>
    sent row && row.recipientRemoteAddress.isNone &&
      decide (row.recipientUserId = none ∨ row.recipientDeletedAt ≠ none)
  let box := removeLetters box (unheld.map MailRow.id)
  let box := box.update (fun row => sent row && row.senderDeletedAt.isNone) (MailRow.markOwn true now)
  let box := box.update received (MailRow.withRecipient none)
  box.update sent (MailRow.withSender none)

end NetBBS.Mail
