import Mathlib.Data.List.Sort
import NetBBS.Foundation.Numbering

/-! # Offline mail of one caller -/

namespace NetBBS.Qwk

open Foundation

inductive Choice where
  | follow
  | add
  | remove
deriving DecidableEq

structure ConferenceRow where
  number : Nat
  boardKey : String
  choice : Choice

structure Board where
  id : Nat
  boardId : String
  followed : Bool

structure QwkConference where
  board : Board
  number : Option Nat
  choice : Choice

def QwkConference.included (conference : QwkConference) : Bool :=
  conference.choice = .add || (conference.choice = .follow && conference.board.followed)

inductive QwkError where
  | noNumberLeft

abbrev Rows := List ConferenceRow

def nextNumber (rows : Rows) : Except QwkError Nat :=
  if 65535 ≤ maxNumber ConferenceRow.number rows then .error .noNumberLeft
  else .ok (maxNumber ConferenceRow.number rows + 1)

/-- `_set_choice_without_commit`. -/
def setChoice (rows : Rows) (boardKey : String) (choice : Choice) : Except QwkError (Nat × Rows) :=
  match rows.find? fun row => decide (row.boardKey = boardKey) with
  | some row =>
    .ok (row.number, rows.map fun other =>
      if other.boardKey = boardKey then { other with choice } else other)
  | none => do
    let number ← nextNumber rows
    .ok (number, rows ++ [⟨number, boardKey, choice⟩])

/-- `list_conferences`, of the boards the caller may read. -/
def listConferences (rows : Rows) (boards : List Board) : List QwkConference :=
  boards.map fun board =>
    match rows.find? fun row => decide (row.boardKey = board.boardId) with
    | some row => ⟨board, some row.number, row.choice⟩
    | none => ⟨board, none, .follow⟩

def numberChosen (rows : Rows) : List QwkConference → Except QwkError (List QwkConference) × Rows
  | [] => (.ok [], rows)
  | conference :: rest =>
    match conference.number with
    | some _ =>
      let numbered := numberChosen rows rest
      (numbered.1.map (conference :: ·), numbered.2)
    | none =>
      match setChoice rows conference.board.boardId conference.choice with
      | .error e => (.error e, rows)
      | .ok (number, rows) =>
        let numbered := numberChosen rows rest
        (numbered.1.map ({ conference with number := some number } :: ·), numbered.2)

def saveChoice (current : List QwkConference) (rows : Rows) (boardId : Nat) (wanted : Bool) :
    Except QwkError Rows :=
  match current.find? fun conference => decide (conference.board.id = boardId) with
  | none => .ok rows
  | some conference =>
    if conference.included = wanted then .ok rows
    else do
      let choice :=
        if wanted = conference.board.followed then Choice.follow
        else if wanted = true then Choice.add else Choice.remove
      let changed ← setChoice rows conference.board.boardId choice
      .ok changed.2

def readerChoice (current : List QwkConference) (rows : Rows) (number : Nat) (wanted : Bool) :
    Except QwkError Rows :=
  match current.reverse.find? fun conference => decide (conference.number = some number) with
  | none => .ok rows
  | some conference =>
    if conference.included = wanted then .ok rows
    else do
      let choice :=
        if wanted = conference.board.followed then Choice.follow
        else if wanted = true then Choice.add else Choice.remove
      let changed ← setChoice rows conference.board.boardId choice
      .ok changed.2

structure RepMessage where
  conference : Nat
  recipient : String
  subject : String
  body : String
  reference : Option Nat

inductive ReplyStatus where
  | posted
  | held
  | sent
  | refused
deriving DecidableEq

structure ReplyOutcome where
  message : RepMessage
  board : Option String
  status : ReplyStatus

/-- `str.casefold` and the SHA-256 of a text. -/
structure TextHashing where
  casefold : String → String
  sha256 : String → String

def digest (lib : TextHashing) (message : RepMessage) : String :=
  let reference :=
    match message.reference with
    | none => ""
    | some 0 => ""
    | some number => toString number
  lib.sha256 ("\x00".intercalate
    [toString message.conference, lib.casefold message.recipient, message.subject, message.body, reference])

structure SeenRow where
  digest : String
  seenAt : Int

/-- `MAX_REP_SEEN_PER_CALLER` and `REP_SEEN_DAYS`. -/
def maxRepSeen : Nat := 2000
def repSeenPeriod : Int := 90 * 86400 * 1000000

def trimSeen (seen : List SeenRow) (now : Int) : List SeenRow :=
  let kept := seen.filter fun row => decide (now - repSeenPeriod ≤ row.seenAt)
  let newest := (kept.insertionSort fun a b => b.seenAt ≤ a.seenAt).take maxRepSeen
  kept.filter fun row => decide (row.digest ∈ newest.map SeenRow.digest)

structure Reply where
  message : RepMessage
  time : Int
  judgePost : Board → ReplyStatus
  judgeLetter : ReplyStatus

structure Upload where
  boards : List Board
  now : Int
  replies : List Reply
  dropped : List Nat
  added : List Nat

def mailConference : Nat := 0

/-- `by_number` of `apply_rep`. -/
def boardByNumber (rows : Rows) (boards : List Board) (number : Nat) : Option Board :=
  ((listConferences rows boards).reverse.find? fun conference =>
    decide (conference.number = some number)).map QwkConference.board

/-- `_post_reply` or `_send_letter`. -/
def answer (rows : Rows) (boards : List Board) (reply : Reply) : ReplyOutcome :=
  if reply.message.conference = mailConference then ⟨reply.message, none, reply.judgeLetter⟩
  else
    match boardByNumber rows boards reply.message.conference with
    | none => ⟨reply.message, none, .refused⟩
    | some board => ⟨reply.message, some board.boardId, reply.judgePost board⟩

def applyReply (lib : TextHashing) (rows : Rows) (boards : List Board) (seen : List SeenRow)
    (reply : Reply) : ReplyOutcome × List SeenRow :=
  if seen.any fun row => decide (row.digest = digest lib reply.message) then
    (⟨reply.message, none, .refused⟩, seen)
  else
    let outcome := answer rows boards reply
    (outcome,
      if outcome.status ≠ .refused then seen ++ [⟨digest lib reply.message, reply.time⟩] else seen)

def applyReplies (lib : TextHashing) (rows : Rows) (boards : List Board) (seen : List SeenRow) :
    List Reply → List ReplyOutcome × List SeenRow
  | [] => ([], seen)
  | reply :: rest =>
    let first := applyReply lib rows boards seen reply
    let others := applyReplies lib rows boards first.2 rest
    (first.1 :: others.1, others.2)

structure CallerMail where
  rows : Rows := []
  committed : Rows := []
  seen : List SeenRow := []
  packets : List (List (Nat × String)) := []
  outcomes : List ReplyOutcome := []

def packetConferences (s : CallerMail) (boards : List Board) :
    Except QwkError (List QwkConference) × CallerMail :=
  let chosen := (listConferences s.rows boards).filter QwkConference.included
  if chosen.any fun conference => conference.number.isNone then
    let numbered := numberChosen s.rows chosen
    match numbered.1 with
    | .error e => (.error e, { s with rows := numbered.2 })
    | .ok conferences => (.ok conferences, { s with rows := numbered.2, committed := numbered.2 })
  else (.ok chosen, s)

def buildCallerPacket (s : CallerMail) (boards : List Board) : CallerMail :=
  match packetConferences s boards with
  | (.error _, s) => s
  | (.ok conferences, s) =>
    { s with
      committed := s.rows
      packets := s.packets ++ [conferences.filterMap fun conference =>
        conference.number.map fun number => (number, conference.board.boardId)] }

/-- `save_conference_choices`; when a board gets no number the transaction is rolled back. -/
def saveConferenceChoices (s : CallerMail) (boards : List Board) (included : List (Nat × Bool)) :
    CallerMail :=
  let current := listConferences s.rows boards
  match included.foldlM (fun rows wish => saveChoice current rows wish.1 wish.2) s.rows with
  | .error _ => { s with rows := s.committed }
  | .ok rows => { s with rows, committed := rows }

def applyReaderChoices (s : CallerMail) (boards : List Board) (dropped added : List Nat) :
    CallerMail :=
  if dropped = [] ∧ added = [] then s
  else
    let current := listConferences s.rows boards
    let wishes := dropped.map (·, false) ++ added.map (·, true)
    match wishes.foldlM (fun rows wish => readerChoice current rows wish.1 wish.2) s.rows with
    | .error _ => s
    | .ok rows => { s with rows, committed := rows }

/-- `apply_rep`. What it remembers of a reply is committed, and with it all that was not yet. -/
def applyRep (lib : TextHashing) (s : CallerMail) (upload : Upload) : CallerMail :=
  let applied := applyReplies lib s.rows upload.boards (trimSeen s.seen upload.now) upload.replies
  let replied :=
    { s with committed := s.rows, seen := applied.2, outcomes := s.outcomes ++ applied.1 }
  applyReaderChoices replied upload.boards upload.dropped upload.added

inductive MailOp where
  | packet (boards : List Board)
  | number (boards : List Board)
  | save (boards : List Board) (included : List (Nat × Bool))
  | upload (upload : Upload)
  | commit
  | rollback

def mailStep (lib : TextHashing) (s : CallerMail) : MailOp → CallerMail
  | .packet boards => buildCallerPacket s boards
  | .number boards => (packetConferences s boards).2
  | .save boards included => saveConferenceChoices s boards included
  | .upload upload => applyRep lib s upload
  | .commit => { s with committed := s.rows }
  | .rollback => { s with rows := s.committed }

def mailRun (lib : TextHashing) (ops : List MailOp) : CallerMail := ops.foldl (mailStep lib) {}

end NetBBS.Qwk
