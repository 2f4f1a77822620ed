import NetBBS.Qwk.Records

/-! # The readers of QWK packets -/

namespace NetBBS.Qwk

open Foundation Dict Text

/-- What the library for archives raises. -/
inductive ZipError where
  | badZipFile
  | runtimeError
  | notImplemented
  | eofError
  | osError
  | zlibError

/-- A file in an archive. Its size is what the archive says it is. -/
structure Member where
  filename : Text
  isDir : Bool := false
  fileSize : Nat
  read : Nat → Except ZipError (List UInt8)
  read_le : ∀ n bytes, read n = .ok bytes → bytes.length ≤ n

abbrev Archive := List Member

/-- `zipfile.ZipFile(io.BytesIO(data))`. -/
abbrev ZipLibrary := List UInt8 → Except ZipError Archive

inductive WalkProblem where
  | onlyFirst (limit : Nat)
  | damagedHeader (position : Nat)
  | pastEnd (position : Nat)

/-- `QwkFormatError`, by what it says. -/
inductive QwkRefusal where
  | archiveTooLarge (limit : Nat)
  | notAnArchive
  | tooManyFiles (limit : Nat)
  | memberTooLarge (name : Text) (limit : Nat)
  | noFirstBlock
  | notOneBlock
  | membersMissing
  | controlTooShort
  | countNotANumber
  | listCutShort
  | noConferenceNumber
  | walk (problems : List WalkProblem)

/-- `RepError`, by what it says. -/
inductive RepRefusal where
  | tooLarge (kib : Nat)
  | forOtherBbs (filename bbsId : Text)
  | noMessages (bbsId : Text)
  | format (refusal : QwkRefusal)
  | notUnpacked (error : ZipError)
  | addressedTo (claimed bbsId : Text)

inductive Raised where
  | rep (refusal : RepRefusal)
  | format (refusal : QwkRefusal)
  | zip (error : ZipError)
  | valueError

def Raised.IsRep (raised : Raised) : Prop := ∃ refusal, raised = .rep refusal

def Raised.IsFormat (raised : Raised) : Prop := ∃ refusal, raised = .format refusal

/-- `filename.replace("\\", "/").split("/")[-1]`. -/
def lastPart (filename : Text) : Text :=
  ((replaceOne (Char.ofNat 0x5C) '/' filename).splitOn '/').getLastD []

def memberCalled (tables : CharacterTables) (archive : Archive) (name : Text) : Option Member :=
  archive.find? fun info =>
    decide (tables.upper (lastPart info.filename) = tables.upper name) && !info.isDir

def readMember (tables : CharacterTables) (archive : Archive) (name : Text) (limit : Nat) :
    Except Raised (Option (List UInt8)) :=
  match memberCalled tables archive name with
  | none => .ok none
  | some info => do
    refuseIf (limit < info.fileSize) (.format (.memberTooLarge name limit))
    let data ← reword Raised.zip (info.read (limit + 1))
    refuseIf (limit < data.length) (.format (.memberTooLarge name limit))
    pure (some data)

def refusedOpening : ZipError → Raised
  | .badZipFile => .format .notAnArchive
  | error => .zip error

def openArchive (zip : ZipLibrary) (data : List UInt8) (maxBytes maxMembers : Nat) :
    Except Raised Archive := do
  refuseIf (maxBytes < data.length) (.format (.archiveTooLarge maxBytes))
  let archive ← reword refusedOpening (zip data)
  refuseIf (maxMembers < archive.length) (.format (.tooManyFiles maxMembers))
  pure archive

structure Walked where
  header : Header
  lines : List Text
  offset : Nat
  text : List UInt8

def unpackHeader (block : List UInt8) : Except Raised Header := do
  refuseIf (block.length ≠ blockSize) (.format .notOneBlock)
  pure (headerOf block)

/-- The loop of `parse_messages`. -/
def walk (tables : CharacterTables) (limit : Option Nat) (data : List UInt8) (found : List Walked)
    (offset : Nat) : Except Raised (List Walked × List WalkProblem) :=
  if _h : offset + blockSize ≤ data.length then
    if limit.any (· ≤ found.length) = true then .ok (found, [.onlyFirst (limit.getD 0)])
    else
      let block := cut data offset (offset + blockSize)
      match unpackHeader block with
      | .error e => .error e
      | .ok header =>
        if _hblocks : header.blocks.getD 0 < 1 then
          -- Padding at the end is no message.
          if stripPad block = [] then .ok (found, [])
          else .ok (found, [.damagedHeader (found.length + 1)])
        else
          let stop := offset + header.blocks.getD 0 * blockSize
          if data.length < stop then .ok (found, [.pastEnd (found.length + 1)])
          else
            let text := cut data (offset + blockSize) stop
            walk tables limit data (found ++ [⟨header, decodeText tables false text, offset, text⟩])
              stop
  else .ok (found, [])
termination_by data.length - offset
decreasing_by
  show data.length - (offset + header.blocks.getD 0 * blockSize) < data.length - offset
  unfold blockSize at *
  omega

/-- `parse_messages`, with the offsets and texts. -/
def parseMessages (tables : CharacterTables) (limit : Option Nat) (data : List UInt8) :
    Except Raised (List UInt8 × List Walked × List WalkProblem) := do
  refuseIf (data.length < blockSize) (.format .noFirstBlock)
  let (messages, problems) ← walk tables limit data [] blockSize
  pure (data.take blockSize, messages, problems)

def messageLines (tables : CharacterTables) (fields : Fields) (message : Walked) : List Text :=
  if headerFlag tables fields "utf8" = true then decodeText tables true message.text
  else message.lines

def headerFields (header : Header) : Fields :=
  ofList [("to".toList, header.to), ("from".toList, header.sender),
    ("subject".toList, header.subject)]

/-- `AREA`, a number and flags. -/
def areaLine (tables : CharacterTables) (line : Text) : Option (Text × Text) :=
  match split line with
  | [word, number, flags] =>
    if tables.upper word = "AREA".toList ∧ isDigits tables number = true then some (number, flags)
    else none
  | _ => none

structure RepLimits where
  archiveBytes : Nat := 2 * 1024 * 1024
  msgBytes : Nat := 4 * 1024 * 1024
  members : Nat := 32
  messages : Nat := 200
  bodyBytes : Nat := 200000

/-- `RepMessage`. -/
structure ReplyMessage where
  index : Nat
  conference : Nat
  «to» : Text
  subject : Text
  body : Text
  reference : Option Nat
  isPrivate : Bool
  claimedFrom : Text
  when : Option DateTime
  headers : Fields
  status : Char

inductive RepProblem where
  | tooLong (index limit : Nat)
  | stopped (problem : WalkProblem)

structure RepPacket where
  messages : List ReplyMessage
  problems : List RepProblem
  dropped : List Int
  added : List Int

/-- `valid_bbs_id`, whose `$` lets a line end pass. -/
def validBbsId (value : Text) : Bool :=
  let core := if value.getLast? = some '\n' then value.dropLast else value
  decide (1 ≤ core.length ∧ core.length ≤ 8) && core.all fun c => c.isUpper || c.isDigit

def conferenceOf (header : Header) : Nat := header.number.getD header.conference

def areaChange (tables : CharacterTables) (line : Text) : Except Raised (Option (Bool × Int)) :=
  match areaLine tables line with
  | some (number, flags) =>
    if 5 < number.length then .ok none
    else
      match tables.int number with
      | none => .error .valueError
      | some n =>
        if 'D' ∈ flags then .ok (some (true, n))
        else if 'a' ∈ flags ∨ 'p' ∈ flags ∨ 'g' ∈ flags then .ok (some (false, n))
        else .ok none
  | none => .ok none

/-- The loop of `_todoor`. -/
def areaChanges (tables : CharacterTables) : List Text → Except Raised (List (Bool × Int))
  | [] => .ok []
  | line :: rest => do
    let change ← areaChange tables line
    let changes ← areaChanges tables rest
    pure (change.toList ++ changes)

def todoorLines (data : List UInt8) : List Text := (splitLines (fromCp437 data)).take 1000

/-- `_todoor`, of the file where there is one. -/
def todoor (tables : CharacterTables) (file : Option (List UInt8)) :
    Except Raised (List Int × List Int) := do
  let changes ← areaChanges tables (todoorLines (file.getD []))
  pure ((changes.filter Prod.fst).map Prod.snd,
    (changes.filter fun change => !change.1).map Prod.snd)

/-- The `except` clauses of `_msg_bytes`. -/
def refusedUnpacking : Raised → Raised
  | .format refusal => .rep (.format refusal)
  | .zip error => .rep (.notUnpacked error)
  | raised => raised

def otherMessages (tables : CharacterTables) (archive : Archive) : List Text :=
  (archive.map Member.filename).filter fun name => ".MSG".toList.isSuffixOf (tables.upper name)

/-- What `_msg_bytes` takes out of an archive. -/
def unpackRep (tables : CharacterTables) (zip : ZipLibrary) (data : List UInt8) (bbsId : Text)
    (limits : RepLimits) :
    Except Raised (List UInt8 × Option (List UInt8) × Option (List UInt8)) := do
  let archive ← openArchive zip data limits.archiveBytes limits.members
  let msg ← readMember tables archive (bbsId ++ ".MSG".toList) limits.msgBytes
  let msg ← orRefuse msg (match otherMessages tables archive with
    | other :: _ => .rep (.forOtherBbs other bbsId)
    | [] => .rep (.noMessages bbsId))
  let todoor ← readMember tables archive "TODOOR.EXT".toList (64 * 1024)
  let headers ← readMember tables archive "HEADERS.DAT".toList limits.msgBytes
  pure (msg, todoor, headers)

def msgBytes (tables : CharacterTables) (zip : ZipLibrary) (data : List UInt8) (bbsId : Text)
    (limits : RepLimits) :
    Except Raised (List UInt8 × Option (List UInt8) × Option (List UInt8)) := do
  refuseIf (limits.archiveBytes < data.length) (.rep (.tooLarge (limits.archiveBytes / 1024)))
  if [0x50, 0x4B] <+: data then
    reword refusedUnpacking (unpackRep tables zip data bbsId limits)
  else
    refuseIf (limits.msgBytes < data.length) (.rep (.tooLarge (limits.msgBytes / 1024)))
    pure (data, none, none)

def claimedId (tables : CharacterTables) (first : List UInt8) : Text :=
  tables.upper (fromAscii (stripPad (first.take 8)))

def repMessage (tables : CharacterTables) (limits : RepLimits) (allHeaders : Dict Nat Fields)
    (message : Walked) (index : Nat) : Option (ReplyMessage ⊕ RepProblem) :=
  let header := message.header
  if header.active = false then none
  else
    let fields := (allHeaders.get? message.offset).getD empty
    let (values, lines) :=
      splitQwke tables (messageLines tables fields message) (headerFields header)
    let body := (join '\n' lines).rdropWhile (· = '\n')
    if limits.bodyBytes < (body.map fun c => c.utf8Size).sum then
      some (.inr (.tooLong index limits.bodyBytes))
    else some (.inl {
      index
      conference := conferenceOf header
      «to» := values.getD "to" header.to
      subject := values.getD "subject" header.subject
      body
      reference := header.reference.filter (· ≠ 0)
      isPrivate := header.isPrivate
      claimedFrom := values.getD "from" header.sender
      when := header.when
      headers := fields
      status := header.status })

def parseRep (tables : CharacterTables) (zip : ZipLibrary) (data : List UInt8) (id : Text)
    (limits : RepLimits) : Except Raised RepPacket := do
  let bbsId := tables.upper id
  refuseIf (validBbsId bbsId = false) .valueError
  let (msg, todoorFile, headersDat) ← msgBytes tables zip data bbsId limits
  let allHeaders := (headersDat.map parseHeadersDat).getD empty
  let (first, walked, stopped) ←
    reword refusedUnpacking (parseMessages tables (some limits.messages) msg)
  refuseIf (claimedId tables first ≠ bbsId) (.rep (.addressedTo (claimedId tables first) bbsId))
  let read := (walked.zipIdx 1).filterMap fun entry =>
    repMessage tables limits allHeaders entry.1 entry.2
  let (dropped, added) ← todoor tables todoorFile
  pure {
    messages := read.filterMap Sum.getLeft?
    problems := read.filterMap Sum.getRight? ++ stopped.map RepProblem.stopped
    dropped
    added }

def maxPacketArchiveBytes : Nat := 64 * 1024 * 1024
def maxPacketMembers : Nat := 4096
def maxMessagesDatBytes : Nat := 128 * 1024 * 1024
def maxSmallMemberBytes : Nat := 1024 * 1024
def maxHeadersDatBytes : Nat := 16 * 1024 * 1024

structure Conference where
  number : Int
  name : Text
  flags : Text

structure ReadMessage where
  conference : Nat
  number : Option Nat
  when : Option DateTime
  «to» : Text
  sender : Text
  subject : Text
  body : Text
  reference : Option Nat
  isPrivate : Bool
  headers : Fields
  status : Char
  tagline : Bool

structure ReadPacket where
  bbsName : Text
  bbsId : Text
  userName : Text
  conferences : List Conference
  messages : List ReadMessage
  files : List Text

def controlLines (control : List UInt8) : List Text :=
  (replacePair '\r' '\n' '\n' (fromCp437 control)).splitOn '\n'

def conferenceCount (tables : CharacterTables) (lines : List Text) : Except Raised Nat := do
  refuseIf (lines.length < 11) (.format .controlTooShort)
  let last ← orRefuse (tables.int (strip (lines.getD 10 []))) (.format .countNotANumber)
  let count := last + 1
  refuseIf (¬(0 ≤ count ∧ count ≤ 65536) ∨ (lines.length : Int) < 11 + 2 * count)
    (.format .listCutShort)
  pure count.toNat

/-- The conferences as `CONTROL.DAT` has them: a line with the number and one with the name. -/
def conferenceTexts (lines : List Text) (count : Nat) : List (Text × Text) :=
  (List.range count).map fun i =>
    (strip (lines.getD (11 + 2 * i) []), strip (lines.getD (12 + 2 * i) []))

/-- The loop over the lines of `TOREADER.EXT`. -/
def areaFlags (tables : CharacterTables) (flags : Dict Int Text) :
    List Text → Except Raised (Dict Int Text)
  | [] => .ok flags
  | line :: rest =>
    match areaLine tables line with
    | some (number, value) =>
      match tables.int number with
      | none => .error .valueError
      | some n => areaFlags tables (flags.set n value) rest
    | none => areaFlags tables flags rest

def conferenceList (tables : CharacterTables) (flags : Dict Int Text) :
    List (Text × Text) → Except Raised (List Conference)
  | [] => .ok []
  | (number, name) :: rest =>
    if isDigits tables number = false then .error (.format .noConferenceNumber)
    else
      match tables.int number with
      | none => .error .valueError
      | some n => do
        let conferences ← conferenceList tables flags rest
        pure (⟨n, name, (flags.get? n).getD ['a']⟩ :: conferences)

/-- `fields.get(key) or default`. -/
def Fields.orElse (fields : Fields) (key : String) (default : Text) : Text :=
  match fields.get? key.toList with
  | some (c :: text) => c :: text
  | _ => default

def readMessage (tables : CharacterTables) (allHeaders : Dict Nat Fields) (message : Walked) :
    Option ReadMessage :=
  let header := message.header
  if header.active = false then none
  else
    let fields := (allHeaders.get? message.offset).getD empty
    let (values, lines) :=
      splitQwke tables (messageLines tables fields message) (headerFields header)
    some {
      conference := header.conference
      number := header.number
      when := header.when
      «to» := fields.orElse "to" (values.getD "to" header.to)
      sender := fields.orElse "sender" (values.getD "from" header.sender)
      subject := fields.orElse "subject" (values.getD "subject" header.subject)
      body := join '\n' lines
      reference := header.reference
      isPrivate := header.isPrivate
      headers := fields
      status := header.status
      tagline := header.tagline }

def readPacket (tables : CharacterTables) (zip : ZipLibrary) (data : List UInt8) :
    Except Raised ReadPacket := do
  let archive ← openArchive zip data maxPacketArchiveBytes maxPacketMembers
  let control ← readMember tables archive "CONTROL.DAT".toList maxSmallMemberBytes
  let messagesDat ← readMember tables archive "MESSAGES.DAT".toList maxMessagesDatBytes
  let control ← orRefuse control (.format .membersMissing)
  let messagesDat ← orRefuse messagesDat (.format .membersMissing)
  let lines := controlLines control
  let count ← conferenceCount tables lines
  let toreader ← readMember tables archive "TOREADER.EXT".toList maxSmallMemberBytes
  let flags ← areaFlags tables empty (splitLines (fromCp437 (toreader.getD [])))
  let conferences ← conferenceList tables flags (conferenceTexts lines count)
  let headersDat ← readMember tables archive "HEADERS.DAT".toList maxHeadersDatBytes
  let allHeaders := (headersDat.map parseHeadersDat).getD empty
  let (_, walked, problems) ← parseMessages tables none messagesDat
  refuseIf (problems ≠ []) (.format (.walk problems))
  pure {
    bbsName := strip (lines.getD 0 [])
    bbsId := if ',' ∈ lines.getD 4 [] then strip (after ',' (lines.getD 4 [])) else []
    userName := strip (lines.getD 6 [])
    conferences
    messages := walked.filterMap (readMessage tables allHeaders)
    files := archive.map Member.filename }

end NetBBS.Qwk
