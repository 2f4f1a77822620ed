import NetBBS.Ftn.Charsets
import NetBBS.Ftn.Packet

/-! # Reading FTN message text -/

namespace NetBBS

open Foundation Text

def kludgeMark : Char := '\x01'

structure FtnMessage where
  toName : Text
  fromName : Text
  subject : Text
  /-- Lines joined by `\n`. -/
  body : Text
  area : Option Text := none
  date : Option DateTime := none
  kludges : List (Text × Text) := []
  trailingKludges : List (Text × Text) := []
  tearLine : Option Text := none
  origin : Option Text := none
  seenBy : List (Nat × Nat) := []
  path : List (Nat × Nat) := []
  attributes : Nat := 0
  origNet : Nat := 0
  origNode : Nat := 0
  destNet : Nat := 0
  destNode : Nat := 0
  charset : Option String := none

def months : List Text :=
  ["Jan", "Feb", "Mar", "Apr", "May", "Jun", "Jul", "Aug", "Sep", "Oct", "Nov", "Dec"].map
    String.toList

/-- `\d{least,most}` at the start of the text, with the number it spells. -/
def takeNumber (least most : Nat) (text : Text) : Option (Nat × Text) :=
  let digits := (text.take most).takeWhile Char.isDigit
  if least ≤ digits.length then some (Nat.ofDigitChars 10 digits 0, text.drop digits.length)
  else none

def takeChar (c : Char) : Text → Option Text
  | [] => none
  | first :: rest => if first = c then some rest else none

/-- `[A-Za-z]{3}`. -/
def takeMonthName (text : Text) : Option (Text × Text) :=
  let name := text.take 3
  if name.length = 3 ∧ name.all Char.isAlpha = true then some (name, text.drop 3) else none

/-- `\s+`. -/
def takeSpaces (text : Text) : Option Text :=
  match text with
  | [] => none
  | first :: rest => if Text.isSpace first = true then some (lstrip rest) else none

/-- `(\d{1,2}) ([A-Za-z]{3}) (\d{2})`. -/
def takeDayMonthYear (text : Text) : Option ((Nat × Text × Nat) × Text) := do
  let (day, text) ← takeNumber 1 2 text
  let (month, text) ← takeMonthName (← takeChar ' ' text)
  let (year, text) ← takeNumber 2 2 (← takeChar ' ' text)
  pure ((day, month, year), text)

/-- `_FTS_DATE`. -/
def matchFtsDate (text : Text) : Option ((Nat × Text × Nat) × Nat × Nat × Nat) := do
  let (date, text) ← takeDayMonthYear (lstrip text)
  let (hour, text) ← takeNumber 1 2 (← takeSpaces text)
  let (minute, text) ← takeNumber 2 2 (← takeChar ':' text)
  let (second, _) ← takeNumber 2 2 (← takeChar ':' text)
  pure (date, hour, minute, second)

/-- `_SEADOG_DATE`, which has no seconds. -/
def matchSeadogDate (text : Text) : Option ((Nat × Text × Nat) × Nat × Nat × Nat) := do
  let (_, text) ← takeMonthName (lstrip text)
  let (date, text) ← takeDayMonthYear (← takeSpaces text)
  let (hour, text) ← takeNumber 1 2 (← takeChar ' ' text)
  let (minute, _) ← takeNumber 2 2 (← takeChar ':' text)
  pure (date, hour, minute, 0)

def capitalize : Text → Text
  | [] => []
  | first :: rest => first.toUpper :: rest.map Char.toLower

def parseFtsDate (text : Text) : Option DateTime := do
  let ((day, month, year), hour, minute, second) ← matchFtsDate text <|> matchSeadogDate text
  let index ← months.findIdx? (· = capitalize month)
  let fullYear := if 80 ≤ year then 1900 + year else 2000 + year
  DateTime.make fullYear (index + 1) day hour minute second

variable (lib : TextLibrary)

def netNodeToken (token : Text) : Text :=
  let token := if ':' ∈ token then after ':' token else token
  before '@' (before '.' token)

def keepNetNode (net node : Nat) (entries : List (Nat × Nat)) : List (Nat × Nat) :=
  if net ≤ 0xFFFF ∧ node ≤ 0xFFFF then (net, node) :: entries else entries

def parseTokens (net : Option Nat) : List Text → Except FtnError (List (Nat × Nat))
  | [] => .ok []
  | token :: rest =>
    let token := netNodeToken token
    if '/' ∈ token then
      let netText := before '/' token
      let nodeText := after '/' token
      if isDigitText lib netText = true ∧ isDigitText lib nodeText = true then do
        let net ← intOfDigits lib netText
        let node ← intOfDigits lib nodeText
        pure (keepNetNode net node (← parseTokens (some net) rest))
      else parseTokens net rest
    else
      match net with
      | some held =>
        if isDigitText lib token = true then do
          let node ← intOfDigits lib token
          pure (keepNetNode held node (← parseTokens (some held) rest))
        else parseTokens net rest
      | none => parseTokens net rest

def parseNetNodes (text : Text) : Except FtnError (List (Nat × Nat)) :=
  parseTokens lib none (split text)

def splitKludge (line : Text) : Text × Text :=
  let isName (c : Char) : Bool := !Text.isSpace c && c != ':'
  let name := line.takeWhile isName
  let rest := line.dropWhile isName
  let rest := if rest.head? = some ':' then rest.tail else rest
  (name, strip rest)

/-- `line.lstrip(b"\n")` of bytes. -/
def lstripLf (line : List UInt8) : List UInt8 := line.dropWhile (· = 10)

/-- `_raw_kludge`: the first line of the name, found before the text is decoded. -/
def rawKludge (text : List UInt8) (name : String) : Option Text :=
  let named (separator : Char) := encodeAsciiReplace (String.ofList
    (kludgeMark :: name.toList ++ [separator]))
  let value (line : List UInt8) : Option Text :=
    if (named ':').isPrefixOf line || (named ' ').isPrefixOf line then
      some (strip (decodeAsciiReplace (line.drop (name.toList.length + 2))).toList)
    else none
  ((text.splitOn 13).map lstripLf).findSome? value

/-- `x or y` of two values that are texts or `None`. -/
def orText (x y : Option Text) : Option Text :=
  match x with
  | some (c :: rest) => some (c :: rest)
  | _ => y

/-- `lines.pop()` where the last line is empty. -/
def dropEmptyLast (lines : List Text) : List Text :=
  if lines.getLast? = some [] then lines.dropLast else lines

def textLines (text : Text) : List Text := dropEmptyLast ((remove '\n' text).splitOn '\r')

def takeArea : List Text → Option Text × List Text
  | [] => (none, [])
  | first :: rest =>
    let bare := if first.head? = some kludgeMark then first.tail else first
    if startsWith bare "AREA:" = true then (some (strip (bare.drop 5)), rest)
    else (none, first :: rest)

structure SortedLines where
  kludges : List (Text × Text)
  trailingKludges : List (Text × Text)
  path : List (Nat × Nat)
  content : List Text

def sortLines (lib : TextLibrary) (inBody : Bool) : List Text → Except FtnError SortedLines
  | [] => .ok ⟨[], [], [], []⟩
  | line :: rest =>
    if line.head? = some kludgeMark then do
      let (name, value) := splitKludge line.tail
      if lib.upper name = "PATH".toList then
        let entries ← parseNetNodes lib value
        let sorted ← sortLines lib inBody rest
        pure { sorted with path := entries ++ sorted.path }
      else
        let sorted ← sortLines lib inBody rest
        if inBody = true then
          pure { sorted with trailingKludges := (name, value) :: sorted.trailingKludges }
        else pure { sorted with kludges := (name, value) :: sorted.kludges }
    else do
      let sorted ← sortLines lib true rest
      pure { sorted with content := line :: sorted.content }

def isSeenByLine (line : Text) : Bool := startsWith line "SEEN-BY:"

/-- `not line.strip()`. -/
def isBlankLine (line : Text) : Bool := line.all Text.isSpace

def isTearLine (line : Text) : Bool := line = "---".toList || startsWith line "--- "

/-- `_ORIGIN`, with the text it matches. -/
def matchOrigin (line : Text) : Option Text :=
  let line := if line.head? = some ' ' then line.tail else line
  if line.head? = some '*' then
    let line := line.tail
    let line := if line.head? = some ' ' then line.tail else line
    if startsWith line "Origin:" = true then
      let text := line.drop 7
      some (if text.head? = some ' ' then text.tail else text)
    else none
  else none

def peelOrigin (content : List Text) : Option Text × List Text :=
  match content.getLast?.bind matchOrigin with
  | some text => (some (rstrip text), content.dropLast)
  | none => (none, content)

def peelTear (content : List Text) : Option Text × List Text :=
  match content.getLast? with
  | some line =>
    if isTearLine line = true then (some (rstrip (line.drop 4)), content.dropLast)
    else (none, content)
  | none => (none, content)

structure PeeledContent where
  seenByLines : List Text
  origin : Option Text
  tearLine : Option Text
  body : Text

def peelContent (content : List Text) : PeeledContent :=
  let seenByLines := content.rtakeWhile isSeenByLine
  let content := (content.rdropWhile isSeenByLine).rdropWhile isBlankLine
  let (origin, content) := peelOrigin content
  let (tearLine, content) := peelTear content
  ⟨seenByLines, origin, tearLine, (join '\n' content).rdropWhile (· = '\n')⟩

def messageCodec (packed : PackedMessage) (defaultCharset : String) : Except FtnError String :=
  codecForKludge lib (orText (rawKludge packed.text "CHRS") (rawKludge packed.text "CHARSET"))
    (rawKludge packed.text "CODEPAGE") defaultCharset

def decodeMessage (packed : PackedMessage) (defaultCharset : String) :
    Except FtnError FtnMessage := do
  let codec ← messageCodec lib packed defaultCharset
  let text ← decodeText lib codec packed.text
  let toName ← decodeText lib codec packed.toName
  let fromName ← decodeText lib codec packed.fromName
  let subject ← decodeText lib codec packed.subject
  let date := parseFtsDate (decodeAsciiReplace packed.date).toList
  let (area, lines) := takeArea (textLines text)
  let sorted ← sortLines lib false lines
  let peeled := peelContent sorted.content
  let seenBy ← peeled.seenByLines.mapM fun line => parseNetNodes lib (line.drop 8)
  pure
    { toName, fromName, subject, date, area
      body := peeled.body
      kludges := sorted.kludges
      trailingKludges := sorted.trailingKludges
      tearLine := peeled.tearLine
      origin := peeled.origin
      seenBy := seenBy.flatten
      path := sorted.path
      attributes := packed.attributes
      origNet := packed.origNet
      origNode := packed.origNode
      destNet := packed.destNet
      destNode := packed.destNode
      charset := some codec }

end NetBBS
