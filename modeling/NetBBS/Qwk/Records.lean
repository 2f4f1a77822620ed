import NetBBS.Foundation.Dict
import NetBBS.Foundation.Refusal
import NetBBS.Python.DateTime
import NetBBS.Python.Text
import NetBBS.Rendering.ArtFiles

/-! # QWK records -/

namespace NetBBS.Qwk

open Foundation Dict Text

structure CharacterTables where
  upper : Text → Text
  lower : Text → Text
  casefold : Text → Text
  /-- `str.isdigit` and `str.isdecimal` of one character. -/
  isDigit : Char → Bool
  isDecimal : Char → Bool
  /-- `int(text)`; `none` where it raises `ValueError`. -/
  int : Text → Option Int
  /-- Whether a text matches a word under `re.IGNORECASE`. -/
  matchesWord : Text → Text → Bool
  /-- `data.decode("utf-8", errors="replace")`. -/
  decodeUtf8Replace : List UInt8 → Text
  int_digits : ∀ text, text ≠ [] → text.all isDigit = true →
    ((int text).isSome = true ↔ text.length ≤ 4300 ∧ text.all isDecimal = true)

/-- `list.replace` of two in a row by one. -/
def replacePair {α : Type} [DecidableEq α] (first second new : α) : List α → List α
  | a :: b :: rest =>
    if a = first ∧ b = second then new :: replacePair first second new rest
    else a :: replacePair first second new (b :: rest)
  | short => short

def replaceOne {α : Type} [DecidableEq α] (old new : α) (items : List α) : List α :=
  items.map fun a => if a = old then new else a

def isLineEnd (c : Char) : Bool :=
  let code := c.toNat
  (0x0A ≤ code && code ≤ 0x0D) || (0x1C ≤ code && code ≤ 0x1E) || code == 0x85 || code == 0x2028 ||
    code == 0x2029

/-- `text.splitlines()`, with the line being read. -/
def splitLinesFrom (line : Text) : Text → List Text
  | [] => if line = [] then [] else [line]
  | '\r' :: '\n' :: rest => line :: splitLinesFrom [] rest
  | c :: rest =>
    if isLineEnd c = true then line :: splitLinesFrom [] rest else splitLinesFrom (line ++ [c]) rest

def splitLines (text : Text) : List Text := splitLinesFrom [] text

/-- `text.isdigit()`. -/
def isDigits (tables : CharacterTables) (text : Text) : Bool :=
  !text.isEmpty && text.all tables.isDigit

def fromCp437 (data : List UInt8) : Text :=
  data.map fun byte => Char.ofNat (Rendering.cp437Char byte).val

/-- `data.decode("utf-8")`; `none` where it raises `UnicodeDecodeError`. -/
def fromUtf8 (data : List UInt8) : Option Text :=
  (PyStr.decodeUtf8 false data).map fun text => text.map fun c => Char.ofNat c.val

/-- `data.decode("ascii", errors="replace")`. -/
def fromAscii (data : List UInt8) : Text :=
  data.map fun byte => if byte < 0x80 then Char.ofNat byte.toNat else Char.ofNat 0xFFFD

/-- What fields are padded with. -/
def isPad (byte : UInt8) : Bool := byte = 0x20 || byte = 0

def stripPad (data : List UInt8) : List UInt8 := (data.dropWhile isPad).rdropWhile isPad

/-- `_CTRL_A.sub("", text)`. -/
def dropColors : Text → Text
  | [] => []
  | [c] => if c = Char.ofNat 1 then [] else [c]
  | c :: next :: rest =>
    if c = Char.ofNat 1 then dropColors rest else c :: dropColors (next :: rest)

/-- `_CONTROL`. -/
def isControl (c : Char) : Bool := (c.toNat < 0x20 && c.toNat != 9) || c.toNat == 0x7F

def cleanLine (text : Text) : Text := (dropColors text).filter fun c => !isControl c

def readField (data : List UInt8) : Text :=
  strip (cleanLine (fromCp437 (data.rdropWhile isPad)))

def isAsciiDigit (byte : UInt8) : Bool := 0x30 ≤ byte && byte ≤ 0x39

def readNumber (data : List UInt8) : Option Nat :=
  let text := stripPad data
  if text = [] ∨ text.all isAsciiDigit = false ∨ 9 < text.length then none
  else some (text.foldl (fun n byte => 10 * n + (byte.toNat - 0x30)) 0)

def lineEnd : UInt8 := 0xE3

def decodeText (tables : CharacterTables) (utf8 : Bool) (data : List UInt8) : List Text :=
  let data := data.rdropWhile isPad
  if data = [] then []
  else if utf8 = true then
    let text := replaceOne '\r' '\n' (replacePair '\r' '\n' '\n' (tables.decodeUtf8Replace data))
    (text.splitOn '\n').map fun line => rstrip (cleanLine line)
  else
    let rawLines :=
      if lineEnd ∈ data then
        let split := data.splitOn lineEnd
        if stripPad (split.getLastD []) = [] then split.dropLast else split
      else (replaceOne 13 10 (replacePair 13 10 10 data)).splitOn 10
    rawLines.map fun line =>
      rstrip (cleanLine (fromCp437 (line.filter fun byte => byte ≠ 13 && byte ≠ 10)))

def numberReadings (low high : Nat) (text : Text) : List (Nat × Text) :=
  (match text with
  | a :: b :: rest =>
    let n := 10 * (a.toNat - 48) + (b.toNat - 48)
    if a.isDigit = true ∧ b.isDigit = true ∧ low ≤ n ∧ n ≤ high then [(n, rest)] else []
  | _ => []) ++
  match text with
  | a :: rest => if a.isDigit = true ∧ low ≤ a.toNat - 48 then [(a.toNat - 48, rest)] else []
  | [] => []

/-- `%d` takes a blank and a digit too. -/
def dayReadings (text : Text) : List (Nat × Text) :=
  numberReadings 1 31 text ++
    match text with
    | ' ' :: a :: rest =>
      if a.isDigit = true ∧ 1 ≤ a.toNat - 48 then [(a.toNat - 48, rest)] else []
    | _ => []

def yearReadings (text : Text) : List (Nat × Text) :=
  match text with
  | a :: b :: rest =>
    let n := 10 * (a.toNat - 48) + (b.toNat - 48)
    if a.isDigit = true ∧ b.isDigit = true then [(if n ≤ 68 then 2000 + n else 1900 + n, rest)]
    else []
  | _ => []

def literalReadings (c : Char) (text : Text) : List Text :=
  if text.head? = some c then [text.tail] else []

/-- White space, as much of it as there is first. -/
def blankReadings (text : Text) : List Text :=
  let count := (text.takeWhile Text.isSpace).length
  (List.range count).map fun fewer => text.drop (count - fewer)

/-- `strptime(text, "%m-%d-%y %H:%M")`; `none` where it raises `ValueError`. -/
def strptime (text : Text) : Option DateTime :=
  let readings : List (Option DateTime × Text) := do
    let (month, text) ← numberReadings 1 12 text
    let text ← literalReadings '-' text
    let (day, text) ← dayReadings text
    let text ← literalReadings '-' text
    let (year, text) ← yearReadings text
    let text ← blankReadings text
    let (hour, text) ← numberReadings 0 23 text
    let text ← literalReadings ':' text
    let (minute, text) ← numberReadings 0 59 text
    pure (DateTime.make year month day hour minute 0, text)
  match readings with
  | (moment, []) :: _ => moment
  | _ => none

structure Header where
  status : Char
  number : Option Nat
  when : Option DateTime
  «to» : Text
  sender : Text
  subject : Text
  reference : Option Nat
  blocks : Option Nat
  active : Bool
  conference : Nat
  logical : Nat
  tagline : Bool

def privateFlags : List Char := "+*~`%^!#".toList

def Header.isPrivate (header : Header) : Bool := header.status ∈ privateFlags

def blockSize : Nat := 128

/-- `data[start:stop]`. -/
def cut (data : List UInt8) (start stop : Nat) : List UInt8 := (data.take stop).drop start

def byteAt (data : List UInt8) (index : Nat) : Nat := (data.getD index 0).toNat

def headerOf (block : List UInt8) : Header where
  status :=
    if 32 ≤ byteAt block 0 ∧ byteAt block 0 < 127 then Char.ofNat (byteAt block 0) else ' '
  number := readNumber (cut block 1 8)
  when :=
    if (cut block 8 21).all (· < 0x80) = true then
      strptime (fromAscii (cut block 8 16) ++ ' ' :: fromAscii (cut block 16 21))
    else none
  «to» := readField (cut block 21 46)
  sender := readField (cut block 46 71)
  subject := readField (cut block 71 96)
  reference := readNumber (cut block 108 116)
  blocks := readNumber (cut block 116 122)
  active := byteAt block 122 ≠ 0xE2
  conference := byteAt block 123 + 256 * byteAt block 124
  logical := byteAt block 125 + 256 * byteAt block 126
  tagline := byteAt block 127 = 0x2A

abbrev Fields := Dict Text Text

/-- `fields.get(key, default)`. -/
def Fields.getD (fields : Fields) (key : String) (default : Text) : Text :=
  (fields.get? key.toList).getD default

/-- `_QWKE_LINE.match(line)`: the field in lower case, and its value without the blanks around it. -/
def qwkeLine (tables : CharacterTables) (line : Text) : Option (Text × Text) :=
  let name := before ':' line
  if ':' ∈ line ∧
      (["to", "from", "subject"].any fun word => tables.matchesWord word.toList name) = true then
    some (tables.lower name, strip (after ':' line))
  else none

def takeQwke (tables : CharacterTables) (header : Fields) :
    Nat → Fields → List Text → Fields × List Text
  | room + 1, values, line :: rest =>
    match qwkeLine tables line with
    | some (name, value) =>
      let expected := (header.get? name).getD []
      if values.contains name = true ∨ value = [] ∨
          ¬tables.casefold expected <+: tables.casefold value then (values, line :: rest)
      else takeQwke tables header room (values.set name value) rest
    | none => (values, line :: rest)
  | _, values, lines => (values, lines)

def splitQwke (tables : CharacterTables) (lines : List Text) (header : Fields) :
    Fields × List Text :=
  let (values, rest) := takeQwke tables header 3 empty lines
  match rest with
  | line :: below =>
    if values.size ≠ 0 ∧ strip line = [] then (values, below) else (values, rest)
  | [] => (values, rest)

def maxHeaderValue : Nat := 1024
def maxHeaderSections : Nat := 65536
def maxHeaderFields : Nat := 64

def isHexDigit (c : Char) : Bool :=
  c.isDigit || ('a' ≤ c && c ≤ 'f') || ('A' ≤ c && c ≤ 'F')

def hexValue (c : Char) : Nat :=
  if c.isDigit = true then c.toNat - 48 else c.toLower.toNat - 87

/-- `_SECTION.match(line)`, and the number between its brackets. -/
def sectionOffset : Text → Option Nat
  | '[' :: rest =>
    let digits := rest.takeWhile isHexDigit
    if 1 ≤ digits.length ∧ digits.length ≤ 9 ∧ rest.drop digits.length = [']'] then
      some (digits.foldl (fun n c => 16 * n + hexValue c) 0)
    else none
  | _ => none

def isKeyStart (c : Char) : Bool := c.isAlphanum || c = '@'

def isKeyChar (c : Char) : Bool := isKeyStart c || c = '_' || c = '.' || c = '-'

/-- `_HEADER_LINE.match(line)`. -/
def headerLine (line : Text) : Option (Text × Text) :=
  let key := line.takeWhile isKeyChar
  match (line.drop key.length).dropWhile Text.isSpace with
  | mark :: value =>
    if line.head?.any isKeyStart = true ∧ key.length ≤ 64 ∧ (mark = ':' ∨ mark = '=') then
      some (key, if value.head?.any Text.isSpace = true then value.tail else value)
    else none
  | [] => none

def headerSections (current : Option Nat) (out : Dict Nat Fields) : List Text → Dict Nat Fields
  | [] => out
  | raw :: rest =>
    let line := strip raw
    if line = [] ∨ line.head? = some ';' then headerSections current out rest
    else
      match sectionOffset line with
      | some offset =>
        if maxHeaderSections ≤ out.size then out
        else headerSections (some offset) (out.setDefault offset empty) rest
      | none =>
        match current, headerLine line with
        | some offset, some (key, value) =>
          let fields := (out.get? offset).getD empty
          if maxHeaderFields ≤ fields.size then headerSections current out rest
          else
            let kept := strip ((cleanLine value).take maxHeaderValue)
            headerSections current (out.set offset (fields.set (key.map Char.toLower) kept)) rest
        | _, _ => headerSections current out rest

def parseHeadersDat (data : List UInt8) : Dict Nat Fields :=
  let text := (fromUtf8 data).getD (fromCp437 data)
  headerSections none empty
    ((replaceOne '\r' '\n' (replacePair '\r' '\n' '\n' text)).splitOn '\n')

def headerFlag (tables : CharacterTables) (fields : Fields) (key : String) : Bool :=
  ["true", "yes", "1", "on"].any fun word =>
    word.toList = tables.lower (strip (fields.getD key []))

def plainTables : CharacterTables where
  upper text := text.map Char.toUpper
  lower text := text.map Char.toLower
  casefold text := text.map Char.toLower
  isDigit c := c.isDigit || c = Char.ofNat 0xB2
  isDecimal c := c.isDigit
  int text :=
    if text ≠ [] ∧ text.length ≤ 4300 ∧ text.all Char.isDigit = true then
      some (text.foldl (fun n c => 10 * n + (c.toNat - 48 : Nat)) 0)
    else none
  matchesWord word text := word = text.map Char.toLower
  decodeUtf8Replace data := data.map fun byte => Char.ofNat byte.toNat
  int_digits := by
    intro text hne hdigits
    split
    · rename_i h
      exact iff_of_true rfl h.2
    · rename_i h
      exact iff_of_false (by decide) (fun h' => h ⟨hne, h'⟩)

end NetBBS.Qwk
