import Mathlib.Data.List.Dedup
import NetBBS.Ftn.Message

/-! # Writing FTN message text -/

namespace NetBBS

open Foundation

def maxControlLine : Nat := 80
def maxOriginLine : Nat := 79
def maxAreaTag : Nat := 60

/-- `_AREA_TAG`, matched whole. -/
def isAreaTag (tag : Text) : Bool :=
  1 ≤ tag.length && tag.length ≤ maxAreaTag && tag.all fun c =>
    (0x21 ≤ c.toNat && c.toNat ≤ 0x60) || (0x7b ≤ c.toNat && c.toNat ≤ 0x7e)

/-- `_plain`: what a caller typed must not become structure. -/
def plain (text : Text) : Text :=
  text.filter fun c => c ≠ '\r' && c ≠ kludgeMark && c ≠ '\x00'

/-- `f"{number}"`. -/
def numberText (number : Nat) : Text := Nat.toDigits 10 number

/-- `f"{net}/{node}"`. -/
def netNodeText (net node : Nat) : Text := numberText net ++ '/' :: numberText node

def fillLines (start : Text) (width : Nat) (line : Text) (net : Option Nat) :
    List (Nat × Nat) → List Text
  | [] => if line = [] then [] else [start ++ line]
  | (entryNet, entryNode) :: rest =>
    let full := netNodeText entryNet entryNode
    let bare := if net = some entryNet ∧ line ≠ [] then numberText entryNode else full
    if line ≠ [] ∧ width < start.length + line.length + 1 + bare.length then
      (start ++ line) :: fillLines start width full (some entryNet) rest
    else
      fillLines start width (if line = [] then bare else line ++ ' ' :: bare) (some entryNet) rest

def formatNetNodeLines (start : String) (entries : List (Nat × Nat)) (width : Nat) : List Text :=
  fillLines start.toList width [] none entries

def netNodeLe (a b : Nat × Nat) : Prop := a.1 < b.1 ∨ (a.1 = b.1 ∧ a.2 ≤ b.2)

instance : DecidableRel netNodeLe := fun a b => by
  unfold netNodeLe
  infer_instance

/-- `sorted(set(entries))`. -/
def sortedEntries (entries : List (Nat × Nat)) : List (Nat × Nat) :=
  entries.dedup.insertionSort netNodeLe

def twoDigits (number : Nat) : Text :=
  if number < 10 then '0' :: numberText number else numberText number

def formatFtsDate (moment : DateTime) : Text :=
  twoDigits moment.day ++ ' ' :: months.getD (moment.month - 1) [] ++
    ' ' :: twoDigits (moment.year % 100) ++ ' ' :: ' ' :: twoDigits moment.hour ++
    ':' :: twoDigits moment.minute ++ ':' :: twoDigits moment.second

variable (lib : TextLibrary)

def bareKludges : List Text := ["FMPT", "TOPT", "INTL", "VIA"].map String.toList

def formatKludge (kludge : Text × Text) : Text :=
  let separator := if lib.upper kludge.1 ∈ bareKludges then [' '] else [':', ' ']
  kludgeMark :: kludge.1 ++ separator ++ kludge.2

def namesCharset (kludge : Text × Text) : Bool :=
  lib.upper kludge.1 = "CHRS".toList || lib.upper kludge.1 = "CHARSET".toList

def chooseOutboundCharset (texts : List Text) : Charset :=
  if texts.all (fun text => (lib.codec cp437.codec).any (·.encodable text)) then cp437 else utf8

def outboundCharset (message : FtnMessage) : Except FtnError Charset :=
  match message.charset with
  | some codec =>
    if codec = "" then .ok chosen
    else do pure ⟨codec, ← kludgeForCodec codec⟩
  | none => .ok chosen
where
  chosen : Charset :=
    chooseOutboundCharset lib [message.toName, message.fromName, message.subject, message.body,
      message.origin.getD [], message.tearLine.getD []]

def areaLines (message : FtnMessage) : Except FtnError (List Text) :=
  match message.area with
  | none => .ok []
  | some tag => do
    refuseIf (isAreaTag tag = false)
      (formatError "echo tag %r is not 1-%d printable characters" [.int maxAreaTag])
    pure ["AREA:".toList ++ tag]

def kludgeLines (message : FtnMessage) (charset : Charset) : List Text :=
  (message.kludges.filter (fun kludge => !namesCharset lib kludge) ++
    [("CHRS".toList, charset.kludge.toList)]).map (formatKludge lib)

def bodyLines (message : FtnMessage) : List Text :=
  let body := plain message.body
  if body = [] then [] else body.splitOn '\n'

def tearLines (message : FtnMessage) : List Text :=
  message.tearLine.toList.map fun tear => Text.rstrip ("--- ".toList ++ plain tear)

def originLines (message : FtnMessage) : List Text :=
  message.origin.toList.map fun origin =>
    (" * Origin: ".toList ++ plain origin).take maxOriginLine

def seenByLines (message : FtnMessage) : List Text :=
  formatNetNodeLines "SEEN-BY: " (sortedEntries message.seenBy) maxControlLine

def pathLines (message : FtnMessage) : List Text :=
  (formatNetNodeLines "PATH: " message.path (maxControlLine - 1)).map (kludgeMark :: ·)

def messageLines (message : FtnMessage) (charset : Charset) : Except FtnError (List Text) := do
  let area ← areaLines message
  pure (area ++ kludgeLines lib message charset ++ bodyLines message ++ tearLines message ++
    originLines message ++ seenByLines message ++
    message.trailingKludges.map (formatKludge lib) ++ pathLines message)

/-- `encode_message`; `now` is the local time, for a message without a date. -/
def encodeMessage (now : DateTime) (message : FtnMessage) : Except FtnError PackedMessage := do
  let charset ← outboundCharset lib message
  let lines ← messageLines lib message charset
  let codec ← orRefuse (lib.codec charset.codec) (.lookupError "unknown encoding: %s")
  pure
    { origNet := message.origNet
      origNode := message.origNode
      destNet := message.destNet
      destNode := message.destNode
      attributes := message.attributes
      cost := 0
      date := encodeAsciiReplace (String.ofList (formatFtsDate (message.date.getD now)))
      toName := codec.truncateEncoded maxNameBytes message.toName
      fromName := codec.truncateEncoded maxNameBytes message.fromName
      subject := codec.truncateEncoded maxSubjectBytes message.subject
      text := codec.encode (lines.flatMap fun line => line ++ ['\r']) }

end NetBBS
