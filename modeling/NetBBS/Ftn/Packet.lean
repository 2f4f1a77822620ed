import Mathlib.Data.List.Infix
import NetBBS.Foundation.PackedRecord
import NetBBS.Ftn.Address
import NetBBS.Python.DateTime

/-! # FTN packets -/

namespace NetBBS

open Foundation

def headerBytes : Nat := 58
def packetVersion : Nat := 2
def maxPacketBytes : Nat := 16 * 1024 * 1024
def maxMessages : Nat := 10000
def maxTextBytes : Nat := 1024 * 1024

-- Field sizes including the terminating NUL.
def toFromField : Nat := 36
def subjectField : Nat := 72
def dateField : Nat := 20
def passwordField : Nat := 8

def capability2plus : Nat := 0x0001

def productCode : Nat := 0xFE

/-- `"<12H2B8s4H2B5H4s"`. -/
@[reducible] def headerFormat : List PackedField :=
  [.u16, .u16, .u16, .u16, .u16, .u16, .u16, .u16, .u16, .u16, .u16, .u16, .u8, .u8, .bytes 8,
    .u16, .u16, .u16, .u16, .u8, .u8, .u16, .u16, .u16, .u16, .u16, .bytes 4]

/-- `"<7H"`. -/
@[reducible] def messageHead : List PackedField := [.u16, .u16, .u16, .u16, .u16, .u16, .u16]

structure PacketHeader where
  orig : FtnAddress
  dest : FtnAddress
  created : Option DateTime
  password : String := ""
  productCode : Nat := NetBBS.productCode
  productVersion : Nat × Nat := (0, 0)
  kind : String := "2+"

structure PackedMessage where
  origNet : Nat
  origNode : Nat
  destNet : Nat
  destNode : Nat
  attributes : Nat
  cost : Nat
  date : List UInt8
  toName : List UInt8
  fromName : List UInt8
  subject : List UInt8
  text : List UInt8
deriving DecidableEq

structure Packet where
  header : PacketHeader
  messages : List PackedMessage
  truncated : Bool

inductive MessageFault where
  | truncated
  | error (e : FtnError)

/-- `text.encode("ascii", errors="replace")`. -/
def encodeAsciiReplace (text : String) : List UInt8 :=
  text.toList.map fun c => if c.toNat < 128 then c.toNat.toUInt8 else '?'.toNat.toUInt8

/-- `raw.decode("ascii", errors="replace")`. -/
def decodeAsciiReplace (raw : List UInt8) : String :=
  String.ofList (raw.map fun b => if b < 128 then Char.ofNat b.toNat else '\uFFFD')

/-- `raw.split(b"\x00", 1)[0]`. -/
def untilNul (raw : List UInt8) : List UInt8 := raw.takeWhile (· ≠ 0)

/-- `raw.ljust(width, b"\x00")`. -/
def ljustNul (width : Nat) (raw : List UInt8) : List UInt8 :=
  raw ++ List.replicate (width - raw.length) 0

/-- `x or y` of two numbers. -/
def orNumber (x y : Nat) : Nat := if x = 0 then y else x

/-- `_header_time`: the month counts from 0, and a nonsensical date is no date. -/
def headerTime (year month day hour minute second : Nat) : Option DateTime :=
  DateTime.make year (month + 1) day hour minute second

def parseHeader (raw : List UInt8) : Except FtnError PacketHeader := do
  let ⟨origNode, destNode, year, month, day, hour, minute, second, baud, version,
    origNet, destNet, productLow, revisionMajor, password, qOrigZone, qDestZone,
    auxNet, capabilityCopy, productHigh, revisionMinor, capability, origZone, destZone,
    origPoint, destPoint, _productData, _⟩ ← orRefuse (PackedRecord.unpack headerFormat raw)
      .structError
  refuseIf (version ≠ packetVersion) (formatError "packet version %d is not 2" [.int version])
  refuseIf (baud = 2) (formatError "Type 2.2 (FSC-0045) packets are not supported" [])
  let swapped := (capabilityCopy % 256) * 256 + capabilityCopy / 256
  let created := headerTime year month day hour minute second
  let password := decodeAsciiReplace (untilNul password)
  let productVersion := (revisionMajor, revisionMinor)
  if capability % 2 = capability2plus ∧ swapped = capability then
    -- A point sender of Type 2+; FSC-0039 writes the real net here.
    let origNet := if origNet = 0xFFFF ∧ origPoint ≠ 0 then auxNet else origNet
    let orig ← FtnAddress.make (orNumber origZone qOrigZone) origNet origNode origPoint
    let dest ← FtnAddress.make (orNumber destZone qDestZone) destNet destNode destPoint
    let productCode := productHigh * 256 + productLow
    pure { orig, dest, created, password, productCode, productVersion, kind := "2+" }
  else
    refuseIf (origNet = 0xFFFF) (formatError "a Type 2 packet cannot come from net -1" [])
    let orig ← FtnAddress.make qOrigZone origNet origNode 0
    let dest ← FtnAddress.make qDestZone destNet destNode 0
    let productCode := productLow
    pure { orig, dest, created, password, productCode, productVersion, kind := "2" }

/-- `_build_header`; `now` is the local time, for a header without one. -/
def buildHeader (now : DateTime) (header : PacketHeader) : Except FtnError (List UInt8) := do
  let orig := header.orig
  let dest := header.dest
  let created := header.created.getD now
  let password := encodeAsciiReplace header.password
  refuseIf (password.length > passwordField)
    (formatError "packet password is longer than %d bytes" [.int passwordField])
  let capability := capability2plus
  let swapped := (capability % 256) * 256 + capability / 256
  let product := header.productCode
  orRefuse (PackedRecord.pack headerFormat ⟨orig.node, dest.node,
      created.year, created.month - 1, created.day, created.hour, created.minute, created.second,
      0, packetVersion,
      if orig.point ≠ 0 then 0xFFFF else orig.net, dest.net,
      product % 256, header.productVersion.1, ljustNul passwordField password, orig.zone, dest.zone,
      if orig.point ≠ 0 then orig.net else 0,
      swapped, product / 256 % 256, header.productVersion.2, capability, orig.zone, dest.zone,
      orig.point, dest.point, List.replicate 4 0, ()⟩) .structError

/-- `data.find(b"\x00", start, stop)`. -/
def findNul (data : List UInt8) (start stop : Nat) : Option Nat :=
  (((data.take stop).drop start).findIdx? (· = 0)).map (start + ·)

def readString (data : List UInt8) (offset limit : Nat) (what : String) :
    Except MessageFault (List UInt8 × Nat) :=
  match findNul data offset (offset + limit) with
  | some stop => .ok ((data.take stop).drop offset, stop + 1)
  | none =>
    if offset + limit > data.length then .error .truncated
    else .error (.error (formatError "%s has no terminating NUL within %d bytes"
      [.str what, .int limit]))

def parseMessage (data : List UInt8) (offset : Nat) :
    Except MessageFault (PackedMessage × Nat) := do
  refuseIf (offset + PackedRecord.size messageHead + dateField > data.length) .truncated
  let ⟨_version, origNode, destNode, origNet, destNet, attributes, cost, _⟩ ←
    orRefuse (PackedRecord.unpack messageHead (data.drop offset)) (.error .structError)
  let offset := offset + PackedRecord.size messageHead
  let date := (untilNul ((data.drop offset).take dateField)).take (dateField - 1)
  let offset := offset + dateField
  let (toName, offset) ← readString data offset toFromField "To name"
  let (fromName, offset) ← readString data offset toFromField "From name"
  let (subject, offset) ← readString data offset subjectField "subject"
  let (text, offset) ← readString data offset (maxTextBytes + 1) "message text"
  pure ({ origNet, origNode, destNet, destNode, attributes, cost, date, toName, fromName,
          subject, text }, offset)

def parseMessages (data : List UInt8) (room offset : Nat) :
    Except FtnError (List PackedMessage × Bool) :=
  match PackedRecord.unpack [.u16] (data.drop offset) with
  | none => .ok ([], true)
  | some (marker, _) =>
    if marker = 0 then .ok ([], false)
    else if marker ≠ packetVersion then
      .error (formatError "packed message at byte %d starts with %#06x, not 0x0002"
        [.int offset, .int marker])
    else
      match room with
      | 0 => .error (formatError "packet holds more than %d messages" [.int maxMessages])
      | room + 1 =>
        match parseMessage data offset with
        | .error .truncated => .ok ([], true)
        | .error (.error e) => .error e
        | .ok (message, offset) => do
          let (messages, truncated) ← parseMessages data room offset
          pure (message :: messages, truncated)

def parsePacket (data : List UInt8) : Except FtnError Packet := do
  refuseIf (data.length > maxPacketBytes)
    (formatError "packet of %d bytes exceeds %d" [.int data.length, .int maxPacketBytes])
  refuseIf (data.length < headerBytes)
    (formatError "packet is shorter than its 58-byte header" [])
  let header ← parseHeader (data.take headerBytes)
  let (messages, truncated) ← parseMessages data maxMessages headerBytes
  pure { header, messages, truncated }

def requireField (value : List UInt8) (limit : Nat) (what : String) : Except FtnError Unit :=
  refuseIf (value.length ≥ limit ∨ 0 ∈ value)
    (formatError "%s must be under %d bytes with no NUL" [.str what, .int limit])

def packMessage (message : PackedMessage) : Except FtnError (List UInt8) := do
  requireField message.toName toFromField "To name"
  requireField message.fromName toFromField "From name"
  requireField message.subject subjectField "subject"
  requireField message.date dateField "date"
  refuseIf (message.text.length > maxTextBytes ∨ 0 ∈ message.text)
    (formatError "message text must be at most %d bytes with no NUL" [.int maxTextBytes])
  let head ← orRefuse (PackedRecord.pack messageHead
    ⟨packetVersion, message.origNode, message.destNode, message.origNet, message.destNet,
      message.attributes, message.cost, ()⟩) .structError
  pure (head ++ ljustNul dateField message.date ++ message.toName ++ [0] ++ message.fromName ++ [0]
    ++ message.subject ++ [0] ++ message.text ++ [0])

def buildPacketFromPacked (now : DateTime) (header : PacketHeader) (packed : List (List UInt8)) :
    Except FtnError (List UInt8) := do
  pure ((← buildHeader now header) ++ packed.flatten ++ [0, 0])

def buildPacket (now : DateTime) (header : PacketHeader) (messages : List PackedMessage) :
    Except FtnError (List UInt8) := do
  buildPacketFromPacked now header (← messages.mapM packMessage)

end NetBBS
