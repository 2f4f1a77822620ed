import Mathlib.Algebra.Group.Int.Defs
import Mathlib.Algebra.GroupWithZero.Nat
import Mathlib.Data.List.Sort
import Mathlib.Data.String.Basic
import NetBBS.Python.Json

/-! # Text and binary encodings of the standard library -/

namespace NetBBS

open Foundation

/-- The 6-bit value of a base64 character. -/
def base64Value (c : Char) : Option Nat :=
  if 'A' ≤ c ∧ c ≤ 'Z' then some (c.toNat - 65)
  else if 'a' ≤ c ∧ c ≤ 'z' then some (c.toNat - 71)
  else if '0' ≤ c ∧ c ≤ '9' then some (c.toNat + 4)
  else if c = '+' then some 62
  else if c = '/' then some 63
  else none

/-- `binascii.a2b_base64`: `quad` data characters of the current group of four were read, `left`
holds the bits of the last one not written yet, `pads` counts the `=` since then. -/
def a2bBase64 (quad left pads : Nat) : List Char → Except PyError (List UInt8)
  | [] => if quad = 0 then .ok [] else .error (.valueError "Incorrect padding")
  | c :: rest =>
    if c = '=' then
      if 2 ≤ quad then
        if 4 ≤ quad + (pads + 1) then .ok [] else a2bBase64 quad left (pads + 1) rest
      else a2bBase64 quad left pads rest
    else match base64Value c with
      | none => a2bBase64 quad left pads rest
      | some v =>
        match quad with
        | 0 => a2bBase64 1 v 0 rest
        | 1 => (a2bBase64 2 (v % 16) 0 rest).map ((left * 4 + v / 16).toUInt8 :: ·)
        | 2 => (a2bBase64 3 (v % 4) 0 rest).map ((left * 16 + v / 4).toUInt8 :: ·)
        | _ => (a2bBase64 0 0 0 rest).map ((left * 64 + v).toUInt8 :: ·)

/-- `base64.b64decode(value)`. -/
def b64decode (value : Json) : Except PyError (List UInt8) :=
  match value with
  | .str s =>
    if s.toList.all (fun c => c.toNat < 128) then a2bBase64 0 0 0 s.toList
    else .error (.valueError "string argument should contain only ASCII characters")
  | _ => .error .typeError

/-- `len(s.encode("utf-8"))`, from the characters of `s`. -/
def utf8Length (text : List Char) : Nat := (text.map (fun c => c.utf8Size)).sum

def asciiBytes (text : List Char) : List UInt8 := text.map (fun c => c.toNat.toUInt8)

private def hexDigit (n : Nat) : Char := Nat.digitChar (n % 16)

/-- `raw.hex()`. -/
def hexText (raw : List UInt8) : String :=
  String.ofList (raw.flatMap fun b => [hexDigit (b.toNat / 16), hexDigit b.toNat])

private def byteBits (b : UInt8) : List Nat :=
  [128, 64, 32, 16, 8, 4, 2, 1].map fun weight => b.toNat / weight % 2

private def base32Digit (bits : List Nat) (i : Nat) : Char :=
  let n := (List.range 5).foldl (fun acc j => acc * 2 + bits.getD (5 * i + j) 0) 0
  if n < 26 then Char.ofNat (97 + n) else Char.ofNat (24 + n)

/-- `base64.b32encode(raw).decode("ascii").rstrip("=").lower()`. -/
def base32Text (raw : List UInt8) : String :=
  String.ofList ((List.range ((8 * raw.length + 4) / 5)).map (base32Digit (raw.flatMap byteBits)))

structure DumpStyle where
  itemSeparator : List Char := [',', ' ']
  keySeparator : List Char := [':', ' ']
  sortKeys : Bool := false
  ensureAscii : Bool := true

/-- `separators=(",", ":")`. -/
def DumpStyle.compact : DumpStyle where
  itemSeparator := [',']
  keySeparator := [':']

private def unicodeEscape (n : Nat) : List Char :=
  ['\\', 'u', hexDigit (n / 4096), hexDigit (n / 256), hexDigit (n / 16), hexDigit n]

/-- One character of a JSON string. -/
def escapeChar (ensureAscii : Bool) (c : Char) : List Char :=
  if c = '"' then ['\\', '"']
  else if c = '\\' then ['\\', '\\']
  else if c.toNat = 8 then ['\\', 'b']
  else if c.toNat = 9 then ['\\', 't']
  else if c.toNat = 10 then ['\\', 'n']
  else if c.toNat = 12 then ['\\', 'f']
  else if c.toNat = 13 then ['\\', 'r']
  else if 32 ≤ c.toNat ∧ (c.toNat < 127 ∨ ensureAscii = false) then [c]
  else if c.toNat < 65536 then unicodeEscape c.toNat
  else
    unicodeEscape (0xd800 + (c.toNat - 65536) / 1024) ++
      unicodeEscape (0xdc00 + (c.toNat - 65536) % 1024)

def dumpsString (ensureAscii : Bool) (text : List Char) : List Char :=
  '"' :: text.flatMap (escapeChar ensureAscii) ++ ['"']

/-- `repr` of an integer. -/
def intText (n : Int) : List Char :=
  if n < 0 then '-' :: Nat.toDigits 10 n.natAbs else Nat.toDigits 10 n.natAbs

def sortMembers (members : List (List Char × List Char)) : List (List Char × List Char) :=
  members.insertionSort (fun a b => a.1 ≤ b.1)

mutual

/-- `json.dumps(value)` in the given style, as the characters of the text it returns. -/
def dumps (style : DumpStyle) : Json → List Char
  | .null => ['n', 'u', 'l', 'l']
  | .bool b => if b then ['t', 'r', 'u', 'e'] else ['f', 'a', 'l', 's', 'e']
  | .int n => intText n
  | .float text _ => text.toList
  | .str s => dumpsString style.ensureAscii s.toList
  | .arr items => '[' :: style.itemSeparator.intercalate (dumpsItems style items) ++ [']']
  | .obj members =>
    let rendered := dumpsMembers style members
    let ordered := if style.sortKeys then sortMembers rendered else rendered
    '{' :: style.itemSeparator.intercalate
      (ordered.map fun m => dumpsString style.ensureAscii m.1 ++ style.keySeparator ++ m.2) ++ ['}']

def dumpsItems (style : DumpStyle) : List Json → List (List Char)
  | [] => []
  | item :: rest => dumps style item :: dumpsItems style rest

def dumpsMembers (style : DumpStyle) : List (String × Json) → List (List Char × List Char)
  | [] => []
  | (key, item) :: rest => (key.toList, dumps style item) :: dumpsMembers style rest

end

end NetBBS
