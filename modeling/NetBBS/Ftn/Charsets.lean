import NetBBS.Ftn.Address
import NetBBS.Python.Encoding
import NetBBS.Python.Text

/-! # Character sets of FTN messages -/

namespace NetBBS

open Foundation

structure Codec where
  /-- The bytes of one character. -/
  encodeChar : Char → Option (List UInt8)
  /-- `data.decode(codec, errors="replace")`. -/
  decode : List UInt8 → Text

def identifiers : List (String × String) :=
  [("ASCII", "ascii"), ("CP437", "cp437"), ("CP850", "cp850"), ("CP852", "cp852"),
    ("CP857", "cp857"), ("CP858", "cp858"), ("CP860", "cp860"), ("CP861", "cp861"),
    ("CP863", "cp863"), ("CP865", "cp865"), ("CP866", "cp866"), ("CP1250", "cp1250"),
    ("CP1251", "cp1251"), ("CP1252", "cp1252"), ("LATIN-1", "latin-1"), ("LATIN-2", "iso8859-2"),
    ("LATIN-5", "iso8859-9"), ("LATIN-9", "iso8859-15"), ("ISO-8859-1", "latin-1"),
    ("KOI8-R", "koi8-r"), ("KOI8-U", "koi8-u"), ("MAC", "mac-roman"), ("UTF-8", "utf-8"),
    ("IBMPC", "cp437"), ("+7_FIDO", "cp866")]

def namedCodecs : List String := identifiers.map Prod.snd

structure TextLibrary where
  /-- `str.upper`. -/
  upper : Text → Text
  /-- `str.isdigit` of one character. -/
  isDigit : Char → Bool
  /-- The value `int` gives a character, if it takes it for a digit. -/
  decimal : Char → Option Nat
  isDigit_of_decimal : ∀ c, (decimal c).isSome = true → isDigit c = true
  /-- `codecs.lookup`; `none` where it raises `LookupError`. -/
  codec : String → Option Codec
  codec_named : ∀ name ∈ namedCodecs, (codec name).isSome

structure Charset where
  codec : String
  kludge : String

def cp437 : Charset := ⟨"cp437", "CP437 2"⟩

def utf8 : Charset := ⟨"utf-8", "UTF-8 4"⟩

def maxNameBytes : Nat := 35
def maxSubjectBytes : Nat := 71

def maxIntDigits : Nat := 4300

variable (lib : TextLibrary)

/-- `text.isdigit()`. -/
def isDigitText (text : Text) : Bool := !text.isEmpty && text.all lib.isDigit

/-- `int(text)` of a text of digits. -/
def intOfDigits (text : Text) : Except FtnError Nat := do
  refuseIf (maxIntDigits < text.length)
    (.valueError "Exceeds the limit (4300 digits) for integer string conversion")
  let digits ← orRefuse (text.mapM lib.decimal)
    (.valueError "invalid literal for int() with base 10: %r")
  pure (digits.foldl (fun n digit => 10 * n + digit) 0)

def isCodec (name : String) : Bool := (lib.codec name).isSome

def codecForKludge (value codepage : Option Text) (default : String) :
    Except FtnError String := do
  match Text.split (value.getD []) with
  -- No value, or none but white space.
  | [] => pure default
  | first :: _ =>
    let identifier := lib.upper first
    let named := (identifiers.lookup (String.ofList identifier)).getD default
    let page := Text.strip (codepage.getD [])
    if identifier = "IBMPC".toList ∧ isDigitText lib page = true then
      let candidate := "cp" ++ String.ofList (Nat.toDigits 10 (← intOfDigits lib page))
      pure (if isCodec lib candidate then candidate else named)
    else pure named

/-- `decode`. -/
def decodeText (codec : String) (data : List UInt8) : Except FtnError Text := do
  let found ← orRefuse (lib.codec codec) (.lookupError "unknown encoding: %s")
  pure (found.decode data)

def legacyIdentifiers : List String := ["IBMPC", "+7_FIDO", "ISO-8859-1"]

def kludgeForCodec (codec : String) : Except FtnError String := do
  let (name, _) ← orRefuse
    (identifiers.find? fun e => e.2 = codec && !legacyIdentifiers.contains e.1)
    (.valueError "no CHRS identifier for codec %r")
  let level := if name = "UTF-8" then "4" else if name = "ASCII" then "1" else "2"
  pure (name ++ " " ++ level)

/-- `text.encode(codec, errors="replace")`. -/
def Codec.encode (codec : Codec) (text : Text) : List UInt8 :=
  text.flatMap fun c => (codec.encodeChar c).getD [63]

def Codec.encodable (codec : Codec) (text : Text) : Bool :=
  text.all fun c => (codec.encodeChar c).isSome

def Codec.truncateEncoded (codec : Codec) (room : Nat) : Text → List UInt8
  | [] => []
  | c :: rest =>
    let piece := (codec.encodeChar c).getD [63]
    if room < piece.length then [] else piece ++ codec.truncateEncoded (room - piece.length) rest

structure Codec.Faithful (codec : Codec) : Prop where
  ascii : ∀ c : Char, c.toNat < 128 → codec.encodeChar c = some [c.toNat.toUInt8]
  above : ∀ (c : Char) bytes, 128 ≤ c.toNat → codec.encodeChar c = some bytes → ∀ b ∈ bytes, 128 ≤ b
  decode_encode : ∀ text, codec.encodable text = true → codec.decode (codec.encode text) = text

structure TextLibrary.Standard (lib : TextLibrary) : Prop where
  decimal_digit : ∀ c : Char, c.isDigit = true → lib.decimal c = some (c.toNat - 48)
  upper_ascii : ∀ text : Text, (∀ c ∈ text, c.toNat < 128) → lib.upper text = text.map Char.toUpper
  faithful : ∀ name ∈ namedCodecs, ∀ codec, lib.codec name = some codec → codec.Faithful

end NetBBS
