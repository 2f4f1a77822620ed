import NetBBS.Foundation.GlyphRow
import NetBBS.Python.WireJson

/-! # Cells, pens and colours -/

namespace NetBBS.Rendering

open WireJson (digitsValue)

inductive Color where
  | indexed (index : Fin 256)
  | rgb (r g b : Fin 256)
deriving DecidableEq

/-- The attributes the next printed character gets. -/
structure Pen where
  fg : Option Color := none
  bg : Option Color := none
  bold : Bool := false
  underline : Bool := false
  reverse : Bool := false
deriving DecidableEq

structure Cell extends Pen where
  char : PyStr := [0x20]
deriving DecidableEq

/-- `_BLANK`. -/
def blankCell : Cell := {}

def blankRow (width : Nat) : List Cell := List.replicate width blankCell

def penCell (pen : Pen) (ch : CodePoint) : Cell := { pen with char := [ch] }

structure UnicodeData where
  isPrintable : CodePoint → Bool
  combining : CodePoint → Bool
  /-- `unicodedata.category` is `Cc` or `Cf`. -/
  controlOrFormat : CodePoint → Bool
  /-- `unicodedata.east_asian_width` is `W` or `F`. -/
  eastAsianWide : CodePoint → Bool
  ascii : ∀ ch, 0x20 ≤ ch → ch ≤ 0x7E → isPrintable ch = true ∧ combining ch = false ∧
    controlOrFormat ch = false ∧ eastAsianWide ch = false

def charWidth (data : UnicodeData) (ch : CodePoint) : Nat :=
  if data.combining ch = true then 0
  else if data.controlOrFormat ch = true then 0
  else if data.eastAsianWide ch = true then 2
  else 1

def clampByte (value : Nat) : Fin 256 := ⟨min 255 value, by omega⟩

def Pen.setColor (pen : Pen) (code : Nat) (color : Color) : Pen :=
  if code = 38 then { pen with fg := some color } else { pen with bg := some color }

def sgrCode (pen : Pen) (code : Nat) : Pen :=
  if code = 0 then {}
  else if code = 1 then { pen with bold := true }
  else if code = 22 then { pen with bold := false }
  else if code = 4 then { pen with underline := true }
  else if code = 24 then { pen with underline := false }
  else if code = 7 then { pen with reverse := true }
  else if code = 27 then { pen with reverse := false }
  else if 30 ≤ code ∧ code ≤ 37 then { pen with fg := some (.indexed (clampByte (code - 30))) }
  else if 90 ≤ code ∧ code ≤ 97 then { pen with fg := some (.indexed (clampByte (code - 90 + 8))) }
  else if code = 39 then { pen with fg := none }
  else if 40 ≤ code ∧ code ≤ 47 then { pen with bg := some (.indexed (clampByte (code - 40))) }
  else if 100 ≤ code ∧ code ≤ 107 then
    { pen with bg := some (.indexed (clampByte (code - 100 + 8))) }
  else if code = 49 then { pen with bg := none }
  else pen

def applySgrLoop (pen : Pen) : List Nat → Pen
  | [] => pen
  | code :: params =>
    if code = 38 ∨ code = 48 then
      match params with
      | 5 :: color :: rest =>
        applySgrLoop (pen.setColor code (.indexed (clampByte color))) rest
      | 2 :: r :: g :: b :: rest =>
        applySgrLoop (pen.setColor code (.rgb (clampByte r) (clampByte g) (clampByte b))) rest
      | params => applySgrLoop pen params
    else applySgrLoop (sgrCode pen code) params

def applySgr (pen : Pen) (params : List Nat) : Pen :=
  applySgrLoop pen (if params = [] then [0] else params)

def isAsciiNumber (text : PyStr) : Bool := !text.isEmpty && text.all CodePoint.isDigit

def numberOr (text : PyStr) : Nat := if isAsciiNumber text = true then digitsValue text else 0

def semicolon : CodePoint := 0x3B

def colon : CodePoint := 0x3A

instance (text : PyStr) : Decidable (colon ∈ text) := inferInstance

def sgrFields (part : PyStr) : List Nat :=
  if colon ∉ part then [numberOr part]
  else
    let numbers := (part.splitOn colon).map numberOr
    let first := numbers.headD 0
    let kind := numbers.getD 1 0
    if (first = 38 ∨ first = 48) ∧ 3 ≤ numbers.length ∧ kind = 5 then
      [first, 5, numbers.getD 2 0]
    else if (first = 38 ∨ first = 48) ∧ 5 ≤ numbers.length ∧ kind = 2 then
      -- The colour space may be left out.
      let rgb := if 6 ≤ numbers.length then (numbers.drop 3).take 3 else (numbers.drop 2).take 3
      first :: 2 :: rgb
    else [first]

def sgrParamsWithColons (body : PyStr) : List Nat := (body.splitOn semicolon).flatMap sgrFields

def csiParams (body : PyStr) : List Nat :=
  if body = [] then []
  else (body.splitOn semicolon).map fun part =>
    if isAsciiNumber part = true then digitsValue part
    else digitsValue (part.filter CodePoint.isDigit)

end NetBBS.Rendering
