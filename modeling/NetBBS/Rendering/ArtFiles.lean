import Mathlib.Data.List.DropRight
import NetBBS.Foundation.PackedRecord
import NetBBS.Rendering.Cells

/-! # ANSI art files -/

namespace NetBBS.Rendering

open Foundation List
open WireJson (digitsValue maxStrDigits)

/-- The upper half of CP437. -/
def cp437Upper : List CodePoint :=
  [0x00C7, 0x00FC, 0x00E9, 0x00E2, 0x00E4, 0x00E0, 0x00E5, 0x00E7, 0x00EA, 0x00EB, 0x00E8, 0x00EF,
    0x00EE, 0x00EC, 0x00C4, 0x00C5, 0x00C9, 0x00E6, 0x00C6, 0x00F4, 0x00F6, 0x00F2, 0x00FB, 0x00F9,
    0x00FF, 0x00D6, 0x00DC, 0x00A2, 0x00A3, 0x00A5, 0x20A7, 0x0192, 0x00E1, 0x00ED, 0x00F3, 0x00FA,
    0x00F1, 0x00D1, 0x00AA, 0x00BA, 0x00BF, 0x2310, 0x00AC, 0x00BD, 0x00BC, 0x00A1, 0x00AB, 0x00BB,
    0x2591, 0x2592, 0x2593, 0x2502, 0x2524, 0x2561, 0x2562, 0x2556, 0x2555, 0x2563, 0x2551, 0x2557,
    0x255D, 0x255C, 0x255B, 0x2510, 0x2514, 0x2534, 0x252C, 0x251C, 0x2500, 0x253C, 0x255E, 0x255F,
    0x255A, 0x2554, 0x2569, 0x2566, 0x2560, 0x2550, 0x256C, 0x2567, 0x2568, 0x2564, 0x2565, 0x2559,
    0x2558, 0x2552, 0x2553, 0x256B, 0x256A, 0x2518, 0x250C, 0x2588, 0x2584, 0x258C, 0x2590, 0x2580,
    0x03B1, 0x00DF, 0x0393, 0x03C0, 0x03A3, 0x03C3, 0x00B5, 0x03C4, 0x03A6, 0x0398, 0x03A9, 0x03B4,
    0x221E, 0x03C6, 0x03B5, 0x2229, 0x2261, 0x00B1, 0x2265, 0x2264, 0x2320, 0x2321, 0x00F7, 0x2248,
    0x00B0, 0x2219, 0x00B7, 0x221A, 0x207F, 0x00B2, 0x25A0, 0x00A0]

def cp437Char (byte : UInt8) : CodePoint :=
  if byte < 0x80 then Fin.ofNat 0x110000 byte.toNat else cp437Upper.getD (byte.toNat - 0x80) 0

/-- A character encoded in CP437, if it is in it. -/
def cp437Byte (c : CodePoint) : Option UInt8 :=
  if c.val < 0x80 then some (UInt8.ofNat c.val)
  else (cp437Upper.findIdx? (· = c)).map fun index => UInt8.ofNat (0x80 + index)

def artPictographs : List (CodePoint × CodePoint) :=
  [(0x01, 0x263A), (0x02, 0x263B), (0x03, 0x2665), (0x04, 0x2666), (0x05, 0x2663), (0x06, 0x2660),
    (0x0B, 0x2642), (0x0C, 0x2640), (0x0E, 0x266B), (0x0F, 0x263C), (0x10, 0x25BA), (0x11, 0x25C4),
    (0x12, 0x2195), (0x13, 0x203C), (0x14, 0x00B6), (0x15, 0x00A7), (0x16, 0x25AC), (0x17, 0x21A8),
    (0x18, 0x2191), (0x19, 0x2193), (0x1C, 0x221F), (0x1D, 0x2194), (0x1E, 0x25B2), (0x1F, 0x25BC),
    (0x7F, 0x2302)]

def pictographToGlyph (c : CodePoint) : CodePoint := (artPictographs.lookup c).getD c

def glyphToControl (c : CodePoint) : CodePoint :=
  ((artPictographs.map Prod.swap).lookup c).getD c

def artChar (byte : UInt8) : CodePoint := pictographToGlyph (cp437Char byte)
def artByte (c : CodePoint) : UInt8 := (cp437Byte (glyphToControl c)).getD 0x3F

def decodeCp437Art (data : List UInt8) : PyStr := data.map artChar

def encodeCp437Art (text : PyStr) : List UInt8 := text.map artByte

/-- What the saved art tells of a cell besides its character. -/
structure Style where
  fg : Option Color := none
  bg : Option Color := none
  bold : Bool := false
deriving DecidableEq

def Cell.style (cell : Cell) : Style := ⟨cell.fg, cell.bg, cell.bold⟩

def digitsText (n : Nat) : PyStr := (Nat.toDigits 10 n).map CodePoint.ofChar

/-- `ESC [ params m`. -/
def sgrText (params : List Nat) : PyStr :=
  0x1B :: 0x5B :: ([semicolon].intercalate (params.map digitsText) ++ [0x6D])

/-- `RESET`. -/
def resetText : PyStr := sgrText [0]

/-- `fg`, `fg_rgb`, `bg` and `bg_rgb`, by the code of the extended colour. -/
def colorText (code : Nat) : Option Color → PyStr
  | none => []
  | some (.indexed index) => sgrText [code, 5, index]
  | some (.rgb r g b) => sgrText [code, 2, r, g, b]

def styleText (style : Style) : PyStr :=
  resetText ++ (if style.bold = true then sgrText [1] else []) ++ colorText 38 style.fg ++
    colorText 48 style.bg

def rowText (current : Option Style) : List Cell → PyStr
  | [] => []
  | cell :: rest =>
    (if current = some cell.style then [] else styleText cell.style) ++ cell.char ++
      rowText (some cell.style) rest

def canvasText (rows : List (List Cell)) : PyStr :=
  (rows.flatMap fun row => rowText none row ++ [0x0D, 0x0A]) ++ resetText

def encodeAnsiBytes (rows : List (List Cell)) : List UInt8 := encodeCp437Art (canvasText rows)

structure SauceArgs where
  width : Int
  lines : Int
  title : PyStr := []
  author : PyStr := []
  group : PyStr := []
  date : PyStr := []
  iceColors : Bool := false
  font : PyStr := PyStr.ofString "IBM VGA"
  fileSize : Nat := 0
  comments : List PyStr := []

structure Sauce where
  title : PyStr
  author : PyStr
  group : PyStr
  date : PyStr
  fileSize : Nat
  dataType : Nat
  fileType : Nat
  tinfo1 : Nat
  tinfo2 : Nat
  tinfo3 : Nat
  tinfo4 : Nat
  tflags : Nat
  font : PyStr
  comments : List PyStr

def sauceRecordSize : Nat := 128
def commentLineSize : Nat := 64
def eof : UInt8 := 0x1A

/-- `b"SAUCE"` and `b"COMNT"`. -/
def recordId : List UInt8 := [0x53, 0x41, 0x55, 0x43, 0x45]
def commentId : List UInt8 := [0x43, 0x4F, 0x4D, 0x4E, 0x54]

/-- `_LAYOUT`; the 32 bits of the file size are two fields of 16, the low half first. -/
def sauceLayout : List PackedField :=
  [.bytes 5, .bytes 2, .bytes 35, .bytes 20, .bytes 20, .bytes 8, .u16, .u16, .u8, .u8,
    .u16, .u16, .u16, .u16, .u8, .u8, .bytes 22]

/-- `_text`. -/
def sauceText (field : List UInt8) : PyStr :=
  (field.map cp437Char).rdropWhile fun c => c = 0 || c = 0x20

/-- `text[:size].ljust(size, fill)` of encoded text. -/
def padded (bytes : List UInt8) (size : Nat) (fill : UInt8) : List UInt8 :=
  bytes.take size ++ List.replicate (size - (bytes.take size).length) fill

/-- `field` of `build_sauce`. -/
def sauceField (value : PyStr) (size : Nat) : List UInt8 :=
  padded (value.map fun c => (cp437Byte c).getD 0x3F) size 0x20

def fontField (value : PyStr) : List UInt8 :=
  padded (value.map fun c => if c.val < 0x80 then UInt8.ofNat c.val else 0x3F) 22 0

/-- `max(0, min(value, 0xFFFF))`. -/
def clampWord (value : Int) : Nat := (max 0 (min value 0xFFFF)).toNat

def sauceRecord (args : SauceArgs) : PackedRecord sauceLayout :=
  (recordId, [0x30, 0x30], sauceField args.title 35, sauceField args.author 20,
    sauceField args.group 20, sauceField args.date 8, args.fileSize % 65536,
    args.fileSize / 65536 % 65536, 1, 1, clampWord args.width, clampWord args.lines, 0, 0,
    (args.comments.take 255).length, if args.iceColors = true then 1 else 0, fontField args.font, ())

def commentBlock (lines : List PyStr) : List UInt8 :=
  if lines = [] then []
  else commentId ++ lines.flatMap fun line => sauceField line commentLineSize

def buildSauce (args : SauceArgs) : List UInt8 :=
  [eof] ++ commentBlock (args.comments.take 255) ++
    PackedRecord.encode sauceLayout (sauceRecord args)

def commentTexts : Nat → List UInt8 → List PyStr
  | 0, _ => []
  | count + 1, raw =>
    sauceText (raw.take commentLineSize) :: commentTexts count (raw.drop commentLineSize)

def splitComments (body : List UInt8) (count : Nat) : List UInt8 × List PyStr :=
  let block := commentId.length + commentLineSize * count
  if count ≠ 0 ∧ block ≤ body.length ∧ commentId <+: body.drop (body.length - block) then
    (body.take (body.length - block), commentTexts count (body.drop (body.length - block + commentId.length)))
  else (body, [])

/-- `body[:body.find(EOF)]`. -/
def cutAtEof (body : List UInt8) : List UInt8 := body.takeWhile (· ≠ eof)

def splitSauce (data : List UInt8) : List UInt8 × Option Sauce :=
  let start := data.length - sauceRecordSize
  if sauceRecordSize ≤ data.length ∧ recordId <+: data.drop start then
    let (_, _, title, author, group, date, sizeLow, sizeHigh, dataType, fileType, tinfo1, tinfo2,
      tinfo3, tinfo4, count, tflags, font, _) := PackedRecord.decode sauceLayout (data.drop start)
    let split := splitComments (data.take start) count
    (cutAtEof split.1, some {
      title := sauceText title
      author := sauceText author
      group := sauceText group
      date := sauceText date
      fileSize := sizeLow + 65536 * sizeHigh
      dataType, fileType, tinfo1, tinfo2, tinfo3, tinfo4, tflags
      font := sauceText font
      comments := split.2 })
  else (cutAtEof data, none)

def decodeArtBytes (data : List UInt8) : PyStr × Option Sauce :=
  let split := splitSauce data
  if split.2.isSome = true then (decodeCp437Art split.1, split.2)
  else
    match PyStr.decodeUtf8 false split.1 with
    | some text => (text.map pictographToGlyph, none)
    | none => (decodeCp437Art split.1, none)

/-- `int` of a text; `none` where it raises `ValueError`. -/
structure NumberReader where
  int : PyStr → Option Int
  int_digits : ∀ text, isAsciiNumber text = true → text.length ≤ maxStrDigits →
    int text = some (digitsValue text)

structure ArtBuffer where
  width : Nat
  height : Nat
  rows : List (List Cell)

def ArtBuffer.blank (width height : Nat) : ArtBuffer :=
  ⟨width, height, List.replicate height (blankRow width)⟩

/-- `write_cell`; `none` where it raises. -/
def ArtBuffer.writeCell (buffer : ArtBuffer) (row col : Int) (cell : Cell) : Option ArtBuffer :=
  if 0 ≤ row ∧ row < buffer.height ∧ 0 ≤ col ∧ col < buffer.width then
    some { buffer with
      rows := buffer.rows.take row.toNat ++
        match buffer.rows.drop row.toNat with
        | [] => []
        | found :: below => found.set col.toNat cell :: below }
  else none

structure ArtParser where
  buffer : ArtBuffer
  row : Int := 0
  col : Int := 0
  style : Style := {}
  pendingWrap : Bool := false

def clampColor (value : Int) : Fin 256 := clampByte value.toNat

/-- One SGR parameter by itself. -/
def artCode (style : Style) (code : Int) : Style :=
  if code = 0 then {}
  else if code = 1 then { style with bold := true }
  else if code = 22 then { style with bold := false }
  else if 30 ≤ code ∧ code ≤ 37 then { style with fg := some (.indexed (clampColor (code - 30))) }
  else if 90 ≤ code ∧ code ≤ 97 then
    { style with fg := some (.indexed (clampColor (code - 90 + 8))) }
  else if code = 39 then { style with fg := none }
  else if 40 ≤ code ∧ code ≤ 47 then { style with bg := some (.indexed (clampColor (code - 40))) }
  else if 100 ≤ code ∧ code ≤ 107 then
    { style with bg := some (.indexed (clampColor (code - 100 + 8))) }
  else if code = 49 then { style with bg := none }
  else style

def Style.setColor (style : Style) (code : Int) (color : Color) : Style :=
  if code = 38 then { style with fg := some color } else { style with bg := some color }

def artSgrLoop (style : Style) : List Int → Style
  | [] => style
  | code :: params =>
    if code = 38 ∨ code = 48 then
      match params with
      | 5 :: color :: rest => artSgrLoop (style.setColor code (.indexed (clampColor color))) rest
      | 2 :: r :: g :: b :: rest =>
        artSgrLoop (style.setColor code (.rgb (clampColor r) (clampColor g) (clampColor b))) rest
      | params => artSgrLoop style params
    else artSgrLoop (artCode style code) params

/-- `_apply_sgr`. -/
def artSgr (style : Style) (params : List Int) : Style :=
  artSgrLoop style (if params = [] then [0] else params)

/-- `_parse_params`. -/
def artParams (reader : NumberReader) (text : PyStr) : List Int :=
  if text = [] then [] else (text.splitOn semicolon).map fun part => (reader.int part).getD 0

/-- `params[index] if params[index] else 1`, where there are so many. -/
def orOne (params : List Int) (index : Nat) : Int :=
  if params.getD index 0 = 0 then 1 else params.getD index 0

def ArtParser.csi (s : ArtParser) (params : List Int) (final : CodePoint) : ArtParser :=
  if final = 0x48 ∨ final = 0x66 then
    { s with row := max 0 (orOne params 0 - 1), col := max 0 (orOne params 1 - 1),
             pendingWrap := false }
  else if final = 0x41 then { s with row := max 0 (s.row - orOne params 0), pendingWrap := false }
  else if final = 0x42 then { s with row := s.row + orOne params 0, pendingWrap := false }
  else if final = 0x43 then { s with col := s.col + orOne params 0, pendingWrap := false }
  else if final = 0x44 then { s with col := max 0 (s.col - orOne params 0), pendingWrap := false }
  else if final = 0x4A ∧ (params = [] ∨ params.headD 0 = 0 ∨ params.headD 0 = 2) then
    { s with buffer := .blank s.buffer.width s.buffer.height, row := 0, col := 0,
             pendingWrap := false }
  else if final = 0x6D then { s with style := artSgr s.style params }
  else s

def ArtParser.wrap (s : ArtParser) : ArtParser :=
  if s.pendingWrap = true then { s with col := 0, row := s.row + 1, pendingWrap := false } else s

/-- A character; `none` where writing it raises. -/
def ArtParser.put (s : ArtParser) (c : CodePoint) : Option ArtParser := do
  let s := s.wrap
  let cell : Cell :=
    { fg := s.style.fg, bg := s.style.bg, bold := s.style.bold, char := [c] }
  let buffer ←
    if s.row < s.buffer.height ∧ s.col < s.buffer.width then s.buffer.writeCell s.row s.col cell
    else some s.buffer
  some (if (s.buffer.width : Int) - 1 ≤ s.col then { s with buffer, pendingWrap := true }
    else { s with buffer, col := s.col + 1 })

def isCsiFinal (c : CodePoint) : Bool := 0x40 ≤ c.val && c.val ≤ 0x7E

/-- `parse_ansi_into_buffer`. -/
def ArtParser.parse (reader : NumberReader) (s : ArtParser) (text : PyStr) : Option ArtParser :=
  match text with
  | [] => some s
  | c :: rest =>
    if c = 0x1B then
      if rest.head? = some 0x5B then
        match _h : rest.tail.dropWhile fun c => !isCsiFinal c with
        -- Never finished: only the ESC is skipped.
        | [] => s.parse reader rest
        | final :: after =>
          let params := artParams reader (rest.tail.takeWhile fun c => !isCsiFinal c)
          (s.csi params final).parse reader after
      else s.parse reader rest
    else if c = 0x0D then { s with col := 0, pendingWrap := false }.parse reader rest
    else if c = 0x0A then { s with row := s.row + 1, pendingWrap := false }.parse reader rest
    else
      match s.put c with
      | none => none
      | some s => s.parse reader rest
termination_by text.length
decreasing_by
  all_goals simp only [length_cons]
  all_goals try omega
  have hlength := (dropWhile_sublist (fun c => !isCsiFinal c) (l := rest.tail)).length_le
  rw [_h] at hlength
  simp only [length_cons, length_tail] at hlength
  omega

def loadArt (reader : NumberReader) (width height : Nat) (data : List UInt8) :
    Option (List (List Cell)) :=
  (ArtParser.parse reader ⟨.blank width height, 0, 0, {}, false⟩ (decodeArtBytes data).1).map
    fun s => s.buffer.rows

end NetBBS.Rendering
