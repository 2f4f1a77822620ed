import NetBBS.Rendering.Cells

/-! # The terminal emulator -/

namespace NetBBS.Rendering

open List

abbrev Row := List Cell

/-- `_state`, with `_sequence` where it is read: `_escape` empties it on the way to the one state that
does. -/
inductive ParserState where
  | ground
  | escape
  | csi (sequence : PyStr)
  | osc
  | oscEscape
  | charset
  | csiIgnore
deriving DecidableEq

structure SavedCursor where
  row : Nat
  col : Nat
  pen : Pen

structure Terminal where
  width : Nat
  height : Nat
  wrapsImmediately : Bool
  rows : List Row
  row : Nat := 0
  col : Nat := 0
  pen : Pen := {}
  cursorVisible : Bool := true
  top : Nat := 0
  bottom : Nat
  wrapPending : Bool := false
  saved : Option SavedCursor := none
  mainRows : Option (List Row) := none
  mainSaved : Option SavedCursor := none
  mainMargins : Nat × Nat
  state : ParserState := .ground

def maxWidth : Nat := 500
def maxHeight : Nat := 200

def maxSequence : Nat := 64

def maxCellChars : Nat := 8

def esc : CodePoint := 0x1B

def clampSize (limit : Nat) (size : Int) : Nat := (max 1 (min size limit)).toNat

def Terminal.reset (t : Terminal) : Terminal where
  width := t.width
  height := t.height
  wrapsImmediately := t.wrapsImmediately
  rows := List.replicate t.height (blankRow t.width)
  bottom := t.height - 1
  mainMargins := (0, t.height - 1)

/-- `TerminalEmulator(width, height, wraps_immediately=...)`. -/
def Terminal.new (width height : Int) (wrapsImmediately : Bool) : Terminal :=
  let width := clampSize maxWidth width
  let height := clampSize maxHeight height
  { width
    height
    wrapsImmediately
    rows := List.replicate height (blankRow width)
    bottom := height - 1
    mainMargins := (0, height - 1) }

def reshapeRow (width : Nat) (row : Row) : Row :=
  let kept := row.take width ++ List.replicate (width - row.length) blankCell
  if row[width]?.map (fun cell => decide (cell.char = [])) = some true ∧
      kept.getLast?.map (fun cell => decide (cell.char = [])) = some false then
    kept.dropLast ++ [blankCell]
  else kept

def reshape (width height : Nat) (grid : List Row) : List Row :=
  (grid.take height).map (reshapeRow width) ++
    List.replicate (height - grid.length) (blankRow width)

def Terminal.resize (t : Terminal) (width height : Int) : Terminal :=
  let width := clampSize maxWidth width
  let height := clampSize maxHeight height
  if width = t.width ∧ height = t.height then t
  else
    { t with
      rows := reshape width height t.rows
      mainRows := t.mainRows.map (reshape width height)
      width
      height
      top := 0
      bottom := height - 1
      mainMargins := (0, height - 1)
      row := min t.row (height - 1)
      col := min t.col (width - 1)
      wrapPending := false }

/-- `_erased`: a cell with the pen's background. -/
def Terminal.erased (t : Terminal) : Cell := { bg := t.pen.bg }

def Terminal.onRow (t : Terminal) (change : Row → Option Row) : Option Terminal := do
  let shown ← t.rows[t.row]?
  let shown ← change shown
  some { t with rows := t.rows.set t.row shown }

def splitEdge (width : Nat) (blank : Cell) (edge : Nat) (shown : Row) : Option Row :=
  if 0 < edge ∧ edge < width then do
    let here ← shown[edge]?
    let before ← shown[edge - 1]?
    if here.char = [] ∧ before.char ≠ [] then some ((shown.set (edge - 1) blank).set edge blank)
    else some shown
  else some shown

/-- `_split_wide`, in the row that the cursor is in. -/
def Terminal.splitWide (t : Terminal) (start stop : Nat) (shown : Row) : Option Row := do
  let shown ← splitEdge t.width t.erased start shown
  splitEdge t.width t.erased stop shown

def setCell (shown : Row) (col : Nat) (cell : Cell) : Option Row :=
  if col < shown.length then some (shown.set col cell) else none

def Terminal.scrollUp (t : Terminal) (count top : Nat) : Terminal :=
  let count := min count (t.bottom + 1 - top)
  if count = 0 then t
  else
    let blank := List.replicate t.width t.erased
    let kept := t.rows.take top ++ t.rows.drop (top + count)
    let place := t.bottom + 1 - count
    { t with rows := kept.take place ++ List.replicate count blank ++ kept.drop place }

def Terminal.scrollDown (t : Terminal) (count top : Nat) : Terminal :=
  let count := min count (t.bottom + 1 - top)
  if count = 0 then t
  else
    let blank := List.replicate t.width t.erased
    let kept := t.rows.take (t.bottom + 1 - count) ++ t.rows.drop (t.bottom + 1)
    { t with rows := kept.take top ++ List.replicate count blank ++ kept.drop top }

def Terminal.linefeed (t : Terminal) : Terminal :=
  let t := { t with wrapPending := false }
  if t.row = t.bottom then t.scrollUp 1 t.top
  else if t.row + 1 < t.height then { t with row := t.row + 1 }
  else t

def Terminal.reverseIndex (t : Terminal) : Terminal :=
  let t := { t with wrapPending := false }
  if t.row = t.top then t.scrollDown 1 t.top
  else if 0 < t.row then { t with row := t.row - 1 }
  else t

def Terminal.restoreCursor (t : Terminal) : Terminal :=
  match t.saved with
  | none => { t with row := 0, col := 0, wrapPending := false }
  | some saved =>
    { t with
      row := min saved.row (t.height - 1)
      col := min saved.col (t.width - 1)
      pen := saved.pen
      wrapPending := false }

def Terminal.moveTo (t : Terminal) (row col : Int) : Terminal :=
  { t with
    row := (max 0 (min row (t.height - 1))).toNat
    col := (max 0 (min col (t.width - 1))).toNat
    wrapPending := false }

/-- `_last_column_written`: xterm waits there for the next character, other terminals are on the next
line already. -/
def Terminal.lastColumnWritten (t : Terminal) : Terminal :=
  if t.wrapsImmediately = true then { { t with col := 0 }.linefeed with wrapPending := false }
  else { t with col := t.width - 1, wrapPending := true }

def Terminal.wrapNow (t : Terminal) : Terminal :=
  if t.wrapPending = true then { { t with col := 0 }.linefeed with wrapPending := false } else t

variable (data : UnicodeData)

def Terminal.joinMark (t : Terminal) (ch : CodePoint) : Option Terminal :=
  if t.wrapPending = false ∧ t.col = 0 then some t
  else
    let col := if t.wrapPending = true then t.col else t.col - 1
    t.onRow fun shown => do
      let here ← shown[col]?
      -- Past a wide glyph's continuation cell.
      let col := if 0 < col ∧ here.char = [] then col - 1 else col
      if col < t.width then do
        let cell ← shown[col]?
        if cell.char ≠ [] ∧ cell.char.length < maxCellChars then
          some (shown.set col { cell with char := cell.char ++ [ch] })
        else some shown
      else some shown

def Terminal.putGlyph (t : Terminal) (ch : CodePoint) (width : Nat) : Option Terminal := do
  let cell := penCell t.pen ch
  let written ← t.onRow fun shown => do
    let shown ← t.splitWide t.col (t.col + width) shown
    let shown ← setCell shown t.col cell
    if width = 2 then setCell shown (t.col + 1) { cell with char := [] } else some shown
  let moved := { written with col := t.col + width }
  some (if moved.width ≤ moved.col then moved.lastColumnWritten else moved)

def Terminal.print (t : Terminal) (ch : CodePoint) : Option Terminal :=
  if data.isPrintable ch = false ∧ data.combining ch = false then some t
  else
    let width := charWidth data ch
    if width = 0 then t.joinMark ch
    else
      let t := t.wrapNow
      if width = 2 ∧ t.col + 1 = t.width then
        if t.width < 2 then some t
        else do
          -- A wide glyph that does not fit wraps whole.
          let edge ← t.onRow fun shown => do
            let shown ← t.splitWide t.col (t.col + 1) shown
            setCell shown t.col t.erased
          { edge with col := 0 }.linefeed.putGlyph ch width
      else t.putGlyph ch width

def Terminal.putSlice (t : Terminal) (slice : PyStr) : Option Terminal := do
  let written ← t.onRow fun shown => do
    let shown ← t.splitWide t.col (t.col + slice.length) shown
    some (shown.take t.col ++ slice.map (penCell t.pen) ++ shown.drop (t.col + slice.length))
  let moved := { written with col := t.col + slice.length }
  some (if moved.width ≤ moved.col then moved.lastColumnWritten else moved)

/-- `_print_ascii`. There is no result where the loop would not end. -/
def Terminal.printAscii (t : Terminal) (run : PyStr) : Option Terminal :=
  if run = [] then some t
  else
    let wrapped := t.wrapNow
    let count := min run.length (wrapped.width - wrapped.col)
    if count = 0 then none
    else do
      let next ← wrapped.putSlice (run.take count)
      next.printAscii (run.drop count)
termination_by run.length
decreasing_by
  rename_i hrun hcount
  rw [length_drop]
  exact Nat.sub_lt (length_pos_of_ne_nil hrun) (Nat.pos_of_ne_zero hcount)

def eraseRows (t : Terminal) (start stop : Nat) : Option Terminal :=
  if stop ≤ start then some t
  else if stop ≤ t.rows.length then
    some { t with
      rows := t.rows.take start ++
        List.replicate (stop - start) (List.replicate t.width t.erased) ++ t.rows.drop stop }
  else none

def Terminal.eraseLine (t : Terminal) (mode : Nat) : Option Terminal := do
  -- A wrap that is pending stays so: the range to erase is empty.
  if mode = 0 ∧ t.wrapPending = true then some t
  else
    let erased ← t.onRow fun shown =>
      if mode = 0 then do
        let shown ← t.splitWide t.col t.width shown
        some (shown.take t.col ++ List.replicate (t.width - t.col) t.erased)
      else if mode = 1 then do
        let shown ← t.splitWide 0 (t.col + 1) shown
        some (List.replicate (t.col + 1) t.erased ++ shown.drop (t.col + 1))
      else if mode = 2 then some (List.replicate t.width t.erased)
      else some shown
    some { erased with wrapPending := false }

def Terminal.eraseDisplay (t : Terminal) (mode : Nat) : Option Terminal :=
  let erased :=
    if mode = 0 then
      (t.eraseLine 0).bind fun erased => eraseRows erased (erased.row + 1) erased.height
    else if mode = 1 then (t.eraseLine 1).bind fun erased => eraseRows erased 0 erased.row
    else if mode = 2 then
      some { t with rows := List.replicate t.height (List.replicate t.width t.erased) }
    else some t
  erased.map fun erased => { erased with wrapPending := false }

def Terminal.insertChars (t : Terminal) (count : Nat) : Option Terminal :=
  let count := min count (t.width - t.col)
  t.onRow fun shown => do
    let shown ← t.splitWide t.col t.col shown
    let shown ← t.splitWide (t.width - count) t.width shown
    some ((shown.take t.col ++ List.replicate count t.erased ++ shown.drop t.col).take t.width)

def Terminal.deleteChars (t : Terminal) (count : Nat) : Option Terminal :=
  let count := min count (t.width - t.col)
  t.onRow fun shown => do
    let shown ← t.splitWide t.col (t.col + count) shown
    some (shown.take t.col ++ shown.drop (t.col + count) ++ List.replicate count t.erased)

/-- `CSI X`. -/
def Terminal.eraseChars (t : Terminal) (count : Nat) : Option Terminal :=
  let count := min count (t.width - t.col)
  t.onRow fun shown => do
    let shown ← t.splitWide t.col (t.col + count) shown
    some (shown.take t.col ++ List.replicate count t.erased ++ shown.drop (t.col + count))

def Terminal.saveCursor (t : Terminal) : Terminal :=
  { t with saved := some ⟨t.row, t.col, t.pen⟩ }

def Terminal.alternateScreen (t : Terminal) (enter saveCursor : Bool) : Terminal :=
  match t.mainRows with
  | none =>
    if enter = true then
      { t with
        mainSaved := if saveCursor = true then some ⟨t.row, t.col, t.pen⟩ else t.saved
        mainMargins := (t.top, t.bottom)
        mainRows := some t.rows
        rows := List.replicate t.height (blankRow t.width)
        top := 0
        bottom := t.height - 1
        wrapPending := false }
    else t
  | some rows =>
    if enter = true then t
    else
      let left :=
        { t with
          rows
          mainRows := none
          saved := t.mainSaved
          mainSaved := none
          top := t.mainMargins.1
          bottom := t.mainMargins.2 }
      if saveCursor = true then left.restoreCursor else left

def Terminal.setMargins (t : Terminal) (top bottom : Nat) : Terminal :=
  let t :=
    if top < bottom ∧ bottom < t.height then { t with top, bottom }
    else { t with top := 0, bottom := t.height - 1 }
  t.moveTo 0 0

def csiArg (params : List Nat) (index default : Nat) : Nat :=
  if params.getD index 0 = 0 then default else params.getD index 0

def Terminal.privateMode (t : Terminal) (params : List Nat) (final : CodePoint) : Terminal :=
  if final = .ofChar 'h' ∨ final = .ofChar 'l' then
    let enter := decide (final = .ofChar 'h')
    let t := if 25 ∈ params then { t with cursorVisible := enter } else t
    if 47 ∈ params ∨ 1047 ∈ params ∨ 1049 ∈ params then
      t.alternateScreen enter (decide (1049 ∈ params))
    else t
  else t

def Terminal.command (t : Terminal) (params : List Nat) (final : CodePoint) : Option Terminal :=
  let arg := csiArg params 0 1
  let row : Int := t.row
  let col : Int := t.col
  if final = .ofChar 'H' ∨ final = .ofChar 'f' then
    some (t.moveTo ((arg : Int) - 1) ((csiArg params 1 1 : Int) - 1))
  else if final = .ofChar 'A' then
    some (t.moveTo (max (if t.top ≤ t.row then (t.top : Int) else 0) (row - arg)) col)
  else if final = .ofChar 'B' then
    some (t.moveTo (min (if t.row ≤ t.bottom then (t.bottom : Int) else t.height - 1) (row + arg)) col)
  else if final = .ofChar 'C' then some (t.moveTo row (col + arg))
  else if final = .ofChar 'D' then some (t.moveTo row (col - arg))
  else if final = .ofChar 'E' then some (t.moveTo (row + arg) 0)
  else if final = .ofChar 'F' then some (t.moveTo (row - arg) 0)
  else if final = .ofChar 'G' then some (t.moveTo row ((arg : Int) - 1))
  else if final = .ofChar 'd' then some (t.moveTo ((arg : Int) - 1) col)
  else if final = .ofChar 'J' then t.eraseDisplay (csiArg params 0 0)
  else if final = .ofChar 'K' then t.eraseLine (csiArg params 0 0)
  else if final = .ofChar 'L' then
    if t.top ≤ t.row ∧ t.row ≤ t.bottom then some ((t.scrollDown arg t.row).moveTo row 0)
    else some t
  else if final = .ofChar 'M' then
    if t.top ≤ t.row ∧ t.row ≤ t.bottom then some ((t.scrollUp arg t.row).moveTo row 0)
    else some t
  else if final = .ofChar '@' then t.insertChars arg
  else if final = .ofChar 'P' then t.deleteChars arg
  else if final = .ofChar 'X' then t.eraseChars arg
  else if final = .ofChar 'S' then some (t.scrollUp arg t.top)
  else if final = .ofChar 'T' then some (t.scrollDown arg t.top)
  else if final = .ofChar 'r' then some (t.setMargins (arg - 1) (csiArg params 1 t.height - 1))
  else if final = .ofChar 's' then some t.saveCursor
  else if final = .ofChar 'u' then some t.restoreCursor
  else some t

def isPrivate (sequence : PyStr) : Bool :=
  [0x3F, 0x3E, 0x3C, 0x3D].any fun marker => decide (sequence.head? = some (marker : CodePoint))

def Terminal.csi (t : Terminal) (sequence : PyStr) (final : CodePoint) : Option Terminal :=
  -- An intermediate byte makes it a different command.
  if sequence.any (fun ch => decide (0x20 ≤ ch ∧ ch ≤ 0x2F)) = true then some t
  else
    let body := if isPrivate sequence = true then sequence.tail else sequence
    if colon ∈ body then
      if final ≠ .ofChar 'm' ∨ isPrivate sequence = true then some t
      else some { t with pen := applySgr t.pen (sgrParamsWithColons body) }
    else if final = .ofChar 'm' ∧ isPrivate sequence = false then
      some { t with pen := applySgr t.pen (csiParams body) }
    else if isPrivate sequence = true then some (t.privateMode (csiParams body) final)
    else t.command (csiParams body) final

def Terminal.control (t : Terminal) (ch : CodePoint) : Terminal :=
  if ch = 0x0D then { t with col := 0, wrapPending := false }
  else if ch = 0x0A ∨ ch = 0x0B ∨ ch = 0x0C then t.linefeed
  else if ch = 0x08 then { t with col := t.col - 1, wrapPending := false }
  else if ch = 0x09 then
    { t with col := min (t.width - 1) ((t.col / 8 + 1) * 8), wrapPending := false }
  else t

def Terminal.escape (t : Terminal) (ch : CodePoint) : Terminal :=
  let t := { t with state := .ground }
  if ch = .ofChar '[' then { t with state := .csi [] }
  else if ch = .ofChar ']' ∨ ch = .ofChar 'P' ∨ ch = .ofChar 'X' ∨ ch = .ofChar '^' ∨
      ch = .ofChar '_' then
    { t with state := .osc }
  else if 0x20 ≤ ch ∧ ch ≤ 0x2F then { t with state := .charset }
  else if ch = .ofChar '7' then t.saveCursor
  else if ch = .ofChar '8' then t.restoreCursor
  else if ch = .ofChar 'D' then t.linefeed
  else if ch = .ofChar 'E' then { t with col := 0 }.linefeed
  else if ch = .ofChar 'M' then t.reverseIndex
  else if ch = .ofChar 'c' then t.reset
  else t

def isFinal (ch : CodePoint) : Bool := decide (0x40 ≤ ch ∧ ch ≤ 0x7E)

def isParameter (ch : CodePoint) : Bool := decide (0x30 ≤ ch ∧ ch ≤ 0x3F)

def isControl (ch : CodePoint) : Bool := decide (ch < 0x20 ∨ ch = 0x7F)

def Terminal.feedChar (t : Terminal) (ch : CodePoint) : Option Terminal :=
  match t.state with
  | .ground =>
    if ch = esc then some { t with state := .escape }
    else if isControl ch = true then some (t.control ch)
    else t.print data ch
  | .escape => some (t.escape ch)
  | .csi sequence =>
    if isFinal ch = true then { t with state := .ground }.csi sequence ch
    else if maxSequence ≤ sequence.length then some { t with state := .csiIgnore }
    else some { t with state := .csi (sequence ++ [ch]) }
  | .csiIgnore => some (if isFinal ch = true then { t with state := .ground } else t)
  | .osc =>
    if ch = 0x07 then some { t with state := .ground }
    else if ch = esc then some { t with state := .oscEscape }
    else some t
  | .oscEscape => some { t with state := .ground }
  | .charset =>
    if ch = esc then some { t with state := .escape }
    else if 0x20 ≤ ch ∧ ch ≤ 0x2F then some t
    else some { t with state := .ground }

/-- `_ASCII_RUN`. -/
def isPrintableAscii (ch : CodePoint) : Bool := decide (0x20 ≤ ch ∧ ch ≤ 0x7E)

def asciiRun (text : PyStr) : PyStr := text.takeWhile isPrintableAscii

/-- `_WHOLE_CSI`: the parameters, the final byte and what follows. -/
def wholeCsi (text : PyStr) : Option (PyStr × CodePoint × PyStr) :=
  if text.take 2 = [esc, .ofChar '['] then
    let params := (text.drop 2).takeWhile isParameter
    match (text.drop 2).dropWhile isParameter with
    | final :: rest =>
      if params.length ≤ maxSequence ∧ isFinal final = true then some (params, final, rest) else none
    | [] => none
  else none

theorem wholeCsi_length {text sequence rest : PyStr} {final : CodePoint}
    (h : wholeCsi text = some (sequence, final, rest)) : rest.length < text.length := by
  unfold wholeCsi at h
  split at h
  · rename_i hstart
    have hlength : 2 ≤ text.length := by
      have htake := congrArg List.length hstart
      rw [length_take] at htake
      simp only [length_cons, length_nil] at htake
      omega
    have hdropped : ((text.drop 2).dropWhile isParameter).length ≤ text.length - 2 := by
      rw [← length_drop]
      exact (dropWhile_suffix _).length_le
    split at h
    · rename_i final' rest' hrest
      simp only at h
      split at h
      · obtain ⟨-, -, rfl⟩ : _ ∧ _ ∧ _ := by
          simpa only [Option.some.injEq, Prod.mk.injEq] using h
        rw [hrest, length_cons] at hdropped
        omega
      · cases h
    · cases h
  · cases h

def Terminal.feed (t : Terminal) (text : PyStr) : Option Terminal :=
  if htext : text = [] then some t
  else if t.state = .ground ∧ asciiRun text ≠ [] then do
    let next ← t.printAscii (asciiRun text)
    next.feed (text.drop (asciiRun text).length)
  else
    match _hwhole : if t.state = .ground then wholeCsi text else none with
    | some (sequence, final, rest) => do
      let next ← t.csi sequence final
      next.feed rest
    | none => do
      let next ← t.feedChar data (text.head htext)
      next.feed text.tail
termination_by text.length
decreasing_by
  · rename_i hrun
    have hlength := length_pos_of_ne_nil hrun.2
    have hpositive := length_pos_of_ne_nil htext
    rw [length_drop]
    omega
  · split at _hwhole
    · exact wholeCsi_length _hwhole
    · cases _hwhole
  · have hpositive := length_pos_of_ne_nil htext
    rw [length_tail]
    omega

end NetBBS.Rendering
