import Mathlib.Data.Char

/-! # Reading keys -/

namespace NetBBS.Net

structure Arrival where
  byte : Option UInt8
  time : Nat

/-- `_netbbs_word_guard_until` and `_netbbs_enter_guard`, the latter with its `tail_only`. -/
structure Guards where
  word : Option Nat := none
  enter : Option (Nat × Bool) := none

structure Keyboard where
  syncterm : Bool
  cp437 : Option (UInt8 → Char)

structure Source where
  pushed : List UInt8 := []
  arrivals : List Arrival
  now : Nat := 0
  guards : Guards := {}

inductive SessionClosed where
  | closed
  | sequenceTimedOut
  | sequenceTooLong

def followupByteTimeout : Nat := 50000
def escapeSequenceTimeout : Nat := 1000000
def maxEscapeSequenceLength : Nat := 64
def wordGuardPeriod : Nat := 600000
def lineEndTailPeriod : Nat := 250000

def cr : UInt8 := 0x0D
def lf : UInt8 := 0x0A
def nul : UInt8 := 0x00
def bs : UInt8 := 0x08
def del : UInt8 := 0x7F
def esc : UInt8 := 0x1B
def tab : UInt8 := 0x09
def kill : UInt8 := 0x15

namespace Source

def pending (s : Source) : List UInt8 := s.pushed ++ s.arrivals.filterMap Arrival.byte

def pushBack (s : Source) (byte : UInt8) : Source := { s with pushed := byte :: s.pushed }

/-- `read_byte` of the transport. -/
def receive (s : Source) : Except SessionClosed (Option UInt8 × Source) :=
  match s.arrivals with
  | [] => .error .closed
  | arrival :: rest => .ok (arrival.byte, { s with arrivals := rest, now := max s.now arrival.time })

def size (s : Source) : Nat := s.pushed.length + s.arrivals.length

end Source

def enterGuardDrops (guards : Guards) (now : Nat) (byte : UInt8) : Bool × Guards :=
  match guards.enter with
  | none => (false, guards)
  | some (until_, tailOnly) =>
    -- One shot: whatever arrives first decides, and the guard is spent.
    let spent := { guards with enter := none }
    if until_ < now then (false, spent)
    else if tailOnly = true then (byte = lf || byte = nul, spent)
    else if byte = cr then (true, { guards with enter := some (now + lineEndTailPeriod, true) })
    else (byte = lf, spent)

def continuesWord (byte : UInt8) : Bool :=
  (0x41 ≤ byte && byte ≤ 0x5A) || (0x61 ≤ byte && byte ≤ 0x7A) || byte = 0x20 || byte = 0x2D ||
    byte = 0x27 || 0x80 ≤ byte

def wordGuardDrops (guards : Guards) (now : Nat) (byte : UInt8) : Bool × Guards :=
  let entered := enterGuardDrops guards now byte
  if entered.1 = true then entered
  else
    match entered.2.word with
    | none => (false, entered.2)
    | some until_ =>
      if until_ < now then (false, { entered.2 with word := none })
      else if byte = cr then (true, ⟨none, some (now + lineEndTailPeriod, true)⟩)
      else if byte = lf then (true, { entered.2 with word := none })
      else if continuesWord byte = true then
        (true, { entered.2 with word := some (now + wordGuardPeriod) })
      else (false, { entered.2 with word := none })

namespace Source

def next (s : Source) : Except SessionClosed (Option UInt8 × Source) :=
  match s.pushed with
  | byte :: rest => .ok (some byte, { s with pushed := rest })
  | [] => s.receive

theorem next_size {s later : Source} {byte : Option UInt8} (h : s.next = .ok (byte, later)) :
    later.size < s.size := by
  unfold next receive at h
  unfold size
  split at h
  · rename_i first rest hpushed
    obtain ⟨-, rfl⟩ : _ ∧ _ := by simpa only [Except.ok.injEq, Prod.mk.injEq] using h
    simp [hpushed]
  · split at h
    · cases h
    · rename_i arrival rest harrivals
      obtain ⟨-, rfl⟩ : _ ∧ _ := by simpa only [Except.ok.injEq, Prod.mk.injEq] using h
      simp [harrivals]

def readByte (s : Source) : Except SessionClosed (Option UInt8 × Source) :=
  match _h : s.next with
  | .error e => .error e
  | .ok (none, later) => .ok (none, later)
  | .ok (some byte, later) =>
    let dropped := wordGuardDrops later.guards later.now byte
    if dropped.1 = true then { later with guards := dropped.2 }.readByte
    else .ok (some byte, { later with guards := dropped.2 })
termination_by s.size
decreasing_by
  show later.size < s.size
  exact next_size _h

def peekUntil (s : Source) (deadline : Nat) : Option UInt8 × Source :=
  match _h : s.arrivals with
  | [] => (none, { s with now := max s.now deadline })
  | arrival :: rest =>
    if arrival.time ≤ deadline then
      let later := { s with arrivals := rest, now := max s.now arrival.time }
      match arrival.byte with
      | none => (none, later)
      | some byte =>
        let dropped := enterGuardDrops later.guards later.now byte
        let later := { later with guards := dropped.2 }
        if dropped.1 = true then
          if deadline ≤ later.now then (none, later) else later.peekUntil deadline
        else (some byte, later)
    else (none, { s with now := max s.now deadline })
termination_by s.arrivals.length
decreasing_by simp [_h]

def readByteWithTimeout (s : Source) (timeout : Nat) : Option UInt8 × Source :=
  match s.pushed with
  | byte :: rest => (some byte, { s with pushed := rest })
  | [] => s.peekUntil (s.now + timeout)

end Source

/-- `raw.decode("utf-8")` of a lead byte with as many bytes as it asks for: one character or none. -/
def decodeCharacter (raw : List UInt8) : Option Char :=
  (raw.toByteArray.utf8DecodeChar? 0).filter fun c => String.utf8EncodeChar c = raw

def extraBytes (lead : UInt8) : Option Nat :=
  if 0xC2 ≤ lead && lead ≤ 0xDF then some 1
  else if 0xE0 ≤ lead && lead ≤ 0xEF then some 2
  else if 0xF0 ≤ lead && lead ≤ 0xF4 then some 3
  else none

def isContinuation (byte : UInt8) : Bool := 0x80 ≤ byte && byte ≤ 0xBF

def readContinuation (raw : List UInt8) :
    Nat → Source → Except SessionClosed (Option Char × Source)
  | 0, s => .ok (decodeCharacter raw, s)
  | extra + 1, s =>
    match s.readByte with
    | .error e => .error e
    | .ok (none, s) => .ok (none, s)
    | .ok (some byte, s) =>
      if isContinuation byte = true then readContinuation (raw ++ [byte]) extra s
      -- It is a byte of its own, read again by the next read.
      else .ok (none, s.pushBack byte)

def readHighCharacter (keyboard : Keyboard) (s : Source) (lead : UInt8) :
    Except SessionClosed (Option Char × Source) :=
  match keyboard.cp437 with
  | some table => .ok (some (table lead), s)
  | none =>
    match extraBytes lead with
    | none => .ok (none, s)
    | some extra => readContinuation [lead] extra s

/-- `chr(b)`, or the character the byte starts. -/
def readCharacter (keyboard : Keyboard) (s : Source) (byte : UInt8) :
    Except SessionClosed (Option Char × Source) :=
  if byte < 0x80 then .ok (some (Char.ofNat byte.toNat), s)
  else readHighCharacter keyboard s byte

def consumeOptionalLfOrNul (s : Source) : Source :=
  match s.readByteWithTimeout followupByteTimeout with
  | (none, s) => s
  | (some byte, s) => if byte = lf ∨ byte = nul then s else s.pushBack byte

inductive SymbolicKey where
  | up | down | left | right | home | end' | delete | insert | pageUp | pageDown | f1
deriving DecidableEq

inductive EscapeKey where
  | key (key : SymbolicKey)
  | color (params : List UInt8)

def csiFinalToKey : List (UInt8 × SymbolicKey) :=
  [(0x41, .up), (0x42, .down), (0x43, .right), (0x44, .left), (0x48, .home), (0x46, .end')]

def synctermCsiFinalToKey : List (UInt8 × SymbolicKey) :=
  [(0x4B, .end'), (0x56, .pageUp), (0x55, .pageDown), (0x40, .insert)]

def csiTildeToKey : List (List UInt8 × SymbolicKey) :=
  [([0x31], .home), ([0x34], .end'), ([0x33], .delete), ([0x32], .insert), ([0x35], .pageUp),
    ([0x36], .pageDown), ([0x31, 0x31], .f1)]

def ss3ToKey : List (UInt8 × SymbolicKey) :=
  [(0x41, .up), (0x42, .down), (0x43, .right), (0x44, .left), (0x48, .home), (0x46, .end'), (0x50, .f1)]

def decodeCsi (params : List UInt8) (final : UInt8) (syncterm : Bool) : Option EscapeKey :=
  if final = 0x6D ∧ (params.all fun b => b = 0x3B || (0x30 ≤ b && b ≤ 0x39)) = true then
    some (.color params)
  else if params = [] then
    if syncterm = true ∧ (synctermCsiFinalToKey.lookup final).isSome = true then
      (synctermCsiFinalToKey.lookup final).map .key
    else (csiFinalToKey.lookup final).map .key
  else if final = 0x7E then (csiTildeToKey.lookup params).map .key
  else none

def isFinal (byte : UInt8) : Bool := 0x40 ≤ byte && byte ≤ 0x7E

def readCsi (syncterm : Bool) (deadline : Nat) :
    Nat → List UInt8 → Source → Except SessionClosed (Option EscapeKey × Source)
  | left, params, s =>
    if deadline ≤ s.now then .error .sequenceTimedOut
    else
      match s.readByteWithTimeout followupByteTimeout with
      | (none, s) => .ok (none, s)
      | (some byte, s) =>
        match left with
        | 0 => .error .sequenceTooLong
        | left + 1 =>
          if isFinal byte = true then .ok (decodeCsi params byte syncterm, s)
          else readCsi syncterm deadline left (params ++ [byte]) s

def readEscapeSequence (keyboard : Keyboard) (s : Source) :
    Except SessionClosed (Option EscapeKey × Source) :=
  match s.readByteWithTimeout followupByteTimeout with
  | (none, s) => .ok (none, s)
  | (some byte, s) =>
    if byte = 0x5B then
      readCsi keyboard.syncterm (s.now + escapeSequenceTimeout) maxEscapeSequenceLength [] s
    else if byte = 0x4F then
      match s.readByteWithTimeout followupByteTimeout with
      | (none, s) => .ok (none, s)
      | (some letter, s) =>
        if 0x20 ≤ letter ∧ letter < 0x7F then .ok ((ss3ToKey.lookup letter).map .key, s)
        else .ok (none, s)
    else .ok (none, s)

structure PastedColor where
  translate : List UInt8 → List UInt8
  printable : ∀ params, ∀ byte ∈ translate params, 0x20 ≤ byte ∧ byte < 0x7F

def typePastedColor (s : Source) (params : List UInt8) (pastedColor : PastedColor) : Source :=
  (pastedColor.translate params).reverse.foldl Source.pushBack s

inductive LineInput where
  | submit
  | rubOut
  | deleteUnder
  | kill
  | complete
  | key (key : SymbolicKey)
  | bareEscape
  | cancelled
  | char (c : Char)

inductive EditorKey where
  | char (c : Char)
  | enter
  | backspace
  | delete
  | tab
  | escape
  | move (key : SymbolicKey)
  | ctrl (c : Char)
  | wordBackspace

structure LineOptions where
  cancellable : Bool
  navigate : Bool
  pastedColor : Option PastedColor

abbrev Turn (α : Type) := Except SessionClosed (Option α × Source)

def deliver {α β : Type} (turn : Turn α) (make : α → Option β) : Turn β :=
  turn.map fun read => (read.1.bind make, read.2)

def backKey : Char := 'b'
def previousPageKey : Char := '<'
def nextPageKey : Char := '>'
def helpKey : Char := '\x08'

def symbolicToHotkey : SymbolicKey → Option Char
  | .pageUp => some previousPageKey
  | .left => some previousPageKey
  | .pageDown => some nextPageKey
  | .right => some nextPageKey
  | _ => none

/-- `_SYMBOLIC_TO_EDITOR_KIND`, without `INSERT`. -/
def symbolicToEditorKind : SymbolicKey → Option EditorKey
  | .insert => none
  | .f1 => none
  | key => some (.move key)

def typeColor (s : Source) (params : List UInt8) (pastedColor : Option PastedColor) : Source :=
  match pastedColor with
  | none => s
  | some pastedColor => typePastedColor s params pastedColor

def maskedTurn (keyboard : Keyboard) (s : Source) (byte : UInt8) : Turn LineInput :=
  if byte = cr then .ok (some .submit, consumeOptionalLfOrNul s)
  else if byte = lf then .ok (some .submit, s)
  else if byte = del ∧ keyboard.syncterm = true then .ok (none, s)
  else if byte = bs ∨ byte = del then .ok (some .rubOut, s)
  else if byte = kill then .ok (some .kill, s)
  else if byte = esc then deliver (readEscapeSequence keyboard s) fun _ => none
  else if byte < 0x20 then .ok (none, s)
  else deliver (readCharacter keyboard s byte) fun c => some (.char c)

def escapeTurn (keyboard : Keyboard) (s : Source) (pastedColor : Option PastedColor)
    {α : Type} (make : SymbolicKey → Option α) : Turn α :=
  match readEscapeSequence keyboard s with
  | .error e => .error e
  | .ok (some (.color params), s) => .ok (none, typeColor s params pastedColor)
  | .ok (some (.key key), s) => .ok (make key, s)
  | .ok (none, s) => .ok (none, s)

def editableTurn (keyboard : Keyboard) (options : LineOptions) (s : Source) (byte : UInt8) :
    Turn LineInput :=
  if byte = cr then .ok (some .submit, consumeOptionalLfOrNul s)
  else if byte = lf then .ok (some .submit, s)
  else if byte = del ∧ keyboard.syncterm = true then .ok (some .deleteUnder, s)
  else if byte = bs ∨ byte = del then .ok (some .rubOut, s)
  else if byte = kill then .ok (some .kill, s)
  else if byte = tab then .ok (some .complete, s)
  else if byte = esc then
    let sequence := fun s => escapeTurn keyboard s options.pastedColor fun key => some (.key key)
    if options.cancellable = true ∨ options.navigate = true then
      match s.readByteWithTimeout followupByteTimeout with
      | (none, s) =>
        .ok (some (if options.cancellable = true then LineInput.cancelled else .bareEscape), s)
      | (some peek, s) => sequence (s.pushBack peek)
    else sequence s
  else if byte < 0x20 then .ok (none, s)
  else deliver (readCharacter keyboard s byte) fun c => some (.char c)

def keyTurn (keyboard : Keyboard) (s : Source) (byte : UInt8) : Turn Char :=
  if byte = cr ∨ byte = lf ∨ byte = del then .ok (none, s)
  else if byte = esc then
    match s.readByteWithTimeout followupByteTimeout with
    | (none, s) => .ok (some backKey, s)
    | (some peek, s) =>
      escapeTurn keyboard (s.pushBack peek) none fun key =>
        if key = .f1 then some helpKey else symbolicToHotkey key
  else if byte = 0x0C ∨ byte = 0x12 then .ok (some (Char.ofNat byte.toNat), s)
  else if byte = bs ∧ keyboard.syncterm = true then .ok (none, s)
  else if byte = bs ∨ byte = 0x03 then .ok (some (Char.ofNat byte.toNat), s)
  else if byte < 0x20 then .ok (none, s)
  else if byte = 0x3F then .ok (some helpKey, s)
  else readCharacter keyboard s byte

def editorTurn (keyboard : Keyboard) (distinguishCtrlH : Bool) (pastedColor : Option PastedColor)
    (s : Source) (byte : UInt8) : Turn EditorKey :=
  if byte = cr then .ok (some .enter, consumeOptionalLfOrNul s)
  else if byte = lf then .ok (some .enter, s)
  else if byte = bs ∧ distinguishCtrlH = true ∧ keyboard.syncterm = false then
    .ok (some (.ctrl 'h'), s)
  else if byte = del ∧ keyboard.syncterm = true then .ok (some .delete, s)
  else if byte = bs ∨ byte = del then .ok (some .backspace, s)
  else if byte = tab then .ok (some .tab, s)
  else if byte = esc then
    match s.readByteWithTimeout followupByteTimeout with
    | (none, s) => .ok (some .escape, s)
    | (some peek, s) =>
      if peek = bs ∨ peek = del then .ok (some .wordBackspace, s)
      else
        escapeTurn keyboard (s.pushBack peek) pastedColor fun key =>
          if key = .f1 ∧ distinguishCtrlH = true then some (.ctrl 'h') else symbolicToEditorKind key
  else if byte < 0x20 then .ok (some (.ctrl (Char.ofNat (byte.toNat + 0x60))), s)
  else
    deliver (readCharacter keyboard s byte) fun c =>
      some (if c = '?' ∧ distinguishCtrlH = true then .ctrl 'h' else .char c)

/-- `_read_line_masked`, `_read_line_editable`, `read_key` and `read_editor_key`. -/
inductive Reader where
  | masked
  | line (options : LineOptions)
  | key
  | editor (distinguishCtrlH : Bool) (pastedColor : Option PastedColor)

inductive Delivered where
  | line (input : LineInput)
  | key (key : Char)
  | editor (key : EditorKey)

def Reader.turnFrom (keyboard : Keyboard) (s : Source) (byte : UInt8) : Reader → Turn Delivered
  | .masked => deliver (maskedTurn keyboard s byte) fun input => some (.line input)
  | .line options => deliver (editableTurn keyboard options s byte) fun input => some (.line input)
  | .key => deliver (keyTurn keyboard s byte) fun key => some (.key key)
  | .editor distinguishCtrlH pastedColor =>
    deliver (editorTurn keyboard distinguishCtrlH pastedColor s byte) fun key => some (.editor key)

def Reader.turn (keyboard : Keyboard) (reader : Reader) (s : Source) : Turn Delivered :=
  match s.readByte with
  | .error e => .error e
  -- An action of the transport; no data.
  | .ok (none, s) => .ok (none, s)
  | .ok (some byte, s) => reader.turnFrom keyboard s byte

def turns (keyboard : Keyboard) (s : Source) :
    List Reader → Except SessionClosed (List (Option Delivered) × Source)
  | [] => .ok ([], s)
  | reader :: rest =>
    match reader.turn keyboard s with
    | .error e => .error e
    | .ok (delivered, s) =>
      match turns keyboard s rest with
      | .error e => .error e
      | .ok (others, s) => .ok (delivered :: others, s)

end NetBBS.Net
