import NetBBS.Python.Text

/-! # Receiving a file by Zmodem -/

namespace NetBBS.Zmodem

inductive Arriving where
  | byte (b : UInt8)
  | late
  | idle

inductive Reply where
  | header (frameType position : Nat)
  | abort

structure Line where
  /-- `_zmodem_pushback`, its top first. -/
  pushback : List UInt8 := []
  arriving : List Arriving
  closed : Bool
  sent : List Reply := []

/-- `ZmodemError`, by what it says. -/
inductive Failure where
  | stalled
  | flowControlFlood
  | subpacketTooLong
  | unexpectedFrame (frameType : Nat)
  | endedWithoutFile
  | tooManyErrors
  | overLimit (maxBytes : Nat)
  | advertisedOverLimit (size maxBytes : Nat)
deriving DecidableEq

inductive Fault where
  | failed (failure : Failure)
  /-- `ZmodemCancelled`, `_CrcError` and `_NoResponse`. -/
  | cancelled
  | badCheck
  | noResponse
  /-- `asyncio.TimeoutError`. -/
  | late
  | idle
  | sessionClosed
  | valueError
deriving DecidableEq

/-- `ZmodemError` and its subclasses. -/
def Fault.isZmodem : Fault → Bool
  | .failed _ | .cancelled | .badCheck | .noResponse => true
  | .late | .idle | .sessionClosed | .valueError => false

abbrev Heard (α : Type) := Except Fault α × Line

def Line.size (line : Line) : Nat := line.pushback.length + line.arriving.length

/-- `_send_hex_header`. -/
def Line.send (line : Line) (frameType position : Nat) : Line :=
  { line with sent := line.sent ++ [.header frameType position] }

def Line.pushBack (line : Line) (b : UInt8) : Line := { line with pushback := b :: line.pushback }

@[simp] theorem size_send (line : Line) (frameType position : Nat) :
    (line.send frameType position).size = line.size := rfl

@[simp] theorem size_pushBack (line : Line) (b : UInt8) :
    (line.pushBack b).size = line.size + 1 := by
  simp only [Line.size, Line.pushBack, List.length_cons]
  omega

/-- `_read_raw_byte`. -/
def readRaw (line : Line) : Heard UInt8 :=
  match line.pushback with
  | b :: rest => (.ok b, { line with pushback := rest })
  | [] =>
    match line.arriving with
    | .byte b :: rest => (.ok b, { line with arriving := rest })
    | .late :: rest => (.error .late, { line with arriving := rest })
    | .idle :: rest => (.error .idle, { line with arriving := rest })
    -- A silent line runs out every wait.
    | [] => (.error (if line.closed = true then .sessionClosed else .late), line)

/-- `_read_bulk_raw_byte`. -/
def readBulk (line : Line) : Heard UInt8 :=
  match readRaw line with
  | (.error .late, line) => (.error (.failed .stalled), line)
  | (.error .idle, line) => (.error (.failed .stalled), line)
  | heard => heard

def andThen {α β : Type} (heard : Heard α) (next : α → Line → Heard β) : Heard β :=
  match heard with
  | (.error e, line) => (.error e, line)
  | (.ok a, line) => next a line

structure Reads {α : Type} (allowed : Fault → Prop) (most : Nat) (line : Line) (heard : Heard α) :
    Prop where
  shrinks : heard.2.size ≤ line.size
  taken : line.size ≤ heard.2.size + most
  raises : ∀ e, heard.1 = .error e → allowed e

variable {α β : Type} {allowed : Fault → Prop} {most : Nat} {line : Line}

theorem reads_ok (a : α) : Reads allowed 0 line (.ok a, line) :=
  ⟨le_rfl, le_rfl, fun _ h => by cases h⟩

variable {e : Fault} {b : UInt8} {least : Nat}

theorem reads_error (h : allowed e) : Reads allowed 0 line ((.error e, line) : Heard α) := by
  refine ⟨le_rfl, le_rfl, ?_⟩
  intro e' he
  cases he
  exact h

theorem Reads.mono {heard : Heard α} {allowed' : Fault → Prop} {most' : Nat}
    (h : Reads allowed most line heard) (hallowed : ∀ e, allowed e → allowed' e)
    (hmost : most ≤ most') : Reads allowed' most' line heard :=
  ⟨h.shrinks, Nat.le_trans h.taken (Nat.add_le_add_left hmost _),
    fun e he => hallowed e (h.raises e he)⟩

theorem Reads.unbounded {heard : Heard α} (h : Reads allowed most line heard) :
    Reads allowed line.size line heard :=
  ⟨h.shrinks, Nat.le_add_left _ _, h.raises⟩

theorem Reads.andThen {heard : Heard α} {next : α → Line → Heard β} {m : Nat}
    (h : Reads allowed most line heard)
    (hnext : ∀ a after, heard = (.ok a, after) → Reads allowed m after (next a after)) :
    Reads allowed (most + m) line (andThen heard next) := by
  obtain ⟨result, after⟩ := heard
  cases result with
  | error e =>
    exact ⟨h.shrinks, Nat.le_trans h.taken (by simp only [Zmodem.andThen]; omega),
      fun e' he => h.raises e' (by cases he; rfl)⟩
  | ok a =>
    have hthen := hnext a after rfl
    have hshrinks := h.shrinks
    have htaken := h.taken
    have htaken' := hthen.taken
    simp only at hshrinks htaken
    refine ⟨Nat.le_trans hthen.shrinks hshrinks, ?_, hthen.raises⟩
    simp only [Zmodem.andThen]
    omega

def Fault.isWait (e : Fault) : Prop := e = .late ∨ e = .idle ∨ e = .sessionClosed

def Fault.isContained (e : Fault) : Prop := e.isZmodem = true ∨ e = .sessionClosed

def Fault.isNoValueError (e : Fault) : Prop := e ≠ .valueError

theorem reads_readRaw (line : Line) : Reads Fault.isWait 1 line (readRaw line) := by
  obtain ⟨pushback, arriving, closed, sent⟩ := line
  unfold readRaw
  cases pushback with
  | cons b rest => exact ⟨by simp [Line.size], by simp [Line.size]; omega, fun _ h => by cases h⟩
  | nil =>
    cases arriving with
    | nil =>
      refine (reads_error ?_).mono (fun _ h => h) (Nat.zero_le 1)
      cases closed
      · exact .inl rfl
      · exact .inr (.inr rfl)
    | cons event rest =>
      refine ⟨by cases event <;> simp [Line.size], by cases event <;> simp [Line.size], ?_⟩
      intro e he
      cases event with
      | byte b => cases he
      | late =>
        cases he
        exact .inl rfl
      | idle =>
        cases he
        exact .inr (.inl rfl)

variable {after : Line}

theorem size_of_readRaw (h : readRaw line = (.ok b, after)) : after.size + 1 = line.size := by
  obtain ⟨pushback, arriving, closed, sent⟩ := line
  unfold readRaw at h
  cases pushback with
  | cons b rest =>
    cases h
    simp only [Line.size, List.length_cons]
    omega
  | nil =>
    cases arriving with
    | nil => cases h
    | cons event rest =>
      cases event with
      | byte b =>
        cases h
        rfl
      | late => cases h
      | idle => cases h

theorem reads_readBulk (line : Line) : Reads Fault.isContained 1 line (readBulk line) := by
  have hraw := reads_readRaw line
  unfold readBulk
  split
  · rename_i after heq
    rw [heq] at hraw
    exact ⟨hraw.shrinks, hraw.taken, fun e he => by cases he; exact .inl rfl⟩
  · rename_i after heq
    rw [heq] at hraw
    exact ⟨hraw.shrinks, hraw.taken, fun e he => by cases he; exact .inl rfl⟩
  · rename_i hlate hidle
    refine ⟨hraw.shrinks, hraw.taken, ?_⟩
    intro e he
    rcases hraw.raises e he with rfl | rfl | rfl
    · exact (hlate _ (Prod.ext he rfl)).elim
    · exact (hidle _ (Prod.ext he rfl)).elim
    · exact .inr rfl

def zpad : UInt8 := 0x2A
def zdle : UInt8 := 0x18
def can : UInt8 := 0x18
def zbin : UInt8 := 0x41
def zhex : UInt8 := 0x42
def zbin32 : UInt8 := 0x43
def xon : UInt8 := 0x11
def xoff : UInt8 := 0x13

/-- `_FLOW_CONTROL`. -/
def isFlowControl (b : UInt8) : Bool := b = 0x11 || b = 0x13 || b = 0x91 || b = 0x93

/-- `_TERMINATORS`. -/
def isTerminator (b : UInt8) : Bool := 0x68 ≤ b && b ≤ 0x6B

def zcrce : UInt8 := 0x68
def zcrcq : UInt8 := 0x6A
def zcrcw : UInt8 := 0x6B

def maxSubpacketBytes : Nat := 32 * 1024
def maxErrors : Nat := 10

def unescape (b : UInt8) : UInt8 := if b = 0x6C then 0x7F else if b = 0x6D then 0xFF else b ^^^ 0x40

def crc16Bit (crc : Nat) : Nat :=
  if crc.testBit 15 = true then ((crc <<< 1) ^^^ 0x1021) % 65536 else (crc <<< 1) % 65536

/-- `binascii.crc_hqx(data, 0)`. -/
def crc16 (data : List UInt8) : Nat :=
  data.foldl (fun crc b => Nat.repeat crc16Bit 8 (crc ^^^ (b.toNat <<< 8))) 0

def crc32Bit (crc : Nat) : Nat :=
  if crc.testBit 0 = true then (crc >>> 1) ^^^ 0xEDB88320 else crc >>> 1

/-- `zlib.crc32(data)`. -/
def crc32 (data : List UInt8) : Nat :=
  data.foldl (fun crc b => Nat.repeat crc32Bit 8 (crc ^^^ b.toNat)) 0xFFFFFFFF ^^^ 0xFFFFFFFF

def bigEndian (bytes : List UInt8) : Nat := bytes.foldl (fun n b => 256 * n + b.toNat) 0

/-- `int.from_bytes(bytes, "little")`. -/
def littleEndian (bytes : List UInt8) : Nat := bigEndian bytes.reverse

def checks (wide : Bool) (data received : List UInt8) : Bool :=
  if wide = true then decide (crc32 data = littleEndian received)
  else decide (crc16 data = bigEndian received)

/-- `_read_zdle_byte`, with as many flow-control bytes still skipped as there is `room`. -/
def readZdleByte (read : Line → Heard UInt8) (room : Nat) (line : Line) : Heard UInt8 :=
  andThen (read line) fun b line =>
    if isFlowControl b = true then
      match room with
      | 0 => (.error (.failed .flowControlFlood), line)
      | room + 1 => readZdleByte read room line
    else if b ≠ zdle then (.ok b, line)
    else andThen (read line) fun b2 line =>
      -- No byte is escaped that way: the peer cancels.
      if b2 = zdle then (.error .cancelled, line) else (.ok (unescape b2), line)

def readMany (read : Line → Heard UInt8) : Nat → Line → Heard (List UInt8)
  | 0, line => (.ok [], line)
  | count + 1, line =>
    andThen (read line) fun b line =>
      andThen (readMany read count line) fun rest line => (.ok (b :: rest), line)

variable {read : Line → Heard UInt8}

theorem reads_readZdleByte (hcontained : ∀ e, e.isContained → allowed e)
    (hread : ∀ line, Reads allowed 1 line (read line)) (room : Nat) (line : Line) :
    Reads allowed (room + 2) line (readZdleByte read room line) := by
  induction room generalizing line with
  | zero =>
    unfold readZdleByte
    refine ((hread line).andThen (m := 1) ?_).mono (fun _ h => h) (Nat.le_refl 2)
    intro b after hb
    split
    · exact (reads_error (hcontained _ (.inl rfl))).mono (fun _ h => h) (Nat.zero_le 1)
    · split
      · exact (reads_ok b).mono (fun _ h => h) (Nat.zero_le 1)
      · refine (hread after).andThen (m := 0) ?_
        intro b2 last hb2
        split
        · exact reads_error (hcontained _ (.inl rfl))
        · exact reads_ok _
  | succ room ih =>
    unfold readZdleByte
    refine ((hread line).andThen (m := room + 2) ?_).mono (fun _ h => h) (by omega)
    intro b after hb
    split
    · exact ih after
    · split
      · exact (reads_ok b).mono (fun _ h => h) (Nat.zero_le _)
      · refine ((hread after).andThen (m := 0) ?_).mono (fun _ h => h) (by omega)
        intro b2 last hb2
        split
        · exact reads_error (hcontained _ (.inl rfl))
        · exact reads_ok _

theorem reads_readMany {each : Nat} (hread : ∀ line, Reads allowed each line (read line))
    (count : Nat) (line : Line) :
    Reads allowed (count * each) line (readMany read count line) := by
  induction count generalizing line with
  | zero => exact (reads_ok []).mono (fun _ h => h) (Nat.zero_le _)
  | succ count ih =>
    unfold readMany
    refine ((hread line).andThen (m := count * each) ?_).mono (fun _ h => h)
      (by rw [Nat.succ_mul]; omega)
    intro b after hb
    refine ((ih after).andThen (m := 0) ?_)
    intro rest last hrest
    exact reads_ok _

structure Header where
  frameType : Nat
  position : Nat
  crc32 : Bool

def zrqinit : Nat := 0
def zrinit : Nat := 1
def zsinit : Nat := 2
def zack : Nat := 3
def zfile : Nat := 4
def zskip : Nat := 5
def znak : Nat := 6
def zabort : Nat := 7
def zfin : Nat := 8
def zrpos : Nat := 9
def zdata : Nat := 10
def zeof : Nat := 11
def zcan : Nat := 16
def zfreecnt : Nat := 17
def zcommand : Nat := 18

/-- `_HEADERS_WITH_DATA`. -/
def hasData (frameType : Nat) : Bool := frameType ∈ [zsinit, zfile, zdata, zcommand]

def hexDigit (b : UInt8) : Option Nat :=
  if 0x30 ≤ b ∧ b ≤ 0x39 then some (b.toNat - 0x30)
  else if 0x61 ≤ b ∧ b ≤ 0x66 then some (b.toNat - 0x57)
  else if 0x41 ≤ b ∧ b ≤ 0x46 then some (b.toNat - 0x37)
  else none

def hexBytes : List UInt8 → Option (List UInt8)
  | high :: low :: rest => do
    let high ← hexDigit high
    let low ← hexDigit low
    let rest ← hexBytes rest
    pure (UInt8.ofNat (16 * high + low) :: rest)
  | _ => some []

def readHexDigits (count : Nat) (line : Line) : Heard (List UInt8) :=
  match count with
  | 0 => (.ok [], line)
  | more + 1 =>
    match _h : readRaw line with
    | (.error e, after) => (.error e, after)
    | (.ok b, after) =>
      let digit := b &&& 0x7F
      if digit = xon ∨ digit = xoff then readHexDigits (more + 1) after
      else andThen (readHexDigits more after) fun rest line => (.ok (digit :: rest), line)
termination_by line.size
decreasing_by
  all_goals
    have := size_of_readRaw _h
    omega

def readIdle (line : Line) : Heard UInt8 :=
  match readRaw line with
  | (.error .idle, line) => (.error (.failed .stalled), line)
  | heard => heard

def skipHexLineEnd (line : Line) : Heard Unit :=
  andThen (readIdle line) fun b line =>
    if b &&& 0x7F ≠ 0x0D then (.ok (), line.pushBack b)
    else andThen (readIdle line) fun b line =>
      if b &&& 0x7F ≠ 0x0A then (.ok (), line.pushBack b) else (.ok (), line)

def headerOf (payload : List UInt8) (wide : Bool) : Header :=
  ⟨(payload.headD 0).toNat, littleEndian (payload.drop 1), wide⟩

def readHexHeader (line : Line) : Heard (Option Header) :=
  andThen (readHexDigits 14 line) fun digits line =>
    match hexBytes digits with
    | none => (.ok none, line)
    | some body =>
      let header := headerOf (body.take 5) false
      if checks false (body.take 5) (body.drop 5) = false then (.ok none, line)
      else if hasData header.frameType = true then
        andThen (skipHexLineEnd line) fun _ line => (.ok (some header), line)
      else (.ok (some header), line)

def readBinaryHeader (wide : Bool) (line : Line) : Heard (Option Header) :=
  let one := readZdleByte readRaw maxSubpacketBytes
  andThen (readMany one 5 line) fun payload line =>
    andThen (readMany one (if wide = true then 4 else 2) line) fun received line =>
      if checks wide payload received = false then (.ok none, line)
      else (.ok (some (headerOf payload wide)), line)

def readHeaderBody (kind : UInt8) (line : Line) : Heard (Option Header) :=
  if kind = zhex then readHexHeader line else readBinaryHeader (decide (kind = zbin32)) line

theorem reads_readRaw' (line : Line) : Reads Fault.isNoValueError 1 line (readRaw line) := by
  refine (reads_readRaw line).mono ?_ (Nat.le_refl 1)
  rintro e (rfl | rfl | rfl) h <;> cases h

theorem isNoValueError_of_isContained (e : Fault) (h : e.isContained) : e.isNoValueError := by
  rintro rfl
  rcases h with h | h
  · cases h
  · cases h

theorem reads_readHexDigits (count : Nat) (line : Line) :
    Reads Fault.isNoValueError line.size line (readHexDigits count line) := by
  fun_induction readHexDigits count line with
  | case1 line => exact (reads_ok []).unbounded
  | case2 line more e after h =>
    have hraw := reads_readRaw' line
    rw [h] at hraw
    exact ⟨hraw.shrinks, Nat.le_add_left _ _, fun e' he => hraw.raises e' (by cases he; rfl)⟩
  | case3 line more b after h digit hflow ih =>
    have hsize := size_of_readRaw h
    exact ⟨by have := ih.shrinks; omega, Nat.le_add_left _ _, ih.raises⟩
  | case4 line more b after h digit hflow ih =>
    have hsize := size_of_readRaw h
    have hthen : Reads Fault.isNoValueError (after.size + 0) after
        (andThen (readHexDigits more after) fun rest line => (.ok (digit :: rest), line)) :=
      ih.andThen (fun _ _ _ => reads_ok _)
    exact ⟨by have := hthen.shrinks; omega, Nat.le_add_left _ _, hthen.raises⟩

theorem reads_readIdle (line : Line) : Reads Fault.isNoValueError 1 line (readIdle line) := by
  have hraw := reads_readRaw' line
  unfold readIdle
  split
  · rename_i after heq
    rw [heq] at hraw
    exact ⟨hraw.shrinks, hraw.taken, fun e he => by cases he; exact Fault.noConfusion⟩
  · exact hraw

theorem size_of_readIdle {line : Line} (h : readIdle line = (.ok b, after)) :
    after.size + 1 = line.size := by
  unfold readIdle at h
  split at h
  · cases h
  · exact size_of_readRaw h

theorem reads_skipHexLineEnd (line : Line) :
    Reads Fault.isNoValueError line.size line (skipHexLineEnd line) := by
  have hidle := reads_readIdle line
  unfold skipHexLineEnd andThen
  split
  · rename_i e after heq
    rw [heq] at hidle
    exact ⟨hidle.shrinks, Nat.le_add_left _ _, fun e' he => hidle.raises e' (by cases he; rfl)⟩
  · rename_i b after heq
    have hsize := size_of_readIdle heq
    have hidle' := reads_readIdle after
    beta_reduce
    split
    · exact ⟨by rw [size_pushBack]; omega, Nat.le_add_left _ _, fun _ h => by cases h⟩
    · split
      · rename_i e last heq'
        rw [heq'] at hidle'
        have hshrinks := hidle'.shrinks
        exact ⟨by simp only at hshrinks ⊢; omega, Nat.le_add_left _ _,
          fun e' he => hidle'.raises e' (by cases he; rfl)⟩
      · rename_i b' last heq'
        have hsize' := size_of_readIdle heq'
        split
        · exact ⟨by rw [size_pushBack]; omega, Nat.le_add_left _ _, fun _ h => by cases h⟩
        · exact ⟨by simp only; omega, Nat.le_add_left _ _, fun _ h => by cases h⟩

theorem reads_readHeaderBody (kind : UInt8) (line : Line) :
    Reads Fault.isNoValueError line.size line (readHeaderBody kind line) := by
  unfold readHeaderBody
  split
  · unfold readHexHeader
    refine ((reads_readHexDigits 14 line).andThen (m := line.size) ?_).unbounded
    intro digits after hdigits
    have hshrinks := (reads_readHexDigits 14 line).shrinks
    rw [hdigits] at hshrinks
    split
    · exact (reads_ok none).mono (fun _ h => h) (Nat.zero_le _)
    · simp only
      split
      · exact (reads_ok none).mono (fun _ h => h) (Nat.zero_le _)
      · split
        · refine ((reads_skipHexLineEnd after).andThen (m := 0) ?_).mono (fun _ h => h) hshrinks
          intro _ last hlast
          exact reads_ok _
        · exact (reads_ok _).mono (fun _ h => h) (Nat.zero_le _)
  · unfold readBinaryHeader
    have hone : ∀ line, Reads Fault.isNoValueError (maxSubpacketBytes + 2) line
        (readZdleByte readRaw maxSubpacketBytes line) := fun line =>
      reads_readZdleByte isNoValueError_of_isContained reads_readRaw' maxSubpacketBytes line
    refine ((reads_readMany hone 5 line).andThen (m := 4 * (maxSubpacketBytes + 2)) ?_).unbounded
    intro payload after hpayload
    refine ((reads_readMany hone _ after).andThen (m := 0) ?_).mono (fun _ h => h) ?_
    · intro received last hreceived
      split
      · exact reads_ok _
      · exact reads_ok _
    · split <;> omega

def afterPads (line : Line) : Heard UInt8 :=
  match _h : readRaw line with
  | (.error e, after) => (.error e, after)
  | (.ok b, after) => if b = zpad then afterPads after else (.ok b, after)
termination_by line.size
decreasing_by
  have := size_of_readRaw _h
  omega

theorem reads_afterPads (line : Line) :
    Reads Fault.isNoValueError line.size line (afterPads line) := by
  have hraw := reads_readRaw' line
  fun_induction afterPads line with
  | case1 line e after h =>
    rw [h] at hraw
    exact ⟨hraw.shrinks, Nat.le_add_left _ _, hraw.raises⟩
  | case2 line after h ih =>
    have hsize := size_of_readRaw h
    have hthen := ih (reads_readRaw' after)
    exact ⟨by have := hthen.shrinks; omega, Nat.le_add_left _ _, hthen.raises⟩
  | case3 line b after h hpad =>
    rw [h] at hraw
    exact ⟨hraw.shrinks, Nat.le_add_left _ _, hraw.raises⟩

def readFramed (line : Line) : Heard (Header ⊕ Nat) :=
  andThen (afterPads line) fun b line =>
    if b ≠ zdle then (.ok (.inr 0), line)
    else andThen (readRaw line) fun kind line =>
      if kind = zhex ∨ kind = zbin ∨ kind = zbin32 then
        andThen (readHeaderBody kind line) fun header line =>
          match header with
          | some header => (.ok (.inl header), line)
          | none => (.ok (.inr 0), line)
      -- Of five `CAN`s in a row, which are the peer cancelling, these are two.
      else (.ok (.inr (if kind = can then 2 else 0)), line)

theorem reads_readFramed (line : Line) :
    Reads Fault.isNoValueError line.size line (readFramed line) := by
  have hpads := reads_afterPads line
  unfold readFramed
  refine (hpads.andThen (m := line.size + 1) ?_).unbounded
  intro b after hb
  have hshrinks := hpads.shrinks
  rw [hb] at hshrinks
  split
  · exact (reads_ok _).mono (fun _ h => h) (Nat.zero_le _)
  · have hraw := reads_readRaw' after
    refine (hraw.andThen (m := line.size) ?_).mono (fun _ h => h) (by omega)
    intro kind last hkind
    have hshrinks' := hraw.shrinks
    rw [hkind] at hshrinks'
    split
    · refine ((reads_readHeaderBody kind last).andThen (m := 0) ?_).mono (fun _ h => h)
        (Nat.le_trans hshrinks' hshrinks)
      intro header final hheader
      cases header with
      | none => exact reads_ok _
      | some header => exact reads_ok _
    · exact (reads_ok _).mono (fun _ h => h) (Nat.zero_le _)

def scanHeader (cans : Nat) (line : Line) : Heard Header :=
  match _h : readRaw line with
  | (.error e, after) => (.error e, after)
  | (.ok b, after) =>
    if b = can then
      if 5 ≤ cans + 1 then (.error .cancelled, after) else scanHeader (cans + 1) after
    else if b ≠ zpad then scanHeader 0 after
    else
      match _hframed : readFramed after with
      | (.error e, last) => (.error e, last)
      | (.ok (.inl header), last) => (.ok header, last)
      | (.ok (.inr cans), last) => scanHeader cans last
termination_by line.size
decreasing_by
  · have := size_of_readRaw _h
    omega
  · have := size_of_readRaw _h
    omega
  · have := size_of_readRaw _h
    have hshrinks := (reads_readFramed after).shrinks
    rw [_hframed] at hshrinks
    simp only at hshrinks
    omega

theorem reads_scanHeader (cans : Nat) (line : Line) :
    Reads Fault.isNoValueError line.size line (scanHeader cans line) ∧
      ∀ header, (scanHeader cans line).1 = .ok header →
        (scanHeader cans line).2.size < line.size := by
  fun_induction scanHeader cans line with
  | case1 cans line e after h =>
    have hraw := reads_readRaw' line
    rw [h] at hraw
    exact ⟨⟨hraw.shrinks, Nat.le_add_left _ _, fun e' he => hraw.raises e' (by cases he; rfl)⟩,
      fun _ h => by cases h⟩
  | case2 cans line after hcans h =>
    have hsize := size_of_readRaw h
    refine ⟨⟨by simp only; omega, Nat.le_add_left _ _, ?_⟩, fun _ h => by cases h⟩
    intro e he
    cases he
    exact Fault.noConfusion
  | case3 cans line after hcans h ih =>
    have hsize := size_of_readRaw h
    have hshrinks := ih.1.shrinks
    exact ⟨⟨by omega, Nat.le_add_left _ _, ih.1.raises⟩,
      fun header hheader => by have := ih.2 header hheader; omega⟩
  | case4 cans line b after h hcan hpad ih =>
    have hsize := size_of_readRaw h
    have hshrinks := ih.1.shrinks
    exact ⟨⟨by omega, Nat.le_add_left _ _, ih.1.raises⟩,
      fun header hheader => by have := ih.2 header hheader; omega⟩
  | case5 cans line b after h hcan hpad e last hframed =>
    have hsize := size_of_readRaw h
    have hread := reads_readFramed after
    rw [hframed] at hread
    have hshrinks := hread.shrinks
    simp only at hshrinks
    exact ⟨⟨by simp only; omega, Nat.le_add_left _ _,
      fun e' he => hread.raises e' (by cases he; rfl)⟩, fun _ h => by cases h⟩
  | case6 cans line b after h hcan hpad header last hframed =>
    have hsize := size_of_readRaw h
    have hread := reads_readFramed after
    rw [hframed] at hread
    have hshrinks := hread.shrinks
    simp only at hshrinks
    exact ⟨⟨by simp only; omega, Nat.le_add_left _ _, fun _ h => by cases h⟩,
      fun _ _ => by simp only; omega⟩
  | case7 cans line b after h hcan hpad cans' last hframed ih =>
    have hsize := size_of_readRaw h
    have hread := reads_readFramed after
    rw [hframed] at hread
    have hshrinks := hread.shrinks
    have hshrinks' := ih.1.shrinks
    simp only at hshrinks
    exact ⟨⟨by omega, Nat.le_add_left _ _, ih.1.raises⟩,
      fun header hheader => by have := ih.2 header hheader; omega⟩

def nextHeader (line : Line) : Heard Header :=
  match scanHeader 0 line with
  | (.error .late, line) => (.error .noResponse, line)
  | (.error .idle, line) => (.error .noResponse, line)
  | heard => heard

theorem isContained_of_scan (h : e.isNoValueError) (hlate : e ≠ .late)
    (hidle : e ≠ .idle) : e.isContained := by
  cases e with
  | failed failure => exact .inl rfl
  | cancelled => exact .inl rfl
  | badCheck => exact .inl rfl
  | noResponse => exact .inl rfl
  | late => exact absurd rfl hlate
  | idle => exact absurd rfl hidle
  | sessionClosed => exact .inr rfl
  | valueError => exact absurd rfl h

theorem reads_nextHeader (line : Line) :
    Reads Fault.isContained line.size line (nextHeader line) := by
  have hscan := (reads_scanHeader 0 line).1
  unfold nextHeader
  split
  · rename_i after heq
    rw [heq] at hscan
    exact ⟨hscan.shrinks, Nat.le_add_left _ _, fun e he => by cases he; exact .inl rfl⟩
  · rename_i after heq
    rw [heq] at hscan
    exact ⟨hscan.shrinks, Nat.le_add_left _ _, fun e he => by cases he; exact .inl rfl⟩
  · rename_i hlate hidle
    refine ⟨hscan.shrinks, hscan.taken, ?_⟩
    intro e he
    apply isContained_of_scan (hscan.raises e he)
    · rintro rfl
      exact hlate _ (Prod.ext he rfl)
    · rintro rfl
      exact hidle _ (Prod.ext he rfl)

theorem size_of_nextHeader {line : Line} {header : Header}
    (h : nextHeader line = (.ok header, after)) : after.size < line.size := by
  have hscan := (reads_scanHeader 0 line).2 header
  unfold nextHeader at h
  split at h
  · cases h
  · cases h
  · rw [h] at hscan
    exact hscan rfl

def readData (room : Nat) (line : Line) : Heard (List UInt8 × UInt8) :=
  andThen (readBulk line) fun b line =>
    if isFlowControl b = true then
      match room with
      | 0 => (.error (.failed .subpacketTooLong), line)
      | room + 1 => readData room line
    else if b ≠ zdle then
      match room with
      | 0 => (.error (.failed .subpacketTooLong), line)
      | room + 1 => andThen (readData room line) fun rest line => (.ok (b :: rest.1, rest.2), line)
    else andThen (readBulk line) fun b2 line =>
      if b2 = zdle then (.error .cancelled, line)
      else if isTerminator b2 = true then (.ok ([], b2), line)
      else
        match room with
        | 0 => (.error (.failed .subpacketTooLong), line)
        | room + 1 =>
          andThen (readData room line) fun rest line => (.ok (unescape b2 :: rest.1, rest.2), line)

/-- `_read_subpacket`: the data and its terminator, or nothing where it raises `_CrcError`. -/
def readSubpacket (wide : Bool) (line : Line) : Heard (Option (List UInt8 × UInt8)) :=
  andThen (readData maxSubpacketBytes line) fun packet line =>
    andThen (readMany (readZdleByte readBulk maxSubpacketBytes) (if wide = true then 4 else 2) line)
      fun received line =>
        if checks wide (packet.1 ++ [packet.2]) received = false then (.ok none, line)
        else (.ok (some packet), line)

def maxSubpacketRead : Nat := 2 * maxSubpacketBytes + 2 + 4 * (maxSubpacketBytes + 2)

theorem reads_readData (room : Nat) (line : Line) :
    Reads Fault.isContained (2 * room + 2) line (readData room line) := by
  have hfails : ∀ {α : Type} (failure : Failure) (m : Nat) (line : Line),
      Reads Fault.isContained m line ((.error (.failed failure), line) : Heard α) :=
    fun failure m line => (reads_error (.inl rfl)).mono (fun _ h => h) (Nat.zero_le m)
  induction room generalizing line with
  | zero =>
    unfold readData
    refine ((reads_readBulk line).andThen (m := 1) ?_).mono (fun _ h => h) (Nat.le_refl 2)
    intro b after hb
    split
    · exact hfails _ _ _
    · split
      · exact hfails _ _ _
      · refine (reads_readBulk after).andThen (m := 0) ?_
        intro b2 last hb2
        split
        · exact reads_error (.inl rfl)
        · split
          · exact reads_ok _
          · exact hfails _ _ _
  | succ room ih =>
    unfold readData
    refine ((reads_readBulk line).andThen (m := 1 + (2 * room + 2)) ?_).mono (fun _ h => h)
      (by omega)
    intro b after hb
    split
    · exact (ih after).mono (fun _ h => h) (by omega)
    · split
      · refine ((ih after).andThen (m := 0) ?_).mono (fun _ h => h) (by omega)
        intro rest last hrest
        exact reads_ok _
      · refine (reads_readBulk after).andThen (m := 2 * room + 2) ?_
        intro b2 last hb2
        split
        · exact (reads_error (.inl rfl)).mono (fun _ h => h) (Nat.zero_le _)
        · split
          · exact (reads_ok _).mono (fun _ h => h) (Nat.zero_le _)
          · refine ((ih last).andThen (m := 0) ?_).mono (fun _ h => h) (by omega)
            intro rest final hrest
            exact reads_ok _

theorem reads_readSubpacket (wide : Bool) (line : Line) :
    Reads Fault.isContained maxSubpacketRead line (readSubpacket wide line) := by
  unfold readSubpacket maxSubpacketRead
  refine (reads_readData maxSubpacketBytes line).andThen ?_
  intro packet after hpacket
  have hone : ∀ line, Reads Fault.isContained (maxSubpacketBytes + 2) line
      (readZdleByte readBulk maxSubpacketBytes line) := fun line =>
    reads_readZdleByte (fun _ h => h) reads_readBulk maxSubpacketBytes line
  refine ((reads_readMany hone _ after).andThen (m := 0) ?_).mono (fun _ h => h) ?_
  · intro received last hreceived
    split
    · exact reads_ok _
    · exact reads_ok _
  · split <;> omega

def Advances {α : Type} (least : Nat) (line : Line) (heard : Heard α) : Prop :=
  ∀ a, heard.1 = .ok a → heard.2.size + least ≤ line.size

theorem advances_error {α : Type} {line : Line} (e : Fault) (after : Line) :
    Advances least line ((.error e, after) : Heard α) := fun _ h => by cases h

theorem advances_ok {α : Type} {line : Line} (a : α) : Advances 0 line (.ok a, line) :=
  fun _ _ => le_rfl

theorem Advances.andThen {α β : Type} {least m : Nat} {line : Line} {heard : Heard α}
    {next : α → Line → Heard β} (h : Advances least line heard)
    (hnext : ∀ a after, heard = (.ok a, after) → Advances m after (next a after)) :
    Advances (least + m) line (andThen heard next) := by
  obtain ⟨result, after⟩ := heard
  cases result with
  | error e => exact advances_error e after
  | ok a =>
    intro b hb
    have hfirst := h a rfl
    have hsecond := hnext a after rfl b hb
    simp only [Zmodem.andThen] at hfirst ⊢
    omega

theorem Advances.fewer {α : Type} {m : Nat} {line : Line} {heard : Heard α}
    (h : Advances least line heard) (hle : m ≤ least) : Advances m line heard :=
  fun a ha => Nat.le_trans (Nat.add_le_add_left hle _) (h a ha)

theorem advances_readBulk (line : Line) : Advances 1 line (readBulk line) := by
  intro b hb
  unfold readBulk at hb ⊢
  split at hb
  · cases hb
  · cases hb
  · exact Nat.le_of_eq (size_of_readRaw (Prod.ext hb rfl))

theorem advances_readData (room : Nat) (line : Line) : Advances 1 line (readData room line) := by
  induction room generalizing line with
  | zero =>
    unfold readData
    apply Advances.fewer ((advances_readBulk line).andThen (m := 0) _) (Nat.le_refl 1)
    intro b after hb
    split
    · exact advances_error _ _
    · split
      · exact advances_error _ _
      · apply Advances.fewer ((advances_readBulk after).andThen (m := 0) _) (Nat.zero_le _)
        intro b2 last hb2
        split
        · exact advances_error _ _
        · split
          · exact advances_ok _
          · exact advances_error _ _
  | succ room ih =>
    unfold readData
    apply Advances.fewer ((advances_readBulk line).andThen (m := 0) _) (Nat.le_refl 1)
    intro b after hb
    split
    · exact (ih after).fewer (Nat.zero_le 1)
    · split
      · apply Advances.fewer ((ih after).andThen (m := 0) _) (Nat.zero_le _)
        intro rest last hrest
        exact advances_ok _
      · apply Advances.fewer ((advances_readBulk after).andThen (m := 0) _) (Nat.zero_le _)
        intro b2 last hb2
        split
        · exact advances_error _ _
        · split
          · exact advances_ok _
          · apply Advances.fewer ((ih last).andThen (m := 0) _) (Nat.zero_le _)
            intro rest final hrest
            exact advances_ok _

theorem size_of_readSubpacket {wide : Bool} {line : Line}
    {packet : Option (List UInt8 × UInt8)} (h : readSubpacket wide line = (.ok packet, after)) :
    after.size < line.size := by
  have hadvances : Advances 1 line (readSubpacket wide line) := by
    unfold readSubpacket
    apply (advances_readData maxSubpacketBytes line).andThen (m := 0)
    intro packet after hpacket
    have hone : ∀ line, Reads Fault.isContained (maxSubpacketBytes + 2) line
        (readZdleByte readBulk maxSubpacketBytes line) := fun line =>
      reads_readZdleByte (fun _ h => h) reads_readBulk maxSubpacketBytes line
    have hmany : Advances 0 after (readMany (readZdleByte readBulk maxSubpacketBytes)
        (if wide = true then 4 else 2) after) := fun _ _ => (reads_readMany hone _ after).shrinks
    apply hmany.andThen (m := 0)
    intro received last hreceived
    split
    · exact advances_ok _
    · exact advances_ok _
  have hsize := hadvances packet
  rw [h] at hsize
  exact hsize rfl

structure NameTables where
  /-- `data.decode("utf-8", errors="replace")`. -/
  decodeUtf8Replace : List UInt8 → Text
  /-- `str.isprintable` of one character. -/
  isPrintable : Char → Bool

def safeFilename (tables : NameTables) (raw : Text) : Text :=
  let basename := ((raw.map fun c => if c = Char.ofNat 0x5C then '/' else c).splitOn '/').getLastD []
  let cleaned := Text.strip (basename.filter fun c => tables.isPrintable c && c != Char.ofNat 0)
  if cleaned = [] then "unnamed".toList else cleaned.take 255

def splitInfo (info : List UInt8) : List UInt8 × List UInt8 :=
  let mark : UInt8 := if 0 ∈ info then 0 else 0x20
  (info.takeWhile (· ≠ mark), (info.dropWhile (· ≠ mark)).tail)

def sizeField (info : List UInt8) : List UInt8 :=
  ((splitInfo info).2.takeWhile (· ≠ 0)).takeWhile (· ≠ 0x20)

def isDigits (field : List UInt8) : Bool :=
  !field.isEmpty && field.all fun b => 0x30 ≤ b && b ≤ 0x39

/-- `int(size_field)` of digits; `none` where it raises `ValueError`. -/
def intOfDigits (field : List UInt8) : Option Nat :=
  if 4300 < field.length then none
  else some (field.foldl (fun n b => 10 * n + (b.toNat - 0x30)) 0)

def judgeInfo (tables : NameTables) (maxBytes : Nat) (info : List UInt8) : Except Fault Text :=
  let name := tables.decodeUtf8Replace (splitInfo info).1
  let filename := if name = [] then "unnamed".toList else safeFilename tables name
  if isDigits (sizeField info) = true then
    match intOfDigits (sizeField info) with
    | none => .error .valueError
    | some size =>
      if maxBytes < size then .error (.failed (.advertisedOverLimit size maxBytes)) else .ok filename
  else .ok filename

def readOffer (tables : NameTables) (maxBytes : Nat) (offer : Header) (line : Line) : Heard Text :=
  andThen (readSubpacket offer.crc32 line) fun packet line =>
    match packet with
    | none => (.error .badCheck, line)
    | some (info, _) => (judgeInfo tables maxBytes info, line)

/-- `_RECEIVER_FLAGS << 24`. -/
def receiverFlags : Nat := 0x03 <<< 24

def isCancel (header : Header) : Bool := header.frameType = zcan || header.frameType = zabort

def awaitOffer (line : Line) : Heard Header :=
  match _h : nextHeader line with
  | (.error e, after) => (.error e, after)
  | (.ok header, after) =>
    if isCancel header = true then (.error .cancelled, after)
    else if header.frameType = zfile then (.ok header, after)
    else if header.frameType = zrqinit then awaitOffer (after.send zrinit receiverFlags)
    else if header.frameType = zsinit then
      match _hpacket : readSubpacket header.crc32 after with
      | (.error e, last) => (.error e, last)
      | (.ok none, last) => (.error .badCheck, last)
      | (.ok (some _), last) => awaitOffer (last.send zack 0)
    else if header.frameType = zfin then (.error (.failed .endedWithoutFile), after.send zfin 0)
    else if header.frameType = znak ∨ header.frameType = zfreecnt then awaitOffer after
    else (.error (.failed (.unexpectedFrame header.frameType)), after)
termination_by line.size
decreasing_by
  · rw [size_send]
    exact size_of_nextHeader _h
  · have hsize := size_of_nextHeader _h
    have hpacket := size_of_readSubpacket _hpacket
    rw [size_send]
    omega
  · exact size_of_nextHeader _h

structure Transfer where
  content : List UInt8 := []
  errors : Nat := 0

abbrev Received := Except Fault Unit × Transfer × Line

def askAgain (s : Transfer) (line : Line) : Received :=
  if maxErrors < s.errors + 1 then
    (.error (.failed .tooManyErrors), { s with errors := s.errors + 1 }, line)
  else (.ok (), { s with errors := s.errors + 1 }, line.send zrpos s.content.length)

theorem size_askAgain (s : Transfer) (line : Line) : (askAgain s line).2.2.size = line.size := by
  unfold askAgain
  split
  · rfl
  · rfl

def receiveData (maxBytes : Nat) (wide : Bool) (s : Transfer) (line : Line) : Received :=
  match _h : readSubpacket wide line with
  | (.error e, after) => (.error e, s, after)
  | (.ok none, after) => askAgain s after
  | (.ok (some (chunk, terminator)), after) =>
    if maxBytes < s.content.length + chunk.length then
      (.error (.failed (.overLimit maxBytes)), s, after)
    else
      let s := { s with content := s.content ++ chunk }
      let after' :=
        if terminator = zcrcw ∨ terminator = zcrcq then after.send zack s.content.length else after
      if terminator = zcrcw ∨ terminator = zcrce then (.ok (), s, after')
      else receiveData maxBytes wide s after'
termination_by line.size
decreasing_by
  have := size_of_readSubpacket _h
  split <;> simpa using this

theorem size_receiveData (maxBytes : Nat) (wide : Bool) (s : Transfer) (line : Line) :
    (receiveData maxBytes wide s line).2.2.size ≤ line.size := by
  fun_induction receiveData maxBytes wide s line with
  | case1 s line e after h =>
    have hshrinks := (reads_readSubpacket wide line).shrinks
    rw [h] at hshrinks
    exact hshrinks
  | case2 s line after h =>
    have hsize := size_of_readSubpacket h
    unfold askAgain
    split
    · exact Nat.le_of_lt hsize
    · exact Nat.le_of_lt hsize
  | case3 s line chunk terminator after h hover => exact Nat.le_of_lt (size_of_readSubpacket h)
  | case4 s line chunk terminator after h hover s' after' hends =>
    have hsize := size_of_readSubpacket h
    show after'.size ≤ line.size
    unfold after'
    split
    · rw [size_send]
      omega
    · omega
  | case5 s line chunk terminator after h hover s' after' hends ih =>
    have hsize := size_of_readSubpacket h
    have hafter : after'.size = after.size := by
      unfold after'
      split
      · exact size_send _ _ _
      · rfl
    omega

def receiveFrames (maxBytes : Nat) (s : Transfer) (line : Line) : Received :=
  match _h : nextHeader line with
  | (.error e, after) => (.error e, s, after)
  | (.ok header, after) =>
    if isCancel header = true then (.error .cancelled, s, after)
    else if header.frameType = zeof then
      if header.position = s.content.length then (.ok (), s, after)
      else
        -- The sender thinks it is done.
        match _hasked : askAgain s after with
        | (.error e, asked, last) => (.error e, asked, last)
        | (.ok _, asked, last) => receiveFrames maxBytes asked last
    else if header.frameType = zfile then
      match _hpacket : readSubpacket header.crc32 after with
      | (.error e, last) => (.error e, s, last)
      | (.ok none, last) => (.error .badCheck, s, last)
      | (.ok (some _), last) => receiveFrames maxBytes s (last.send zrpos s.content.length)
    else if header.frameType = zrqinit ∨ header.frameType = znak ∨ header.frameType = zsinit then
      receiveFrames maxBytes s after
    else if header.frameType ≠ zdata then
      (.error (.failed (.unexpectedFrame header.frameType)), s, after)
    else if header.position ≠ s.content.length then
      match _hasked : askAgain s after with
      | (.error e, asked, last) => (.error e, asked, last)
      | (.ok _, asked, last) => receiveFrames maxBytes asked last
    else
      match _hdata : receiveData maxBytes header.crc32 s after with
      | (.error e, stored, last) => (.error e, stored, last)
      | (.ok _, stored, last) => receiveFrames maxBytes stored last
termination_by line.size
decreasing_by
  · have hsize := size_of_nextHeader _h
    have hasked := size_askAgain s after
    rw [_hasked] at hasked
    simp only at hasked
    omega
  · have hsize := size_of_nextHeader _h
    have hpacket := size_of_readSubpacket _hpacket
    rw [size_send]
    omega
  · exact size_of_nextHeader _h
  · have hsize := size_of_nextHeader _h
    have hasked := size_askAgain s after
    rw [_hasked] at hasked
    simp only at hasked
    omega
  · have hsize := size_of_nextHeader _h
    have hdata := size_receiveData maxBytes header.crc32 s after
    rw [_hdata] at hdata
    simp only at hdata
    omega

def closeReceiving (line : Line) : Heard Unit :=
  match _h : nextHeader line with
  | (.error e, after) => (if e.isZmodem = true then .ok () else .error e, after)
  | (.ok header, after) =>
    if header.frameType = zfin then (.ok (), after.send zfin 0)
    else if header.frameType = zfile then
      match _hpacket : readSubpacket header.crc32 after with
      | (.ok _, last) => closeReceiving (last.send zskip 0)
      | (.error e, last) =>
        if e.isZmodem = true then closeReceiving (last.send zskip 0) else (.error e, last)
    else if header.frameType = zeof then closeReceiving (after.send zrinit receiverFlags)
    else if isCancel header = true then (.ok (), after)
    else closeReceiving after
termination_by line.size
decreasing_by
  · have hsize := size_of_nextHeader _h
    have hpacket := size_of_readSubpacket _hpacket
    rw [size_send]
    omega
  · have hsize := size_of_nextHeader _h
    have hpacket := (reads_readSubpacket header.crc32 after).shrinks
    rw [_hpacket] at hpacket
    simp only at hpacket
    rw [size_send]
    omega
  · rw [size_send]
    exact size_of_nextHeader _h
  · exact size_of_nextHeader _h

structure ReceivedFile where
  filename : Text
  sha256 : String
  sizeBytes : Nat

structure Receiver where
  tables : NameTables
  sha256 : List UInt8 → String

structure Upload where
  outcome : Except Fault ReceivedFile
  written : List UInt8
  dest : Option (List UInt8)
  line : Line

/-- `_receive_file_frames`; the file is opened once an offer has been taken. -/
def receiveFileFrames (receiver : Receiver) (maxBytes : Nat) (line : Line) : Upload :=
  match awaitOffer (line.send zrinit receiverFlags) with
  | (.error e, line) => ⟨.error e, [], none, line⟩
  | (.ok offer, line) =>
    match readOffer receiver.tables maxBytes offer line with
    | (.error e, line) => ⟨.error e, [], none, line⟩
    | (.ok filename, line) =>
      match receiveFrames maxBytes {} (line.send zrpos 0) with
      | (.error e, s, line) => ⟨.error e, s.content, some s.content, line⟩
      | (.ok _, s, line) =>
        match closeReceiving (line.send zrinit receiverFlags) with
        | (.error e, line) => ⟨.error e, s.content, some s.content, line⟩
        | (.ok _, line) =>
          ⟨.ok ⟨filename, receiver.sha256 s.content, s.content.length⟩, s.content, some s.content, line⟩

/-- `_drain`: what comes before the line is quiet. -/
def drain (line : Line) : Line :=
  { line with
    pushback := []
    arriving := line.arriving.dropWhile fun event =>
      match event with
      | .byte _ => true
      | _ => false }

/-- `_give_up`, whose own exceptions are dropped. -/
def giveUp (e : Fault) (line : Line) : Line :=
  drain (if e = .cancelled then line else { line with sent := line.sent ++ [.abort] })

def receiveFile (receiver : Receiver) (maxBytes : Nat) (line : Line) : Upload :=
  let upload := receiveFileFrames receiver maxBytes line
  match upload.outcome with
  | .error e => { upload with dest := none, line := giveUp e upload.line }
  | .ok _ => { upload with line := drain upload.line }

end NetBBS.Zmodem
