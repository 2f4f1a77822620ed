import Mathlib.Algebra.GroupWithZero.Nat
import NetBBS.Net.ZmodemContained

/-! # Zmodem framing there and back -/

namespace NetBBS.Zmodem

open List

def needsEscape (b : UInt8) : Bool :=
  b = zdle || b = 0x10 || b = 0x90 || b = 0x11 || b = 0x91 || b = 0x13 || b = 0x93

def encodeByte (b : UInt8) : List UInt8 := if needsEscape b = true then [zdle, b ^^^ 0x40] else [b]

def zdleEncode (data : List UInt8) : List UInt8 := data.flatMap encodeByte

def crcBytes (crc : Nat) : List UInt8 := [UInt8.ofNat (crc / 256), UInt8.ofNat crc]

def positionBytes (position : Nat) : List UInt8 :=
  [UInt8.ofNat position, UInt8.ofNat (position / 256), UInt8.ofNat (position / 65536),
    UInt8.ofNat (position / 16777216)]

def sendSubpacket (data : List UInt8) (terminator : UInt8) : List UInt8 :=
  zdleEncode data ++ [zdle, terminator] ++ zdleEncode (crcBytes (crc16 (data ++ [terminator])))

def headerPayload (frameType : UInt8) (position : Nat) : List UInt8 := frameType :: positionBytes position

def binaryHeader (frameType : UInt8) (position : Nat) : List UInt8 :=
  [zpad, zdle, zbin] ++ zdleEncode (headerPayload frameType position ++
    crcBytes (crc16 (headerPayload frameType position)))

def hexChar (n : Nat) : UInt8 := if n < 10 then UInt8.ofNat (0x30 + n) else UInt8.ofNat (0x57 + n)

/-- `bytes.hex()`. -/
def hexText (bytes : List UInt8) : List UInt8 :=
  bytes.flatMap fun b => [hexChar (b.toNat / 16), hexChar (b.toNat % 16)]

def hexLineEnd (frameType : UInt8) : List UInt8 :=
  [0x0D, 0x8A] ++ if frameType.toNat = zack ∨ frameType.toNat = zfin then [] else [xon]

def hexHeader (frameType : UInt8) (position : Nat) : List UInt8 :=
  [zpad, zpad, zdle, zhex] ++ hexText (headerPayload frameType position ++
    crcBytes (crc16 (headerPayload frameType position))) ++ hexLineEnd frameType

theorem forall_byte {P : UInt8 → Prop} (h : ∀ n < 256, P (UInt8.ofNat n)) (b : UInt8) : P b := by
  have hb := h b.toNat b.toNat_lt
  rwa [UInt8.ofNat_toNat] at hb

theorem escaped_byte (b : UInt8) : needsEscape b = true →
    b ^^^ 0x40 ≠ zdle ∧ isTerminator (b ^^^ 0x40) = false ∧ isFlowControl (b ^^^ 0x40) = false ∧
      (b ^^^ 0x40 ≠ zbin ∧ b ^^^ 0x40 ≠ zhex ∧ b ^^^ 0x40 ≠ zbin32) ∧ unescape (b ^^^ 0x40) = b := by
  revert b
  refine forall_byte ?_
  decide +kernel

theorem plain_byte (b : UInt8) : needsEscape b = false → isFlowControl b = false ∧ b ≠ zdle := by
  revert b
  refine forall_byte ?_
  decide +kernel

theorem zdleEncode_cons (b : UInt8) (data : List UInt8) :
    zdleEncode (b :: data) = encodeByte b ++ zdleEncode data := rfl

theorem zdleEncode_flowControl (data : List UInt8) : ∀ b ∈ zdleEncode data, isFlowControl b = false := by
  intro b hb
  obtain ⟨byte, -, hb⟩ := mem_flatMap.mp hb
  unfold encodeByte at hb
  split at hb
  · rename_i hescape
    obtain ⟨-, -, hflow, -⟩ := escaped_byte byte hescape
    rcases mem_pair.mp hb with rfl | rfl
    · decide
    · exact hflow
  · rename_i hplain
    rw [mem_singleton.mp hb]
    exact (plain_byte byte (by simpa using hplain)).1

variable {b kind terminator : UInt8} {read : Line → Heard UInt8} {position : Nat}
    {header : Header} {after : Line}

theorem zdleEncode_kind {data : List UInt8} (h : [zdle, kind] <:+: zdleEncode data) :
    kind ≠ zbin ∧ kind ≠ zhex ∧ kind ≠ zbin32 := by
  induction data with
  | nil => simp [zdleEncode] at h
  | cons b data ih =>
    rw [zdleEncode_cons, encodeByte] at h
    split at h
    · rename_i hescape
      obtain ⟨hne, -, -, hkind, -⟩ := escaped_byte b hescape
      rcases infix_cons_iff.mp h with hstart | h
      · have hsame : kind = b ^^^ 0x40 := by simpa using hstart
        exact hsame ▸ hkind
      · rcases infix_cons_iff.mp h with hstart | h
        · exact absurd (by simpa using hstart : zdle = b ^^^ 0x40 ∧ _).1.symm hne
        · exact ih h
    · rename_i hplain
      rcases infix_cons_iff.mp h with hstart | h
      · have hne := (plain_byte b (by simpa using hplain)).2
        exact absurd (by simpa using hstart : zdle = b ∧ _).1.symm hne
      · exact ih h

variable {line : Line} {rest : List Arriving} {more gap : List UInt8}

def IsGap (gap : List UInt8) : Prop := ∀ b ∈ gap, isFlowControl b = true

section

variable (hread : ∀ b bytes, read (line.fed (b :: bytes) rest) = (.ok b, line.fed bytes rest))

include hread

theorem readZdleByte_gap (hgap : IsGap gap) (room : Nat) :
    readZdleByte read (gap.length + room) (line.fed (gap ++ more) rest) =
      readZdleByte read room (line.fed more rest) := by
  induction gap with
  | nil => rw [length_nil, Nat.zero_add, nil_append]
  | cons b gap ih =>
    obtain ⟨hb, hgap⟩ := forall_mem_cons.mp hgap
    rw [length_cons, Nat.succ_add, cons_append, readZdleByte, hread]
    simp only [andThen, hb, if_true]
    exact ih hgap

theorem readZdleByte_encoded (b : UInt8) (room : Nat) :
    readZdleByte read room (line.fed (encodeByte b ++ more) rest) = (.ok b, line.fed more rest) := by
  unfold encodeByte
  split
  · rename_i hescape
    obtain ⟨hne, -, -, -, hback⟩ := escaped_byte b hescape
    have hzdle : isFlowControl zdle = false := by decide
    rw [cons_append, singleton_append]
    unfold readZdleByte
    rw [hread]
    simp [andThen, hzdle, hread, hne, hback]
  · rename_i hplain
    exact readZdleByte_plain (hread b more) (plain_byte b (by simpa using hplain))

end

theorem readMany_paced {read : Line → Heard UInt8}
    (hread : ∀ b bytes, read (line.fed (b :: bytes) rest) = (.ok b, line.fed bytes rest))
    {room : Nat} (beats : List (List UInt8 × UInt8))
    (hgaps : ∀ beat ∈ beats, IsGap beat.1 ∧ beat.1.length ≤ room) :
    readMany (readZdleByte read room) beats.length
        (line.fed (beats.flatMap (fun beat => beat.1 ++ encodeByte beat.2) ++ more) rest) =
      (.ok (beats.map Prod.snd), line.fed more rest) := by
  induction beats with
  | nil => rfl
  | cons beat beats ih =>
    obtain ⟨⟨hgap, hroom⟩, hgaps⟩ := forall_mem_cons.mp hgaps
    obtain ⟨left, rfl⟩ := Nat.exists_eq_add_of_le hroom
    rw [length_cons, flatMap_cons, append_assoc, append_assoc, readMany,
      readZdleByte_gap hread hgap, readZdleByte_encoded hread]
    simp [andThen, ih hgaps]

theorem readData_gap (hgap : IsGap gap) (room : Nat) :
    readData (gap.length + room) (line.fed (gap ++ more) rest) = readData room (line.fed more rest) := by
  induction gap with
  | nil => rw [length_nil, Nat.zero_add, nil_append]
  | cons b gap ih =>
    obtain ⟨hb, hgap⟩ := forall_mem_cons.mp hgap
    rw [length_cons, Nat.succ_add, cons_append, readData, readBulk_fed]
    simp only [andThen, hb, if_true]
    exact ih hgap

theorem readData_encoded (b : UInt8) (room : Nat) :
    readData (room + 1) (line.fed (encodeByte b ++ more) rest) =
      andThen (readData room (line.fed more rest)) fun packet line =>
        (.ok (b :: packet.1, packet.2), line) := by
  unfold encodeByte
  split
  · rename_i hescape
    obtain ⟨hne, hterminator, -, -, hback⟩ := escaped_byte b hescape
    have hzdle : isFlowControl zdle = false := by decide
    rw [cons_append, singleton_append]
    conv_lhs => unfold readData
    rw [readBulk_fed]
    simp [andThen, hzdle, readBulk_fed, hne, hterminator, hback]
  · rename_i hplain
    obtain ⟨hflow, hne⟩ := plain_byte b (by simpa using hplain)
    rw [singleton_append]
    conv_lhs => unfold readData
    rw [readBulk_fed]
    simp [andThen, hflow, hne]

theorem readData_terminator (h : isTerminator terminator = true) (room : Nat) :
    readData room (line.fed (zdle :: terminator :: more) rest) =
      (.ok ([], terminator), line.fed more rest) := by
  have hne : terminator ≠ zdle := by
    rintro rfl
    exact absurd h (by decide)
  have hzdle : isFlowControl zdle = false := by decide
  unfold readData
  rw [readBulk_fed]
  simp [andThen, hzdle, readBulk_fed, hne, h]

theorem readData_paced (h : isTerminator terminator = true)
    (beats : List (List UInt8 × UInt8)) (hgaps : ∀ beat ∈ beats, IsGap beat.1) (hgap : IsGap gap)
    {room : Nat} (hroom : (beats.map fun beat => beat.1.length + 1).sum + gap.length ≤ room) :
    readData room (line.fed (beats.flatMap (fun beat => beat.1 ++ encodeByte beat.2) ++
        (gap ++ zdle :: terminator :: more)) rest) =
      (.ok (beats.map Prod.snd, terminator), line.fed more rest) := by
  induction beats generalizing room with
  | nil =>
    obtain ⟨left, rfl⟩ := Nat.exists_eq_add_of_le (by simpa using hroom : gap.length ≤ room)
    rw [flatMap_nil, nil_append, readData_gap hgap, readData_terminator h]
    rfl
  | cons beat beats ih =>
    obtain ⟨hbeat, hgaps⟩ := forall_mem_cons.mp hgaps
    rw [map_cons, sum_cons] at hroom
    obtain ⟨left, rfl⟩ : ∃ left, room = beat.1.length + (left + 1) :=
      ⟨room - beat.1.length - 1, by omega⟩
    rw [flatMap_cons, append_assoc, append_assoc, readData_gap hbeat, readData_encoded,
      ih hgaps (by omega)]
    rfl

theorem crc16_lt (data : List UInt8) : crc16 data < 65536 := by
  have hbit : ∀ crc, crc16Bit crc < 65536 := by
    intro crc
    unfold crc16Bit
    split <;> exact Nat.mod_lt _ (by decide)
  induction data using List.reverseRecOn with
  | nil => decide
  | append_singleton data b ih =>
    rw [crc16, foldl_append]
    exact hbit _

theorem bigEndian_crcBytes {crc : Nat} (h : crc < 65536) : bigEndian (crcBytes crc) = crc := by
  simp only [bigEndian, crcBytes, foldl_cons, foldl_nil, UInt8.toNat_ofNat']
  omega

theorem checks_crcBytes (data : List UInt8) : checks false data (crcBytes (crc16 data)) = true := by
  simp [checks, bigEndian_crcBytes (crc16_lt data)]

def pacedSubpacket (beats : List (List UInt8 × UInt8)) (gap : List UInt8) (terminator : UInt8)
    (gaps : List UInt8 × List UInt8) : List UInt8 :=
  let crc := crc16 (beats.map Prod.snd ++ [terminator])
  beats.flatMap (fun beat => beat.1 ++ encodeByte beat.2) ++ (gap ++ zdle :: terminator ::
    ([(gaps.1, UInt8.ofNat (crc / 256)), (gaps.2, UInt8.ofNat crc)].flatMap fun beat =>
      beat.1 ++ encodeByte beat.2))

theorem pacedSubpacket_nil (data : List UInt8) (terminator : UInt8) :
    pacedSubpacket (data.map fun b => ([], b)) [] terminator ([], []) = sendSubpacket data terminator := by
  simp [pacedSubpacket, sendSubpacket, zdleEncode, crcBytes, flatMap_map, Function.comp_def]

theorem readSubpacket_paced {beats : List (List UInt8 × UInt8)} {terminator : UInt8}
    {gaps : List UInt8 × List UInt8} (h : isTerminator terminator = true)
    (hbeats : ∀ beat ∈ beats, IsGap beat.1) (hgap : IsGap gap)
    (hroom : (beats.map fun beat => beat.1.length + 1).sum + gap.length ≤ maxSubpacketBytes)
    (hgaps : (IsGap gaps.1 ∧ gaps.1.length ≤ maxSubpacketBytes) ∧
      IsGap gaps.2 ∧ gaps.2.length ≤ maxSubpacketBytes) :
    readSubpacket false (line.fed (pacedSubpacket beats gap terminator gaps ++ more) rest) =
      (.ok (some (beats.map Prod.snd, terminator)), line.fed more rest) := by
  have hcheck := @readMany_paced line rest more readBulk (fun b bytes => readBulk_fed b) maxSubpacketBytes
    [(gaps.1, UInt8.ofNat (crc16 (beats.map Prod.snd ++ [terminator]) / 256)),
      (gaps.2, UInt8.ofNat (crc16 (beats.map Prod.snd ++ [terminator])))]
    (forall_mem_cons.mpr ⟨hgaps.1, forall_mem_singleton.mpr hgaps.2⟩)
  have hright := checks_crcBytes (beats.map Prod.snd ++ [terminator])
  unfold readSubpacket pacedSubpacket
  simp only [append_assoc, cons_append]
  rw [readData_paced h beats hbeats hgap hroom]
  simp only [length_cons, length_nil, map_cons, map_nil] at hcheck
  simp only [andThen, Bool.false_eq_true, if_false, hcheck]
  simp only [crcBytes] at hright
  simp [hright]

theorem headerOf_payload (frameType : UInt8) (h : position < 4294967296) :
    headerOf (headerPayload frameType position) false = ⟨frameType.toNat, position, false⟩ := by
  simp only [headerOf, headerPayload, positionBytes, headD_cons, drop_succ_cons, drop_zero,
    littleEndian, bigEndian, reverse_cons, reverse_nil, nil_append, cons_append,
    foldl_cons, foldl_nil, UInt8.toNat_ofNat', Header.mk.injEq, true_and, and_true]
  omega

theorem readMany_encoded {read : Line → Heard UInt8}
    (hread : ∀ b bytes, read (line.fed (b :: bytes) rest) = (.ok b, line.fed bytes rest))
    {room : Nat} (bytes : List UInt8) :
    readMany (readZdleByte read room) bytes.length (line.fed (zdleEncode bytes ++ more) rest) =
      (.ok bytes, line.fed more rest) := by
  have hpaced := @readMany_paced line rest more read hread room (bytes.map fun b => ([], b))
    (by simp [IsGap])
  simpa [zdleEncode, flatMap_map, Function.comp_def] using hpaced

theorem afterPads_zpad : afterPads (line.fed (zpad :: more) rest) = afterPads (line.fed more rest) := by
  rw [afterPads]
  simp [readRaw_fed]

theorem afterPads_ne (h : b ≠ zpad) :
    afterPads (line.fed (b :: more) rest) = (.ok b, line.fed more rest) := by
  rw [afterPads]
  simp only [readRaw_fed, if_neg h]

theorem readFramed_body (hkind : kind = zhex ∨ kind = zbin ∨ kind = zbin32)
    (h : readHeaderBody kind (line.fed more rest) = (.ok (some header), after)) :
    readFramed (line.fed (zdle :: kind :: more) rest) = (.ok (.inl header), after) := by
  unfold readFramed
  rw [afterPads_ne (by decide)]
  simp [andThen, readRaw_fed, if_pos hkind, h]

theorem readFramed_binary (frameType : UInt8) (h : position < 4294967296) :
    readFramed (line.fed ((binaryHeader frameType position).tail ++ more) rest) =
      (.ok (.inl ⟨frameType.toNat, position, false⟩), line.fed more rest) := by
  have hpayload := @readMany_encoded line rest
    (zdleEncode (crcBytes (crc16 (headerPayload frameType position))) ++ more) readRaw
    (fun b bytes => readRaw_fed b) maxSubpacketBytes (headerPayload frameType position)
  have hcheck := @readMany_encoded line rest more readRaw (fun b bytes => readRaw_fed b) maxSubpacketBytes
    (crcBytes (crc16 (headerPayload frameType position)))
  have hencode : zdleEncode (headerPayload frameType position ++
      crcBytes (crc16 (headerPayload frameType position))) =
        zdleEncode (headerPayload frameType position) ++
          zdleEncode (crcBytes (crc16 (headerPayload frameType position))) := flatMap_append
  have htail : (binaryHeader frameType position).tail ++ more = zdle :: zbin ::
      (zdleEncode (headerPayload frameType position) ++
        (zdleEncode (crcBytes (crc16 (headerPayload frameType position))) ++ more)) := by
    simp [binaryHeader, hencode]
  rw [htail]
  refine readFramed_body (.inr (.inl rfl)) ?_
  unfold readHeaderBody readBinaryHeader
  rw [if_neg (by decide)]
  have hwide : decide (zbin = zbin32) = false := by decide
  rw [show (headerPayload frameType position).length = 5 from rfl] at hpayload
  rw [show (crcBytes (crc16 (headerPayload frameType position))).length = 2 from rfl] at hcheck
  simp [hwide, andThen, hpayload, hcheck, checks_crcBytes, headerOf_payload frameType h]

theorem hexChar_spec : ∀ n < 16, hexChar n &&& 0x7F = hexChar n ∧ hexChar n ≠ xon ∧ hexChar n ≠ xoff ∧
    hexDigit (hexChar n) = some n := by
  decide +kernel

theorem readHexDigits_digits {digits : List UInt8}
    (h : ∀ digit ∈ digits, digit &&& 0x7F = digit ∧ digit ≠ xon ∧ digit ≠ xoff) :
    readHexDigits digits.length (line.fed (digits ++ more) rest) = (.ok digits, line.fed more rest) := by
  induction digits with
  | nil => rw [length_nil, readHexDigits, nil_append]
  | cons digit digits ih =>
    obtain ⟨⟨hlow, hxon, hxoff⟩, hdigits⟩ := forall_mem_cons.mp h
    rw [length_cons, cons_append, readHexDigits]
    simp [readRaw_fed, hlow, hxon, hxoff, ih hdigits, andThen]

theorem hexText_digits (bytes : List UInt8) :
    ∀ digit ∈ hexText bytes, digit &&& 0x7F = digit ∧ digit ≠ xon ∧ digit ≠ xoff := by
  intro digit hdigit
  obtain ⟨b, -, hdigit⟩ := mem_flatMap.mp hdigit
  have hlt : b.toNat < 256 := b.toNat_lt
  have hspec : ∀ n < 16, hexChar n &&& 0x7F = hexChar n ∧ hexChar n ≠ xon ∧ hexChar n ≠ xoff :=
    fun n hn => ⟨(hexChar_spec n hn).1, (hexChar_spec n hn).2.1, (hexChar_spec n hn).2.2.1⟩
  rcases mem_pair.mp hdigit with rfl | rfl
  · exact hspec _ (by omega)
  · exact hspec _ (by omega)

theorem hexBytes_hexText (bytes : List UInt8) : hexBytes (hexText bytes) = some bytes := by
  induction bytes with
  | nil => rfl
  | cons b bytes ih =>
    have hlt : b.toNat < 256 := b.toNat_lt
    have hhigh := (hexChar_spec (b.toNat / 16) (by omega)).2.2.2
    have hlow := (hexChar_spec (b.toNat % 16) (by omega)).2.2.2
    have hbyte : UInt8.ofNat (16 * (b.toNat / 16) + b.toNat % 16) = b := by
      rw [Nat.div_add_mod, UInt8.ofNat_toNat]
    change hexBytes (hexChar (b.toNat / 16) :: hexChar (b.toNat % 16) :: hexText bytes) = _
    simp only [hexBytes, hhigh, hlow, ih, Option.bind_eq_bind, Option.bind_some, Option.pure_def, hbyte]

theorem skipHexLineEnd_lineEnd :
    skipHexLineEnd (line.fed (0x0D :: 0x8A :: more) rest) = (.ok (), line.fed more rest) := by
  rfl

theorem readFramed_hex (frameType : UInt8) {position : Nat} (h : position < 4294967296) :
    ∃ after, after <:+ hexLineEnd frameType ∧
      readFramed (line.fed ((hexHeader frameType position).tail ++ more) rest) =
        (.ok (.inl ⟨frameType.toNat, position, false⟩), line.fed (after ++ more) rest) := by
  let body := headerPayload frameType position ++ crcBytes (crc16 (headerPayload frameType position))
  have hdigits := @readHexDigits_digits line rest (hexLineEnd frameType ++ more) (hexText body)
    (hexText_digits body)
  rw [show (hexText body).length = 14 from rfl] at hdigits
  have htail : (hexHeader frameType position).tail ++ more =
      zpad :: zdle :: zhex :: (hexText body ++ (hexLineEnd frameType ++ more)) := by
    simp [hexHeader, body]
  have htake : body.take 5 = headerPayload frameType position := rfl
  have hdrop : body.drop 5 = crcBytes (crc16 (headerPayload frameType position)) := rfl
  have hbody : ∃ after, after <:+ hexLineEnd frameType ∧
      readHeaderBody zhex (line.fed (hexText body ++ (hexLineEnd frameType ++ more)) rest) =
        (.ok (some ⟨frameType.toNat, position, false⟩), line.fed (after ++ more) rest) := by
    unfold readHeaderBody readHexHeader
    simp only [if_true, hdigits, andThen, hexBytes_hexText, htake, hdrop, checks_crcBytes,
      Bool.true_eq_false, if_false, headerOf_payload frameType h]
    cases hdata : hasData frameType.toNat with
    | false =>
      simp only [Bool.false_eq_true, if_false]
      exact ⟨_, suffix_refl _, rfl⟩
    | true =>
      simp only [if_true, hexLineEnd, cons_append, nil_append, skipHexLineEnd_lineEnd]
      exact ⟨_, ⟨[0x0D, 0x8A], rfl⟩, rfl⟩
  obtain ⟨after, hafter, hbody⟩ := hbody
  refine ⟨after, hafter, ?_⟩
  have hframed := readFramed_body (.inl rfl) hbody
  rw [htail]
  unfold readFramed at hframed ⊢
  rw [afterPads_zpad]
  exact hframed

def resume (framed : Heard (Header ⊕ Nat)) : Heard Header :=
  match framed with
  | (.error e, after) => (.error e, after)
  | (.ok (.inl header), after) => (.ok header, after)
  | (.ok (.inr cans), after) => scanHeader cans after

theorem scanHeader_zpad (cans : Nat) :
    scanHeader cans (line.fed (zpad :: more) rest) = resume (readFramed (line.fed more rest)) := by
  rw [scanHeader]
  simp only [readRaw_fed]
  rw [if_neg (by decide), if_neg (by decide)]
  unfold resume
  split
  · rename_i heq
    rw [heq]
  · rename_i heq
    rw [heq]
  · rename_i heq
    rw [heq]

theorem readFramed_zpad : readFramed (line.fed (zpad :: more) rest) = readFramed (line.fed more rest) := by
  unfold readFramed
  rw [afterPads_zpad]

theorem readFramed_other (hpad : b ≠ zpad) (hzdle : b ≠ zdle) :
    readFramed (line.fed (b :: more) rest) = (.ok (.inr 0), line.fed more rest) := by
  unfold readFramed
  rw [afterPads_ne hpad]
  simp [andThen, hzdle]

theorem scanHeader_passes
    (h : readFramed (line.fed more rest) = (.ok (.inl header), after)) (noise : List UInt8)
    (hstart : ¬[zpad, zdle] <:+: noise) :
    (∀ cans, ¬List.replicate 5 can <:+: List.replicate cans can ++ noise →
        scanHeader cans (line.fed (noise ++ zpad :: more) rest) = (.ok header, after)) ∧
      (¬List.replicate 5 can <:+: noise → ¬[zdle] <+: noise →
        resume (readFramed (line.fed (noise ++ zpad :: more) rest)) = (.ok header, after)) := by
  have hfound : resume (readFramed (line.fed more rest)) = (.ok header, after) := by rw [h]; rfl
  induction noise with
  | nil =>
    refine ⟨fun cans _ => ?_, fun _ _ => ?_⟩
    · rw [nil_append, scanHeader_zpad, hfound]
    · rw [nil_append, readFramed_zpad, hfound]
  | cons b noise ih =>
    have hnoise : ¬[zpad, zdle] <:+: noise := fun hin => hstart (infix_cons hin)
    obtain ⟨hscan, hframed⟩ := ih hnoise
    have hfresh : ¬List.replicate 5 can <:+: b :: noise →
        scanHeader 0 (line.fed (noise ++ zpad :: more) rest) = (.ok header, after) :=
      fun hcans => hscan 0 fun hin => hcans (infix_cons hin)
    have hpads : b = zpad → ¬List.replicate 5 can <:+: noise →
        resume (readFramed (line.fed (noise ++ zpad :: more) rest)) = (.ok header, after) := by
      rintro rfl hcans
      refine hframed hcans fun hzdle => hstart (List.IsPrefix.isInfix ?_)
      simpa using hzdle
    constructor
    · intro cans hcans
      have hcans' : ¬List.replicate 5 can <:+: b :: noise := fun hin =>
        hcans (hin.trans (suffix_append _ _).isInfix)
      by_cases hcan : b = can
      · subst hcan
        have hrun : List.replicate cans can ++ can :: noise = List.replicate (cans + 1) can ++ noise := by
          rw [replicate_succ', append_assoc, singleton_append]
        rw [hrun] at hcans
        have hfew : ¬5 ≤ cans + 1 := by
          intro hmany
          obtain ⟨extra, hextra⟩ := Nat.exists_eq_add_of_le hmany
          rw [hextra, replicate_add, append_assoc] at hcans
          exact hcans (prefix_append _ _).isInfix
        rw [cons_append, scanHeader]
        simp only [readRaw_fed, if_true, if_neg hfew]
        exact hscan (cans + 1) hcans
      · by_cases hpad : b = zpad
        · rw [hpad, cons_append, scanHeader_zpad]
          exact hpads hpad fun hin => hcans' (infix_cons hin)
        · rw [cons_append, scanHeader]
          simp only [readRaw_fed, if_neg hcan, ne_eq, hpad, not_false_eq_true, if_true]
          exact hfresh hcans'
    · intro hcans hzdle
      by_cases hpad : b = zpad
      · rw [hpad, cons_append, readFramed_zpad]
        exact hpads hpad fun hin => hcans (infix_cons hin)
      · have hne : b ≠ zdle := fun hb => hzdle (by simp [hb])
        rw [cons_append, readFramed_other hpad hne]
        exact hfresh hcans

/-- Zmodem framing round-trips: every subpacket, with flow control between its units or without, is read back
and nothing behind it. -/
theorem framing_roundTrip (line : Line) (rest : List Arriving) (more : List UInt8) :
    (∀ (data : List UInt8) (terminator : UInt8), data.length ≤ maxSubpacketBytes →
      isTerminator terminator = true →
        readSubpacket false (line.fed (sendSubpacket data terminator ++ more) rest) =
          (.ok (some (data, terminator)), line.fed more rest)) ∧
      (∀ (beats : List (List UInt8 × UInt8)) (terminator : UInt8) (gap : List UInt8)
        (gaps : List UInt8 × List UInt8), isTerminator terminator = true →
          (∀ beat ∈ beats, IsGap beat.1) → IsGap gap →
          (beats.map fun beat => beat.1.length + 1).sum + gap.length ≤ maxSubpacketBytes →
          (IsGap gaps.1 ∧ gaps.1.length ≤ maxSubpacketBytes) ∧
            IsGap gaps.2 ∧ gaps.2.length ≤ maxSubpacketBytes →
          readSubpacket false (line.fed (pacedSubpacket beats gap terminator gaps ++ more) rest) =
            (.ok (some (beats.map Prod.snd, terminator)), line.fed more rest)) ∧
      (∀ (frameType : UInt8) (position : Nat) (noise : List UInt8), position < 4294967296 →
        ¬[zpad, zdle] <:+: noise → ¬List.replicate 5 can <:+: noise →
          scanHeader 0 (line.fed (noise ++ (binaryHeader frameType position ++ more)) rest) =
              (.ok ⟨frameType.toNat, position, false⟩, line.fed more rest) ∧
            ∃ after, after <:+ hexLineEnd frameType ∧
              scanHeader 0 (line.fed (noise ++ (hexHeader frameType position ++ more)) rest) =
                (.ok ⟨frameType.toNat, position, false⟩, line.fed (after ++ more) rest)) ∧
      ∀ data : List UInt8, (∀ b ∈ zdleEncode data, isFlowControl b = false) ∧
        ∀ kind, [zpad, zdle, kind] <:+: zdleEncode data → kind ≠ zbin ∧ kind ≠ zhex ∧ kind ≠ zbin32 := by
  refine ⟨?_, ?_, ?_, fun data => ⟨zdleEncode_flowControl data, fun kind hkind => ?_⟩⟩
  · intro data terminator hlength hterminator
    have hgaps : ∀ beat ∈ data.map (fun b => (([] : List UInt8), b)), IsGap beat.1 := by simp [IsGap]
    have hread := @readSubpacket_paced line rest more [] _ terminator ([], []) hterminator hgaps
      (by simp [IsGap]) (by simpa [Function.comp_def] using hlength) (by simp [IsGap])
    rw [pacedSubpacket_nil] at hread
    simpa [Function.comp_def] using hread
  · intro beats terminator gap gaps hterminator hbeats hgap hroom hgaps
    exact readSubpacket_paced hterminator hbeats hgap hroom hgaps
  · intro frameType position noise hposition hstart hcans
    have hnone : ¬List.replicate 5 can <:+: List.replicate 0 can ++ noise := by simpa using hcans
    constructor
    · exact (scanHeader_passes (readFramed_binary frameType hposition) noise hstart).1 0 hnone
    · obtain ⟨after, hafter, hframed⟩ := @readFramed_hex line rest more frameType position hposition
      exact ⟨after, hafter, (scanHeader_passes hframed noise hstart).1 0 hnone⟩
  · exact zdleEncode_kind ((infix_cons (infix_refl _)).trans hkind)

end NetBBS.Zmodem
