import NetBBS.Qwk.Records

/-! # Block numbers -/

namespace NetBBS.Qwk

open List

/-- `number / 2 ^ shift`, rounded half to even. -/
def roundShift (number shift : Nat) : Nat :=
  let quotient := number / 2 ^ shift
  let rest := number % 2 ^ shift
  if 2 ^ shift < 2 * rest ∨ (2 * rest = 2 ^ shift ∧ quotient % 2 = 1) then quotient + 1
  else quotient

/-- The float nearest to `number` whose significand has `precision` bits. -/
def roundTo (precision number : Nat) : Nat :=
  let shift := number.log2 + 1 - precision
  roundShift number shift * 2 ^ shift

inductive MsbinError
  | overflow
  | value
  | format

/-- `struct.pack("<f", float(value))`: the sign, the exponent biased by 127 and the fraction
without its highest bit, lowest byte first. -/
def packSingle (value : Int) : Except MsbinError (List Nat) :=
  let magnitude := roundTo 24 (roundTo 53 value.natAbs)
  if 2 ^ 128 ≤ magnitude then .error .overflow
  else
    let exponent := magnitude.log2
    let bits :=
      if magnitude = 0 then 0
      else (exponent + 127) * 2 ^ 23 + (magnitude * 2 ^ 23 / 2 ^ exponent - 2 ^ 23)
    let word := (if value < 0 then 2 ^ 31 else 0) + bits
    .ok [word % 256, word / 2 ^ 8 % 256, word / 2 ^ 16 % 256, word / 2 ^ 24]

/-- `int(round(struct.unpack("<f", data)[0]))`. -/
def roundSingle (b0 b1 b2 b3 : Nat) : Except MsbinError Int :=
  let word := b0 + 2 ^ 8 * b1 + 2 ^ 16 * b2 + 2 ^ 24 * b3
  let exponent := word / 2 ^ 23 % 256
  let fraction := word % 2 ^ 23
  let significand := if exponent = 0 then fraction else 2 ^ 23 + fraction
  let magnitude : Int := roundShift (significand * 2 ^ max exponent 1) 150
  if exponent = 255 then .error (if fraction = 0 then .overflow else .value)
  else .ok (if word / 2 ^ 31 = 1 then -magnitude else magnitude)

/-- `bytes(items)`. -/
def bytes (items : List Nat) : Except MsbinError (List UInt8) :=
  if items.all (fun item => item < 256) = true then .ok (items.map UInt8.ofNat)
  else .error .value

def toMsbin (value : Int) : Except MsbinError (List UInt8) :=
  if value = 0 then .ok [0, 0, 0, 0]
  else
    match packSingle value with
    | .ok [b0, b1, b2, b3] =>
      let exponent := ((b3 <<< 1) &&& 0xFF) ||| (b2 >>> 7)
      bytes [b0, b1, (b3 &&& 0x80) ||| (b2 &&& 0x7F), exponent + 2]
    | .ok _ => .error .value
    | .error error => .error error

def fromMsbin (data : List UInt8) : Except MsbinError Int :=
  match data.map UInt8.toNat with
  | [d0, d1, d2, d3] =>
    if d3 = 0 then .ok 0
    -- an exponent of -1 makes a negative byte
    else if d3 = 1 then .error .value
    else
      let exponent := d3 - 2
      let ieee3 := (d2 &&& 0x80) ||| (exponent >>> 1)
      let ieee2 := ((exponent <<< 7) &&& 0x80) ||| (d2 &&& 0x7F)
      roundSingle d0 d1 ieee2 ieee3
  | _ => .error .format

/-- `_ndx`: the records of an index file, of conference and block. -/
def ndx : List (Nat × Nat) → Except MsbinError (List UInt8)
  | [] => .ok []
  | (conference, block) :: records => do
    let number ← toMsbin block
    let rest ← ndx records
    .ok (number ++ UInt8.ofNat (conference &&& 0xFF) :: rest)

/-- `data` holds `number` in Microsoft's format: the exponent byte, biased by 129, over 24 bits of
mantissa whose highest one gives its place to the sign, here 0. -/
def IsMsbin (number : Nat) (data : List UInt8) : Prop :=
  if number = 0 then data = [0, 0, 0, 0]
  else ∃ mantissa exponent, 2 ^ 23 ≤ mantissa ∧ mantissa < 2 ^ 24 ∧
    mantissa * 2 ^ exponent = number * 2 ^ 23 ∧ exponent + 129 < 256 ∧
    data.map UInt8.toNat =
      [mantissa % 256, mantissa / 2 ^ 8 % 256, mantissa / 2 ^ 16 - 128, exponent + 129]

theorem roundShift_mul (number shift : Nat) : roundShift (number * 2 ^ shift) shift = number := by
  have hpos := Nat.two_pow_pos shift
  simp [roundShift, Nat.mul_div_cancel _ hpos, Nat.mul_mod_left]
  omega

theorem roundTo_eq_self {precision number : Nat} (hprecision : 0 < precision)
    (h : number < 2 ^ precision) : roundTo precision number = number := by
  have hshift : number.log2 + 1 - precision = 0 := by
    by_cases hzero : number = 0
    · simp [hzero, Nat.log2_zero]; omega
    · have := (Nat.log2_lt hzero).mpr h
      omega
  simpa [roundTo, hshift] using roundShift_mul number 0

/-- The fraction of a number's significand and the place of its highest bit. -/
structure Significand (number : Nat) where
  fraction : Nat
  exponent : Nat
  exponent_lt : exponent < 24
  fraction_lt : fraction < 2 ^ 23
  log2_eq : number.log2 = exponent
  number_eq : number * 2 ^ 23 = (2 ^ 23 + fraction) * 2 ^ exponent

/-- The fraction, byte by byte, and the exponent over it. -/
def Significand.bytes {number : Nat} (s : Significand number) : List Nat :=
  [s.fraction % 256, s.fraction / 2 ^ 8 % 256, s.fraction / 2 ^ 16, s.exponent + 129]

variable {number : Nat}

theorem exists_significand (hzero : number ≠ 0) (h : number < 2 ^ 24) :
    Nonempty (Significand number) := by
  have hexponent : number.log2 < 24 := (Nat.log2_lt hzero).mpr h
  have hlow := Nat.log2_self_le hzero
  have hhigh : number < 2 ^ (number.log2 + 1) := Nat.lt_log2_self
  generalize hlog : number.log2 = e at hexponent hlow hhigh
  have hsplit : 2 ^ 23 = 2 ^ (23 - e) * 2 ^ e := by rw [← Nat.pow_add]; congr 1; omega
  have hfrom : 2 ^ 23 ≤ number * 2 ^ (23 - e) := by
    rw [hsplit, Nat.mul_comm]
    exact Nat.mul_le_mul_right _ hlow
  have hto : number * 2 ^ (23 - e) < 2 ^ 24 := by
    calc number * 2 ^ (23 - e) < 2 ^ (e + 1) * 2 ^ (23 - e) :=
          Nat.mul_lt_mul_of_pos_right hhigh (Nat.two_pow_pos _)
      _ = 2 ^ 24 := by rw [← Nat.pow_add]; congr 1; omega
  refine ⟨number * 2 ^ (23 - e) - 2 ^ 23, e, hexponent, by omega, hlog, ?_⟩
  rw [Nat.add_sub_cancel' hfrom, Nat.mul_assoc, ← hsplit]

theorem packSingle_eq (s : Significand number) (hzero : number ≠ 0) (h : number < 2 ^ 24) :
    packSingle number = .ok (let word := (s.exponent + 127) * 2 ^ 23 + s.fraction
      [word % 256, word / 2 ^ 8 % 256, word / 2 ^ 16 % 256, word / 2 ^ 24]) := by
  obtain ⟨fraction, exponent, -, hfraction, hlog, hnumber⟩ := s
  have hdouble : roundTo 53 number = number := roundTo_eq_self (by decide) (by omega)
  have hsingle : roundTo 24 number = number := roundTo_eq_self (by decide) h
  have hbits : number * 2 ^ 23 / 2 ^ exponent - 2 ^ 23 = fraction := by
    rw [hnumber, Nat.mul_div_cancel _ (Nat.two_pow_pos exponent)]
    omega
  have hsmall : ¬2 ^ 128 ≤ number := by omega
  have hsign : ¬(number : Int) < 0 := by omega
  simp only [packSingle, Int.natAbs_natCast, hdouble, hsingle, if_neg hsmall, if_neg hzero,
    if_neg hsign, hlog, hbits, Nat.zero_add]

theorem and_high_bit : ∀ byte < 256, byte &&& 0x80 = 128 * (byte / 128) := by decide +kernel

theorem and_low_bits : ∀ byte < 256, byte &&& 0x7F = byte % 128 := by decide +kernel

theorem shift_to_high_bit : ∀ byte < 256, (byte <<< 7) &&& 0x80 = 128 * (byte % 2) := by
  decide +kernel

/-- The exponent of a single whose sign is 0, from its two bytes. -/
theorem exponent_of_bytes {b2 b3 : Nat} (h2 : b2 < 256) (h3 : b3 < 128) :
    ((b3 <<< 1) &&& 0xFF) ||| (b2 >>> 7) = 2 * b3 + b2 / 128 := by
  have hshift : (b3 <<< 1) &&& 0xFF = 2 ^ 1 * b3 := by
    rw [Nat.shiftLeft_eq, Nat.and_two_pow_sub_one_eq_mod _ 8]
    omega
  have hlow : b2 / 128 < 2 ^ 1 := by omega
  rw [hshift, Nat.shiftRight_eq_div_pow, ← Nat.two_pow_add_eq_or_of_lt hlow]

theorem toMsbin_eq (s : Significand number) (hzero : number ≠ 0) (h : number < 2 ^ 24) :
    toMsbin number = .ok (s.bytes.map UInt8.ofNat) := by
  have hpack := packSingle_eq s hzero h
  obtain ⟨fraction, exponent, hexponent, hfraction, hlog, hnumber⟩ := s
  simp only at hpack
  have hvalue : (number : Int) ≠ 0 := by omega
  generalize hword : (exponent + 127) * 2 ^ 23 + fraction = word at hpack
  have h2 : word / 2 ^ 16 % 256 < 256 := by omega
  have h3 : word / 2 ^ 24 < 128 := by omega
  have hexp : 2 * (word / 2 ^ 24) + word / 2 ^ 16 % 256 / 128 + 2 = exponent + 129 := by omega
  have hbyte2 : (word / 2 ^ 24 &&& 0x80) ||| (word / 2 ^ 16 % 256 &&& 0x7F) = fraction / 2 ^ 16 := by
    rw [and_high_bit _ (by omega), and_low_bits _ h2, Nat.div_eq_of_lt h3, Nat.mul_zero, Nat.zero_or]
    omega
  have hbyte0 : word % 256 = fraction % 256 := by omega
  have hbyte1 : word / 2 ^ 8 % 256 = fraction / 2 ^ 8 % 256 := by omega
  have hfit : (Significand.bytes ⟨fraction, exponent, hexponent, hfraction, hlog, hnumber⟩).all
      (fun item => item < 256) = true := by
    simp only [Significand.bytes, all_cons, all_nil, Bool.and_true, Bool.and_eq_true, decide_eq_true_eq]
    omega
  simp only [toMsbin, if_neg hvalue, hpack]
  rw [exponent_of_bytes h2 h3, hexp, hbyte2, hbyte0, hbyte1]
  exact if_pos hfit

theorem roundSingle_eq (s : Significand number) :
    roundSingle (s.fraction % 256) (s.fraction / 2 ^ 8 % 256)
      (128 * ((s.exponent + 127) % 2) + s.fraction / 2 ^ 16) ((s.exponent + 127) / 2) =
      .ok (number : Int) := by
  obtain ⟨fraction, exponent, hexponent, hfraction, -, hnumber⟩ := s
  have hword : fraction % 256 + 2 ^ 8 * (fraction / 2 ^ 8 % 256) +
      2 ^ 16 * (128 * ((exponent + 127) % 2) + fraction / 2 ^ 16) +
      2 ^ 24 * ((exponent + 127) / 2) = (exponent + 127) * 2 ^ 23 + fraction := by omega
  have hfield : ((exponent + 127) * 2 ^ 23 + fraction) / 2 ^ 23 % 256 = exponent + 127 := by omega
  have hrest : ((exponent + 127) * 2 ^ 23 + fraction) % 2 ^ 23 = fraction := by omega
  have hsign : ¬((exponent + 127) * 2 ^ 23 + fraction) / 2 ^ 31 = 1 := by omega
  have hmax : max (exponent + 127) 1 = exponent + 127 := by omega
  have hscaled : (2 ^ 23 + fraction) * 2 ^ (exponent + 127) = number * 2 ^ 150 := by
    rw [Nat.pow_add 2 exponent 127, ← Nat.mul_assoc, ← hnumber, Nat.mul_assoc, ← Nat.pow_add 2 23 127]
  have hnormal : ¬exponent + 127 = 0 := by omega
  have hfinite : ¬exponent + 127 = 255 := by omega
  simp only [roundSingle, hword, hfield, hrest, if_neg hnormal, if_neg hfinite, if_neg hsign, hmax,
    hscaled, roundShift_mul]

theorem fromMsbin_eq (s : Significand number) :
    fromMsbin (s.bytes.map UInt8.ofNat) = .ok (number : Int) := by
  have hround := roundSingle_eq s
  obtain ⟨fraction, exponent, hexponent, hfraction, hlog, hnumber⟩ := s
  have hmap : ((Significand.bytes ⟨fraction, exponent, hexponent, hfraction, hlog, hnumber⟩).map
      UInt8.ofNat).map UInt8.toNat =
      [fraction % 256, fraction / 2 ^ 8 % 256, fraction / 2 ^ 16, exponent + 129] := by
    simp only [Significand.bytes, map_cons, map_nil, UInt8.toNat_ofNat', List.cons.injEq, and_true]
    omega
  have h2 : fraction / 2 ^ 16 < 128 := by omega
  have hbyte : fraction / 2 ^ 16 < 256 := by omega
  have hzero : ¬exponent + 129 = 0 := by omega
  have hone : ¬exponent + 129 = 1 := by omega
  have hsub : exponent + 129 - 2 = exponent + 127 := by omega
  have hsplit : 128 * ((exponent + 127) % 2) ||| fraction / 2 ^ 16 =
      128 * ((exponent + 127) % 2) + fraction / 2 ^ 16 :=
    (Nat.two_pow_add_eq_or_of_lt (i := 7) (by omega) _).symm
  rw [fromMsbin, hmap]
  simp only [if_neg hzero, if_neg hone, hsub]
  rw [shift_to_high_bit _ (by omega), and_high_bit _ hbyte, and_low_bits _ hbyte,
    Nat.mod_eq_of_lt h2, Nat.div_eq_of_lt h2, Nat.mul_zero, Nat.zero_or, hsplit, Nat.shiftRight_eq_div_pow]
  exact hround

theorem toMsbin_spec (h : number < 2 ^ 24) : ∃ data, toMsbin number = .ok data ∧
    data.length = 4 ∧ fromMsbin data = .ok (number : Int) ∧ IsMsbin number data := by
  by_cases hzero : number = 0
  · subst hzero
    exact ⟨[0, 0, 0, 0], rfl, rfl, rfl, by simp [IsMsbin]⟩
  obtain ⟨s⟩ := exists_significand hzero h
  refine ⟨_, toMsbin_eq s hzero h, rfl, fromMsbin_eq s, ?_⟩
  obtain ⟨fraction, exponent, hexponent, hfraction, -, hnumber⟩ := s
  rw [IsMsbin, if_neg hzero]
  refine ⟨2 ^ 23 + fraction, exponent, by omega, by omega, hnumber.symm, by omega, ?_⟩
  simp only [Significand.bytes, map_cons, map_nil, UInt8.toNat_ofNat', List.cons.injEq, and_true]
  omega

/-- `data` holds the records one after the other, each a block and the low byte of a conference. -/
def IsIndex (records : List (Nat × Nat)) (data : List UInt8) : Prop :=
  data.length = 5 * records.length ∧ ∀ place record, records[place]? = some record →
    fromMsbin ((data.drop (5 * place)).take 4) = .ok (record.2 : Int) ∧
    data[5 * place + 4]? = some (UInt8.ofNat (record.1 &&& 0xFF))

theorem ndx_spec : ∀ records : List (Nat × Nat), (∀ record ∈ records, record.2 < 2 ^ 24) →
    ∃ data, ndx records = .ok data ∧ IsIndex records data
  | [], _ => ⟨[], rfl, rfl, by simp⟩
  | (conference, block) :: records, h => by
    obtain ⟨number, hnumber, hfour, hread, -⟩ := toMsbin_spec (h _ (.head _))
    obtain ⟨rest, hrest, hlength, hrecords⟩ :=
      ndx_spec records fun record hrecord => h record (.tail _ hrecord)
    refine ⟨number ++ UInt8.ofNat (conference &&& 0xFF) :: rest, ?_, ?_, ?_⟩
    · simp only [ndx, hnumber, hrest]
      rfl
    · simp only [length_append, length_cons, hfour, hlength]
      omega
    · rintro (_ | index) record hrecord
      · obtain rfl : (conference, block) = record := by simpa using hrecord
        refine ⟨?_, ?_⟩
        · rw [Nat.mul_zero, drop_zero, ← hfour, take_left]
          exact hread
        · rw [Nat.mul_zero, Nat.zero_add, ← hfour, getElem?_append_right (le_refl _)]
          simp
      · have hat := hrecords index record (by simpa using hrecord)
        have hdrop : (number ++ UInt8.ofNat (conference &&& 0xFF) :: rest).drop (5 * (index + 1)) =
            rest.drop (5 * index) := by
          rw [show 5 * (index + 1) = number.length + (5 * index + 1) by omega,
            ← drop_drop, drop_left, drop_succ_cons]
        refine ⟨by rw [hdrop]; exact hat.1, ?_⟩
        rw [getElem?_append_right (by omega), hfour,
          show 5 * (index + 1) + 4 - 4 = (5 * index + 4) + 1 by omega, getElem?_cons_succ]
        exact hat.2

/-- `block` is a block of a file of `size` bytes. -/
def HoldsBlock (size block : Nat) : Prop := 0 < block ∧ block * blockSize ≤ size

/-- Every number below `2 ^ 24` is written exactly, and so is every block of a message file of at
most 128 MiB in an index. -/
theorem blockNumbers_exact {size : Nat} (h : number < 2 ^ 24) (hsize : size ≤ 128 * 2 ^ 20)
    {records : List (Nat × Nat)} (hrecords : ∀ record ∈ records, HoldsBlock size record.2) :
    (∃ data, toMsbin number = .ok data ∧ fromMsbin data = .ok (number : Int) ∧ IsMsbin number data) ∧
    ∃ index, ndx records = .ok index ∧ IsIndex records index := by
  refine ⟨?_, ndx_spec records fun record hrecord => ?_⟩
  · obtain ⟨data, hto, -, hfrom, his⟩ := toMsbin_spec h
    exact ⟨data, hto, hfrom, his⟩
  · have hblock := (hrecords record hrecord).2
    rw [blockSize] at hblock
    omega

theorem blockNumbers_exact_three : ∃ data, toMsbin 3 = .ok data ∧ fromMsbin data = .ok 3 ∧
    IsMsbin 3 data :=
  (@blockNumbers_exact 3 256 (by decide) (by decide) [(1, 2)]
    (by simp [HoldsBlock, blockSize])).1

end NetBBS.Qwk
