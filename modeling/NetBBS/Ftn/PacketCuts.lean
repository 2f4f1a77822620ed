import Mathlib.Data.Bool.AllAny
import NetBBS.Ftn.Packet

/-! # Packets cut off -/

namespace NetBBS

open Foundation List

private theorem untilNul_append_zeros (raw : List UInt8) (count : Nat) (h : 0 ∉ raw) :
    untilNul (raw ++ List.replicate count 0) = raw := by
  unfold untilNul
  induction raw with
  | nil => cases count <;> simp [replicate_succ]
  | cons byte rest ih =>
    obtain ⟨hbyte, hrest⟩ := not_or.mp (fun hm => h (mem_cons.mpr hm))
    have hne : byte ≠ 0 := fun heq => hbyte heq.symm
    simpa [hne] using ih hrest

variable {s data rest packed : List UInt8} {k limit offset : Nat} {message : PackedMessage}

private theorem take_append_cons (byte : UInt8)
    (h : s.length < k) : (s ++ byte :: rest).take k = s ++ byte :: rest.take (k - s.length - 1) := by
  obtain ⟨room, rfl⟩ : ∃ room, k = s.length + (room + 1) := ⟨k - s.length - 1, by omega⟩
  rw [take_length_add_append, take_succ_cons]
  congr 3
  omega

private theorem slice_eq (data : List UInt8) (offset length : Nat) :
    (data.take (offset + length)).drop offset = (data.drop offset).take length := by
  rw [drop_take, Nat.add_sub_cancel_left]

private theorem findNul_eq_some
    (h : data.drop offset = s ++ 0 :: rest) (hs : 0 ∉ s) (hlimit : s.length < limit) :
    findNul data offset (offset + limit) = some (offset + s.length) := by
  have hnone : s.findIdx? (· = 0) = none := by
    rw [findIdx?_eq_none_iff]
    intro byte hbyte
    exact decide_eq_false fun heq => hs (heq ▸ hbyte)
  unfold findNul
  rw [slice_eq, h, take_append_cons 0 hlimit, findIdx?_append, hnone]
  simp [findIdx?_cons]

private theorem findNul_eq_none
    (h : 0 ∉ data.drop offset) : findNul data offset (offset + limit) = none := by
  have hnone : ((data.drop offset).take limit).findIdx? (· = 0) = none := by
    rw [findIdx?_eq_none_iff]
    intro byte hbyte
    exact decide_eq_false fun heq => h (heq ▸ mem_of_mem_take hbyte)
  unfold findNul
  rw [slice_eq, hnone]
  rfl

private theorem readString_take (what : String)
    (h : data.drop offset = (s ++ 0 :: rest).take k) (hs : 0 ∉ s) (hlimit : s.length < limit) :
    (s.length < k ∧ readString data offset limit what = .ok (s, offset + s.length + 1) ∧
        data.drop (offset + s.length + 1) = rest.take (k - s.length - 1)) ∨
      (k ≤ s.length ∧ readString data offset limit what = .error .truncated) := by
  unfold readString
  by_cases hk : s.length < k
  · have hwhole := h.trans (take_append_cons 0 hk)
    refine .inl ⟨hk, ?_, ?_⟩
    · rw [findNul_eq_some hwhole hs hlimit]
      simp [slice_eq, hwhole]
    · have hnext : data.drop (offset + s.length + 1) = (data.drop offset).drop (s.length + 1) := by
        rw [drop_drop, Nat.add_assoc]
      rw [hnext, hwhole, drop_append]
      simp
  · have hcut : data.drop offset = s.take k := by
      rw [h, take_append_of_le_length (by omega)]
    have hlength := congrArg List.length hcut
    rw [length_drop, length_take] at hlength
    refine .inr ⟨by omega, ?_⟩
    rw [findNul_eq_none (hcut ▸ fun hm => hs (mem_of_mem_take hm)), if_pos (by omega)]

private theorem packMessage_eq_ok (h : packMessage message = .ok packed) :
    ((0 ∉ message.toName ∧ message.toName.length < toFromField) ∧
      (0 ∉ message.fromName ∧ message.fromName.length < toFromField) ∧
      (0 ∉ message.subject ∧ message.subject.length < subjectField) ∧
      (0 ∉ message.date ∧ message.date.length < dateField) ∧
      (0 ∉ message.text ∧ message.text.length < maxTextBytes + 1)) ∧
    ∃ head, PackedRecord.pack messageHead ⟨packetVersion, message.origNode, message.destNode,
        message.origNet, message.destNet, message.attributes, message.cost, ()⟩ = some head ∧
      packed = head ++ (ljustNul dateField message.date ++ (message.toName ++ 0 ::
        (message.fromName ++ 0 :: (message.subject ++ 0 :: (message.text ++ [0]))))) := by
  simp only [packMessage, requireField, bind_eq_ok, refuseIf_eq_ok, orRefuse_eq_ok, pure_eq_ok,
    not_or, not_le, not_lt, ge_iff_le, gt_iff_lt] at h
  obtain ⟨-, hto, -, hfrom, -, hsubject, -, hdate, -, htext, head, hhead, rfl⟩ := h
  refine ⟨⟨hto.symm, hfrom.symm, hsubject.symm, hdate.symm, htext.2, by omega⟩, head, hhead, ?_⟩
  simp

private theorem parseMessage_take (hpacked : packMessage message = .ok packed)
    (h : data.drop offset = (packed ++ rest).take k) :
    (packed.length ≤ k ∧ parseMessage data offset = .ok (message, offset + packed.length)) ∨
      (k < packed.length ∧ parseMessage data offset = .error .truncated) := by
  obtain ⟨⟨⟨hto, htoField⟩, ⟨hfrom, hfromField⟩, ⟨hsubject, hsubjectField⟩, ⟨hdate, hdateField⟩,
    ⟨htext, htextField⟩⟩, head, hhead, rfl⟩ := packMessage_eq_ok hpacked
  have hheadLength : head.length = 14 := PackedRecord.length_of_pack hhead
  have hdateLength : (ljustNul dateField message.date).length = 20 := by
    unfold ljustNul dateField at *
    rw [length_append, length_replicate]
    omega
  have hlength := congrArg List.length h
  rw [length_drop, length_take] at hlength
  simp only [length_append, length_cons, length_nil, hheadLength, hdateLength]
    at hlength ⊢
  unfold parseMessage
  by_cases hroom : offset + PackedRecord.size messageHead + dateField > data.length
  · rw [refuseIf_pos hroom, error_bind]
    have hshort : offset + 14 + 20 > data.length := hroom
    exact .inr ⟨by omega, rfl⟩
  have hlong : ¬ offset + 14 + 20 > data.length := hroom
  have hdateHere : (data.drop offset).drop 14 = ljustNul dateField message.date ++
      (message.toName ++ 0 :: (message.fromName ++ 0 :: (message.subject ++ 0 ::
        (message.text ++ 0 :: rest)))).take (k - 34) := by
    rw [h, drop_take, append_assoc, drop_left' hheadLength]
    simp only [append_assoc, cons_append, nil_append]
    rw [take_append, take_of_length_le (by omega), hdateLength, Nat.sub_sub]
  have hhead' : PackedRecord.unpack messageHead (data.drop offset) =
      some ⟨packetVersion, message.origNode, message.destNode, message.origNet, message.destNet,
        message.attributes, message.cost, ()⟩ := by
    have hsplit : data.drop offset = head ++ (data.drop offset).drop 14 := by
      have htake : (data.drop offset).take 14 = head := by
        rw [h, take_take, append_assoc, Nat.min_eq_left (by omega),
          take_left' hheadLength]
      exact (htake ▸ (take_append_drop 14 (data.drop offset)).symm)
    rw [hsplit, PackedRecord.unpack_pack hhead]
    rfl
  have hdateValue : (untilNul ((data.drop (offset + PackedRecord.size messageHead)).take
      dateField)).take (dateField - 1) = message.date := by
    have hhere : data.drop (offset + PackedRecord.size messageHead) = _ :=
      drop_drop.symm.trans hdateHere
    rw [hhere, take_left' (show _ = dateField from hdateLength)]
    unfold ljustNul
    rw [untilNul_append_zeros _ _ hdate]
    exact take_of_length_le (Nat.le_sub_one_of_lt hdateField)
  have hfieldsHere : data.drop (offset + PackedRecord.size messageHead + dateField) =
      (message.toName ++ 0 :: (message.fromName ++ 0 :: (message.subject ++ 0 ::
        (message.text ++ 0 :: rest)))).take (k - 34) := by
    have hhere : data.drop (offset + PackedRecord.size messageHead + dateField) =
        ((data.drop offset).drop 14).drop 20 := by
      rw [drop_drop, drop_drop]
      rfl
    rw [hhere, hdateHere, drop_left' hdateLength]
  rw [refuseIf_neg hroom, ok_bind, hhead', orRefuse_some, ok_bind]
  dsimp only
  rw [hdateValue]
  obtain ⟨hkTo, hreadTo, hnextTo⟩ | ⟨hcut, hread⟩ :=
    readString_take "To name" hfieldsHere hto htoField
  swap
  · rw [hread, error_bind]
    exact .inr ⟨by omega, rfl⟩
  obtain ⟨hkFrom, hreadFrom, hnextFrom⟩ | ⟨hcut, hread⟩ :=
    readString_take "From name" hnextTo hfrom hfromField
  swap
  · rw [hreadTo, ok_bind, hread, error_bind]
    exact .inr ⟨by omega, rfl⟩
  obtain ⟨hkSubject, hreadSubject, hnextSubject⟩ | ⟨hcut, hread⟩ :=
    readString_take "subject" hnextFrom hsubject hsubjectField
  swap
  · rw [hreadTo, ok_bind, hreadFrom, ok_bind, hread, error_bind]
    exact .inr ⟨by omega, rfl⟩
  obtain ⟨hkText, hreadText, -⟩ | ⟨hcut, hread⟩ :=
    readString_take "message text" hnextSubject htext htextField
  swap
  · rw [hreadTo, ok_bind, hreadFrom, ok_bind, hreadSubject, ok_bind, hread, error_bind]
    exact .inr ⟨by omega, rfl⟩
  rw [hreadTo, ok_bind, hreadFrom, ok_bind, hreadSubject, ok_bind, hreadText, ok_bind]
  refine .inl ⟨by omega, ?_⟩
  have hend : offset + PackedRecord.size messageHead + dateField + message.toName.length + 1 +
      message.fromName.length + 1 + message.subject.length + 1 + message.text.length + 1 =
      offset + (14 + (20 + (message.toName.length + (message.fromName.length +
        (message.subject.length + (message.text.length + (0 + 1) + 1) + 1) + 1)))) := by
    have hsize : PackedRecord.size messageHead = 14 := rfl
    have hfield : dateField = 20 := rfl
    omega
  rw [← hend]
  rfl

private theorem packMessage_marker
    (h : packMessage message = .ok packed) : ∃ tail, packed = 2 :: 0 :: tail := by
  obtain ⟨-, head, hhead, rfl⟩ := packMessage_eq_ok h
  obtain ⟨-, rfl⟩ := (PackedRecord.pack_eq_some _ _ _).mp hhead
  exact ⟨_, rfl⟩

private theorem parseMessages_take {messages : List PackedMessage} {packed : List (List UInt8)} {room : Nat}
    (hpacked : List.Forall₂ (fun message bytes => packMessage message = .ok bytes) messages packed)
    (hroom : messages.length ≤ room) (h : data.drop offset = (packed.flatten ++ [0, 0]).take k) :
    ∃ whole, whole <+: messages ∧
      parseMessages data room offset = .ok (whole, decide (k < packed.flatten.length + 2)) ∧
      (packed.flatten.length + 2 ≤ k → whole = messages) := by
  induction hpacked generalizing room offset k with
  | nil =>
    refine ⟨[], prefix_refl _, ?_, fun _ => rfl⟩
    unfold parseMessages
    rw [h]
    match k with
    | 0 | 1 => rfl
    | k + 2 => simp [PackedRecord.unpack, PackedRecord.size, PackedField.size, PackedRecord.decode,
        PackedField.decode]
  | @cons message bytes messages packed hmessage hpacked ih =>
    obtain ⟨tail, hbytes⟩ := packMessage_marker hmessage
    rw [flatten_cons, append_assoc] at h
    rw [flatten_cons, length_append]
    unfold parseMessages
    by_cases hk : k < 2
    · have hnone : PackedRecord.unpack [.u16] (data.drop offset) = none := by
        have hlength := congrArg List.length h
        rw [length_take] at hlength
        exact if_pos (show (data.drop offset).length < 2 by omega)
      rw [hnone]
      refine ⟨[], nil_prefix, ?_, fun hwhole => ?_⟩
      · rw [decide_eq_true (by omega)]
      · exact absurd hwhole (by omega)
    · have hmarker : PackedRecord.unpack [.u16] (data.drop offset) = some (packetVersion, ()) := by
        obtain ⟨more, rfl⟩ : ∃ more, k = more + 2 := ⟨k - 2, by omega⟩
        rw [h, hbytes]
        simp [PackedRecord.unpack, PackedRecord.size, PackedField.size, PackedRecord.decode,
          PackedField.decode, packetVersion]
      obtain ⟨room, rfl⟩ : ∃ more, room = more + 1 :=
        ⟨room - 1, by rw [length_cons] at hroom; omega⟩
      rw [hmarker]
      dsimp only
      rw [if_neg (by decide : ¬ packetVersion = 0), if_neg (not_not_intro rfl)]
      obtain ⟨hwhole, hread⟩ | ⟨hcut, hread⟩ := parseMessage_take hmessage h
      · have hnext : data.drop (offset + bytes.length) =
            (packed.flatten ++ [0, 0]).take (k - bytes.length) := by
          rw [← drop_drop, h, drop_take, drop_left]
        obtain ⟨whole, hstarts, hloop, hall⟩ := ih (by simpa using hroom) hnext
        refine ⟨message :: whole, (cons_prefix_cons).mpr ⟨rfl, hstarts⟩, ?_, fun hk => ?_⟩
        · have hsame : (k - bytes.length < packed.flatten.length + 2) =
              (k < bytes.length + packed.flatten.length + 2) := propext (by omega)
          simp only [hread, hloop, hsame]
          rfl
        · rw [hall (by omega)]
      · rw [hread]
        refine ⟨[], nil_prefix, ?_, fun hwhole => ?_⟩
        · rw [decide_eq_true (by omega)]
        · exact absurd hwhole (by omega)

def IsPacketPassword (password : String) : Prop :=
  password.toList.length ≤ passwordField ∧ ∀ c ∈ password.toList, 0 < c.toNat ∧ c.toNat < 128

private theorem decode_encode_password {password : String} (h : IsPacketPassword password) :
    decodeAsciiReplace (untilNul (ljustNul passwordField (encodeAsciiReplace password))) =
      password := by
  obtain ⟨-, hascii⟩ := h
  have hbyte : ∀ c ∈ password.toList, (c.toNat.toUInt8).toNat = c.toNat := fun c hc =>
    Nat.mod_eq_of_lt (by have := (hascii c hc).2; omega)
  have hencode : encodeAsciiReplace password = password.toList.map fun c => c.toNat.toUInt8 :=
    map_congr_left fun c hc => if_pos (hascii c hc).2
  have hnul : 0 ∉ encodeAsciiReplace password := by
    rw [hencode, mem_map]
    rintro ⟨c, hc, hzero⟩
    have hcode := hbyte c hc
    rw [hzero] at hcode
    exact absurd hcode (Nat.ne_of_lt (hascii c hc).1)
  unfold ljustNul
  rw [untilNul_append_zeros _ _ hnul, hencode]
  unfold decodeAsciiReplace
  rw [map_map]
  have hback : (password.toList.map ((fun b : UInt8 =>
      if b < 128 then Char.ofNat b.toNat else '\uFFFD') ∘ fun c => c.toNat.toUInt8)) =
      password.toList.map id := by
    refine map_congr_left fun c hc => ?_
    have hlt : c.toNat.toUInt8 < 128 := by
      rw [UInt8.lt_iff_toNat_lt, hbyte c hc]
      exact (hascii c hc).2
    simp [if_pos hlt, hbyte c hc, id]
  rw [hback, map_id, String.ofList_toList]

theorem parseHeader_build {now : DateTime} {header : PacketHeader} {raw : List UInt8}
    (h : buildHeader now header = .ok raw) :
    raw.length = headerBytes ∧ ∃ parsed, parseHeader raw = .ok parsed ∧
      parsed.orig = header.orig.fourD ∧ parsed.dest = header.dest.fourD ∧
      parsed.created = some (header.created.getD now).toSecond ∧
      (IsPacketPassword header.password → parsed.password = header.password) ∧
      parsed.kind = "2+" := by
  simp only [buildHeader, bind_eq_ok, refuseIf_eq_ok, orRefuse_eq_ok] at h
  obtain ⟨-, hpassword, hpack⟩ := h
  have hlength : raw.length = headerBytes := PackedRecord.length_of_pack hpack
  have hunpack := PackedRecord.unpack_pack hpack []
  rw [append_nil] at hunpack
  refine ⟨hlength, ?_⟩
  unfold parseHeader
  rw [hunpack, orRefuse_some, ok_bind]
  dsimp only [PackedRecord.stored, PackedField.stored]
  rw [refuseIf_neg (not_not_intro rfl), ok_bind, refuseIf_neg (by decide), ok_bind,
    if_pos (by decide)]
  have hzone : ∀ zone, orNumber zone zone = zone := fun zone => ite_self zone
  -- A point sender's net stands in the auxiliary field, behind a net of -1.
  have hnet : (if (if header.orig.point ≠ 0 then 65535 else header.orig.net) = 65535 ∧
      header.orig.point ≠ 0 then if header.orig.point ≠ 0 then header.orig.net else 0
      else if header.orig.point ≠ 0 then 65535 else header.orig.net) = header.orig.net := by
    by_cases hpoint : header.orig.point = 0 <;> simp [hpoint]
  have hpadded : (ljustNul passwordField (encodeAsciiReplace header.password)).length = 8 := by
    unfold ljustNul passwordField at *
    rw [length_append, length_replicate]
    omega
  rw [hzone, hzone, hnet, FtnAddress.make_eq_ok, ok_bind, FtnAddress.make_eq_ok, ok_bind,
    take_left' hpadded]
  refine ⟨_, rfl, rfl, rfl, ?_, decode_encode_password, rfl⟩
  obtain ⟨-, ⟨hmonth, -⟩, -⟩ := (header.created.getD now).exist
  unfold headerTime
  dsimp only
  rw [Nat.sub_add_cancel hmonth, DateTime.make_toSecond]

/-- What `build_packet` wrote is read back from the first `n` bytes of it, as far as they go: the
addresses but for their domains, the password, the date to the second and the messages that are
whole. -/
theorem parse_take_of_build (now : DateTime) (header : PacketHeader) (messages : List PackedMessage)
    (created : DateTime) (data : List UInt8) (n : Nat) (hcreated : header.created = some created)
    (hpassword : IsPacketPassword header.password) (hmessages : messages.length ≤ maxMessages)
    (hdata : buildPacket now header messages = .ok data) (hsize : data.length ≤ maxPacketBytes)
    (hn : headerBytes ≤ n) :
    ∃ packet, parsePacket (data.take n) = .ok packet ∧
      packet.header.orig = header.orig.fourD ∧ packet.header.dest = header.dest.fourD ∧
      packet.header.password = header.password ∧
      packet.header.created = some created.toSecond ∧
      packet.messages <+: messages ∧
      (packet.truncated = false ↔ data.length ≤ n) ∧
      (packet.truncated = false → packet.messages = messages) := by
  simp only [buildPacket, buildPacketFromPacked, bind_eq_ok, pure_eq_ok, mapM_eq_ok] at hdata
  obtain ⟨packed, hpacked, raw, hraw, rfl⟩ := hdata
  obtain ⟨hlength, parsed, hparsed, horig, hdest, hdate, hpass, -⟩ := parseHeader_build hraw
  have hhead : ((raw ++ packed.flatten ++ [0, 0]).take n).take headerBytes = raw := by
    rw [take_take, Nat.min_eq_left hn, append_assoc, take_left' hlength]
  have hrest : ((raw ++ packed.flatten ++ [0, 0]).take n).drop headerBytes =
      (packed.flatten ++ [0, 0]).take (n - headerBytes) := by
    rw [drop_take, append_assoc, drop_left' hlength]
  obtain ⟨whole, hstarts, hloop, hall⟩ := parseMessages_take hpacked hmessages hrest
  have htotal : (raw ++ packed.flatten ++ [0, 0]).length =
      headerBytes + packed.flatten.length + 2 := by
    rw [length_append, length_append, hlength]
    rfl
  unfold parsePacket
  rw [refuseIf_neg (by rw [length_take]; omega), ok_bind, refuseIf_neg
    (by rw [length_take, htotal]; omega), ok_bind, hhead, hparsed, ok_bind,
    hloop, ok_bind]
  refine ⟨_, rfl, horig, hdest, hpass hpassword, ?_, hstarts, ?_, fun hwhole => hall ?_⟩
  · rw [hdate, hcreated, Option.getD_some]
  · rw [htotal]
    simp only [decide_eq_false_iff_not]
    omega
  · simp only [decide_eq_false_iff_not] at hwhole
    omega

def pointMoment : DateTime := ⟨2026, 10, 7, 14, 5, 30, 1, by decide⟩

theorem isDomain_none : ∀ d ∈ (none : Option String), Ftn.isDomain d = true := by simp

def pointHeader : PacketHeader where
  orig := ⟨21, 3, 100, 5, some "fsxnet", by decide, by decide, by decide, by decide, by decide⟩
  dest := ⟨21, 3, 100, 0, none, by decide, by decide, by decide, by decide, isDomain_none⟩
  created := some pointMoment
  password := "secret"

def pointMessage : PackedMessage where
  origNet := 3
  origNode := 100
  destNet := 3
  destNode := 100
  attributes := 1
  cost := 0
  date := encodeAsciiReplace "07 Oct 26  14:05:30"
  toName := encodeAsciiReplace "Ann"
  fromName := encodeAsciiReplace "Bob"
  subject := encodeAsciiReplace "Hi"
  text := encodeAsciiReplace "hello"

def pointPacket : List UInt8 :=
  (buildPacket pointMoment pointHeader [pointMessage]).toOption.getD []

/-- The whole packet reads back but for the sender's network and the fraction of the second. -/
theorem point_packet_loses_domain_and_fraction :
    ((parsePacket pointPacket).toOption.map fun packet =>
      (packet.header.orig, packet.header.created, packet.messages, packet.truncated)) =
      some (pointHeader.orig.fourD, some pointMoment.toSecond, [pointMessage], false) ∧
    pointHeader.orig.fourD ≠ pointHeader.orig ∧
    pointHeader.created ≠ some pointMoment.toSecond := by
  decide +kernel

/-- A cut inside the message. -/
theorem point_packet_cut :
    ∃ packet, parsePacket (pointPacket.take 70) = .ok packet ∧ packet.messages <+: [pointMessage] ∧
      (packet.truncated = false ↔ pointPacket.length ≤ 70) := by
  obtain ⟨packet, hparse, -, -, -, -, hmessages, htruncated, -⟩ :=
    parse_take_of_build pointMoment pointHeader [pointMessage] pointMoment pointPacket 70 rfl
      ⟨by decide, all_iff_forall_prop.mp (by decide)⟩ (by decide)
      ((toOption_eq_some _ _).mp (by decide +kernel)) (by decide +kernel) (by decide)
  exact ⟨packet, hparse, hmessages, htruncated⟩

end NetBBS
