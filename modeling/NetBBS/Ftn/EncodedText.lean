import Mathlib.Data.Bool.AllAny
import NetBBS.Ftn.MessageDecoding
import NetBBS.Ftn.MessageEncoding

/-! # The text of an encoded message -/

namespace NetBBS

open Foundation List Text

variable {lib : TextLibrary} {codec : Codec}

theorem splitOn_flatMap_snoc {α : Type} [DecidableEq α] (sep : α) (lines : List (List α))
    (h : ∀ line ∈ lines, sep ∉ line) :
    (lines.flatMap fun line => line ++ [sep]).splitOn sep = lines ++ [[]] := by
  induction lines with
  | nil => rfl
  | cons line rest ih =>
    obtain ⟨hline, hrest⟩ := forall_mem_cons.mp h
    rw [flatMap_cons, append_assoc, singleton_append,
      splitOn_append_cons_self_of_not_mem hline, ih hrest]
    rfl

namespace Codec

theorem encode_append (codec : Codec) (a b : Text) :
    codec.encode (a ++ b) = codec.encode a ++ codec.encode b := flatMap_append

theorem encode_cons (codec : Codec) (c : Char) (rest : Text) :
    codec.encode (c :: rest) = (codec.encodeChar c).getD [63] ++ codec.encode rest := rfl

section

variable (h : codec.Faithful)

include h

theorem Faithful.not_mem_encode {c : Char} {text : Text} (hc : c.toNat < 63)
    (htext : c ∉ text) : c.toNat.toUInt8 ∉ codec.encode text := by
  unfold encode
  rw [mem_flatMap]
  rintro ⟨d, hd, hmem⟩
  have hbyte : c.toNat.toUInt8.toNat = c.toNat := Nat.mod_eq_of_lt (by omega)
  by_cases hascii : d.toNat < 128
  · rw [h.ascii d hascii, Option.getD_some, mem_singleton] at hmem
    have hsame : d.toNat = c.toNat := by
      have hcode := congrArg UInt8.toNat hmem
      rw [hbyte] at hcode
      exact (Nat.mod_eq_of_lt (by omega) : d.toNat % 256 = d.toNat).symm.trans hcode.symm
    exact htext (Char.toNat_inj.mp hsame ▸ hd)
  · cases hbytes : codec.encodeChar d with
    | none =>
      rw [hbytes, Option.getD_none, mem_singleton] at hmem
      have hcode := congrArg UInt8.toNat hmem
      rw [hbyte] at hcode
      exact absurd hcode (Nat.ne_of_lt hc)
    | some bytes =>
      rw [hbytes, Option.getD_some] at hmem
      have hhigh := h.above d bytes (by omega) hbytes _ hmem
      rw [UInt8.le_iff_toNat_le, hbyte] at hhigh
      exact absurd hhigh (by simp; omega)

theorem Faithful.encode_ascii {text : Text} (htext : ∀ c ∈ text, c.toNat < 128) :
    codec.encode text = text.map fun c => c.toNat.toUInt8 := by
  induction text with
  | nil => rfl
  | cons c rest ih =>
    obtain ⟨hc, hrest⟩ := forall_mem_cons.mp htext
    rw [encode_cons, h.ascii c hc, ih hrest]
    rfl

theorem Faithful.encodeChar_ne_nil {c : Char} {bytes : List UInt8}
    (hbytes : codec.encodeChar c = some bytes) : bytes ≠ [] := by
  rintro rfl
  have hempty : codec.decode [] = [] := h.decode_encode [] rfl
  have hone : codec.decode (codec.encode [c]) = [c] :=
    h.decode_encode [c] (by simp [encodable, hbytes])
  have hencode : codec.encode [c] = [] := by simp [encode, hbytes]
  rw [hencode, hempty] at hone
  exact absurd hone (by simp)

theorem Faithful.head_encode {d : Char} {rest : Text}
    (henc : codec.encodable (d :: rest) = true) {b : UInt8} {tail : List UInt8}
    (hhead : codec.encode (d :: rest) = b :: tail) (hb : b.toNat < 128) :
    d.toNat = b.toNat ∧ codec.encode rest = tail := by
  by_cases hascii : d.toNat < 128
  · rw [encode_cons, h.ascii d hascii] at hhead
    obtain ⟨rfl, htail⟩ := List.cons.inj hhead
    exact ⟨(Nat.mod_eq_of_lt (by omega)).symm, htail⟩
  · obtain ⟨bytes, hbytes⟩ := Option.isSome_iff_exists.mp (all_eq_true.mp henc d (by simp))
    rw [encode_cons, hbytes, Option.getD_some] at hhead
    cases bytes with
    | nil => exact absurd rfl (h.encodeChar_ne_nil hbytes)
    | cons first more =>
      obtain ⟨rfl, -⟩ := List.cons.inj hhead
      have hhigh := h.above d _ (by omega) hbytes first (.head _)
      rw [UInt8.le_iff_toNat_le] at hhigh
      exact absurd hhigh (by simp; omega)

theorem Faithful.prefix_of_encode {start line : Text}
    (hstart : ∀ c ∈ start, c.toNat < 128) (henc : codec.encodable line = true)
    (hstarts : (start.map fun c => c.toNat.toUInt8) <+: codec.encode line) : start <+: line := by
  induction start generalizing line with
  | nil => exact nil_prefix
  | cons c start ih =>
    obtain ⟨hc, hrest⟩ := forall_mem_cons.mp hstart
    have hbyte : c.toNat.toUInt8.toNat = c.toNat := Nat.mod_eq_of_lt (by omega)
    obtain ⟨tail, htail⟩ := hstarts
    cases line with
    | nil => exact absurd htail (by simp [encode])
    | cons d line =>
      obtain ⟨hhead, hmore⟩ := h.head_encode henc htail.symm
        (show c.toNat.toUInt8.toNat < 128 by omega)
      have hsame : d = c := Char.toNat_inj.mp (hhead.trans hbyte)
      subst hsame
      have hline : codec.encodable line = true := by
        rw [encodable, all_cons, Bool.and_eq_true] at henc
        exact henc.2
      exact cons_prefix_cons.mpr ⟨rfl, ih hrest hline ⟨tail, hmore.symm⟩⟩

end

end Codec

variable {line text : Text}

private theorem encodeAsciiReplace_ofList (h : ∀ c ∈ text, c.toNat < 128) :
    encodeAsciiReplace (String.ofList text) = text.map fun c => c.toNat.toUInt8 := by
  unfold encodeAsciiReplace
  rw [String.toList_ofList]
  exact map_congr_left fun c hc => if_pos (h c hc)

private theorem decodeAsciiReplace_ascii (h : ∀ c ∈ text, c.toNat < 128) :
    (decodeAsciiReplace (text.map fun c => c.toNat.toUInt8)).toList = text := by
  unfold decodeAsciiReplace
  rw [String.toList_ofList, map_map]
  refine (map_congr_left fun c hc => ?_).trans (map_id text)
  have hbyte : c.toNat.toUInt8.toNat = c.toNat := Nat.mod_eq_of_lt (by have := h c hc; omega)
  have hlt : c.toNat.toUInt8 < 128 := by
    rw [UInt8.lt_iff_toNat_lt, hbyte]
    exact h c hc
  simp [if_pos hlt, hbyte, id]

private theorem lstripLf_encode (h : codec.Faithful)
    (henc : codec.encodable line = true) (hline : line.head? ≠ some '\n') :
    lstripLf (codec.encode line) = codec.encode line := by
  unfold lstripLf
  cases hbytes : codec.encode line with
  | nil => rfl
  | cons b tail =>
    refine dropWhile_cons_of_neg ?_
    rw [decide_eq_true_eq]
    rintro rfl
    cases line with
    | nil => exact absurd hbytes (by simp [Codec.encode])
    | cons d line =>
      obtain ⟨hhead, -⟩ := h.head_encode henc hbytes (by decide)
      have hsame : d = '\n' := Char.toNat_inj.mp hhead
      exact hline (by rw [hsame]; rfl)

theorem rawKludge_chrs (h : codec.Faithful) {first rest : List Text} {value : Text}
    (hcr : ∀ line ∈ first ++ (kludgeMark :: "CHRS: ".toList ++ value) :: rest, '\r' ∉ line)
    (henc : ∀ line ∈ first, codec.encodable line = true) (hlf : ∀ line ∈ first, line.head? ≠ some '\n')
    (hother : ∀ line ∈ first, ∀ separator : Char, separator = ':' ∨ separator = ' ' →
      ¬ (kludgeMark :: "CHRS".toList ++ [separator]) <+: line)
    (hvalue : (∀ c ∈ value, c.toNat < 128) ∧ strip value = value) :
    rawKludge (codec.encode ((first ++ (kludgeMark :: "CHRS: ".toList ++ value) :: rest).flatMap
      fun line => line ++ ['\r'])) "CHRS" = some value := by
  have hlines : ∀ lines : List Text, codec.encode (lines.flatMap fun line => line ++ ['\r']) =
      (lines.map codec.encode).flatMap fun line => line ++ [13] := by
    intro lines
    have hline : ∀ line : Text, codec.encode (line ++ ['\r']) = codec.encode line ++ [13] := by
      intro line
      have hreturn : codec.encode ['\r'] = [13] := h.encode_ascii (by simp)
      rw [Codec.encode_append, hreturn]
    unfold Codec.encode at hline ⊢
    rw [flatMap_assoc, flatMap_map]
    simp only [hline]
  have hsplit : ∀ lines : List Text, (∀ line ∈ lines, '\r' ∉ line) →
      ((lines.map codec.encode).flatMap fun line => line ++ [13]).splitOn 13 =
        lines.map codec.encode ++ [[]] := by
    intro lines hlines
    refine splitOn_flatMap_snoc 13 _ fun bytes hbytes => ?_
    obtain ⟨line, hline, rfl⟩ := mem_map.mp hbytes
    exact h.not_mem_encode (by decide : '\r'.toNat < 63) (hlines line hline)
  have hmark : ∀ separator : Char, separator = ':' ∨ separator = ' ' →
      ∀ c ∈ kludgeMark :: "CHRS".toList ++ [separator], c.toNat < 128 := by
    intro separator hseparator
    cases hseparator with
    | inl h => exact h ▸ all_iff_forall_prop.mp (by decide)
    | inr h => exact h ▸ all_iff_forall_prop.mp (by decide)
  have hfirst : ∀ bytes ∈ (first.map codec.encode).map lstripLf, ∀ separator : Char,
      separator = ':' ∨ separator = ' ' →
      (encodeAsciiReplace (String.ofList (kludgeMark :: "CHRS".toList ++ [separator]))).isPrefixOf
        bytes = false := by
    intro bytes hbytes separator hseparator
    obtain ⟨_, hmem, rfl⟩ := mem_map.mp hbytes
    obtain ⟨line, hline, rfl⟩ := mem_map.mp hmem
    rw [lstripLf_encode h (henc line hline) (hlf line hline), Bool.eq_false_iff, ne_eq,
      isPrefixOf_iff_prefix, encodeAsciiReplace_ofList (hmark separator hseparator)]
    exact fun hstarts => hother line hline separator hseparator
      (h.prefix_of_encode (hmark separator hseparator) (henc line hline) hstarts)
  have hname : ∀ c ∈ kludgeMark :: "CHRS: ".toList, c.toNat < 128 :=
    all_iff_forall_prop.mp (by decide)
  have hchrs : ∀ c ∈ kludgeMark :: "CHRS: ".toList ++ value, c.toNat < 128 := by
    intro c hc
    rcases mem_append.mp hc with hc | hc
    · exact hname c hc
    · exact hvalue.1 c hc
  have hvalueText : strip (decodeAsciiReplace ((codec.encode
      (kludgeMark :: "CHRS: ".toList ++ value)).drop ("CHRS".toList.length + 2))).toList = value := by
    rw [h.encode_ascii hchrs, ← map_drop, decodeAsciiReplace_ascii]
    · exact hvalue.2
    · exact fun c hc => hchrs c (mem_of_mem_drop hc)
  have hchrsBytes : lstripLf (codec.encode (kludgeMark :: "CHRS: ".toList ++ value)) =
      codec.encode (kludgeMark :: "CHRS: ".toList ++ value) := by
    rw [h.encode_ascii hchrs]
    rfl
  have hstarts : (encodeAsciiReplace (String.ofList (kludgeMark :: "CHRS".toList ++ [':']))).isPrefixOf
      (codec.encode (kludgeMark :: "CHRS: ".toList ++ value)) = true := by
    rw [encodeAsciiReplace_ofList (hmark ':' (.inl rfl)), h.encode_ascii hchrs]
    rfl
  unfold rawKludge
  rw [hlines, hsplit _ hcr, map_append, map_append, map_append, append_assoc,
    findSome?_append, findSome?_eq_none_iff.mpr, Option.none_or, map_cons,
    map_cons, cons_append, hchrsBytes]
  · simp only [findSome?_cons, hstarts, Bool.true_or, if_true, hvalueText]
  · intro bytes hbytes
    rw [if_neg]
    simp only [hfirst bytes hbytes _ (.inl rfl), hfirst bytes hbytes _ (.inr rfl), Bool.or_self]
    exact Bool.false_ne_true

def Charset.readsBack (charset : Charset) : Bool :=
  let kludge := charset.kludge.toList
  namedCodecs.contains charset.codec &&
    kludge.all (fun c => c.toNat < 128 && c != '\r' && c != '\n') &&
    decide (strip kludge = kludge) &&
    match split kludge with
    | [] => false
    | first :: _ =>
      let identifier := first.map Char.toUpper
      first.all (fun c => c.toNat < 128) && decide (identifier ≠ "IBMPC".toList) &&
        decide (identifiers.lookup (String.ofList identifier) = some charset.codec)

private theorem namedCodecs_readBack : ∀ codec ∈ namedCodecs, (match kludgeForCodec codec with
      | .ok kludge => Charset.readsBack ⟨codec, kludge⟩
      | .error _ => true) = true := by
  decide +kernel

theorem outboundCharset_readsBack {message : FtnMessage} {charset : Charset}
    (h : outboundCharset lib message = .ok charset) : charset.readsBack = true := by
  have hchosen : ∀ texts, (chooseOutboundCharset lib texts).readsBack = true := by
    intro texts
    unfold chooseOutboundCharset
    split
    · decide +kernel
    · decide +kernel
  unfold outboundCharset at h
  split at h
  · split at h
    · rw [← Except.ok.inj h]
      exact hchosen _
    · rename_i codec _ _
      simp only [bind_eq_ok, pure_eq_ok] at h
      obtain ⟨kludge, hkludge, rfl⟩ := h
      have hnamed : codec ∈ namedCodecs := by
        simp only [kludgeForCodec, bind_eq_ok, orRefuse_eq_ok] at hkludge
        obtain ⟨entry, hentry, -⟩ := hkludge
        have htest := find?_some hentry
        rw [Bool.and_eq_true, decide_eq_true_eq] at htest
        exact mem_map.mpr ⟨entry, mem_of_find?_eq_some hentry, htest.1⟩
      have hreads := namedCodecs_readBack codec hnamed
      rwa [hkludge] at hreads
  · rw [← Except.ok.inj h]
    exact hchosen _

theorem codecForKludge_readsBack (hlib : lib.Standard) {charset : Charset}
    (h : charset.readsBack = true) (page : Option Text) (default : String) :
    codecForKludge lib (some charset.kludge.toList) page default = .ok charset.codec := by
  unfold Charset.readsBack at h
  unfold codecForKludge
  rw [Option.getD_some]
  cases hwords : split charset.kludge.toList with
  | nil => simp [hwords] at h
  | cons first rest =>
    simp only [hwords, Bool.and_eq_true, decide_eq_true_eq, all_eq_true] at h
    obtain ⟨-, ⟨hascii, hlegacy⟩, hlookup⟩ := h
    simp only [hlib.upper_ascii first hascii, hlookup, Option.getD_some]
    rw [if_neg fun hpage => hlegacy hpage.1]
    rfl

theorem textLines_flatMap (lines : List Text) (h : ∀ line ∈ lines, '\r' ∉ line) :
    textLines (lines.flatMap fun line => line ++ ['\r']) = lines.map (remove '\n') := by
  have hremove : remove '\n' (lines.flatMap fun line => line ++ ['\r']) =
      (lines.map (remove '\n')).flatMap fun line => line ++ ['\r'] := by
    unfold remove
    rw [filter_flatMap, flatMap_map]
    simp
  have hcr : ∀ line ∈ lines.map (remove '\n'), '\r' ∉ line := by
    intro line hline
    obtain ⟨original, horiginal, rfl⟩ := mem_map.mp hline
    exact fun hmem => h original horiginal (mem_of_mem_filter hmem)
  unfold textLines dropEmptyLast
  rw [hremove, splitOn_flatMap_snoc _ _ hcr, getLast?_concat, if_pos rfl, dropLast_concat]

theorem splitOn_part {sep : Char} (h : line ∈ text.splitOn sep) :
    sep ∉ line ∧ ∀ c ∈ line, c ∈ text := by
  revert line
  induction text with
  | nil =>
    intro line hline
    rw [splitOn_nil, mem_singleton] at hline
    subst hline
    exact ⟨not_mem_nil, fun c hc => absurd hc not_mem_nil⟩
  | cons c rest ih =>
    intro line hline
    rw [splitOn_cons_eq_if_modifyHead] at hline
    split at hline
    · rcases mem_cons.mp hline with rfl | hline
      · exact ⟨not_mem_nil, fun c hc => absurd hc not_mem_nil⟩
      · exact ⟨(ih hline).1, fun d hd => .tail _ ((ih hline).2 d hd)⟩
    · rename_i hne
      have hsep : sep ≠ c := fun heq => hne (by simp [heq])
      cases hparts : rest.splitOn sep with
      | nil => exact absurd hparts (splitOn_ne_nil _ _)
      | cons first more =>
        rw [hparts] at hline ih
        rcases mem_cons.mp hline with rfl | hmore
        · obtain ⟨hnot, hin⟩ := ih (.head _)
          refine ⟨fun hmem => ?_, fun d hd => ?_⟩
          · rcases mem_cons.mp hmem with heq | hmem
            · exact hsep heq
            · exact hnot hmem
          · rcases mem_cons.mp hd with rfl | hd
            · exact mem_cons_self
            · exact .tail _ (hin d hd)
        · obtain ⟨hnot, hin⟩ := ih (.tail _ hmore)
          exact ⟨hnot, fun d hd => .tail _ (hin d hd)⟩

theorem not_mem_of_mem_textLines (h : line ∈ textLines text) : '\r' ∉ line ∧ '\n' ∉ line := by
  have hmem : line ∈ (remove '\n' text).splitOn '\r' := by
    unfold textLines dropEmptyLast at h
    split at h
    · exact mem_of_mem_dropLast h
    · exact h
  obtain ⟨hcr, hin⟩ := splitOn_part hmem
  refine ⟨hcr, fun hlf => ?_⟩
  have hkept := (mem_filter.mp (hin _ hlf)).2
  exact absurd hkept (by simp)

end NetBBS
