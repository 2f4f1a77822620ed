import NetBBS.Net.KeyReader

/-! # The input in pieces -/

namespace NetBBS.Net

open List

section Utf8

theorem le_ofNat {l n : Nat} (hlow : l < 256) (hn : n < 256) :
    UInt8.ofNat l ≤ UInt8.ofNat n ↔ l ≤ n := by
  rw [UInt8.le_iff_toNat_le, UInt8.toNat_ofNat_of_lt' hlow, UInt8.toNat_ofNat_of_lt' hn]

theorem isContinuation_ofNat {n : Nat} (hlow : 0x80 ≤ n) (hhigh : n ≤ 0xBF) :
    isContinuation (UInt8.ofNat n) = true := by
  unfold isContinuation
  rw [Bool.and_eq_true, decide_eq_true_eq, decide_eq_true_eq]
  exact ⟨(le_ofNat (l := 0x80) (by omega) (by omega)).mpr hlow,
    (le_ofNat (n := 0xBF) (by omega) (by omega)).mpr hhigh⟩

theorem extraBytes_ofNat {n : Nat} (hn : n < 256) :
    extraBytes (UInt8.ofNat n) =
      if 0xC2 ≤ n ∧ n ≤ 0xDF then some 1
      else if 0xE0 ≤ n ∧ n ≤ 0xEF then some 2
      else if 0xF0 ≤ n ∧ n ≤ 0xF4 then some 3
      else none := by
  have hlow (low : Nat) (hlow : low < 256) : UInt8.ofNat low ≤ UInt8.ofNat n ↔ low ≤ n :=
    le_ofNat hlow hn
  have hhigh (high : Nat) (hhigh : high < 256) : UInt8.ofNat n ≤ UInt8.ofNat high ↔ n ≤ high :=
    le_ofNat hn hhigh
  unfold extraBytes
  simp only [Bool.and_eq_true, decide_eq_true_eq]
  simp only [← hlow 0xC2 (by omega), ← hhigh 0xDF (by omega), ← hlow 0xE0 (by omega),
    ← hhigh 0xEF (by omega), ← hlow 0xF0 (by omega), ← hhigh 0xF4 (by omega)]
  rfl

theorem utf8EncodeChar_high {c : Char} (h : 0x80 ≤ c.toNat) :
    ∃ lead extra, String.utf8EncodeChar c = lead :: extra ∧ 0x80 ≤ lead ∧
      extraBytes lead = some extra.length ∧ ∀ byte ∈ extra, isContinuation byte = true := by
  have hval : c.val.toNat = c.toNat := rfl
  have hle : c.toNat ≤ 0x10FFFF := by
    have hvalid := c.valid
    simp only [UInt32.isValidChar, Nat.isValidChar] at hvalid
    omega
  have hhigh {n : Nat} (hlow : 0x80 ≤ n) (hn : n < 256) : 0x80 ≤ UInt8.ofNat n :=
    (le_ofNat (l := 0x80) (by omega) hn).mpr hlow
  unfold String.utf8EncodeChar
  simp only [hval]
  rw [if_neg (by omega)]
  split
  · refine ⟨_, _, rfl, hhigh (by omega) (by omega), ?_, ?_⟩
    · rw [extraBytes_ofNat (by omega), if_pos (by omega)]
      rfl
    · intro byte hbyte
      simp only [mem_cons, not_mem_nil, or_false] at hbyte
      subst hbyte
      exact isContinuation_ofNat (by omega) (by omega)
  · split
    · refine ⟨_, _, rfl, hhigh (by omega) (by omega), ?_, ?_⟩
      · rw [extraBytes_ofNat (by omega), if_neg (by omega), if_pos (by omega)]
        rfl
      · intro byte hbyte
        simp only [mem_cons, not_mem_nil, or_false] at hbyte
        rcases hbyte with rfl | rfl <;> exact isContinuation_ofNat (by omega) (by omega)
    · refine ⟨_, _, rfl, hhigh (by omega) (by omega), ?_, ?_⟩
      · rw [extraBytes_ofNat (by omega), if_neg (by omega), if_neg (by omega), if_pos (by omega)]
        rfl
      · intro byte hbyte
        simp only [mem_cons, not_mem_nil, or_false] at hbyte
        rcases hbyte with rfl | rfl | rfl <;> exact isContinuation_ofNat (by omega) (by omega)

theorem decodeCharacter_iff {raw : List UInt8} {c : Char} :
    decodeCharacter raw = some c ↔ String.utf8EncodeChar c = raw := by
  unfold decodeCharacter
  rw [Option.filter_eq_some_iff]
  constructor
  · intro h
    exact of_decide_eq_true h.2
  · rintro rfl
    refine ⟨?_, decide_eq_true rfl⟩
    have h := @ByteArray.utf8DecodeChar?_utf8EncodeChar_append ByteArray.empty c
    rwa [ByteArray.append_empty] at h

theorem utf8EncodeChar_ascii {c : Char} (h : c.toNat < 0x80) :
    String.utf8EncodeChar c = [UInt8.ofNat c.toNat] := by
  have hval : c.val.toNat = c.toNat := rfl
  unfold String.utf8EncodeChar
  simp only [hval]
  rw [if_pos (by omega)]

theorem decodeCharacter_length {lead : UInt8} {extra : List UInt8} {c : Char} (hlead : 0x80 ≤ lead)
    (h : decodeCharacter (lead :: extra) = some c) :
    0x80 ≤ c.toNat ∧ extraBytes lead = some extra.length := by
  have hraw := decodeCharacter_iff.mp h
  have hhigh : 0x80 ≤ c.toNat := by
    by_contra hlow
    rw [utf8EncodeChar_ascii (by omega)] at hraw
    obtain ⟨hsame, -⟩ := List.cons.inj hraw
    rw [← hsame] at hlead
    have := (le_ofNat (l := 0x80) (n := c.toNat) (by omega) (by omega)).mp hlead
    omega
  obtain ⟨lead', extra', hencoded, -, hextra, -⟩ := utf8EncodeChar_high hhigh
  rw [hencoded] at hraw
  obtain ⟨rfl, rfl⟩ := List.cons.inj hraw
  exact ⟨hhigh, hextra⟩

end Utf8

section Sources

variable {s later : Source}

theorem next_spec {byte : Option UInt8} (h : s.next = .ok (byte, later)) :
    s.pending = byte.toList ++ later.pending ∧ later.guards = s.guards ∧
      later.pushed = s.pushed.tail ∧ s.now ≤ later.now := by
  unfold Source.next Source.receive at h
  unfold Source.pending
  split at h
  · rename_i first rest hpushed
    obtain ⟨rfl, rfl⟩ : _ ∧ _ := by simpa only [Except.ok.injEq, Prod.mk.injEq] using h
    rw [hpushed]
    exact ⟨rfl, rfl, rfl, le_rfl⟩
  · rename_i hpushed
    split at h
    · cases h
    · rename_i arrival rest harrivals
      obtain ⟨rfl, rfl⟩ : _ ∧ _ := by simpa only [Except.ok.injEq, Prod.mk.injEq] using h
      rw [hpushed, harrivals]
      refine ⟨?_, rfl, rfl, Nat.le_max_left _ _⟩
      cases hbyte : arrival.byte <;> simp [hbyte]

theorem readByte_unguarded (hs : s.guards = {}) : s.readByte = s.next := by
  rw [Source.readByte]
  split
  · rename_i e h
    exact h.symm
  · rename_i h
    exact h.symm
  · rename_i byte after h
    have hguards : after.guards = {} := (next_spec h).2.1.trans hs
    have hdrops : wordGuardDrops after.guards after.now byte = (false, {}) := by
      rw [hguards]
      rfl
    rw [hdrops, h, if_neg Bool.false_ne_true, ← hguards]

theorem peekUntil_unguarded (hs : s.guards = {}) (deadline : Nat) :
    (s.peekUntil deadline).2.guards = {} ∧ (s.peekUntil deadline).2.pushed = s.pushed ∧
      s.pending = s.pushed ++ ((s.peekUntil deadline).1.toList ++
        (s.peekUntil deadline).2.arrivals.filterMap Arrival.byte) := by
  rw [Source.peekUntil]
  unfold Source.pending
  split
  · rename_i harrivals
    rw [harrivals]
    exact ⟨hs, rfl, rfl⟩
  · rename_i arrival rest harrivals
    rw [harrivals]
    split
    · simp only
      split
      · rename_i hbyte
        exact ⟨hs, rfl, by simp [hbyte]⟩
      · rename_i byte hbyte
        have hdrops : enterGuardDrops s.guards (max s.now arrival.time) byte = (false, {}) := by
          rw [hs]
          rfl
        rw [hdrops, if_neg Bool.false_ne_true]
        exact ⟨rfl, rfl, by simp [hbyte]⟩
    · exact ⟨hs, rfl, by simp⟩

theorem readByteWithTimeout_spec (hs : s.guards = {}) {timeout : Nat} {byte : Option UInt8}
    (h : s.readByteWithTimeout timeout = (byte, later)) :
    s.pending = byte.toList ++ later.pending ∧ later.guards = {} ∧
      later.pushed = s.pushed.tail := by
  unfold Source.readByteWithTimeout at h
  split at h
  · rename_i first rest hpushed
    obtain ⟨rfl, rfl⟩ := Prod.mk.inj h
    unfold Source.pending
    rw [hpushed]
    exact ⟨rfl, hs, rfl⟩
  · rename_i hpushed
    obtain ⟨hguards, hstack, hpending⟩ := peekUntil_unguarded hs (s.now + timeout)
    rw [h, hpushed] at hpending hstack
    rw [h] at hguards
    refine ⟨?_, hguards, by rw [hpushed]; exact hstack⟩
    rw [hpending]
    unfold Source.pending
    rw [hstack]
    rfl

@[simp] theorem pushBack_guards (byte : UInt8) : (s.pushBack byte).guards = s.guards := rfl

@[simp] theorem pushBack_pushed (byte : UInt8) : (s.pushBack byte).pushed = byte :: s.pushed := rfl

theorem readByte_pushBack (hs : s.guards = {}) (byte : UInt8) :
    (s.pushBack byte).readByte = .ok (some byte, s) := by
  rw [readByte_unguarded (by rw [pushBack_guards, hs])]
  rfl

theorem readByteWithTimeout_pushBack (byte : UInt8) (timeout : Nat) :
    (s.pushBack byte).readByteWithTimeout timeout = (some byte, s) := rfl

def OnlyBytes (s : Source) : Prop := ∀ arrival ∈ s.arrivals, arrival.byte.isSome = true

theorem next_onlyBytes (hs : OnlyBytes s) {byte : UInt8} {rest : List UInt8}
    (h : s.pending = byte :: rest) :
    ∃ later, s.next = .ok (some byte, later) ∧ later.pending = rest ∧ OnlyBytes later ∧
      later.guards = s.guards := by
  unfold Source.pending at h
  unfold Source.next Source.receive
  cases hpushed : s.pushed with
  | cons first others =>
    rw [hpushed] at h
    obtain ⟨rfl, rfl⟩ := List.cons.inj h
    exact ⟨_, rfl, rfl, hs, rfl⟩
  | nil =>
    rw [hpushed] at h
    cases harrivals : s.arrivals with
    | nil =>
      rw [harrivals] at h
      cases h
    | cons arrival others =>
      obtain ⟨first, hfirst⟩ := Option.isSome_iff_exists.mp
        (hs arrival (by rw [harrivals]; exact mem_cons_self))
      rw [harrivals, filterMap_cons, hfirst] at h
      obtain ⟨rfl, rfl⟩ := List.cons.inj h
      refine ⟨⟨[], others, max s.now arrival.time, s.guards⟩, ?_, rfl, ?_, rfl⟩
      · rw [← hfirst]
      · intro other hother
        exact hs other (by rw [harrivals]; exact mem_cons_of_mem arrival hother)

end Sources

section Pieces

inductive LineTail : List UInt8 → Prop where
  | none : LineTail []
  | lf : LineTail [lf]
  | nul : LineTail [nul]

inductive LineEnding : List UInt8 → Prop where
  | lf : LineEnding [lf]
  | cr (tail : List UInt8) : LineTail tail → LineEnding (cr :: tail)

inductive EscapeSequence : List UInt8 → Prop where
  | alone : EscapeSequence [esc]
  | cut (params : List UInt8) : params.length ≤ maxEscapeSequenceLength →
      (∀ byte ∈ params, isFinal byte = false) → EscapeSequence (esc :: 0x5B :: params)
  | csi (params : List UInt8) (final : UInt8) : params.length < maxEscapeSequenceLength →
      (∀ byte ∈ params, isFinal byte = false) → isFinal final = true →
      EscapeSequence (esc :: 0x5B :: (params ++ [final]))
  | ss3Cut : EscapeSequence [esc, 0x4F]
  | ss3 (letter : UInt8) : 0x20 ≤ letter → letter < 0x7F → EscapeSequence [esc, 0x4F, letter]
  | ss3Other (byte : UInt8) : EscapeSequence [esc, 0x4F, byte]
  | other (byte : UInt8) : byte ≠ 0x5B → byte ≠ 0x4F → EscapeSequence [esc, byte]

structure Malformed (lead : UInt8) (extra : List UInt8) : Prop where
  high : 0x80 ≤ lead
  length : extra.length ≤ 3
  continues : ∀ byte ∈ extra, isContinuation byte = true
  decodes : decodeCharacter (lead :: extra) = none

def Reader.typed : Reader → Char → Delivered
  | .masked, c => .line (.char c)
  | .line _, c => .line (.char c)
  | .key, c => .key c
  | .editor distinguishCtrlH _, c =>
    .editor (if c = '?' ∧ distinguishCtrlH = true then .ctrl 'h' else .char c)

inductive Piece (keyboard : Keyboard) (reader : Reader) :
    List UInt8 → List UInt8 → Option Delivered → Prop where
  | text (byte : UInt8) : 0x20 ≤ byte → byte < 0x7F → byte ≠ 0x3F →
      Piece keyboard reader [byte] [] (some (reader.typed (Char.ofNat byte.toNat)))
  /-- `?`, which is help where no text is typed. -/
  | question (delivered : Delivered) : Piece keyboard reader [0x3F] [] (some delivered)
  | control (byte : UInt8) (delivered : Option Delivered) : byte < 0x20 ∨ byte = del → byte ≠ esc →
      Piece keyboard reader [byte] [] delivered
  | lineEnding (bytes : List UInt8) (delivered : Option Delivered) : LineEnding bytes →
      Piece keyboard reader bytes [] delivered
  | character (c : Char) : keyboard.cp437 = none → 0x80 ≤ c.toNat →
      Piece keyboard reader (String.utf8EncodeChar c) [] (some (reader.typed c))
  | cp437 (byte : UInt8) (table : UInt8 → Char) : keyboard.cp437 = some table → 0x80 ≤ byte →
      Piece keyboard reader [byte] [] (some (reader.typed (table byte)))
  | malformed (lead : UInt8) (extra : List UInt8) : keyboard.cp437 = none → Malformed lead extra →
      Piece keyboard reader (lead :: extra) [] none
  | escape (bytes queued : List UInt8) (delivered : Option Delivered) : EscapeSequence bytes →
      (∀ byte ∈ queued, 0x20 ≤ byte ∧ byte < 0x7F) → Piece keyboard reader bytes queued delivered

inductive Partition (keyboard : Keyboard) :
    List Reader → List (Option Delivered) → List UInt8 → List UInt8 → Prop where
  | nil (input : List UInt8) : Partition keyboard [] [] input input
  | action (reader : Reader) {readers : List Reader} {others : List (Option Delivered)}
      {input last : List UInt8} : Partition keyboard readers others input last →
      Partition keyboard (reader :: readers) (none :: others) input last
  | piece {reader : Reader} {bytes queued rest : List UInt8} {delivered : Option Delivered}
      {readers : List Reader} {others : List (Option Delivered)} {last : List UInt8} :
      Piece keyboard reader bytes queued delivered →
      Partition keyboard readers others (queued ++ rest) last →
      Partition keyboard (reader :: readers) (delivered :: others) (bytes ++ rest) last

end Pieces

section Helpers

variable {s later : Source}

theorem consumeOptionalLfOrNul_spec (hs : s.guards = {}) (hpushed : s.pushed = []) :
    ∃ tail, LineTail tail ∧ s.pending = tail ++ (consumeOptionalLfOrNul s).pending ∧
      (consumeOptionalLfOrNul s).guards = {} ∧
      (consumeOptionalLfOrNul s).pushed.length ≤ 1 := by
  unfold consumeOptionalLfOrNul
  cases hread : s.readByteWithTimeout followupByteTimeout with
  | mk byte later =>
    obtain ⟨hpending, hguards, hstack⟩ := readByteWithTimeout_spec hs hread
    rw [hpushed] at hstack
    cases byte with
    | none => exact ⟨[], .none, hpending, hguards, by rw [hstack]; exact Nat.zero_le _⟩
    | some byte =>
      simp only
      split
      · rename_i htail
        refine ⟨[byte], ?_, hpending, hguards, by rw [hstack]; exact Nat.zero_le _⟩
        rcases htail with rfl | rfl
        · exact .lf
        · exact .nul
      · exact ⟨[], .none, hpending, hguards, by rw [pushBack_pushed, hstack]; exact le_rfl⟩

theorem readContinuation_spec {raw : List UInt8} {extra : Nat} (hs : s.guards = {})
    (hpushed : s.pushed = []) {c : Option Char}
    (h : readContinuation raw extra s = .ok (c, later)) :
    ∃ read, (∀ byte ∈ read, isContinuation byte = true) ∧ read.length ≤ extra ∧
      s.pending = read ++ later.pending ∧ later.guards = {} ∧ later.pushed.length ≤ 1 ∧
      (c = decodeCharacter (raw ++ read) ∧ read.length = extra ∨ c = none ∧ read.length < extra) := by
  induction extra generalizing raw s with
  | zero =>
    obtain ⟨rfl, rfl⟩ := Prod.mk.inj (Except.ok.inj h)
    exact ⟨[], fun byte hbyte => (by cases hbyte), le_rfl, rfl, hs,
      by rw [hpushed]; exact Nat.zero_le _, .inl ⟨by rw [append_nil], rfl⟩⟩
  | succ extra ih =>
    unfold readContinuation at h
    rw [readByte_unguarded hs] at h
    cases hnext : s.next with
    | error e =>
      rw [hnext] at h
      cases h
    | ok read =>
      obtain ⟨byte, after⟩ := read
      obtain ⟨hpending, hguards, hstack, -⟩ := next_spec hnext
      rw [hs] at hguards
      rw [hpushed] at hstack
      rw [hnext] at h
      cases byte with
      | none =>
        obtain ⟨rfl, rfl⟩ := Prod.mk.inj (Except.ok.inj h)
        exact ⟨[], fun byte hbyte => (by cases hbyte), Nat.zero_le _, hpending, hguards,
          by rw [hstack]; exact Nat.zero_le _, .inr ⟨rfl, Nat.succ_pos _⟩⟩
      | some byte =>
        simp only at h
        by_cases hcontinues : isContinuation byte = true
        · rw [if_pos hcontinues] at h
          obtain ⟨read, hall, hlength, hrest, hguards', hstack', hresult⟩ := ih hguards hstack h
          refine ⟨byte :: read, ?_, Nat.succ_le_succ hlength, ?_, hguards', hstack', ?_⟩
          · intro other hother
            rcases mem_cons.mp hother with rfl | hother
            · exact hcontinues
            · exact hall other hother
          · rw [hpending, hrest]
            rfl
          · rcases hresult with ⟨hc, hfull⟩ | ⟨hc, hshort⟩
            · left
              rw [append_assoc] at hc
              exact ⟨hc, congrArg (· + 1) hfull⟩
            · exact .inr ⟨hc, Nat.succ_lt_succ hshort⟩
        · rw [if_neg hcontinues] at h
          obtain ⟨rfl, rfl⟩ := Prod.mk.inj (Except.ok.inj h)
          exact ⟨[], fun byte hbyte => (by cases hbyte), Nat.zero_le _, hpending, hguards,
            by rw [pushBack_pushed, hstack]; exact le_rfl, .inr ⟨rfl, Nat.succ_pos _⟩⟩

theorem extraBytes_le {lead : UInt8} {extra : Nat} (h : extraBytes lead = some extra) :
    extra ≤ 3 := by
  unfold extraBytes at h
  split at h
  · obtain rfl := Option.some.inj h
    omega
  · split at h
    · obtain rfl := Option.some.inj h
      omega
    · split at h
      · obtain rfl := Option.some.inj h
        omega
      · cases h

theorem deliver_ok {α β : Type} {turn : Turn α} {make : α → Option β} {result : Option β}
    (h : deliver turn make = .ok (result, later)) :
    ∃ read, turn = .ok (read, later) ∧ result = read.bind make := by
  cases turn with
  | error e => cases h
  | ok read =>
    obtain ⟨rfl, rfl⟩ := Prod.mk.inj (Except.ok.inj h)
    exact ⟨read.1, rfl, rfl⟩

theorem deliver_here {α β : Type} {turn : Turn α} {make : α → Option β}
    (h : ∃ read, turn = .ok (read, s)) : ∃ result, deliver turn make = .ok (result, s) := by
  obtain ⟨read, rfl⟩ := h
  exact ⟨read.bind make, rfl⟩

theorem deliver_deliver {α β γ : Type} (turn : Turn α) (make : α → Option β)
    (others : β → Option γ) :
    deliver (deliver turn make) others = deliver turn fun a => (make a).bind others := by
  cases turn with
  | error e => rfl
  | ok read =>
    obtain ⟨read, later⟩ := read
    cases read <;> rfl

theorem readHighCharacter_spec {keyboard : Keyboard} {reader : Reader} {lead : UInt8}
    (hs : s.guards = {}) (hpushed : s.pushed = []) (hlead : 0x80 ≤ lead) {c : Option Char}
    (h : readHighCharacter keyboard s lead = .ok (c, later)) :
    ∃ read, Piece keyboard reader (lead :: read) [] (c.map reader.typed) ∧
      s.pending = read ++ later.pending ∧ later.guards = {} ∧ later.pushed.length ≤ 1 := by
  unfold readHighCharacter at h
  split at h
  · rename_i table htable
    obtain ⟨rfl, rfl⟩ := Prod.mk.inj (Except.ok.inj h)
    exact ⟨[], .cp437 lead table htable hlead, rfl, hs, by rw [hpushed]; exact Nat.zero_le _⟩
  · rename_i hutf8
    split at h
    · rename_i hnone
      obtain ⟨rfl, rfl⟩ := Prod.mk.inj (Except.ok.inj h)
      refine ⟨[], .malformed lead [] hutf8 ⟨hlead, Nat.zero_le _, ?_, ?_⟩, rfl, hs,
        by rw [hpushed]; exact Nat.zero_le _⟩
      · intro byte hbyte
        cases hbyte
      · rw [Option.eq_none_iff_forall_ne_some]
        intro c hc
        rw [(decodeCharacter_length hlead hc).2] at hnone
        cases hnone
    · rename_i extra hextra
      obtain ⟨read, hall, hlength, hpending, hguards, hstack, hresult⟩ :=
        readContinuation_spec hs hpushed h
      refine ⟨read, ?_, hpending, hguards, hstack⟩
      have hle := Nat.le_trans hlength (extraBytes_le hextra)
      rcases hresult with ⟨rfl, hfull⟩ | ⟨rfl, hshort⟩
      · cases hdecode : decodeCharacter ([lead] ++ read) with
        | none => exact .malformed lead read hutf8 ⟨hlead, hle, hall, hdecode⟩
        | some c =>
          have hraw : String.utf8EncodeChar c = lead :: read := decodeCharacter_iff.mp hdecode
          rw [← hraw]
          exact .character c hutf8 (decodeCharacter_length hlead hdecode).1
      · refine .malformed lead read hutf8 ⟨hlead, hle, hall, ?_⟩
        rw [Option.eq_none_iff_forall_ne_some]
        intro c hc
        have hfull := (decodeCharacter_length hlead hc).2
        rw [hextra] at hfull
        have hlengths : extra = read.length := Option.some.inj hfull
        omega

theorem readCsi_spec {syncterm : Bool} {deadline left : Nat} {params : List UInt8}
    (hs : s.guards = {}) (hpushed : s.pushed = []) (hparams : ∀ byte ∈ params, isFinal byte = false)
    (hleft : params.length + left = maxEscapeSequenceLength) {key : Option EscapeKey}
    (h : readCsi syncterm deadline left params s = .ok (key, later)) :
    ∃ read, EscapeSequence (esc :: 0x5B :: (params ++ read)) ∧
      s.pending = read ++ later.pending ∧ later.guards = {} ∧ later.pushed = [] := by
  induction left generalizing params s with
  | zero =>
    unfold readCsi at h
    split at h
    · cases h
    · split at h
      · rename_i after hread
        obtain ⟨rfl, rfl⟩ := Prod.mk.inj (Except.ok.inj h)
        obtain ⟨hpending, hguards, hstack⟩ := readByteWithTimeout_spec hs hread
        refine ⟨[], ?_, hpending, hguards, by rw [hstack, hpushed]; rfl⟩
        rw [append_nil]
        exact .cut params (by omega) hparams
      · cases h
  | succ left ih =>
    unfold readCsi at h
    split at h
    · cases h
    · split at h
      · rename_i after hread
        obtain ⟨rfl, rfl⟩ := Prod.mk.inj (Except.ok.inj h)
        obtain ⟨hpending, hguards, hstack⟩ := readByteWithTimeout_spec hs hread
        refine ⟨[], ?_, hpending, hguards, by rw [hstack, hpushed]; rfl⟩
        rw [append_nil]
        exact .cut params (by omega) hparams
      · rename_i byte after hread
        obtain ⟨hpending, hguards, hstack⟩ := readByteWithTimeout_spec hs hread
        rw [hpushed] at hstack
        simp only at h
        by_cases hfinal : isFinal byte = true
        · rw [if_pos hfinal] at h
          obtain ⟨rfl, rfl⟩ := Prod.mk.inj (Except.ok.inj h)
          exact ⟨[byte], .csi params byte (by omega) hparams hfinal, hpending, hguards, hstack⟩
        · rw [if_neg hfinal] at h
          have hall : ∀ other ∈ params ++ [byte], isFinal other = false := by
            intro other hother
            rcases mem_append.mp hother with hold | hnew
            · exact hparams other hold
            · rw [mem_singleton.mp hnew]
              exact Bool.eq_false_iff.mpr hfinal
          obtain ⟨read, hsequence, hrest, hguards', hstack'⟩ := ih hguards hstack hall
            (by rw [length_append]; simp only [length_singleton]; omega) h
          refine ⟨byte :: read, ?_, ?_, hguards', hstack'⟩
          · rw [append_assoc] at hsequence
            exact hsequence
          · rw [hpending, hrest]
            rfl

theorem readEscapeSequence_spec {keyboard : Keyboard} (hs : s.guards = {})
    (hpushed : s.pushed.length ≤ 1) {key : Option EscapeKey}
    (h : readEscapeSequence keyboard s = .ok (key, later)) :
    ∃ read, EscapeSequence (esc :: read) ∧ s.pending = read ++ later.pending ∧
      later.guards = {} ∧ later.pushed = [] := by
  have htail : s.pushed.tail = [] := by
    apply eq_nil_of_length_eq_zero
    rw [length_tail]
    omega
  unfold readEscapeSequence at h
  split at h
  · rename_i after hread
    obtain ⟨rfl, rfl⟩ := Prod.mk.inj (Except.ok.inj h)
    obtain ⟨hpending, hguards, hstack⟩ := readByteWithTimeout_spec hs hread
    exact ⟨[], .alone, hpending, hguards, hstack.trans htail⟩
  · rename_i byte after hread
    obtain ⟨hpending, hguards, hstack⟩ := readByteWithTimeout_spec hs hread
    rw [htail] at hstack
    split at h
    · rename_i hbyte
      obtain ⟨read, hsequence, hrest, hguards', hstack'⟩ := readCsi_spec hguards hstack
        (fun byte hbyte => (by cases hbyte)) (Nat.zero_add _) h
      refine ⟨byte :: read, ?_, ?_, hguards', hstack'⟩
      · rw [hbyte]
        exact hsequence
      · rw [hpending, hrest]
        rfl
    · rename_i hcsi
      split at h
      · rename_i hbyte
        split at h
        · rename_i last hread'
          obtain ⟨rfl, rfl⟩ := Prod.mk.inj (Except.ok.inj h)
          obtain ⟨hpending', hguards', hstack'⟩ := readByteWithTimeout_spec hguards hread'
          rw [hstack] at hstack'
          refine ⟨[byte], by rw [hbyte]; exact .ss3Cut, ?_, hguards', hstack'⟩
          rw [hpending, hpending']
          rfl
        · rename_i letter last hread'
          obtain ⟨hpending', hguards', hstack'⟩ := readByteWithTimeout_spec hguards hread'
          rw [hstack] at hstack'
          have hboth : s.pending = [byte, letter] ++ last.pending := by
            rw [hpending, hpending']
            rfl
          split at h
          · rename_i hletter
            obtain ⟨rfl, rfl⟩ := Prod.mk.inj (Except.ok.inj h)
            exact ⟨[byte, letter], by rw [hbyte]; exact .ss3 letter hletter.1 hletter.2, hboth,
              hguards', hstack'⟩
          · obtain ⟨rfl, rfl⟩ := Prod.mk.inj (Except.ok.inj h)
            exact ⟨[byte, letter], by rw [hbyte]; exact .ss3Other letter, hboth, hguards', hstack'⟩
      · rename_i hss3
        obtain ⟨rfl, rfl⟩ := Prod.mk.inj (Except.ok.inj h)
        exact ⟨[byte], .other byte hcsi hss3, hpending, hguards, hstack⟩

theorem typePastedColor_pushed (params : List UInt8) (pastedColor : PastedColor) :
    typePastedColor s params pastedColor =
      { s with pushed := pastedColor.translate params ++ s.pushed } := by
  have hall (codes : List UInt8) :
      codes.reverse.foldl Source.pushBack s = { s with pushed := codes ++ s.pushed } := by
    induction codes with
    | nil => rfl
    | cons code rest ih =>
      rw [reverse_cons, foldl_append, ih]
      rfl
  exact hall _

structure Takes (s later : Source) (bytes queued : List UInt8) : Prop where
  read : ∃ rest, s.pending = bytes ++ rest ∧ later.pending = queued ++ rest
  unguarded : later.guards = {}
  printable : ∀ byte ∈ queued, 0x20 ≤ byte ∧ byte < 0x7F
  stack : queued = [] ∧ later.pushed.length ≤ 1 ∨ later.pushed = queued

theorem escapeTurn_spec {keyboard : Keyboard} {pastedColor : Option PastedColor} {α : Type}
    {make : SymbolicKey → Option α} (hs : s.guards = {}) (hpushed : s.pushed.length ≤ 1)
    {result : Option α} (h : escapeTurn keyboard s pastedColor make = .ok (result, later)) :
    ∃ read queued, EscapeSequence (esc :: read) ∧ Takes s later read queued := by
  have hnone : ∀ byte ∈ ([] : List UInt8), 0x20 ≤ byte ∧ byte < 0x7F :=
    fun byte hbyte => (by cases hbyte)
  unfold escapeTurn at h
  split at h
  · cases h
  · rename_i params after hread
    obtain ⟨rfl, rfl⟩ := Prod.mk.inj (Except.ok.inj h)
    obtain ⟨read, hsequence, hpending, hguards, hstack⟩ := readEscapeSequence_spec hs hpushed hread
    cases pastedColor with
    | none =>
      exact ⟨read, [], hsequence, ⟨_, hpending, rfl⟩, hguards, hnone,
        .inl ⟨rfl, by rw [typeColor, hstack]; exact Nat.zero_le _⟩⟩
    | some pastedColor =>
      have htyped := @typePastedColor_pushed after params pastedColor
      rw [hstack, append_nil] at htyped
      refine ⟨read, pastedColor.translate params, hsequence, ⟨_, hpending, ?_⟩, ?_,
        pastedColor.printable params, .inr ?_⟩
      · rw [typeColor, htyped]
        unfold Source.pending
        rw [hstack]
        rfl
      · rw [typeColor, htyped]
        exact hguards
      · rw [typeColor, htyped]
  · rename_i key after hread
    obtain ⟨rfl, rfl⟩ := Prod.mk.inj (Except.ok.inj h)
    obtain ⟨read, hsequence, hpending, hguards, hstack⟩ := readEscapeSequence_spec hs hpushed hread
    exact ⟨read, [], hsequence, ⟨_, hpending, rfl⟩, hguards, hnone,
      .inl ⟨rfl, by rw [hstack]; exact Nat.zero_le _⟩⟩
  · rename_i after hread
    obtain ⟨rfl, rfl⟩ := Prod.mk.inj (Except.ok.inj h)
    obtain ⟨read, hsequence, hpending, hguards, hstack⟩ := readEscapeSequence_spec hs hpushed hread
    exact ⟨read, [], hsequence, ⟨_, hpending, rfl⟩, hguards, hnone,
      .inl ⟨rfl, by rw [hstack]; exact Nat.zero_le _⟩⟩

end Helpers

section Turns

variable {keyboard : Keyboard} {reader : Reader} {s later : Source} {byte : UInt8}

theorem ne_control {control : UInt8} (h : 0x20 ≤ byte) (hcontrol : control < 0x20) :
    byte ≠ control := by
  rintro rfl
  exact absurd (UInt8.lt_of_lt_of_le hcontrol h) (UInt8.lt_irrefl _)

theorem turnFrom_typed (h : 0x20 ≤ byte) (hdel : byte ≠ del) (hquestion : byte ≠ 0x3F) :
    reader.turnFrom keyboard s byte =
      deliver (readCharacter keyboard s byte) fun c => some (reader.typed c) := by
  have hcr : byte ≠ cr := ne_control h (by decide)
  have hlf : byte ≠ lf := ne_control h (by decide)
  have hbs : byte ≠ bs := ne_control h (by decide)
  have hesc : byte ≠ esc := ne_control h (by decide)
  have htab : byte ≠ tab := ne_control h (by decide)
  have hkill : byte ≠ kill := ne_control h (by decide)
  have hlow : ¬byte < 0x20 := fun hlow => ne_control h hlow rfl
  cases reader with
  | masked =>
    unfold Reader.turnFrom maskedTurn
    simp only [hcr, hlf, hbs, hdel, hesc, hkill, hlow, if_false, false_and, or_self,
      deliver_deliver]
    rfl
  | line options =>
    unfold Reader.turnFrom editableTurn
    simp only [hcr, hlf, hbs, hdel, hesc, htab, hkill, hlow, if_false, false_and, or_self,
      deliver_deliver]
    rfl
  | key =>
    have hredraw : byte ≠ 0x0C := ne_control h (by decide)
    have hrefresh : byte ≠ 0x12 := ne_control h (by decide)
    have hcancel : byte ≠ 0x03 := ne_control h (by decide)
    unfold Reader.turnFrom keyTurn
    simp only [hcr, hlf, hbs, hdel, hesc, hredraw, hrefresh, hcancel, hlow, hquestion, if_false,
      false_and, or_self]
    rfl
  | editor distinguishCtrlH pastedColor =>
    unfold Reader.turnFrom editorTurn
    simp only [hcr, hlf, hbs, hdel, hesc, htab, hlow, if_false, false_and, or_self,
      deliver_deliver]
    rfl

theorem turnFrom_question :
    ∃ delivered, reader.turnFrom keyboard s 0x3F = .ok (some delivered, s) := by
  cases reader <;> exact ⟨_, rfl⟩

theorem turnFrom_control (h : byte < 0x20 ∨ byte = del) (hesc : byte ≠ esc) (hcr : byte ≠ cr) :
    ∃ delivered, reader.turnFrom keyboard s byte = .ok (delivered, s) := by
  cases reader with
  | masked =>
    apply deliver_here
    unfold maskedTurn
    rw [if_neg hcr]
    split_ifs
    all_goals first | exact ⟨_, rfl⟩ | simp_all
  | line options =>
    apply deliver_here
    unfold editableTurn
    rw [if_neg hcr]
    split_ifs
    all_goals first | exact ⟨_, rfl⟩ | simp_all
  | key =>
    apply deliver_here
    unfold keyTurn
    split_ifs
    all_goals first | exact ⟨_, rfl⟩ | simp_all
  | editor distinguishCtrlH pastedColor =>
    apply deliver_here
    unfold editorTurn
    rw [if_neg hcr]
    split_ifs
    all_goals first | exact ⟨_, rfl⟩ | simp_all

theorem turnFrom_cr : ∃ delivered, reader.turnFrom keyboard s cr = .ok (delivered, s) ∨
    reader.turnFrom keyboard s cr = .ok (delivered, consumeOptionalLfOrNul s) := by
  cases reader with
  | masked => exact ⟨_, .inr rfl⟩
  | line options => exact ⟨_, .inr rfl⟩
  | key => exact ⟨_, .inl rfl⟩
  | editor distinguishCtrlH pastedColor => exact ⟨_, .inr rfl⟩

theorem takes_nothing {after : Source} (hs : s.guards = {}) (hpushed : s.pushed = [])
    {timeout : Nat} (hread : s.readByteWithTimeout timeout = (none, after)) :
    Takes s after [] [] := by
  obtain ⟨hpending, hguards, hstack⟩ := readByteWithTimeout_spec hs hread
  refine ⟨⟨_, hpending, rfl⟩, hguards, fun byte hbyte => (by cases hbyte), .inl ⟨rfl, ?_⟩⟩
  rw [hstack, hpushed]
  exact Nat.zero_le _

theorem Takes.of_pending {other : Source} {bytes queued : List UInt8}
    (h : Takes s later bytes queued) (hsame : s.pending = other.pending) :
    Takes other later bytes queued :=
  ⟨hsame ▸ h.read, h.unguarded, h.printable, h.stack⟩

theorem peekedTurn_spec (hs : s.guards = {}) (hpushed : s.pushed = []) {timeout : Nat} {peek : UInt8}
    {after : Source} (hread : s.readByteWithTimeout timeout = (some peek, after))
    {pastedColor : Option PastedColor} {α : Type} {make : SymbolicKey → Option α} {result : Option α}
    (h : escapeTurn keyboard (after.pushBack peek) pastedColor make = .ok (result, later)) :
    ∃ read queued, EscapeSequence (esc :: read) ∧ Takes s later read queued := by
  obtain ⟨hpending, hguards, hstack⟩ := readByteWithTimeout_spec hs hread
  rw [hpushed] at hstack
  have hpushedBack : (after.pushBack peek).pushed.length ≤ 1 := by
    rw [pushBack_pushed, hstack]
    exact le_rfl
  obtain ⟨read, queued, hsequence, htakes⟩ := escapeTurn_spec
    (show (after.pushBack peek).guards = {} from hguards) hpushedBack h
  exact ⟨read, queued, hsequence, htakes.of_pending hpending.symm⟩

theorem turnFrom_esc (hs : s.guards = {}) (hpushed : s.pushed = []) {delivered : Option Delivered}
    (h : reader.turnFrom keyboard s esc = .ok (delivered, later)) :
    ∃ read queued, EscapeSequence (esc :: read) ∧ Takes s later read queued := by
  have hlength : s.pushed.length ≤ 1 := by
    rw [hpushed]
    exact Nat.zero_le _
  cases reader with
  | masked =>
    obtain ⟨input, h, -⟩ := deliver_ok h
    obtain ⟨key, h, -⟩ := deliver_ok (show deliver (readEscapeSequence keyboard s) _ = _ from h)
    obtain ⟨read, hsequence, hpending, hguards, hstack⟩ := readEscapeSequence_spec hs hlength h
    exact ⟨read, [], hsequence, ⟨_, hpending, rfl⟩, hguards, fun byte hbyte => (by cases hbyte),
      .inl ⟨rfl, by rw [hstack]; exact Nat.zero_le _⟩⟩
  | line options =>
    obtain ⟨input, h, -⟩ := deliver_ok h
    unfold editableTurn at h
    simp only [show esc ≠ cr by decide, show esc ≠ lf by decide, show esc ≠ del by decide,
      show esc ≠ bs by decide, show esc ≠ kill by decide, show esc ≠ tab by decide, if_false,
      false_and, or_self, if_true] at h
    split at h
    · split at h
      · rename_i after hread
        obtain ⟨-, rfl⟩ := Prod.mk.inj (Except.ok.inj h)
        exact ⟨[], [], .alone, takes_nothing hs hpushed hread⟩
      · rename_i peek after hread
        exact peekedTurn_spec hs hpushed hread h
    · exact escapeTurn_spec hs hlength h
  | key =>
    obtain ⟨key, h, -⟩ := deliver_ok h
    unfold keyTurn at h
    simp only [show esc ≠ cr by decide, show esc ≠ lf by decide, show esc ≠ del by decide, if_false,
      or_self, if_true] at h
    split at h
    · rename_i after hread
      obtain ⟨-, rfl⟩ := Prod.mk.inj (Except.ok.inj h)
      exact ⟨[], [], .alone, takes_nothing hs hpushed hread⟩
    · rename_i peek after hread
      exact peekedTurn_spec hs hpushed hread h
  | editor distinguishCtrlH pastedColor =>
    obtain ⟨key, h, -⟩ := deliver_ok h
    unfold editorTurn at h
    simp only [show esc ≠ cr by decide, show esc ≠ lf by decide, show esc ≠ del by decide,
      show esc ≠ bs by decide, show esc ≠ tab by decide, if_false, false_and, or_self,
      if_true] at h
    split at h
    · rename_i after hread
      obtain ⟨-, rfl⟩ := Prod.mk.inj (Except.ok.inj h)
      exact ⟨[], [], .alone, takes_nothing hs hpushed hread⟩
    · rename_i peek after hread
      split at h
      · rename_i hrub
        obtain ⟨-, rfl⟩ := Prod.mk.inj (Except.ok.inj h)
        obtain ⟨hpending, hguards, hstack⟩ := readByteWithTimeout_spec hs hread
        refine ⟨[peek], [], ?_, ⟨_, hpending, rfl⟩, hguards, fun byte hbyte => (by cases hbyte),
          .inl ⟨rfl, ?_⟩⟩
        · rcases hrub with rfl | rfl <;> exact .other _ (by decide) (by decide)
        · rw [hstack, hpushed]
          exact Nat.zero_le _
      · exact peekedTurn_spec hs hpushed hread h

def Tidy (s : Source) : Prop :=
  s.pushed.length ≤ 1 ∨ ∀ byte ∈ s.pushed, 0x20 ≤ byte ∧ byte < 0x7F

theorem byte_cases (byte : UInt8) :
    (byte < 0x20 ∨ byte = del) ∨ (0x20 ≤ byte ∧ byte < 0x7F) ∨ 0x80 ≤ byte := by
  rw [UInt8.lt_iff_toNat_lt, UInt8.le_iff_toNat_le, UInt8.lt_iff_toNat_lt, UInt8.le_iff_toNat_le,
    ← UInt8.toNat_inj]
  have hdel : del.toNat = 0x7F := rfl
  have h7F : (0x7F : UInt8).toNat = 0x7F := rfl
  have h80 : (0x80 : UInt8).toNat = 0x80 := rfl
  omega

theorem turnFrom_text (hlow : 0x20 ≤ byte) (hhigh : byte < 0x7F) :
    ∃ delivered, Piece keyboard reader [byte] [] delivered ∧
      reader.turnFrom keyboard s byte = .ok (delivered, s) := by
  by_cases hquestion : byte = 0x3F
  · subst hquestion
    obtain ⟨delivered, hturn⟩ := @turnFrom_question keyboard reader s
    exact ⟨_, .question delivered, hturn⟩
  · refine ⟨_, .text byte hlow hhigh hquestion, ?_⟩
    have hdel : byte ≠ del := fun hdel => by
      rw [hdel] at hhigh
      exact absurd hhigh (by decide)
    rw [turnFrom_typed hlow hdel hquestion]
    unfold readCharacter
    rw [if_pos (UInt8.lt_trans hhigh (by decide))]
    rfl

theorem turnFrom_spec (hs : s.guards = {}) (hpushed : s.pushed = []) {delivered : Option Delivered}
    (h : reader.turnFrom keyboard s byte = .ok (delivered, later)) :
    ∃ read queued, Piece keyboard reader (byte :: read) queued delivered ∧
      Takes s later read queued := by
  have hnone : ∀ byte ∈ ([] : List UInt8), 0x20 ≤ byte ∧ byte < 0x7F :=
    fun byte hbyte => (by cases hbyte)
  have hempty : s.pushed.length ≤ 1 := by
    rw [hpushed]
    exact Nat.zero_le _
  rcases byte_cases byte with hcontrol | ⟨hlow, hhigh⟩ | hhigh
  · by_cases hesc : byte = esc
    · subst hesc
      obtain ⟨read, queued, hsequence, htakes⟩ := turnFrom_esc hs hpushed h
      exact ⟨read, queued, .escape _ queued delivered hsequence htakes.printable, htakes⟩
    · by_cases hcr : byte = cr
      · subst hcr
        obtain ⟨known, halone | hended⟩ := @turnFrom_cr keyboard reader s
        · obtain ⟨rfl, rfl⟩ := Prod.mk.inj (Except.ok.inj (h.symm.trans halone))
          exact ⟨[], [], .lineEnding _ _ (.cr [] .none), ⟨_, rfl, rfl⟩, hs, hnone, .inl ⟨rfl, hempty⟩⟩
        · obtain ⟨rfl, rfl⟩ := Prod.mk.inj (Except.ok.inj (h.symm.trans hended))
          obtain ⟨tail, htail, hpending, hguards, hstack⟩ := consumeOptionalLfOrNul_spec hs hpushed
          exact ⟨tail, [], .lineEnding _ _ (.cr tail htail), ⟨_, hpending, rfl⟩, hguards, hnone,
            .inl ⟨rfl, hstack⟩⟩
      · obtain ⟨known, hknown⟩ :=
          @turnFrom_control keyboard reader s byte hcontrol hesc hcr
        obtain ⟨rfl, rfl⟩ := Prod.mk.inj (Except.ok.inj (h.symm.trans hknown))
        exact ⟨[], [], .control byte _ hcontrol hesc, ⟨_, rfl, rfl⟩, hs, hnone, .inl ⟨rfl, hempty⟩⟩
  · obtain ⟨known, hpiece, hknown⟩ := @turnFrom_text keyboard reader s byte hlow hhigh
    obtain ⟨rfl, rfl⟩ := Prod.mk.inj (Except.ok.inj (h.symm.trans hknown))
    exact ⟨[], [], hpiece, ⟨_, rfl, rfl⟩, hs, hnone, .inl ⟨rfl, hempty⟩⟩
  · have hdel : byte ≠ del := fun hdel => by
      rw [hdel] at hhigh
      exact absurd hhigh (by decide)
    have hquestion : byte ≠ 0x3F := fun hquestion => by
      rw [hquestion] at hhigh
      exact absurd hhigh (by decide)
    rw [turnFrom_typed (UInt8.le_trans (by decide) hhigh) hdel hquestion] at h
    obtain ⟨c, hread, rfl⟩ := deliver_ok h
    unfold readCharacter at hread
    rw [if_neg (UInt8.not_lt.mpr hhigh)] at hread
    obtain ⟨read, hpiece, hpending, hguards, hstack⟩ :=
      @readHighCharacter_spec s later keyboard reader byte hs hpushed hhigh c hread
    refine ⟨read, [], ?_, ⟨_, hpending, rfl⟩, hguards, hnone, .inl ⟨rfl, hstack⟩⟩
    cases c <;> exact hpiece

end Turns

section Guarded

variable {s later : Source}

def OneGuard (guards : Guards) : Prop := guards.word = none ∨ guards.enter = none

inductive MayDrop : Guards → Nat → List UInt8 → Prop where
  | nothing (guards : Guards) (now : Nat) : MayDrop guards now []
  | tail {deadline now : Nat} {bytes : List UInt8} : now ≤ deadline → LineTail bytes →
      MayDrop ⟨none, some (deadline, true)⟩ now bytes
  | enter {deadline now : Nat} {bytes : List UInt8} : now ≤ deadline → LineEnding bytes →
      MayDrop ⟨none, some (deadline, false)⟩ now bytes
  | word {deadline now : Nat} {letters bytes : List UInt8} : now ≤ deadline →
      (∀ byte ∈ letters, continuesWord byte = true) → (bytes = [] ∨ LineEnding bytes) →
      MayDrop ⟨some deadline, none⟩ now (letters ++ bytes)

theorem mayDrop_unguarded {now : Nat} {bytes : List UInt8} (h : MayDrop {} now bytes) :
    bytes = [] := by
  cases h
  rfl

theorem MayDrop.earlier {guards : Guards} {now before : Nat} {bytes : List UInt8}
    (h : MayDrop guards now bytes) (hle : before ≤ now) : MayDrop guards before bytes := by
  cases h with
  | nothing => exact .nothing guards before
  | tail htime htail => exact .tail (Nat.le_trans hle htime) htail
  | enter htime hline => exact .enter (Nat.le_trans hle htime) hline
  | word htime hletters hline => exact .word (Nat.le_trans hle htime) hletters hline

theorem mayDrop_tail {deadline now : Nat} {bytes : List UInt8}
    (h : MayDrop ⟨none, some (deadline, true)⟩ now bytes) : LineTail bytes := by
  cases h with
  | nothing => exact .none
  | tail _ htail => exact htail

theorem wordGuardDrops_word (deadline now : Nat) (byte : UInt8) :
    wordGuardDrops ⟨some deadline, none⟩ now byte =
      if deadline < now then (false, {})
      else if byte = cr then (true, ⟨none, some (now + lineEndTailPeriod, true)⟩)
      else if byte = lf then (true, {})
      else if continuesWord byte = true then (true, ⟨some (now + wordGuardPeriod), none⟩)
      else (false, {}) := rfl

theorem wordGuardDrops_tail (deadline now : Nat) (byte : UInt8) :
    wordGuardDrops ⟨none, some (deadline, true)⟩ now byte =
      if deadline < now then (false, {}) else (byte = lf || byte = nul, {}) := by
  unfold wordGuardDrops enterGuardDrops
  by_cases htime : deadline < now
  · simp [htime]
  · by_cases hlf : byte = lf
    · simp [htime, hlf]
    · by_cases hnul : byte = nul <;> simp [htime, hlf, hnul]

theorem wordGuardDrops_enter (deadline now : Nat) (byte : UInt8) :
    wordGuardDrops ⟨none, some (deadline, false)⟩ now byte =
      if deadline < now then (false, {})
      else if byte = cr then (true, ⟨none, some (now + lineEndTailPeriod, true)⟩)
      else (byte = lf, {}) := by
  unfold wordGuardDrops enterGuardDrops
  by_cases htime : deadline < now
  · simp [htime]
  · by_cases hcr : byte = cr
    · simp [htime, hcr]
    · have hne : lf ≠ cr := by decide
      by_cases hlf : byte = lf <;> simp [htime, hcr, hlf, hne]

theorem wordGuardDrops_true {guards after : Guards} {now : Nat} {byte : UInt8}
    (hone : OneGuard guards) (h : wordGuardDrops guards now byte = (true, after)) :
    OneGuard after ∧ ∀ bytes, MayDrop after now bytes → MayDrop guards now (byte :: bytes) := by
  obtain ⟨word, enter⟩ := guards
  cases enter with
  | none =>
    cases word with
    | none => cases h
    | some deadline =>
      rw [wordGuardDrops_word] at h
      split_ifs at h with htime hcr hlf hletter
      · cases h
      · obtain ⟨-, rfl⟩ := Prod.mk.inj h
        refine ⟨.inl rfl, ?_⟩
        intro bytes hbytes
        rw [hcr]
        exact @MayDrop.word _ _ [] _ (Nat.not_lt.mp htime) (fun byte hbyte => (by cases hbyte))
          (.inr (.cr bytes (mayDrop_tail hbytes)))
      · obtain ⟨-, rfl⟩ := Prod.mk.inj h
        refine ⟨.inl rfl, ?_⟩
        intro bytes hbytes
        rw [hlf, mayDrop_unguarded hbytes]
        exact @MayDrop.word _ _ [] _ (Nat.not_lt.mp htime) (fun byte hbyte => (by cases hbyte))
          (.inr .lf)
      · obtain ⟨-, rfl⟩ := Prod.mk.inj h
        refine ⟨.inr rfl, ?_⟩
        intro bytes hbytes
        cases hbytes with
        | nothing =>
          refine @MayDrop.word _ _ [byte] [] (Nat.not_lt.mp htime) ?_ (.inl rfl)
          intro other hother
          rw [mem_singleton.mp hother]
          exact hletter
        | @word _ _ letters line _ hletters hline =>
          refine @MayDrop.word _ _ (byte :: letters) line (Nat.not_lt.mp htime) ?_ hline
          intro other hother
          rcases mem_cons.mp hother with rfl | hother
          · exact hletter
          · exact hletters other hother
      · cases h
  | some armed =>
    obtain rfl : word = none := hone.resolve_right (fun hnone => by cases hnone)
    obtain ⟨deadline, tailOnly⟩ := armed
    cases tailOnly with
    | true =>
      rw [wordGuardDrops_tail] at h
      split_ifs at h with htime
      · cases h
      · obtain ⟨hbyte, rfl⟩ := Prod.mk.inj h
        refine ⟨.inl rfl, ?_⟩
        intro bytes hbytes
        rw [mayDrop_unguarded hbytes]
        apply MayDrop.tail (Nat.not_lt.mp htime)
        rcases Bool.or_eq_true_iff.mp hbyte with hlf | hnul
        · rw [of_decide_eq_true hlf]
          exact .lf
        · rw [of_decide_eq_true hnul]
          exact .nul
    | false =>
      rw [wordGuardDrops_enter] at h
      split_ifs at h with htime hcr
      · cases h
      · obtain ⟨-, rfl⟩ := Prod.mk.inj h
        refine ⟨.inl rfl, ?_⟩
        intro bytes hbytes
        rw [hcr]
        exact .enter (Nat.not_lt.mp htime) (.cr bytes (mayDrop_tail hbytes))
      · obtain ⟨hlf, rfl⟩ := Prod.mk.inj h
        refine ⟨.inl rfl, ?_⟩
        intro bytes hbytes
        rw [of_decide_eq_true hlf, mayDrop_unguarded hbytes]
        exact .enter (Nat.not_lt.mp htime) .lf

theorem wordGuardDrops_false {guards after : Guards} {now : Nat} {byte : UInt8}
    (hone : OneGuard guards) (h : wordGuardDrops guards now byte = (false, after)) :
    after = {} := by
  obtain ⟨word, enter⟩ := guards
  cases enter with
  | none =>
    cases word with
    | none => exact (Prod.mk.inj h).2.symm
    | some deadline =>
      rw [wordGuardDrops_word] at h
      split_ifs at h <;> first | exact (Prod.mk.inj h).2.symm | cases h
  | some armed =>
    obtain rfl : word = none := hone.resolve_right (fun hnone => by cases hnone)
    obtain ⟨deadline, tailOnly⟩ := armed
    cases tailOnly with
    | true =>
      rw [wordGuardDrops_tail] at h
      split_ifs at h <;> exact (Prod.mk.inj h).2.symm
    | false =>
      rw [wordGuardDrops_enter] at h
      split_ifs at h <;> first | exact (Prod.mk.inj h).2.symm | cases h

theorem next_tidy (htidy : Tidy s) {byte : Option UInt8} (h : s.next = .ok (byte, later)) :
    Tidy later ∧ (later.pushed = [] ∨ ∃ code, byte = some code ∧ 0x20 ≤ code ∧ code < 0x7F) := by
  obtain ⟨-, -, hstack, -⟩ := next_spec h
  unfold Tidy
  rw [hstack]
  rcases htidy with hlength | hprintable
  · have hnil : s.pushed.tail = [] := by
      apply eq_nil_of_length_eq_zero
      rw [length_tail]
      omega
    rw [hnil]
    exact ⟨.inl (Nat.zero_le _), .inl rfl⟩
  · refine ⟨.inr fun code hcode => hprintable code (mem_of_mem_tail hcode), ?_⟩
    unfold Source.next at h
    cases hpushed : s.pushed with
    | nil => exact .inl rfl
    | cons code rest =>
      rw [hpushed] at h
      obtain ⟨rfl, -⟩ := Prod.mk.inj (Except.ok.inj h)
      exact .inr ⟨code, rfl, hprintable code (by rw [hpushed]; exact mem_cons_self)⟩

theorem readByte_other {result : Except SessionClosed (Option UInt8 × Source)}
    (hnext : s.next = result) (hresult : ∀ byte after, result ≠ .ok (some byte, after)) :
    s.readByte = result := by
  rw [Source.readByte]
  split
  · rename_i e h
    exact h.symm.trans hnext
  · rename_i h
    exact h.symm.trans hnext
  · rename_i h
    exact absurd (hnext.symm.trans h) (hresult _ _)

theorem readByte_dropped {byte : UInt8} {guards : Guards} (hnext : s.next = .ok (some byte, later))
    (hdrops : wordGuardDrops later.guards later.now byte = (true, guards)) :
    s.readByte = { later with guards }.readByte := by
  rw [Source.readByte]
  split
  · rename_i e h
    rw [hnext] at h
    cases h
  · rename_i h
    rw [hnext] at h
    cases h
  · rename_i h
    rw [hnext] at h
    obtain ⟨hbyte, rfl⟩ := Prod.mk.inj (Except.ok.inj h)
    obtain rfl := Option.some.inj hbyte
    rw [hdrops, if_pos rfl]

theorem readByte_delivered {byte : UInt8} {guards : Guards}
    (hnext : s.next = .ok (some byte, later))
    (hdrops : wordGuardDrops later.guards later.now byte = (false, guards)) :
    s.readByte = .ok (some byte, { later with guards }) := by
  rw [Source.readByte]
  split
  · rename_i e h
    rw [hnext] at h
    cases h
  · rename_i h
    rw [hnext] at h
    cases h
  · rename_i h
    rw [hnext] at h
    obtain ⟨hbyte, rfl⟩ := Prod.mk.inj (Except.ok.inj h)
    obtain rfl := Option.some.inj hbyte
    rw [hdrops, if_neg Bool.false_ne_true]

theorem readByte_spec {s later : Source} {byte : Option UInt8} (hone : OneGuard s.guards)
    (htidy : Tidy s) (h : s.readByte = .ok (byte, later)) :
    ∃ dropped, s.pending = dropped ++ (byte.toList ++ later.pending) ∧ Tidy later ∧
      (byte = none → OneGuard later.guards ∧
        ∀ more, MayDrop later.guards later.now more → MayDrop s.guards s.now (dropped ++ more)) ∧
      (∀ code, byte = some code → later.guards = {} ∧ MayDrop s.guards s.now dropped ∧
        (later.pushed = [] ∨ 0x20 ≤ code ∧ code < 0x7F)) := by
  cases hnext : s.next with
  | error e =>
    rw [readByte_other hnext fun byte after hsome => (by cases hsome)] at h
    cases h
  | ok read =>
    obtain ⟨read, after⟩ := read
    obtain ⟨hpending, hguards, -, htime⟩ := next_spec hnext
    obtain ⟨htidy', hcode⟩ := next_tidy htidy hnext
    have hone' : OneGuard after.guards := by
      rw [hguards]
      exact hone
    cases read with
    | none =>
      rw [readByte_other hnext fun byte after hsome => (by cases hsome)] at h
      obtain ⟨rfl, rfl⟩ := Prod.mk.inj (Except.ok.inj h)
      refine ⟨[], hpending, htidy', ?_, fun code hcode => (by cases hcode)⟩
      intro _
      rw [hguards]
      exact ⟨hone, fun more hmore => hmore.earlier htime⟩
    | some read =>
      cases hdrops : wordGuardDrops after.guards after.now read with
      | mk drops guards =>
        cases drops with
        | true =>
          rw [readByte_dropped hnext hdrops] at h
          obtain ⟨hkept, hmay⟩ := wordGuardDrops_true hone' hdrops
          have hsize : { after with guards }.size < s.size := by
            show after.size < s.size
            exact Source.next_size hnext
          obtain ⟨dropped, hrest, htidy'', hnone, hsome⟩ :=
            @readByte_spec { after with guards } later byte hkept htidy' h
          have hmore {more : List UInt8} (hmore : MayDrop guards after.now more) :
              MayDrop s.guards s.now (read :: more) := by
            rw [← hguards]
            exact (hmay more hmore).earlier htime
          refine ⟨read :: dropped, ?_, htidy'', ?_, ?_⟩
          · rw [hpending]
            exact congrArg (read :: ·) hrest
          · intro hbyte
            exact ⟨(hnone hbyte).1, fun more hlater => hmore ((hnone hbyte).2 more hlater)⟩
          · intro code hcode
            obtain ⟨hended, hdropped, hprintable⟩ := hsome code hcode
            exact ⟨hended, hmore hdropped, hprintable⟩
        | false =>
          rw [readByte_delivered hnext hdrops] at h
          obtain ⟨rfl, rfl⟩ := Prod.mk.inj (Except.ok.inj h)
          refine ⟨[], hpending, htidy', fun hnone => (by cases hnone), ?_⟩
          intro code hsame
          obtain rfl := Option.some.inj hsame
          refine ⟨wordGuardDrops_false hone' hdrops, .nothing _ _, ?_⟩
          rcases hcode with hnil | ⟨known, hknown, hprintable⟩
          · exact .inl hnil
          · obtain rfl := Option.some.inj hknown
            exact .inr hprintable
termination_by s.size

theorem turn_spec {keyboard : Keyboard} {reader : Reader} (hone : OneGuard s.guards)
    (htidy : Tidy s) {delivered : Option Delivered}
    (h : reader.turn keyboard s = .ok (delivered, later)) :
    Tidy later ∧ ∃ dropped,
      (delivered = none ∧ s.pending = dropped ++ later.pending ∧ OneGuard later.guards ∧
        (∀ more, MayDrop later.guards later.now more →
          MayDrop s.guards s.now (dropped ++ more))) ∨
      (later.guards = {} ∧ MayDrop s.guards s.now dropped ∧ ∃ bytes queued rest,
        Piece keyboard reader bytes queued delivered ∧ s.pending = dropped ++ (bytes ++ rest) ∧
          later.pending = queued ++ rest ∧ (queued = [] ∨ later.pushed = queued)) := by
  unfold Reader.turn at h
  split at h
  · cases h
  · rename_i after hread
    obtain ⟨rfl, rfl⟩ := Prod.mk.inj (Except.ok.inj h)
    obtain ⟨dropped, hpending, htidy', hnone, -⟩ := readByte_spec hone htidy hread
    obtain ⟨hone', hmore⟩ := hnone rfl
    exact ⟨htidy', dropped, .inl ⟨rfl, hpending, hone', hmore⟩⟩
  · rename_i byte after hread
    obtain ⟨dropped, hpending, htidy', -, hsome⟩ := readByte_spec hone htidy hread
    obtain ⟨hended, hdropped, hnext⟩ := hsome byte rfl
    rcases hnext with hnil | ⟨hlow, hhigh⟩
    · obtain ⟨read, queued, hpiece, htakes⟩ := turnFrom_spec hended hnil h
      obtain ⟨rest, hread, hrest⟩ := htakes.read
      constructor
      · rcases htakes.stack with ⟨-, hlength⟩ | hqueued
        · exact .inl hlength
        · exact .inr (by rw [hqueued]; exact htakes.printable)
      · refine ⟨dropped, .inr ⟨htakes.unguarded, hdropped, byte :: read, queued, rest, hpiece, ?_,
          hrest, ?_⟩⟩
        · rw [hpending, hread]
          rfl
        · exact htakes.stack.imp And.left id
    · obtain ⟨known, hpiece, hknown⟩ := @turnFrom_text keyboard reader after byte hlow hhigh
      obtain ⟨rfl, rfl⟩ := Prod.mk.inj (Except.ok.inj (h.symm.trans hknown))
      exact ⟨htidy', dropped, .inr ⟨hended, hdropped, [byte], [], _, hpiece, hpending, rfl,
        .inl rfl⟩⟩

theorem turns_partition {keyboard : Keyboard} {readers : List Reader}
    {delivered : List (Option Delivered)} (hone : OneGuard s.guards) (htidy : Tidy s)
    (h : turns keyboard s readers = .ok (delivered, later)) :
    Tidy later ∧ ∃ dropped rest, s.pending = dropped ++ rest ∧ MayDrop s.guards s.now dropped ∧
      Partition keyboard readers delivered rest later.pending := by
  induction readers generalizing s delivered with
  | nil =>
    obtain ⟨rfl, rfl⟩ := Prod.mk.inj (Except.ok.inj h)
    exact ⟨htidy, [], _, rfl, .nothing _ _, .nil _⟩
  | cons reader readers ih =>
    unfold turns at h
    cases hturn : reader.turn keyboard s with
    | error e =>
      rw [hturn] at h
      cases h
    | ok turn =>
      obtain ⟨first, after⟩ := turn
      obtain ⟨htidy', dropped, hcases⟩ := turn_spec hone htidy hturn
      rw [hturn] at h
      cases hothers : turns keyboard after readers with
      | error e =>
        simp only [hothers] at h
        cases h
      | ok others =>
        simp only [hothers] at h
        obtain ⟨rfl, rfl⟩ := Prod.mk.inj (Except.ok.inj h)
        rcases hcases with ⟨rfl, hpending, hone', hmore⟩ |
            ⟨hended, hdropped, bytes, queued, rest, hpiece, hpending, hrest, -⟩
        · obtain ⟨hlast, more, input, hinput, hmay, hpartition⟩ := ih hone' htidy' hothers
          refine ⟨hlast, dropped ++ more, input, ?_, hmore more hmay, .action reader hpartition⟩
          rw [hpending, hinput, append_assoc]
        · obtain ⟨hlast, more, input, hinput, hmay, hpartition⟩ :=
            ih (.inl (by rw [hended])) htidy' hothers
          rw [hended] at hmay
          rw [mayDrop_unguarded hmay, nil_append, hrest] at hinput
          refine ⟨hlast, dropped, bytes ++ rest, hpending, hdropped, .piece hpiece ?_⟩
          rw [hinput]
          exact hpartition

end Guarded

section TypedText

variable {s : Source} {keyboard : Keyboard}

theorem readContinuation_all {raw extra rest : List UInt8} (hs : s.guards = {}) (honly : OnlyBytes s)
    (hextra : ∀ byte ∈ extra, isContinuation byte = true) (hpending : s.pending = extra ++ rest) :
    ∃ later, readContinuation raw extra.length s = .ok (decodeCharacter (raw ++ extra), later) ∧
      later.pending = rest := by
  induction extra generalizing raw s with
  | nil => exact ⟨s, by rw [append_nil]; rfl, hpending⟩
  | cons byte extra ih =>
    obtain ⟨after, hnext, hafter, honly', hguards⟩ := next_onlyBytes honly hpending
    obtain ⟨later, hread, hrest⟩ := @ih after (raw ++ [byte]) (hguards.trans hs) honly'
      (fun other hother => hextra other (mem_cons_of_mem byte hother)) hafter
    refine ⟨later, ?_, hrest⟩
    rw [append_assoc] at hread
    show readContinuation raw (extra.length + 1) s = _
    unfold readContinuation
    rw [readByte_unguarded hs, hnext]
    simp only
    rw [if_pos (hextra byte (.head _))]
    exact hread

theorem turn_character {reader : Reader} {c : Char} {rest : List UInt8} (hs : s.guards = {})
    (honly : OnlyBytes s) (hutf8 : keyboard.cp437 = none) (hprintable : 0x20 ≤ c.toNat)
    (hdel : c.toNat ≠ 0x7F) (hquestion : c ≠ '?')
    (hpending : s.pending = String.utf8EncodeChar c ++ rest) :
    ∃ later, reader.turn keyboard s = .ok (some (reader.typed c), later) ∧
      later.pending = rest := by
  by_cases hhigh : 0x80 ≤ c.toNat
  · obtain ⟨lead, extra, hencoded, hlead, hextra, hall⟩ := utf8EncodeChar_high hhigh
    rw [hencoded] at hpending
    obtain ⟨after, hnext, hafter, honly', hguards⟩ := next_onlyBytes honly hpending
    obtain ⟨later, hread, hrest⟩ :=
      @readContinuation_all after [lead] extra rest (hguards.trans hs) honly' hall hafter
    have hdecoded : decodeCharacter ([lead] ++ extra) = some c := decodeCharacter_iff.mpr hencoded
    have hdel : lead ≠ del := fun hdel => by
      rw [hdel] at hlead
      exact absurd hlead (by decide)
    have hlead' : lead ≠ 0x3F := fun hlead' => by
      rw [hlead'] at hlead
      exact absurd hlead (by decide)
    refine ⟨later, ?_, hrest⟩
    unfold Reader.turn
    rw [readByte_unguarded hs, hnext]
    simp only
    rw [turnFrom_typed (UInt8.le_trans (by decide) hlead) hdel hlead']
    unfold readCharacter readHighCharacter
    rw [if_neg (UInt8.not_lt.mpr hlead), hutf8, hextra]
    simp only
    rw [hread, hdecoded]
    rfl
  · have hascii : c.toNat < 0x80 := by omega
    rw [utf8EncodeChar_ascii hascii] at hpending
    obtain ⟨after, hnext, hafter, -, -⟩ := next_onlyBytes honly hpending
    have hsize : c.toNat < UInt8.size := Nat.lt_trans hascii (by decide)
    have hbyte : (UInt8.ofNat c.toNat).toNat = c.toNat := UInt8.toNat_ofNat_of_lt' hsize
    have hchar : Char.ofNat (UInt8.ofNat c.toNat).toNat = c := by rw [hbyte, Char.ofNat_toNat]
    have hlow : 0x20 ≤ UInt8.ofNat c.toNat :=
      (le_ofNat (l := 0x20) (by omega) (by omega)).mpr hprintable
    have hne : UInt8.ofNat c.toNat ≠ del := fun hsame =>
      hdel (hbyte.symm.trans (congrArg UInt8.toNat hsame))
    have hne' : UInt8.ofNat c.toNat ≠ 0x3F := fun hsame =>
      hquestion (by rw [← hchar, hsame]; rfl)
    refine ⟨after, ?_, hafter⟩
    unfold Reader.turn
    rw [readByte_unguarded hs, hnext]
    simp only
    rw [turnFrom_typed hlow hne hne']
    unfold readCharacter
    have hlt : UInt8.ofNat c.toNat < 0x80 := by
      rw [UInt8.lt_iff_toNat_lt, hbyte]
      exact hascii
    rw [if_pos hlt, hchar]
    rfl

end TypedText

end NetBBS.Net
