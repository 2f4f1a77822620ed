import NetBBS.Ftn.MessageDecoding
import NetBBS.Ftn.MessageEncoding

/-! # Lists of nets and nodes read back -/

namespace NetBBS

open Foundation List Text

variable {lib : TextLibrary}

/-- `int` reads the decimal digits. -/
def ReadsDigits (lib : TextLibrary) : Prop :=
  ∀ c : Char, c.isDigit = true → lib.decimal c = some (c.toNat - 48)

variable {n width : Nat} {c sep : Char}

theorem isDigit_of_mem_numberText (h : c ∈ numberText n) : c.isDigit = true :=
  Nat.isDigit_of_mem_toDigits (by omega) (by omega) h

theorem numberText_ne_nil (n : Nat) : numberText n ≠ [] := Nat.toDigits_ne_nil

private theorem digit_facts (h : c.isDigit = true) :
    Text.isSpace c = false ∧ c ≠ ':' ∧ c ≠ '.' ∧ c ≠ '@' ∧ c ≠ '/' := by
  have hcode : 48 ≤ c.toNat ∧ c.toNat ≤ 57 := by
    simpa [Char.isDigit, UInt32.le_iff_toNat_le] using h
  refine ⟨?_, ?_, ?_, ?_, ?_⟩
  · unfold Text.isSpace
    simp
    omega
  all_goals
    rintro rfl
    exact absurd hcode (by decide)

private theorem intOfDigits_numberText (hlib : ReadsDigits lib) (h : n ≤ 0xFFFF) :
    intOfDigits lib (numberText n) = .ok n := by
  have hlength : (numberText n).length ≤ 5 :=
    (Nat.length_toDigits_le_iff (by omega) (by omega)).mpr (by omega)
  have hmap : ∀ text : Text, (∀ c ∈ text, c.isDigit = true) →
      text.mapM lib.decimal = some (text.map fun c => c.toNat - 48) := by
    intro text htext
    induction text with
    | nil => rfl
    | cons c rest ih =>
      obtain ⟨hc, hrest⟩ := forall_mem_cons.mp htext
      rw [mapM_cons, hlib c hc, ih hrest]
      rfl
  have hvalue : ((numberText n).map fun c => c.toNat - 48).foldl
      (fun n digit => 10 * n + digit) 0 = n := by
    rw [foldl_map]
    exact Nat.ofDigitChars_ten_toDigits
  unfold intOfDigits
  rw [refuseIf_neg (by unfold maxIntDigits; omega), ok_bind,
    hmap _ fun c hc => isDigit_of_mem_numberText hc, orRefuse_some, ok_bind, hvalue]
  rfl

private theorem isDigitText_numberText (hlib : ReadsDigits lib) (n : Nat) :
    isDigitText lib (numberText n) = true := by
  unfold isDigitText
  rw [Bool.and_eq_true, all_eq_true]
  refine ⟨by simpa using numberText_ne_nil n, fun c hc => lib.isDigit_of_decimal c ?_⟩
  rw [hlib c (isDigit_of_mem_numberText hc)]
  rfl

private theorem before_eq_self {text : Text} (h : sep ∉ text) : before sep text = text :=
  takeWhile_eq_self_iff.mpr fun c hc => by
    simpa using fun heq : c = sep => h (heq ▸ hc)

private theorem netNodeToken_eq_self {token : Text} (hcolon : ':' ∉ token) (hpoint : '.' ∉ token)
    (hdomain : '@' ∉ token) : netNodeToken token = token := by
  unfold netNodeToken
  simp only [if_neg hcolon, before_eq_self hpoint, before_eq_self hdomain]

private theorem not_mem_numberText (h : sep.isDigit = false) (n : Nat) : sep ∉ numberText n := by
  intro hmem
  rw [isDigit_of_mem_numberText hmem] at h
  exact absurd h (by simp)

private theorem not_mem_netNodeText (h : sep.isDigit = false) (hslash : sep ≠ '/')
    (net node : Nat) : sep ∉ netNodeText net node := by
  unfold netNodeText
  rw [mem_append, mem_cons]
  rintro (hmem | heq | hmem)
  · exact not_mem_numberText h net hmem
  · exact hslash heq
  · exact not_mem_numberText h node hmem

private theorem netNodeToken_netNodeText (net node : Nat) :
    netNodeToken (netNodeText net node) = netNodeText net node :=
  netNodeToken_eq_self (not_mem_netNodeText (by decide) (by decide) net node)
    (not_mem_netNodeText (by decide) (by decide) net node)
    (not_mem_netNodeText (by decide) (by decide) net node)

private theorem netNodeToken_numberText (node : Nat) :
    netNodeToken (numberText node) = numberText node :=
  netNodeToken_eq_self (not_mem_numberText (by decide) node) (not_mem_numberText (by decide) node)
    (not_mem_numberText (by decide) node)

private theorem before_slash (net node : Nat) :
    before '/' (netNodeText net node) = numberText net := by
  unfold before netNodeText
  rw [takeWhile_append_of_pos]
  · simp
  · intro c hc
    simpa using (digit_facts (isDigit_of_mem_numberText hc)).2.2.2.2

private theorem after_slash (net node : Nat) :
    Text.after '/' (netNodeText net node) = numberText node := by
  unfold Text.after netNodeText
  rw [dropWhile_append_of_pos]
  · simp
  · intro c hc
    simpa using (digit_facts (isDigit_of_mem_numberText hc)).2.2.2.2

private theorem isPairToken_netNodeText (hlib : ReadsDigits lib) (net node : Nat) :
    IsPairToken lib (netNodeText net node) := by
  unfold IsPairToken
  rw [netNodeToken_netNodeText, before_slash, after_slash]
  exact ⟨by simp [netNodeText], isDigitText_numberText hlib net, isDigitText_numberText hlib node⟩

private theorem isBareToken_numberText (hlib : ReadsDigits lib) (node : Nat) :
    IsBareToken lib (numberText node) := by
  unfold IsBareToken
  rw [netNodeToken_numberText]
  exact ⟨not_mem_numberText (by decide) node, isDigitText_numberText hlib node⟩

private theorem isWord_numberText (n : Nat) : Text.IsWord (numberText n) :=
  ⟨numberText_ne_nil n, fun _ hc => (digit_facts (isDigit_of_mem_numberText hc)).1⟩

private theorem isWord_netNodeText (net node : Nat) : Text.IsWord (netNodeText net node) := by
  refine ⟨by simp [netNodeText], fun c hc => ?_⟩
  unfold netNodeText at hc
  rw [mem_append, mem_cons] at hc
  rcases hc with hc | rfl | hc
  · exact (isWord_numberText net).2 c hc
  · decide
  · exact (isWord_numberText node).2 c hc

def InRange (entry : Nat × Nat) : Prop := entry.1 ≤ 0xFFFF ∧ entry.2 ≤ 0xFFFF

inductive Spelled : Option Nat → List Text → List (Nat × Nat) → Option Nat → Prop where
  | nil (net : Option Nat) : Spelled net [] [] net
  | full {held last : Option Nat} {tokens : List Text} {entries : List (Nat × Nat)} (net node : Nat)
      (rest : Spelled (some net) tokens entries last) :
      Spelled held (netNodeText net node :: tokens) ((net, node) :: entries) last
  | bare {last : Option Nat} {tokens : List Text} {entries : List (Nat × Nat)} (net node : Nat)
      (rest : Spelled (some net) tokens entries last) :
      Spelled (some net) (numberText node :: tokens) ((net, node) :: entries) last

namespace Spelled

variable {held last : Option Nat} {tokens : List Text} {entries : List (Nat × Nat)}

theorem snoc_full (h : Spelled held tokens entries last) (net node : Nat) :
    Spelled held (tokens ++ [netNodeText net node]) (entries ++ [(net, node)]) (some net) := by
  induction h with
  | nil held => exact .full net node (.nil _)
  | full first second rest ih => exact .full first second ih
  | bare first second rest ih => exact .bare first second ih

theorem snoc_bare {net : Nat} (h : Spelled held tokens entries (some net)) (node : Nat) :
    Spelled held (tokens ++ [numberText node]) (entries ++ [(net, node)]) (some net) := by
  generalize hlast : some net = last at h
  induction h with
  | nil held =>
    subst hlast
    exact .bare net node (.nil _)
  | full first second rest ih => exact .full first second (ih hlast)
  | bare first second rest ih => exact .bare first second (ih hlast)

theorem isWord (h : Spelled held tokens entries last) : ∀ token ∈ tokens, Text.IsWord token := by
  induction h with
  | nil => exact fun token hmem => absurd hmem not_mem_nil
  | full net node rest ih => exact forall_mem_cons.mpr ⟨isWord_netNodeText net node, ih⟩
  | bare net node rest ih => exact forall_mem_cons.mpr ⟨isWord_numberText node, ih⟩

theorem parse (hlib : ReadsDigits lib) (h : Spelled held tokens entries last)
    (hrange : ∀ entry ∈ entries, InRange entry) : parseTokens lib held tokens = .ok entries := by
  induction h with
  | nil => rfl
  | full net node rest ih =>
    obtain ⟨⟨hnet, hnode⟩, hrest⟩ := forall_mem_cons.mp hrange
    rw [parseTokens_pair _ _ (isPairToken_netNodeText hlib net node), netNodeToken_netNodeText,
      before_slash, after_slash, intOfDigits_numberText hlib hnet, ok_bind,
      intOfDigits_numberText hlib hnode, ok_bind, ih hrest, ok_bind]
    unfold keepNetNode
    rw [if_pos ⟨hnet, hnode⟩]
    rfl
  | bare net node rest ih =>
    obtain ⟨⟨hnet, hnode⟩, hrest⟩ := forall_mem_cons.mp hrange
    rw [parseTokens_bare _ _ (isBareToken_numberText hlib node), netNodeToken_numberText,
      intOfDigits_numberText hlib hnode, ok_bind, ih hrest, ok_bind]
    unfold keepNetNode
    rw [if_pos ⟨hnet, hnode⟩]
    rfl

end Spelled

def SpelledLine (start line : Text) (entries : List (Nat × Nat)) : Prop :=
  ∃ tokens last, tokens ≠ [] ∧ Spelled none tokens entries last ∧
    line = start ++ join ' ' tokens

private theorem join_ne_nil {tokens : List Text} (h : ∀ token ∈ tokens, Text.IsWord token)
    (hne : tokens ≠ []) : join ' ' tokens ≠ [] := by
  cases tokens with
  | nil => exact absurd rfl hne
  | cons token rest =>
    have htoken := (h token (.head _)).1
    cases rest with
    | nil => simpa [join] using htoken
    | cons next rest =>
      rw [join_cons token (by simp)]
      simp

private theorem fillLines_spelled (start : Text) (width : Nat) {tokens : List Text}
    {done : List (Nat × Nat)} {net : Nat} (rest : List (Nat × Nat)) (hne : tokens ≠ [])
    (h : Spelled none tokens done (some net)) :
    ∃ parts, List.Forall₂ (SpelledLine start)
        (fillLines start width (join ' ' tokens) (some net) rest) parts ∧
      parts.flatten = done ++ rest := by
  induction rest generalizing tokens done net with
  | nil =>
    unfold fillLines
    rw [if_neg (join_ne_nil h.isWord hne)]
    exact ⟨[done], .cons ⟨tokens, some net, hne, h, rfl⟩ .nil, by simp⟩
  | cons entry rest ih =>
    obtain ⟨entryNet, entryNode⟩ := entry
    have hline := join_ne_nil h.isWord hne
    have hjoin : join ' ' [netNodeText entryNet entryNode] =
        netNodeText entryNet entryNode := by simp [join]
    have hfull : Spelled none [netNodeText entryNet entryNode] [(entryNet, entryNode)]
        (some entryNet) := .full entryNet entryNode (.nil _)
    have hgrown : Spelled none (tokens ++ [if some net = some entryNet ∧ join ' ' tokens ≠ []
        then numberText entryNode else netNodeText entryNet entryNode])
        (done ++ [(entryNet, entryNode)]) (some entryNet) := by
      split
      · rename_i hsame
        obtain rfl : net = entryNet := Option.some.inj hsame.1
        exact h.snoc_bare entryNode
      · exact h.snoc_full entryNet entryNode
    unfold fillLines
    simp only
    generalize (if some net = some entryNet ∧ join ' ' tokens ≠ [] then numberText entryNode
      else netNodeText entryNet entryNode) = bare at hgrown
    rw [if_neg hline, ← join_snoc bare hne]
    split
    · -- The line is full: it goes out, and the next one starts with the net.
      obtain ⟨parts, hparts, hflat⟩ := ih (by simp) hfull
      rw [hjoin] at hparts
      exact ⟨done :: parts, .cons ⟨tokens, some net, hne, h, rfl⟩ hparts, by simp [hflat]⟩
    · obtain ⟨parts, hparts, hflat⟩ := ih (by simp) hgrown
      exact ⟨parts, hparts, by simpa using hflat⟩

private theorem fillLines_width {start : Text} {line : Text} {net : Option Nat}
    {entries : List (Nat × Nat)} (hline : start.length + line.length ≤ width)
    (hfits : ∀ entry ∈ entries, start.length + (netNodeText entry.1 entry.2).length ≤ width) :
    ∀ written ∈ fillLines start width line net entries, written.length ≤ width := by
  induction entries generalizing line net with
  | nil =>
    intro written hwritten
    unfold fillLines at hwritten
    split at hwritten
    · cases hwritten
    · rw [mem_singleton.mp hwritten, length_append]
      exact hline
  | cons entry rest ih =>
    obtain ⟨entryNet, entryNode⟩ := entry
    obtain ⟨hfull, hrest⟩ := forall_mem_cons.mp hfits
    have hbare : start.length + (if net = some entryNet ∧ line ≠ [] then numberText entryNode
        else netNodeText entryNet entryNode).length ≤ width := by
      split
      · simp only [netNodeText, length_append, length_cons] at hfull
        omega
      · exact hfull
    unfold fillLines
    simp only
    generalize (if net = some entryNet ∧ line ≠ [] then numberText entryNode
      else netNodeText entryNet entryNode) = bare at hbare
    split
    · intro written hwritten
      rcases mem_cons.mp hwritten with rfl | hlater
      · rw [length_append]
        exact hline
      · exact ih hfull hrest written hlater
    · rename_i hroom
      apply ih _ hrest
      split
      · exact hbare
      · rename_i hne
        have hlength := Nat.le_of_not_lt fun hover => hroom ⟨hne, hover⟩
        simp only [length_append, length_cons]
        omega

theorem formatNetNodeLines_spelled (start : String) (entries : List (Nat × Nat)) (width : Nat) :
    ∃ parts, List.Forall₂ (SpelledLine start.toList) (formatNetNodeLines start entries width)
        parts ∧ parts.flatten = entries := by
  unfold formatNetNodeLines
  cases entries with
  | nil => exact ⟨[], .nil, rfl⟩
  | cons entry rest =>
    obtain ⟨net, node⟩ := entry
    have hfull : Spelled none [netNodeText net node] [(net, node)] (some net) :=
      .full net node (.nil _)
    obtain ⟨parts, hparts, hflat⟩ := fillLines_spelled start.toList width rest (by simp) hfull
    have hjoin : join ' ' [netNodeText net node] = netNodeText net node := by simp [join]
    rw [hjoin] at hparts
    refine ⟨parts, ?_, by simpa using hflat⟩
    unfold fillLines
    simpa using hparts

namespace SpelledLine

variable {start line : Text} {entries : List (Nat × Nat)}

theorem parse (hlib : ReadsDigits lib) (h : SpelledLine start line entries)
    (hrange : ∀ entry ∈ entries, InRange entry) :
    parseNetNodes lib (line.drop start.length) = .ok entries ∧
      parseNetNodes lib (' ' :: line.drop start.length) = .ok entries := by
  obtain ⟨tokens, last, -, hspelled, rfl⟩ := h
  rw [drop_left]
  have hsplit := split_join hspelled.isWord
  unfold parseNetNodes
  rw [split_cons_space, hsplit]
  exact ⟨hspelled.parse hlib hrange, hspelled.parse hlib hrange⟩

section

variable (h : SpelledLine start line entries)

include h

theorem not_mem {c : Char} (hstart : c ∉ start)
    (hspace : Text.isSpace c = true) (hblank : c ≠ ' ') : c ∉ line := by
  obtain ⟨tokens, last, -, hspelled, rfl⟩ := h
  rw [mem_append]
  rintro (hmem | hmem)
  · exact hstart hmem
  · rcases mem_join hmem with heq | ⟨word, hword, hmem⟩
    · exact hblank heq
    · have hword := (hspelled.isWord word hword).2 c hmem
      rw [hspace] at hword
      exact absurd hword (by simp)

theorem first : ∃ entry ∈ entries, ∃ others,
      split (line.drop start.length) = netNodeText entry.1 entry.2 :: others := by
  obtain ⟨tokens, last, hne, hspelled, rfl⟩ := h
  rw [drop_left, split_join hspelled.isWord]
  cases hspelled with
  | nil => exact absurd rfl hne
  | full net node rest => exact ⟨(net, node), .head _, _, rfl⟩

theorem start_prefix : start <+: line := by
  obtain ⟨tokens, last, -, -, rfl⟩ := h
  exact prefix_append _ _

end

end SpelledLine

theorem parse_spelled (hlib : ReadsDigits lib) {start : Text} {lines : List Text}
    {parts : List (List (Nat × Nat))} (h : List.Forall₂ (SpelledLine start) lines parts)
    (hrange : ∀ part ∈ parts, ∀ entry ∈ part, InRange entry) :
    lines.mapM (fun line => parseNetNodes lib (line.drop start.length)) = .ok parts := by
  rw [mapM_eq_ok]
  induction h with
  | nil => exact .nil
  | cons hline _ ih =>
    obtain ⟨hpart, hparts⟩ := forall_mem_cons.mp hrange
    exact .cons (hline.parse hlib hpart).1 (ih hparts)

theorem spelledLine_of_mem {start : String} {entries : List (Nat × Nat)} {line : Text}
    (h : line ∈ formatNetNodeLines start entries width) :
    ∃ part, SpelledLine start.toList line part := by
  obtain ⟨parts, hparts, -⟩ := formatNetNodeLines_spelled start entries width
  obtain ⟨i, hi, rfl⟩ := mem_iff_getElem.mp h
  exact ⟨_, hparts.get hi (hparts.length_eq ▸ hi)⟩

theorem formatNetNodeLines_eq_nil_iff (start : String) (entries : List (Nat × Nat)) (width : Nat) :
    formatNetNodeLines start entries width = [] ↔ entries = [] := by
  constructor
  · intro h
    obtain ⟨parts, hparts, hflat⟩ := formatNetNodeLines_spelled start entries width
    rw [h] at hparts
    cases hparts
    exact hflat.symm
  · rintro rfl
    rfl

/-- A list comes back exactly from the lines it is written over, each read without the others: a line is no
longer than the width and its first token is a full pair. -/
theorem net_node_lines_exact (hlib : ReadsDigits lib) (start : String) (entries : List (Nat × Nat))
    (width : Nat) (hrange : ∀ entry ∈ entries, InRange entry)
    (hfits : ∀ entry ∈ entries, start.length + (netNodeText entry.1 entry.2).length ≤ width) :
    (∃ read, (formatNetNodeLines start entries width).mapM
        (fun line => parseNetNodes lib (line.drop start.length)) = .ok read ∧
      read.flatten = entries) ∧
    ∀ line ∈ formatNetNodeLines start entries width, line.length ≤ width ∧
      start.toList <+: line ∧ ∃ entry ∈ entries, ∃ others,
        split (line.drop start.length) = netNodeText entry.1 entry.2 :: others := by
  obtain ⟨parts, hparts, rfl⟩ := formatNetNodeLines_spelled start entries width
  rw [← String.length_toList] at hfits ⊢
  constructor
  · exact ⟨parts, parse_spelled hlib hparts fun part hpart entry hentry =>
      hrange entry (mem_flatten.mpr ⟨part, hpart, hentry⟩), rfl⟩
  · intro line hline
    obtain ⟨i, hi, rfl⟩ := mem_iff_getElem.mp hline
    have hlength := hparts.length_eq
    have hspelled : SpelledLine start.toList _ _ := hparts.get hi (hlength ▸ hi)
    obtain ⟨entry, hentry, others, hsplit⟩ := hspelled.first
    refine ⟨?_, hspelled.start_prefix, entry, ?_, others, hsplit⟩
    · refine fillLines_width ?_ hfits _ hline
      obtain ⟨first, hfirst⟩ := exists_mem_of_ne_nil _ (ne_nil_of_mem
        (mem_flatten.mpr ⟨_, get_mem parts ⟨i, hlength ▸ hi⟩, hentry⟩))
      have hroom := hfits first hfirst
      rw [length_nil]
      omega
    · exact mem_flatten.mpr ⟨_, get_mem parts ⟨i, hlength ▸ hi⟩, hentry⟩

/-- Two lines of one net, the second of which writes it again. -/
theorem net_node_lines_exact_two :
    ∃ read, (formatNetNodeLines "SEEN-BY: " [(3, 100), (3, 101), (3, 65535)] 18).mapM
      (fun line => parseNetNodes asciiLibrary (line.drop "SEEN-BY: ".length)) = .ok read ∧
        read.flatten = [(3, 100), (3, 101), (3, 65535)] :=
  (net_node_lines_exact (fun _ hc => if_pos hc) "SEEN-BY: " [(3, 100), (3, 101), (3, 65535)] 18
    (by unfold InRange; decide) (by decide)).1

end NetBBS
