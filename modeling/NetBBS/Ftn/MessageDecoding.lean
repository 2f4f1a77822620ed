import NetBBS.Ftn.NetNodeLists

/-! # Messages that stop the tosser -/

namespace NetBBS

open Foundation List Text

variable (lib : TextLibrary)

def pathTexts (lines : List Text) : List Text :=
  lines.filterMap fun line =>
    if line.head? = some kludgeMark ∧ lib.upper (splitKludge line.tail).1 = "PATH".toList then
      some (splitKludge line.tail).2
    else none

def contentLines (lines : List Text) : List Text :=
  lines.filter fun line => line.head? ≠ some kludgeMark

def seenByTexts (lines : List Text) : List Text :=
  ((contentLines lines).rtakeWhile isSeenByLine).map (List.drop 8)

variable {lib} {line : Text}

theorem sortLines_cons_path (inBody : Bool) (rest : List Text)
    (hmark : line.head? = some kludgeMark) (hpath : lib.upper (splitKludge line.tail).1 = "PATH".toList) :
    sortLines lib inBody (line :: rest) = (do
      let entries ← parseNetNodes lib (splitKludge line.tail).2
      let sorted ← sortLines lib inBody rest
      pure { sorted with path := entries ++ sorted.path }) := by
  simp only [sortLines, if_pos hmark, if_pos hpath]

theorem sortLines_cons_kludge (inBody : Bool) (rest : List Text)
    (hmark : line.head? = some kludgeMark) (hpath : lib.upper (splitKludge line.tail).1 ≠ "PATH".toList) :
    sortLines lib inBody (line :: rest) = (do
      let sorted ← sortLines lib inBody rest
      if inBody = true then
        pure { sorted with trailingKludges := splitKludge line.tail :: sorted.trailingKludges }
      else pure { sorted with kludges := splitKludge line.tail :: sorted.kludges }) := by
  simp only [sortLines, if_pos hmark, if_neg hpath]

theorem sortLines_cons_content (inBody : Bool) (rest : List Text)
    (hmark : line.head? ≠ some kludgeMark) :
    sortLines lib inBody (line :: rest) = (do
      let sorted ← sortLines lib true rest
      pure { sorted with content := line :: sorted.content }) := by
  simp only [sortLines, if_neg hmark]

variable (lib) in
theorem sortLines_eq_ok (inBody : Bool) (lines : List Text) :
    ((∃ sorted, sortLines lib inBody lines = .ok sorted) ↔
      ∀ value ∈ pathTexts lib lines, TokensReadable lib False (split value)) ∧
    ∀ sorted, sortLines lib inBody lines = .ok sorted →
      sorted.content = contentLines lines ∧
        sorted.path = (pathTexts lib lines).flatMap (readNetNodes lib) := by
  induction lines generalizing inBody with
  | nil =>
    refine ⟨⟨fun _ value hvalue => absurd hvalue not_mem_nil, fun _ => ⟨_, rfl⟩⟩, ?_⟩
    intro sorted h
    rw [← Except.ok.inj h]
    exact ⟨rfl, rfl⟩
  | cons line rest ih =>
    by_cases hmark : line.head? = some kludgeMark
    · have hcontent : contentLines (line :: rest) = contentLines rest :=
        filter_cons_of_neg (by simpa using hmark)
      by_cases hpath : lib.upper (splitKludge line.tail).1 = "PATH".toList
      · have htexts : pathTexts lib (line :: rest) =
            (splitKludge line.tail).2 :: pathTexts lib rest :=
          filterMap_cons_some (if_pos ⟨hmark, hpath⟩)
        obtain ⟨hreturns, hsorted⟩ := ih inBody
        rw [sortLines_cons_path inBody rest hmark hpath, htexts, hcontent]
        simp only [bind_eq_ok, pure_eq_ok, parseNetNodes_eq_ok, forall_mem_cons, flatMap_cons]
        constructor
        · rw [← hreturns]
          constructor
          · rintro ⟨_, _, ⟨hreads, -⟩, sorted, hrest, -⟩
            exact ⟨hreads, sorted, hrest⟩
          · rintro ⟨hreads, sorted, hrest⟩
            exact ⟨_, _, ⟨hreads, rfl⟩, sorted, hrest, rfl⟩
        · rintro _ ⟨_, ⟨-, rfl⟩, sorted, hrest, rfl⟩
          obtain ⟨hsame, hlist⟩ := hsorted sorted hrest
          exact ⟨hsame, congrArg _ hlist⟩
      · have htexts : pathTexts lib (line :: rest) = pathTexts lib rest :=
          filterMap_cons_none (if_neg fun h => hpath h.2)
        obtain ⟨hreturns, hsorted⟩ := ih inBody
        rw [sortLines_cons_kludge inBody rest hmark hpath, htexts, hcontent, ← hreturns]
        simp only [bind_eq_ok]
        cases inBody with
        | true | false =>
          simp only [Bool.false_eq_true, if_true, if_false, pure_eq_ok]
          constructor
          · constructor
            · rintro ⟨_, sorted, hrest, -⟩
              exact ⟨sorted, hrest⟩
            · rintro ⟨sorted, hrest⟩
              exact ⟨_, sorted, hrest, rfl⟩
          · rintro _ ⟨sorted, hrest, rfl⟩
            exact hsorted sorted hrest
    · have hcontent : contentLines (line :: rest) = line :: contentLines rest :=
        filter_cons_of_pos (by simpa using hmark)
      have htexts : pathTexts lib (line :: rest) = pathTexts lib rest :=
        filterMap_cons_none (if_neg fun h => hmark h.1)
      obtain ⟨hreturns, hsorted⟩ := ih true
      rw [sortLines_cons_content inBody rest hmark, htexts, hcontent, ← hreturns]
      simp only [bind_eq_ok, pure_eq_ok]
      constructor
      · constructor
        · rintro ⟨_, sorted, hrest, -⟩
          exact ⟨sorted, hrest⟩
        · rintro ⟨sorted, hrest⟩
          exact ⟨_, sorted, hrest, rfl⟩
      · rintro _ ⟨sorted, hrest, rfl⟩
        obtain ⟨hsame, hlist⟩ := hsorted sorted hrest
        exact ⟨congrArg _ hsame, hlist⟩

theorem mapM_parseNetNodes_eq_ok (values : List Text) (entries : List (List (Nat × Nat))) :
    values.mapM (parseNetNodes lib) = .ok entries ↔
      (∀ value ∈ values, TokensReadable lib False (split value)) ∧
        entries = values.map (readNetNodes lib) := by
  rw [mapM_eq_ok]
  simp only [parseNetNodes_eq_ok]
  induction values generalizing entries with
  | nil => cases entries <;> simp
  | cons value rest ih =>
    cases entries with
    | nil => simp
    | cons entry entries =>
      rw [forall₂_cons, ih, forall_mem_cons, map_cons, List.cons.injEq]
      tauto

variable (lib) in
def CodepageReads (packed : PackedMessage) : Prop :=
  ∀ first rest,
    split ((orText (rawKludge packed.text "CHRS") (rawKludge packed.text "CHARSET")).getD []) =
      first :: rest →
    lib.upper first = "IBMPC".toList →
    isDigitText lib (strip ((rawKludge packed.text "CODEPAGE").getD [])) = true →
    IntReads lib (strip ((rawKludge packed.text "CODEPAGE").getD []))

private theorem lookup_named {identifier name : String}
    (h : identifiers.lookup identifier = some name) : name ∈ namedCodecs := by
  obtain ⟨first, rest, hsplit, -⟩ := lookup_eq_some_iff.mp h
  unfold namedCodecs
  rw [hsplit]
  simp

theorem messageCodec_returns (packed : PackedMessage) {defaultCharset : String}
    (hdefault : defaultCharset ∈ namedCodecs) :
    ((∃ codec, messageCodec lib packed defaultCharset = .ok codec) ↔ CodepageReads lib packed) ∧
      ∀ codec, messageCodec lib packed defaultCharset = .ok codec →
        (lib.codec codec).isSome = true := by
  unfold messageCodec codecForKludge CodepageReads
  generalize hpage : strip ((rawKludge packed.text "CODEPAGE").getD []) = page
  cases hwords : split
    ((orText (rawKludge packed.text "CHRS") (rawKludge packed.text "CHARSET")).getD []) with
  | nil =>
    simp only [pure_eq_ok]
    refine ⟨⟨fun _ first rest h => absurd h (by simp), fun _ => ⟨_, rfl⟩⟩, ?_⟩
    rintro _ rfl
    exact lib.codec_named _ hdefault
  | cons first rest =>
    have hnamed : ((identifiers.lookup (String.ofList (lib.upper first))).getD defaultCharset) ∈
        namedCodecs := by
      cases hlookup : identifiers.lookup (String.ofList (lib.upper first)) with
      | none => exact hdefault
      | some name => exact lookup_named hlookup
    simp only
    split
    · rename_i hlegacy
      simp only [bind_eq_ok, pure_eq_ok]
      constructor
      · constructor
        · rintro ⟨_, n, hn, -⟩ _ _ _ _ _
          exact reads_of_intOfDigits hn
        · intro hreads
          obtain ⟨n, -, hn⟩ := intOfDigits_of_reads (hreads first rest rfl hlegacy.1 hlegacy.2)
            (ne_nil_of_isDigitText hlegacy.2)
          exact ⟨_, n, hn, rfl⟩
      · rintro _ ⟨n, -, rfl⟩
        split
        · assumption
        · exact lib.codec_named _ hnamed
    · rename_i hother
      simp only [pure_eq_ok]
      constructor
      · refine ⟨fun _ first' rest' hsplit hupper hdigits => ?_, fun _ => ⟨_, rfl⟩⟩
        obtain ⟨rfl, rfl⟩ := List.cons.inj hsplit
        exact absurd ⟨hupper, hdigits⟩ hother
      · rintro _ rfl
        exact lib.codec_named _ hnamed

variable (lib) in
def decodedLines (packed : PackedMessage) (defaultCharset : String) :
    Except FtnError (List Text) := do
  let codec ← messageCodec lib packed defaultCharset
  pure (takeArea (textLines (← decodeText lib codec packed.text))).2

/-- A message is read, with every token of its lists that is no net and node skipped, exactly where
`int` reads every number it is asked for. -/
theorem decodeMessage_returns_iff (lib : TextLibrary) (packed : PackedMessage)
    (defaultCharset : String) (hdefault : defaultCharset ∈ namedCodecs) :
    (∃ message, decodeMessage lib packed defaultCharset = .ok message ∧
        ∀ lines, decodedLines lib packed defaultCharset = .ok lines →
          message.path = (pathTexts lib lines).flatMap (readNetNodes lib) ∧
            message.seenBy = (seenByTexts lines).flatMap (readNetNodes lib)) ↔
      CodepageReads lib packed ∧
        ∀ lines, decodedLines lib packed defaultCharset = .ok lines →
          ∀ value ∈ pathTexts lib lines ++ seenByTexts lines,
            TokensReadable lib False (split value) := by
  obtain ⟨hreturns, hknown⟩ := messageCodec_returns packed hdefault
  rw [← hreturns]
  cases hcodec : messageCodec lib packed defaultCharset with
  | error e =>
    refine iff_of_false ?_ ?_
    · rintro ⟨message, h, -⟩
      unfold decodeMessage at h
      rw [hcodec, error_bind] at h
      exact absurd h (by simp)
    · rintro ⟨⟨codec, h⟩, -⟩
      exact absurd h (by simp)
  | ok codec =>
    obtain ⟨found, hfound⟩ := Option.isSome_iff_exists.mp (hknown codec hcodec)
    have hdecode : ∀ data, decodeText lib codec data = .ok (found.decode data) := by
      intro data
      unfold decodeText
      rw [hfound]
      rfl
    have hlines : decodedLines lib packed defaultCharset =
        .ok (takeArea (textLines (found.decode packed.text))).2 := by
      unfold decodedLines
      rw [hcodec, ok_bind, hdecode, ok_bind]
      rfl
    generalize htake : takeArea (textLines (found.decode packed.text)) = taken at hlines
    obtain ⟨area, lines⟩ := taken
    obtain ⟨hsortable, hsorted⟩ := sortLines_eq_ok lib false lines
    rw [hlines]
    simp only [Except.ok.injEq, forall_eq', exists_eq', true_and]
    unfold decodeMessage
    simp only [hcodec, ok_bind, hdecode, htake, bind_eq_ok, pure_eq_ok]
    have hseenBy : ∀ (content : List Text) entries, content = contentLines lines →
        ((peelContent content).seenByLines.mapM (fun line => parseNetNodes lib (line.drop 8)) =
            .ok entries ↔ (∀ value ∈ seenByTexts lines, TokensReadable lib False (split value)) ∧
            entries = (seenByTexts lines).map (readNetNodes lib)) := by
      rintro _ entries rfl
      rw [← mapM_parseNetNodes_eq_ok, seenByTexts, mapM_map]
      rfl
    simp only [forall_mem_append]
    rw [← hsortable]
    constructor
    · rintro ⟨_, ⟨sorted, hsort, entries, hentries, rfl⟩, -⟩
      exact ⟨⟨sorted, hsort⟩, ((hseenBy _ _ (hsorted sorted hsort).1).mp hentries).1⟩
    · rintro ⟨⟨sorted, hsort⟩, hreadable⟩
      obtain ⟨hcontent, hpath⟩ := hsorted sorted hsort
      refine ⟨_, ⟨sorted, hsort, _, (hseenBy _ _ hcontent).mpr ⟨hreadable, rfl⟩, rfl⟩, hpath, ?_⟩
      exact flatMap_def.symm

def asciiCodec : Codec where
  encodeChar c :=
    if c.toNat < 128 then some [c.toNat.toUInt8] else if c = '²' then some [0xFD] else none
  decode data := data.map fun b =>
    if b < 128 then Char.ofNat b.toNat else if b = 0xFD then '²' else '\uFFFD'

def asciiLibrary : TextLibrary where
  upper := List.map Char.toUpper
  isDigit c := c.isDigit || c == '²'
  decimal c := if c.isDigit then some (c.toNat - 48) else none
  isDigit_of_decimal c h := by
    by_cases hdigit : c.isDigit <;> simp_all
  codec name := if name ∈ namedCodecs then some asciiCodec else none
  codec_named name h := by rw [if_pos h]; rfl

def packedText (text : List UInt8) : PackedMessage where
  origNet := 3
  origNode := 100
  destNet := 3
  destNode := 100
  attributes := 0
  cost := 0
  date := encodeAsciiReplace "07 Oct 26  14:05:30"
  toName := encodeAsciiReplace "All"
  fromName := encodeAsciiReplace "Ann"
  subject := encodeAsciiReplace "Hi"
  text

/-- `SEEN-BY: 1/²` in CP437. -/
def superscriptSeenBy : PackedMessage :=
  packedText (encodeAsciiReplace "SEEN-BY: 1/" ++ [0xFD, 13])

theorem superscript_seen_by_raises :
    (decodeMessage asciiLibrary superscriptSeenBy "cp437").toOption.isSome = false := by
  decide +kernel

theorem superscript_seen_by_unreadable : ¬ (CodepageReads asciiLibrary superscriptSeenBy ∧
      ∀ lines, decodedLines asciiLibrary superscriptSeenBy "cp437" = .ok lines →
        ∀ value ∈ pathTexts asciiLibrary lines ++ seenByTexts lines,
          TokensReadable asciiLibrary False (split value)) := by
  intro hreads
  obtain ⟨message, hmessage, -⟩ :=
    (decodeMessage_returns_iff asciiLibrary superscriptSeenBy "cp437" (by decide)).mpr hreads
  have hraises : (decodeMessage asciiLibrary superscriptSeenBy "cp437").toOption.isSome = false := by
    decide +kernel
  rw [hmessage] at hraises
  exact absurd hraises (by simp [Except.toOption])

end NetBBS
