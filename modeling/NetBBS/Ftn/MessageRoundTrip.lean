import NetBBS.Ftn.MessageEnds

/-! # Messages read back as they were written -/

namespace NetBBS

open Foundation List Text

variable {lib : TextLibrary} (lib) in
def ownKludges (kludges : List (Text × Text)) : List (Text × Text) :=
  kludges.filter fun kludge => !namesCharset lib kludge

variable (lib) in
structure ReadsBack (message decoded : FtnMessage) : Prop where
  area : decoded.area = message.area
  body : visibleLines decoded.body = visibleLines (plain message.body)
  tearLine : decoded.tearLine = message.tearLine
  origin : decoded.origin = message.origin
  seenBy : decoded.seenBy = sortedEntries message.seenBy
  path : decoded.path = message.path
  kludges : ownKludges lib decoded.kludges = ownKludges lib message.kludges
  trailingKludges : decoded.trailingKludges = message.trailingKludges

def HasContent (message : FtnMessage) : Prop :=
  plain message.body ≠ [] ∨ message.tearLine ≠ none ∨ message.origin ≠ none ∨ message.seenBy ≠ []

variable (lib) in
structure KeepsStructure (message : FtnMessage) : Prop where
  kludges : ∀ kludge ∈ ownKludges lib message.kludges, CleanKludge lib kludge
  trailingKludges : ∀ kludge ∈ message.trailingKludges, CleanKludge lib kludge
  trailing : message.trailingKludges ≠ [] → HasContent message
  area : message.area = none →
    ∀ kludge, (ownKludges lib message.kludges).head? = some kludge → kludge.1 ≠ "AREA".toList
  seenBy : ∀ entry ∈ message.seenBy, InRange entry
  path : ∀ entry ∈ message.path, InRange entry
  tearLine : ∀ tear, message.tearLine = some tear → CleanLine tear
  origin : ∀ origin, message.origin = some origin → CleanLine origin ∧ origin.length ≤ 68
  body : EndsAsBody message

variable (lib) in
def Encodable (message : FtnMessage) : Prop :=
  ∃ charset codec lines, outboundCharset lib message = .ok charset ∧
    lib.codec charset.codec = some codec ∧ messageLines lib message charset = .ok lines ∧
    ∀ line ∈ lines, codec.encodable line = true

variable {entries : List (Nat × Nat)} {packed : PackedMessage} {kludges : List (Text × Text)}

theorem keepNetNode_inRange {net node : Nat}
    (h : ∀ entry ∈ entries, InRange entry) : ∀ entry ∈ keepNetNode net node entries, InRange entry := by
  unfold keepNetNode
  split
  · rename_i hrange
    exact forall_mem_cons.mpr ⟨hrange, h⟩
  · exact h

theorem parseTokens_inRange {net : Option Nat} {tokens : List Text}
    (h : parseTokens lib net tokens = .ok entries) : ∀ entry ∈ entries, InRange entry := by
  induction tokens generalizing net entries with
  | nil =>
    rw [← Except.ok.inj h]
    exact fun entry hmem => absurd hmem not_mem_nil
  | cons token rest ih =>
    unfold parseTokens at h
    simp only at h
    split at h
    · split at h
      · simp only [bind_eq_ok, pure_eq_ok] at h
        obtain ⟨_, _, _, _, more, hmore, rfl⟩ := h
        exact keepNetNode_inRange (ih hmore)
      · exact ih h
    · split at h
      · split at h
        · simp only [bind_eq_ok, pure_eq_ok] at h
          obtain ⟨_, _, more, hmore, rfl⟩ := h
          exact keepNetNode_inRange (ih hmore)
        · exact ih h
      · exact ih h

theorem sortLines_path_inRange {inBody : Bool} {lines : List Text} {sorted : SortedLines}
    (h : sortLines lib inBody lines = .ok sorted) : ∀ entry ∈ sorted.path, InRange entry := by
  have hpath := ((sortLines_eq_ok lib inBody lines).2 sorted h).2
  have hreturns := (sortLines_eq_ok lib inBody lines).1.mp ⟨sorted, h⟩
  rw [hpath]
  intro entry hentry
  obtain ⟨value, hvalue, hmem⟩ := mem_flatMap.mp hentry
  have hparse : parseNetNodes lib value = .ok (readNetNodes lib value) :=
    (parseNetNodes_eq_ok value _).mpr ⟨hreturns value hvalue, rfl⟩
  exact parseTokens_inRange hparse entry hmem

variable {tag line : Text}

theorem mem_takeArea {lines : List Text} (h : line ∈ (takeArea lines).2) : line ∈ lines := by
  cases lines with
  | nil => exact h
  | cons first rest =>
    simp only [takeArea] at h
    generalize (if first.head? = some kludgeMark then first.tail else first) = bare at h
    split at h
    · exact .tail _ h
    · exact h

theorem decodeMessage_clean {default : String} {decoded : FtnMessage}
    (h : decodeMessage lib packed default = .ok decoded) :
    (∀ kludge ∈ decoded.kludges ++ decoded.trailingKludges, CleanKludge lib kludge) ∧
      (∀ entry ∈ decoded.seenBy, InRange entry) ∧ ∀ entry ∈ decoded.path, InRange entry := by
  unfold decodeMessage at h
  simp only [bind_eq_ok, pure_eq_ok] at h
  obtain ⟨_, _, text, _, _, _, _, _, _, _, sorted, hsorted, parts, hparts, rfl⟩ := h
  refine ⟨?_, ?_, sortLines_path_inRange hsorted⟩
  · exact sortLines_clean hsorted fun line hline => not_mem_of_mem_textLines (mem_takeArea hline)
  · intro entry hentry
    obtain ⟨part, hpart, hmem⟩ := mem_flatten.mp hentry
    obtain ⟨i, hi, rfl⟩ := mem_iff_getElem.mp hpart
    have hall := (mapM_eq_ok _ _ _).mp hparts
    have hparse := hall.get (hall.length_eq ▸ hi) hi
    exact parseTokens_inRange hparse entry hmem

def areaText (message : FtnMessage) : List Text :=
  message.area.toList.map fun tag => "AREA:".toList ++ tag

theorem isWord_areaTag (h : isAreaTag tag = true) : Text.IsWord tag := by
  unfold isAreaTag at h
  simp only [Bool.and_eq_true, decide_eq_true_eq, all_eq_true, Bool.or_eq_true] at h
  obtain ⟨⟨hlength, -⟩, hchars⟩ := h
  refine ⟨fun hnil => by simp [hnil] at hlength, fun c hc => ?_⟩
  have hcode := hchars c hc
  unfold Text.isSpace
  simp
  omega

theorem areaLines_eq_ok {message : FtnMessage} {lines : List Text} (h : areaLines message = .ok lines) :
    lines = areaText message ∧ ∀ tag, message.area = some tag → Text.IsWord tag := by
  unfold areaLines at h
  unfold areaText
  cases harea : message.area with
  | none =>
    rw [harea] at h
    exact ⟨(Except.ok.inj h).symm, fun _ hnone => absurd hnone (by simp)⟩
  | some tag =>
    rw [harea] at h
    simp only [bind_eq_ok, refuseIf_eq_ok, pure_eq_ok] at h
    obtain ⟨_, htag, rfl⟩ := h
    refine ⟨rfl, fun other hother => ?_⟩
    obtain rfl := Option.some.inj hother
    exact isWord_areaTag (Bool.of_not_eq_false htag)

variable {message : FtnMessage} {charset : Charset} {lines : List Text}

theorem messageLines_eq_ok (h : messageLines lib message charset = .ok lines) :
    lines = areaText message ++ kludgeLines lib message charset ++ bodyLines message ++
        tearLines message ++ originLines message ++ seenByLines message ++
        message.trailingKludges.map (formatKludge lib) ++ pathLines message ∧
      ∀ tag, message.area = some tag → Text.IsWord tag := by
  unfold messageLines at h
  simp only [bind_eq_ok, pure_eq_ok] at h
  obtain ⟨area, harea, rfl⟩ := h
  obtain ⟨rfl, hword⟩ := areaLines_eq_ok harea
  exact ⟨rfl, hword⟩

theorem chrs_clean (hlib : lib.Standard) (h : charset.readsBack = true) :
    CleanKludge lib ("CHRS".toList, charset.kludge.toList) := by
  unfold Charset.readsBack at h
  simp only [Bool.and_eq_true, decide_eq_true_eq, all_eq_true, bne_iff_ne] at h
  obtain ⟨⟨⟨-, hchars⟩, hstrip⟩, -⟩ := h
  have hname : ∀ c ∈ "CHRS".toList, Text.isSpace c = false ∧ c ≠ ':' :=
    all_iff_forall_prop.mp (by decide)
  have hpath : lib.upper "CHRS".toList ≠ "PATH".toList := by
    rw [hlib.upper_ascii _ (all_iff_forall_prop.mp (by decide))]
    decide
  exact
    { name := hname
      value := hstrip
      cr := fun hmem => (hchars _ hmem).1.2 rfl
      lf := fun hmem => (hchars _ hmem).2 rfl
      notPath := hpath }

theorem formatKludge_chrs (hlib : lib.Standard) (value : Text) :
    formatKludge lib ("CHRS".toList, value) = kludgeMark :: "CHRS: ".toList ++ value := by
  have hbare : lib.upper "CHRS".toList ∉ bareKludges := by
    rw [hlib.upper_ascii _ (all_iff_forall_prop.mp (by decide))]
    decide
  unfold formatKludge
  rw [if_neg hbare]
  rfl

def OneLine (line : Text) : Prop := '\r' ∉ line ∧ '\n' ∉ line

theorem oneLine_areaText (h : ∀ tag, message.area = some tag → Text.IsWord tag) :
    ∀ line ∈ areaText message, OneLine line := by
  intro line hline
  obtain ⟨tag, htag, rfl⟩ := mem_map.mp hline
  have hword := (h tag (Option.mem_toList.mp htag)).2
  have hnot : ∀ c, Text.isSpace c = true → c ∉ "AREA:".toList ++ tag := by
    intro c hc hmem
    rcases mem_append.mp hmem with hmem | hmem
    · have hstart : ∀ d ∈ "AREA:".toList, Text.isSpace d = false :=
        all_iff_forall_prop.mp (by decide)
      rw [hstart c hmem] at hc
      exact absurd hc (by simp)
    · rw [hword c hmem] at hc
      exact absurd hc (by simp)
  exact ⟨hnot _ (by decide), hnot _ (by decide)⟩

theorem oneLine_spelled {start : Text}
    (h : SpelledLine start line entries) (hstart : OneLine start) : OneLine line :=
  ⟨h.not_mem hstart.1 (by decide) (by decide), h.not_mem hstart.2 (by decide) (by decide)⟩

theorem oneLine_seenByLines (message : FtnMessage) : ∀ line ∈ seenByLines message, OneLine line := by
  intro line hline
  obtain ⟨part, hspelled⟩ := spelledLine_of_mem hline
  exact oneLine_spelled hspelled (by unfold OneLine; decide)

theorem oneLine_pathLines (message : FtnMessage) : ∀ line ∈ pathLines message, OneLine line := by
  intro line hline
  obtain ⟨spelled, hmem, rfl⟩ := mem_map.mp hline
  obtain ⟨part, hspelled⟩ := spelledLine_of_mem hmem
  obtain ⟨hcr, hlf⟩ := oneLine_spelled hspelled (by unfold OneLine; decide)
  exact ⟨not_mem_cons_of_ne_of_not_mem (by decide) hcr,
    not_mem_cons_of_ne_of_not_mem (by decide) hlf⟩

theorem oneLine_formatKludge (h : ∀ kludge ∈ kludges, CleanKludge lib kludge) :
    ∀ line ∈ kludges.map (formatKludge lib), OneLine line := by
  intro line hline
  obtain ⟨kludge, hkludge, rfl⟩ := mem_map.mp hline
  exact not_mem_formatKludge (h kludge hkludge).toReadableKludge

theorem not_mem_endLines (message : FtnMessage) :
    ∀ line ∈ tearLines message ++ originLines message, '\r' ∉ line := by
  intro line hline
  rcases mem_append.mp hline with hline | hline
  · obtain ⟨tear, -, rfl⟩ := mem_map.mp hline
    intro hmem
    rcases mem_append.mp (mem_of_mem_rstrip hmem) with hmem | hmem
    · exact absurd hmem (by decide)
    · exact (mem_plain.mp hmem).2.1 rfl
  · obtain ⟨origin, -, rfl⟩ := mem_map.mp hline
    intro hmem
    rcases mem_append.mp (mem_of_mem_take hmem) with hmem | hmem
    · exact absurd hmem (by decide)
    · exact (mem_plain.mp hmem).2.1 rfl

theorem kludgeLines_eq (charset : Charset) :
    kludgeLines lib message charset = (ownKludges lib message.kludges ++
      [("CHRS".toList, charset.kludge.toList)]).map (formatKludge lib) := rfl

theorem textLines_messageLines (hlines : messageLines lib message charset = .ok lines)
    (hkludges : ∀ kludge ∈ ownKludges lib message.kludges ++
      [("CHRS".toList, charset.kludge.toList)], CleanKludge lib kludge)
    (htrailing : ∀ kludge ∈ message.trailingKludges, CleanKludge lib kludge) :
    (∀ line ∈ lines, '\r' ∉ line) ∧
      textLines (lines.flatMap fun line => line ++ ['\r']) =
        areaText message ++ (kludgeLines lib message charset ++
          ((writtenContent message ++ seenByLines message) ++
            (message.trailingKludges.map (formatKludge lib) ++ pathLines message))) := by
  obtain ⟨rfl, hword⟩ := messageLines_eq_ok hlines
  have harea := oneLine_areaText hword
  have hown : ∀ line ∈ kludgeLines lib message charset, OneLine line := by
    rw [kludgeLines_eq]
    exact oneLine_formatKludge hkludges
  have hbody : ∀ line ∈ bodyLines message, OneLine line :=
    fun line hline => (bodyLines_clean message line hline).1.symm
  have hseenBy := oneLine_seenByLines message
  have hlast := oneLine_formatKludge htrailing
  have hpath := oneLine_pathLines message
  have hends := not_mem_endLines message
  have hcr : ∀ line ∈ areaText message ++ kludgeLines lib message charset ++ bodyLines message ++
      tearLines message ++ originLines message ++ seenByLines message ++
      message.trailingKludges.map (formatKludge lib) ++ pathLines message, '\r' ∉ line := by
    simp only [forall_mem_append] at hends ⊢
    exact ⟨⟨⟨⟨⟨⟨⟨fun line hline => (harea line hline).1, fun line hline => (hown line hline).1⟩,
      fun line hline => (hbody line hline).1⟩, hends.1⟩, hends.2⟩,
      fun line hline => (hseenBy line hline).1⟩, fun line hline => (hlast line hline).1⟩,
      fun line hline => (hpath line hline).1⟩
  refine ⟨hcr, ?_⟩
  have hsame : ∀ lines : List Text, (∀ line ∈ lines, OneLine line) →
      lines.map (remove '\n') = lines := by
    intro lines hlines
    exact (map_congr_left fun line hline =>
      remove_eq_self (hlines line hline).2).trans (map_id lines)
  have htear : (tearLines message).map (remove '\n') =
      message.tearLine.toList.map readTearLine := map_map
  have horigin : (originLines message).map (remove '\n') =
      message.origin.toList.map readOriginLine := map_map
  rw [textLines_flatMap _ hcr]
  unfold writtenContent
  simp [hsame _ harea, hsame _ hown, hsame _ hbody, hsame _ hseenBy, hsame _ hlast, hsame _ hpath,
      htear, horigin]

variable {codec : Codec}

private theorem splitKludge_chrs {rest : Text} {separator : Char} (h : separator = ':' ∨ separator = ' ') :
    (splitKludge ("CHRS".toList ++ separator :: rest)).1 = "CHRS".toList := by
  unfold splitKludge
  rcases h with rfl | rfl <;> simp [Text.isSpace]

private theorem not_chrs_before (message : FtnMessage) (hlib : lib.Standard)
    (hkludges : ∀ kludge ∈ ownKludges lib message.kludges, CleanKludge lib kludge) :
    ∀ line ∈ areaText message ++ (ownKludges lib message.kludges).map (formatKludge lib),
      line.head? ≠ some '\n' ∧ ∀ separator : Char, separator = ':' ∨ separator = ' ' →
        ¬ (kludgeMark :: "CHRS".toList ++ [separator]) <+: line := by
  intro line hline
  rcases mem_append.mp hline with hline | hline
  · obtain ⟨tag, -, rfl⟩ := mem_map.mp hline
    refine ⟨by simp, fun separator _ hstarts => ?_⟩
    have hhead := (cons_prefix_cons.mp hstarts).1
    exact absurd hhead (by decide)
  · obtain ⟨kludge, hkludge, rfl⟩ := mem_map.mp hline
    refine ⟨fun hhead => absurd (Option.some.inj hhead) (by decide), ?_⟩
    intro separator hseparator hstarts
    obtain ⟨rest, hrest⟩ := hstarts
    have hsplit := splitKludge_format lib (hkludges kludge hkludge).toReadableKludge
    have htail : (formatKludge lib kludge).tail = "CHRS".toList ++ separator :: rest := by
      rw [← hrest]
      simp
    rw [htail] at hsplit
    have hname : kludge.1 = "CHRS".toList := by rw [← hsplit, splitKludge_chrs hseparator]
    have hown := (mem_filter.mp hkludge).2
    unfold namesCharset at hown
    rw [hname, hlib.upper_ascii _ (all_iff_forall_prop.mp (by decide))] at hown
    exact absurd hown (by decide)

theorem read_encoded (hlib : lib.Standard) (hcharset : outboundCharset lib message = .ok charset)
    (hcodec : lib.codec charset.codec = some codec) (hlines : messageLines lib message charset = .ok lines)
    (hencodable : ∀ line ∈ lines, codec.encodable line = true)
    (hkludges : ∀ kludge ∈ ownKludges lib message.kludges, CleanKludge lib kludge)
    (hcr : ∀ line ∈ lines, '\r' ∉ line) (default : String)
    (hpacked : packed.text = codec.encode (lines.flatMap fun line => line ++ ['\r'])) :
    messageCodec lib packed default = .ok charset.codec ∧
      codec.decode packed.text = lines.flatMap fun line => line ++ ['\r'] := by
  have hreads := outboundCharset_readsBack hcharset
  have hparts := hreads
  unfold Charset.readsBack at hparts
  simp only [Bool.and_eq_true, decide_eq_true_eq, all_eq_true, contains_iff_mem] at hparts
  obtain ⟨⟨⟨hnamed, hchars⟩, hstrip⟩, hidentifier⟩ := hparts
  have hfaithful := hlib.faithful _ hnamed codec hcodec
  constructor
  · have hbefore := not_chrs_before message hlib hkludges
    obtain ⟨hsplit, -⟩ := messageLines_eq_ok hlines
    rw [kludgeLines_eq, map_append, map_singleton, formatKludge_chrs hlib] at hsplit
    have hchrs : rawKludge packed.text "CHRS" = some charset.kludge.toList := by
      have hwhole : lines = (areaText message ++
          (ownKludges lib message.kludges).map (formatKludge lib)) ++
          (kludgeMark :: "CHRS: ".toList ++ charset.kludge.toList) :: (bodyLines message ++
            tearLines message ++ originLines message ++ seenByLines message ++
            message.trailingKludges.map (formatKludge lib) ++ pathLines message) := by
        rw [hsplit]
        simp
      rw [hwhole] at hcr hencodable hpacked
      rw [hpacked]
      exact rawKludge_chrs hfaithful hcr
        (fun line hline => hencodable line (mem_append_left _ hline))
        (fun line hline => (hbefore line hline).1) (fun line hline => (hbefore line hline).2)
        ⟨fun c hc => (hchars c hc).1.1, hstrip⟩
    have hfound : orText (some charset.kludge.toList) (rawKludge packed.text "CHARSET") =
        some charset.kludge.toList := by
      cases hkludge : charset.kludge.toList with
      | nil =>
        rw [hkludge] at hidentifier
        exact absurd hidentifier (by simp [split, splitFrom])
      | cons c rest => rfl
    unfold messageCodec
    rw [hchrs, hfound]
    exact codecForKludge_readsBack hlib hreads _ default
  · rw [hpacked]
    apply hfaithful.decode_encode
    unfold Codec.encodable at hencodable ⊢
    rw [all_flatMap, all_eq_true]
    intro line hline
    have hreturn := hfaithful.ascii '\r' (by decide)
    rw [all_append, hencodable line hline, Bool.true_and]
    simp [hreturn]

theorem takeArea_area (rest : List Text) (h : Text.IsWord tag) :
    takeArea (("AREA:".toList ++ tag) :: rest) = (some tag, rest) := by
  have hstrip : strip tag = tag := by
    have hjoin : strip (join ' ' [tag]) = join ' ' [tag] :=
      strip_join (by simpa using h)
    simpa [join] using hjoin
  have hmark : ("AREA:".toList ++ tag).head? ≠ some kludgeMark := by
    intro hhead
    exact absurd (Option.some.inj hhead) (by decide)
  unfold takeArea
  simp only [if_neg hmark]
  rw [if_pos (by simp [startsWith])]
  simp only [Prod.mk.injEq, Option.some.injEq, and_true]
  exact hstrip

theorem takeArea_kludge (hlib : lib.Standard) {kludge : Text × Text} (rest : List Text)
    (h : ReadableKludge kludge) :
    takeArea (formatKludge lib kludge :: rest) =
      if kludge.1 = "AREA".toList then (some (strip kludge.2), rest)
      else (none, formatKludge lib kludge :: rest) := by
  have hmark : (formatKludge lib kludge).head? = some kludgeMark := rfl
  unfold takeArea
  simp only [if_pos hmark]
  split
  · rename_i hstarts
    obtain ⟨value, hvalue⟩ := isPrefixOf_iff_prefix.mp hstarts
    have hsplit := splitKludge_format lib h
    have hname : (splitKludge ("AREA:".toList ++ value)).1 = "AREA".toList := by
      unfold splitKludge
      simp [Text.isSpace]
    have hvalueStrip : strip (("AREA:".toList ++ value).drop 5) =
        strip (splitKludge ("AREA:".toList ++ value)).2 := by
      have hsecond : (splitKludge ("AREA:".toList ++ value)).2 = strip value := by
        unfold splitKludge
        simp [Text.isSpace]
      rw [hsecond, strip_idempotent]
      rfl
    rw [← hvalue] at hsplit ⊢
    rw [hvalueStrip, hsplit, if_pos (by rw [← hsplit]; exact hname)]
  · rename_i hnot
    rw [if_neg]
    intro hname
    have hbare : lib.upper "AREA".toList ∉ bareKludges := by
      rw [hlib.upper_ascii _ (all_iff_forall_prop.mp (by decide))]
      decide
    apply hnot
    unfold formatKludge
    rw [hname, if_neg hbare]
    simp [startsWith]

theorem writtenContent_head (message : FtnMessage) :
    ∀ line ∈ writtenContent message ++ seenByLines message,
    line.head? ≠ some kludgeMark := by
  intro line hline hhead
  unfold writtenContent at hline
  simp only [mem_append] at hline
  rcases hline with ((hline | hline) | hline) | hline
  · exact (bodyLines_clean message line hline).2 hhead
  · obtain ⟨tear, -, rfl⟩ := mem_map.mp hline
    rw [readTearLine_head] at hhead
    exact absurd hhead (by decide)
  · obtain ⟨origin, -, rfl⟩ := mem_map.mp hline
    rw [readOriginLine_eq] at hhead
    exact absurd (Option.some.inj hhead) (by decide)
  · obtain ⟨part, hspelled⟩ := spelledLine_of_mem hline
    obtain ⟨rest, rfl⟩ := hspelled.start_prefix
    exact absurd (Option.some.inj hhead) (by decide)

theorem sortLines_written (hlib : lib.Standard) {content : List Text}
    (hkludges : ∀ kludge ∈ kludges, CleanKludge lib kludge)
    (hcontent : ∀ line ∈ content, line.head? ≠ some kludgeMark)
    (htrailing : ∀ kludge ∈ message.trailingKludges, CleanKludge lib kludge)
    (hpath : ∀ entry ∈ message.path, InRange entry) :
    sortLines lib false (kludges.map (formatKludge lib) ++
      (content ++ (message.trailingKludges.map (formatKludge lib) ++ pathLines message))) =
      .ok { kludges := kludges ++ if content = [] then message.trailingKludges else []
            trailingKludges := if content = [] then [] else message.trailingKludges
            path := message.path
            content := content } := by
  obtain ⟨parts, hparts, hflat⟩ :=
    formatNetNodeLines_spelled "PATH: " message.path (maxControlLine - 1)
  have hpaths : ∀ inBody, sortLines lib inBody (pathLines message) =
      .ok ⟨[], [], message.path, []⟩ := by
    intro inBody
    rw [← hflat] at hpath ⊢
    exact sortLines_paths hlib inBody hparts hpath
  rw [sortLines_kludges false _ hkludges, sortLines_content false _ hcontent,
    sortLines_kludges _ _ htrailing, hpaths, ok_bind]
  by_cases hempty : content = []
  · subst hempty
    simp [SortedLines.withKludges, bind, Except.bind, pure, Except.pure]
  · have hnot : content.isEmpty = false := by simpa using hempty
    simp [SortedLines.withKludges, bind, Except.bind, pure, Except.pure, hempty, hnot]

private theorem seenByParts_read (hlib : lib.Standard) {lines : List Text} {parts : List (List (Nat × Nat))}
    (h : List.Forall₂ (SpelledLine "SEEN-BY: ".toList) lines parts)
    (hrange : ∀ entry ∈ parts.flatten, InRange entry) :
    lines.mapM (fun line => parseNetNodes lib (line.drop 8)) = .ok parts := by
  rw [mapM_eq_ok]
  induction h with
  | nil => exact .nil
  | @cons line part lines parts hline hlines ih =>
    rw [flatten_cons] at hrange
    obtain ⟨hpart, hmore⟩ := forall_mem_append.mp hrange
    refine .cons ?_ (ih hmore)
    obtain ⟨rest, hrest⟩ := hline.start_prefix
    have hparse := (hline.parse hlib.decimal_digit hpart).2
    rw [← hrest] at hparse ⊢
    exact hparse

theorem seenByLines_read (hlib : lib.Standard) (hseenBy : ∀ entry ∈ message.seenBy, InRange entry) :
    ∃ parts, (seenByLines message).mapM (fun line => parseNetNodes lib (line.drop 8)) =
      .ok parts ∧ parts.flatten = sortedEntries message.seenBy := by
  obtain ⟨parts, hparts, hflat⟩ :=
    formatNetNodeLines_spelled "SEEN-BY: " (sortedEntries message.seenBy) maxControlLine
  refine ⟨parts, seenByParts_read hlib hparts ?_, hflat⟩
  intro entry hentry
  rw [hflat] at hentry
  unfold sortedEntries at hentry
  rw [mem_insertionSort, mem_dedup] at hentry
  exact hseenBy entry hentry

theorem isSeenByLine_seenByLines (message : FtnMessage) :
    ∀ line ∈ seenByLines message, isSeenByLine line = true := by
  intro line hline
  obtain ⟨part, hspelled⟩ := spelledLine_of_mem hline
  obtain ⟨rest, rfl⟩ := hspelled.start_prefix
  simp [isSeenByLine, startsWith]

theorem hasContent_iff (message : FtnMessage) :
    writtenContent message ++ seenByLines message ≠ [] ↔ HasContent message := by
  have hseenBy : seenByLines message = [] ↔ message.seenBy = [] := by
    unfold seenByLines
    rw [formatNetNodeLines_eq_nil_iff]
    constructor
    · intro h
      rw [eq_nil_iff_forall_not_mem]
      intro entry hentry
      have hmem : entry ∈ sortedEntries message.seenBy := by
        unfold sortedEntries
        rw [mem_insertionSort, mem_dedup]
        exact hentry
      rw [h] at hmem
      exact absurd hmem not_mem_nil
    · intro h
      rw [h]
      rfl
  have hbody : bodyLines message = [] ↔ plain message.body = [] := by
    unfold bodyLines
    simp only
    split
    · simpa
    · rename_i hne
      exact iff_of_false (splitOn_ne_nil _ _) hne
  unfold HasContent writtenContent
  simp only [ne_eq, append_eq_nil_iff, hseenBy, hbody, map_eq_nil_iff, Option.toList_eq_nil_iff]
  tauto

theorem takeArea_written (charset : Charset) (hlib : lib.Standard) (rest : List Text)
    (harea : ∀ tag, message.area = some tag → Text.IsWord tag)
    (hchrs : ReadableKludge ("CHRS".toList, charset.kludge.toList))
    (hkludges : ∀ kludge ∈ ownKludges lib message.kludges, ReadableKludge kludge) :
    ((takeArea (areaText message ++ (kludgeLines lib message charset ++ rest))).1 = message.area →
        message.area = none → ∀ kludge, (ownKludges lib message.kludges).head? = some kludge →
          kludge.1 ≠ "AREA".toList) ∧
      ((message.area = none → ∀ kludge, (ownKludges lib message.kludges).head? = some kludge →
          kludge.1 ≠ "AREA".toList) →
        takeArea (areaText message ++ (kludgeLines lib message charset ++ rest)) =
          (message.area, kludgeLines lib message charset ++ rest)) := by
  unfold areaText
  cases htag : message.area with
  | some tag =>
    refine ⟨fun _ hnone => absurd hnone (by simp), fun _ => ?_⟩
    exact takeArea_area _ (harea tag htag)
  | none =>
    rw [kludgeLines_eq]
    cases hown : ownKludges lib message.kludges with
    | nil =>
      refine ⟨fun _ _ kludge hhead => absurd hhead (by simp), fun _ => ?_⟩
      have hname : "CHRS".toList ≠ "AREA".toList := by decide
      have htake := takeArea_kludge hlib rest hchrs
      rw [if_neg hname] at htake
      exact htake
    | cons kludge more =>
      have htake := takeArea_kludge hlib (((more ++ [("CHRS".toList, charset.kludge.toList)]).map
        (formatKludge lib)) ++ rest) (hkludges kludge (hown ▸ mem_cons_self))
      simp only [Option.toList_none, map_nil, nil_append, cons_append, map_cons,
        head?_cons, Option.some.injEq, forall_eq', forall_const, htake]
      by_cases hname : kludge.1 = "AREA".toList
      · rw [if_pos hname]
        exact ⟨fun hsome => absurd hsome (by simp), fun hne => absurd hname hne⟩
      · rw [if_neg hname]
        exact ⟨fun _ => hname, fun _ => rfl⟩

theorem ownKludges_own (hlib : lib.Standard) (kludges : List (Text × Text)) (value : Text) :
    ownKludges lib (ownKludges lib kludges ++ [("CHRS".toList, value)]) = ownKludges lib kludges := by
  have hchrs : namesCharset lib ("CHRS".toList, value) = true := by
    have hupper : lib.upper "CHRS".toList = "CHRS".toList :=
      (hlib.upper_ascii _ (all_iff_forall_prop.mp (by decide))).trans (by decide)
    unfold namesCharset
    rw [hupper, decide_eq_true rfl, Bool.true_or]
  have hdropped : [("CHRS".toList, value)].filter (fun kludge => !namesCharset lib kludge) = [] :=
    filter_cons_of_neg (by rw [hchrs]; decide)
  unfold ownKludges
  rw [filter_append, hdropped, append_nil, filter_filter]
  simp

private theorem decode_written (hlib : lib.Standard) (hcharset : outboundCharset lib message = .ok charset)
    (hcodec : lib.codec charset.codec = some codec) (hlines : messageLines lib message charset = .ok lines)
    (hencodable : ∀ line ∈ lines, codec.encodable line = true)
    (default : String) (hpacked : packed.text = codec.encode (lines.flatMap fun line => line ++ ['\r']))
    (hkludges : ∀ kludge ∈ ownKludges lib message.kludges, CleanKludge lib kludge)
    (htrailing : ∀ kludge ∈ message.trailingKludges, CleanKludge lib kludge)
    (hseenBy : ∀ entry ∈ message.seenBy, InRange entry) (hpath : ∀ entry ∈ message.path, InRange entry) :
    (∃ decoded, decodeMessage lib packed default = .ok decoded ∧ ReadsBack lib message decoded) ↔
      (message.trailingKludges ≠ [] → HasContent message) ∧
        (message.area = none → ∀ kludge, (ownKludges lib message.kludges).head? = some kludge →
          kludge.1 ≠ "AREA".toList) ∧
        PeelsTo message (peelContent (writtenContent message ++ seenByLines message)) := by
  have hchrs := chrs_clean hlib (outboundCharset_readsBack hcharset)
  have hall : ∀ kludge ∈ ownKludges lib message.kludges ++
      [("CHRS".toList, charset.kludge.toList)], CleanKludge lib kludge := by
    rw [forall_mem_append]
    exact ⟨hkludges, forall_mem_singleton.mpr hchrs⟩
  obtain ⟨hcr, htextLines⟩ := textLines_messageLines hlines hall htrailing
  obtain ⟨hmessageCodec, hdecode⟩ :=
    read_encoded hlib hcharset hcodec hlines hencodable hkludges hcr default hpacked
  have hdecodeText : ∀ data, decodeText lib charset.codec data = .ok (codec.decode data) := by
    intro data
    unfold decodeText
    rw [hcodec]
    rfl
  rw [← hdecode] at htextLines
  obtain ⟨hareaOf, hareaTaken⟩ := takeArea_written charset hlib
    ((writtenContent message ++ seenByLines message) ++
      (message.trailingKludges.map (formatKludge lib) ++ pathLines message))
    (messageLines_eq_ok hlines).2 hchrs.toReadableKludge
    fun kludge hkludge => (hkludges kludge hkludge).toReadableKludge
  rw [← htextLines] at hareaOf hareaTaken
  have hsorted := sortLines_written hlib hall (writtenContent_head message) htrailing
    hpath
  rw [← kludgeLines_eq] at hsorted
  obtain ⟨parts, hparts, hflat⟩ := seenByLines_read hlib hseenBy
  have hcontent := hasContent_iff message
  generalize hwhole : writtenContent message ++ seenByLines message = content at *
  unfold decodeMessage
  simp only [hmessageCodec, ok_bind, hdecodeText, bind_eq_ok, pure_eq_ok]
  constructor
  · rintro ⟨_, ⟨sorted, hsort, _, -, rfl⟩, hreads⟩
    have harea := hareaOf hreads.area
    rw [hareaTaken harea, hsorted] at hsort
    obtain rfl := Except.ok.inj hsort
    refine ⟨fun hne => hcontent.mp fun hempty => hne ?_, harea, ?_⟩
    · have htrail := hreads.trailingKludges
      simp only [if_pos hempty] at htrail
      exact htrail.symm
    · exact ⟨hreads.body, hreads.tearLine, hreads.origin⟩
  · rintro ⟨hhas, harea, hpeels⟩
    rw [hareaTaken harea]
    have hseenByLines := isSeenByLine_seenByLines message
    have hends := ends_of_peelsTo hseenByLines (hwhole.symm ▸ hpeels)
    have hseen := (peelsTo_of_ends hseenByLines hends.1
      hends.2.1 hends.2.2).2
    rw [hwhole] at hseen
    refine ⟨_, ⟨_, hsorted, parts, by rw [hseen]; exact hparts, rfl⟩, ?_⟩
    exact
      { area := rfl
        body := hpeels.body
        tearLine := hpeels.tearLine
        origin := hpeels.origin
        seenBy := hflat
        path := rfl
        kludges := by
          have hnone : (if content = [] then message.trailingKludges else []) = [] := by
            split
            · rename_i hempty
              by_contra hne
              exact hcontent.mpr (hhas hne) hempty
            · rfl
          rw [hnone, append_nil]
          exact ownKludges_own hlib _ _
        trailingKludges := by
          split
          · rename_i hempty
            by_contra hne
            exact hcontent.mpr (hhas (Ne.symm hne)) hempty
          · rfl }

/-- A message is read back as it was written, its body but for the blank lines at its end, exactly
where no part of it can be taken for another. -/
theorem decode_encode_iff (lib : TextLibrary) (hlib : lib.Standard) (now : DateTime)
    (message : FtnMessage) (default : String) (hencodable : Encodable lib message) :
    (∃ packed decoded, encodeMessage lib now message = .ok packed ∧
        decodeMessage lib packed default = .ok decoded ∧ ReadsBack lib message decoded) ↔
      KeepsStructure lib message := by
  obtain ⟨charset, codec, lines, hcharset, hcodec, hlines, hwritten⟩ := hencodable
  have hencode : ∃ packed, encodeMessage lib now message = .ok packed ∧
      packed.text = codec.encode (lines.flatMap fun line => line ++ ['\r']) := by
    unfold encodeMessage
    simp only [hcharset, ok_bind, hlines, hcodec, orRefuse_some]
    exact ⟨_, rfl, rfl⟩
  obtain ⟨packed, hpacked, htext⟩ := hencode
  -- Clean kludges and pairs of 16 bits are what either side gives.
  have hread := decode_written hlib hcharset hcodec hlines hwritten default htext
  constructor
  · rintro ⟨_, decoded, h, hdecoded, hreads⟩
    obtain rfl := Except.ok.inj (hpacked.symm.trans h)
    obtain ⟨hclean, hseenBy, hpath⟩ := decodeMessage_clean hdecoded
    obtain ⟨hkludges, htrailing⟩ := forall_mem_append.mp hclean
    have hown : ∀ kludge ∈ ownKludges lib message.kludges, CleanKludge lib kludge := by
      intro kludge hkludge
      rw [← hreads.kludges] at hkludge
      exact hkludges kludge (mem_of_mem_filter hkludge)
    rw [hreads.trailingKludges] at htrailing
    rw [hreads.path] at hpath
    have hseen : ∀ entry ∈ message.seenBy, InRange entry := by
      intro entry hentry
      apply hseenBy
      rw [hreads.seenBy]
      unfold sortedEntries
      rw [mem_insertionSort, mem_dedup]
      exact hentry
    obtain ⟨hcontent, harea, hpeels⟩ :=
      (hread hown htrailing hseen hpath).mp ⟨decoded, hdecoded, hreads⟩
    obtain ⟨htear, horigin, hbody⟩ := ends_of_peelsTo (isSeenByLine_seenByLines message) hpeels
    exact ⟨hown, htrailing, hcontent, harea, hseen, hpath, htear, horigin, hbody⟩
  · intro hkeeps
    obtain ⟨hpeels, -⟩ := peelsTo_of_ends (isSeenByLine_seenByLines message) hkeeps.tearLine hkeeps.origin
      hkeeps.body
    obtain ⟨decoded, hdecoded, hreads⟩ :=
      (hread hkeeps.kludges hkeeps.trailingKludges hkeeps.seenBy hkeeps.path).mpr
        ⟨hkeeps.trailing, hkeeps.area, hpeels⟩
    exact ⟨packed, decoded, hpacked, hdecoded, hreads⟩

theorem asciiCodec_faithful : asciiCodec.Faithful := by
  have hpiece : ∀ c : Char, (asciiCodec.encodeChar c).isSome = true →
      asciiCodec.decode ((asciiCodec.encodeChar c).getD [63]) = [c] := by
    intro c hc
    unfold asciiCodec at hc ⊢
    simp only at hc ⊢
    split
    · rename_i hascii
      have hbyte : c.toNat.toUInt8.toNat = c.toNat := Nat.mod_eq_of_lt (by omega)
      have hlt : c.toNat.toUInt8 < 128 := by
        rw [UInt8.lt_iff_toNat_lt, hbyte]
        exact hascii
      simp [if_pos hlt, hbyte]
    · rename_i hascii
      rw [if_neg hascii] at hc
      split
      · rename_i hc
        subst hc
        decide
      · rename_i hother
        rw [if_neg hother] at hc
        exact absurd hc (by simp)
  refine ⟨fun c hc => if_pos hc, ?_, ?_⟩
  · intro c bytes hc hbytes b hb
    unfold asciiCodec at hbytes
    simp only [if_neg (Nat.not_lt.mpr hc)] at hbytes
    split at hbytes
    · obtain rfl := Option.some.inj hbytes
      rw [mem_singleton] at hb
      subst hb
      decide
    · exact absurd hbytes (by simp)
  · intro text htext
    induction text with
    | nil => rfl
    | cons c rest ih =>
      obtain ⟨hc, hrest⟩ := forall_mem_cons.mp (all_eq_true.mp htext)
      have hdecode : ∀ a b, asciiCodec.decode (a ++ b) = asciiCodec.decode a ++ asciiCodec.decode b :=
        fun a b => map_append
      rw [Codec.encode_cons, hdecode, hpiece c hc, ih (all_eq_true.mpr hrest)]
      rfl

theorem asciiLibrary_standard : asciiLibrary.Standard where
  decimal_digit _ hc := if_pos hc
  upper_ascii _ _ := rfl
  faithful name hname codec hcodec := by
    unfold asciiLibrary at hcodec
    simp only [if_pos hname] at hcodec
    obtain rfl := Option.some.inj hcodec
    exact asciiCodec_faithful

def netmail (body : String) : FtnMessage :=
  { toName := "Bob".toList, fromName := "Ann".toList, subject := "Hi".toList, body := body.toList
    kludges := [("MSGID".toList, "2:3/4 0001".toList)] }

def autumnMorning : DateTime where
  year := 2026
  month := 10
  day := 7
  hour := 9
  minute := 5
  second := 30
  exist := by decide

/-- The last line of the body is read as a SEEN-BY line. -/
theorem netmail_body_becomes_seen_by : Encodable asciiLibrary (netmail "hello\nSEEN-BY: 1/2") ∧
      ¬ ∃ packed decoded,
        encodeMessage asciiLibrary autumnMorning (netmail "hello\nSEEN-BY: 1/2") = .ok packed ∧
          decodeMessage asciiLibrary packed "cp437" = .ok decoded ∧
          ReadsBack asciiLibrary (netmail "hello\nSEEN-BY: 1/2") decoded := by
  have hencodable : Encodable asciiLibrary (netmail "hello\nSEEN-BY: 1/2") := by
    refine ⟨cp437, asciiCodec, _, rfl, rfl, rfl, ?_⟩
    decide +kernel
  have hseenBy : ((encodeMessage asciiLibrary autumnMorning (netmail "hello\nSEEN-BY: 1/2")).toOption.bind
      fun packed => (decodeMessage asciiLibrary packed "cp437").toOption.map (·.seenBy)) =
        some [(1, 2)] := by
    decide +kernel
  refine ⟨hencodable, ?_⟩
  rintro ⟨packed, decoded, hencode, hdecode, hreads⟩
  have hread := hreads.seenBy
  rw [hencode, Except.toOption, Option.bind_some, hdecode, Except.toOption, Option.map_some,
    Option.some.injEq, hread] at hseenBy
  exact absurd hseenBy (by decide)

theorem netmail_reads_back : Encodable asciiLibrary (netmail "SEEN-BY: 1/2\nhello") ∧
      KeepsStructure asciiLibrary (netmail "SEEN-BY: 1/2\nhello") ∧
      ∃ packed decoded,
        encodeMessage asciiLibrary autumnMorning (netmail "SEEN-BY: 1/2\nhello") = .ok packed ∧
          decodeMessage asciiLibrary packed "cp437" = .ok decoded ∧
          ReadsBack asciiLibrary (netmail "SEEN-BY: 1/2\nhello") decoded := by
  have hencodable : Encodable asciiLibrary (netmail "SEEN-BY: 1/2\nhello") := by
    refine ⟨cp437, asciiCodec, _, rfl, rfl, rfl, ?_⟩
    decide +kernel
  have hkeeps : KeepsStructure asciiLibrary (netmail "SEEN-BY: 1/2\nhello") := by
    have hkludge : CleanKludge asciiLibrary ("MSGID".toList, "2:3/4 0001".toList) := by
      have hname : ∀ c ∈ "MSGID".toList, Text.isSpace c = false ∧ c ≠ ':' :=
        all_iff_forall_prop.mp (by decide)
      refine ⟨⟨hname, ?_, ?_, ?_⟩, ?_⟩ <;> decide +kernel
    have hlines : bodyLines (netmail "SEEN-BY: 1/2\nhello") =
        ["SEEN-BY: 1/2".toList, "hello".toList] := by
      decide +kernel
    have hown : ownKludges asciiLibrary (netmail "SEEN-BY: 1/2\nhello").kludges =
        [("MSGID".toList, "2:3/4 0001".toList)] := by
      decide +kernel
    refine ⟨?_, ?_, ?_, ?_, ?_, ?_, ?_, ?_, ?_⟩
    · rw [hown]
      exact forall_mem_singleton.mpr hkludge
    · exact fun kludge hkludge => absurd hkludge not_mem_nil
    · exact fun hne => absurd rfl hne
    · rw [hown]
      intro _ kludge hhead
      obtain rfl := Option.some.inj hhead
      decide
    · exact fun entry hentry => absurd hentry not_mem_nil
    · exact fun entry hentry => absurd hentry not_mem_nil
    · exact fun tear htear => absurd htear (by simp [netmail])
    · exact fun origin horigin => absurd horigin (by simp [netmail])
    · refine ⟨?_, ?_⟩
      · rw [hlines]
        intro line hline
        obtain rfl := Option.some.inj hline
        decide
      · have hvisible : (bodyLines (netmail "SEEN-BY: 1/2\nhello")).rdropWhile isBlankLine =
            ["SEEN-BY: 1/2".toList, "hello".toList] := by
          rw [hlines]
          decide
        rw [hvisible]
        intro line hline
        obtain rfl := Option.some.inj hline
        decide
  exact ⟨hencodable, hkeeps, (decode_encode_iff asciiLibrary asciiLibrary_standard autumnMorning
    (netmail "SEEN-BY: 1/2\nhello") "cp437" hencodable).mpr hkeeps⟩

end NetBBS
