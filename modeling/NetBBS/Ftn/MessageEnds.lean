import NetBBS.Ftn.BodyStructure

/-! # The end of a written message -/

namespace NetBBS

open List Option Text

def writtenContent (message : FtnMessage) : List Text :=
  bodyLines message ++ message.tearLine.toList.map readTearLine ++
    message.origin.toList.map readOriginLine

def EndsAsBody (message : FtnMessage) : Prop :=
  match message.tearLine, message.origin with
  | some _, _ => True
  | none, some _ =>
    ∀ line, (bodyLines message).getLast? = some line → isTearLine line = false
  | none, none =>
    (∀ line, (bodyLines message).getLast? = some line → isSeenByLine line = false) ∧
      ∀ line, ((bodyLines message).rdropWhile isBlankLine).getLast? = some line →
        isTearLine line = false ∧ matchOrigin line = none

structure PeelsTo (message : FtnMessage) (peeled : PeeledContent) : Prop where
  body : visibleLines peeled.body = visibleLines (plain message.body)
  tearLine : peeled.tearLine = message.tearLine
  origin : peeled.origin = message.origin

theorem bodyLines_clean (message : FtnMessage) : ∀ line ∈ bodyLines message,
      ('\n' ∉ line ∧ '\r' ∉ line) ∧ line.head? ≠ some kludgeMark := by
  intro line hline
  unfold bodyLines at hline
  simp only at hline
  split at hline
  · exact absurd hline not_mem_nil
  · obtain ⟨hlf, hin⟩ := splitOn_part hline
    refine ⟨⟨hlf, fun hcr => (mem_plain.mp (hin _ hcr)).2.1 rfl⟩, fun hhead => ?_⟩
    have hmark := mem_plain.mp (hin _ (mem_of_mem_head? (mem_def.mpr hhead)))
    exact hmark.2.2.1 rfl

theorem visibleLines_body (message : FtnMessage) :
    visibleLines (plain message.body) = (bodyLines message).rdropWhile isBlankLine := by
  unfold visibleLines bodyLines
  simp only
  split
  · rename_i hempty
    rw [hempty]
    rfl
  · rfl

private theorem visibleLines_joined (message : FtnMessage) :
    visibleLines ((join '\n' (bodyLines message)).rdropWhile (· = '\n')) =
      visibleLines (plain message.body) := by
  rw [visibleLines_body]
  exact visibleLines_join fun line hline => (bodyLines_clean message line hline).1.1

private theorem matchOrigin_readTearLine (tear : Text) : matchOrigin (readTearLine tear) = none := by
  have hhead := readTearLine_head tear
  unfold matchOrigin
  cases hline : readTearLine tear with
  | nil => rw [hline] at hhead; exact absurd hhead (by simp)
  | cons c rest =>
    rw [hline] at hhead
    obtain rfl : c = '-' := Option.some.inj hhead
    rfl

variable {line : Text}

private theorem not_seenBy_of_head {c : Char} (h : line.head? = some c)
    (hc : c ≠ 'S') : isSeenByLine line = false := by
  cases line with
  | nil => exact absurd h (by simp)
  | cons d rest =>
    obtain rfl : d = c := Option.some.inj h
    have hfirst : ('S' == d) = false := by simpa using Ne.symm hc
    simp [isSeenByLine, startsWith, List.isPrefixOf, hfirst]

private theorem readOriginLine_head (origin : Text) : (readOriginLine origin).head? = some ' ' := by
  rw [readOriginLine_eq]
  rfl

private theorem not_blank_readOriginLine (origin : Text) :
    isBlankLine (readOriginLine origin) = false := by
  have hstart : (" * Origin: ".toList.all Text.isSpace) = false := by decide
  unfold isBlankLine
  rw [readOriginLine_eq, all_append, hstart, Bool.false_and]

variable {message : FtnMessage} {seenBy : List Text}

private theorem peel_origin (origin : Text) (front : List Text)
    (hseenBy : ∀ line ∈ seenBy, isSeenByLine line = true) :
    peelContent (front ++ [readOriginLine origin] ++ seenBy) =
      { seenByLines := seenBy
        origin := some (rstrip (remove '\n' ((plain origin).take 68)))
        tearLine := (peelTear front).1
        body := (join '\n' (peelTear front).2).rdropWhile (· = '\n') } := by
  have hnot := not_seenBy_of_head (readOriginLine_head origin) (by decide)
  rw [peelContent_seenBy hseenBy, peelContent_concat front hnot (not_blank_readOriginLine origin),
    peelOrigin_concat_pos front (matchOrigin_readOriginLine origin)]
  intro line hline
  rw [getLast?_concat, Option.some.injEq] at hline
  exact hline ▸ hnot

private theorem peel_tear (tear : Text) (front : List Text)
    (hseenBy : ∀ line ∈ seenBy, isSeenByLine line = true) :
    peelContent (front ++ [readTearLine tear] ++ seenBy) =
      { seenByLines := seenBy
        origin := none
        tearLine := some (rstrip ((readTearLine tear).drop 4))
        body := (join '\n' front).rdropWhile (· = '\n') } := by
  have hhead := readTearLine_head tear
  have hnot := not_seenBy_of_head hhead (by decide)
  rw [peelContent_seenBy hseenBy,
    peelContent_concat front hnot (isBlankLine_of_head hhead (by decide)),
    peelOrigin_concat_neg front (matchOrigin_readTearLine tear),
    peelTear_concat_pos front (isTearLine_readTearLine tear)]
  intro line hline
  rw [getLast?_concat, Option.some.injEq] at hline
  exact hline ▸ hnot

private theorem peelContent_body_le (content : List Text) :
    ∃ lines, lines <+: (content.rdropWhile isSeenByLine).rdropWhile isBlankLine ∧
      (peelContent content).body = (join '\n' lines).rdropWhile (· = '\n') := by
  have horigin : ∀ content, (peelOrigin content).2 <+: content := by
    intro content
    unfold peelOrigin
    split
    · exact dropLast_prefix content
    · exact prefix_rfl
  have htear : ∀ content, (peelTear content).2 <+: content := by
    intro content
    unfold peelTear
    split
    · split
      · exact dropLast_prefix content
      · exact prefix_rfl
    · exact prefix_rfl
  exact ⟨_, (htear _).trans (horigin _), rfl⟩

private theorem peel_body {content : List Text} (hseenBy : ∀ line ∈ seenBy, isSeenByLine line = true)
    (hlast : ∀ line, content.getLast? = some line → isSeenByLine line = false)
    (hvisible : ∀ line, (content.rdropWhile isBlankLine).getLast? = some line →
      isTearLine line = false ∧ matchOrigin line = none) :
    peelContent (content ++ seenBy) =
      ⟨seenBy, none, none,
        (join '\n' (content.rdropWhile isBlankLine)).rdropWhile (· = '\n')⟩ := by
  have hkept : content.rdropWhile isSeenByLine = content := by
    rw [rdropWhile_eq_self_iff]
    intro hne
    rw [hlast _ (getLast?_eq_some_getLast hne)]
    exact Bool.false_ne_true
  rw [peelContent_seenBy hseenBy hlast]
  unfold peelContent
  simp only [hkept, peelOrigin_of_last fun line hline => (hvisible line hline).2,
    peelTear_of_last fun line hline => (hvisible line hline).1]

theorem peelTear_eq_none_iff (content : List Text) : (peelTear content).1 = none ↔
      ∀ line, content.getLast? = some line → isTearLine line = false := by
  constructor
  · intro h line hline
    unfold peelTear at h
    rw [hline] at h
    simp only at h
    split at h
    · exact absurd h (by simp)
    · rename_i hnot
      exact Bool.eq_false_iff.mpr hnot
  · intro h
    rw [peelTear_of_last h]

theorem peelOrigin_eq_none_iff (content : List Text) : (peelOrigin content).1 = none ↔
      ∀ line, content.getLast? = some line → matchOrigin line = none := by
  constructor
  · intro h line hline
    unfold peelOrigin at h
    rw [hline, bind_some] at h
    cases hmatch : matchOrigin line with
    | none => rfl
    | some text =>
      rw [hmatch] at h
      exact absurd h (by simp)
  · intro h
    rw [peelOrigin_of_last h]

section

variable (hseenBy : ∀ line ∈ seenBy, isSeenByLine line = true)

include hseenBy

private theorem body_ne_of_seenBy
    (hline : (bodyLines message).getLast? = some line) (hlast : isSeenByLine line = true) :
    visibleLines (peelContent (bodyLines message ++ seenBy)).body ≠
      visibleLines (plain message.body) := by
  obtain ⟨front, hfront⟩ := getLast?_eq_some_iff.mp hline
  have hblank : isBlankLine line = false := by
    have hhead : line.head? = some 'S' := by
      have hstarts := isPrefixOf_iff_prefix.mp hlast
      obtain ⟨rest, rfl⟩ := hstarts
      rfl
    exact isBlankLine_of_head hhead (by decide)
  have hbody : visibleLines (plain message.body) = bodyLines message := by
    rw [visibleLines_body, hfront, rdropWhile_concat_neg _ _ _ (by simp [hblank])]
  have hoff : (bodyLines message ++ seenBy).rdropWhile isSeenByLine =
      front.rdropWhile isSeenByLine := by
    have hall : ∀ seenBy : List Text, (∀ line ∈ seenBy, isSeenByLine line = true) →
        (bodyLines message ++ seenBy).rdropWhile isSeenByLine =
          (bodyLines message).rdropWhile isSeenByLine := by
      intro seenBy hseenBy
      induction seenBy using List.reverseRecOn with
      | nil => rw [append_nil]
      | append_singleton rest other ih =>
        rw [← append_assoc, rdropWhile_concat_pos _ _ _ (hseenBy other (by simp)),
          ih fun other hother => hseenBy other (by simp [hother])]
    rw [hall seenBy hseenBy, hfront, rdropWhile_concat_pos _ _ _ hlast]
  obtain ⟨lines, hlines, hjoin⟩ := peelContent_body_le (bodyLines message ++ seenBy)
  rw [hoff] at hlines
  have hin : lines <+: front :=
    hlines.trans ((List.rdropWhile_prefix _ _).trans (List.rdropWhile_prefix _ _))
  have hlf : ∀ other ∈ lines, '\n' ∉ other := by
    intro other hother
    have hmem : other ∈ bodyLines message := by
      rw [hfront]
      exact mem_append_left _ (hin.subset hother)
    exact (bodyLines_clean message other hmem).1.1
  rw [hjoin, visibleLines_join hlf, hbody]
  intro heq
  have hshort : (bodyLines message).length ≤ front.length := by
    rw [← heq]
    exact ((List.rdropWhile_prefix _ _).trans hin).length_le
  rw [hfront, length_append, length_singleton] at hshort
  omega

theorem peelsTo_of_ends (htear : ∀ tear, message.tearLine = some tear → CleanLine tear)
    (horigin : ∀ origin, message.origin = some origin → CleanLine origin ∧ origin.length ≤ 68)
    (hends : EndsAsBody message) :
    PeelsTo message (peelContent (writtenContent message ++ seenBy)) ∧
      (peelContent (writtenContent message ++ seenBy)).seenByLines = seenBy := by
  have hvisible := visibleLines_joined message
  unfold EndsAsBody at hends
  unfold writtenContent
  cases htearLine : message.tearLine with
  | some tear =>
    have hread := (readTearLine_iff tear).mpr (htear tear htearLine)
    cases horiginLine : message.origin with
    | some origin =>
      have htext := (readOriginLine_iff origin).mpr (horigin origin horiginLine)
      have hpeel := peel_origin origin (bodyLines message ++ [readTearLine tear]) hseenBy
      rw [peelTear_concat_pos _ (isTearLine_readTearLine tear), hread, htext] at hpeel
      simp only [toList_some, map_cons, map_nil]
      rw [hpeel]
      exact ⟨⟨hvisible, htearLine.symm, horiginLine.symm⟩, rfl⟩
    | none =>
      have hpeel := peel_tear tear (bodyLines message) hseenBy
      rw [hread] at hpeel
      simp only [toList_some, toList_none, map_cons, map_nil, append_nil]
      rw [hpeel]
      exact ⟨⟨hvisible, htearLine.symm, horiginLine.symm⟩, rfl⟩
  | none =>
    cases horiginLine : message.origin with
    | some origin =>
      simp only [htearLine, horiginLine] at hends
      have htext := (readOriginLine_iff origin).mpr (horigin origin horiginLine)
      have hpeel := peel_origin origin (bodyLines message) hseenBy
      rw [peelTear_of_last hends, htext] at hpeel
      simp only [toList_some, toList_none, map_cons, map_nil, append_nil]
      rw [hpeel]
      exact ⟨⟨hvisible, htearLine.symm, horiginLine.symm⟩, rfl⟩
    | none =>
      simp only [htearLine, horiginLine] at hends
      have hlf : ∀ line ∈ (bodyLines message).rdropWhile isBlankLine, '\n' ∉ line :=
        fun line hline =>
          (bodyLines_clean message line ((List.rdropWhile_prefix _ _).subset hline)).1.1
      simp only [toList_none, map_nil, append_nil]
      rw [peel_body hseenBy hends.1 hends.2]
      refine ⟨⟨?_, htearLine.symm, horiginLine.symm⟩, rfl⟩
      rw [visibleLines_join hlf, rdropWhile_idempotent, visibleLines_body]

theorem ends_of_peelsTo (h : PeelsTo message (peelContent (writtenContent message ++ seenBy))) :
    (∀ tear, message.tearLine = some tear → CleanLine tear) ∧
      (∀ origin, message.origin = some origin → CleanLine origin ∧ origin.length ≤ 68) ∧
      EndsAsBody message := by
  unfold EndsAsBody
  unfold writtenContent at h
  cases htearLine : message.tearLine with
  | some tear =>
    cases horiginLine : message.origin with
    | some origin =>
      have hpeel := peel_origin origin (bodyLines message ++ [readTearLine tear]) hseenBy
      rw [peelTear_concat_pos _ (isTearLine_readTearLine tear)] at hpeel
      simp only [htearLine, horiginLine, toList_some, map_cons, map_nil] at h
      rw [hpeel] at h
      have htear := Option.some.inj (h.tearLine.trans htearLine)
      have horigin := Option.some.inj (h.origin.trans horiginLine)
      refine ⟨?_, ?_, trivial⟩
      · intro _ hsome
        obtain rfl := Option.some.inj hsome
        exact (readTearLine_iff _).mp htear
      · intro _ hsome
        obtain rfl := Option.some.inj hsome
        exact (readOriginLine_iff _).mp horigin
    | none =>
      have hpeel := peel_tear tear (bodyLines message) hseenBy
      simp only [htearLine, horiginLine, toList_some, toList_none, map_cons,
        map_nil, append_nil] at h
      rw [hpeel] at h
      have htear := Option.some.inj (h.tearLine.trans htearLine)
      refine ⟨?_, fun _ hnone => absurd hnone (by simp), trivial⟩
      intro _ hsome
      obtain rfl := Option.some.inj hsome
      exact (readTearLine_iff _).mp htear
  | none =>
    refine ⟨fun _ hnone => absurd hnone (by simp), ?_⟩
    cases horiginLine : message.origin with
    | some origin =>
      have hpeel := peel_origin origin (bodyLines message) hseenBy
      simp only [htearLine, horiginLine, toList_some, toList_none, map_cons,
        map_nil, append_nil] at h
      rw [hpeel] at h
      have horigin := Option.some.inj (h.origin.trans horiginLine)
      refine ⟨?_, (peelTear_eq_none_iff _).mp (h.tearLine.trans htearLine)⟩
      intro _ hsome
      obtain rfl := Option.some.inj hsome
      exact (readOriginLine_iff _).mp horigin
    | none =>
      simp only [htearLine, horiginLine, toList_none, map_nil, append_nil] at h
      have hlast : ∀ line, (bodyLines message).getLast? = some line → isSeenByLine line = false := by
        intro line hline
        rw [Bool.eq_false_iff]
        exact fun hstarts => body_ne_of_seenBy hseenBy hline hstarts h.body
      refine ⟨fun _ hnone => absurd hnone (by simp), hlast, ?_⟩
      have hkept : (bodyLines message).rdropWhile isSeenByLine = bodyLines message := by
        rw [rdropWhile_eq_self_iff]
        intro hne
        rw [hlast _ (getLast?_eq_some_getLast hne)]
        exact Bool.false_ne_true
      rw [peelContent_seenBy hseenBy hlast] at h
      have horigin := h.origin.trans horiginLine
      have htear := h.tearLine.trans htearLine
      unfold peelContent at horigin htear
      simp only [hkept] at horigin htear
      have hmatch := (peelOrigin_eq_none_iff _).mp horigin
      rw [peelOrigin_of_last hmatch] at htear
      have hstarts := (peelTear_eq_none_iff _).mp htear
      exact fun line hline => ⟨hstarts line hline, hmatch line hline⟩

end

end NetBBS
