import NetBBS.Ftn.KludgeLines

/-! # What a caller typed and what is structure -/

namespace NetBBS

open Foundation List Option Text

variable {lib : TextLibrary}

structure CleanLine (text : Text) : Prop where
  plain : plain text = text
  lf : '\n' ∉ text
  rstrip : rstrip text = text

variable {line text : Text} {content : List Text}

theorem mem_plain {c : Char} :
    c ∈ plain text ↔ c ∈ text ∧ c ≠ '\r' ∧ c ≠ kludgeMark ∧ c ≠ '\x00' := by
  simp [plain, and_assoc]

theorem cleanLine_of_line {original : Text} (hline : ∀ c ∈ line, c ∈ plain original)
    (h : rstrip (remove '\n' line) = text) : CleanLine text := by
  have hin : ∀ c ∈ text, c ∈ plain original ∧ c ≠ '\n' := by
    intro c hc
    obtain ⟨hmem, hlf⟩ := mem_remove.mp (mem_of_mem_rstrip (h ▸ hc))
    exact ⟨hline c hmem, hlf⟩
  refine ⟨filter_eq_self.mpr fun c hc => ?_, fun hmem => (hin _ hmem).2 rfl, ?_⟩
  · obtain ⟨-, hcr, hmark, hnul⟩ := mem_plain.mp (hin c hc).1
    simp [hcr, hmark, hnul]
  · rw [← h, rstrip_idempotent]

def readTearLine (tear : Text) : Text :=
  remove '\n' (rstrip ("--- ".toList ++ plain tear))

def readOriginLine (origin : Text) : Text :=
  remove '\n' ((" * Origin: ".toList ++ plain origin).take maxOriginLine)

theorem readTearLine_eq (tear : Text) : readTearLine tear =
      if rstrip (plain tear) = [] then "---".toList
      else "--- ".toList ++ remove '\n' (rstrip (plain tear)) := by
  unfold readTearLine
  rw [rstrip_append]
  split
  · decide
  · rw [remove_append]
    rfl

theorem readTearLine_head (tear : Text) : (readTearLine tear).head? = some '-' := by
  rw [readTearLine_eq]
  split <;> rfl

theorem isTearLine_readTearLine (tear : Text) : isTearLine (readTearLine tear) = true := by
  rw [readTearLine_eq]
  split
  · decide
  · simp [isTearLine, startsWith]

theorem readTearLine_iff (tear : Text) :
    rstrip ((readTearLine tear).drop 4) = tear ↔ CleanLine tear := by
  rw [readTearLine_eq]
  split
  · rename_i hblank
    constructor
    · intro h
      have htear : tear = [] := h.symm.trans (by decide)
      subst htear
      exact ⟨rfl, not_mem_nil, rfl⟩
    · intro hclean
      have htear : tear = [] := by
        rw [hclean.plain, hclean.rstrip] at hblank
        exact hblank
      subst htear
      rfl
  · have hdrop : ("--- ".toList ++ remove '\n' (rstrip (plain tear))).drop 4 =
        remove '\n' (rstrip (plain tear)) := rfl
    rw [hdrop]
    constructor
    · exact cleanLine_of_line fun c hc => mem_of_mem_rstrip hc
    · intro hclean
      rw [hclean.plain, hclean.rstrip, remove_eq_self hclean.lf, hclean.rstrip]

theorem readOriginLine_eq (origin : Text) : readOriginLine origin =
      " * Origin: ".toList ++ remove '\n' ((plain origin).take 68) := by
  unfold readOriginLine
  have htake : (" * Origin: ".toList ++ plain origin).take maxOriginLine =
      " * Origin: ".toList ++ (plain origin).take 68 := rfl
  rw [htake, remove_append]
  rfl

theorem matchOrigin_readOriginLine (origin : Text) :
    matchOrigin (readOriginLine origin) = some (remove '\n' ((plain origin).take 68)) := by
  rw [readOriginLine_eq]
  simp [matchOrigin, startsWith]

theorem readOriginLine_iff (origin : Text) :
    rstrip (remove '\n' ((plain origin).take 68)) = origin ↔
      CleanLine origin ∧ origin.length ≤ 68 := by
  constructor
  · intro h
    refine ⟨cleanLine_of_line (fun c hc => mem_of_mem_take hc) h, ?_⟩
    have hlength : (rstrip (remove '\n' ((plain origin).take 68))).length ≤ 68 :=
      ((List.rdropWhile_prefix _ _).length_le.trans (length_filter_le _ _)).trans
        (length_take_le _ _)
    rwa [h] at hlength
  · rintro ⟨hclean, hlength⟩
    rw [hclean.plain, take_of_length_le hlength, remove_eq_self hclean.lf, hclean.rstrip]

def visibleLines (body : Text) : List Text := (body.splitOn '\n').rdropWhile isBlankLine

theorem visibleLines_join {lines : List Text} (h : ∀ line ∈ lines, '\n' ∉ line) :
    visibleLines ((join '\n' lines).rdropWhile (· = '\n')) = lines.rdropWhile isBlankLine := by
  induction lines using List.reverseRecOn with
  | nil => rfl
  | append_singleton front line ih =>
    have hfront : ∀ line ∈ front, '\n' ∉ line := fun other hother => h other (by simp [hother])
    have hsplit : (join '\n' (front ++ [line])).splitOn '\n' = front ++ [line] :=
      splitOn_intercalate '\n' h (by simp)
    by_cases hline : line = []
    · -- An empty last line is only the line feed before it.
      subst hline
      rw [rdropWhile_concat_pos _ _ _ (by rfl), ← ih hfront]
      by_cases hempty : front = []
      · subst hempty
        rfl
      · rw [join_snoc [] hempty, rdropWhile_concat_pos _ _ _ (by simp)]
    · have hlast : (join '\n' (front ++ [line])).getLast? = line.getLast? := by
        by_cases hempty : front = []
        · subst hempty
          simp [Text.join]
        · rw [Text.join_snoc line hempty, getLast?_append_of_ne_nil _ (by simp),
            getLast?_cons, getLast?_eq_some_getLast hline, getD_some]
      have hkept : (Text.join '\n' (front ++ [line])).rdropWhile (· = '\n') =
          join '\n' (front ++ [line]) := by
        rw [rdropWhile_eq_self_iff]
        intro hne
        rw [getLast?_eq_some_getLast hne] at hlast
        have hmem := mem_of_getLast? hlast.symm
        have hlf := h line (by simp)
        simpa using fun heq : _ = '\n' => hlf (heq ▸ hmem)
      unfold visibleLines
      rw [hkept, hsplit]

theorem isBlankLine_of_head {c : Char} (h : line.head? = some c)
    (hc : Text.isSpace c = false) : isBlankLine line = false := by
  cases line with
  | nil => exact absurd h (by simp)
  | cons d rest =>
    obtain rfl : d = c := Option.some.inj h
    simp [isBlankLine, hc]

theorem peelContent_seenBy {seenBy : List Text} (hseenBy : ∀ line ∈ seenBy, isSeenByLine line = true)
    (hlast : ∀ line, content.getLast? = some line → isSeenByLine line = false) :
    peelContent (content ++ seenBy) = { peelContent content with seenByLines := seenBy } := by
  have htake : (content ++ seenBy).rtakeWhile isSeenByLine = seenBy := by
    induction seenBy using List.reverseRecOn with
    | nil =>
      rw [append_nil, rtakeWhile_eq_nil_iff]
      intro hne
      rw [hlast _ (getLast?_eq_some_getLast hne)]
      exact Bool.false_ne_true
    | append_singleton front line ih =>
      rw [← append_assoc, rtakeWhile_concat_pos _ _ _ (hseenBy line (by simp)),
        ih fun other hother => hseenBy other (by simp [hother])]
  have hdrop : (content ++ seenBy).rdropWhile isSeenByLine = content := by
    have hboth : (content ++ seenBy).rdropWhile isSeenByLine ++
        (content ++ seenBy).rtakeWhile isSeenByLine = content ++ seenBy :=
      rdropWhile_append_rtakeWhile
    rw [htake] at hboth
    exact append_cancel_right hboth
  have hsame : content.rdropWhile isSeenByLine = content := by
    rw [rdropWhile_eq_self_iff]
    intro hne
    rw [hlast _ (getLast?_eq_some_getLast hne)]
    exact Bool.false_ne_true
  unfold peelContent
  simp only [htake, hdrop, hsame]

theorem peelContent_concat (front : List Text) (hseenBy : isSeenByLine line = false)
    (hblank : isBlankLine line = false) :
    peelContent (front ++ [line]) =
      { seenByLines := []
        origin := (peelOrigin (front ++ [line])).1
        tearLine := (peelTear (peelOrigin (front ++ [line])).2).1
        body := (join '\n' (peelTear (peelOrigin (front ++ [line])).2).2).rdropWhile
          (· = '\n') } := by
  unfold peelContent
  rw [rtakeWhile_concat_neg _ _ _ (by simp [hseenBy]),
    rdropWhile_concat_neg _ _ _ (by simp [hseenBy]),
    rdropWhile_concat_neg _ _ _ (by simp [hblank])]

theorem peelOrigin_concat_pos (front : List Text) (h : matchOrigin line = some text) :
    peelOrigin (front ++ [line]) = (some (rstrip text), front) := by
  unfold peelOrigin
  rw [getLast?_concat, bind_some, h, dropLast_concat]

theorem peelOrigin_concat_neg (front : List Text) (h : matchOrigin line = none) :
    peelOrigin (front ++ [line]) = (none, front ++ [line]) := by
  unfold peelOrigin
  rw [getLast?_concat, bind_some, h]

theorem peelTear_concat_pos (front : List Text) (h : isTearLine line = true) :
    peelTear (front ++ [line]) = (some (rstrip (line.drop 4)), front) := by
  unfold peelTear
  rw [getLast?_concat]
  simp only [if_pos h, dropLast_concat]

theorem peelTear_of_last (h : ∀ line, content.getLast? = some line → isTearLine line = false) :
    peelTear content = (none, content) := by
  unfold peelTear
  cases hlast : content.getLast? with
  | none => rfl
  | some line => simp [h line hlast]

theorem peelOrigin_of_last (h : ∀ line, content.getLast? = some line → matchOrigin line = none) :
    peelOrigin content = (none, content) := by
  unfold peelOrigin
  cases hlast : content.getLast? with
  | none => rfl
  | some line => simp [h line hlast]

end NetBBS
