import NetBBS.Python.Text

/-! # Post bodies -/

namespace NetBBS.PostBody

open List

def esc : Char := Char.ofNat 0x1B

/-- `_INTRODUCER_RE`. -/
def isIntroducer (c : Char) : Bool :=
  c = esc || c.toNat = 0x90 || c.toNat = 0x98 || c.toNat = 0x9B ||
    (0x9D ≤ c.toNat && c.toNat ≤ 0x9F)

def isParameter (c : Char) : Bool := 0x30 ≤ c.toNat && c.toNat ≤ 0x3F

def isIntermediate (c : Char) : Bool := 0x20 ≤ c.toNat && c.toNat ≤ 0x2F

def isSgrChar (c : Char) : Bool := c.isDigit || c = ';'

def sgrParams (params : Text) : Option (List Nat) :=
  if params = [] then some [0]
  else
    let parts := params.splitOn ';'
    if parts.any (fun part => 3 < part.length) = true then none
    else some (parts.map (Nat.ofDigitChars 10 · 0))

/-- How much of a text is the rest of a control sequence, and the parameters of a plain SGR. -/
def consumeCsi (text : Text) : Nat × Option (List Nat) :=
  let params := text.takeWhile isParameter
  let intermediates := (text.drop params.length).takeWhile isIntermediate
  let position := params.length + intermediates.length
  match text.drop position with
  | [] => (position, none)
  | final :: _ =>
    if ¬(0x40 ≤ final.toNat ∧ final.toNat ≤ 0x7E) then (position, none)
    else if final ≠ 'm' ∨ intermediates ≠ [] ∨ params.all isSgrChar = false then
      (position + 1, none)
    else (position + 1, sgrParams params)

def consumeString : Text → Nat
  | [] => 0
  | c :: rest =>
    if c.toNat = 0x07 ∨ c.toNat = 0x9C then 1
    else if c = esc ∧ rest.head? = some '\\' then 2
    else consumeString rest + 1

def consumeEscape (text : Text) : Nat :=
  let position := (text.takeWhile isIntermediate).length
  match text.drop position with
  | [] => position
  | c :: _ => if 0x30 ≤ c.toNat ∧ c.toNat ≤ 0x7E then position + 1 else position

/-- How much of a text belongs to the introducer before it, and the parameters of a plain SGR. -/
def consumeSequence (introducer : Char) (text : Text) : Nat × Option (List Nat) :=
  if introducer = esc then
    match text with
    | [] => (0, none)
    | kind :: rest =>
      if kind = '[' then
        let (position, params) := consumeCsi rest
        (position + 1, params)
      else if kind ∈ [']', 'P', 'X', '^', '_'] then (consumeString rest + 1, none)
      else (consumeEscape text, none)
  else if introducer.toNat = 0x9B then consumeCsi text
  else (consumeString text, none)

inductive Token
  | text (value : Text)
  | sgr (params : List Nat)

/-- `_tokens` from a position on. -/
def tokens (text : Text) : List Token :=
  let before := text.takeWhile fun c => !isIntroducer c
  (if before = [] then [] else [.text before]) ++
    match _found : text.drop before.length with
    | [] => []
    | introducer :: rest =>
      let (position, params) := consumeSequence introducer rest
      (params.map Token.sgr).toList ++ tokens (rest.drop position)
termination_by text.length
decreasing_by
  have hlength := congrArg List.length _found
  simp only [length_drop, length_cons] at hlength ⊢
  omega

def isBidiControl (c : Char) : Bool :=
  (0x202A ≤ c.toNat && c.toNat ≤ 0x202E) || (0x2066 ≤ c.toNat && c.toNat ≤ 0x2069)

/-- `unicodedata.category(char) == "Cc"`. -/
def isControl (c : Char) : Bool := c.toNat < 0x20 || (0x7F ≤ c.toNat && c.toNat ≤ 0x9F)

def sanitizeText (allowNewlines : Bool) (text : Text) : Text :=
  text.filter fun c =>
    c = '\t' || (c = '\n' && allowNewlines) || (!isControl c && !isBidiControl c)

def csi (params : Text) : Text := esc :: '[' :: (params ++ ['m'])

def reset : Text := csi ['0']

def decimal (n : Nat) : Text := Nat.toDigits 10 n

/-- `min(range(count), key=key)`. -/
def firstMin (count : Nat) (key : Nat → Nat) : Nat :=
  (List.range count).foldl (fun best index => if key index < key best then index else best) 0

def cubeLevels : List Nat := [0, 95, 135, 175, 215, 255]

def apart (a b : Nat) : Nat := ((a : Int) - b).natAbs

def squaredDistance (r g b r' g' b' : Nat) : Nat :=
  apart r r' * apart r r' + apart g g' * apart g g' + apart b b' * apart b b'

def nearest256 (r g b : Nat) : Nat :=
  let level (i : Nat) := cubeLevels.getD i 0
  let nearestLevel (v : Nat) := firstMin 6 fun i => apart (level i) v
  let r' := nearestLevel r
  let g' := nearestLevel g
  let b' := nearestLevel b
  let gray := firstMin 24 fun i => apart (3 * (8 + 10 * i)) (r + g + b)
  let value := 8 + 10 * gray
  if squaredDistance r g b (level r') (level g') (level b') ≤
      squaredDistance r g b value value value then 16 + 36 * r' + 6 * g' + b'
  else 232 + gray

/-- `_ALLOWED_CODES`. -/
def isAllowedCode (code : Nat) : Bool :=
  code ∈ [0, 1, 4, 5, 22, 24, 25, 39, 49] || (30 ≤ code && code < 38) || (40 ≤ code && code < 48) ||
    (90 ≤ code && code < 98) || (100 ≤ code && code < 108)

/-- `";".join(kept)`. -/
def codes : List Nat → Text
  | [] => []
  | [code] => decimal code
  | code :: rest => decimal code ++ ';' :: codes rest

/-- What is kept so far, as one sequence. -/
def keptSgr (kept : List Nat) : Text := if kept = [] then [] else csi (codes kept)

/-- `_filtered_sgr` from a parameter on, joined. -/
def filteredSgr (truecolor : Bool) (kept : List Nat) : List Nat → Text
  | [] => keptSgr kept
  | code :: rest =>
    if code = 38 ∨ code = 48 then
      match rest with
      | [] => keptSgr kept
      | mode :: rest =>
        match mode, rest with
        | 5, index :: rest =>
          if index ≤ 255 then filteredSgr truecolor (kept ++ [code, 5, index]) rest
          else keptSgr kept
        | 2, r :: g :: b :: rest =>
          if r ≤ 255 ∧ g ≤ 255 ∧ b ≤ 255 then
            filteredSgr truecolor (kept ++ if truecolor = true then [code, 2, r, g, b]
              else [code, 5, nearest256 r g b]) rest
          else keptSgr kept
        | _, _ => keptSgr kept
    else if code = 0 then keptSgr kept ++ (reset ++ filteredSgr truecolor [] rest)
    else if isAllowedCode code = true then filteredSgr truecolor (kept ++ [code]) rest
    else filteredSgr truecolor kept rest

/-- `re.sub` from a position on, by the length of the match there; `skip` characters of a match
are left. -/
def subFrom (matched : Text → Option Nat) (replace : Text → Text) : Nat → Text → Text
  | _, [] => []
  | skip + 1, _ :: rest => subFrom matched replace skip rest
  | 0, c :: rest =>
    match matched (c :: rest) with
    | some length => replace ((c :: rest).take length) ++ subFrom matched replace (length - 1) rest
    | none => c :: subFrom matched replace 0 rest

/-- A match of `_COLOR_PIPE_RE` starts the text. -/
def startsCode : Text → Bool
  | bar :: tens :: units :: _ =>
    bar = '|' && units.isDigit && (tens = '0' || tens = '1' || (tens = '2' && units ≤ '3'))
  | _ => false

def codeLength (text : Text) : Option Nat := if startsCode text = true then some 3 else none

def cgaToXterm (code : Nat) : Nat :=
  [0, 4, 2, 6, 1, 5, 3, 7].getD (code % 8) 0 + if 8 ≤ code then 8 else 0

def pipeColor (token : Text) : Text :=
  let code := Nat.ofDigitChars 10 token.tail 0
  csi (codes (if code < 16 then [38, 5, cgaToXterm code] else if code = 16 then [49]
    else [48, 5, cgaToXterm (code - 16)]))

def pipeColors : Text → Text := subFrom codeLength pipeColor 0

/-- The length of the match of `_SGR_RE` at the start of a text. -/
def sgrLength : Text → Option Nat
  | c :: '[' :: rest =>
    let params := rest.takeWhile isSgrChar
    if c = esc ∧ (rest.drop params.length).head? = some 'm' then some (params.length + 3) else none
  | _ => none

/-- `_SGR_RE.sub("", text)`. -/
def stripSgr : Text → Text := subFrom sgrLength (fun _ => []) 0

def hasSgr (text : Text) : Bool := text.tails.any fun rest => (sgrLength rest).isSome

def styledToken (truecolor : Bool) : Token → Text
  | .text value => pipeColors (sanitizeText true value)
  | .sgr params => filteredSgr truecolor [] params

/-- `styled_post_body`, its pipe codes as colours. -/
def styledPostBody (truecolor : Bool) (body : Text) : Text :=
  let styled := (tokens body).flatMap (styledToken truecolor)
  if hasSgr styled = true then styled ++ reset else styled

/-- What a token shows. -/
def safeText : Token → Option Text
  | .text value => some (sanitizeText true value)
  | .sgr _ => none

def safeTexts (body : Text) : List Text := (tokens body).filterMap safeText

def postBodyText (body : Text) : Text := (safeTexts body).flatten

def removeCodesFrom : Nat → Text → Text := subFrom codeLength fun _ => []

def removeColorCodes : Text → Text := removeCodesFrom 0

def plainPostBody (body : Text) : Text := removeColorCodes (postBodyText body)

/-- Without its SGR sequences the piece is the words, whatever follows it. -/
def Strips (piece words : Text) : Prop := ∀ rest, stripSgr (piece ++ rest) = words ++ stripSgr rest

variable {piece piece' words words' params text : Text}

theorem strips_nil : Strips [] [] := fun _ => rfl

theorem Strips.append (h : Strips piece words) (h' : Strips piece' words') :
    Strips (piece ++ piece') (words ++ words') := by
  intro rest
  rw [append_assoc, h, h', append_assoc]

theorem Strips.cons {c : Char} (hc : c ≠ esc) (h : Strips piece words) :
    Strips (c :: piece) (c :: words) := by
  intro rest
  have hnone : sgrLength (c :: (piece ++ rest)) = none := by
    unfold sgrLength
    split <;> simp_all
  simp only [cons_append, stripSgr, subFrom, hnone]
  exact congrArg (c :: ·) (h rest)

theorem subFrom_length (rest : Text) : ∀ piece : Text,
    subFrom sgrLength (fun _ => []) piece.length (piece ++ rest) = stripSgr rest
  | [] => rfl
  | _ :: piece => subFrom_length rest piece

theorem strips_csi (h : ∀ c ∈ params, isSgrChar c = true) : Strips (csi params) [] := by
  intro rest
  have htake : (params ++ 'm' :: rest).takeWhile isSgrChar = params := by
    rw [takeWhile_append_of_pos h]
    simp [isSgrChar]
  have hlength : sgrLength (esc :: '[' :: (params ++ 'm' :: rest)) = some (params.length + 3) := by
    simp [sgrLength, htake]
  have hskip := subFrom_length rest ('[' :: (params ++ ['m']))
  simp only [length_cons, length_append, cons_append, append_assoc,
    nil_append] at hskip
  simp only [csi, cons_append, append_assoc, nil_append, stripSgr]
  simp only [subFrom, hlength]
  exact hskip

theorem decimal_sgrChars (n : Nat) : ∀ c ∈ decimal n, isSgrChar c = true := by
  intro c hc
  have hdigit : c.isDigit = true := Nat.isDigit_of_mem_toDigits (by omega) (by omega) hc
  simp [isSgrChar, hdigit]

theorem codes_sgrChars (numbers : List Nat) : ∀ c ∈ codes numbers, isSgrChar c = true := by
  induction numbers with
  | nil => simp [codes]
  | cons code rest ih =>
    cases rest with
    | nil => exact decimal_sgrChars code
    | cons next rest =>
      intro c hc
      simp only [codes, mem_append, mem_cons] at hc
      rcases hc with hc | rfl | hc
      · exact decimal_sgrChars code c hc
      · rfl
      · exact ih c hc

theorem strips_codes (numbers : List Nat) : Strips (csi (codes numbers)) [] :=
  strips_csi (codes_sgrChars numbers)

theorem strips_reset : Strips reset [] := strips_csi (forall_mem_singleton.mpr rfl)

theorem strips_keptSgr (kept : List Nat) : Strips (keptSgr kept) [] := by
  unfold keptSgr
  split
  · exact strips_nil
  · exact strips_codes kept

theorem strips_filteredSgr (truecolor : Bool) (kept params : List Nat) :
    Strips (filteredSgr truecolor kept params) [] := by
  fun_induction filteredSgr truecolor kept params with
  | case8 kept rest _ ih => exact (strips_keptSgr kept).append (strips_reset.append ih)
  | _ => first | assumption | exact strips_keptSgr _

theorem sanitizeText_esc (text : Text) : ∀ c ∈ sanitizeText true text, c ≠ esc := by
  rintro c hc rfl
  exact absurd (mem_filter.mp hc).2 (by decide)

theorem strips_pipeColors (skip : Nat) (htext : ∀ c ∈ text, c ≠ esc) :
    Strips (subFrom codeLength pipeColor skip text) (removeCodesFrom skip text) := by
  unfold removeCodesFrom
  induction text generalizing skip with
  | nil => simpa [subFrom] using strips_nil
  | cons c text ih =>
    have ih := fun skip => ih skip fun d hd => htext d (.tail _ hd)
    match skip with
    | skip + 1 => exact ih skip
    | 0 =>
      simp only [subFrom, codeLength]
      split_ifs
      · exact (strips_codes _).append (ih 2)
      · exact (ih 0).cons (htext c (.head _))

/-- What a body shows with its colours taken out again. -/
def shownWords (tokens : List Token) : Text := ((tokens.filterMap safeText).map removeColorCodes).flatten

theorem strips_tokens (truecolor : Bool) (tokens : List Token) :
    Strips (tokens.flatMap (styledToken truecolor)) (shownWords tokens) := by
  induction tokens with
  | nil => exact strips_nil
  | cons token tokens ih =>
    cases token with
    | text value => exact (strips_pipeColors 0 (sanitizeText_esc value)).append ih
    | sgr params => exact (strips_filteredSgr truecolor [] params).append ih

theorem stripSgr_styledPostBody (truecolor : Bool) (body : Text) :
    stripSgr (styledPostBody truecolor body) = shownWords (tokens body) := by
  have h := strips_tokens truecolor (tokens body)
  unfold styledPostBody
  dsimp only
  split
  · rw [h reset, ← append_nil reset, strips_reset]
    simp [stripSgr, subFrom]
  · simpa [stripSgr, subFrom] using h []

/-- A colour code starts in the text and ends in what follows it. -/
def CodeCrosses (text after : Text) : Prop :=
  ∃ start, start <:+ text ∧ start ≠ [] ∧ start.length < 3 ∧ startsCode (start ++ after) = true

/-- A colour code of the plain text starts in one token and ends in another. -/
def SplitsCode (body : Text) : Prop :=
  ∃ before text after, safeTexts body = before ++ text :: after ∧ CodeCrosses text after.flatten

variable {c : Char} {after : Text}

theorem codeCrosses_cons : CodeCrosses (c :: text) after ↔
    (text.length < 2 ∧ startsCode (c :: (text ++ after)) = true) ∨ CodeCrosses text after := by
  simp only [CodeCrosses, suffix_cons_iff]
  constructor
  · rintro ⟨start, rfl | hsuffix, hne, hlength, hstart⟩
    · exact .inl ⟨Nat.lt_of_succ_lt_succ hlength, hstart⟩
    · exact .inr ⟨start, hsuffix, hne, hlength, hstart⟩
  · rintro (⟨hlength, hstart⟩ | ⟨start, hsuffix, h⟩)
    · exact ⟨_, .inl rfl, cons_ne_nil _ _, Nat.succ_lt_succ hlength, hstart⟩
    · exact ⟨start, .inr hsuffix, h⟩

theorem not_codeCrosses_nil : ¬CodeCrosses [] after := by
  rintro ⟨start, hsuffix, hne, -⟩
  exact hne (suffix_nil.mp hsuffix)

/-- A code goes on with two characters at which no code starts. -/
theorem startsCode_cons (h : startsCode (c :: text) = true) :
    c = '|' ∧ ∃ tens units rest, text = tens :: units :: rest ∧ tens ≠ '|' ∧ units ≠ '|' := by
  match text, h with
  | tens :: units :: rest, h =>
    refine ⟨by simp_all [startsCode], tens, units, rest, rfl, ?_, ?_⟩ <;> rintro rfl
    · simp [startsCode] at h
    · simp [startsCode, Char.isDigit] at h

theorem startsCode_of_ne (h : c ≠ '|') : startsCode (c :: text) = false :=
  Bool.eq_false_iff.mpr fun hstart => h (startsCode_cons hstart).1

/-- `skip` characters of the text are left of a code. -/
def RestsOfCode (skip : Nat) (text : Text) : Prop :=
  skip ≤ text.length ∧ ∀ c ∈ text.take skip, c ≠ '|'

theorem length_removeColorCodes : ∀ {skip : Nat} {text : Text}, RestsOfCode skip text →
    (removeColorCodes text).length = skip + (removeCodesFrom skip text).length
  | 0, _, _ => (Nat.zero_add _).symm
  | skip + 1, [], h => absurd h.1 (Nat.not_succ_le_zero _)
  | skip + 1, c :: text, h => by
    have ih := @length_removeColorCodes skip text
      ⟨Nat.le_of_succ_le_succ h.1, fun d hd => h.2 d (.tail _ hd)⟩
    have hc : startsCode (c :: text) = false := startsCode_of_ne (h.2 c (by simp))
    simp only [removeColorCodes, removeCodesFrom, subFrom, codeLength, hc] at ih ⊢
    simp [ih]
    omega

theorem removeCodesFrom_zero (c : Char) (text : Text) : removeCodesFrom 0 (c :: text) =
    if startsCode (c :: text) = true then removeCodesFrom 2 text
    else c :: removeCodesFrom 0 text := by
  simp only [removeCodesFrom, subFrom, codeLength]
  split_ifs <;> rfl

/-- Two texts lose the same codes apart as together, but for one that crosses from the first into
the second. -/
theorem removeCodesFrom_append (skip : Nat) (h : RestsOfCode skip (text ++ after)) :
    (¬(text.length < skip ∨ CodeCrosses text after) →
      removeCodesFrom skip (text ++ after) = removeCodesFrom skip text ++ removeColorCodes after) ∧
    (text.length < skip ∨ CodeCrosses text after → (removeCodesFrom skip (text ++ after)).length <
      (removeCodesFrom skip text).length + (removeColorCodes after).length) := by
  induction text generalizing skip with
  | nil =>
    match skip with
    | 0 => exact ⟨fun _ => rfl, fun h => h.elim nofun fun h => absurd h not_codeCrosses_nil⟩
    | skip + 1 =>
      refine ⟨fun h => absurd (.inl (Nat.succ_pos skip)) h, fun _ => ?_⟩
      rw [@length_removeColorCodes _ after h]
      exact Nat.lt_add_left _ (Nat.lt_add_of_pos_left (Nat.succ_pos skip))
  | cons c text ih =>
    match skip with
    | skip + 1 =>
      have ih := ih skip
        ⟨Nat.le_of_succ_le_succ h.1, fun d hd => h.2 d (.tail _ hd)⟩
      have hcrosses : (c :: text).length < skip + 1 ∨ CodeCrosses (c :: text) after ↔
          text.length < skip ∨ CodeCrosses text after := by
        rw [codeCrosses_cons, startsCode_of_ne (h.2 c (by simp))]
        simp
      rw [hcrosses]
      exact ih
    | 0 =>
      rw [codeCrosses_cons, cons_append, removeCodesFrom_zero, removeCodesFrom_zero]
      by_cases hstart : startsCode (c :: (text ++ after)) = true
      · obtain ⟨-, tens, units, rest, hrest, htens, hunits⟩ := startsCode_cons hstart
        have ih := ih 2 (by simp [hrest, RestsOfCode, htens, hunits])
        by_cases hshort : text.length < 2
        · have hnone : removeCodesFrom 2 text = [] ∧ startsCode (c :: text) = false :=
            match text, hshort with
            | [], _ | [_], _ => ⟨rfl, rfl⟩
          refine ⟨fun h => absurd (.inr (.inl ⟨hshort, hstart⟩)) h, fun _ => ?_⟩
          have := ih.2 (.inl hshort)
          rw [hnone.1, length_nil] at this
          simp only [if_pos hstart, hnone.2]
          simp
          omega
        · have hown : startsCode (c :: text) = true :=
            match text, hshort, hstart with
            | [], hshort, _ | [_], hshort, _ => absurd (by simp) hshort
            | _ :: _ :: _, _, hstart => hstart
          simpa [hstart, hown, hshort] using ih
      · have hown : ¬startsCode (c :: text) = true :=
          match text, hstart with
          | [], _ | [_], _ => Bool.false_ne_true
          | _ :: _ :: _, hstart => hstart
        have ih := ih 0 ⟨Nat.zero_le _, by simp⟩
        rw [if_neg hstart, if_neg hown]
        refine ⟨fun h => congrArg (c :: ·) (ih.1 (by simpa [hstart] using h)), fun h => ?_⟩
        have := ih.2 (by simpa [hstart] using h)
        simp only [length_cons]
        omega

theorem removeColorCodes_append (text after : Text) :
    (¬CodeCrosses text after →
      removeColorCodes (text ++ after) = removeColorCodes text ++ removeColorCodes after) ∧
    (CodeCrosses text after → (removeColorCodes (text ++ after)).length <
      (removeColorCodes text).length + (removeColorCodes after).length) := by
  simpa [removeColorCodes] using
    @removeCodesFrom_append text after 0 ⟨Nat.zero_le _, by simp⟩

theorem removeColorCodes_flatten_length : ∀ texts : List Text,
    (removeColorCodes texts.flatten).length ≤ (texts.map removeColorCodes).flatten.length
  | [] => le_rfl
  | text :: texts => by
    have ih := removeColorCodes_flatten_length texts
    obtain ⟨hapart, hcross⟩ := removeColorCodes_append text texts.flatten
    by_cases h : CodeCrosses text texts.flatten
    · have := hcross h
      simp only [flatten_cons, map_cons, length_append]
      omega
    · simp only [flatten_cons, map_cons, hapart h, length_append]
      omega

theorem removeColorCodes_flatten_iff (texts : List Text) :
    (texts.map removeColorCodes).flatten = removeColorCodes texts.flatten ↔
      ¬∃ before text after, texts = before ++ text :: after ∧ CodeCrosses text after.flatten := by
  induction texts with
  | nil => exact iff_of_true rfl (by simp)
  | cons text texts ih =>
    obtain ⟨hapart, hcross⟩ := removeColorCodes_append text texts.flatten
    have hlength := removeColorCodes_flatten_length texts
    have hsplit : (∃ before here after, text :: texts = before ++ here :: after ∧
        CodeCrosses here after.flatten) ↔ CodeCrosses text texts.flatten ∨
        ∃ before here after, texts = before ++ here :: after ∧ CodeCrosses here after.flatten := by
      constructor
      · rintro ⟨_ | ⟨first, before⟩, here, after, heq, h⟩
        · obtain ⟨rfl, rfl⟩ := List.cons.inj heq
          exact .inl h
        · exact .inr ⟨before, here, after, (List.cons.inj heq).2, h⟩
      · rintro (h | ⟨before, here, after, rfl, h⟩)
        · exact ⟨[], text, texts, rfl, h⟩
        · exact ⟨text :: before, here, after, rfl, h⟩
    rw [hsplit, not_or, ← ih, map_cons, flatten_cons, flatten_cons]
    constructor
    · intro heq
      have hnot : ¬CodeCrosses text texts.flatten := by
        intro h
        have hlong := congrArg List.length heq
        have hshort := hcross h
        rw [length_append] at hlong
        omega
      rw [hapart hnot] at heq
      exact ⟨hnot, append_cancel_left heq⟩
    · rintro ⟨hnot, heq⟩
      rw [hapart hnot, heq]

/-- Readers with and without colour read the same words exactly when no colour code of the plain
text is split between two tokens. -/
theorem stripSgr_eq_plainPostBody_iff (truecolor : Bool) (body : Text) :
    stripSgr (styledPostBody truecolor body) = plainPostBody body ↔ ¬SplitsCode body := by
  rw [stripSgr_styledPostBody]
  exact removeColorCodes_flatten_iff (safeTexts body)

/-- `|`, a colour and `04x`: without colour the code goes, with colour it stays as text. -/
def splitBody : Text := '|' :: (csi ['3', '1'] ++ ['0', '4', 'x'])

theorem tokens_splitBody : tokens splitBody = [.text ['|'], .sgr [31], .text ['0', '4', 'x']] := by
  have hrest : tokens ['0', '4', 'x'] = [.text ['0', '4', 'x']] := by
    rw [tokens]
    rfl
  rw [tokens]
  exact congrArg (fun rest => Token.text ['|'] :: Token.sgr [31] :: rest) hrest

theorem splitBody_differs : ¬∀ truecolor, ∀ body,
    stripSgr (styledPostBody truecolor body) = plainPostBody body := by
  intro h
  have hsplit := h true splitBody
  rw [stripSgr_styledPostBody, shownWords, plainPostBody, postBodyText, safeTexts,
    tokens_splitBody] at hsplit
  exact absurd hsplit (by decide)

end NetBBS.PostBody
