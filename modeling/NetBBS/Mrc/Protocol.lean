import NetBBS.Rendering.PostBody

/-! # MRC packets -/

namespace NetBBS.Mrc

open List PostBody Text

def maxLine : Nat := 512
def maxName : Nat := 30
def maxRoom : Nat := 20

def csiLength : Text → Option Nat
  | '[' :: rest =>
    let params := (rest.takeWhile isParameter).length
    let length := params + ((rest.drop params).takeWhile isIntermediate).length
    match rest.drop length with
    | final :: _ => if '@' ≤ final ∧ final ≤ '~' then some (length + 2) else none
    | [] => none
  | _ => none

def oscLength : Text → Option Nat
  | ']' :: rest =>
    let length := (rest.takeWhile fun c => c ≠ '\x07' && c ≠ esc).length
    match rest.drop length with
    | '\x07' :: _ => some (length + 2)
    | _ :: '\\' :: _ => some (length + 3)
    | _ => none
  | _ => none

def escapeLength (text : Text) : Option Nat :=
  let length := (text.takeWhile isIntermediate).length
  match text.drop length with
  | c :: _ => if '0' ≤ c ∧ c ≤ '~' then some (length + 1) else none
  | [] => none

/-- The length of the match of `ANSI_ESCAPE_RE` at the start of a text. -/
def ansiLength : Text → Option Nat
  | c :: rest =>
    if c = esc then ((csiLength rest <|> oscLength rest) <|> escapeLength rest).map (· + 1) else none
  | [] => none

def stripAnsi : Text → Text := subFrom ansiLength (fun _ => []) 0

/-- The length of the match of `_PIPE_TOKEN_RE` at the start of a text. -/
def pipeLength : Text → Option Nat
  | '|' :: a :: b :: _ => if a.isAlphanum = true ∧ b.isAlphanum = true then some 3 else none
  | _ => none

def stripPipeCodes : Text → Text := subFrom pipeLength (fun _ => []) 0

def keepColor (token : Text) : Text :=
  if token.tail.all Char.isDigit = true ∧ Nat.ofDigitChars 10 token.tail 0 < 24 then token else []

def stripNonColorPipeCodes : Text → Text := subFrom pipeLength keepColor 0

def printable (low : Nat) (text : Text) : Text :=
  text.map fun c => if low ≤ c.toNat ∧ c.toNat ≤ 125 then c else '?'

def clean (text : Text) : Text :=
  (sanitizeText false (stripAnsi text)).map fun c => if c = '~' then ' ' else c

/-- The length of the match of `_WHITESPACE_RE` at the start of a text. -/
def spaceLength (text : Text) : Option Nat :=
  let length := (text.takeWhile Text.isSpace).length
  if length = 0 then none else some length

def nameChars (name : Text) : Text :=
  (subFrom spaceLength (fun _ => ['_']) 0 (strip (stripPipeCodes (clean name)))).filter
    fun c => 33 ≤ c.toNat && c.toNat ≤ 125

def sanitizeName (name : Text) : Text := (nameChars name).take maxName

def roomChars (room : Text) : Text :=
  match nameChars room with
  | '#' :: rest => rest
  | cleaned => cleaned

def sanitizeRoom (room : Text) : Text := (roomChars room).take maxRoom

structure MrcPacket where
  fromUser : Text
  fromSite : Text
  fromRoom : Text
  toUser : Text
  msgExt : Text
  toRoom : Text
  body : Text

def MrcPacket.fields (p : MrcPacket) : List Text :=
  [p.fromUser, p.fromSite, p.fromRoom, p.toUser, p.msgExt, p.toRoom, p.body]

section

variable (upper : Text → Text)

def fromRoomField (packet : MrcPacket) : Text :=
  if upper packet.fromUser = "CLIENT".toList then (nameChars packet.fromRoom).take 128
  else sanitizeRoom packet.fromRoom

/-- The fields of `build_line`. -/
def wireFields (packet : MrcPacket) : List Text :=
  [sanitizeName packet.fromUser, sanitizeName packet.fromSite, fromRoomField upper packet,
    sanitizeName packet.toUser, sanitizeName packet.msgExt, sanitizeRoom packet.toRoom,
    printable 32 (clean packet.body)]

def wireLine (packet : MrcPacket) : Text := join '~' (wireFields upper packet) ++ ['~', '\n']

def buildLine (packet : MrcPacket) : Except String Text :=
  if maxLine < (wireLine upper packet).length then .error "packet exceeds 512 bytes"
  else .ok (wireLine upper packet)

def isControl (fromUser : Text) : Bool :=
  let name := upper (strip (stripPipeCodes fromUser))
  name = "SERVER".toList ∨ name = "CLIENT".toList

def parseLine (line : Text) : Option MrcPacket :=
  let stripped := line.rdropWhile fun c => c = '\r' || c = '\n'
  if stripped = [] then none
  else
    let stripped := if stripped.getLast? = some '~' then stripped.dropLast else stripped
    match stripped.splitOn '~' with
    | fromUser :: fromSite :: fromRoom :: toUser :: msgExt :: toRoom :: body =>
      if body = [] then none
      else
        let cleaned := fun field => strip (sanitizeText false (stripAnsi field))
        let name := fun field limit => (stripPipeCodes (cleaned field)).take limit
        some
          { fromUser := name fromUser maxName
            fromSite := name fromSite maxName
            fromRoom := name fromRoom (if isControl upper (cleaned fromUser) = true then 128 else maxRoom)
            toUser := name toUser maxName
            msgExt := name msgExt maxName
            toRoom := name toRoom maxRoom
            body := (stripNonColorPipeCodes (cleaned (join ' ' body))).take maxLine }
    | _ => none

/-- The packet as its written line reads: a pipe code left by one that was taken out goes now. -/
def reread (packet : MrcPacket) : MrcPacket :=
  let name := fun field => stripPipeCodes (sanitizeName field)
  { fromUser := name packet.fromUser
    fromSite := name packet.fromSite
    fromRoom := (stripPipeCodes (fromRoomField upper packet)).take
      (if isControl upper (sanitizeName packet.fromUser) = true then 128 else maxRoom)
    toUser := name packet.toUser
    msgExt := name packet.msgExt
    toRoom := stripPipeCodes (sanitizeRoom packet.toRoom)
    body := stripNonColorPipeCodes (strip (printable 32 (clean packet.body))) }

end

section

variable {matched : Text → Option Nat} {replace : Text → Text} {text : Text} {c : Char}

theorem subFrom_eq_self (h : ∀ c ∈ text, ∀ rest, matched (c :: rest) = none) :
    subFrom matched replace 0 text = text := by
  induction text with
  | nil => rfl
  | cons c text ih =>
    rw [subFrom, h c (.head _)]
    exact congrArg (c :: ·) (ih fun d hd => h d (.tail _ hd))

theorem subFrom_sublist (h : ∀ token, replace token <+ token) (skip : Nat) :
    subFrom matched replace skip text <+ text.drop skip := by
  induction text generalizing skip with
  | nil => simp [subFrom]
  | cons d text ih =>
    cases skip with
    | succ skip => exact ih skip
    | zero =>
      rw [subFrom]
      split
      · next length _ =>
        have happend := (h ((d :: text).take length)).append (ih (length - 1))
        cases length with
        | zero => exact happend.trans (sublist_cons_self d text)
        | succ length => simpa using happend
      · exact (ih 0).cons_cons d

theorem strip_sublist (text : Text) : strip text <+ text :=
  ( rdropWhile_prefix _ _).sublist.trans (dropWhile_suffix _).sublist

/-- A field that is written as it stands. -/
def Plain (low : Nat) (field : Text) : Prop := ∀ c ∈ field, low ≤ c.toNat ∧ c.toNat ≤ 125

theorem plain_nameChars (name : Text) : Plain 33 (nameChars name) := by
  intro c hc
  simpa using (mem_filter.mp hc).2

theorem Plain.take {low n : Nat} (h : Plain low text) : Plain low (text.take n) :=
  fun c hc => h c (mem_of_mem_take hc)

theorem Plain.weaken (h : Plain 33 text) : Plain 32 text :=
  fun c hc => ⟨Nat.le_of_succ_le (h c hc).1, (h c hc).2⟩

theorem plain_sanitizeRoom (room : Text) : Plain 33 (sanitizeRoom room) := by
  refine Plain.take ?_
  have hname := plain_nameChars room
  unfold roomChars
  split
  · next hcut => exact fun c hc => hname c (hcut ▸ .tail _ hc)
  · exact hname

theorem plain_printable (text : Text) : Plain 32 (printable 32 text) := by
  intro c hc
  obtain ⟨d, -, rfl⟩ := mem_map.mp hc
  split
  · assumption
  · decide

theorem plain_fromRoomField (upper : Text → Text) (packet : MrcPacket) :
    Plain 33 (fromRoomField upper packet) := by
  unfold fromRoomField
  split
  · exact (plain_nameChars _).take
  · exact plain_sanitizeRoom _

theorem plain_wireFields (upper : Text → Text) (packet : MrcPacket) :
    ∀ field ∈ wireFields upper packet, Plain 32 field := by
  have hname := fun name => ((plain_nameChars name).take (n := maxName)).weaken
  simp only [wireFields, forall_mem_cons, not_mem_nil, false_implies, implies_true, and_true]
  exact ⟨hname _, hname _, (plain_fromRoomField upper packet).weaken, hname _, hname _,
    (plain_sanitizeRoom _).weaken, plain_printable _⟩

theorem sanitizeText_plain (h : Plain 32 text) : sanitizeText false (stripAnsi text) = text := by
  have hansi : stripAnsi text = text := subFrom_eq_self fun c hc rest => by
    have hne : c ≠ esc := by
      rintro rfl
      exact absurd (h _ hc).1 (by decide)
    simp [ansiLength, hne]
  rw [hansi, sanitizeText, filter_eq_self]
  intro c hc
  have hplain := h c hc
  simp [PostBody.isControl, isBidiControl]
  omega

theorem strip_plain (h : Plain 33 text) : strip text = text := by
  have hspace : ∀ c ∈ text, Text.isSpace c = false := by
    intro c hc
    have hplain := h c hc
    simp [Text.isSpace]
    omega
  rw [strip, lstrip_eq_self fun c hc => hspace c (mem_of_head? hc)]
  exact rstrip_eq_self fun c hc => hspace c (mem_of_getLast? hc)

theorem take_stripPipeCodes (text : Text) {n : Nat} (h : text.length ≤ n) :
    (stripPipeCodes text).take n = stripPipeCodes text :=
  take_of_length_le ((subFrom_sublist (fun _ => nil_sublist _) 0).length_le.trans h)

theorem keepColor_sublist (token : Text) : keepColor token <+ token := by
  unfold keepColor
  split
  · exact .refl _
  · exact nil_sublist _

end

theorem parse_wireLine (upper : Text → Text) (packet : MrcPacket)
    (hlength : (wireLine upper packet).length ≤ maxLine) :
    parseLine upper (wireLine upper packet) = some (reread upper packet) := by
  have hplain := plain_wireFields upper packet
  have hsplit : (join '~' (wireFields upper packet)).splitOn '~' = wireFields upper packet :=
    splitOn_intercalate '~' (fun field hfield hmem => absurd (hplain field hfield _ hmem).2 (by decide))
      (cons_ne_nil _ _)
  have hend : (wireLine upper packet).rdropWhile (fun c => c = '\r' || c = '\n') =
      join '~' (wireFields upper packet) ++ ['~'] := by
    rw [wireLine, append_cons, rdropWhile_concat_pos _ _ _ (by decide),
      rdropWhile_concat_neg _ _ _ (by decide)]
  unfold parseLine
  simp only [hend]
  rw [if_neg (by simp), if_pos (by simp), dropLast_concat, hsplit]
  have hname : ∀ {field}, Plain 33 field → strip (sanitizeText false (stripAnsi field)) = field :=
    fun h => by rw [sanitizeText_plain h.weaken, strip_plain h]
  have hshort : ∀ name, (stripPipeCodes (sanitizeName name)).take maxName =
      stripPipeCodes (sanitizeName name) :=
    fun name => take_stripPipeCodes _ (length_take_le _ _)
  have hbody : (stripNonColorPipeCodes (strip (printable 32 (clean packet.body)))).take maxLine =
      stripNonColorPipeCodes (strip (printable 32 (clean packet.body))) := by
    refine take_of_length_le ((subFrom_sublist keepColor_sublist 0).length_le.trans ?_)
    refine (strip_sublist _).length_le.trans ?_
    simp only [wireLine, wireFields, join, intercalate, intersperse, flatten_cons, flatten_nil,
      length_append, length_cons, length_nil] at hlength
    omega
  simp only [wireFields, cons_ne_nil, if_false, hname (plain_nameChars _).take,
    hname (plain_fromRoomField upper packet), hname (plain_sanitizeRoom _), sanitizeName, join,
    intercalate_singleton, sanitizeText_plain (plain_printable _), hbody]
  simp only [reread, ← sanitizeName.eq_def, hshort]
  rw [take_stripPipeCodes (sanitizeRoom packet.toRoom) (length_take_le _ _)]

/-- A text that does not move the terminal it is shown on. -/
def Inert (text : Text) : Prop :=
  ∀ c ∈ text, c = '\t' ∨ PostBody.isControl c = false ∧ isBidiControl c = false

theorem inert_read {replace : Text → Text} (h : ∀ token, replace token <+ token) (field : Text)
    {n : Nat} (hn : n ≤ maxLine) :
    let read := (subFrom pipeLength replace 0 (strip (sanitizeText false (stripAnsi field)))).take n
    read.length ≤ maxLine ∧ Inert read := by
  refine ⟨(length_take_le _ _).trans hn, fun c hc => ?_⟩
  have hclean := ((subFrom_sublist h 0).trans (strip_sublist _)).subset (mem_of_mem_take hc)
  simpa [sanitizeText] using (mem_filter.mp hclean).2

/-- Whatever is on the line, no field of the packet read from it moves a reader's terminal. -/
theorem parseLine_inert (upper : Text → Text) (line : Text) :
    match parseLine upper line with
    | none => True
    | some packet => ∀ field ∈ packet.fields, field.length ≤ maxLine ∧ Inert field := by
  have hname := fun {n : Nat} (hn : n ≤ maxLine) field => inert_read (fun _ => nil_sublist _) field hn
  have hshort : maxName ≤ maxLine := by decide
  cases hread : parseLine upper line with
  | none => trivial
  | some packet =>
    unfold parseLine at hread
    dsimp only at hread
    split at hread
    · cases hread
    split at hread
    · split at hread
      · cases hread
      cases hread
      simp only [MrcPacket.fields, forall_mem_cons, not_mem_nil, false_implies, implies_true, and_true]
      refine ⟨hname hshort _, hname hshort _, hname ?_ _, hname hshort _, hname hshort _,
        hname (by decide) _, inert_read keepColor_sublist _ (Nat.le_refl _)⟩
      split <;> decide
    · cases hread

end NetBBS.Mrc
