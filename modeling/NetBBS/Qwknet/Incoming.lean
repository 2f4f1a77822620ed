import NetBBS.Foundation.Dict
import NetBBS.Python.DateTime
import NetBBS.Python.SpacedJson
import NetBBS.Python.Text

/-! # A message on its way in -/

namespace NetBBS.Qwknet

open Foundation WireJson List

abbrev Number := Fin 1000000000

def toNumber (n : Nat) : Number := ⟨n % 1000000000, Nat.mod_lt n (Nat.succ_pos 999999999)⟩

/-- `Incoming`; `decode` leaves no lone surrogate in a text. -/
structure Incoming where
  conference : Number
  number : Option Number
  when : Option DateTime
  toName : Text
  sender : Text
  subject : Text
  body : Text
  reference : Option Number
  isPrivate : Bool
  headers : Dict Text Text
  status : Char

/-- `n` with leading zeros. -/
def padded : Nat → Nat → Text
  | 0, _ => []
  | width + 1, n => padded width (n / 10) ++ [Nat.digitChar (n % 10)]

def numeral (digits : Text) : Nat := digits.foldl (fun n c => 10 * n + (c.toNat - 0x30)) 0

/-- `datetime.isoformat` of a moment without a zone. -/
def isoformat (moment : DateTime) : Text :=
  padded 4 moment.year ++ '-' :: (padded 2 moment.month ++ '-' :: (padded 2 moment.day ++ 'T' ::
    (padded 2 moment.hour ++ ':' :: (padded 2 moment.minute ++ ':' :: (padded 2 moment.second ++
      if moment.microsecond = 0 then [] else '.' :: padded 6 moment.microsecond)))))

def ofIsoformat (text : Text) : Option DateTime :=
  let field (start width : Nat) : Nat := numeral ((text.drop start).take width)
  if exist : IsDateTime (field 0 4) (field 5 2) (field 8 2) (field 11 2) (field 14 2) (field 17 2) (field 20 6) then
    let moment : DateTime := ⟨field 0 4, field 5 2, field 8 2, field 11 2, field 14 2, field 17 2, field 20 6, exist⟩
    if isoformat moment = text then some moment else none
  else none

/-- `datetime.fromisoformat`; `other` reads the spellings that `isoformat` does not write. -/
def fromIsoformat (other : Text → Option DateTime) (text : Text) : Option DateTime :=
  (ofIsoformat text).or (other text)

theorem length_padded (width n : Nat) : (padded width n).length = width := by
  induction width generalizing n with
  | zero => rfl
  | succ width ih => rw [padded, length_append, ih, length_singleton]

theorem numeral_padded {width n : Nat} (h : n < 10 ^ width) : numeral (padded width n) = n := by
  induction width generalizing n with
  | zero =>
    rw [Nat.pow_zero] at h
    have hzero : n = 0 := by omega
    rw [hzero]
    rfl
  | succ width ih =>
    have hdigit : ∀ d < 10, (Nat.digitChar d).toNat - 0x30 = d := by decide
    have hshort : n / 10 < 10 ^ width := by
      rw [Nat.pow_succ] at h
      omega
    have hprefix := ih hshort
    unfold numeral at hprefix ⊢
    rw [padded, foldl_append, hprefix, foldl_cons, foldl_nil,
      hdigit _ (Nat.mod_lt _ (by omega))]
    omega

theorem numeral_take {width n : Nat} (h : n < 10 ^ width) (rest : Text) :
    numeral ((padded width n ++ rest).take width) = n := by
  have htake : (padded width n ++ rest).take (padded width n).length = padded width n := take_left
  rw [length_padded] at htake
  rw [htake, numeral_padded h]

theorem drop_padded (width n more : Nat) (mark : Char) (rest : Text) :
    (padded width n ++ mark :: rest).drop (width + 1 + more) = rest.drop more := by
  rw [drop_append, length_padded, drop_of_length_le (by rw [length_padded]; omega), nil_append,
    show width + 1 + more - width = more + 1 by omega, drop_succ_cons]

theorem daysInMonth_le (year month : Nat) : daysInMonth year month ≤ 31 := by
  unfold daysInMonth
  split
  · split <;> omega
  all_goals omega

theorem ofIsoformat_isoformat (moment : DateTime) : ofIsoformat (isoformat moment) = some moment := by
  obtain ⟨⟨-, hyear⟩, ⟨-, hmonth⟩, ⟨-, hday⟩, hhour, hminute, hsecond, hmicro⟩ := moment.exist
  have hday' := hday.trans (daysInMonth_le _ _)
  have hdrop : ∀ more, (isoformat moment).drop (5 + more) =
      (padded 2 moment.month ++ '-' :: (padded 2 moment.day ++ 'T' ::
        (padded 2 moment.hour ++ ':' :: (padded 2 moment.minute ++ ':' :: (padded 2 moment.second ++
          if moment.microsecond = 0 then [] else '.' :: padded 6 moment.microsecond))))).drop more :=
    fun more => drop_padded 4 _ more _ _
  have h₁ : numeral (((isoformat moment).drop 0).take 4) = moment.year := numeral_take (by omega) _
  have h₂ : numeral (((isoformat moment).drop 5).take 2) = moment.month := by
    rw [hdrop 0]
    exact numeral_take (by omega) _
  have h₃ : numeral (((isoformat moment).drop 8).take 2) = moment.day := by
    rw [hdrop 3, drop_padded 2 _ 0]
    exact numeral_take (by omega) _
  have h₄ : numeral (((isoformat moment).drop 11).take 2) = moment.hour := by
    rw [hdrop 6, drop_padded 2 _ 3, drop_padded 2 _ 0]
    exact numeral_take (by omega) _
  have h₅ : numeral (((isoformat moment).drop 14).take 2) = moment.minute := by
    rw [hdrop 9, drop_padded 2 _ 6, drop_padded 2 _ 3, drop_padded 2 _ 0]
    exact numeral_take (by omega) _
  have h₆ : numeral (((isoformat moment).drop 17).take 2) = moment.second := by
    rw [hdrop 12, drop_padded 2 _ 9, drop_padded 2 _ 6, drop_padded 2 _ 3, drop_padded 2 _ 0]
    exact numeral_take (by omega) _
  have h₇ : numeral (((isoformat moment).drop 20).take 6) = moment.microsecond := by
    rw [hdrop 15, drop_padded 2 _ 12, drop_padded 2 _ 9, drop_padded 2 _ 6, drop_padded 2 _ 3]
    by_cases hzero : moment.microsecond = 0
    · rw [if_pos hzero, hzero, append_nil, drop_of_length_le (by rw [length_padded]; omega)]
      rfl
    · have hlast := drop_padded 2 moment.second 0 '.' (padded 6 moment.microsecond)
      have hmicros := numeral_take (show moment.microsecond < 10 ^ 6 by omega) []
      rw [append_nil] at hmicros
      rw [if_neg hzero]
      exact (congrArg (fun text => numeral (text.take 6)) hlast).trans hmicros
  unfold ofIsoformat
  simp only [h₁, h₂, h₃, h₄, h₅, h₆, h₇, dif_pos moment.exist, if_true]

def pyStr (text : Text) : PyStr := text.map CodePoint.ofChar

def ofPyStr (text : PyStr) : Option Text :=
  if text.any CodePoint.isSurrogate = true then none else some (text.map fun c => Char.ofNat c.val)

def scalar (value : WireJson) : PyStr × WireJson := (value.dumps, value)

def numberJson : Option Number → WireJson
  | none => .null
  | some n => .int n.val

def headersJson (headers : Dict Text Text) : PyStr × WireJson :=
  let members := headers.entries.map fun header => (pyStr header.1, scalar (.str (pyStr header.2)))
  (spacedObject (memberTexts members), .obj (memberValues members))

def Incoming.members (message : Incoming) : List (String × PyStr × WireJson) :=
  [("conference", scalar (.int message.conference.val)), ("number", scalar (numberJson message.number)),
    ("when", scalar ((message.when.map fun moment => .str (pyStr (isoformat moment))).getD .null)),
    ("to", scalar (.str (pyStr message.toName))), ("sender", scalar (.str (pyStr message.sender))),
    ("subject", scalar (.str (pyStr message.subject))), ("body", scalar (.str (pyStr message.body))),
    ("reference", scalar (numberJson message.reference)), ("private", scalar (.bool message.isPrivate)),
    ("headers", headersJson message.headers), ("status", scalar (.str (pyStr [message.status])))]

/-- `Incoming.as_json`: ASCII, so its bytes are its characters. -/
def Incoming.asJson (message : Incoming) : PyStr :=
  spacedObject (memberTexts (message.members.map fun member => (PyStr.ofString member.1, member.2)))

/-- `value.get(key)`. -/
def member (members : List (PyStr × WireJson)) (key : String) : WireJson :=
  ((members.find? fun entry => decide (entry.1 = PyStr.ofString key)).map Prod.snd).getD .null

def ofNumberJson : WireJson → Option Number
  | .int n => if h : n.toNat < 1000000000 then some ⟨n.toNat, h⟩ else none
  | _ => none

def ofTextJson : WireJson → Option Text
  | .str text => ofPyStr text
  | _ => none

def ofHeadersJson : WireJson → Option (Dict Text Text)
  | .obj members => do
    let entries ← members.mapM fun entry => do
      pure (← ofPyStr entry.1, ← ofTextJson entry.2)
    pure (entries.foldl (fun headers entry => headers.set entry.1 entry.2) .empty)
  | _ => none

/-- `Incoming.from_json`; nothing where it raises, and where a member is not of the type that `as_json` gives it. -/
def Incoming.fromJson (other : Text → Option DateTime) (data : PyStr) : Option Incoming :=
  match strictJsonLoads data with
  | some (.obj members) => do
    let whenText := ofTextJson (member members "when")
    let when ←
      match whenText with
      | none | some [] => some none
      | some text => (fromIsoformat other text).map some
    pure {
      conference := ← ofNumberJson (member members "conference")
      number := ofNumberJson (member members "number")
      when
      toName := ← ofTextJson (member members "to")
      sender := ← ofTextJson (member members "sender")
      subject := ← ofTextJson (member members "subject")
      body := ← ofTextJson (member members "body")
      reference := ofNumberJson (member members "reference")
      isPrivate := match member members "private" with | .bool value => value | _ => false
      headers := ← ofHeadersJson (member members "headers")
      status := ((ofTextJson (member members "status")).bind List.head?).getD ' ' }
  | _ => none

theorem isSurrogate_ofChar (c : Char) : (CodePoint.ofChar c).isSurrogate = false := by
  have hval : (CodePoint.ofChar c).val = c.toNat := rfl
  have hvalid : c.toNat < 0xD800 ∨ 0xDFFF < c.toNat := c.valid.imp id And.left
  unfold CodePoint.isSurrogate
  rw [hval, Bool.and_eq_false_iff, decide_eq_false_iff_not, decide_eq_false_iff_not]
  omega

theorem ofPyStr_pyStr (text : Text) : ofPyStr (pyStr text) = some text := by
  have hnone : (pyStr text).any CodePoint.isSurrogate = false := by
    rw [pyStr, any_map, any_eq_false]
    exact fun c _ => by simp [isSurrogate_ofChar]
  have hsame : (pyStr text).map (fun c => Char.ofNat c.val) = text := by
    rw [pyStr, map_map]
    exact (map_congr_left fun c _ => Char.ofNat_toNat c).trans (map_id text)
  rw [ofPyStr, hnone, if_neg (by decide), hsame]

theorem noSplitPair_pyStr (text : Text) : NoSplitPair (pyStr text) := by
  have hnot : ∀ c : Char, (CodePoint.ofChar c).isHighSurrogate = false := by
    intro c
    have hnone := isSurrogate_ofChar c
    unfold CodePoint.isSurrogate at hnone
    unfold CodePoint.isHighSurrogate
    rw [Bool.and_eq_false_iff, decide_eq_false_iff_not, decide_eq_false_iff_not] at hnone ⊢
    omega
  induction text with
  | nil => exact isChain_nil
  | cons c rest ih =>
    cases rest with
    | nil => exact isChain_singleton _
    | cons next rest => exact isChain_cons_cons.mpr ⟨fun hpair => by simp [hnot] at hpair, ih⟩

theorem pyStr_injective : Function.Injective pyStr := by
  intro a b h
  exact Option.some.inj ((ofPyStr_pyStr a).symm.trans (h ▸ ofPyStr_pyStr b))

theorem readable_pyStr (text : Text) : (WireJson.str (pyStr text)).Readable := noSplitPair_pyStr text

theorem readable_number (n : Number) : (WireJson.int n.val).Readable := by
  show (Nat.toDigits 10 n.val).length ≤ maxStrDigits
  have hlength := (Nat.length_toDigits_le_iff (b := 10) (k := 9) (by omega) (by omega)).mpr n.isLt
  unfold maxStrDigits
  omega

theorem readable_numberJson : ∀ n : Option Number, (numberJson n).Readable
  | none => trivial
  | some n => readable_number n

theorem readOff_headers (headers : Dict Text Text) :
    ReadOff (headersJson headers).1 (headersJson headers).2 := by
  refine readOff_object _ ?_ ?_
  · intro member hmember
    obtain ⟨header, -, rfl⟩ := mem_map.mp hmember
    exact ⟨noSplitPair_pyStr _, readOff_dumps (readable_pyStr _)⟩
  · rw [map_map]
    have hkeys := headers.nodup.map pyStr_injective
    rw [map_map] at hkeys
    exact hkeys

theorem Incoming.readOff_member (message : Incoming) :
    ∀ member ∈ message.members, ReadOff member.2.1 member.2.2 := by
  intro member hmember
  simp only [members, mem_cons, not_mem_nil, or_false] at hmember
  rcases hmember with rfl | rfl | rfl | rfl | rfl | rfl | rfl | rfl | rfl | rfl | rfl
  · exact readOff_dumps (readable_number _)
  · exact readOff_dumps (readable_numberJson _)
  · cases message.when with
    | none => exact readOff_dumps trivial
    | some moment => exact readOff_dumps (readable_pyStr _)
  · exact readOff_dumps (readable_pyStr _)
  · exact readOff_dumps (readable_pyStr _)
  · exact readOff_dumps (readable_pyStr _)
  · exact readOff_dumps (readable_pyStr _)
  · exact readOff_dumps (readable_numberJson _)
  · exact readOff_dumps trivial
  · exact readOff_headers _
  · exact readOff_dumps (readable_pyStr _)

theorem Incoming.strictJsonLoads_asJson (message : Incoming) :
    strictJsonLoads message.asJson =
      some (.obj (message.members.map fun member => (PyStr.ofString member.1, member.2.2))) := by
  have hread := readOff_object (message.members.map fun member => (PyStr.ofString member.1, member.2))
    (fun member hmember => by
      obtain ⟨named, hnamed, rfl⟩ := mem_map.mp hmember
      exact ⟨noSplitPair_pyStr named.1.toList, message.readOff_member named hnamed⟩) (by
      rw [map_map]
      have hkeys : (message.members.map fun member => PyStr.ofString member.1) =
          (["conference", "number", "when", "to", "sender", "subject", "body", "reference", "private", "headers",
            "status"]).map PyStr.ofString := rfl
      show (message.members.map fun member => PyStr.ofString member.1).Nodup
      rw [hkeys]
      decide +kernel)
  have hloads := strictJsonLoads_readOff hread
  rw [memberValues, map_map] at hloads
  exact hloads

theorem ofString_injective : Function.Injective PyStr.ofString := by
  intro a b h
  exact String.toList_injective (pyStr_injective h)

theorem member_named (members : List (String × PyStr × WireJson)) (key : String) :
    member (members.map fun member => (PyStr.ofString member.1, member.2.2)) key =
      ((members.find? fun member => decide (member.1 = key)).map fun member => member.2.2).getD .null := by
  have hsame : ((fun entry : PyStr × WireJson => decide (entry.1 = PyStr.ofString key)) ∘
      fun member : String × PyStr × WireJson => (PyStr.ofString member.1, member.2.2)) =
        fun member => decide (member.1 = key) :=
    funext fun member => decide_eq_decide.mpr ofString_injective.eq_iff
  unfold member
  rw [find?_map, Option.map_map, hsame]
  rfl

private theorem entries_foldl_set (entries : List (Text × Text)) (headers : Dict Text Text)
    (h : (headers.entries ++ entries).map Prod.fst |>.Nodup) :
    (entries.foldl (fun headers entry => headers.set entry.1 entry.2) headers).entries = headers.entries ++ entries := by
  induction entries generalizing headers with
  | nil => rw [foldl_nil, append_nil]
  | cons entry rest ih =>
    have hnew : headers.contains entry.1 = false := by
      rw [Bool.eq_false_iff]
      intro hcontains
      rw [← Dict.mem_keys] at hcontains
      rw [map_append, nodup_append] at h
      exact h.2.2 _ hcontains _ (by simp) rfl
    have hset := Dict.entries_set_of_not_contains headers entry.1 entry.2 hnew
    rw [foldl_cons, ih _ (by rw [hset]; simpa using h), hset, append_assoc]
    rfl

theorem ofHeadersJson_headersJson (headers : Dict Text Text) :
    ofHeadersJson (headersJson headers).2 = some headers := by
  have hentries : ∀ entries : List (Text × Text),
      (memberValues (entries.map fun header => (pyStr header.1, scalar (.str (pyStr header.2))))).mapM
        (fun entry => do pure (← ofPyStr entry.1, ← ofTextJson entry.2)) = some entries := by
    intro entries
    induction entries with
    | nil => rfl
    | cons entry rest ih =>
      rw [memberValues] at ih ⊢
      rw [map_cons, map_cons, mapM_cons, ih]
      simp [ofTextJson, scalar, ofPyStr_pyStr]
  have hdict : headers.entries.foldl (fun headers entry => headers.set entry.1 entry.2) .empty = headers :=
    Dict.ext_entries (entries_foldl_set headers.entries .empty headers.nodup)
  unfold ofHeadersJson headersJson
  dsimp only
  rw [hentries]
  simp [hdict]

theorem ofNumberJson_numberJson : ∀ n : Option Number, ofNumberJson (numberJson n) = n
  | none => rfl
  | some n => by
    have hsame : (n.val : Int).toNat = n.val := Int.toNat_natCast _
    simp [numberJson, ofNumberJson]

theorem Incoming.fromJson_asJson (other : Text → Option DateTime) (message : Incoming) :
    fromJson other message.asJson = some message := by
  have hnumber : ofNumberJson (.int message.conference.val) = some message.conference :=
    ofNumberJson_numberJson (some message.conference)
  have hwhen : ∀ moment, isoformat moment ≠ [] := by
    intro moment hnil
    have hlength := congrArg List.length hnil
    rw [isoformat, length_append, length_padded] at hlength
    simp at hlength
  unfold fromJson
  rw [strictJsonLoads_asJson]
  dsimp only
  simp only [member_named, members, find?_cons]
  simp only [String.reduceEq, decide_false, decide_true, Option.map_some, Option.getD_some, scalar,
    ofNumberJson_numberJson, ofHeadersJson_headersJson, ofTextJson, ofPyStr_pyStr, hnumber, Option.bind_some,
    head?_cons, Option.bind_eq_bind, Option.pure_def]
  cases hmoment : message.when with
  | none =>
    cases message
    simp_all
  | some moment =>
    obtain ⟨first, rest, htext⟩ := exists_cons_of_ne_nil (hwhen moment)
    have hread : fromIsoformat other (isoformat moment) = some moment := by
      rw [fromIsoformat, ofIsoformat_isoformat, Option.some_or]
    rw [htext] at hread
    simp only [Option.map_some, Option.getD_some, ofPyStr_pyStr, htext, hread, Option.bind_some]
    rw [← hmoment]

end NetBBS.Qwknet
