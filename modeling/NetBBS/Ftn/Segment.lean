import Mathlib.Algebra.Order.BigOperators.Group.List
import Mathlib.Data.List.Perm.Subperm
import NetBBS.Ftn.NetNodeLines
import NetBBS.Ftn.Nodelist
import NetBBS.Net.ZmodemFraming

/-! # A segment reads back -/

namespace NetBBS.Nodelist

open Foundation Qwk List Text

def unpublished : Text := "-Unpublished-".toList
def defaultSpeed : Text := "300".toList
def nodeKeywords : List Text := ["".toList, "Pvt".toList, "Hold".toList, "Down".toList]
def maxLine : Nat := 157
def maxField : Nat := 60
def maxSysop : Nat := 36
def maxPhone : Nat := 29
def maxFlags : Nat := 120
def maxNodeNumber : Nat := 32767

structure ListFields where
  name : Text := []
  location : Text := []
  sysop : Text := []
  phone : Text := unpublished
  speed : Text := defaultSpeed
  flags : Text := []
deriving DecidableEq

structure SegmentNode where
  node : Nat
  fields : ListFields
  keyword : Text := []

def isPlain (c : Char) : Bool := 0x21 ≤ c.toNat && c.toNat ≤ 0x7E

variable (lib : Libraries)

def cleanText (value : Text) (label : String) (limit : Nat) (required : Bool) : Except String Text := do
  let text := join '_' (split value)
  if text = [] then
    refuseIf (required = true) (label ++ " is required.")
    pure []
  else
    refuseIf (',' ∈ text) (label ++ " can't contain a comma: commas separate a list's fields.")
    refuseIf (text.all isPlain = false)
      (label ++ " must be plain ASCII (no accents or symbols beyond ASCII); FTS-5000 lists are 7-bit.")
    refuseIf (limit < text.length) (label ++ " is at most %d characters.")
    pure text

/-- `_PHONE` matches the whole text. -/
def isPhone (text : Text) : Bool :=
  let groups := splitAt '-' text
  decide (2 ≤ groups.length) && groups.all fun group => !group.isEmpty && group.all Char.isDigit

def cleanPhone (value : Text) : Except String Text := do
  let text := if strip value = [] then unpublished else strip value
  if lib.lower text = lib.lower unpublished then pure unpublished
  else
    refuseIf (isPhone text = false ∨ maxPhone < text.length)
      "Phone is %s or digits in dashed groups, country code first (1-800-555-0100)."
    pure text

def cleanSpeed (value : Text) : Except String Text := do
  let text := if strip value = [] then defaultSpeed else strip value
  refuseIf (text.all Char.isDigit = false ∨ 6 < text.length)
    "Speed is a number; %s for a system without a phone line."
  pure text

def flagsOf (value : Text) : List Text := ((splitAt ',' value).map strip).filter fun flag => !flag.isEmpty

def cleanFlags (value : Text) : Except String Text := do
  let flags := flagsOf value
  refuseIf ((flags.all fun flag => flag.all fun c => isPlain c && c != ',') = false)
    "Flag %r must be plain ASCII without spaces."
  refuseIf (maxFlags < (join ',' flags).length) "The flags are at most %d characters in all."
  pure (join ',' flags)

def cleanFields (fields : ListFields) (defaults : ListFields) : Except String ListFields := do
  let name ← cleanText (if fields.name = [] then defaults.name else fields.name) "System name" maxField true
  let location ←
    cleanText (if fields.location = [] then defaults.location else fields.location) "Location" maxField true
  let sysop ← cleanText (if fields.sysop = [] then defaults.sysop else fields.sysop) "Sysop" maxSysop true
  let phone ← cleanPhone lib fields.phone
  let speed ← cleanSpeed fields.speed
  let flags ← cleanFlags fields.flags
  pure ⟨name, location, sysop, phone, speed, flags⟩

def dataLine (keyword : Text) (number : Nat) (fields : ListFields) : Except String Text := do
  let parts := [keyword, numberText number, fields.name, fields.location, fields.sysop, fields.phone, fields.speed]
  let line := join ',' (if fields.flags = [] then parts else parts ++ [fields.flags])
  refuseIf (maxLine < line.length)
    "The line for %s is %d characters; lists keep lines to %d (shorten the name, location or flags)."
  pure line

def segmentLine (node : SegmentNode) : Except String Text := do
  refuseIf (nodeKeywords.all (fun keyword => decide (keyword ≠ node.keyword)) = true)
    "A node is listed plainly, or as Pvt, Hold or Down."
  dataLine node.keyword node.node (← cleanFields lib node.fields {})

/-- `day.timetuple().tm_yday`. -/
def yearDay (day : DateTime) : Nat :=
  ((List.range (day.month - 1)).map fun before => daysInMonth day.year (before + 1)).sum + day.day

/-- `day.weekday()`, Monday being 0. -/
def weekday (day : DateTime) : Nat :=
  (365 * (day.year - 1) + (day.year - 1) / 4 - (day.year - 1) / 100 + (day.year - 1) / 400 + yearDay day + 6) % 7

def weekdays : List String :=
  ["Monday", "Tuesday", "Wednesday", "Thursday", "Friday", "Saturday", "Sunday"]

def monthNames : List String :=
  ["January", "February", "March", "April", "May", "June", "July", "August", "September", "October",
    "November", "December"]

/-- `_ascii`. -/
def asciiText (text : Text) : Text :=
  text.map fun c => if 0x20 ≤ c.toNat ∧ c.toNat ≤ 0x7E then c else '?'

def zeroFilled (width n : Nat) : Text := List.replicate (width - (numberText n).length) '0' ++ numberText n

def dateText (day : DateTime) : Text :=
  (weekdays.getD (weekday day) "").toList ++ ", ".toList ++ (monthNames.getD (day.month - 1) "").toList ++
    " ".toList ++ numberText day.day ++ ", ".toList ++ numberText day.year

def headerLine (title : Text) (day : DateTime) (crc : Nat) : Text :=
  ";A ".toList ++ asciiText title ++ " -- ".toList ++ dateText day ++ " -- Day number ".toList ++
    zeroFilled 3 (yearDay day) ++ " : ".toList ++ zeroFilled 5 crc

def encodeAscii (text : Text) : Except String Line :=
  if (text.all fun c => decide (c.toNat < 0x80)) = true then .ok (text.map fun c => UInt8.ofNat c.toNat)
  else .error "A line has a character outside ASCII; edit it and publish again."

def assemble (title : Text) (day : DateTime) (body : List Text) : Except String (List UInt8) := do
  let lines ← body.mapM encodeAscii
  let head ← encodeAscii (headerLine title day (listCrc ([] :: lines)))
  pure (rawText (head :: lines) ++ [0x1A])

/-- `list_segment_nodes` of the rows of a network. -/
def listSegmentNodes (rows : List SegmentNode) : List SegmentNode :=
  rows.insertionSort fun a b => a.node ≤ b.node

def version : Text := "7.45.0".toList

/-- `build_segment` for the network of this name and address. -/
def buildSegment (name : Text) (address : FtnAddress) (host : ListFields) (rows : List SegmentNode)
    (day : DateTime) : Except String (List UInt8) := do
  let hostFields ← reword (fun message => "The Host line: " ++ message) (cleanFields lib host {})
  let hostLine ← reword (fun message => "The Host line: " ++ message)
    (dataLine "Host".toList address.net hostFields)
  let nodeLines ← (listSegmentNodes rows).mapM fun node =>
    reword (fun message => "Node %d: " ++ message) (segmentLine lib node)
  let about := ";A Net ".toList ++ numberText address.net ++ " of ".toList ++ asciiText name ++
    ", made by NetBBS ".toList ++ version
  assemble (name ++ " nodelist segment for net ".toList ++ numberText address.net) day
    (";A".toList :: about :: ";A".toList :: hostLine :: nodeLines)

theorem splitAt_ne_nil (sep : Char) (text : Text) : splitAt sep text ≠ [] := by
  cases text with
  | nil => simp [splitAt]
  | cons c rest =>
    rw [splitAt]
    split
    · simp
    · split <;> simp

variable {c sep : Char} {text value : Text} {body lines : List Text}

theorem splitAt_of_notMem (h : sep ∉ text) : splitAt sep text = [text] := by
  induction text with
  | nil => rfl
  | cons c rest ih =>
    rw [mem_cons, not_or] at h
    rw [splitAt, ih h.2]
    simp only
    rw [if_neg (Ne.symm h.1)]

theorem splitAt_append (h : sep ∉ text) (rest : Text) :
    splitAt sep (text ++ sep :: rest) = text :: splitAt sep rest := by
  induction text with
  | nil =>
    rw [nil_append, splitAt]
    cases hrest : splitAt sep rest with
    | nil => exact absurd hrest (splitAt_ne_nil sep rest)
    | cons first others => exact if_pos rfl
  | cons c text ih =>
    rw [mem_cons, not_or] at h
    rw [cons_append, splitAt, ih h.2]
    exact if_neg (Ne.symm h.1)

variable {parts : List Text} {port : Nat} {title : Text}

theorem splitAt_join (hne : parts ≠ []) (h : ∀ part ∈ parts, sep ∉ part) :
    splitAt sep (join sep parts) = parts := by
  induction parts with
  | nil => exact absurd rfl hne
  | cons part rest ih =>
    obtain ⟨hpart, hrest⟩ := forall_mem_cons.mp h
    cases rest with
    | nil =>
      have hjoin : join sep [part] = part := by simp [join]
      rw [hjoin, splitAt_of_notMem hpart]
    | cons next more => rw [join_cons part (by simp), splitAt_append hpart, ih (by simp) hrest]

theorem mem_of_splitAt {sep c : Char} {text : Text} (h : c ∈ text) :
    c = sep ∨ ∃ part ∈ splitAt sep text, c ∈ part := by
  induction text with
  | nil => cases h
  | cons d rest ih =>
    rw [splitAt]
    cases hrest : splitAt sep rest with
    | nil => exact absurd hrest (splitAt_ne_nil sep rest)
    | cons first others =>
      rw [hrest] at ih
      simp only
      by_cases hd : d = sep
      · rw [if_pos hd]
        rcases mem_cons.mp h with rfl | h
        · exact .inl hd
        · exact (ih h).imp id fun ⟨part, hpart, hc⟩ => ⟨part, .tail _ hpart, hc⟩
      · rw [if_neg hd]
        rcases mem_cons.mp h with rfl | h
        · exact .inr ⟨_, .head _, .head _⟩
        · refine (ih h).imp id ?_
          rintro ⟨part, hpart, hc⟩
          rcases mem_cons.mp hpart with rfl | hpart
          · exact ⟨_, .head _, .tail _ hc⟩
          · exact ⟨part, .tail _ hpart, hc⟩

theorem join_append_join {more : List Text} (hparts : parts ≠ []) (hmore : more ≠ []) :
    join sep (parts ++ [join sep more]) = join sep (parts ++ more) := by
  induction parts with
  | nil => exact absurd rfl hparts
  | cons part rest ih =>
    cases rest with
    | nil =>
      rw [singleton_append, singleton_append, join_cons part (by simp),
        join_cons part hmore]
      simp [join]
    | cons next others =>
      calc join sep (part :: ((next :: others) ++ [join sep more]))
          = part ++ sep :: join sep ((next :: others) ++ [join sep more]) :=
            join_cons part (by simp)
        _ = part ++ sep :: join sep ((next :: others) ++ more) := by rw [ih (by simp)]
        _ = join sep (part :: ((next :: others) ++ more)) := (join_cons part (by simp)).symm

variable {lib : Libraries}

def IsField (text : Text) : Prop := ∀ c ∈ text, isPlain c = true ∧ c ≠ ','

-- By the list: there is an instance that goes through every character there is.
instance (text : Text) : Decidable (IsField text) := List.decidableBAll _ _

theorem isPlain_iff : isPlain c = true ↔ 0x21 ≤ c.toNat ∧ c.toNat ≤ 0x7E := by
  simp [isPlain]

theorem IsField.lt (h : IsField text) : ∀ c ∈ text, c.toNat < 0x80 := by
  intro c hc
  have hplain := isPlain_iff.mp (h c hc).1
  omega

theorem isSpace_of_isPlain (h : isPlain c = true) : Text.isSpace c = false := by
  rw [isPlain_iff] at h
  unfold Text.isSpace
  simp
  omega

theorem isPlain_of_isDigit (h : c.isDigit = true) : isPlain c = true ∧ c ≠ ',' := by
  have hcode : 48 ≤ c.toNat ∧ c.toNat ≤ 57 := by
    simpa [Char.isDigit, UInt32.le_iff_toNat_le] using h
  refine ⟨isPlain_iff.mpr (by omega), ?_⟩
  rintro rfl
  exact absurd hcode (by decide)

theorem isField_numberText (n : Nat) : IsField (numberText n) :=
  fun _ hc => isPlain_of_isDigit (isDigit_of_mem_numberText hc)

theorem strip_of_noSpace (h : ∀ c ∈ text, Text.isSpace c = false) : strip text = text := by
  have hl : lstrip text = text := lstrip_eq_self fun c hc => h c (mem_of_mem_head? hc)
  rw [strip, hl]
  exact rstrip_eq_self fun c hc => h c (mem_of_getLast? hc)

theorem strip_isField (h : IsField text) : strip text = text :=
  strip_of_noSpace fun c hc => isSpace_of_isPlain (h c hc).1

theorem cleanText_eq_ok {label : String} {limit : Nat} {required : Bool}
    (h : cleanText value label limit required = .ok text) :
    text = join '_' (split value) ∧ IsField text ∧ text.length ≤ limit := by
  unfold cleanText at h
  simp only at h
  split at h
  · rename_i hnil
    simp only [bind_eq_ok, refuseIf_eq_ok, exists_const, pure_eq_ok] at h
    obtain ⟨-, rfl⟩ := h
    exact ⟨hnil.symm, fun _ hc => absurd hc not_mem_nil, Nat.zero_le _⟩
  · simp only [bind_eq_ok, refuseIf_eq_ok, exists_const, pure_eq_ok] at h
    obtain ⟨hcomma, hplain, hlimit, rfl⟩ := h
    rw [Bool.not_eq_false, all_eq_true] at hplain
    exact ⟨rfl, fun c hc => ⟨hplain c hc, fun heq => hcomma (heq ▸ hc)⟩, not_lt.mp hlimit⟩

theorem isField_of_isPhone (h : isPhone text = true) : IsField text := by
  simp only [isPhone, Bool.and_eq_true, all_eq_true] at h
  intro c hc
  rcases @mem_of_splitAt '-' c text hc with rfl | ⟨group, hgroup, hc⟩
  · exact ⟨by decide, by decide⟩
  · exact isPlain_of_isDigit ((h.2 group hgroup).2 c hc)

theorem isField_cleanPhone (h : cleanPhone lib value = .ok text) : IsField text := by
  have hunpublished : IsField unpublished := by decide
  unfold cleanPhone at h
  simp only at h
  generalize (if strip value = [] then unpublished else strip value) = chosen at h
  split at h
  · rw [pure_eq_ok] at h
    exact h ▸ hunpublished
  · simp only [bind_eq_ok, refuseIf_eq_ok, exists_const, pure_eq_ok, not_or, Bool.not_eq_false] at h
    obtain ⟨⟨hphone, -⟩, rfl⟩ := h
    exact isField_of_isPhone hphone

theorem isField_cleanSpeed (h : cleanSpeed value = .ok text) : IsField text := by
  simp only [cleanSpeed, bind_eq_ok, refuseIf_eq_ok, exists_const, pure_eq_ok, not_or, Bool.not_eq_false,
    all_eq_true] at h
  obtain ⟨⟨hdigits, -⟩, rfl⟩ := h
  exact fun c hc => isPlain_of_isDigit (hdigits c hc)

theorem cleanFlags_eq_ok (h : cleanFlags value = .ok text) :
    text = join ',' (flagsOf value) ∧ ∀ flag ∈ flagsOf value, IsField flag ∧ flag ≠ [] := by
  simp only [cleanFlags, bind_eq_ok, refuseIf_eq_ok, exists_const, pure_eq_ok, Bool.not_eq_false,
    all_eq_true, Bool.and_eq_true, bne_iff_ne] at h
  obtain ⟨hflags, -, rfl⟩ := h
  refine ⟨rfl, fun flag hflag => ⟨hflags flag hflag, ?_⟩⟩
  have hkept := (mem_filter.mp hflag).2
  simpa using hkept

structure Cleaned (fields cleaned : ListFields) : Prop where
  name : cleaned.name = join '_' (split fields.name)
  name_le : cleaned.name.length ≤ maxField
  flags : cleaned.flags = join ',' (flagsOf fields.flags)
  areFields : ∀ text ∈ [cleaned.name, cleaned.location, cleaned.sysop, cleaned.phone, cleaned.speed], IsField text
  areFlags : ∀ flag ∈ flagsOf fields.flags, IsField flag ∧ flag ≠ []

theorem cleanFields_eq_ok {fields cleaned : ListFields} (h : cleanFields lib fields {} = .ok cleaned) :
    Cleaned fields cleaned := by
  have hdefault : ∀ text : Text, (if text = [] then [] else text) = text := by
    intro text
    split
    · rename_i hnil
      exact hnil.symm
    · rfl
  simp only [cleanFields, hdefault, bind_eq_ok, pure_eq_ok] at h
  obtain ⟨name, hname, location, hlocation, sysop, hsysop, phone, hphone, speed, hspeed, flags, hflags, rfl⟩ := h
  obtain ⟨hvalue, hfield, hle⟩ := cleanText_eq_ok hname
  obtain ⟨hjoined, hall⟩ := cleanFlags_eq_ok hflags
  refine ⟨hvalue, hle, hjoined, ?_, hall⟩
  simp only [forall_mem_cons]
  exact ⟨hfield, (cleanText_eq_ok hlocation).2.1, (cleanText_eq_ok hsysop).2.1, isField_cleanPhone hphone,
    isField_cleanSpeed hspeed, fun _ hmem => absurd hmem not_mem_nil⟩

def partsOf (keyword : Text) (number : Nat) (fields cleaned : ListFields) : List Text :=
  [keyword, numberText number, cleaned.name, cleaned.location, cleaned.sysop, cleaned.phone, cleaned.speed] ++
    flagsOf fields.flags

theorem dataLine_eq_ok {keyword line : Text} {number : Nat} {fields cleaned : ListFields}
    (hcleaned : Cleaned fields cleaned) (h : dataLine keyword number cleaned = .ok line) :
    line = join ',' (partsOf keyword number fields cleaned) := by
  simp only [dataLine, bind_eq_ok, refuseIf_eq_ok, exists_const, pure_eq_ok] at h
  obtain ⟨-, rfl⟩ := h
  rw [hcleaned.flags]
  unfold partsOf
  by_cases hnone : flagsOf fields.flags = []
  · rw [hnone, append_nil, if_pos (by simp [join])]
  · have hjoined : join ',' (flagsOf fields.flags) ≠ [] := by
      obtain ⟨flag, rest, hflags⟩ := exists_cons_of_ne_nil hnone
      have hflag := (hcleaned.areFlags flag (by rw [hflags]; exact mem_cons_self)).2
      rw [hflags]
      cases rest with
      | nil => simpa [join] using hflag
      | cons next more => rw [join_cons flag (by simp)]; simp
    rw [if_neg hjoined, join_append_join (by simp) hnone]

section Reading

variable {lib : Libraries}

/-- `str.isdigit`, `int` and `str.lower` as far as ASCII goes. -/
structure ReadsAscii (lib : Libraries) : Prop where
  isDigit : ∀ c : Char, c.isDigit = true → lib.isDigit c = true
  int : ∀ n ≤ 0xFFFF, lib.int (numberText n) = some (n : Int)
  lower : ∀ text : Text, (∀ c ∈ text, c.toNat < 0x80) → lib.lower text = text.map Char.toLower

def entryOf (lib : Libraries) (zone net node : Nat) (fields : ListFields) : NodelistEntry where
  zone := zone
  net := net
  node := node
  name := (join '_' (split fields.name)).map fun c => if c = '_' then ' ' else c
  binkpHost := (binkpTarget lib (flagsOf fields.flags)).map Prod.fst
  binkpPort := (binkpTarget lib (flagsOf fields.flags)).map Prod.snd

def SegmentNode.isListed (node : SegmentNode) : Bool := node.keyword == [] || node.keyword == "Pvt".toList

theorem lineFields_join {keyword : Text} {more : List Text} (hparts : ∀ part ∈ keyword :: more, IsField part)
    (hmore : more ≠ []) (hhead : keyword.head? ≠ some ';') :
    lineFields (join ',' (keyword :: more)) = some (keyword :: more) := by
  have hspace : ∀ c ∈ join ',' (keyword :: more), Text.isSpace c = false := by
    intro c hc
    rcases mem_join hc with rfl | ⟨part, hpart, hc⟩
    · decide
    · exact isSpace_of_isPlain (hparts part hpart c hc).1
  have hcons : join ',' (keyword :: more) = keyword ++ ',' :: join ',' more :=
    join_cons keyword hmore
  have hne : join ',' (keyword :: more) ≠ [] := by
    rw [hcons]
    simp
  have hfirst : (join ',' (keyword :: more)).head? ≠ some ';' := by
    rw [hcons]
    cases keyword with
    | nil => simp
    | cons c rest => exact hhead
  unfold lineFields
  simp only
  rw [strip_of_noSpace hspace, if_neg (not_or.mpr ⟨hne, hfirst⟩),
    splitAt_join (by simp) fun part hpart hcomma => (hparts part hpart ',' hcomma).2 rfl]

theorem parseLines_comment {held : Option (Nat × Nat)} {count : Nat} (text : Text) (rest : List Text) :
    parseLines lib held count ((';' :: text) :: rest) = parseLines lib held count rest := by
  have hl : lstrip (';' :: text) = ';' :: text := lstrip_eq_self (by rintro c ⟨⟩; decide)
  have hstrip : (strip (';' :: text)).head? = some ';' := by
    have hcut := rstrip_append [';'] text
    rw [strip, hl]
    rw [singleton_append] at hcut
    rw [hcut]
    split
    · rfl
    · rfl
  have hnone : numberField lib (';' :: text) = none := by
    unfold numberField lineFields
    simp only
    rw [if_pos (.inr hstrip)]
    rfl
  rw [parseLines, hnone]

theorem isField_keyword {keyword : Text} (h : keyword ∈ "Host".toList :: nodeKeywords) :
    IsField keyword ∧ keyword.head? ≠ some ';' := by
  revert keyword
  decide

variable {keyword line : Text} {number : Nat} {fields cleaned : ListFields}

theorem isField_partsOf (hkeyword : keyword ∈ "Host".toList :: nodeKeywords) (hcleaned : Cleaned fields cleaned) :
    ∀ part ∈ partsOf keyword number fields cleaned, IsField part := by
  intro part hpart
  rcases mem_append.mp hpart with hpart | hflag
  · rcases mem_cons.mp hpart with rfl | hpart
    · exact (isField_keyword hkeyword).1
    · rcases mem_cons.mp hpart with rfl | hpart
      · exact isField_numberText number
      · exact hcleaned.areFields part hpart
  · exact (hcleaned.areFlags part hflag).1

theorem dataLine_read (hlib : ReadsAscii lib) (hkeyword : keyword ∈ "Host".toList :: nodeKeywords)
    (hcleaned : Cleaned fields cleaned) (h : dataLine keyword number cleaned = .ok line) :
    lineFields line = some (partsOf keyword number fields cleaned) ∧
      numberField lib line = some (numberText number) := by
  have hfields : lineFields line = some (partsOf keyword number fields cleaned) := by
    rw [dataLine_eq_ok hcleaned h]
    exact lineFields_join (isField_partsOf hkeyword hcleaned) (by simp) (isField_keyword hkeyword).2
  have hdigits : isDigits lib.toCharacterTables (numberText number) = true := by
    unfold isDigits
    rw [Bool.and_eq_true, all_eq_true]
    refine ⟨?_, fun c hc => hlib.isDigit c (isDigit_of_mem_numberText hc)⟩
    have hne := numberText_ne_nil number
    cases hnumber : numberText number with
    | nil => exact absurd hnumber hne
    | cons c rest => rfl
  refine ⟨hfields, ?_⟩
  have hnumber : strip ((partsOf keyword number fields cleaned).getD 1 []) = numberText number :=
    strip_isField (isField_numberText number)
  have hlength : ¬((partsOf keyword number fields cleaned).length < 3 ∨
      isDigits lib.toCharacterTables (numberText number) = false) := by
    rw [hdigits]
    simp [partsOf]
  unfold numberField
  rw [hfields]
  change (if _ then none else some _) = _
  simp only [hnumber]
  exact if_neg hlength

variable {held : Option (Nat × Nat)} {count : Nat} {rest : List Text}

theorem parseLines_data (hlib : ReadsAscii lib) (hkeyword : keyword ∈ "Host".toList :: nodeKeywords)
    (hcleaned : Cleaned fields cleaned) (h : dataLine keyword number cleaned = .ok line)
    (hnumber : number ≤ 0xFFFF) :
    parseLines lib held count (line :: rest) =
      (place (lib.lower keyword) number held >>= fun placed =>
        match placed with
        | none => parseLines lib held count rest
        | some (zone, net, node) => do
          refuseIf (maxEntries ≤ count) (.nodelistError "more than %d entries")
          let entries ← parseLines lib (some (zone, net)) (count + 1) rest
          pure (entryOf lib zone net node fields :: entries)) := by
  obtain ⟨hfields, hfield⟩ := dataLine_read hlib hkeyword hcleaned h
  have hword : strip ((partsOf keyword number fields cleaned).headD []) = keyword :=
    strip_isField (isField_keyword hkeyword).1
  have hname : strip ((partsOf keyword number fields cleaned).getD 2 []) = cleaned.name :=
    strip_isField (hcleaned.areFields cleaned.name (.head _))
  have hflags : (partsOf keyword number fields cleaned).drop 7 = flagsOf fields.flags := rfl
  have hshort : (cleaned.name.map fun c => if c = '_' then ' ' else c).take 60 =
      (join '_' (split fields.name)).map fun c => if c = '_' then ' ' else c := by
    rw [hcleaned.name]
    refine take_of_length_le ?_
    rw [length_map, ← hcleaned.name]
    exact hcleaned.name_le
  have hsmall : ¬((0xFFFF : Int) < (number : Int)) := by omega
  rw [parseLines, hfield]
  simp only [hfields, Option.getD_some, hlib.int number hnumber, orRefuse_some, ok_bind, if_neg hsmall, hword,
    hname, hflags, hshort, Int.toNat_natCast]
  rfl

variable {node : SegmentNode}

theorem segmentLine_eq_ok (h : segmentLine lib node = .ok line) :
    node.keyword ∈ nodeKeywords ∧ ∃ cleaned, Cleaned node.fields cleaned ∧
      dataLine node.keyword node.node cleaned = .ok line := by
  simp only [segmentLine, bind_eq_ok, refuseIf_eq_ok, exists_const] at h
  obtain ⟨hkeyword, cleaned, hcleaned, hline⟩ := h
  have hmem : node.keyword ∈ nodeKeywords := by
    by_contra hnot
    exact hkeyword (all_eq_true.mpr fun keyword hin => decide_eq_true fun heq => hnot (heq ▸ hin))
  exact ⟨hmem, cleaned, cleanFields_eq_ok hcleaned, hline⟩

theorem place_node (hlib : ReadsAscii lib) (h : node.keyword ∈ nodeKeywords)
    (number zone net : Nat) :
    place (lib.lower node.keyword) number (some (zone, net)) =
      .ok (if node.isListed = true then some (zone, net, number) else none) := by
  simp only [nodeKeywords, mem_cons, not_mem_nil, or_false] at h
  unfold SegmentNode.isListed
  rcases h with h | h | h | h <;> rw [h, hlib.lower _ (IsField.lt (by decide))] <;> rfl

theorem parseLines_nodes (hlib : ReadsAscii lib) {nodes : List SegmentNode} {lines : List Text} {zone net : Nat}
    (h : List.Forall₂ (fun node line => segmentLine lib node = .ok line) nodes lines)
    (hrange : ∀ node ∈ nodes, node.node ≤ 0xFFFF) (hroom : count + nodes.length ≤ maxEntries) :
    parseLines lib (some (zone, net)) count lines =
      .ok ((nodes.filter SegmentNode.isListed).map fun node => entryOf lib zone net node.node node.fields) := by
  induction h generalizing count with
  | nil => rfl
  | @cons node line nodes lines hline _ ih =>
    obtain ⟨hnumber, hrange⟩ := forall_mem_cons.mp hrange
    obtain ⟨hkeyword, cleaned, hcleaned, hdata⟩ := segmentLine_eq_ok hline
    rw [length_cons] at hroom
    rw [parseLines_data hlib (.tail _ hkeyword) hcleaned hdata hnumber,
      place_node hlib hkeyword, ok_bind]
    by_cases hlisted : node.isListed = true
    · rw [if_pos hlisted, filter_cons_of_pos hlisted, map_cons]
      simp only
      rw [refuseIf_neg (by omega), ok_bind, ih hrange (by omega), ok_bind]
      rfl
    · rw [if_neg hlisted, filter_cons_of_neg hlisted]
      exact ih hrange (by omega)

end Reading

def IsPrintable (text : Text) : Prop := ∀ c ∈ text, 0x20 ≤ c.toNat ∧ c.toNat ≤ 0x7E

instance (text : Text) : Decidable (IsPrintable text) := List.decidableBAll _ _

theorem IsPrintable.append {more : Text} (h : IsPrintable text) (hmore : IsPrintable more) :
    IsPrintable (text ++ more) :=
  forall_mem_append.mpr ⟨h, hmore⟩

theorem IsField.isPrintable (h : IsField text) : IsPrintable text := by
  intro c hc
  have hplain := isPlain_iff.mp (h c hc).1
  omega

theorem isPrintable_asciiText (text : Text) : IsPrintable (asciiText text) := by
  intro c hc
  obtain ⟨d, -, rfl⟩ := mem_map.mp hc
  split
  · assumption
  · decide

theorem isPrintable_getD {names : List String} (h : ∀ name ∈ names, IsPrintable name.toList) (i : Nat) :
    IsPrintable (names.getD i "").toList := by
  rw [getD_eq_getElem?_getD]
  cases hname : names[i]? with
  | none => exact fun c hc => absurd hc not_mem_nil
  | some name => exact h name (mem_of_getElem? hname)

def bytesOf (text : Text) : Line := text.map fun c => UInt8.ofNat c.toNat

theorem toNat_byte (h : c.toNat ≤ 0x7E) : (UInt8.ofNat c.toNat).toNat = c.toNat := by
  rw [UInt8.toNat_ofNat']
  exact Nat.mod_eq_of_lt (by omega)

theorem encodeAscii_eq_ok {line : Line} (h : encodeAscii text = .ok line) :
    line = bytesOf text := by
  unfold encodeAscii at h
  split at h
  · exact (Except.ok.inj h).symm
  · cases h

theorem isLine_bytesOf (h : IsPrintable text) : IsLine (bytesOf text) := by
  intro b hb
  obtain ⟨c, hc, rfl⟩ := mem_map.mp hb
  obtain ⟨hlow, hhigh⟩ := h c hc
  have hbyte := toNat_byte hhigh
  refine ⟨?_, ?_, ?_⟩ <;>
    · intro heq
      rw [heq] at hbyte
      simp at hbyte
      omega

theorem fromCp437_bytesOf (h : IsPrintable text) : fromCp437 (bytesOf text) = text := by
  unfold fromCp437 bytesOf
  rw [map_map]
  refine (map_congr_left fun c hc => ?_).trans (map_id text)
  have hbyte := toNat_byte (h c hc).2
  have hhigh := (h c hc).2
  have hlow : UInt8.ofNat c.toNat < 0x80 := by
    rw [UInt8.lt_iff_toNat_lt, hbyte]
    exact Nat.lt_of_le_of_lt hhigh (by decide)
  have hcode : (Rendering.cp437Char (UInt8.ofNat c.toNat)).val = c.toNat := by
    unfold Rendering.cp437Char
    rw [if_pos hlow, hbyte]
    exact Nat.mod_eq_of_lt (by omega)
  show Char.ofNat (Rendering.cp437Char (UInt8.ofNat c.toNat)).val = c
  rw [hcode, Char.ofNat_toNat]

theorem splitLinesFrom_line {line more : Text} (h : IsPrintable more) (rest : Text) :
    splitLinesFrom line (more ++ '\r' :: '\n' :: rest) = (line ++ more) :: splitLinesFrom [] rest := by
  induction more generalizing line with
  | nil => rw [nil_append, splitLinesFrom, append_nil]
  | cons c more ih =>
    obtain ⟨⟨hlow, hhigh⟩, hmore⟩ := forall_mem_cons.mp h
    have hend : ¬isLineEnd c = true := by
      simp [isLineEnd]
      omega
    have hcr : c ≠ '\r' := by
      rintro rfl
      exact absurd hlow (by decide)
    rw [cons_append, splitLinesFrom.eq_def]
    split
    · rename_i heq
      simp at heq
    · rename_i heq
      rw [List.cons.injEq] at heq
      exact absurd heq.1 hcr
    · rename_i heq
      rw [List.cons.injEq] at heq
      obtain ⟨rfl, rfl⟩ := heq
      rw [if_neg hend, ih hmore, append_assoc, singleton_append]

theorem textLines_bytesOf (h : ∀ line ∈ lines, IsPrintable line) :
    textLines (fromCp437 (rawText (lines.map bytesOf) ++ [0x1A])) = lines := by
  have htext : fromCp437 (rawText (lines.map bytesOf) ++ [0x1A]) =
      (lines.flatMap fun line => line ++ ['\r', '\n']) ++ [Char.ofNat 0x1A] := by
    unfold fromCp437 rawText
    rw [map_append, map_flatMap, flatMap_map]
    congr 1
    refine flatMap_congr fun line hline => ?_
    rw [map_append]
    exact congrArg (· ++ _) (fromCp437_bytesOf (h line hline))
  have hkept : ∀ c ∈ lines.flatMap fun line => line ++ ['\r', '\n'], decide (c ≠ Char.ofNat 0x1A) = true := by
    intro c hc
    obtain ⟨line, hline, hc⟩ := mem_flatMap.mp hc
    rw [decide_eq_true_eq]
    rintro rfl
    rcases mem_append.mp hc with hc | hc
    · exact absurd (h line hline _ hc).1 (by decide)
    · revert hc
      decide
  have hbefore : before (Char.ofNat 0x1A) (fromCp437 (rawText (lines.map bytesOf) ++ [0x1A])) =
      lines.flatMap fun line => line ++ ['\r', '\n'] := by
    rw [htext, before, takeWhile_append_of_pos hkept]
    simp
  rw [textLines, hbefore, splitLines]
  clear hbefore hkept htext
  induction lines with
  | nil => rfl
  | cons line lines ih =>
    obtain ⟨hprintable, hlines⟩ := forall_mem_cons.mp h
    have hcons : (line :: lines).flatMap (fun line => line ++ ['\r', '\n']) =
        line ++ '\r' :: '\n' :: lines.flatMap fun line => line ++ ['\r', '\n'] := by simp
    rw [hcons, splitLinesFrom_line hprintable, ih hlines, nil_append]

theorem listLines_bytesOf (h : ∀ line ∈ lines, IsPrintable line) :
    listLines (rawText (lines.map bytesOf) ++ [0x1A]) = lines.map bytesOf := by
  have hend : (rawText (lines.map bytesOf) ++ [0x1A]).takeWhile (· ≠ 0x1A) =
      (rawText (lines.map bytesOf)).takeWhile (· ≠ 0x1A) := by
    rw [takeWhile_append]
    split
    · rename_i hall
      rw [(List.takeWhile_prefix _).eq_of_length hall]
      simp
    · rfl
  have hraw : listLines (rawText (lines.map bytesOf) ++ [0x1A]) = listLines (rawText (lines.map bytesOf)) := by
    unfold listLines
    rw [hend]
  rw [hraw]
  refine listLines_rawText fun line hline => ?_
  obtain ⟨text, htext, rfl⟩ := mem_map.mp hline
  exact isLine_bytesOf (h text htext)

theorem rtakeWhile_after {p : UInt8 → Bool} {x : UInt8} (hx : ¬p x = true) (first : Line) {last : Line}
    (h : ∀ b ∈ last, p b = true) :
    (first ++ x :: last).rtakeWhile p = last ∧ (first ++ x :: last).rdropWhile p = first ++ [x] := by
  induction last using List.reverseRecOn with
  | nil => exact ⟨rtakeWhile_concat_neg _ _ _ hx, rdropWhile_concat_neg _ _ _ hx⟩
  | append_singleton last b ih =>
    rw [forall_mem_append, forall_mem_singleton] at h
    obtain ⟨htake, hdrop⟩ := ih h.1
    have hshape : first ++ x :: (last ++ [b]) = (first ++ x :: last) ++ [b] := by simp
    rw [hshape, rtakeWhile_concat_pos _ _ _ h.2, rdropWhile_concat_pos _ _ _ h.2, htake, hdrop]
    exact ⟨rfl, rfl⟩

def IsDigits (digits : Line) : Prop := ∀ b ∈ digits, isAsciiDigit b = true

theorem IsDigits.notSpace {digits : Line} (h : IsDigits digits) : ∀ b ∈ digits, isByteSpace b = false ∧ b ≠ 0x3A := by
  intro b hb
  have hdigit := h b hb
  simp only [isAsciiDigit, Bool.and_eq_true, decide_eq_true_eq, UInt8.le_iff_toNat_le] at hdigit
  obtain ⟨hlow, hhigh⟩ := hdigit
  refine ⟨?_, ?_⟩
  · unfold isByteSpace
    simp [UInt8.le_iff_toNat_le, ← UInt8.toNat_inj] at hlow hhigh ⊢
    omega
  · rintro rfl
    exact absurd hhigh (by decide)

theorem parseHeader_ends {first day check : Line} (hday : IsDigits day) (hdays : day.length = 3)
    (hcheck : IsDigits check) (hchecks : check.length = 5) (hvalue : digitsValue check ≤ 0xFFFF) :
    parseHeader (first ++ 0x20 :: day ++ 0x20 :: 0x3A :: 0x20 :: check) =
      ⟨some (digitsValue day), some (digitsValue check)⟩ := by
  have hcolon : ∀ b ∈ 0x20 :: check, (decide (b ≠ 0x3A)) = true := by
    intro b hb
    rw [decide_eq_true_eq]
    rcases mem_cons.mp hb with rfl | hb
    · decide
    · exact (hcheck.notSpace b hb).2
  have hshape : first ++ 0x20 :: day ++ 0x20 :: 0x3A :: 0x20 :: check =
      (first ++ 0x20 :: day ++ [0x20]) ++ 0x3A :: (0x20 :: check) := by simp
  obtain ⟨htake, hdrop⟩ := rtakeWhile_after (p := fun b => decide (b ≠ 0x3A)) (x := 0x3A) (by decide)
    (first ++ 0x20 :: day ++ [0x20]) hcolon
  have hstrip : stripBytes (0x20 :: check) = check := by
    have hleft : (0x20 :: check).dropWhile isByteSpace = check := by
      rw [dropWhile_cons_of_pos (by decide)]
      cases check with
      | nil => rfl
      | cons b rest =>
        exact dropWhile_cons_of_neg (by simp [(hcheck.notSpace b (.head _)).1])
    rw [stripBytes, hleft, rdropWhile_eq_self_iff]
    exact fun hne => by simp [(hcheck.notSpace _ (getLast_mem hne)).1]
  have hbefore : (first ++ 0x20 :: day ++ [0x20]).rdropWhile isByteSpace = first ++ 0x20 :: day := by
    rw [rdropWhile_concat_pos _ _ _ (by decide), rdropWhile_eq_self_iff]
    intro hne
    have hlast : (first ++ 0x20 :: day).getLast hne ∈ day := by
      cases day with
      | nil => simp at hdays
      | cons b rest =>
        rw [getLast_append_of_ne_nil _ (by simp), getLast_cons (by simp)]
        exact getLast_mem _
    rw [(hday.notSpace _ hlast).1]
    exact Bool.false_ne_true
  obtain ⟨hdigits, -⟩ := rtakeWhile_after (p := isAsciiDigit) (x := 0x20) (by decide) first hday
  have hmem : (0x3A : UInt8) ∈ first ++ 0x20 :: day ++ 0x20 :: 0x3A :: 0x20 :: check := by simp
  have hne : day ≠ [] := by
    rintro rfl
    simp at hdays
  have hcne : check ≠ [] := by
    rintro rfl
    simp at hchecks
  unfold parseHeader
  rw [if_pos hmem, hshape, htake, hdrop, hstrip, dropLast_concat, hbefore, hdigits]
  simp only
  rw [if_neg hne, hdays, if_pos ⟨hcne, all_eq_true.mpr hcheck, by omega, hvalue⟩]
  rfl

theorem bytesOf_append (text more : Text) : bytesOf (text ++ more) = bytesOf text ++ bytesOf more :=
  map_append

theorem zeroFilled_read {width n : Nat} (h : n < 10 ^ width) (hwidth : 0 < width) :
    IsDigits (bytesOf (zeroFilled width n)) ∧ (bytesOf (zeroFilled width n)).length = width ∧
      digitsValue (bytesOf (zeroFilled width n)) = n := by
  have hdigit : ∀ c ∈ zeroFilled width n, c.isDigit = true := by
    intro c hc
    rcases mem_append.mp hc with hc | hc
    · rw [eq_of_mem_replicate hc]
      decide
    · exact isDigit_of_mem_numberText hc
  have hcode : ∀ c ∈ zeroFilled width n, 48 ≤ c.toNat ∧ c.toNat ≤ 57 := by
    intro c hc
    simpa [Char.isDigit, UInt32.le_iff_toNat_le] using hdigit c hc
  have hlength : (numberText n).length ≤ width :=
    (Nat.length_toDigits_le_iff (by omega) hwidth).mpr h
  refine ⟨?_, ?_, ?_⟩
  · intro b hb
    obtain ⟨c, hc, rfl⟩ := mem_map.mp hb
    obtain ⟨hlow, hhigh⟩ := hcode c hc
    have hbyte := toNat_byte (c := c) (by omega)
    simp only [isAsciiDigit, Bool.and_eq_true, decide_eq_true_eq, UInt8.le_iff_toNat_le, hbyte]
    exact ⟨hlow, hhigh⟩
  · rw [bytesOf, length_map, zeroFilled, length_append, length_replicate]
    omega
  · have hvalue : digitsValue (bytesOf (zeroFilled width n)) =
        (zeroFilled width n).foldl (fun n c => 10 * n + (c.toNat - 48)) 0 := by
      unfold digitsValue bytesOf
      rw [foldl_map]
      refine foldl_ext _ _ _ fun value c hc => ?_
      rw [toNat_byte (c := c) (by have := hcode c hc; omega)]
    have hzeros : ∀ zeros, (List.replicate zeros '0').foldl (fun n c => 10 * n + (c.toNat - 48)) 0 = 0 := by
      intro zeros
      induction zeros with
      | zero => rfl
      | succ zeros ih => exact ih
    rw [hvalue, zeroFilled, foldl_append, hzeros]
    exact Nat.ofDigitChars_ten_toDigits

variable {lib : Libraries}

inductive Answers (lib : Libraries) (flags : List Text) : Text → Nat → Prop where
  | bare {value host : Text} {port : Option Nat} (ibn : flagValue lib "IBN" false flags = some [])
      (ina : flagValue lib "INA" true flags = some value) (valid : parseHostPort lib value = some (host, port)) :
      Answers lib flags host defaultPort
  | port {digits value host : Text} {number : Nat} {port : Option Nat}
      (ibn : flagValue lib "IBN" false flags = some digits) (isDigits : isDigits lib.toCharacterTables digits = true)
      (int : lib.int digits = some (number : Int)) (range : 0 < number ∧ number < 65536)
      (ina : flagValue lib "INA" true flags = some value) (valid : parseHostPort lib value = some (host, port)) :
      Answers lib flags host number
  | host {value host : Text} {port : Option Nat} (ibn : flagValue lib "IBN" false flags = some value)
      (notDigits : isDigits lib.toCharacterTables value = false) (written : value ≠ [])
      (valid : parseHostPort lib value = some (host, port)) :
      Answers lib flags host (port.getD defaultPort)

theorem parseHostPort_range {host : Text} (h : parseHostPort lib value = some (host, some port)) :
    0 < port ∧ port < 65536 := by
  have hread : ∀ (found : Text) (portText : Option Text),
      writtenPort lib found portText = some (host, some port) → 0 < port ∧ port < 65536 := by
    intro found portText h
    cases portText with
    | none => simp [writtenPort] at h
    | some digits =>
      rw [writtenPort] at h
      split at h
      · cases h
      · obtain ⟨number, -, h⟩ := Option.bind_eq_some_iff.mp h
        split at h
        · rename_i hrange
          simp only [Option.some.injEq, Prod.mk.injEq] at h
          omega
        · cases h
  simp only [parseHostPort, Option.bind_eq_bind] at h
  split at h
  · split at h
    · split at h
      · cases h
      · exact hread _ _ h
    · cases h
  · split at h
    · split at h
      · exact hread (strip value) none h
      · cases h
    · split at h
      · cases h
      · exact hread _ _ h

theorem binkpTarget_of_answers {flags : List Text} {host : Text} (h : Answers lib flags host port) :
    binkpTarget lib flags = some (host, port) := by
  have hnone : isDigits lib.toCharacterTables [] = false := rfl
  cases h with
  | bare ibn ina valid => simp [binkpTarget, ibn, ina, valid, hnone, defaultPort]
  | port ibn isDigits int range ina valid =>
    have hrange : (0 : Int) < port ∧ (port : Int) < 65536 := by omega
    simp [binkpTarget, ibn, ina, valid, isDigits, int, hrange, range.1.ne']
  | @host value host port ibn notDigits written valid =>
    have hrange : 0 < port.getD defaultPort ∧ port.getD defaultPort < 65536 := by
      cases port with
      | none => decide
      | some port => exact parseHostPort_range valid
    have hcast : (0 : Int) < (port.getD defaultPort : Nat) ∧ ((port.getD defaultPort : Nat) : Int) < 65536 := by
      omega
    simp [binkpTarget, ibn, valid, notDigits, written, hcast, hrange.1.ne']

theorem yearDay_le (day : DateTime) : yearDay day ≤ 372 := by
  obtain ⟨-, ⟨-, hmonth⟩, ⟨-, hday⟩, -⟩ := day.exist
  have hlong : ∀ month, daysInMonth day.year month ≤ 31 := by
    intro month
    unfold daysInMonth
    split
    · split <;> omega
    all_goals omega
  have hsum := sum_le_card_nsmul
    ((List.range (day.month - 1)).map fun before => daysInMonth day.year (before + 1)) 31
    (by
      intro days hdays
      obtain ⟨before, -, rfl⟩ := mem_map.mp hdays
      exact hlong _)
  rw [length_map, length_range, Nat.nsmul_eq_mul] at hsum
  have hlast := hlong day.month
  unfold yearDay
  omega

theorem bytesOf_ends {a b c m n : Text} {x : Line} (hm : bytesOf m = x ++ [0x20])
    (hn : bytesOf n = [0x20, 0x3A, 0x20]) :
    bytesOf (a ++ m ++ b ++ n ++ c) =
      bytesOf a ++ x ++ 0x20 :: bytesOf b ++ 0x20 :: 0x3A :: 0x20 :: bytesOf c := by
  simp [bytesOf_append, hm, hn]

theorem headerLine_ends (title : Text) (day : DateTime) (crc : Nat) :
    ∃ first, bytesOf (headerLine title day crc) =
      first ++ 0x20 :: bytesOf (zeroFilled 3 (yearDay day)) ++ 0x20 :: 0x3A :: 0x20 :: bytesOf (zeroFilled 5 crc) := by
  have hnumber : bytesOf " -- Day number ".toList = bytesOf " -- Day number".toList ++ [0x20] := by decide
  have hcolon : bytesOf " : ".toList = [0x20, 0x3A, 0x20] := by decide
  exact ⟨_, bytesOf_ends hnumber hcolon⟩

theorem isPrintable_numberText (n : Nat) : IsPrintable (numberText n) := (isField_numberText n).isPrintable

theorem isPrintable_zeroFilled (width n : Nat) : IsPrintable (zeroFilled width n) := by
  refine IsPrintable.append ?_ (isPrintable_numberText n)
  intro c hc
  rw [eq_of_mem_replicate hc]
  decide

theorem isPrintable_headerLine (title : Text) (day : DateTime) (crc : Nat) :
    IsPrintable (headerLine title day crc) := by
  have hweekday := @isPrintable_getD weekdays (by decide) (weekday day)
  have hmonth := @isPrintable_getD monthNames (by decide) (day.month - 1)
  have hliteral : IsPrintable ";A ".toList ∧ IsPrintable " -- ".toList ∧ IsPrintable " -- Day number ".toList ∧
      IsPrintable " : ".toList ∧ IsPrintable ", ".toList ∧ IsPrintable " ".toList := by decide
  obtain ⟨hmark, hdash, hnumber, hcolon, hcomma, hspace⟩ := hliteral
  have hdate : IsPrintable (dateText day) :=
    (((((hweekday.append hcomma).append hmonth).append hspace).append (isPrintable_numberText _)).append
      hcomma).append (isPrintable_numberText _)
  exact ((((((hmark.append (isPrintable_asciiText title)).append hdash).append hdate).append hnumber).append
    (isPrintable_zeroFilled _ _)).append hcolon).append (isPrintable_zeroFilled _ _)

theorem isPrintable_dataLine {keyword line : Text} {number : Nat} {fields cleaned : ListFields}
    (hkeyword : keyword ∈ "Host".toList :: nodeKeywords) (hcleaned : Cleaned fields cleaned)
    (h : dataLine keyword number cleaned = .ok line) : IsPrintable line := by
  rw [dataLine_eq_ok hcleaned h]
  intro c hc
  rcases mem_join hc with rfl | ⟨part, hpart, hc⟩
  · decide
  · exact (isField_partsOf hkeyword hcleaned part hpart).isPrintable c hc

variable {name : Text} {address : FtnAddress} {host : ListFields} {rows : List SegmentNode}
    {day : DateTime} {data : List UInt8}

theorem isPrintable_about (name : Text) (net : Nat) :
    IsPrintable (";A Net ".toList ++ numberText net ++ " of ".toList ++ asciiText name ++
      ", made by NetBBS ".toList ++ version) := by
  have hliteral : IsPrintable ";A Net ".toList ∧ IsPrintable " of ".toList ∧
      IsPrintable ", made by NetBBS ".toList ∧ IsPrintable version := by decide
  obtain ⟨hnet, hof, hmade, hversion⟩ := hliteral
  exact ((((hnet.append (isPrintable_numberText net)).append hof).append
    (isPrintable_asciiText name)).append hmade).append hversion

theorem buildSegment_eq_ok (h : buildSegment lib name address host rows day = .ok data) :
    ∃ title about hostFields hostLine nodeLines,
      Cleaned host hostFields ∧ dataLine "Host".toList address.net hostFields = .ok hostLine ∧
      List.Forall₂ (fun node line => segmentLine lib node = .ok line) (listSegmentNodes rows) nodeLines ∧
      IsPrintable (';' :: about) ∧
      assemble title day (";A".toList :: (';' :: about) :: ";A".toList :: hostLine :: nodeLines) = .ok data := by
  simp only [buildSegment, bind_eq_ok, reword_eq_ok] at h
  obtain ⟨hostFields, hfields, hostLine, hline, nodeLines, hnodes, hbytes⟩ := h
  rw [mapM_eq_ok] at hnodes
  refine ⟨_, _, hostFields, hostLine, nodeLines, cleanFields_eq_ok hfields, hline,
    hnodes.imp fun node line hnode => (reword_eq_ok _ _ _).mp hnode, isPrintable_about name address.net, hbytes⟩

theorem assemble_eq_ok (h : assemble title day body = .ok data) :
    data = rawText ((headerLine title day (listCrc ([] :: body.map bytesOf)) :: body).map bytesOf) ++ [0x1A] := by
  simp only [assemble, bind_eq_ok, pure_eq_ok] at h
  obtain ⟨lines, hlines, head, hhead, rfl⟩ := h
  rw [mapM_eq_ok] at hlines
  have hbody : lines = body.map bytesOf := by
    clear hhead
    induction hlines with
    | nil => rfl
    | cons hline _ ih => rw [map_cons, ih, encodeAscii_eq_ok hline]
  rw [encodeAscii_eq_ok hhead, hbody, map_cons]

theorem isPrintable_mark : IsPrintable ";A".toList := by decide

theorem encodeAscii_of_isPrintable (h : IsPrintable text) : encodeAscii text = .ok (bytesOf text) := by
  refine if_pos (all_eq_true.mpr fun c hc => ?_)
  have hhigh := (h c hc).2
  exact decide_eq_true (by omega)

theorem assemble_of_isPrintable (title : Text) (day : DateTime)
    (h : ∀ line ∈ body, IsPrintable line) : ∃ data, assemble title day body = .ok data := by
  have hlines : body.mapM encodeAscii = .ok (body.map bytesOf) := by
    rw [mapM_eq_ok]
    induction body with
    | nil => exact .nil
    | cons line body ih =>
      obtain ⟨hline, hbody⟩ := forall_mem_cons.mp h
      exact .cons (encodeAscii_of_isPrintable hline) (ih hbody)
  unfold assemble
  rw [hlines, ok_bind, encodeAscii_of_isPrintable (isPrintable_headerLine _ _ _), ok_bind]
  exact ⟨_, rfl⟩

/-- A file that was assembled passes the check of its first line. -/
theorem checkCrc_assembled (hbody : ∀ line ∈ body, IsPrintable line) :
    checkCrc (listLines (rawText ((headerLine title day (listCrc ([] :: body.map bytesOf)) :: body).map bytesOf) ++
      [0x1A])) true = .ok ⟨some (yearDay day), some (listCrc ([] :: body.map bytesOf))⟩ := by
  generalize hcrc : listCrc ([] :: body.map bytesOf) = crc
  have hlines : ∀ line ∈ headerLine title day crc :: body, IsPrintable line :=
    forall_mem_cons.mpr ⟨isPrintable_headerLine title day crc, hbody⟩
  have hsmall : crc < 65536 := hcrc ▸ Zmodem.crc16_lt _
  obtain ⟨first, hhead⟩ := headerLine_ends title day crc
  obtain ⟨hday, hdays, hdayValue⟩ := @zeroFilled_read 3 (yearDay day)
    (Nat.lt_of_le_of_lt (yearDay_le day) (by decide)) (by decide)
  obtain ⟨hcrcDigits, hcrcs, hcrcValue⟩ := @zeroFilled_read 5 crc
    (Nat.lt_of_lt_of_le hsmall (by decide)) (by decide)
  have hheader := @parseHeader_ends first _ _ hday hdays hcrcDigits hcrcs (by omega)
  rw [hdayValue, hcrcValue, ← hhead] at hheader
  rw [listLines_bytesOf hlines, map_cons]
  unfold checkCrc
  simp only
  rw [hheader]
  simp only
  exact if_neg (not_not.mpr hcrc)

theorem length_rows_le (hdistinct : (rows.map SegmentNode.node).Nodup)
    (hrange : ∀ node ∈ rows, 1 ≤ node.node ∧ node.node ≤ maxNodeNumber) : rows.length ≤ maxNodeNumber + 1 := by
  have hsub : rows.map SegmentNode.node ⊆ List.range (maxNodeNumber + 1) := by
    intro number hnumber
    obtain ⟨node, hnode, rfl⟩ := mem_map.mp hnumber
    exact mem_range.mpr (Nat.lt_succ_of_le (hrange node hnode).2)
  have hlength := (subperm_of_subset hdistinct hsub).length_le
  rwa [length_map, length_range] at hlength

theorem isPrintable_nodeLines {nodes : List SegmentNode}
    (h : List.Forall₂ (fun node line => segmentLine lib node = .ok line) nodes lines) :
    ∀ line ∈ lines, IsPrintable line := by
  induction h with
  | nil => exact fun line hline => absurd hline not_mem_nil
  | cons hline _ ih =>
    obtain ⟨hword, cleaned, hfields, hdata⟩ := segmentLine_eq_ok hline
    exact forall_mem_cons.mpr ⟨isPrintable_dataLine (.tail _ hword) hfields hdata, ih⟩

theorem listSegmentNodes_ordered (hdistinct : (rows.map SegmentNode.node).Nodup) :
    ((listSegmentNodes rows).map SegmentNode.node).Pairwise (· < ·) := by
  have hsorted : (listSegmentNodes rows).Pairwise fun a b => a.node ≤ b.node :=
    pairwise_insertionSort _ rows
  have hnodup : ((listSegmentNodes rows).map SegmentNode.node).Nodup :=
    ((perm_insertionSort _ rows).map SegmentNode.node).nodup_iff.mpr hdistinct
  rw [pairwise_map]
  refine (hsorted.and (pairwise_map.mp hnodup)).imp ?_
  rintro a b ⟨hle, hne⟩
  exact lt_of_le_of_ne hle hne

theorem buildSegment_of_lines {hostFields : ListFields} {hostLine : Text} {nodeLines : List Text}
    (hfields : cleanFields lib host {} = .ok hostFields)
    (hhost : dataLine "Host".toList address.net hostFields = .ok hostLine)
    (hnodes : List.Forall₂ (fun node line => segmentLine lib node = .ok line) (listSegmentNodes rows) nodeLines) :
    ∃ data, buildSegment lib name address host rows day = .ok data := by
  have hmap : (listSegmentNodes rows).mapM (fun node =>
      reword (fun message => "Node %d: " ++ message) (segmentLine lib node)) = .ok nodeLines :=
    (mapM_eq_ok _ _ _).mpr (hnodes.imp fun node line hnode => (reword_eq_ok _ _ _).mpr hnode)
  unfold buildSegment
  rw [(reword_eq_ok _ _ _).mpr hfields, ok_bind, (reword_eq_ok _ _ _).mpr hhost, ok_bind, hmap, ok_bind]
  refine assemble_of_isPrintable _ day ?_
  simp only [forall_mem_cons]
  exact ⟨isPrintable_mark, isPrintable_about name address.net, isPrintable_mark,
    isPrintable_dataLine (.head _) (cleanFields_eq_ok hfields) hhost, isPrintable_nodeLines hnodes⟩

theorem readsAscii_sampleTables : ReadsAscii sampleTables where
  isDigit c h := by simp [sampleTables, plainTables, h]
  lower _ _ := rfl
  int n hn := by
    have hdigits : ∀ c ∈ numberText n, c.isDigit = true := fun c hc => isDigit_of_mem_numberText hc
    have hlength : (numberText n).length ≤ 5 := (Nat.length_toDigits_le_iff (by omega) (by omega)).mpr (by omega)
    have hcast : ∀ (text : Text) (value : Nat),
        text.foldl (fun n c => 10 * n + ((c.toNat - 48 : Nat) : Int)) (value : Int) =
          ((text.foldl (fun n c => 10 * n + (c.toNat - 48)) value : Nat) : Int) := by
      intro text
      induction text with
      | nil => exact fun _ => rfl
      | cons c rest ih =>
        intro value
        rw [foldl_cons, foldl_cons, ← ih]
        push_cast
        rfl
    have hvalue : (numberText n).foldl (fun n c => 10 * n + (c.toNat - 48)) 0 = n := Nat.ofDigitChars_ten_toDigits
    show (if _ then some _ else none) = _
    rw [if_pos ⟨numberText_ne_nil n, by omega, all_eq_true.mpr hdigits⟩]
    refine congrArg some ?_
    have hzero := hcast (numberText n) 0
    rw [hvalue] at hzero
    exact hzero

theorem two_le : 2 ≤ Ftn.maxNumber := by decide
theorem five_le : 5 ≤ Ftn.maxNumber := by decide
theorem one_le : 1 ≤ Ftn.maxNumber := by decide
theorem zero_le_maxNumber : 0 ≤ Ftn.maxNumber := by decide
theorem isDomain_none : ∀ d ∈ (none : Option String), Ftn.isDomain d = true := by simp

def sampleAddress : FtnAddress where
  zone := 2
  net := 5
  node := 1
  zone_le := two_le
  net_le := five_le
  node_le := one_le
  point_le := zero_le_maxNumber
  domain_isDomain := isDomain_none

def sampleDay : DateTime where
  year := 2026
  month := 10
  day := 23
  hour := 0
  minute := 0
  second := 0
  exist := by decide

def sampleFields (name flags : String) : ListFields where
  name := name.toList
  location := "Here".toList
  sysop := "Me".toList
  flags := flags.toList

def sampleRows : List SegmentNode :=
  [⟨7, sampleFields "Far out" "IBN:24555,INA:far.example", "Pvt".toList⟩, ⟨3, sampleFields "Near" "", "Down".toList⟩]

end NetBBS.Nodelist
