import NetBBS.Net.ZmodemReceiver
import NetBBS.Qwk.Records

/-! # Importing a nodelist -/

namespace NetBBS.Nodelist

open Foundation Qwk List

abbrev Line := List UInt8

def maxNodelistBytes : Nat := 64 * 1024 * 1024
def maxEntries : Nat := 200000
def defaultPort : Nat := 24554

inductive Fault where
  | nodelistError (message : String)
  | valueError
deriving DecidableEq

structure NodelistEntry where
  zone : Nat
  net : Nat
  node : Nat
  name : Text
  binkpHost : Option Text
  binkpPort : Option Nat
deriving DecidableEq

structure Libraries extends CharacterTables where
  isIpv6 : Text → Bool

variable (lib : Libraries)

/-- `text.split(sep)`. -/
def splitAt (sep : Char) : Text → List Text
  | [] => [[]]
  | c :: rest =>
    match splitAt sep rest with
    | [] => [[c]]
    | first :: others => if c = sep then [] :: first :: others else (c :: first) :: others

/-- `_NAME` matches the whole text. -/
def isHostName (text : Text) : Bool :=
  let inner (c : Char) : Bool := c.isAlphanum || c == '_' || c == '.' || c == '-'
  let outer (c : Char) : Bool := c.isAlphanum || c == '_'
  match text with
  | [] => false
  | first :: rest =>
    outer first && decide (rest.length ≤ 252) && rest.all inner &&
      (rest.getLast?.all fun c => outer c || c == '.')

/-- The end of `parse_host_port`, which reads the port. -/
def writtenPort (host : Text) : Option Text → Option (Text × Option Nat)
  | none => some (host, none)
  | some port =>
    if isDigits lib.toCharacterTables port = false then none
    else (lib.int port).bind fun number =>
      if 0 < number ∧ number < 65536 then some (host, some number.toNat) else none

/-- `parse_host_port`; `none` where it raises `ValueError`. -/
def parseHostPort (value : Text) : Option (Text × Option Nat) := do
  let text := Text.strip value
  let (host, portText) ←
    if text.head? = some '[' then
      if ']' ∈ text then
        let host := Text.before ']' text.tail
        let rest := Text.after ']' text
        if lib.isIpv6 host = false ∨ (rest ≠ [] ∧ rest.head? ≠ some ':') then none
        else some (host, if rest = [] then none else some rest.tail)
      else none
    else if 2 ≤ text.count ':' then
      if lib.isIpv6 text = true then some (text, none) else none
    else
      let port := Text.after ':' text
      if (port = [] ∧ text.getLast? = some ':') ∨ isHostName (Text.before ':' text) = false then none
      else some (Text.before ':' text, if port = [] then none else some port)
  writtenPort lib host portText

def flagValue (name : String) (valued : Bool) (flags : List Text) : Option Text :=
  flags.findSome? fun flag =>
    let flag := Text.strip flag
    let value := Text.after ':' flag
    if lib.upper (Text.before ':' flag) = name.toList ∧ (valued = true → value ≠ []) then some value else none

def binkpTarget (flags : List Text) : Option (Text × Nat) := do
  let ibn ← flagValue lib "IBN" false flags
  let (host, port) ←
    if isDigits lib.toCharacterTables ibn = true then (lib.int ibn).map fun port => (none, port)
    else if ibn ≠ [] then
      (parseHostPort lib ibn).map fun written =>
        (some written.1, ((written.2.getD defaultPort : Nat) : Int))
    else some (none, (defaultPort : Int))
  let host ←
    match host, flagValue lib "INA" true flags with
    | none, some ina => (parseHostPort lib ina).map fun written => some written.1
    | host, _ => some host
  let host ← host
  if 0 < port ∧ port < 65536 then some (host, port.toNat) else none

def lineFields (raw : Text) : Option (List Text) :=
  let line := Text.strip raw
  if line = [] ∨ line.head? = some ';' then none else some (splitAt ',' line)

def numberField (raw : Text) : Option Text := do
  let fields ← lineFields raw
  let number := Text.strip (fields.getD 1 [])
  if fields.length < 3 ∨ isDigits lib.toCharacterTables number = false then none else some number

def place (keyword : Text) (number : Nat) (held : Option (Nat × Nat)) :
    Except Fault (Option (Nat × Nat × Nat)) :=
  if keyword = "zone".toList then pure (some (number, number, 0))
  else if keyword = "region".toList ∨ keyword = "host".toList then
    match held with
    | none => .error (.nodelistError "a net is listed before any Zone line")
    | some (zone, _) => pure (some (zone, number, 0))
  else if keyword = [] ∨ keyword = "hub".toList ∨ keyword = "pvt".toList then
    match held with
    | none => .error (.nodelistError "a node is listed before any Zone line")
    | some (zone, net) => pure (some (zone, net, number))
  else pure none

def parseLines (held : Option (Nat × Nat)) (count : Nat) : List Text → Except Fault (List NodelistEntry)
  | [] => pure []
  | raw :: rest =>
    match numberField lib raw with
    | none => parseLines held count rest
    | some numberText => do
      let fields := (lineFields raw).getD []
      let number ← orRefuse (lib.int numberText) .valueError
      if 0xFFFF < number then parseLines held count rest
      else
        match ← place (lib.lower (Text.strip (fields.headD []))) number.toNat held with
        | none => parseLines held count rest
        | some (zone, net, node) => do
          refuseIf (maxEntries ≤ count) (.nodelistError "more than %d entries")
          let target := binkpTarget lib (fields.drop 7)
          let name := ((Text.strip (fields.getD 2 [])).map fun c => if c = '_' then ' ' else c).take 60
          let entries ← parseLines (some (zone, net)) (count + 1) rest
          pure (⟨zone, net, node, name, target.map Prod.fst, target.map Prod.snd⟩ :: entries)

def textLines (text : Text) : List Text := splitLines (Text.before (Char.ofNat 0x1A) text)

def parseNodelist (text : Text) (zone : Option Nat) : Except Fault (List NodelistEntry) :=
  parseLines lib (zone.map fun zone => (zone, zone)) 0 (textLines text)

/-- `_LINE_END.split`, with the line being read. -/
def splitLineEnds (line : Line) : List UInt8 → List Line
  | [] => [line]
  | 0x0D :: 0x0A :: rest => line :: splitLineEnds [] rest
  | b :: rest =>
    if b = 0x0A ∨ b = 0x0D then line :: splitLineEnds [] rest else splitLineEnds (line ++ [b]) rest

def listLines (data : List UInt8) : List Line :=
  let lines := splitLineEnds [] (data.takeWhile (· ≠ 0x1A))
  if lines.getLast? = some [] then lines.dropLast else lines

def rawText (lines : List Line) : List UInt8 := lines.flatMap fun line => line ++ [0x0D, 0x0A]

structure ListHeader where
  day : Option Nat
  crc : Option Nat

def isByteSpace (b : UInt8) : Bool := b = 0x20 || (0x09 ≤ b && b ≤ 0x0D)

def digitsValue (digits : List UInt8) : Nat := digits.foldl (fun n b => 10 * n + (b.toNat - 0x30)) 0

def stripBytes (bytes : List UInt8) : List UInt8 := (bytes.dropWhile isByteSpace).rdropWhile isByteSpace

def parseHeader (line : Line) : ListHeader :=
  if 0x3A ∈ line then
    let text := stripBytes (line.rtakeWhile (· ≠ 0x3A))
    let digits := ((line.rdropWhile (· ≠ 0x3A)).dropLast.rdropWhile isByteSpace).rtakeWhile isAsciiDigit
    { day := if digits = [] then none else some (digitsValue (digits.drop (digits.length - 3)))
      crc := if text ≠ [] ∧ text.all isAsciiDigit = true ∧ text.length ≤ 5 ∧ digitsValue text ≤ 0xFFFF then
          some (digitsValue text)
        else none }
  else ⟨none, none⟩

/-- `list_crc`: going on with the CRC of one line is the CRC of all of them. -/
def listCrc (lines : List Line) : Nat := Zmodem.crc16 (rawText lines.tail)

def checkCrc (lines : List Line) (required : Bool) : Except Fault ListHeader :=
  match lines with
  | [] => .error (.nodelistError "the file is empty")
  | first :: _ =>
    let header := parseHeader first
    match header.crc with
    | none =>
      if required = true then
        .error (.nodelistError "its first line carries no CRC-16 (Day number nnn : ccccc)")
      else pure header
    | some crc =>
      if listCrc lines ≠ crc then .error (.nodelistError "CRC-16 mismatch: the first line says %d, the list is %d")
      else pure header

inductive DiffLetter where
  | add | copy | delete
deriving DecidableEq

def diffCommand (line : Line) : Option (DiffLetter × Nat) := do
  let letter :: digits := stripBytes line | none
  let command ←
    if letter = 0x41 ∨ letter = 0x61 then some DiffLetter.add
    else if letter = 0x43 ∨ letter = 0x63 then some .copy
    else if letter = 0x44 ∨ letter = 0x64 then some .delete
    else none
  if 1 ≤ digits.length ∧ digits.length ≤ 6 ∧ digits.all isAsciiDigit = true then
    some (command, digitsValue digits)
  else none

def runDiff (size : Nat) (source : List Line) : List Line → Except Fault (List Line)
  | [] => pure []
  | line :: rest =>
    match diffCommand line with
    | none => .error (.nodelistError "line %d is not an A, C or D command")
    | some (letter, count) => do
      refuseIf (letter = .add ∧ rest.length < count)
        (.nodelistError "an A%d at line %d runs past the end of the diff")
      refuseIf (letter ≠ .add ∧ source.length < count)
        (.nodelistError "a %s%d runs past the end of the kept list")
      let added := match letter with
        | .add => rest.take count
        | .copy => source.take count
        | .delete => []
      let size := size + (added.map fun line => line.length + 2).sum
      refuseIf (maxNodelistBytes < size) (.nodelistError "the list it makes is over %d MiB")
      let more ← runDiff size (if letter = .add then source else source.drop count)
        (rest.drop (if letter = .add then count else 0))
      pure (added ++ more)
termination_by diff => diff.length
decreasing_by
  simp only [length_drop, length_cons]
  omega

def applyNodediff (base diff : List Line) : Except Fault (List Line) := do
  refuseIf (base = []) (.nodelistError "there is no kept list to apply it to")
  refuseIf (diff.head? = none ∨ diff.head? ≠ base.head?)
    (.nodelistError "it is for another list (its first line is not the kept list's)")
  runDiff 0 base diff.tail

def resultHeader : List Line → Option Line
  | [] => none
  | line :: rest =>
    match diffCommand line with
    | none => none
    | some (.copy, _) => none
    | some (.add, count) => if count = 0 then none else rest.head?
    | some (.delete, _) => resultHeader rest

def diffResultHeader (diff : List Line) : Option Line := resultHeader diff.tail

structure Stored where
  entries : Dict (Nat × Nat × Nat) NodelistEntry := .empty
  raw : Option (List UInt8) := none
  importedAt : Option String := none
  nodes : Nat := 0
  day : Option Nat := none
  how : String := ""
  crc : Option Nat := none
  waitingFull : Bool := false

structure ImportOutcome where
  nodes : Nat
  day : Option Nat
  crc : Option Nat
deriving DecidableEq

/-- `import_list`: the tables are written in one transaction, after everything that may raise. -/
def importList (stored : Stored) (data : List UInt8) (how : String) (requireCrc : Bool) (zone : Option Nat)
    (now : String) : Except Fault ImportOutcome × Stored :=
  let read : Except Fault (ListHeader × List NodelistEntry) := do
    refuseIf (maxNodelistBytes < data.length) (.nodelistError "a nodelist over %d MiB is not imported")
    let header ← checkCrc (listLines data) requireCrc
    let entries ← parseNodelist lib (Text.join '\n' ((listLines data).map fromCp437)) zone
    refuseIf (entries = []) (.nodelistError "no nodes found: is this a nodelist?")
    pure (header, entries)
  match read with
  | .error fault => (.error fault, stored)
  | .ok (header, entries) =>
    (.ok ⟨entries.length, header.day, header.crc⟩,
      { entries := entries.foldl (fun rows entry => rows.set (entry.zone, entry.net, entry.node) entry) .empty
        raw := some (rawText (listLines data))
        importedAt := some now
        nodes := entries.length
        day := header.day
        how
        crc := header.crc
        waitingFull := false })

/-- `kept_list`, empty where none is kept. -/
def Stored.kept (stored : Stored) : List Line := (stored.raw.map listLines).getD []

def applyDiff (stored : Stored) (data : List UInt8) (now : String) :
    Except Fault (Option ImportOutcome) × Stored :=
  if maxNodelistBytes < data.length then (.error (.nodelistError "a diff over %d MiB is not applied"), stored)
  else
    let diff := listLines data
    if stored.kept ≠ [] ∧ diff ≠ [] ∧ diff.head? ≠ stored.kept.head? ∧
        diffResultHeader diff = stored.kept.head? then (.ok none, stored)
    else
      match applyNodediff stored.kept diff with
      | .error fault => (.error fault, stored)
      | .ok result =>
        match checkCrc result true with
        | .error _ => (.error (.nodelistError "the list it makes fails its check: %s"), stored)
        | .ok _ =>
          match importList lib stored (rawText result) "diff" true none now with
          | (.error fault, after) => (.error fault, after)
          | (.ok outcome, after) => (.ok (some outcome), after)

def IsLine (line : Line) : Prop := ∀ b ∈ line, b ≠ 0x0A ∧ b ≠ 0x0D ∧ b ≠ 0x1A

variable {line : Line} {diff made lines : List Line} {held : Option (Nat × Nat)}

theorem mem_splitLineEnds {found : Line} {data : List UInt8} (h : found ∈ splitLineEnds line data)
    (hline : ∀ b ∈ line, b ≠ 0x0A ∧ b ≠ 0x0D) :
    ∀ b ∈ found, (b ∈ line ∨ b ∈ data) ∧ b ≠ 0x0A ∧ b ≠ 0x0D := by
  fun_induction splitLineEnds line data with
  | case1 line =>
    rw [mem_singleton] at h
    exact fun b hb => ⟨.inl (h ▸ hb), hline b (h ▸ hb)⟩
  | case2 line rest ih =>
    rcases mem_cons.mp h with rfl | h
    · exact fun b hb => ⟨.inl hb, hline b hb⟩
    · intro b hb
      obtain ⟨hin, hne⟩ := ih h (by simp) b hb
      exact ⟨.inr (by simp_all), hne⟩
  | case3 line b rest _ hend ih =>
    rcases mem_cons.mp h with rfl | h
    · exact fun b hb => ⟨.inl hb, hline b hb⟩
    · intro b hb
      obtain ⟨hin, hne⟩ := ih h (by simp) b hb
      exact ⟨.inr (by simp_all), hne⟩
  | case4 line b rest _ hend ih =>
    have hline' : ∀ c ∈ line ++ [b], c ≠ 0x0A ∧ c ≠ 0x0D := by
      intro c hc
      rcases mem_append.mp hc with hc | hc
      · exact hline c hc
      · rw [mem_singleton.mp hc]
        exact not_or.mp hend
    intro c hc
    obtain ⟨hin, hne⟩ := ih h hline' c hc
    refine ⟨?_, hne⟩
    rw [mem_append, mem_singleton, or_assoc] at hin
    rwa [mem_cons]

theorem isLine_listLines {data : List UInt8} (h : line ∈ listLines data) : IsLine line := by
  have hmem : line ∈ splitLineEnds [] (data.takeWhile (· ≠ 0x1A)) := by
    unfold listLines at h
    simp only at h
    split at h
    · exact dropLast_subset _ h
    · exact h
  intro b hb
  obtain ⟨hin, hne⟩ := mem_splitLineEnds hmem (by simp) b hb
  have hkept : b ∈ data.takeWhile (· ≠ 0x1A) := by simpa using hin
  exact ⟨hne.1, hne.2, by simpa using mem_takeWhile_imp hkept⟩

theorem splitLineEnds_line {more : Line} (hmore : IsLine more) (rest : List UInt8) :
    splitLineEnds line (more ++ 0x0D :: 0x0A :: rest) = (line ++ more) :: splitLineEnds [] rest := by
  induction more generalizing line with
  | nil => rw [nil_append, splitLineEnds, append_nil]
  | cons b more ih =>
    obtain ⟨⟨hlf, hcr, -⟩, hmore⟩ := forall_mem_cons.mp hmore
    rw [cons_append, splitLineEnds.eq_def]
    split
    · rename_i heq
      simp at heq
    · rename_i heq
      rw [List.cons.injEq] at heq
      exact absurd heq.1 hcr
    · rename_i heq
      rw [List.cons.injEq] at heq
      obtain ⟨rfl, rfl⟩ := heq
      rw [if_neg (not_or.mpr ⟨hlf, hcr⟩), ih hmore, append_assoc, singleton_append]

theorem listLines_rawText (h : ∀ line ∈ lines, IsLine line) :
    listLines (rawText lines) = lines := by
  have hwhole : (rawText lines).takeWhile (· ≠ 0x1A) = rawText lines := by
    rw [takeWhile_eq_self_iff]
    intro b hb
    obtain ⟨line, hline, hb⟩ := mem_flatMap.mp hb
    rcases mem_append.mp hb with hb | hb
    · simpa using (h line hline b hb).2.2
    · rcases mem_pair.mp hb with rfl | rfl <;> decide
  have hsplit : splitLineEnds [] (rawText lines) = lines ++ [[]] := by
    clear hwhole
    induction lines with
    | nil => rfl
    | cons line lines ih =>
      obtain ⟨hline, hlines⟩ := forall_mem_cons.mp h
      have hraw : rawText (line :: lines) = line ++ 0x0D :: 0x0A :: rawText lines := by simp [rawText]
      rw [hraw, splitLineEnds_line hline, ih hlines, nil_append, cons_append]
  unfold listLines
  rw [hwhole, hsplit]
  simp

variable {size : Nat} {base source : List Line} {required : Bool} {outcome : ImportOutcome}

theorem mem_runDiff (h : runDiff size source diff = .ok made) :
    ∀ line ∈ made, line ∈ source ∨ line ∈ diff := by
  fun_induction runDiff size source diff generalizing made with
  | case1 size source =>
    obtain rfl : [] = made := by simpa [pure_eq_ok] using h
    simp
  | case2 => cases h
  | case3 size source line rest letter count _ ih =>
    simp only [bind_eq_ok, refuseIf_eq_ok, exists_const, pure_eq_ok] at h
    obtain ⟨-, -, -, more, hmore, rfl⟩ := h
    intro found hfound
    rcases mem_append.mp hfound with hadded | hfound
    · cases letter with
      | add => exact .inr (.tail _ (mem_of_mem_take hadded))
      | copy => exact .inl (mem_of_mem_take hadded)
      | delete => simp at hadded
    · rcases ih hmore found hfound with hold | hnew
      · left
        split at hold
        · exact hold
        · exact mem_of_mem_drop hold
      · exact .inr (.tail _ (mem_of_mem_drop hnew))

variable {lib : Libraries} {stored after : Stored} {data : List UInt8}

/-- `int` reads every number that `isdigit` takes for one. -/
def NumbersRead (lib : Libraries) (lines : List Line) : Prop :=
  ∀ raw ∈ textLines (Text.join '\n' (lines.map fromCp437)), ∀ number, numberField lib raw = some number →
    (lib.int number).isSome = true

structure Checked (required : Bool) (lines : List Line) : Prop where
  crc : ∀ first, lines.head? = some first → ∀ crc, (parseHeader first).crc = some crc → crc = listCrc lines
  carried : required = true → ∃ first crc, lines.head? = some first ∧ (parseHeader first).crc = some crc

theorem checked_of_checkCrc {header : ListHeader}
    (h : checkCrc lines required = .ok header) : Checked required lines := by
  cases lines with
  | nil => cases h
  | cons first rest =>
    unfold checkCrc at h
    simp only at h
    cases hcrc : (parseHeader first).crc with
    | none =>
      rw [hcrc] at h
      simp only at h
      split at h
      · cases h
      · rename_i hrequired
        refine ⟨?_, fun hneeded => absurd hneeded hrequired⟩
        rintro _ ⟨⟩ crc hother
        rw [hcrc] at hother
        cases hother
    | some crc =>
      rw [hcrc] at h
      simp only at h
      split at h
      · cases h
      · rename_i hsame
        refine ⟨?_, fun _ => ⟨first, crc, rfl, hcrc⟩⟩
        rintro _ ⟨⟩ other hother
        rw [hcrc, Option.some.injEq] at hother
        rw [← hother]
        exact (not_not.mp hsame).symm

theorem place_error {keyword : Text} {number : Nat} {fault : Fault}
    (h : place keyword number held = .error fault) : fault ≠ .valueError := by
  unfold place at h
  split at h
  · exact absurd h (pure_ne_error _ _)
  · split at h
    · cases held with
      | none =>
        cases h
        simp
      | some held => exact absurd h (pure_ne_error _ _)
    · split at h
      · cases held with
        | none =>
          cases h
          simp
        | some held => exact absurd h (pure_ne_error _ _)
      · exact absurd h (pure_ne_error _ _)

theorem parseLines_error {count : Nat} {lines : List Text} {fault : Fault}
    (hread : ∀ raw ∈ lines, ∀ number, numberField lib raw = some number → (lib.int number).isSome = true)
    (h : parseLines lib held count lines = .error fault) : fault ≠ .valueError := by
  induction lines generalizing held count with
  | nil => simp [parseLines] at h
  | cons raw rest ih =>
    obtain ⟨hraw, hrest⟩ := forall_mem_cons.mp hread
    rw [parseLines] at h
    cases hnumber : numberField lib raw with
    | none =>
      rw [hnumber] at h
      exact ih hrest h
    | some numberText =>
      obtain ⟨number, hint⟩ := Option.isSome_iff_exists.mp (hraw numberText hnumber)
      rw [hnumber] at h
      simp only [hint, orRefuse_some, ok_bind] at h
      split at h
      · exact ih hrest h
      · rcases (bind_eq_error _ _ _).mp h with h | ⟨placed, -, h⟩
        · exact place_error h
        · cases placed with
          | none => exact ih hrest h
          | some placed =>
            obtain ⟨zone, net, node⟩ := placed
            simp only [bind_eq_error, refuseIf_eq_error, refuseIf_eq_ok, exists_const, pure_ne_error, and_false,
              or_false] at h
            rcases h with ⟨-, rfl⟩ | ⟨-, h⟩
            · simp
            · exact ih hrest h

theorem checkCrc_error {fault : Fault}
    (h : checkCrc lines required = .error fault) : fault ≠ .valueError := by
  unfold checkCrc at h
  rintro rfl
  split at h
  · cases h
  · simp only at h
    split at h
    · split at h <;> cases h
    · split at h <;> cases h

theorem runDiff_error {fault : Fault}
    (h : runDiff size source diff = .error fault) : fault ≠ .valueError := by
  fun_induction runDiff size source diff with
  | case1 => simp at h
  | case2 =>
    cases h
    simp
  | case3 size source line rest letter count _ ih =>
    simp only [bind_eq_error, refuseIf_eq_error, refuseIf_eq_ok, exists_const, pure_ne_error, and_false,
      or_false] at h
    rcases h with ⟨-, rfl⟩ | ⟨-, ⟨-, rfl⟩ | ⟨-, ⟨-, rfl⟩ | ⟨-, h⟩⟩⟩
    · simp
    · simp
    · simp
    · exact ih h

theorem applyNodediff_error {fault : Fault}
    (h : applyNodediff base diff = .error fault) : fault ≠ .valueError := by
  simp only [applyNodediff, bind_eq_error, refuseIf_eq_error, refuseIf_eq_ok, exists_const] at h
  rcases h with ⟨-, rfl⟩ | ⟨-, ⟨-, rfl⟩ | ⟨-, h⟩⟩
  · simp
  · simp
  · exact runDiff_error h

theorem Fault.eq_nodelistError {fault : Fault} (h : fault ≠ .valueError) :
    ∃ message, fault = .nodelistError message := by
  cases fault with
  | nodelistError message => exact ⟨message, rfl⟩
  | valueError => exact absurd rfl h

variable {how : String} {requireCrc : Bool} {zone : Option Nat} {now : String} {fault : Fault}

theorem importList_error
    (h : importList lib stored data how requireCrc zone now = (.error fault, after)) :
    after = stored ∧ (NumbersRead lib (listLines data) → ∃ message, fault = .nodelistError message) := by
  unfold importList at h
  simp only at h
  split at h
  · rename_i raised hread
    obtain ⟨hfault, rfl⟩ := Prod.mk.inj h
    obtain rfl : raised = fault := Except.error.inj hfault
    refine ⟨rfl, fun hnumbers => Fault.eq_nodelistError ?_⟩
    simp only [bind_eq_error, refuseIf_eq_error, refuseIf_eq_ok, exists_const, pure_ne_error, and_false,
      or_false] at hread
    rcases hread with ⟨-, rfl⟩ | ⟨-, hcheck | ⟨_, -, hentries | ⟨_, -, -, rfl⟩⟩⟩
    · simp
    · exact checkCrc_error hcheck
    · exact parseLines_error hnumbers hentries
    · simp
  · exact absurd (Prod.mk.inj h).1 (by simp)

theorem importList_ok
    (h : importList lib stored data how requireCrc zone now = (.ok outcome, after)) :
    after.raw = some (rawText (listLines data)) ∧ Checked requireCrc (listLines data) := by
  unfold importList at h
  simp only at h
  split at h
  · exact absurd (Prod.mk.inj h).1 (by simp)
  · rename_i header entries hread
    obtain ⟨-, rfl⟩ := Prod.mk.inj h
    simp only [bind_eq_ok, refuseIf_eq_ok, exists_const, pure_eq_ok] at hread
    obtain ⟨-, _, hcheck, -⟩ := hread
    exact ⟨rfl, checked_of_checkCrc hcheck⟩

theorem kept_of_raw (h : after.raw = some (rawText lines))
    (hlines : ∀ line ∈ lines, IsLine line) : after.kept = lines := by
  rw [Stored.kept, h, Option.map_some, Option.getD_some, listLines_rawText hlines]

theorem isLine_kept (h : line ∈ stored.kept) : IsLine line := by
  unfold Stored.kept at h
  cases hraw : stored.raw with
  | none => simp [hraw] at h
  | some raw =>
    rw [hraw, Option.map_some, Option.getD_some] at h
    exact isLine_listLines h

theorem isLine_made (h : applyNodediff stored.kept (listLines data) = .ok made) :
    ∀ line ∈ made, IsLine line := by
  simp only [applyNodediff, bind_eq_ok, refuseIf_eq_ok, exists_const] at h
  obtain ⟨-, -, hrun⟩ := h
  intro line hline
  rcases mem_runDiff hrun line hline with hold | hnew
  · exact isLine_kept hold
  · exact isLine_listLines (mem_of_mem_tail hnew)

theorem head_of_applyNodediff (h : applyNodediff base diff = .ok made) :
    base ≠ [] ∧ diff ≠ [] ∧ diff.head? = base.head? := by
  simp only [applyNodediff, bind_eq_ok, refuseIf_eq_ok, exists_const, not_or, not_not] at h
  obtain ⟨hbase, ⟨hdiff, hsame⟩, -⟩ := h
  exact ⟨hbase, fun hnil => hdiff (by rw [hnil, head?_nil]), hsame⟩

theorem applyDiff_other (hother : (listLines data).head? ≠ stored.kept.head?) :
    (applyDiff lib stored data now).2 = stored ∧
      ((applyDiff lib stored data now).1 = .ok none ∨
        ∃ message, (applyDiff lib stored data now).1 = .error (.nodelistError message)) := by
  unfold applyDiff
  split
  · exact ⟨rfl, .inr ⟨_, rfl⟩⟩
  · simp only
    split
    · exact ⟨rfl, .inl rfl⟩
    · cases hmade : applyNodediff stored.kept (listLines data) with
      | error fault =>
        obtain ⟨message, rfl⟩ := Fault.eq_nodelistError (applyNodediff_error hmade)
        exact ⟨rfl, .inr ⟨message, rfl⟩⟩
      | ok made => exact absurd (head_of_applyNodediff hmade).2.2 hother

theorem applyDiff_error (h : applyDiff lib stored data now = (.error fault, after)) :
    after = stored ∧
      ((∀ made, applyNodediff stored.kept (listLines data) = .ok made → NumbersRead lib made) →
        ∃ message, fault = .nodelistError message) := by
  unfold applyDiff at h
  split at h
  · cases h
    exact ⟨rfl, fun _ => ⟨_, rfl⟩⟩
  · simp only at h
    split at h
    · cases h
    · split at h
      · rename_i raised hraised
        cases h
        exact ⟨rfl, fun _ => Fault.eq_nodelistError (applyNodediff_error hraised)⟩
      · rename_i made hmade
        split at h
        · cases h
          exact ⟨rfl, fun _ => ⟨_, rfl⟩⟩
        · split at h
          · rename_i raised left himport
            cases h
            obtain ⟨hsame, hmessage⟩ := importList_error himport
            rw [listLines_rawText (isLine_made hmade)] at hmessage
            exact ⟨hsame, fun hnumbers => hmessage (hnumbers made hmade)⟩
          · cases h

theorem applyDiff_none (h : applyDiff lib stored data now = (.ok none, after)) : after = stored := by
  unfold applyDiff at h
  split at h
  · cases h
  · simp only at h
    split at h
    · cases h
      rfl
    · split at h
      · cases h
      · split at h
        · cases h
        · split at h <;> cases h

theorem applyDiff_some (h : applyDiff lib stored data now = (.ok (some outcome), after)) :
    ∃ made, applyNodediff stored.kept (listLines data) = .ok made ∧ after.raw = some (rawText made) ∧
      after.kept = made ∧ Checked true made := by
  unfold applyDiff at h
  split at h
  · cases h
  · simp only at h
    split at h
    · cases h
    · split at h
      · cases h
      · rename_i made hmade
        split at h
        · cases h
        · split at h
          · cases h
          · rename_i imported left himport
            cases h
            obtain ⟨hraw, hchecked⟩ := importList_ok himport
            rw [listLines_rawText (isLine_made hmade)] at hraw hchecked
            exact ⟨made, hmade, hraw, kept_of_raw hraw (isLine_made hmade), hchecked⟩

def sampleTables : Libraries where
  toCharacterTables := plainTables
  isIpv6 _ := false

def lineOf (text : String) : Line := text.toList.map fun c => UInt8.ofNat c.toNat

def keptOf (lines : List String) : Stored where
  raw := some (rawText (lines.map lineOf))

def diffOf (lines : List String) : List UInt8 := rawText (lines.map lineOf)

end NetBBS.Nodelist
