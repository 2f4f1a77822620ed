import NetBBS.Qwk.PacketReaders

/-! # What gets out of the readers -/

namespace NetBBS.Qwk

open Foundation List

variable {tables : CharacterTables} {zip : ZipLibrary} {allowed : Raised → Prop}

def Unpacks (tables : CharacterTables) (archive : Archive) (name : Text) (limit : Nat)
    (found : Option (List UInt8)) : Prop :=
  (memberCalled tables archive name = none ∧ found = none) ∨
    ∃ info bytes, memberCalled tables archive name = some info ∧ info.fileSize ≤ limit ∧
      info.read (limit + 1) = .ok bytes ∧ bytes.length ≤ limit ∧ found = some bytes

def ReadRaises (allowed : Raised → Prop) (tables : CharacterTables) (archive : Archive)
    (name : Text) (limit : Nat) : Prop :=
  ∀ info, memberCalled tables archive name = some info → info.fileSize ≤ limit →
    ∀ e, info.read (limit + 1) = .error e → allowed (.zip e)

variable {archive : Archive} {name : Text} {texts : List (Text × Text)}

theorem readMember_eq_ok {limit : Nat} {found : Option (List UInt8)} :
    readMember tables archive name limit = .ok found ↔
      Unpacks tables archive name limit found := by
  unfold readMember Unpacks
  cases hmember : memberCalled tables archive name with
  | none => simp [eq_comm]
  | some info =>
    simp only [bind_eq_ok, refuseIf_eq_ok, reword_eq_ok, pure_eq_ok, Nat.not_lt]
    constructor
    · rintro ⟨-, hsize, bytes, hread, -, hlength, rfl⟩
      exact .inr ⟨info, bytes, rfl, hsize, hread, hlength, rfl⟩
    · rintro (⟨hnone, -⟩ | ⟨_, bytes, hsame, hsize, hread, hlength, rfl⟩)
      · cases hnone
      · cases hsame
        exact ⟨(), hsize, bytes, hread, (), hlength, rfl⟩

theorem raisesOnly_readMember (hformat : ∀ refusal, allowed (.format refusal))
    (archive : Archive) (name : Text) (limit : Nat) :
    RaisesOnly allowed (readMember tables archive name limit) ↔
      ReadRaises allowed tables archive name limit := by
  unfold readMember ReadRaises
  cases hmember : memberCalled tables archive name with
  | none => exact iff_of_true (raisesOnly_ok none) (fun _ h => by cases h)
  | some info =>
    rw [raisesOnly_refuseIf_bind (hformat _), raisesOnly_bind, raisesOnly_reword, Nat.not_lt]
    constructor
    · intro h other hother hsize e he
      cases hother
      exact (h hsize).1 e he
    · intro h hsize
      refine ⟨h info rfl hsize, ?_⟩
      intro bytes hbytes
      rw [raisesOnly_refuseIf_bind (hformat _)]
      intro hlength
      exact raisesOnly_pure _

theorem openArchive_eq_ok {data : List UInt8} {maxBytes maxMembers : Nat} :
    openArchive zip data maxBytes maxMembers = .ok archive ↔
      data.length ≤ maxBytes ∧ zip data = .ok archive ∧ archive.length ≤ maxMembers := by
  unfold openArchive
  simp only [bind_eq_ok, refuseIf_eq_ok, reword_eq_ok, pure_eq_ok, Nat.not_lt]
  constructor
  · rintro ⟨-, hlength, opened, hopened, -, hmembers, rfl⟩
    exact ⟨hlength, hopened, hmembers⟩
  · intro h
    exact ⟨(), h.1, archive, h.2.1, (), h.2.2, rfl⟩

theorem raisesOnly_openArchive (hformat : ∀ refusal, allowed (.format refusal))
    (data : List UInt8) (maxBytes maxMembers : Nat) :
    RaisesOnly allowed (openArchive zip data maxBytes maxMembers) ↔
      (data.length ≤ maxBytes → ∀ e, zip data = .error e → allowed (refusedOpening e)) := by
  unfold openArchive
  rw [raisesOnly_refuseIf_bind (hformat _), raisesOnly_bind, raisesOnly_reword, Nat.not_lt]
  apply forall_congr'
  intro hlength
  refine ⟨And.left, fun h => ⟨h, ?_⟩⟩
  intro archive harchive
  rw [raisesOnly_refuseIf_bind (hformat _)]
  intro hmembers
  exact raisesOnly_pure archive

theorem unpackHeader_of_length {block : List UInt8} (h : block.length = blockSize) :
    unpackHeader block = .ok (headerOf block) := by
  unfold unpackHeader
  rw [refuseIf_neg (fun hne => hne h)]
  rfl

theorem length_cut {data : List UInt8} {start stop : Nat} (h : stop ≤ data.length) :
    (cut data start stop).length = stop - start := by
  unfold cut
  rw [length_drop, length_take, Nat.min_eq_left h]

theorem walk_ok (limit : Option Nat) (data : List UInt8) (found : List Walked) (offset : Nat) :
    ∃ walked, walk tables limit data found offset = .ok walked := by
  fun_induction walk tables limit data found offset with
  | case1 | case3 | case4 | case5 | case7 => exact ⟨_, rfl⟩
  | case2 found offset hroom hlimit block e hblock =>
    have hlength : block.length = blockSize := by
      rw [length_cut hroom]
      omega
    rw [unpackHeader_of_length hlength] at hblock
    cases hblock
  | case6 found offset hroom hlimit block header hblock hblocks stop hstop text ih => exact ih

theorem parseMessages_of_length {limit : Option Nat} {data : List UInt8} (h : blockSize ≤ data.length) :
    ∃ walked, parseMessages tables limit data = .ok (data.take blockSize, walked) := by
  obtain ⟨walked, hwalked⟩ := @walk_ok tables limit data [] blockSize
  refine ⟨walked, ?_⟩
  unfold parseMessages
  rw [refuseIf_neg (Nat.not_lt.mpr h), hwalked]
  rfl

theorem parseMessages_of_short {limit : Option Nat} {data : List UInt8} (h : data.length < blockSize) :
    parseMessages tables limit data = .error (.format .noFirstBlock) := by
  unfold parseMessages
  rw [refuseIf_pos h]
  rfl

def Readable (tables : CharacterTables) (text : Text) : Prop :=
  text.length ≤ 4300 ∧ text.all tables.isDecimal = true

theorem int_of_digits {text : Text} (h : isDigits tables text = true) :
    (tables.int text).isSome = true ↔ Readable tables text := by
  unfold isDigits at h
  rw [Bool.and_eq_true] at h
  apply tables.int_digits text _ h.2
  rintro rfl
  cases h.1

variable {line number : Text} {lines : List Text}

theorem isDigits_of_areaLine {flags : Text}
    (h : areaLine tables line = some (number, flags)) : isDigits tables number = true := by
  unfold areaLine at h
  split at h
  · split at h
    · rename_i hholds
      cases h
      exact hholds.2
    · cases h
  · cases h

def AreasReadable (tables : CharacterTables) (lookedAt : Text → Prop) (lines : List Text) : Prop :=
  ∀ line ∈ lines, ∀ number flags, areaLine tables line = some (number, flags) → lookedAt number →
    Readable tables number

theorem areasReadable_cons {lookedAt : Text → Prop} {rest : List Text} :
    AreasReadable tables lookedAt (line :: rest) ↔
      (∀ number flags, areaLine tables line = some (number, flags) → lookedAt number →
        Readable tables number) ∧ AreasReadable tables lookedAt rest := by
  unfold AreasReadable
  rw [forall_mem_cons]

theorem raisesOnly_areaChange (hvalue : ¬allowed .valueError) (line : Text) :
    RaisesOnly allowed (areaChange tables line) ↔
      ∀ number flags, areaLine tables line = some (number, flags) → number.length ≤ 5 →
        Readable tables number := by
  unfold areaChange
  cases harea : areaLine tables line with
  | none => exact iff_of_true (raisesOnly_ok none) (fun _ _ h => by cases h)
  | some area =>
    obtain ⟨number, flags⟩ := area
    have hint := int_of_digits (isDigits_of_areaLine harea)
    by_cases hlong : 5 < number.length
    · simp only [hlong, if_true]
      refine iff_of_true (raisesOnly_ok none) ?_
      intro other otherFlags hother hshort
      cases hother
      omega
    · simp only [hlong, if_false]
      cases hread : tables.int number with
      | none =>
        rw [hread] at hint
        refine iff_of_false (fun h => hvalue ((raisesOnly_error _).mp h)) ?_
        intro h
        cases hint.mpr (h number flags rfl (by omega))
      | some n =>
        rw [hread] at hint
        refine iff_of_true ?_ ?_
        · simp only
          split
          · exact raisesOnly_ok _
          · split
            · exact raisesOnly_ok _
            · exact raisesOnly_ok _
        · intro other otherFlags hother hshort
          cases hother
          exact hint.mp rfl

theorem areaChange_raises (line : Text) :
    RaisesOnly (· = .valueError) (areaChange tables line) := by
  unfold areaChange
  intro e he
  split at he
  · split at he
    · cases he
    · split at he
      · cases he
        rfl
      · split at he
        · cases he
        · split at he
          · cases he
          · cases he
  · cases he

theorem raisesOnly_areaChanges (hvalue : ¬allowed .valueError) (lines : List Text) :
    RaisesOnly allowed (areaChanges tables lines) ↔
      AreasReadable tables (·.length ≤ 5) lines := by
  induction lines with
  | nil => exact iff_of_true (raisesOnly_ok []) (by simp [AreasReadable])
  | cons line rest ih =>
    unfold areaChanges
    rw [raisesOnly_bind, raisesOnly_areaChange hvalue, areasReadable_cons]
    constructor
    · intro h
      obtain ⟨change, hchange⟩ := exists_ok (areaChange_raises line) hvalue
        ((raisesOnly_areaChange hvalue line).mpr h.1)
      have hrest := h.2 change hchange
      rw [raisesOnly_bind] at hrest
      exact ⟨h.1, ih.mp hrest.1⟩
    · intro h
      refine ⟨h.1, ?_⟩
      intro change hchange
      rw [raisesOnly_bind]
      exact ⟨ih.mpr h.2, fun _ _ => raisesOnly_pure _⟩

theorem raisesOnly_areaFlags (hvalue : ¬allowed .valueError) (flags : Dict Int Text) (lines : List Text) :
    RaisesOnly allowed (areaFlags tables flags lines) ↔
      AreasReadable tables (fun _ => True) lines := by
  induction lines generalizing flags with
  | nil => exact iff_of_true (raisesOnly_ok flags) (by simp [AreasReadable])
  | cons line rest ih =>
    rw [areasReadable_cons]
    unfold areaFlags
    cases harea : areaLine tables line with
    | none =>
      show RaisesOnly allowed (areaFlags tables flags rest) ↔ _
      rw [ih]
      refine ⟨fun h => ⟨?_, h⟩, And.right⟩
      intro number value hother
      cases hother
    | some area =>
      obtain ⟨number, value⟩ := area
      have hint := int_of_digits (isDigits_of_areaLine harea)
      cases hread : tables.int number with
      | none =>
        rw [hread] at hint
        simp only [hread]
        refine iff_of_false (fun h => hvalue ((raisesOnly_error _).mp h)) ?_
        intro h
        cases hint.mpr (h.1 number value rfl trivial)
      | some n =>
        rw [hread] at hint
        simp only [hread]
        rw [ih]
        refine ⟨fun h => ⟨?_, h⟩, And.right⟩
        intro other otherValue hother _
        cases hother
        exact hint.mp rfl

def ConferencesReadable (tables : CharacterTables) (texts : List (Text × Text)) : Prop :=
  ∀ before number name after, texts = before ++ (number, name) :: after →
    (∀ text ∈ before, isDigits tables text.1 = true) → isDigits tables number = true →
    Readable tables number

theorem conferencesReadable_nil : ConferencesReadable tables [] := by
  intro before number name after h
  simp at h

theorem conferencesReadable_cons {rest : List (Text × Text)} :
    ConferencesReadable tables ((number, name) :: rest) ↔
      (isDigits tables number = true →
        Readable tables number ∧ ConferencesReadable tables rest) := by
  constructor
  · intro h hdigits
    refine ⟨h [] number name rest rfl (by simp) hdigits, ?_⟩
    intro before other otherName after hrest hbefore hother
    apply h ((number, name) :: before) other otherName after (by rw [hrest]; rfl) _ hother
    rw [forall_mem_cons]
    exact ⟨hdigits, hbefore⟩
  · intro h before other otherName after hall hbefore hother
    cases before with
    | nil =>
      cases hall
      exact (h hother).1
    | cons first before =>
      rw [cons_append, List.cons.injEq] at hall
      obtain ⟨rfl, hrest⟩ := hall
      rw [forall_mem_cons] at hbefore
      exact (h hbefore.1).2 before other otherName after hrest hbefore.2 hother

theorem raisesOnly_conferenceList (hformat : ∀ refusal, allowed (.format refusal))
    (hvalue : ¬allowed .valueError) (flags : Dict Int Text) (texts : List (Text × Text)) :
    RaisesOnly allowed (conferenceList tables flags texts) ↔ ConferencesReadable tables texts := by
  induction texts with
  | nil => exact iff_of_true (raisesOnly_ok []) conferencesReadable_nil
  | cons text rest ih =>
    obtain ⟨number, name⟩ := text
    rw [conferencesReadable_cons]
    unfold conferenceList
    cases hdigits : isDigits tables number with
    | false =>
      exact iff_of_true ((raisesOnly_error _).mpr (hformat _)) (fun h => by cases h)
    | true =>
      have hint := int_of_digits hdigits
      rw [forall_prop_of_true rfl]
      cases hread : tables.int number with
      | none =>
        rw [hread] at hint
        simp only [Bool.true_eq_false, if_false]
        refine iff_of_false (fun h => hvalue ((raisesOnly_error _).mp h)) ?_
        intro h
        cases hint.mpr h.1
      | some n =>
        rw [hread] at hint
        simp only [Bool.true_eq_false, if_false]
        rw [raisesOnly_bind, ih]
        constructor
        · intro h
          exact ⟨hint.mp rfl, h.1⟩
        · intro h
          exact ⟨h.2, fun _ _ => raisesOnly_pure _⟩

theorem digits_of_conferenceList {flags : Dict Int Text}
    {conferences : List Conference} (h : conferenceList tables flags texts = .ok conferences) :
    ∀ text ∈ texts, isDigits tables text.1 = true := by
  induction texts generalizing conferences with
  | nil =>
    intro text htext
    cases htext
  | cons first rest ih =>
    obtain ⟨number, name⟩ := first
    unfold conferenceList at h
    cases hdigits : isDigits tables number with
    | false =>
      rw [hdigits, if_pos rfl] at h
      cases h
    | true =>
      rw [hdigits, if_neg (by decide)] at h
      split at h
      · cases h
      · rw [bind_eq_ok] at h
        obtain ⟨others, hothers, -⟩ := h
        rw [forall_mem_cons]
        exact ⟨hdigits, ih hothers⟩

theorem conferenceList_ok {flags : Dict Int Text} {texts : List (Text × Text)}
    (hreadable : ConferencesReadable tables texts) (hdigits : ∀ text ∈ texts, isDigits tables text.1 = true) :
    ∃ conferences, conferenceList tables flags texts = .ok conferences := by
  induction texts with
  | nil => exact ⟨[], rfl⟩
  | cons first rest ih =>
    obtain ⟨number, name⟩ := first
    rw [forall_mem_cons] at hdigits
    obtain ⟨hfirst, hrest⟩ := conferencesReadable_cons.mp hreadable hdigits.1
    obtain ⟨n, hn⟩ := Option.isSome_iff_exists.mp ((int_of_digits hdigits.1).mpr hfirst)
    obtain ⟨others, hothers⟩ := ih hrest hdigits.2
    refine ⟨⟨n, name, (flags.get? n).getD ['a']⟩ :: others, ?_⟩
    unfold conferenceList
    simp only [hdigits.1, Bool.true_eq_false, if_false, hn, hothers]
    rfl

theorem areaFlags_raises (flags : Dict Int Text) (lines : List Text) :
    RaisesOnly (· = .valueError) (areaFlags tables flags lines) := by
  induction lines generalizing flags with
  | nil => exact raisesOnly_ok flags
  | cons line rest ih =>
    unfold areaFlags
    cases areaLine tables line with
    | none => exact ih flags
    | some area =>
      obtain ⟨number, value⟩ := area
      dsimp only
      cases tables.int number with
      | none => exact (raisesOnly_error _).mpr rfl
      | some n => exact ih (flags.set n value)

structure RepUnpacked (tables : CharacterTables) (zip : ZipLibrary) (data : List UInt8)
    (bbsId : Text) (limits : RepLimits) (archive : Archive) (msg todoor : List UInt8)
    (headers : Option (List UInt8)) : Prop where
  size : data.length ≤ limits.archiveBytes
  zipped : [0x50, 0x4B] <+: data
  opened : zip data = .ok archive
  members : archive.length ≤ limits.members
  msg : Unpacks tables archive (bbsId ++ ".MSG".toList) limits.msgBytes (some msg)
  todoor : Unpacks tables archive "TODOOR.EXT".toList (64 * 1024) (some todoor)
  headers : Unpacks tables archive "HEADERS.DAT".toList limits.msgBytes headers

def RepReadable (tables : CharacterTables) (zip : ZipLibrary) (data : List UInt8) (id : Text)
    (limits : RepLimits) : Prop :=
  validBbsId (tables.upper id) = true ∧ ∀ archive msg todoor headers,
    RepUnpacked tables zip data (tables.upper id) limits archive msg todoor headers →
    blockSize ≤ msg.length → claimedId tables msg = tables.upper id →
    AreasReadable tables (·.length ≤ 5) (todoorLines todoor)

variable {data : List UInt8} {bbsId : Text} {limits : RepLimits}

theorem msgBytes_eq_ok {msg todoor : List UInt8} {headers : Option (List UInt8)} :
    msgBytes tables zip data bbsId limits = .ok (msg, some todoor, headers) ↔
      ∃ archive, RepUnpacked tables zip data bbsId limits archive msg todoor headers := by
  unfold msgBytes
  rw [bind_eq_ok]
  constructor
  · rintro ⟨_, hsize, hrest⟩
    rw [refuseIf_eq_ok, Nat.not_lt] at hsize
    split at hrest
    · rename_i hzipped
      unfold unpackRep at hrest
      simp only [reword_eq_ok, bind_eq_ok, openArchive_eq_ok, readMember_eq_ok, orRefuse_eq_ok,
        pure_eq_ok] at hrest
      obtain ⟨archive, ⟨-, hopened, hmembers⟩, _, hmsg, _, rfl, _, htodoor, _, hheaders, hsame⟩ :=
        hrest
      cases hsame
      exact ⟨archive, hsize, hzipped, hopened, hmembers, hmsg, htodoor, hheaders⟩
    · simp at hrest
  · rintro ⟨archive, h⟩
    refine ⟨(), (refuseIf_eq_ok _ _ _).mpr (Nat.not_lt.mpr h.size), ?_⟩
    rw [if_pos h.zipped]
    unfold unpackRep
    simp only [reword_eq_ok, bind_eq_ok, openArchive_eq_ok, readMember_eq_ok, orRefuse_eq_ok, pure_eq_ok]
    exact ⟨archive, ⟨h.size, h.opened, h.members⟩, _, h.msg, msg, rfl, _, h.todoor, _, h.headers, rfl⟩

theorem isRep_rep (refusal : RepRefusal) : (Raised.rep refusal).IsRep := ⟨refusal, rfl⟩

theorem raisesOnly_msgBytes : RaisesOnly Raised.IsRep (msgBytes tables zip data bbsId limits) := by
  have hformat : ∀ refusal, (refusedUnpacking (.format refusal)).IsRep := fun _ => isRep_rep _
  have hread : ∀ archive name limit, RaisesOnly (fun e => (refusedUnpacking e).IsRep)
      (readMember tables archive name limit) := by
    intro archive name limit
    rw [raisesOnly_readMember hformat]
    intro info hinfo hsize e he
    exact isRep_rep _
  unfold msgBytes
  rw [raisesOnly_refuseIf_bind (isRep_rep _)]
  intro hsize
  split
  · rw [raisesOnly_reword]
    unfold unpackRep
    rw [raisesOnly_bind, raisesOnly_openArchive hformat]
    constructor
    · intro hlength e he
      cases e <;> exact isRep_rep _
    · intro archive harchive
      rw [raisesOnly_bind]
      refine ⟨hread _ _ _, ?_⟩
      intro found hfound
      rw [raisesOnly_bind, raisesOnly_orRefuse]
      constructor
      · intro hnone
        cases otherMessages tables archive <;> exact isRep_rep _
      · intro msg hmsg
        rw [raisesOnly_bind]
        refine ⟨hread _ _ _, ?_⟩
        intro todoor htodoor
        rw [raisesOnly_bind]
        exact ⟨hread _ _ _, fun _ _ => raisesOnly_pure _⟩
  · rw [raisesOnly_refuseIf_bind (isRep_rep _)]
    intro hlength
    exact raisesOnly_pure _

theorem not_isRep_valueError : ¬Raised.valueError.IsRep := by
  rintro ⟨refusal, h⟩
  cases h

theorem raisesOnly_todoor (file : Option (List UInt8)) :
    RaisesOnly Raised.IsRep (todoor tables file) ↔
      ∀ todoor, file = some todoor → AreasReadable tables (·.length ≤ 5) (todoorLines todoor) := by
  unfold todoor
  rw [raisesOnly_bind, raisesOnly_areaChanges not_isRep_valueError]
  refine ⟨?_, fun h => ⟨?_, fun _ _ => raisesOnly_pure _⟩⟩
  · intro h todoor htodoor
    rw [htodoor] at h
    exact h.1
  · cases file with
    | none => simp [AreasReadable, todoorLines, fromCp437, splitLines, splitLinesFrom]
    | some todoor => exact h todoor rfl

theorem claimedId_take (msg : List UInt8) :
    claimedId tables (msg.take blockSize) = claimedId tables msg := by
  unfold claimedId
  rw [take_take]
  rfl

theorem parseRep_contained (id : Text) :
    RaisesOnly Raised.IsRep (parseRep tables zip data id limits) ↔
      RepReadable tables zip data id limits := by
  unfold parseRep RepReadable
  simp only
  cases hvalid : validBbsId (tables.upper id) with
  | false =>
    rw [refuseIf_pos rfl]
    exact iff_of_false (fun h => not_isRep_valueError (h _ rfl)) (fun h => by cases h.1)
  | true =>
    rw [refuseIf_neg (by decide), ok_bind, raisesOnly_bind]
    constructor
    · intro h
      refine ⟨rfl, ?_⟩
      intro archive msg todoorFile headers hunpacked hlength hclaimed
      have hparsed := h.2 _ (msgBytes_eq_ok.mpr ⟨archive, hunpacked⟩)
      obtain ⟨walked, hwalked⟩ := @parseMessages_of_length tables (some limits.messages) msg hlength
      simp only [hwalked, reword, ok_bind, claimedId_take] at hparsed
      rw [refuseIf_neg (fun hne => hne hclaimed), ok_bind, raisesOnly_bind] at hparsed
      exact (raisesOnly_todoor _).mp hparsed.1 todoorFile rfl
    · rintro ⟨-, h⟩
      refine ⟨raisesOnly_msgBytes, ?_⟩
      rintro ⟨msg, todoorFile, headers⟩ hmsg
      by_cases hlength : blockSize ≤ msg.length
      · obtain ⟨walked, hwalked⟩ := @parseMessages_of_length tables (some limits.messages) msg hlength
        simp only [hwalked, reword, ok_bind, claimedId_take]
        rw [raisesOnly_refuseIf_bind (isRep_rep _), not_not]
        intro hclaimed
        rw [raisesOnly_bind, raisesOnly_todoor]
        refine ⟨?_, fun _ _ => raisesOnly_pure _⟩
        rintro todoor rfl
        obtain ⟨archive, hunpacked⟩ := msgBytes_eq_ok.mp hmsg
        exact h archive msg todoor headers hunpacked hlength hclaimed
      · simp only [parseMessages_of_short (Nat.lt_of_not_le hlength), reword, error_bind]
        exact (raisesOnly_error _).mpr (isRep_rep _)

/-- `CONTROL.DAT` is long enough and says how many conferences it lists. -/
def CountsConferences (tables : CharacterTables) (lines : List Text) (count : Nat) : Prop :=
  11 + 2 * count ≤ lines.length ∧ count ≤ 65536 ∧
    ∃ last, tables.int (Text.strip (lines.getD 10 [])) = some last ∧ last + 1 = count

theorem conferenceCount_eq_ok {count : Nat} :
    conferenceCount tables lines = .ok count ↔ CountsConferences tables lines count := by
  unfold conferenceCount CountsConferences
  simp only [bind_eq_ok, refuseIf_eq_ok, orRefuse_eq_ok, pure_eq_ok]
  constructor
  · rintro ⟨_, hlength, last, hlast, _, hrange, rfl⟩
    refine ⟨by omega, by omega, last, hlast, by omega⟩
  · rintro ⟨hlength, hcount, last, hlast, hsame⟩
    exact ⟨(), by omega, last, hlast, (), by omega, by omega⟩

theorem raisesOnly_conferenceCount (hformat : ∀ refusal, allowed (.format refusal))
    (lines : List Text) : RaisesOnly allowed (conferenceCount tables lines) := by
  unfold conferenceCount
  rw [raisesOnly_refuseIf_bind (hformat _)]
  intro hlength
  rw [raisesOnly_bind, raisesOnly_orRefuse]
  refine ⟨fun _ => hformat _, ?_⟩
  intro last hlast
  rw [raisesOnly_refuseIf_bind (hformat _)]
  intro hrange
  exact raisesOnly_pure _

abbrev Reads (tables : CharacterTables) (archive : Archive) (name : String) (limit : Nat) : Prop :=
  ReadRaises (fun _ => False) tables archive name.toList limit

def PacketReadable (tables : CharacterTables) (zip : ZipLibrary) (data : List UInt8) : Prop :=
  data.length ≤ maxPacketArchiveBytes →
    (∀ e, zip data = .error e → e = .badZipFile) ∧
    ∀ archive, zip data = .ok archive → archive.length ≤ maxPacketMembers →
      Reads tables archive "CONTROL.DAT" maxSmallMemberBytes ∧
      ∀ control, Unpacks tables archive "CONTROL.DAT".toList maxSmallMemberBytes control →
        Reads tables archive "MESSAGES.DAT" maxMessagesDatBytes ∧
        ∀ messagesDat,
          Unpacks tables archive "MESSAGES.DAT".toList maxMessagesDatBytes messagesDat →
          ∀ held count, control = some held → messagesDat.isSome = true →
            CountsConferences tables (controlLines held) count →
            Reads tables archive "TOREADER.EXT" maxSmallMemberBytes ∧
            ∀ toreader,
              Unpacks tables archive "TOREADER.EXT".toList maxSmallMemberBytes toreader →
              AreasReadable tables (fun _ => True) (splitLines (fromCp437 (toreader.getD []))) ∧
              ConferencesReadable tables (conferenceTexts (controlLines held) count) ∧
              ((∀ text ∈ conferenceTexts (controlLines held) count, isDigits tables text.1 = true) →
                Reads tables archive "HEADERS.DAT" maxHeadersDatBytes)

theorem isFormat_format (refusal : QwkRefusal) : (Raised.format refusal).IsFormat := ⟨refusal, rfl⟩

theorem not_isFormat_valueError : ¬Raised.valueError.IsFormat := by
  rintro ⟨refusal, h⟩
  cases h

theorem isFormat_zip (e : ZipError) : (Raised.zip e).IsFormat ↔ False := by
  refine iff_false_intro ?_
  rintro ⟨refusal, h⟩
  cases h

theorem isFormat_refusedOpening (e : ZipError) :
    (refusedOpening e).IsFormat ↔ e = .badZipFile := by
  cases e <;> simp [refusedOpening, Raised.IsFormat]

theorem raisesOnly_reads (archive : Archive) (name : String) (limit : Nat) :
    RaisesOnly Raised.IsFormat (readMember tables archive name.toList limit) ↔
      Reads tables archive name limit := by
  rw [raisesOnly_readMember isFormat_format]
  unfold Reads ReadRaises
  simp only [isFormat_zip]

theorem raisesOnly_parseMessages (limit : Option Nat) (data : List UInt8) :
    RaisesOnly Raised.IsFormat (parseMessages tables limit data) := by
  by_cases h : blockSize ≤ data.length
  · obtain ⟨walked, hwalked⟩ := @parseMessages_of_length tables limit data h
    rw [hwalked]
    exact raisesOnly_ok _
  · rw [parseMessages_of_short (Nat.lt_of_not_le h)]
    exact (raisesOnly_error _).mpr (isFormat_format _)

theorem conferences_then {next : Prop} : (AreasReadable tables (fun _ => True) lines ∧
      ∀ flags, areaFlags tables Dict.empty lines = .ok flags → ConferencesReadable tables texts ∧
          ∀ conferences, conferenceList tables flags texts = .ok conferences → next) ↔
      AreasReadable tables (fun _ => True) lines ∧ ConferencesReadable tables texts ∧
        ((∀ text ∈ texts, isDigits tables text.1 = true) → next) := by
  apply and_congr_right
  intro hareas
  constructor
  · intro h
    obtain ⟨flags, hflags⟩ := exists_ok (areaFlags_raises Dict.empty lines)
      not_isFormat_valueError ((raisesOnly_areaFlags not_isFormat_valueError _ _).mpr hareas)
    obtain ⟨hreadable, hnext⟩ := h flags hflags
    refine ⟨hreadable, ?_⟩
    intro hdigits
    obtain ⟨conferences, hconferences⟩ := @conferenceList_ok tables flags texts hreadable hdigits
    exact hnext conferences hconferences
  · rintro ⟨hreadable, hnext⟩ flags -
    refine ⟨hreadable, ?_⟩
    intro conferences hconferences
    exact hnext (digits_of_conferenceList hconferences)

theorem readPacket_contained (data : List UInt8) :
    RaisesOnly Raised.IsFormat (readPacket tables zip data) ↔ PacketReadable tables zip data := by
  unfold readPacket PacketReadable
  rw [raisesOnly_bind, raisesOnly_openArchive isFormat_format]
  simp only [isFormat_refusedOpening, openArchive_eq_ok, raisesOnly_bind, raisesOnly_reads,
    readMember_eq_ok, raisesOnly_orRefuse, orRefuse_eq_ok, isFormat_format, implies_true, true_and,
    conferenceCount_eq_ok, raisesOnly_conferenceCount isFormat_format,
    raisesOnly_areaFlags not_isFormat_valueError, raisesOnly_parseMessages, raisesOnly_refuseIf,
    raisesOnly_conferenceList isFormat_format not_isFormat_valueError, raisesOnly_pure, and_true]
  simp only [conferences_then]
  constructor
  · rintro ⟨hopens, h⟩ hsize
    refine ⟨hopens hsize, ?_⟩
    intro archive hopened hmembers
    obtain ⟨hcontrol, h⟩ := h archive ⟨hsize, hopened, hmembers⟩
    refine ⟨hcontrol, ?_⟩
    intro control hcontrol'
    obtain ⟨hdat, h⟩ := h control hcontrol'
    refine ⟨hdat, ?_⟩
    intro messagesDat hdat' held count hheld hsome hcount
    obtain ⟨data, hdata⟩ := Option.isSome_iff_exists.mp hsome
    exact h messagesDat hdat' held hheld data hdata count hcount
  · intro h
    refine ⟨fun hsize => (h hsize).1, ?_⟩
    rintro archive ⟨hsize, hopened, hmembers⟩
    obtain ⟨hcontrol, h⟩ := (h hsize).2 archive hopened hmembers
    refine ⟨hcontrol, ?_⟩
    intro control hcontrol'
    obtain ⟨hdat, h⟩ := h control hcontrol'
    refine ⟨hdat, ?_⟩
    intro messagesDat hdat' held hheld data hdata count hcount
    exact h messagesDat hdat' held count hheld (by rw [hdata]; rfl) hcount

/-- Exactly which archives each reader takes or refuses with its own error, whatever they hold. -/
theorem archives_spec (tables : CharacterTables) (zip : ZipLibrary) (data : List UInt8) :
    (∀ id limits, RaisesOnly Raised.IsRep (parseRep tables zip data id limits) ↔
      RepReadable tables zip data id limits) ∧
    (RaisesOnly Raised.IsFormat (readPacket tables zip data) ↔ PacketReadable tables zip data) :=
  ⟨fun id _ => parseRep_contained id, readPacket_contained data⟩

def fileOf (name : String) (bytes : List UInt8) : Member where
  filename := name.toList
  fileSize := bytes.length
  read n := .ok (bytes.take n)
  read_le := by
    intro n found h
    cases h
    exact length_take_le n bytes

def encryptedFile (name : String) : Member where
  filename := name.toList
  fileSize := 10
  read _ := .error .runtimeError
  read_le := by
    intro n found h
    cases h

/-- `AREA`, a superscript two and `D`, in CP437. -/
def superscriptArea : List UInt8 := [0x41, 0x52, 0x45, 0x41, 0x20, 0xFD, 0x20, 0x44]

def hubBlock : List UInt8 := [0x48, 0x55, 0x42] ++ List.replicate 125 0x20

/-- A reply packet without replies that drops a conference. -/
def superscriptRep : Archive :=
  [fileOf "HUB.MSG" hubBlock, fileOf "TODOOR.EXT" superscriptArea]

theorem unpacks_fileOf {file : String} {bytes : List UInt8}
    {limit : Nat} (hmember : memberCalled tables archive name = some (fileOf file bytes))
    (h : bytes.length ≤ limit) : Unpacks tables archive name limit (some bytes) := by
  refine .inr ⟨fileOf file bytes, bytes, hmember, h, ?_, h, rfl⟩
  show Except.ok (bytes.take (limit + 1)) = .ok bytes
  rw [take_of_length_le (by omega)]

/-- A reply packet gets past its reader with a superscript digit, a packet with an encrypted file. -/
theorem superscript_escapes : ¬RaisesOnly Raised.IsRep
      (parseRep plainTables (fun _ => .ok superscriptRep) [0x50, 0x4B] "HUB".toList {}) ∧
    ¬RaisesOnly Raised.IsFormat
      (readPacket plainTables (fun _ => .ok [encryptedFile "CONTROL.DAT"]) [0x50, 0x4B]) := by
  constructor
  · rw [parseRep_contained]
    intro h
    have hareas := h.2 superscriptRep hubBlock superscriptArea none
      { size := by decide
        zipped := by decide
        opened := rfl
        members := by decide
        msg := unpacks_fileOf rfl (by simp [hubBlock])
        todoor := unpacks_fileOf rfl (by simp [superscriptArea])
        headers := .inl ⟨rfl, rfl⟩ } (by simp [hubBlock, blockSize]) (by decide +kernel)
    have hreadable := hareas (fromCp437 superscriptArea) (by decide +kernel) [Char.ofNat 0xB2] ['D']
      (by decide +kernel) (by decide)
    exact absurd hreadable.2 (by decide)
  · rw [readPacket_contained]
    intro h
    exact ((h (by decide)).2 _ rfl (by decide)).1 (encryptedFile "CONTROL.DAT") rfl (by decide)
      .runtimeError rfl

end NetBBS.Qwk
