import NetBBS.Net.ZmodemReceiver

/-! # A hostile Zmodem sender is contained -/

namespace NetBBS.Zmodem

open List

variable {after : Line} {maxBytes : Nat} {s : Transfer}
variable {e : Fault} {tables : NameTables} {room : Nat}

theorem Reads.error {α : Type} {allowed : Fault → Prop} {most : Nat} {line : Line}
    {heard : Heard α} (h : Reads allowed most line heard)
    (he : heard = (.error e, after)) : allowed e := by
  apply h.raises
  rw [he]

theorem awaitOffer_contained (line : Line) :
    ∀ e, (awaitOffer line).1 = .error e → e.isContained := by
  fun_induction awaitOffer line with
  | case1 line e after h =>
    intro e' he
    cases he
    exact (reads_nextHeader line).error h
  | case2 =>
    intro e he
    cases he
    exact .inl rfl
  | case3 =>
    intro e he
    cases he
  | case4 line header after h hcancel hfile hinit ih => exact ih
  | case5 line header after h hcancel hfile hinit hsinit e last hpacket =>
    intro e' he
    cases he
    exact (reads_readSubpacket header.crc32 after).error hpacket
  | case6 =>
    intro e he
    cases he
    exact .inl rfl
  | case7 line header after h hcancel hfile hinit hsinit packet last hpacket ih => exact ih
  | case8 =>
    intro e he
    cases he
    exact .inl rfl
  | case9 line header after h hcancel hfile hinit hsinit hfin hskip ih => exact ih
  | case10 =>
    intro e he
    cases he
    exact .inl rfl

def ReadableSize (info : List UInt8) : Prop :=
  isDigits (sizeField info) = true → (sizeField info).length ≤ 4300

theorem judgeInfo_contained {info : List UInt8} (h : ReadableSize info) :
    ∀ e, judgeInfo tables maxBytes info = .error e → e.isContained := by
  intro e he
  unfold judgeInfo at he
  simp only at he
  split at he
  · rename_i hdigits
    unfold intOfDigits at he
    rw [if_neg (Nat.not_lt.mpr (h hdigits))] at he
    simp only at he
    split at he
    · cases he
      exact .inl rfl
    · cases he
  · cases he

theorem readOffer_contained {offer : Header} {line : Line}
    (h : ∀ info terminator after, readSubpacket offer.crc32 line = (.ok (some (info, terminator)),
      after) → ReadableSize info) :
    ∀ e, (readOffer tables maxBytes offer line).1 = .error e → e.isContained := by
  intro e he
  unfold readOffer andThen at he
  split at he
  · rename_i e' after heq
    cases he
    exact (reads_readSubpacket offer.crc32 line).error heq
  · rename_i packet after heq
    beta_reduce at he
    split at he
    · cases he
      exact .inl rfl
    · rename_i info terminator
      exact judgeInfo_contained (h info terminator after heq) e he

structure Transfer.Within (maxBytes : Nat) (s : Transfer) : Prop where
  content : s.content.length ≤ maxBytes
  errors : s.errors ≤ maxErrors + 1

structure Received.Contained (maxBytes : Nat) (received : Received) : Prop where
  within : received.2.1.Within maxBytes
  settled : ∀ u, received.1 = .ok u → received.2.1.errors ≤ maxErrors
  raises : ∀ e, received.1 = .error e → e.isContained

theorem askAgain_contained (h : s.Within maxBytes)
    (hsettled : s.errors ≤ maxErrors) (line : Line) :
    (askAgain s line).Contained maxBytes := by
  unfold askAgain
  split
  · refine ⟨⟨h.content, Nat.succ_le_succ hsettled⟩, (fun _ hu => by cases hu), ?_⟩
    intro e he
    cases he
    exact .inl rfl
  · rename_i hfew
    exact ⟨⟨h.content, Nat.succ_le_succ hsettled⟩, fun _ _ => Nat.le_of_not_lt hfew,
      fun _ he => by cases he⟩

theorem contained_error (h : s.Within maxBytes) (he : e.isContained) (line : Line) :
    Received.Contained maxBytes (.error e, s, line) := by
  refine ⟨h, (fun _ hu => by cases hu), ?_⟩
  intro e' he'
  cases he'
  exact he

theorem receiveData_contained {maxBytes : Nat} {wide : Bool} {s : Transfer} {line : Line}
    (h : s.Within maxBytes) (hsettled : s.errors ≤ maxErrors) :
    (receiveData maxBytes wide s line).Contained maxBytes := by
  fun_induction receiveData maxBytes wide s line with
  | case1 s line e after hpacket =>
    exact contained_error h ((reads_readSubpacket wide line).error hpacket) after
  | case2 s line after hpacket => exact askAgain_contained h hsettled after
  | case3 s line chunk terminator after hpacket hover =>
    exact contained_error h (.inl rfl) after
  | case4 s line chunk terminator after hpacket hover s' after' hends =>
    refine ⟨⟨?_, h.errors⟩, fun _ _ => hsettled, fun _ he => by cases he⟩
    show (s.content ++ chunk).length ≤ maxBytes
    rw [length_append]
    omega
  | case5 s line chunk terminator after hpacket hover s' after' hends ih =>
    apply ih _ hsettled
    refine ⟨?_, h.errors⟩
    show (s.content ++ chunk).length ≤ maxBytes
    rw [length_append]
    omega

theorem receiveFrames_contained {line : Line}
    (h : s.Within maxBytes) (hsettled : s.errors ≤ maxErrors) :
    (receiveFrames maxBytes s line).Contained maxBytes := by
  fun_induction receiveFrames maxBytes s line with
  | case1 s line e after hheader =>
    exact contained_error h ((reads_nextHeader line).error hheader) after
  | case2 s line header after hheader hcancel => exact contained_error h (.inl rfl) after
  | case3 s line header after hheader hcancel heof hposition =>
    exact ⟨h, fun _ _ => hsettled, fun _ he => by cases he⟩
  | case4 s line header after hheader hcancel heof hposition e asked last hasked =>
    have hcontained := askAgain_contained h hsettled after
    rw [hasked] at hcontained
    exact hcontained
  | case5 s line header after hheader hcancel heof hposition u asked last hasked ih =>
    have hcontained := askAgain_contained h hsettled after
    rw [hasked] at hcontained
    exact ih hcontained.within (hcontained.settled _ rfl)
  | case6 s line header after hheader hcancel heof hfile e last hpacket =>
    exact contained_error h ((reads_readSubpacket header.crc32 after).error hpacket) last
  | case7 s line header after hheader hcancel heof hfile last hpacket =>
    exact contained_error h (.inl rfl) last
  | case8 s line header after hheader hcancel heof hfile packet last hpacket ih =>
    exact ih h hsettled
  | case9 s line header after hheader hcancel heof hfile hskip ih => exact ih h hsettled
  | case10 s line header after hheader hcancel heof hfile hskip hdata =>
    exact contained_error h (.inl rfl) after
  | case11 s line header after hheader hcancel heof hfile hskip hdata hposition e asked last
      hasked =>
    have hcontained := askAgain_contained h hsettled after
    rw [hasked] at hcontained
    exact hcontained
  | case12 s line header after hheader hcancel heof hfile hskip hdata hposition u asked last
      hasked ih =>
    have hcontained := askAgain_contained h hsettled after
    rw [hasked] at hcontained
    exact ih hcontained.within (hcontained.settled _ rfl)
  | case13 s line header after hheader hcancel heof hfile hskip hdata hposition e stored last
      hstored =>
    have hcontained := @receiveData_contained maxBytes header.crc32 s after h hsettled
    rw [hstored] at hcontained
    exact hcontained
  | case14 s line header after hheader hcancel heof hfile hskip hdata hposition u stored last
      hstored ih =>
    have hcontained := @receiveData_contained maxBytes header.crc32 s after h hsettled
    rw [hstored] at hcontained
    exact ih hcontained.within (hcontained.settled _ rfl)

theorem closeReceiving_closed (line : Line) :
    ∀ e, (closeReceiving line).1 = .error e → e = .sessionClosed := by
  have hclosed : ∀ {e : Fault}, e.isContained → e.isZmodem ≠ true → e = .sessionClosed :=
    fun hcontained hzmodem => hcontained.resolve_left hzmodem
  fun_induction closeReceiving line with
  | case1 line e after h =>
    intro e' he
    simp only at he
    split at he
    · cases he
    · rename_i hzmodem
      cases he
      exact hclosed ((reads_nextHeader line).error h) hzmodem
  | case2 =>
    intro e he
    cases he
  | case3 line header after h hfin hfile packet last hpacket ih => exact ih
  | case4 line header after h hfin hfile e last hpacket hzmodem ih => exact ih
  | case5 line header after h hfin hfile e last hpacket hzmodem =>
    intro e' he
    cases he
    exact hclosed ((reads_readSubpacket header.crc32 after).error hpacket) hzmodem
  | case6 line header after h hfin hfile heof ih => exact ih
  | case7 =>
    intro e he
    cases he
  | case8 line header after h hfin hfile heof hcancel ih => exact ih

def PlainOffer (line : Line) : Prop :=
  ∀ offer after info terminator last,
    awaitOffer (line.send zrinit receiverFlags) = (.ok offer, after) →
    readSubpacket offer.crc32 after = (.ok (some (info, terminator)), last) → ReadableSize info

theorem receiveFileFrames_contained (receiver : Receiver) (maxBytes : Nat) {line : Line}
    (h : PlainOffer line) :
    ∀ e, (receiveFileFrames receiver maxBytes line).outcome = .error e → e.isContained := by
  intro e he
  unfold receiveFileFrames at he
  split at he
  · rename_i e' after heq
    cases he
    exact awaitOffer_contained _ e (by rw [heq])
  · rename_i offer after heq
    split at he
    · rename_i e' last hoffer
      cases he
      apply readOffer_contained _ e
      · rw [hoffer]
      · intro info terminator last' hpacket
        exact h offer after info terminator last' heq hpacket
    · rename_i filename last hoffer
      have hframes : (receiveFrames maxBytes {} (last.send zrpos 0)).Contained maxBytes :=
        receiveFrames_contained ⟨Nat.zero_le _, Nat.zero_le _⟩ (Nat.zero_le _)
      split at he
      · rename_i e' s final hreceived
        cases he
        exact hframes.raises e (by rw [hreceived])
      · split at he
        · rename_i s final hreceived e' closed hclose
          cases he
          exact .inr (closeReceiving_closed _ e (by rw [hclose]))
        · cases he

theorem receiveFileFrames_written (receiver : Receiver) (maxBytes : Nat) (line : Line) :
    (receiveFileFrames receiver maxBytes line).written.length ≤ maxBytes ∧
      ∀ file, (receiveFileFrames receiver maxBytes line).outcome = .ok file →
        (receiveFileFrames receiver maxBytes line).dest =
            some (receiveFileFrames receiver maxBytes line).written ∧
          file.sizeBytes = (receiveFileFrames receiver maxBytes line).written.length ∧
          file.sha256 = receiver.sha256 (receiveFileFrames receiver maxBytes line).written := by
  unfold receiveFileFrames
  split
  · exact ⟨Nat.zero_le _, fun _ h => by cases h⟩
  · split
    · exact ⟨Nat.zero_le _, fun _ h => by cases h⟩
    · rename_i filename last hoffer
      have hframes : (receiveFrames maxBytes {} (last.send zrpos 0)).Contained maxBytes :=
        receiveFrames_contained ⟨Nat.zero_le _, Nat.zero_le _⟩ (Nat.zero_le _)
      split
      · rename_i e s final hreceived
        rw [hreceived] at hframes
        exact ⟨hframes.within.content, fun _ h => by cases h⟩
      · rename_i u s final hreceived
        rw [hreceived] at hframes
        split
        · exact ⟨hframes.within.content, fun _ h => by cases h⟩
        · refine ⟨hframes.within.content, ?_⟩
          intro file hfile
          cases hfile
          exact ⟨rfl, rfl, rfl⟩

theorem receiveFile_outcome (receiver : Receiver) (maxBytes : Nat) (line : Line) :
    (receiveFile receiver maxBytes line).outcome =
        (receiveFileFrames receiver maxBytes line).outcome ∧
      (receiveFile receiver maxBytes line).written =
        (receiveFileFrames receiver maxBytes line).written := by
  unfold receiveFile
  simp only
  split
  · exact ⟨rfl, rfl⟩
  · exact ⟨rfl, rfl⟩

/-- Whatever is on the line: an upload whose offer has a size that can be read raises what its caller
catches, no upload writes more than its limit or leaves a file where it raises, and no subpacket is read
from more than a bounded number of bytes. -/
theorem uploads_contained (receiver : Receiver) (maxBytes : Nat) (line : Line) :
    (PlainOffer line → ∀ e, (receiveFile receiver maxBytes line).outcome = .error e → e.isContained) ∧
    (receiveFile receiver maxBytes line).written.length ≤ maxBytes ∧
    (∀ e, (receiveFile receiver maxBytes line).outcome = .error e →
      (receiveFile receiver maxBytes line).dest = none) ∧
    (∀ file, (receiveFile receiver maxBytes line).outcome = .ok file →
      (receiveFile receiver maxBytes line).dest = some (receiveFile receiver maxBytes line).written ∧
        file.sizeBytes = (receiveFile receiver maxBytes line).written.length ∧
        file.sha256 = receiver.sha256 (receiveFile receiver maxBytes line).written) ∧
    (receiveFrames maxBytes {} line).2.1.errors ≤ maxErrors + 1 ∧
    ∀ wide, line.size ≤ (readSubpacket wide line).2.size + maxSubpacketRead := by
  obtain ⟨houtcome, hwritten⟩ := receiveFile_outcome receiver maxBytes line
  obtain ⟨hlimit, hreturned⟩ := receiveFileFrames_written receiver maxBytes line
  refine ⟨?_, ?_, ?_, ?_, ?_, ?_⟩
  · intro hplain e he
    rw [houtcome] at he
    exact receiveFileFrames_contained receiver maxBytes hplain e he
  · rw [hwritten]
    exact hlimit
  · intro e he
    rw [houtcome] at he
    unfold receiveFile
    simp only [he]
  · intro file hfile
    rw [houtcome] at hfile
    obtain ⟨hdest, hsize, hhash⟩ := hreturned file hfile
    rw [hwritten]
    refine ⟨?_, hsize, hhash⟩
    unfold receiveFile
    simp only [hfile]
    exact hdest
  · exact (receiveFrames_contained ⟨Nat.zero_le _, Nat.zero_le _⟩ (Nat.zero_le _)).within.errors
  · intro wide
    exact (reads_readSubpacket wide line).taken

def Line.fed (line : Line) (bytes : List UInt8) (rest : List Arriving) : Line :=
  { line with pushback := [], arriving := bytes.map Arriving.byte ++ rest }

def IsPlain (b : UInt8) : Prop := isFlowControl b = false ∧ b ≠ zdle

instance (b : UInt8) : Decidable (IsPlain b) := inferInstanceAs (Decidable (_ ∧ _))

theorem plain_of_all {bytes : List UInt8} (h : bytes.all (fun b => decide (IsPlain b)) = true) :
    ∀ b ∈ bytes, IsPlain b := by
  intro b hb
  exact of_decide_eq_true (all_eq_true.mp h b hb)

variable {line : Line} {rest : List Arriving} {bytes more : List UInt8}

theorem readRaw_fed (b : UInt8) :
    readRaw (line.fed (b :: bytes) rest) = (.ok b, line.fed bytes rest) := rfl

theorem readBulk_fed (b : UInt8) :
    readBulk (line.fed (b :: bytes) rest) = (.ok b, line.fed bytes rest) := rfl

theorem readZdleByte_plain {read : Line → Heard UInt8} {b : UInt8}
    (hread : read line = (.ok b, after)) (hplain : IsPlain b) :
    readZdleByte read room line = (.ok b, after) := by
  unfold readZdleByte andThen
  rw [hread]
  simp only [hplain.1, Bool.false_eq_true, if_false]
  rw [if_pos hplain.2]

theorem readMany_fed {read : Line → Heard UInt8} {room : Nat}
    (hread : ∀ b bytes, read (line.fed (b :: bytes) rest) = (.ok b, line.fed bytes rest))
    (hplain : ∀ b ∈ bytes, IsPlain b) :
    readMany (readZdleByte read room) bytes.length (line.fed (bytes ++ more) rest) =
      (.ok bytes, line.fed more rest) := by
  induction bytes with
  | nil => rfl
  | cons b bytes ih =>
    rw [forall_mem_cons] at hplain
    rw [length_cons, cons_append]
    unfold readMany
    rw [readZdleByte_plain (hread b (bytes ++ more)) hplain.1]
    simp only [andThen, ih hplain.2]

theorem readData_fed {terminator : UInt8} (hroom : bytes.length ≤ room)
    (hplain : ∀ b ∈ bytes, IsPlain b) (hterminator : isTerminator terminator = true)
    (hne : terminator ≠ zdle) :
    readData room (line.fed (bytes ++ zdle :: terminator :: more) rest) =
      (.ok (bytes, terminator), line.fed more rest) := by
  have hzdle : isFlowControl zdle = false := by decide
  induction bytes generalizing room with
  | nil =>
    unfold readData
    rw [nil_append, readBulk_fed]
    simp [andThen, hzdle, readBulk_fed, if_neg hne, hterminator]
  | cons b bytes ih =>
    rw [forall_mem_cons] at hplain
    cases room with
    | zero => simp at hroom
    | succ room =>
      have hrest := ih (by simpa using hroom) hplain.2
      unfold readData
      rw [cons_append, readBulk_fed]
      simp [andThen, hplain.1.1, hplain.1.2, hrest]

theorem readSubpacket_fed {terminator : UInt8} {check : List UInt8}
    (hroom : bytes.length ≤ maxSubpacketBytes) (hplain : ∀ b ∈ bytes, IsPlain b)
    (hterminator : isTerminator terminator = true) (hne : terminator ≠ zdle)
    (hlength : check.length = 2) (hcheck : ∀ b ∈ check, IsPlain b)
    (hchecks : checks false (bytes ++ [terminator]) check = true) :
    readSubpacket false (line.fed (bytes ++ zdle :: terminator :: (check ++ more)) rest) =
      (.ok (some (bytes, terminator)), line.fed more rest) := by
  unfold readSubpacket
  rw [readData_fed hroom hplain hterminator hne]
  have hmany := @readMany_fed line rest check more readBulk maxSubpacketBytes
    (fun b bytes => readBulk_fed b) hcheck
  rw [hlength] at hmany
  simp [andThen, hmany, hchecks]

theorem scanHeader_fed {payload check : List UInt8} {cans : Nat} (hpayload : payload.length = 5)
    (hlength : check.length = 2) (hplain : ∀ b ∈ payload, IsPlain b)
    (hcheck : ∀ b ∈ check, IsPlain b) (hchecks : checks false payload check = true) :
    scanHeader cans (line.fed (zpad :: zdle :: zbin :: (payload ++ (check ++ more))) rest) =
      (.ok (headerOf payload false), line.fed more rest) := by
  have hfirst := @readMany_fed line rest payload (check ++ more) readRaw maxSubpacketBytes
    (fun b bytes => readRaw_fed b) hplain
  have hsecond := @readMany_fed line rest check more readRaw maxSubpacketBytes
    (fun b bytes => readRaw_fed b) hcheck
  rw [hpayload] at hfirst
  rw [hlength] at hsecond
  have hbody : readHeaderBody zbin (line.fed (payload ++ (check ++ more)) rest) =
      (.ok (some (headerOf payload false)), line.fed more rest) := by
    unfold readHeaderBody readBinaryHeader
    rw [if_neg (by decide)]
    have hwide : decide (zbin = zbin32) = false := by decide
    simp [hwide, andThen, hfirst, hsecond, hchecks]
  have hframed : readFramed (line.fed (zdle :: zbin :: (payload ++ (check ++ more))) rest) =
      (.ok (.inl (headerOf payload false)), line.fed more rest) := by
    have hpads : afterPads (line.fed (zdle :: zbin :: (payload ++ (check ++ more))) rest) =
        (.ok zdle, line.fed (zbin :: (payload ++ (check ++ more))) rest) := by
      rw [afterPads]
      simp only [readRaw_fed]
      rw [if_neg (by decide)]
    unfold readFramed
    rw [hpads]
    simp [andThen, readRaw_fed, hbody]
  rw [scanHeader]
  simp only [readRaw_fed]
  rw [if_neg (by decide), if_neg (by decide)]
  split
  · rename_i heq
    rw [hframed] at heq
    cases heq
  · rename_i heq
    rw [hframed] at heq
    cases heq
    rfl
  · rename_i heq
    rw [hframed] at heq
    cases heq

theorem scanHeader_noise (count : Nat) :
    scanHeader 0 (line.fed (List.replicate count 0 ++ more) rest) =
      scanHeader 0 (line.fed more rest) := by
  induction count with
  | zero => rfl
  | succ count ih =>
    rw [replicate_succ, cons_append, scanHeader]
    simp only [readRaw_fed]
    rw [if_neg (by decide), if_pos (by decide), ih]

theorem nextHeader_of_scan {header : Header}
    (h : scanHeader 0 line = (.ok header, after)) : nextHeader line = (.ok header, after) := by
  unfold nextHeader
  rw [h]

def longInfo (count : Nat) : List UInt8 := [0x65, 0x62, 0x7A, 0x00] ++ List.replicate count 0x35

theorem length_longInfo (count : Nat) : (longInfo count).length = count + 4 := by
  unfold longInfo
  rw [length_append, length_replicate]
  exact Nat.add_comm 4 count

theorem plain_longInfo (count : Nat) : ∀ b ∈ longInfo count, IsPlain b := by
  intro b hb
  rcases mem_append.mp hb with hname | hdigit
  · exact plain_of_all (by decide) b hname
  · rw [eq_of_mem_replicate hdigit]
    decide

theorem crc16_longInfo (count : Nat) : crc16 (longInfo count ++ [0x68]) = 31830 := by
  have hfives : ∀ count, (List.replicate count (0x35 : UInt8)).foldl
      (fun crc b => Nat.repeat crc16Bit 8 (crc ^^^ (b.toNat <<< 8))) 63246 = 63246 := by
    intro count
    induction count with
    | zero => rfl
    | succ count ih =>
      rw [replicate_succ, foldl_cons]
      have hstep : Nat.repeat crc16Bit 8 (63246 ^^^ ((0x35 : UInt8).toNat <<< 8)) = 63246 := by
        decide +kernel
      rw [hstep, ih]
  unfold crc16 longInfo
  rw [foldl_append, foldl_append]
  have hname : ([0x65, 0x62, 0x7A, 0x00] : List UInt8).foldl
      (fun crc b => Nat.repeat crc16Bit 8 (crc ^^^ (b.toNat <<< 8))) 0 = 63246 := by
    decide +kernel
  rw [hname, hfives]
  decide +kernel

theorem sizeField_longInfo (count : Nat) : sizeField (longInfo count) = List.replicate count 0x35 := by
  unfold sizeField splitInfo longInfo
  simp

variable {count : Nat}

theorem judgeInfo_longInfo (tables : NameTables) (maxBytes : Nat) (h : 4300 < count) :
    judgeInfo tables maxBytes (longInfo count) = .error .valueError := by
  have hdigits : isDigits (List.replicate count 0x35) = true := by
    unfold isDigits
    rw [Bool.and_eq_true, all_replicate]
    refine ⟨?_, by simp⟩
    rw [Bool.not_eq_true', isEmpty_replicate]
    exact decide_eq_false (by omega)
  have hlong : intOfDigits (List.replicate count 0x35) = none := by
    unfold intOfDigits
    rw [length_replicate, if_pos h]
  unfold judgeInfo
  simp [sizeField_longInfo, hdigits, hlong]

def longOffer (count : Nat) : List UInt8 :=
  zpad :: zdle :: zbin :: ([0x04, 0, 0, 0, 0] ++ ([0x89, 0x06] ++
    (longInfo count ++ zdle :: 0x68 :: ([0x7C, 0x56] ++ []))))

def quietLine : Line := ⟨[], [], false, []⟩

theorem longOffer_raises (receiver : Receiver) (maxBytes : Nat) (h : 4300 < count)
    (hroom : count + 4 ≤ maxSubpacketBytes) :
    (receiveFile receiver maxBytes (quietLine.fed (longOffer count) [])).outcome =
      .error .valueError := by
  have hheader := @scanHeader_fed (quietLine.send zrinit receiverFlags) []
    (longInfo count ++ zdle :: 0x68 :: ([0x7C, 0x56] ++ [])) [0x04, 0, 0, 0, 0] [0x89, 0x06] 0
    rfl rfl (plain_of_all (by decide)) (plain_of_all (by decide)) (by decide +kernel)
  have hoffer : awaitOffer ((quietLine.fed (longOffer count) []).send zrinit receiverFlags) =
      (.ok ⟨zfile, 0, false⟩, (quietLine.send zrinit receiverFlags).fed
        (longInfo count ++ zdle :: 0x68 :: ([0x7C, 0x56] ++ [])) []) := by
    have hnext : nextHeader ((quietLine.fed (longOffer count) []).send zrinit receiverFlags) =
        (.ok ⟨zfile, 0, false⟩, (quietLine.send zrinit receiverFlags).fed
          (longInfo count ++ zdle :: 0x68 :: ([0x7C, 0x56] ++ [])) []) := nextHeader_of_scan hheader
    rw [awaitOffer]
    split
    · rename_i heq
      rw [hnext] at heq
      cases heq
    · rename_i heq
      rw [hnext] at heq
      cases heq
      rfl
  have hpacket := @readSubpacket_fed (quietLine.send zrinit receiverFlags) [] (longInfo count) []
    0x68 [0x7C, 0x56] (by rw [length_longInfo]; exact hroom) (plain_longInfo count) (by decide)
    (by decide) rfl (plain_of_all (by decide)) (by
      unfold checks
      rw [if_neg (by decide), crc16_longInfo]
      decide)
  rw [(receiveFile_outcome receiver maxBytes _).1]
  unfold receiveFileFrames
  rw [hoffer]
  unfold readOffer
  simp only [hpacket, andThen, judgeInfo_longInfo _ _ h]

def initHeader : List UInt8 := [zpad, zdle, zbin, 0, 0, 0, 0, 0, 0, 0]

theorem nextHeader_initHeader (count : Nat) (more : List UInt8) :
    nextHeader (quietLine.fed (List.replicate count 0 ++ (initHeader ++ more))
      []) = (.ok ⟨zrqinit, 0, false⟩, quietLine.fed more []) := by
  apply nextHeader_of_scan
  rw [scanHeader_noise]
  exact @scanHeader_fed _ _ more [0, 0, 0, 0, 0] [0, 0] 0 rfl rfl (plain_of_all (by decide))
    (plain_of_all (by decide)) (by decide +kernel)

/-- A size of 4301 digits is raised as `ValueError`, and between two headers there can be more bytes than
any bound, without an error or a wait that runs out. -/
theorem longOffer_escapes :
    (∃ line : Line, ¬∀ e, (receiveFile ⟨⟨fun _ => [], fun _ => true⟩, fun _ => ""⟩ 5 line).outcome =
      .error e → e.isContained) ∧
    ∀ bound, ∃ first second third : Line, ∃ header : Header,
      nextHeader first = (.ok header, second) ∧ nextHeader second = (.ok header, third) ∧
        bound < second.size - third.size := by
  constructor
  · refine ⟨quietLine.fed (longOffer 4301) [], ?_⟩
    intro h
    rcases h .valueError (longOffer_raises _ 5 (Nat.lt_succ_self 4300) (by decide)) with hzmodem | hclosed
    · cases hzmodem
    · cases hclosed
  · intro bound
    refine ⟨_, _, _, _, nextHeader_initHeader 0 (List.replicate bound 0 ++ (initHeader ++ [])),
      nextHeader_initHeader bound [], ?_⟩
    simp [Line.fed, Line.size, initHeader]

end NetBBS.Zmodem
