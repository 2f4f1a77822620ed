import Mathlib.Data.List.Induction
import NetBBS.Link.Files.Transfer

/-! # Runs of a fetch -/

namespace NetBBS.Files

open Foundation List

section Runs

variable {sha256 : Bytes → String} {remote : RemoteFile} {start db : FetchDb}

theorem fetchRun_snoc (run : List FetchOp) (op : FetchOp) :
    fetchRun sha256 remote start (run ++ [op]) =
      fetchStep sha256 remote (fetchRun sha256 remote start run) op := by
  unfold fetchRun
  rw [foldl_append]
  rfl

def EveryReply (sha256 : Bytes → String) (remote : RemoteFile) (start : FetchDb)
    (P : FetchDb → Reply → Prop) (run : List FetchOp) : Prop :=
  ∀ before reply after, run = before ++ .receive reply :: after →
    P (fetchRun sha256 remote start before) reply

variable {P : FetchDb → Reply → Prop} {run : List FetchOp}

theorem EveryReply.init {op : FetchOp} (h : EveryReply sha256 remote start P (run ++ [op])) :
    EveryReply sha256 remote start P run := by
  intro before reply after hsplit
  apply h before reply (after ++ [op])
  rw [hsplit, append_assoc, cons_append]

theorem fetchRun_invariant {I : FetchDb → Prop} (hstart : I start)
    (hfetch : ∀ db, I db → I (getOrCreateTransfer remote db).2)
    (hreceive : ∀ db reply, I db → P db reply → I (applyReceivedChunk sha256 remote db reply).2)
    (hrun : EveryReply sha256 remote start P run) :
    I (fetchRun sha256 remote start run) := by
  induction run using List.reverseRecOn with
  | nil => exact hstart
  | append_singleton run op ih =>
    rw [fetchRun_snoc]
    cases op with
    | fetch => exact hfetch _ (ih hrun.init)
    | receive reply => exact hreceive _ _ (ih hrun.init) (hrun run reply [] rfl)

end Runs

section Progress

variable {sha256 : Bytes → String} {remote : RemoteFile} {db : FetchDb} {transfer : TransferState}
  {reply : Reply}

def Progresses (sha256 : Bytes → String) (remote : RemoteFile) (db : FetchDb) (reply : Reply) : Prop :=
  (∃ e, (applyReceivedChunk sha256 remote db reply).1 = .error e) ∨
  (∃ row ∈ db.chunks, row.1 = reply.chunkIndex) ∨
  ∃ before after, db.transfer = some before ∧
    (applyReceivedChunk sha256 remote db reply).1 = .ok after ∧
    (after.status = .completed ∨
      ∃ next, before.nextChunkIndex = some next ∧ after.nextChunkIndex = some (next + 1))

def FillsChunk (sha256 : Bytes → String) (db : FetchDb) (reply : Reply) : Prop :=
  ∀ transfer, Accepted sha256 db transfer reply → reply.isLast = false →
    (transfer.bytesReceived / transfer.chunkSize + 1) * transfer.chunkSize ≤
        transfer.bytesReceived + reply.chunkBytes.length ∧
      transfer.bytesReceived + reply.chunkBytes.length <
        (transfer.bytesReceived / transfer.chunkSize + 2) * transfer.chunkSize

theorem received_next (h : Accepted sha256 db transfer reply) :
    transfer.nextChunkIndex = some (transfer.bytesReceived / transfer.chunkSize) ∧
      (transfer.received db reply).nextChunkIndex =
        some ((transfer.bytesReceived + reply.chunkBytes.length) / transfer.chunkSize) := by
  have hstatus := h.index.1
  constructor
  · unfold TransferState.nextChunkIndex
    rw [if_neg (not_not.mpr hstatus)]
  · unfold TransferState.nextChunkIndex TransferState.received
    rw [if_neg (not_not.mpr hstatus)]

theorem finalizeTransfer_cases (sha256 : Bytes → String) (remote : RemoteFile) (db : FetchDb)
    (transfer : TransferState) (path : Nat) :
    (finalizeTransfer sha256 remote db transfer path).1 = .error .contentHash ∨
      (finalizeTransfer sha256 remote db transfer path).1 =
        .ok { transfer with status := .completed } := by
  unfold finalizeTransfer
  split
  · exact .inl rfl
  · exact .inr rfl

theorem progresses_iff (hsize : ∀ transfer, db.transfer = some transfer → 0 < transfer.chunkSize) :
    Progresses sha256 remote db reply ↔ FillsChunk sha256 db reply := by
  rcases applyReceivedChunk_cases sha256 remote db reply with
    ⟨transfer, haccepted⟩ | ⟨-, hkept⟩
  · have hpositive := hsize transfer haccepted.held
    obtain ⟨hnext, hafter⟩ := received_next haccepted
    have hrises : (transfer.bytesReceived + reply.chunkBytes.length) / transfer.chunkSize =
        transfer.bytesReceived / transfer.chunkSize + 1 ↔
        (transfer.bytesReceived / transfer.chunkSize + 1) * transfer.chunkSize ≤
          transfer.bytesReceived + reply.chunkBytes.length ∧
        transfer.bytesReceived + reply.chunkBytes.length <
          (transfer.bytesReceived / transfer.chunkSize + 2) * transfer.chunkSize := by
      rw [← Nat.le_div_iff_mul_le hpositive, ← Nat.div_lt_iff_lt_mul hpositive]
      omega
    have happly := @applyReceivedChunk_accepted sha256 remote db transfer reply haccepted
    cases hlast : reply.isLast with
    | true =>
      rw [hlast, if_neg (by decide)] at happly
      constructor
      · intro _ other _ hnotLast
        rw [hlast] at hnotLast
        cases hnotLast
      · intro _
        unfold Progresses
        rw [happly]
        rcases finalizeTransfer_cases sha256 remote (recordChunk db transfer reply)
            (transfer.received db reply) (transfer.tempPath.getD db.unused) with herror | hok
        · exact .inl ⟨_, herror⟩
        · exact .inr (.inr ⟨transfer, _, haccepted.held, hok, .inl rfl⟩)
    | false =>
      rw [hlast, if_pos rfl] at happly
      constructor
      · intro hprogress other hother _
        obtain rfl := Option.some.inj (haccepted.held.symm.trans hother.held)
        apply hrises.mp
        unfold Progresses at hprogress
        rw [happly] at hprogress
        rcases hprogress with ⟨e, herror⟩ | ⟨row, hrow, hsame⟩ |
          ⟨before, after, hbefore, hok, hmoved⟩
        · cases herror
        · exact absurd hsame (haccepted.new row hrow)
        · obtain rfl := Option.some.inj (haccepted.held.symm.trans hbefore)
          obtain rfl := Except.ok.inj hok
          rcases hmoved with hcompleted | ⟨next, hbeforeNext, hafterNext⟩
          · have hstatus : transfer.status = .completed := hcompleted
            rw [haccepted.index.1] at hstatus
            cases hstatus
          · rw [hnext] at hbeforeNext
            rw [hafter] at hafterNext
            obtain rfl := Option.some.inj hbeforeNext
            exact Option.some.inj hafterNext
      · intro hfills
        have hmoved := hrises.mpr (hfills transfer haccepted hlast)
        unfold Progresses
        rw [happly]
        refine .inr (.inr ⟨transfer, _, haccepted.held, rfl, .inr ⟨_, hnext, ?_⟩⟩)
        rw [hafter, hmoved]
  · constructor
    · intro _ transfer haccepted _
      rcases hkept with ⟨row, hrow, hsame⟩ | ⟨e, herror⟩
      · exact absurd hsame (haccepted.new row hrow)
      · have happly := @applyReceivedChunk_accepted sha256 remote db transfer reply haccepted
        rename_i hnotLast
        rw [hnotLast, if_pos rfl] at happly
        rw [happly] at herror
        cases herror
    · intro _
      rcases hkept with hduplicate | herror
      · exact .inr (.inl hduplicate)
      · exact .inl herror

end Progress

section Invariants

variable {sha256 : Bytes → String} {remote : RemoteFile} {content : Bytes} {db : FetchDb}
  {transfer : TransferState} {reply : Reply}

structure NeverFetched (sha256 : Bytes → String) (remote : RemoteFile) (content : Bytes)
    (db : FetchDb) : Prop where
  transfer : db.transfer = none
  chunks : db.chunks = []
  unused : ∀ path, db.unused ≤ path → db.incoming.get? path = none
  storage : sha256 content = remote.sha256 →
    ∀ bytes, db.storage.get? remote.sha256 = some bytes → bytes = content
  file : db.file = none

def DefaultSize (db : FetchDb) : Prop :=
  ∀ transfer, db.transfer = some transfer → transfer.chunkSize = defaultChunkSize

theorem finalizeTransfer_transfer (db : FetchDb) (transfer : TransferState) (path : Nat) :
    ∃ status, status ≠ .inProgress ∧
      (finalizeTransfer sha256 remote db transfer path).2.transfer =
        some { transfer with status } ∧
      (finalizeTransfer sha256 remote db transfer path).2.chunks = db.chunks ∧
      (finalizeTransfer sha256 remote db transfer path).2.unused = db.unused := by
  unfold finalizeTransfer
  split
  · exact ⟨.failed, by decide, rfl, rfl, rfl⟩
  · exact ⟨.completed, by decide, rfl, rfl, rfl⟩

theorem getOrCreateTransfer_cases (remote : RemoteFile) (db : FetchDb) :
    (getOrCreateTransfer remote db).2 = db ∨
    (∃ transfer, db.transfer = some transfer ∧ transfer.status = .failed ∧ (getOrCreateTransfer remote db).2 =
        { db with
          transfer := some
            { transfer with status := .inProgress, bytesReceived := 0, tempPath := none }
          chunks := [] }) ∨
    (db.transfer = none ∧ (getOrCreateTransfer remote db).2 =
      { db with
        transfer := some
          { totalSize := remote.sizeBytes
            chunkSize := defaultChunkSize
            bytesReceived := 0
            status := .inProgress
            tempPath := none } }) := by
  unfold getOrCreateTransfer
  cases hheld : db.transfer with
  | some transfer =>
    simp only
    split
    · exact .inl rfl
    · rename_i hfailed
      exact .inr (.inl ⟨transfer, rfl, not_not.mp hfailed, rfl⟩)
  | none =>
    simp only
    split
    · exact .inl rfl
    · exact .inr (.inr ⟨trivial, rfl⟩)

theorem defaultSize_fetch (h : DefaultSize db) : DefaultSize (getOrCreateTransfer remote db).2 := by
  rcases getOrCreateTransfer_cases remote db with
    hsame | ⟨transfer, hheld, -, hreopened⟩ | ⟨-, hcreated⟩
  · rw [hsame]
    exact h
  · rw [hreopened]
    intro other hother
    obtain rfl := Option.some.inj hother
    exact h transfer hheld
  · rw [hcreated]
    intro other hother
    obtain rfl := Option.some.inj hother
    rfl

theorem defaultSize_receive (h : DefaultSize db) :
    DefaultSize (applyReceivedChunk sha256 remote db reply).2 := by
  rcases applyReceivedChunk_cases sha256 remote db reply with
    ⟨transfer, haccepted⟩ | ⟨hsame, -⟩
  · rw [applyReceivedChunk_accepted haccepted]
    split
    · intro other hother
      obtain rfl := Option.some.inj hother
      exact h transfer haccepted.held
    · obtain ⟨status, -, htransfer, -⟩ := @finalizeTransfer_transfer sha256 remote
        (recordChunk db transfer reply) (transfer.received db reply) (transfer.tempPath.getD db.unused)
      intro other hother
      rw [htransfer] at hother
      obtain rfl := Option.some.inj hother
      exact h transfer haccepted.held
  · rw [hsame]
    exact h

def InOrder (db : FetchDb) : Prop :=
  (db.transfer = none → db.chunks = []) ∧
  ∀ transfer next, db.transfer = some transfer → transfer.nextChunkIndex = some next →
    db.chunks.map Prod.fst = (List.range next).map Int.ofNat

theorem inOrder_fetch (h : InOrder db) : InOrder (getOrCreateTransfer remote db).2 := by
  have hzero : ∀ size, 0 / size = 0 := Nat.zero_div
  rcases getOrCreateTransfer_cases remote db with
    hsame | ⟨transfer, -, -, hreopened⟩ | ⟨hnone, hcreated⟩
  · rw [hsame]
    exact h
  · rw [hreopened]
    refine ⟨fun hnone => (by cases hnone), ?_⟩
    intro other next hother hnext
    obtain rfl := Option.some.inj hother
    simp only [TransferState.nextChunkIndex, hzero] at hnext
    obtain rfl := Option.some.inj hnext
    rfl
  · rw [hcreated]
    refine ⟨fun hnone' => (by cases hnone'), ?_⟩
    intro other next hother hnext
    obtain rfl := Option.some.inj hother
    simp only [TransferState.nextChunkIndex, hzero] at hnext
    obtain rfl := Option.some.inj hnext
    rw [h.1 hnone]
    rfl

theorem inOrder_receive (hsize : DefaultSize db) (h : InOrder db) (hfills : FillsChunk sha256 db reply) :
    InOrder (applyReceivedChunk sha256 remote db reply).2 := by
  rcases applyReceivedChunk_cases sha256 remote db reply with
    ⟨transfer, haccepted⟩ | ⟨hsame, -⟩
  · rw [applyReceivedChunk_accepted haccepted]
    obtain ⟨hnext, hafter⟩ := received_next haccepted
    cases hlast : reply.isLast with
    | false =>
      rw [if_pos rfl]
      refine ⟨fun hnone => (by cases hnone), ?_⟩
      intro other next hother hnextOther
      obtain rfl : transfer.received db reply = other := Option.some.inj hother
      rw [hafter] at hnextOther
      obtain ⟨hlow, hhigh⟩ := hfills transfer haccepted hlast
      have hpositive : 0 < transfer.chunkSize := by
        rw [hsize transfer haccepted.held]
        decide
      rw [← Nat.le_div_iff_mul_le hpositive] at hlow
      rw [← Nat.div_lt_iff_lt_mul hpositive] at hhigh
      have hmoved : next = transfer.bytesReceived / transfer.chunkSize + 1 := by
        have hsame := Option.some.inj hnextOther
        omega
      show (db.chunks ++ [(reply.chunkIndex, reply.claimedSha256)]).map Prod.fst = _
      rw [map_append, h.2 transfer _ haccepted.held hnext, hmoved, range_succ,
        map_append, haccepted.index.2]
      rfl
    | true =>
      rw [if_neg (by decide)]
      obtain ⟨status, hstatus, htransfer, -⟩ := @finalizeTransfer_transfer sha256 remote
        (recordChunk db transfer reply) (transfer.received db reply) (transfer.tempPath.getD db.unused)
      refine ⟨fun hnone => (by rw [htransfer] at hnone; cases hnone), ?_⟩
      intro other next hother hnextOther
      rw [htransfer] at hother
      obtain rfl := Option.some.inj hother
      unfold TransferState.nextChunkIndex at hnextOther
      rw [if_pos hstatus] at hnextOther
      cases hnextOther
  · rw [hsame]
    exact h

def stagingOf (db : FetchDb) (transfer : TransferState) : Bytes :=
  (transfer.tempPath.map db.staged).getD []

structure Faithful (remote : RemoteFile) (content : Bytes) (db : FetchDb) : Prop where
  staged : ∀ transfer, db.transfer = some transfer → transfer.status = .inProgress →
    stagingOf db transfer = content.take transfer.bytesReceived ∧
      transfer.bytesReceived ≤ content.length
  indices : ∀ transfer next, db.transfer = some transfer → transfer.nextChunkIndex = some next →
    db.chunks.map Prod.fst = (List.range next).map Int.ofNat
  stored : ∀ transfer, db.transfer = some transfer → transfer.status = .completed →
    db.file = some remote.sha256 ∧ db.storage.get? remote.sha256 = some content

/-- What carries it from reply to reply. -/
structure Fetching (sha256 : Bytes → String) (remote : RemoteFile) (content : Bytes)
    (db : FetchDb) : Prop where
  size : DefaultSize db
  order : InOrder db
  unused : ∀ path, db.unused ≤ path → db.incoming.get? path = none
  storage : sha256 content = remote.sha256 →
    ∀ bytes, db.storage.get? remote.sha256 = some bytes → bytes = content
  file : db.file = none ∨ db.file = some remote.sha256
  path : ∀ transfer path, db.transfer = some transfer → transfer.tempPath = some path →
    path < db.unused
  whole : ∀ transfer, db.transfer = some transfer → transfer.status = .inProgress →
    stagingOf db transfer = content.take transfer.bytesReceived ∧
      ∃ count, transfer.bytesReceived = count * defaultChunkSize ∧
        (count = 0 ∨ transfer.bytesReceived < content.length)
  stored : ∀ transfer, db.transfer = some transfer → transfer.status = .completed →
    db.file = some remote.sha256 ∧ db.storage.get? remote.sha256 = some content

theorem NeverFetched.fetching (h : NeverFetched sha256 remote content db) :
    Fetching sha256 remote content db where
  size transfer hheld := by
    rw [h.transfer] at hheld
    cases hheld
  order := by
    refine ⟨fun _ => h.chunks, ?_⟩
    intro transfer next hheld
    rw [h.transfer] at hheld
    cases hheld
  unused := h.unused
  storage := h.storage
  file := .inl h.file
  path transfer path hheld := by
    rw [h.transfer] at hheld
    cases hheld
  whole transfer hheld := by
    rw [h.transfer] at hheld
    cases hheld
  stored transfer hheld := by
    rw [h.transfer] at hheld
    cases hheld

theorem Fetching.faithful (h : Fetching sha256 remote content db) : Faithful remote content db where
  staged transfer hheld hstatus := by
    obtain ⟨hstaged, count, hcount, hroom⟩ := h.whole transfer hheld hstatus
    refine ⟨hstaged, ?_⟩
    rcases hroom with rfl | hroom
    · omega
    · exact Nat.le_of_lt hroom
  indices := h.order.2
  stored := h.stored

theorem fetching_fetch (h : Fetching sha256 remote content db) :
    Fetching sha256 remote content (getOrCreateTransfer remote db).2 := by
  have hsize := @defaultSize_fetch remote db h.size
  have horder := @inOrder_fetch remote db h.order
  rcases getOrCreateTransfer_cases remote db with
    hsame | ⟨transfer, hheld, -, hreopened⟩ | ⟨-, hcreated⟩
  · rw [hsame]
    exact h
  · rw [hreopened] at hsize horder ⊢
    refine ⟨hsize, horder, h.unused, h.storage, h.file, ?_, ?_, ?_⟩
    · intro other path hother hpath
      obtain rfl := Option.some.inj hother
      cases hpath
    · intro other hother _
      obtain rfl := Option.some.inj hother
      exact ⟨rfl, 0, (Nat.zero_mul _).symm, .inl rfl⟩
    · intro other hother hcompleted
      obtain rfl := Option.some.inj hother
      cases hcompleted
  · rw [hcreated] at hsize horder ⊢
    refine ⟨hsize, horder, h.unused, h.storage, h.file, ?_, ?_, ?_⟩
    · intro other path hother hpath
      obtain rfl := Option.some.inj hother
      cases hpath
    · intro other hother _
      obtain rfl := Option.some.inj hother
      exact ⟨rfl, 0, (Nat.zero_mul _).symm, .inl rfl⟩
    · intro other hother hcompleted
      obtain rfl := Option.some.inj hother
      cases hcompleted

theorem IsServed.spec (h : IsServed sha256 content reply) :
    ∃ count : Nat, reply.chunkIndex = Int.ofNat count ∧
      reply.chunkBytes = (content.drop (count * defaultChunkSize)).take defaultChunkSize ∧
      reply.isLast = decide (content.length ≤
        count * defaultChunkSize + reply.chunkBytes.length) := by
  obtain ⟨count, chunkBytes, chunkSize, totalSize, isLast, hserved, rfl⟩ := h
  unfold buildChunkForServing at hserved
  rw [Nat.min_self, show max 1 defaultChunkSize = defaultChunkSize from rfl] at hserved
  simp only at hserved
  split at hserved
  · cases hserved
  · obtain ⟨rfl, -, -, rfl⟩ : _ ∧ _ ∧ _ ∧ _ := by
      simpa only [Except.ok.injEq, Prod.mk.injEq] using hserved
    exact ⟨count, rfl, rfl, rfl⟩

theorem Fetching.next (h : Fetching sha256 remote content db) (hserved : IsServed sha256 content reply)
    (haccepted : Accepted sha256 db transfer reply) :
    stagingOf db transfer ++ reply.chunkBytes =
        content.take (transfer.bytesReceived + reply.chunkBytes.length) ∧
      (reply.isLast = true → content.take (transfer.bytesReceived + reply.chunkBytes.length) = content) ∧
      (reply.isLast = false → reply.chunkBytes.length = defaultChunkSize ∧
        transfer.bytesReceived + reply.chunkBytes.length < content.length) := by
  obtain ⟨hstatus, hindex⟩ := haccepted.index
  obtain ⟨hstaged, count, hcount, -⟩ := h.whole transfer haccepted.held hstatus
  obtain ⟨asked, hasked, hbytes, hlast⟩ := hserved.spec
  have hpositive : 0 < defaultChunkSize := by decide
  have hsame : asked = count := by
    rw [h.size transfer haccepted.held, hcount, Nat.mul_div_cancel _ hpositive] at hindex
    exact Int.ofNat.inj (hasked.symm.trans hindex)
  subst hsame
  have hlength : reply.chunkBytes.length =
      min defaultChunkSize (content.length - asked * defaultChunkSize) := by
    rw [hbytes, length_take, length_drop]
  rw [← hcount] at hlength hlast hbytes
  refine ⟨?_, ?_, ?_⟩
  · have htake : content.take (transfer.bytesReceived + reply.chunkBytes.length) =
        content.take transfer.bytesReceived ++
          (content.drop transfer.bytesReceived).take reply.chunkBytes.length := take_add
    rw [hstaged, htake]
    congr 1
    conv_lhs => rw [hbytes]
    rw [hlength, ← length_drop, take_eq_take_min (i := defaultChunkSize)]
  · intro htrue
    rw [htrue] at hlast
    exact take_of_length_le (of_decide_eq_true hlast.symm)
  · intro hfalse
    rw [hfalse] at hlast
    have hmore := Nat.not_le.mp (of_decide_eq_false hlast.symm)
    refine ⟨?_, hmore⟩
    omega

theorem Fetching.staged_record (h : Fetching sha256 remote content db) :
    (recordChunk db transfer reply).staged (transfer.tempPath.getD db.unused) =
      stagingOf db transfer ++ reply.chunkBytes := by
  apply staged_recordChunk
  intro _
  unfold FetchDb.staged
  rw [h.unused db.unused (Nat.le_refl _)]
  rfl

theorem Fetching.unused_record (h : Fetching sha256 remote content db) (hheld : db.transfer = some transfer) :
    (∀ path, transfer.tempPath.getD db.unused = path → path < (recordChunk db transfer reply).unused) ∧
    ∀ path, (recordChunk db transfer reply).unused ≤ path →
      (recordChunk db transfer reply).incoming.get? path = none := by
  have hused : transfer.tempPath.getD db.unused < (recordChunk db transfer reply).unused ∧
      db.unused ≤ (recordChunk db transfer reply).unused := by
    show transfer.tempPath.getD db.unused <
        (if transfer.tempPath = none then db.unused + 1 else db.unused) ∧
      db.unused ≤ if transfer.tempPath = none then db.unused + 1 else db.unused
    cases hpath : transfer.tempPath with
    | none => exact ⟨Nat.lt_succ_self _, Nat.le_succ _⟩
    | some path =>
      rw [if_neg (Option.some_ne_none path)]
      exact ⟨h.path transfer path hheld hpath, Nat.le_refl _⟩
  constructor
  · intro path hpath
    exact hpath ▸ hused.1
  · intro path hfree
    show (db.incoming.set (transfer.tempPath.getD db.unused) _).get? path = none
    rw [Dict.get?_set_ne _ _ (by have hlow := hused.1; omega)]
    exact h.unused path (Nat.le_trans hused.2 hfree)

section

variable (h : Fetching sha256 remote content db)

include h

theorem fetching_recordChunk
    (hserved : IsServed sha256 content reply) (haccepted : Accepted sha256 db transfer reply)
    (hlast : reply.isLast = false) (hsize : DefaultSize (recordChunk db transfer reply))
    (horder : InOrder (recordChunk db transfer reply)) :
    Fetching sha256 remote content (recordChunk db transfer reply) := by
  obtain ⟨hstaged, -, hnext⟩ := h.next hserved haccepted
  obtain ⟨hfull, hmore⟩ := hnext hlast
  obtain ⟨-, count, hcount, -⟩ := h.whole transfer haccepted.held haccepted.index.1
  obtain ⟨hpath, hunused⟩ := @Fetching.unused_record _ _ _ _ transfer reply h haccepted.held
  refine ⟨hsize, horder, hunused, h.storage, h.file, ?_, ?_, ?_⟩
  · intro other path hother hsome
    obtain rfl : transfer.received db reply = other := Option.some.inj hother
    exact hpath path (Option.some.inj hsome)
  · intro other hother _
    obtain rfl : transfer.received db reply = other := Option.some.inj hother
    refine ⟨?_, count + 1, ?_, .inr hmore⟩
    · show (recordChunk db transfer reply).staged (transfer.tempPath.getD db.unused) = _
      rw [h.staged_record, hstaged]
      rfl
    · show transfer.bytesReceived + reply.chunkBytes.length = (count + 1) * defaultChunkSize
      rw [hcount, hfull, Nat.succ_mul]
  · intro other hother hcompleted
    obtain rfl : transfer.received db reply = other := Option.some.inj hother
    have hstatus : transfer.status = .completed := hcompleted
    rw [haccepted.index.1] at hstatus
    cases hstatus

theorem fetching_finalize
    (hserved : IsServed sha256 content reply) (haccepted : Accepted sha256 db transfer reply)
    (hlast : reply.isLast = true)
    (hsize : DefaultSize (finalizeTransfer sha256 remote (recordChunk db transfer reply)
      (transfer.received db reply) (transfer.tempPath.getD db.unused)).2)
    (horder : InOrder (finalizeTransfer sha256 remote (recordChunk db transfer reply)
      (transfer.received db reply) (transfer.tempPath.getD db.unused)).2) :
    Fetching sha256 remote content (finalizeTransfer sha256 remote (recordChunk db transfer reply)
      (transfer.received db reply) (transfer.tempPath.getD db.unused)).2 := by
  obtain ⟨hstaged, hwhole, -⟩ := h.next hserved haccepted
  have hcontent : (recordChunk db transfer reply).staged (transfer.tempPath.getD db.unused) =
      content := by
    rw [h.staged_record, hstaged, hwhole hlast]
  obtain ⟨hpath, hunused⟩ := @Fetching.unused_record _ _ _ _ transfer reply h haccepted.held
  have herased : ∀ erased path, (recordChunk db transfer reply).unused ≤ path →
      ((recordChunk db transfer reply).incoming.erase erased).get? path = none := by
    intro erased path hfree
    rw [Dict.get?_erase]
    split
    · rfl
    · exact hunused path hfree
  unfold finalizeTransfer at hsize horder ⊢
  rw [hcontent] at hsize horder ⊢
  by_cases hhash : sha256 content ≠ remote.sha256
  · rw [if_pos hhash] at hsize horder ⊢
    refine ⟨hsize, horder, herased _, h.storage, h.file, ?_, ?_, ?_⟩
    · intro other path hother hsome
      obtain rfl := Option.some.inj hother
      exact hpath path (Option.some.inj hsome)
    · intro other hother hstatus
      obtain rfl := Option.some.inj hother
      cases hstatus
    · intro other hother hstatus
      obtain rfl := Option.some.inj hother
      cases hstatus
  · rw [if_neg hhash] at hsize horder ⊢
    have hstored : (db.storage.setDefault remote.sha256 content).get? remote.sha256 =
        some content := by
      rw [Dict.get?_setDefault, if_pos rfl]
      cases hheld : db.storage.get? remote.sha256 with
      | none => rfl
      | some bytes => exact congrArg some (h.storage (not_not.mp hhash) bytes hheld)
    have hfile : db.file.or (some remote.sha256) = some remote.sha256 := by
      rcases h.file with hnone | hsome
      · rw [hnone]
        rfl
      · rw [hsome]
        rfl
    refine ⟨hsize, horder, herased _, ?_, .inr hfile, ?_, ?_, ?_⟩
    · intro _ bytes hbytes
      exact Option.some.inj (hbytes.symm.trans hstored)
    · intro other path hother hsome
      obtain rfl := Option.some.inj hother
      exact hpath path (Option.some.inj hsome)
    · intro other hother hstatus
      obtain rfl := Option.some.inj hother
      cases hstatus
    · intro other hother _
      exact ⟨hfile, hstored⟩

theorem Fetching.fillsChunk
    (hserved : IsServed sha256 content reply) : FillsChunk sha256 db reply := by
  intro transfer haccepted hlast
  obtain ⟨-, -, hnext⟩ := h.next hserved haccepted
  obtain ⟨hfull, -⟩ := hnext hlast
  obtain ⟨-, count, hcount, -⟩ := h.whole transfer haccepted.held haccepted.index.1
  have hpositive : 0 < defaultChunkSize := by decide
  rw [h.size transfer haccepted.held, hfull, hcount, Nat.mul_div_cancel _ hpositive]
  rw [Nat.succ_mul, Nat.add_mul]
  omega

theorem fetching_receive (hserved : IsServed sha256 content reply) :
    Fetching sha256 remote content (applyReceivedChunk sha256 remote db reply).2 := by
  have hsize := @defaultSize_receive sha256 remote db reply h.size
  have horder := @inOrder_receive sha256 remote db reply h.size h.order (h.fillsChunk hserved)
  rcases applyReceivedChunk_cases sha256 remote db reply with
    ⟨transfer, haccepted⟩ | ⟨hsame, -⟩
  · rw [applyReceivedChunk_accepted haccepted] at hsize horder ⊢
    cases hlast : reply.isLast with
    | false =>
      rw [hlast, if_pos rfl] at hsize horder
      rw [if_pos rfl]
      exact fetching_recordChunk h hserved haccepted hlast hsize horder
    | true =>
      rw [hlast, if_neg (by decide)] at hsize horder
      rw [if_neg (by decide)]
      exact fetching_finalize h hserved haccepted hlast hsize horder
  · rw [hsame]
    exact h

end

end Invariants

/-- What is fetched from the origin is the file, in whatever order and however often its replies come. -/
theorem fetchRun_spec (sha256 : Bytes → String) (remote : RemoteFile) (content : Bytes)
    (start : FetchDb) (hstart : NeverFetched sha256 remote content start) (run : List FetchOp) :
    (EveryReply sha256 remote start (fun _ reply => IsServed sha256 content reply) run →
      Faithful remote content (fetchRun sha256 remote start run)) ∧
    (EveryReply sha256 remote start (Progresses sha256 remote) run ↔
      EveryReply sha256 remote start (fun db reply => FillsChunk sha256 db reply) run) ∧
    (EveryReply sha256 remote start (fun db reply => FillsChunk sha256 db reply) run →
      InOrder (fetchRun sha256 remote start run)) := by
  have hbegin := hstart.fetching
  have hsize : ∀ before, DefaultSize (fetchRun sha256 remote start before) := by
    intro before
    apply fetchRun_invariant (P := fun _ _ => True) hbegin.size
    · intro db hdb
      exact defaultSize_fetch hdb
    · intro db reply hdb _
      exact defaultSize_receive hdb
    · intro _ _ _ _
      trivial
  have hpositive : 0 < defaultChunkSize := by decide
  have hstep : ∀ before reply,
      Progresses sha256 remote (fetchRun sha256 remote start before) reply ↔
        FillsChunk sha256 (fetchRun sha256 remote start before) reply := by
    intro before reply
    apply progresses_iff
    intro transfer hheld
    rw [hsize before transfer hheld]
    exact hpositive
  refine ⟨?_, ?_, ?_⟩
  · intro hserved
    apply Fetching.faithful
    apply fetchRun_invariant hbegin _ _ hserved
    · intro db hdb
      exact fetching_fetch hdb
    · intro db reply hdb hreply
      exact fetching_receive hdb hreply
  · constructor
    · intro hprogress before reply after hsplit
      exact (hstep before reply).mp (hprogress before reply after hsplit)
    · intro hfills before reply after hsplit
      exact (hstep before reply).mpr (hfills before reply after hsplit)
  · intro hfills
    have hboth : DefaultSize (fetchRun sha256 remote start run) ∧
        InOrder (fetchRun sha256 remote start run) := by
      apply fetchRun_invariant (I := fun db => DefaultSize db ∧ InOrder db)
        ⟨hbegin.size, hbegin.order⟩ _ _ hfills
      · intro db hdb
        exact ⟨defaultSize_fetch hdb.1, inOrder_fetch hdb.2⟩
      · intro db reply hdb hreply
        exact ⟨defaultSize_receive hdb.1, inOrder_receive hdb.1 hdb.2 hreply⟩
    exact hboth.2

section Short

def shortHash (bytes : Bytes) : String :=
  if bytes = [] then "e3b0c44298fc1c149afbf4c8996fb92427ae41e4649b934ca495991b7852b855"
  else if bytes = [0x61] then "ca978112ca1bbdcafac231b39a23dc4da786eff8147c4e72b9807785afee48bb"
  else ""

def letterFile : RemoteFile := ⟨1, shortHash [0x61]⟩

theorem letterFile_neverFetched : NeverFetched shortHash letterFile [0x61] {} where
  transfer := rfl
  chunks := rfl
  unused _ _ := rfl
  storage _ _ hbytes := by cases hbytes
  file := rfl

/-- A session asks for the only chunk and gets it. -/
def letterRun : List FetchOp := [.fetch, .receive ⟨0, [0x61], shortHash [0x61], true⟩]

theorem letterRun_fetched : NeverFetched shortHash letterFile [0x61] {} ∧
      Faithful letterFile [0x61] (fetchRun shortHash letterFile {} letterRun) := by
  refine ⟨letterFile_neverFetched, ?_⟩
  apply (fetchRun_spec shortHash letterFile [0x61] {} letterFile_neverFetched letterRun).1
  intro before reply after hsplit
  have hreply : reply = ⟨0, [0x61], shortHash [0x61], true⟩ := by
    rcases before with - | ⟨first, - | ⟨second, rest⟩⟩
    · cases hsplit
    · injection hsplit with _ hsecond
      injection hsecond with hsame
      injection hsame with hsame
      exact hsame.symm
    · simp [letterRun] at hsplit
  rw [hreply]
  exact ⟨0, [0x61], 1, 1, true, rfl, rfl⟩

/-- The same chunk, said not to be the last. -/
def shortReply : Reply := ⟨0, [0x61], shortHash [0x61], false⟩

theorem shortReply_stays :
    ¬∀ (sha256 : Bytes → String) (remote : RemoteFile) (content : Bytes) (start : FetchDb)
      (run : List FetchOp), NeverFetched sha256 remote content start →
        EveryReply sha256 remote start (Progresses sha256 remote) run := by
  intro hclaim
  have hprogress := hclaim shortHash letterFile [0x61] {} [.fetch, .receive shortReply]
    letterFile_neverFetched [.fetch] shortReply [] rfl
  have hopened : (fetchRun shortHash letterFile {} [.fetch]).transfer =
      some ⟨1, defaultChunkSize, 0, .inProgress, none⟩ := rfl
  rw [progresses_iff] at hprogress
  · have haccepted : Accepted shortHash (fetchRun shortHash letterFile {} [.fetch])
        ⟨1, defaultChunkSize, 0, .inProgress, none⟩ shortReply := by
      refine ⟨hopened, ?_, rfl, by decide⟩
      intro row hrow
      cases hrow
    obtain ⟨hfull, -⟩ := hprogress _ haccepted rfl
    exact absurd hfull (by decide)
  · intro transfer hheld
    obtain rfl := Option.some.inj (hopened.symm.trans hheld)
    decide

end Short

end NetBBS.Files
