import NetBBS.Foundation.Dict
import NetBBS.Foundation.Refusal

/-! # Fetching a remote file -/

namespace NetBBS.Files

open Foundation List

abbrev Bytes := List UInt8

def defaultChunkSize : Nat := 256 * 1024

inductive TransferStatus where
  | inProgress
  | completed
  | failed
deriving DecidableEq

/-- The one row of a file and a requester. -/
structure TransferState where
  totalSize : Nat
  chunkSize : Nat
  bytesReceived : Nat
  status : TransferStatus
  tempPath : Option Nat

def TransferState.nextChunkIndex (transfer : TransferState) : Option Nat :=
  if transfer.status ≠ .inProgress then none
  else some (transfer.bytesReceived / transfer.chunkSize)

structure RemoteFile where
  sizeBytes : Nat
  sha256 : String

/-- The requester's tables and disk. -/
structure FetchDb where
  transfer : Option TransferState := none
  chunks : List (Int × String) := []
  incoming : Dict Nat Bytes := .empty
  /-- The next path that was never used. -/
  unused : Nat := 0
  /-- Stored content by its hash. -/
  storage : Dict String Bytes := .empty
  /-- The hash in the file's own row. -/
  file : Option String := none
  catalogued : Bool := true

inductive FileTransferError where
  | notCatalogued
  | noLongerExists
  | chunkHash
  | outOfOrder
  | contentHash
  | outOfRange

structure Reply where
  chunkIndex : Int
  chunkBytes : Bytes
  claimedSha256 : String
  isLast : Bool

/-- `get_or_create_transfer`, with the default chunk size. -/
def getOrCreateTransfer (remote : RemoteFile) (db : FetchDb) :
    Except FileTransferError TransferState × FetchDb :=
  match db.transfer with
  | some transfer =>
    if transfer.status ≠ .failed then (.ok transfer, db)
    else
      -- `_reopen_failed_transfer`.
      let reopened :=
        { transfer with status := .inProgress, bytesReceived := 0, tempPath := none }
      (.ok reopened, { db with transfer := some reopened, chunks := [] })
  | none =>
    if db.catalogued = false then (.error .notCatalogued, db)
    else
      let created : TransferState :=
        { totalSize := remote.sizeBytes
          chunkSize := defaultChunkSize
          bytesReceived := 0
          status := .inProgress
          tempPath := none }
      (.ok created, { db with transfer := some created })

def FetchDb.staged (db : FetchDb) (path : Nat) : Bytes := (db.incoming.get? path).getD []

variable (sha256 : Bytes → String) (remote : RemoteFile)

def recordChunk (db : FetchDb) (transfer : TransferState) (reply : Reply) : FetchDb :=
  let path := transfer.tempPath.getD db.unused
  { db with
    transfer := some
      { transfer with
        bytesReceived := transfer.bytesReceived + reply.chunkBytes.length
        tempPath := some path }
    chunks := db.chunks ++ [(reply.chunkIndex, reply.claimedSha256)]
    incoming := db.incoming.set path (db.staged path ++ reply.chunkBytes)
    unused := if transfer.tempPath = none then db.unused + 1 else db.unused }

def finalizeTransfer (db : FetchDb) (transfer : TransferState) (path : Nat) :
    Except FileTransferError TransferState × FetchDb :=
  if sha256 (db.staged path) ≠ remote.sha256 then
    (.error .contentHash,
      { db with
        transfer := some { transfer with status := .failed }
        incoming := db.incoming.erase path })
  else
    let completed := { transfer with status := .completed }
    (.ok completed,
      { db with
        transfer := some completed
        incoming := db.incoming.erase path
        -- Content that is stored already is kept.
        storage := db.storage.setDefault remote.sha256 (db.staged path)
        file := db.file.or (some remote.sha256) })

def applyReceivedChunk (db : FetchDb) (reply : Reply) :
    Except FileTransferError TransferState × FetchDb :=
  match db.transfer with
  | none => (.error .noLongerExists, db)
  | some transfer =>
    if db.chunks.any fun row => decide (row.1 = reply.chunkIndex) then (.ok transfer, db)
    else if sha256 reply.chunkBytes ≠ reply.claimedSha256 then (.error .chunkHash, db)
    else if transfer.nextChunkIndex.map Int.ofNat ≠ some reply.chunkIndex then
      (.error .outOfOrder, db)
    else
      let path := transfer.tempPath.getD db.unused
      let recorded :=
        { transfer with
          bytesReceived := transfer.bytesReceived + reply.chunkBytes.length
          tempPath := some path }
      if reply.isLast = false then (.ok recorded, recordChunk db transfer reply)
      else finalizeTransfer sha256 remote (recordChunk db transfer reply) recorded path

/-- `build_chunk_for_serving`, of a file of these bytes: the chunk, its size, the file's and whether
it is the last. -/
def buildChunkForServing (content : Bytes) (chunkIndex maxChunkSize : Nat) :
    Except FileTransferError (Bytes × Nat × Nat × Bool) :=
  let chunkSize := max 1 (min maxChunkSize defaultChunkSize)
  let offset := chunkIndex * chunkSize
  if content.length < offset ∨ (offset = content.length ∧ content.length ≠ 0) then
    .error .outOfRange
  else
    let chunkBytes := (content.drop offset).take chunkSize
    .ok (chunkBytes, chunkBytes.length, content.length, decide (content.length ≤ offset + chunkBytes.length))

def IsServed (sha256 : Bytes → String) (content : Bytes) (reply : Reply) : Prop :=
  ∃ chunkIndex chunkBytes chunkSize totalSize isLast,
    buildChunkForServing content chunkIndex defaultChunkSize =
      .ok (chunkBytes, chunkSize, totalSize, isLast) ∧
    reply = ⟨Int.ofNat chunkIndex, chunkBytes, sha256 chunkBytes, isLast⟩

inductive FetchOp where
  | fetch
  | receive (reply : Reply)

def fetchStep (sha256 : Bytes → String) (remote : RemoteFile) (db : FetchDb) : FetchOp → FetchDb
  | .fetch => (getOrCreateTransfer remote db).2
  | .receive reply => (applyReceivedChunk sha256 remote db reply).2

def fetchRun (sha256 : Bytes → String) (remote : RemoteFile) (start : FetchDb)
    (run : List FetchOp) : FetchDb :=
  run.foldl (fetchStep sha256 remote) start

variable {sha256 : Bytes → String} {remote : RemoteFile} {db : FetchDb} {transfer : TransferState}
    {reply : Reply}

structure Accepted (sha256 : Bytes → String) (db : FetchDb) (transfer : TransferState)
    (reply : Reply) : Prop where
  held : db.transfer = some transfer
  new : ∀ row ∈ db.chunks, row.1 ≠ reply.chunkIndex
  hash : sha256 reply.chunkBytes = reply.claimedSha256
  expected : transfer.nextChunkIndex.map Int.ofNat = some reply.chunkIndex

/-- The row after a chunk was accepted. -/
def TransferState.received (transfer : TransferState) (db : FetchDb) (reply : Reply) :
    TransferState :=
  { transfer with
    bytesReceived := transfer.bytesReceived + reply.chunkBytes.length
    tempPath := some (transfer.tempPath.getD db.unused) }

theorem applyReceivedChunk_accepted (h : Accepted sha256 db transfer reply) :
    applyReceivedChunk sha256 remote db reply =
      if reply.isLast = false then
        (.ok (transfer.received db reply), recordChunk db transfer reply)
      else finalizeTransfer sha256 remote (recordChunk db transfer reply)
        (transfer.received db reply) (transfer.tempPath.getD db.unused) := by
  have hnew : ¬(db.chunks.any fun row => decide (row.1 = reply.chunkIndex)) = true := by
    rw [any_eq_true]
    rintro ⟨row, hrow, hsame⟩
    exact h.new row hrow (of_decide_eq_true hsame)
  unfold applyReceivedChunk
  rw [h.held]
  simp only
  rw [if_neg hnew, if_neg (not_not.mpr h.hash), if_neg (not_not.mpr h.expected)]
  rfl

theorem applyReceivedChunk_cases (sha256 : Bytes → String) (remote : RemoteFile) (db : FetchDb)
    (reply : Reply) :
    (∃ transfer, Accepted sha256 db transfer reply) ∨
    ((applyReceivedChunk sha256 remote db reply).2 = db ∧ ((∃ row ∈ db.chunks, row.1 = reply.chunkIndex) ∨
        ∃ e, (applyReceivedChunk sha256 remote db reply).1 = .error e)) := by
  unfold applyReceivedChunk
  cases hheld : db.transfer with
  | none => exact .inr ⟨rfl, .inr ⟨_, rfl⟩⟩
  | some transfer =>
    simp only
    by_cases hduplicate : (db.chunks.any fun row => decide (row.1 = reply.chunkIndex)) = true
    · rw [if_pos hduplicate]
      obtain ⟨row, hrow, hsame⟩ := any_eq_true.mp hduplicate
      exact .inr ⟨rfl, .inl ⟨row, hrow, of_decide_eq_true hsame⟩⟩
    · rw [if_neg hduplicate]
      by_cases hhash : sha256 reply.chunkBytes ≠ reply.claimedSha256
      · rw [if_pos hhash]
        exact .inr ⟨rfl, .inr ⟨_, rfl⟩⟩
      · rw [if_neg hhash]
        by_cases horder : transfer.nextChunkIndex.map Int.ofNat ≠ some reply.chunkIndex
        · rw [if_pos horder]
          exact .inr ⟨rfl, .inr ⟨_, rfl⟩⟩
        · refine .inl ⟨transfer, hheld, ?_, not_not.mp hhash, not_not.mp horder⟩
          intro row hrow hsame
          exact hduplicate (any_eq_true.mpr ⟨row, hrow, decide_eq_true hsame⟩)

theorem Accepted.index (h : Accepted sha256 db transfer reply) :
    transfer.status = .inProgress ∧
      reply.chunkIndex = Int.ofNat (transfer.bytesReceived / transfer.chunkSize) := by
  have hexpected := h.expected
  unfold TransferState.nextChunkIndex at hexpected
  by_cases hstatus : transfer.status ≠ .inProgress
  · rw [if_pos hstatus] at hexpected
    cases hexpected
  · rw [if_neg hstatus] at hexpected
    exact ⟨not_not.mp hstatus, (Option.some.inj hexpected).symm⟩

theorem staged_recordChunk (h : transfer.tempPath = none → db.staged db.unused = []) :
    (recordChunk db transfer reply).staged (transfer.tempPath.getD db.unused) =
      ((transfer.tempPath.map db.staged).getD []) ++ reply.chunkBytes := by
  unfold recordChunk FetchDb.staged
  simp only [Dict.get?_set_self, Option.getD_some]
  cases hpath : transfer.tempPath with
  | none =>
    have hempty := h hpath
    unfold FetchDb.staged at hempty
    simp [hempty]
  | some path => rfl

end NetBBS.Files
