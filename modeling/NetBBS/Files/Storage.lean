import NetBBS.Foundation.Dict

/-! # Stored files and their collection -/

namespace NetBBS.FileStore

open Foundation

def isContentAddressedName (name : String) : Bool :=
  name.toList.length == 64 && name.toList.all fun c => "0123456789abcdef".toList.contains c

/-- `hashlib.sha256`: the hex digest is 64 lower-case digits. -/
structure Sha256 (β : Type) where
  hexdigest : β → String
  named : ∀ content, isContentAddressedName (hexdigest content) = true

/-- A regular file under the storage root. -/
structure Blob (β : Type) where
  content : β
  mtime : Int

structure FileRow where
  fileId : String
  sha256 : String

/-- `_DEFAULT_MIN_AGE_SECONDS`, in microseconds. -/
def defaultMinAge : Int := 3600 * 1000000

/-- `store_bytes`: a no-op when the path is there already. -/
def storeBytes {β : Type} (sha : Sha256 β) (files : Dict String (Blob β)) (now : Int) (content : β) :
    Dict String (Blob β) :=
  if files.contains (sha.hexdigest content) then files
  else files.set (sha.hexdigest content) ⟨content, now⟩

/-- `move_temp_file_into_storage`: the renamed file keeps its age. -/
def moveTempFileIntoStorage {β : Type} (files : Dict String (Blob β)) (temp : Blob β) (sha256 : String) :
    Dict String (Blob β) :=
  if files.contains sha256 then files else files.set sha256 temp

def insertRow (rows : List FileRow) (row : FileRow) : List FileRow :=
  if rows.any fun old => old.fileId = row.fileId then rows else rows ++ [row]

inductive Stage where
  | receiving
  | stored (found : Bool)
deriving DecidableEq

structure Arrival (β : Type) where
  fileId : String
  content : β
  begun : Int
  stage : Stage

/-- `GCReport`; an error is told by the file it is about. -/
structure GCReport where
  dryRun : Bool
  reclaimableBlobs : Nat := 0
  reclaimableBytes : Nat := 0
  skippedRecent : Nat := 0
  errors : List String := []

/-- Where the loop of a pass stands. -/
inductive Looking where
  | next
  | old (name : String) (size : Nat)
  /-- No row named it when asked again. -/
  | unreferenced (name : String) (size : Nat)

structure Pass where
  now : Int
  orphans : List String
  looking : Looking := .next
  report : GCReport

structure Node (β : Type) where
  now : Int
  files : Dict String (Blob β)
  rows : List FileRow
  arrivals : Dict Nat (Arrival β) := .empty
  passes : Dict Nat Pass := .empty

variable {β : Type}

def liveSha256Hashes (rows : List FileRow) : List String := rows.map FileRow.sha256

def findOrphanedBlobs (s : Node β) : List String :=
  s.files.keys.filter fun name => isContentAddressedName name && !(liveSha256Hashes s.rows).contains name

def GCReport.reclaim (report : GCReport) (size : Nat) : GCReport :=
  { report with
    reclaimableBlobs := report.reclaimableBlobs + 1
    reclaimableBytes := report.reclaimableBytes + size }

def Pass.advance (size : β → Nat) (s : Node β) (pass : Pass) : Dict String (Blob β) × Pass :=
  match pass.looking with
  | .next =>
    match pass.orphans with
    | [] => (s.files, pass)
    | name :: rest =>
      match s.files.get? name with
      | none => (s.files, { pass with
          orphans := rest, report := { pass.report with errors := pass.report.errors ++ [name] } })
      | some blob =>
        if pass.now - blob.mtime < defaultMinAge then
          (s.files, { pass with
            orphans := rest
            report := { pass.report with skippedRecent := pass.report.skippedRecent + 1 } })
        else (s.files, { pass with orphans := rest, looking := .old name (size blob.content) })
  | .old name bytes =>
    if pass.report.dryRun then
      (s.files, { pass with looking := .next, report := pass.report.reclaim bytes })
    else if (liveSha256Hashes s.rows).contains name then (s.files, { pass with looking := .next })
    else (s.files, { pass with looking := .unreferenced name bytes })
  | .unreferenced name bytes =>
    if s.files.contains name then
      (s.files.erase name, { pass with looking := .next, report := pass.report.reclaim bytes })
    else (s.files, { pass with
      looking := .next, report := { pass.report with errors := pass.report.errors ++ [name] } })

inductive Happening (β : Type) where
  | wait (time : Nat)
  /-- The first bytes of a file come in. -/
  | begin (session : Nat) (fileId : String) (content : β)
  /-- Its bytes are stored: whole, or from a staging file last written at the given time. -/
  | store (session : Nat) (lastWritten : Option Int)
  | finalize (session : Nat)
  | giveUp (session : Nat)
  /-- Rows are deleted, by hand or by an expiry sweep. -/
  | delete (fileIds : List String)
  /-- A pass scans: what no row names, at what time. -/
  | scan (pass : Nat) (dryRun : Bool)
  | advance (pass : Nat)

def step (sha : Sha256 β) (size : β → Nat) (s : Node β) : Happening β → Node β
  | .wait time => { s with now := s.now + time }
  | .begin session fileId content =>
    if s.arrivals.contains session then s
    else { s with arrivals := s.arrivals.set session ⟨fileId, content, s.now, .receiving⟩ }
  | .store session lastWritten =>
    match s.arrivals.get? session with
    | some ⟨fileId, content, begun, .receiving⟩ =>
      let stored := Stage.stored (s.files.contains (sha.hexdigest content))
      let arrivals := s.arrivals.set session ⟨fileId, content, begun, stored⟩
      match lastWritten with
      | none => { s with arrivals, files := storeBytes sha s.files s.now content }
      | some mtime =>
        if begun ≤ mtime ∧ mtime ≤ s.now then
          { s with
            arrivals
            files := moveTempFileIntoStorage s.files ⟨content, mtime⟩ (sha.hexdigest content) }
        else s
    | _ => s
  | .finalize session =>
    match s.arrivals.get? session with
    | some ⟨fileId, content, begun, .stored _⟩ =>
      if s.now < begun + defaultMinAge then
        { s with
          rows := insertRow s.rows ⟨fileId, sha.hexdigest content⟩
          arrivals := s.arrivals.erase session }
      else s
    | _ => s
  | .giveUp session => { s with arrivals := s.arrivals.erase session }
  | .delete fileIds => { s with rows := s.rows.filter fun row => !fileIds.contains row.fileId }
  | .scan pass dryRun =>
    { s with passes := s.passes.set pass ⟨s.now, findOrphanedBlobs s, .next, { dryRun }⟩ }
  | .advance pass =>
    match s.passes.get? pass with
    | some current =>
      let (files, current) := current.advance size s
      { s with files, passes := s.passes.set pass current }
    | none => s

end NetBBS.FileStore
