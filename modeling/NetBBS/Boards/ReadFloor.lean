import Mathlib.Data.List.Sort
import NetBBS.Foundation.Dict

/-! # Which posts a caller has read -/

namespace NetBBS.ReadState

open Foundation List

inductive Status where
  | pending
  | approved
  | expired
deriving DecidableEq

structure PostRow where
  id : Nat
  postId : String
  board : Nat
  rootPostId : String
  status : Status
  carriedFrom : Option String
deriving DecidableEq

structure PostTable where
  rows : List PostRow
  ascending : rows.Pairwise (fun a b => a.id < b.id)

def PostTable.newestId (posts : PostTable) : Nat := (posts.rows.map PostRow.id).foldr max 0

theorem le_foldr_max {ids : List Nat} {id : Nat} (h : id ∈ ids) : id ≤ ids.foldr max 0 := by
  induction ids with
  | nil => cases h
  | cons first rest ih =>
    rw [foldr_cons]
    rcases mem_cons.mp h with rfl | h
    · exact Nat.le_max_left _ _
    · exact Nat.le_trans (ih h) (Nat.le_max_right _ _)

theorem PostTable.le_newestId (posts : PostTable) {row : PostRow} (h : row ∈ posts.rows) :
    row.id ≤ posts.newestId :=
  le_foldr_max (mem_map_of_mem h)

def PostTable.insert (posts : PostTable) (postId : String) (board : Nat) (rootPostId : String)
    (status : Status) (carriedFrom : Option String) : PostTable where
  rows := posts.rows ++ [⟨posts.newestId + 1, postId, board, rootPostId, status, carriedFrom⟩]
  ascending := by
    rw [pairwise_append]
    refine ⟨posts.ascending, pairwise_singleton _ _, ?_⟩
    intro a ha b hb
    rw [mem_singleton.mp hb]
    exact Nat.lt_succ_of_le (posts.le_newestId ha)

def PostTable.setStatus (posts : PostTable) (id : Nat) (status : Status) : PostTable where
  rows := posts.rows.map fun row => if row.id = id then { row with status } else row
  ascending := by
    rw [pairwise_map]
    refine posts.ascending.imp ?_
    intro a b hlt
    split <;> split <;> exact hlt

def PostTable.delete (posts : PostTable) (id : Nat) : PostTable where
  rows := posts.rows.filter fun row => row.id ≠ id
  ascending := posts.ascending.filter _

inductive Task where
  | open (board id : Nat) (postId : String) (copy : Bool)
  | opened (board id : Nat) (postId : String) (copy : Bool) (floor : Nat)
  /-- The second half of `mark_board_read`, with the floor it found. -/
  | marked (board floor : Nat)

structure Reading where
  floor : Nat
  opened : List Nat

structure Db where
  posts : PostTable := ⟨[], .nil⟩
  /-- Authors whose carried posts are hidden. -/
  distrusted : List String := []
  /-- What the account has read, by board. -/
  readings : Nat → Option Reading := fun _ => none
  /-- The sessions of the account. -/
  sessions : Dict Nat (List Task) := .empty
  /-- Posts that need not count as unread on a board: visible at its baseline, opened, marked, or
  given up in a call that said so. -/
  settled : List (Nat × String) := []

def openedPostsCap : Nat := 500

variable (db : Db)

def Db.shown (row : PostRow) : Bool :=
  (row.postId == row.rootPostId &&
    db.posts.rows.any fun version => version.rootPostId == row.rootPostId &&
      version.board == row.board && version.status == .approved) &&
  row.carriedFrom.all fun author => !db.distrusted.contains author

/-- `iter_visible_roots`, in arrival order. -/
def Db.iterVisibleRoots (board afterId : Nat) : List PostRow :=
  db.posts.rows.filter fun row => row.board == board && decide (afterId < row.id) && db.shown row

/-- `_newest_visible`, by arrival. -/
def Db.newestVisible (board : Nat) : Option Nat :=
  ((db.iterVisibleRoots board 0).getLast?).map PostRow.id

/-- `count_visible_roots` over the roots a condition leaves: local ones by the query, carried ones one
by one. -/
def Db.countVisibleRoots (board : Nat) (extra : PostRow → Bool) : Nat :=
  let roots := db.posts.rows.filter fun row => row.board == board && extra row &&
    (row.postId == row.rootPostId &&
      db.posts.rows.any fun version => version.rootPostId == row.rootPostId &&
        version.board == row.board && version.status == .approved)
  (roots.filter fun row => row.carriedFrom.isNone).length +
    (roots.filter fun row => row.carriedFrom.any fun author => !db.distrusted.contains author).length

/-- `unread_post_ids`, of posts of the board. -/
def Db.unreadPostIds (board : Nat) (posts : List Nat) : List Nat :=
  match db.readings board with
  | none => []
  | some reading => posts.filter fun id => decide (reading.floor < id) && !reading.opened.contains id

/-- `unread_root_posts`; the expiry sweep it runs first is a change of the posts of its own. -/
def Db.unreadRootPosts (board : Nat) : Option (List (Nat × String)) :=
  (db.readings board).map fun reading =>
    ((db.iterVisibleRoots board reading.floor).filter fun row => !reading.opened.contains row.id).map
      fun row => (row.id, row.postId)

def Db.unreadPostCount (board : Nat) : Option Nat :=
  (db.readings board).map fun reading =>
    db.countVisibleRoots board fun row =>
      decide (reading.floor < row.id) && !reading.opened.contains row.id

def unbroken (roots : List Nat) (floor : Nat) (opened : List Nat) : Nat :=
  (((roots.filter fun id => decide (floor < id)).takeWhile fun id => opened.contains id).getLast?).getD floor

def compactLoop (roots : List Nat) : Nat → Nat → List Nat → Bool → Nat × Bool
  | 0, floor, _, capped => (floor, capped)
  | rounds + 1, floor, opened, capped =>
    if opened.isEmpty then (floor, capped)
    else
      let reached := unbroken roots floor opened
      let left := opened.filter fun id => decide (reached < id)
      if left.length ≤ openedPostsCap then (reached, capped)
      else
        let oldest := (left.insertionSort (· ≤ ·)).getD (left.length - openedPostsCap) 0
        compactLoop roots rounds oldest (left.filter fun id => decide (oldest < id)) true

/-- `_compact` and `_raise_floor`, which one transaction writes: the rows the floor covers go, and it
never goes down. -/
def Db.compact (db : Db) (board : Nat) (reading : Reading) (floor : Nat) : Reading × Bool :=
  let above := reading.opened.filter fun id => decide (floor < id)
  let (reached, capped) := compactLoop ((db.iterVisibleRoots board 0).map PostRow.id) (above.length + 1)
    floor above false
  ({ floor := max reading.floor reached, opened := reading.opened.filter fun id => decide (reached < id) },
    capped)

def Db.settleVisible (db : Db) (board : Nat) : Db :=
  { db with settled := (db.iterVisibleRoots board 0).map (fun row => (board, row.postId)) ++ db.settled }

def Db.ensureBoardBaseline (db : Db) (board : Nat) : Db :=
  match db.readings board with
  | some _ => db
  | none =>
    { db.settleVisible board with
      readings := Function.update db.readings board (some ⟨(db.newestVisible board).getD 0, []⟩) }

def Db.startOpened (db : Db) (board id : Nat) (postId : String) (copy : Bool) : Db × List Task :=
  if copy && (db.readings board).isNone then (db, [])
  else
    let db := db.ensureBoardBaseline board
    let db := { db with settled := (board, postId) :: db.settled }
    match db.readings board with
    | none => (db, [])
    | some reading =>
      if id ≤ reading.floor then (db, []) else (db, [.opened board id postId copy reading.floor])

def Db.remember (db : Db) (board id : Nat) (postId : String) (opened : List Nat) : List Nat :=
  if (db.posts.rows.any fun row => row.id == id && row.board == board && row.postId == postId) &&
      !opened.contains id
  then id :: opened else opened

def Db.finishOpened (db : Db) (board id : Nat) (postId : String) (copy : Bool) (floor : Nat) : Db :=
  match db.readings board with
  | none => db
  | some reading =>
    let opened := db.remember board id postId reading.opened
    let (reading, capped) := db.compact board { reading with opened } floor
    let db := { db with readings := Function.update db.readings board (some reading) }
    if capped && !copy then db.settleVisible board else db

def Db.startMarked (db : Db) (board : Nat) : Db × List Task :=
  let db := db.ensureBoardBaseline board
  match db.readings board, db.newestVisible board with
  | some reading, some newest => (db.settleVisible board, [.marked board (max reading.floor newest)])
  | _, _ => (db, [])

/-- The second half. -/
def Db.finishMarked (db : Db) (board floor : Nat) : Db :=
  match db.readings board with
  | none => db
  | some reading =>
    { db with readings := Function.update db.readings board (some (db.compact board reading floor).1) }

/-- The next half of a call. -/
def Db.perform (db : Db) : Task → Db × List Task
  | .open board id postId copy => db.startOpened board id postId copy
  | .opened board id postId copy floor => (db.finishOpened board id postId copy floor, [])
  | .marked board floor => (db.finishMarked board floor, [])

inductive PostChange where
  | arrive (postId : String) (board : Nat) (rootPostId : String) (status : Status)
    (carriedFrom : Option String)
  /-- Approved, expired. -/
  | setStatus (id : Nat) (status : Status)
  | delete (id : Nat)
  /-- The authors distrusted from now on: their carried posts are hidden, those of others shown. -/
  | distrust (authors : List String)

inductive Happening where
  | posts (change : PostChange)
  /-- `ensure_board_baseline`, when a board is entered. -/
  | visit (board : Nat)
  /-- `record_post_opened`, with the copies the caller can open, each with its board. -/
  | recordPostOpened (session board id : Nat) (postId : String) (copies : List (Nat × Nat × String))
  | markBoardRead (session board : Nat)
  /-- A session goes on with its call. -/
  | proceed (session : Nat)

/-- `trg_posts_delete_opened`. -/
def dropOpened (readings : Nat → Option Reading) (row : PostRow) : Nat → Option Reading := fun board =>
  if board = row.board then
    (readings board).map fun reading => { reading with opened := reading.opened.filter (· ≠ row.id) }
  else readings board

def Db.change (db : Db) : PostChange → Db
  | .arrive postId board rootPostId status carriedFrom =>
    { db with posts := db.posts.insert postId board rootPostId status carriedFrom }
  | .setStatus id status => { db with posts := db.posts.setStatus id status }
  | .delete id =>
    match db.posts.rows.find? fun row => row.id == id with
    | some row => { db with posts := db.posts.delete id, readings := dropOpened db.readings row }
    | none => db
  | .distrust authors => { db with distrusted := authors }

def Db.pending (db : Db) (session : Nat) : List Task := (db.sessions.get? session).getD []

def step (db : Db) : Happening → Db
  | .posts change => db.change change
  | .visit board => db.ensureBoardBaseline board
  | .recordPostOpened session board id postId copies =>
    match db.pending session with
    | [] => { db with
        sessions := db.sessions.set session
          (.open board id postId false :: copies.map fun copy => .open copy.1 copy.2.1 copy.2.2 true) }
    | _ => db
  | .markBoardRead session board =>
    match db.pending session with
    | [] =>
      let (db, tasks) := db.startMarked board
      { db with sessions := db.sessions.set session tasks }
    | _ => db
  | .proceed session =>
    match db.pending session with
    | [] => db
    | task :: later =>
      let (db, tasks) := db.perform task
      { db with sessions := db.sessions.set session (tasks ++ later) }

end NetBBS.ReadState
