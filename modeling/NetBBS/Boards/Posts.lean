import Mathlib.Order.Lattice
import NetBBS.Foundation.Newest
import NetBBS.Foundation.Numbering
import NetBBS.Foundation.Refusal
import NetBBS.Python.DateTime

/-! # Posts of a board -/

namespace NetBBS.Boards

open Foundation

def maxSubjectBytes : Nat := 300

def maxBodyBytes : Nat := 200000

inductive PostStatus where
  | pending
  | approved
  | expired
deriving DecidableEq

structure LinkedEvent where
  contentId : String
  isBoardPost : Bool
deriving DecidableEq

structure Post (τ : Type) where
  id : Nat := 0
  postId : String
  boardId : Nat
  parentPostId : Option String := none
  authorUserId : Option Nat := none
  authorLabel : String
  authorFingerprint : Option String := none
  subject : String
  body : String
  createdAt : τ
  status : PostStatus
  pinned : Bool := false
  exemptFromExpiry : Bool := false
  rootPostId : String
  editOfPostId : Option String := none
  tombstonedAt : Option τ := none
  withdrawn : Bool := false
  linkEvent : Option LinkedEvent := none

/-- A row of `boards`, and the copy of one that a caller holds. -/
structure Board where
  id : Nat
  boardId : String
  moderated : Bool := false
  maxPostAgeDays : Option Nat := none
  linkClosed : Bool := false
  linkHidden : Bool := false

structure User where
  id : Nat
  username : String
  fingerprint : Option String := none

inductive PostError where
  | subjectTooLong (bytes : Nat)
  | bodyTooLong (bytes : Nat)
  | boardClosed
  | boardHidden
  | invalidLayout
  | parentNotFound
  | identicalContent
  | noPermission
  | noApprovedVersion
  | tombstoned
  | alreadyTombstoned
  | notTheAuthor
  | alreadyWithdrawn
  | notWaiting
  | referenced
  | alreadyDecided
  | removed
  | withdrawn
  | constraintFailed
  | elsewhere (reason : String)

/-- The tables, with the names of the revisions that a moderator rejected. -/
structure Db (τ : Type) where
  boards : List Board := []
  posts : List (Post τ) := []
  postRejections : List String := []

variable {τ : Type}

def Db.has (db : Db τ) (postId : String) : Bool := db.posts.any fun row => decide (row.postId = postId)

def Db.board? (db : Db τ) (boardId : Nat) : Option Board := db.boards.find? fun row => decide (row.id = boardId)

def Post.inChain (rootPostId : String) (boardId : Nat) (row : Post τ) : Bool :=
  decide (row.rootPostId = rootPostId ∧ row.boardId = boardId)

def Db.approved (db : Db τ) (rootPostId : String) (boardId : Nat) : List (Post τ) :=
  db.posts.filter fun row => row.inChain rootPostId boardId && decide (row.status = .approved)

def Db.current (db : Db τ) (rootPostId : String) (boardId : Nat) : Option (Post τ) :=
  newest Post.id (db.approved rootPostId boardId)

/-- `_resolve_current_version`, with its `is_edited`. -/
def resolveCurrentVersion (db : Db τ) (root : Post τ) : Post τ × Bool :=
  match db.current root.rootPostId root.boardId with
  | none => (root, false)
  | some latest =>
    if latest.postId = root.postId then (root, false)
    else
      ({ root with
          subject := latest.subject
          body := latest.body
          tombstonedAt := latest.tombstonedAt
          withdrawn := latest.withdrawn },
        latest.tombstonedAt.isNone)

def referenced (db : Db τ) (row : Post τ) : Bool :=
  db.posts.any fun child =>
    decide (child.postId ≠ row.postId ∧
      (child.parentPostId = some row.postId ∨ child.rootPostId = row.postId ∨
        child.editOfPostId = some row.postId))

def Post.clearFlags (row : Post τ) : Post τ := { row with pinned := false, exemptFromExpiry := false }

def Post.setExempt (exempt : Bool) (row : Post τ) : Post τ := { row with exemptFromExpiry := exempt }

def Post.setStatus (status : PostStatus) (row : Post τ) : Post τ := { row with status }

def Post.setLinkEvent (event : LinkedEvent) (row : Post τ) : Post τ := { row with linkEvent := some event }

def Db.update (db : Db τ) (which : Post τ → Bool) (change : Post τ → Post τ) : Db τ :=
  { db with posts := db.posts.map fun row => if which row = true then change row else row }

/-- `trg_posts_revision_flags`: a revision takes its root's flags. -/
def Db.withRootFlags (db : Db τ) (row : Post τ) : Post τ :=
  if row.postId = row.rootPostId then row
  else
    let root := db.posts.find? fun root =>
      decide (root.postId = row.rootPostId ∧ root.boardId = row.boardId)
    { row with
      pinned := (root.map (·.pinned)).getD false
      exemptFromExpiry := (root.map (·.exemptFromExpiry)).getD false }

def Db.insert (db : Db τ) (row : Post τ) : Option (Db τ) :=
  if db.has row.postId = true ∨ (∃ parent ∈ row.parentPostId, db.has parent = false) ∨
      (row.rootPostId ≠ row.postId ∧ db.has row.rootPostId = false) ∨
      (∃ previous ∈ row.editOfPostId, db.has previous = false) then
    none
  else
    let inserted : Db τ :=
      { db with
        posts := db.posts ++ [{ db.withRootFlags row with id := maxNumber Post.id db.posts + 1 }] }
    if row.withdrawn = true ∨ row.tombstonedAt.isSome = true then
      some (inserted.update (Post.inChain row.rootPostId row.boardId) Post.clearFlags)
    else some inserted

def checkContentLength (subject body : String) : Except PostError Unit := do
  refuseIf (maxSubjectBytes < subject.utf8ByteSize) (.subjectTooLong subject.utf8ByteSize)
  refuseIf (maxBodyBytes < body.utf8ByteSize) (.bodyTooLong body.utf8ByteSize)

def refuseIfBoardHidden (db : Db τ) (boardId : Nat) : Except PostError Unit :=
  refuseIf (∃ board ∈ db.board? boardId, board.linkHidden = true) .boardHidden

structure Checks where
  problem : Option String := none
  /-- `has_permission`. -/
  permitted : Bool := false
  /-- The layout is "prose" or "art". -/
  layoutKnown : Bool := true
  /-- The files named are those the current revision points at. -/
  sameFiles : Bool := true

def Checks.refuse (checks : Checks) : Except PostError Unit :=
  match checks.problem with
  | some reason => .error (.elsewhere reason)
  | none => .ok ()

/-- `create_post`; `post_id` is the content id of what is posted now. -/
def createPost (db : Db τ) (board : Board) (author : User) (subject body : String)
    (parentPostId : Option String) (checks : Checks) (postId : String) (now : τ) :
    Except PostError (Db τ) := do
  checkContentLength subject body
  refuseIf (∃ row ∈ db.board? board.id, row.linkClosed = true) .boardClosed
  refuseIfBoardHidden db board.id
  refuseIf (checks.layoutKnown = false) .invalidLayout
  checks.refuse
  refuseIf (∃ parent ∈ parentPostId,
    db.posts.any (fun row => decide (row.postId = parent ∧ row.boardId = board.id)) = false) .parentNotFound
  orRefuse (db.insert
    { postId
      boardId := board.id
      parentPostId
      authorUserId := some author.id
      authorLabel := author.username
      authorFingerprint := author.fingerprint
      subject
      body
      createdAt := now
      status := if board.moderated = true then .pending else .approved
      rootPostId := postId }) .identicalContent

/-- `edit_post`; `post` is any copy of the post. -/
def editPost (db : Db τ) (post : Post τ) (board : Board) (subject body : String) (editedBy : User)
    (withdrawal pollChange : Bool) (checks : Checks) (newPostId : String) (now : τ) :
    Except PostError (Db τ) := do
  refuseIfBoardHidden db post.boardId
  refuseIf (post.authorUserId ≠ some editedBy.id ∧ checks.permitted = false) .noPermission
  checkContentLength subject body
  let current ← orRefuse (db.current post.rootPostId board.id) .noApprovedVersion
  refuseIf (current.tombstonedAt.isSome = true) .tombstoned
  checks.refuse
  let textUnchanged := decide (subject = current.subject ∧ body = current.body) && checks.sameFiles
  if textUnchanged = true ∧ withdrawal = false ∧ pollChange = false then pure db
  else
    orRefuse (db.insert
      { postId := newPostId
        boardId := board.id
        parentPostId := post.parentPostId
        authorUserId := post.authorUserId
        authorLabel := post.authorLabel
        authorFingerprint := post.authorFingerprint
        subject
        body
        createdAt := now
        status :=
          if board.moderated = true ∧ withdrawal = false ∧ ¬(pollChange = true ∧ textUnchanged = true) then
            .pending
          else .approved
        rootPostId := post.rootPostId
        editOfPostId := some current.postId
        withdrawn := withdrawal }) .identicalContent

def withdrawnPlaceholder : String := "[withdrawn by author]"

def withdrawPost (db : Db τ) (post : Post τ) (board : Board) (withdrawnBy : User) (checks : Checks)
    (newPostId : String) (now : τ) : Except PostError (Db τ) := do
  refuseIf (post.authorUserId ≠ some withdrawnBy.id) .notTheAuthor
  let current ← orRefuse (db.current post.rootPostId post.boardId) .noApprovedVersion
  refuseIf (current.withdrawn = true) .alreadyWithdrawn
  editPost db post board current.subject withdrawnPlaceholder withdrawnBy true false checks newPostId now

def tombstonePlaceholder : String := "[removed by moderator]"

def tombstonePost (db : Db τ) (post : Post τ) (board : Board) (checks : Checks) (newPostId : String)
    (now : τ) : Except PostError (Db τ) := do
  refuseIfBoardHidden db post.boardId
  refuseIf (checks.permitted = false) .noPermission
  let current ← orRefuse (db.current post.rootPostId board.id) .noApprovedVersion
  refuseIf (current.tombstonedAt.isSome = true) .alreadyTombstoned
  orRefuse (db.insert
    { postId := newPostId
      boardId := board.id
      parentPostId := current.parentPostId
      authorUserId := current.authorUserId
      authorLabel := current.authorLabel
      authorFingerprint := current.authorFingerprint
      subject := tombstonePlaceholder
      body := tombstonePlaceholder
      createdAt := now
      status := .approved
      rootPostId := post.rootPostId
      editOfPostId := some current.postId
      tombstonedAt := some now }) .identicalContent

def approvePost (db : Db τ) (post : Post τ) (checks : Checks) : Except PostError (Db τ) := do
  refuseIfBoardHidden db post.boardId
  refuseIf (checks.permitted = false) .noPermission
  let waits (row : Post τ) : Bool := decide (row.id = post.id ∧ row.status = .pending)
  refuseIf (db.posts.any waits = false) .notWaiting
  pure (db.update waits (Post.setStatus .approved))

/-- `delete_post`; of a pending post it is a rejection, which is written down. -/
def deletePost (db : Db τ) (post : Post τ) (checks : Checks) : Except PostError (Db τ) := do
  refuseIfBoardHidden db post.boardId
  refuseIf (checks.permitted = false) .noPermission
  refuseIf (db.posts.any (fun row =>
    decide (row.parentPostId = some post.postId ∨
      (row.rootPostId = post.postId ∧ row.postId ≠ post.postId) ∨
      row.editOfPostId = some post.postId)) = true) .referenced
  refuseIf (db.posts.any (fun row => decide (row.id = post.id ∧ row.status = post.status)) = false)
    .alreadyDecided
  refuseIf (db.posts.any (fun row => decide (row.id = post.id ∧ row.status = post.status) && referenced db row)
    = true) .constraintFailed
  pure
    { db with
      posts := db.posts.filter fun row => !decide (row.id = post.id ∧ row.status = post.status)
      postRejections :=
        if post.status = .pending then post.postId :: db.postRejections else db.postRejections }

def setPostExempt (db : Db τ) (post : Post τ) (exempt : Bool) (checks : Checks) :
    Except PostError (Db τ) := do
  refuseIfBoardHidden db post.boardId
  refuseIf (checks.permitted = false) .noPermission
  refuseIf (db.posts.any (fun row =>
    row.inChain post.rootPostId post.boardId && row.tombstonedAt.isSome) = true) .removed
  refuseIf (exempt = true ∧ ∃ current ∈ db.current post.rootPostId post.boardId, current.withdrawn = true)
    .withdrawn
  pure (db.update (Post.inChain post.rootPostId post.boardId) (Post.setExempt exempt))

section Expiry

variable [LinearOrder τ]

def ageDate (db : Db τ) (row : Post τ) : τ :=
  max row.createdAt
    (((db.posts.find? fun origin => decide (origin.postId = row.rootPostId)).map (·.createdAt)).getD
      row.createdAt)

def aged (db : Db τ) (boardId : Nat) (status : PostStatus) (cutoff : τ) (row : Post τ) : Bool :=
  decide (row.boardId = boardId ∧ row.status = status ∧ row.exemptFromExpiry = false ∧
    ageDate db row < cutoff)

def expirePosts (db : Db τ) (boardId : Nat) (cutoff : τ) : Db τ :=
  db.update (aged db boardId .approved cutoff) (Post.setStatus .expired)

def purgePosts (db : Db τ) (boardId : Nat) (cutoff : τ) : Db τ :=
  { db with
    posts := db.posts.filter fun row => !(aged db boardId .expired cutoff row && !referenced db row) }

/-- `_cutoff_iso`, for what `strftime` writes. -/
def cutoffIso (strftime : DateTime → τ) (now : DateTime) (days : Nat) : Option τ :=
  (now.minusDays days).map strftime

/-- `_sweep_expired_posts`; `graceDays` is the node's setting. -/
def sweepExpiredPosts (strftime : DateTime → τ) (db : Db τ) (board : Board) (graceDays : Nat)
    (now : DateTime) : Db τ :=
  match board.maxPostAgeDays with
  | none => db
  | some days =>
    match cutoffIso strftime now days with
    | none => db
    | some expiryCutoff =>
      let expired := expirePosts db board.id expiryCutoff
      match cutoffIso strftime now (days + graceDays) with
      -- The second cutoff is made when the first statement has run.
      | none => expired
      | some deletionCutoff => purgePosts expired board.id deletionCutoff

end Expiry

end NetBBS.Boards
