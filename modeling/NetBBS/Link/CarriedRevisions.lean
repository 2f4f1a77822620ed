import NetBBS.Boards.Posts

/-! # Carried posts and revisions -/

namespace NetBBS.Boards

open Foundation

/-- `author` of a payload. -/
structure CarriedAuthor where
  localUserId : String
  homeNodeFingerprint : String

def CarriedAuthor.label (author : CarriedAuthor) : String :=
  author.localUserId ++ "@" ++ author.homeNodeFingerprint

structure BoardPost (τ : Type) where
  contentId : String
  boardId : String
  parentPostId : Option String := none
  author : CarriedAuthor
  subject : String
  body : String
  createdAt : τ

structure BoardPostRevision (τ : Type) where
  contentId : String
  boardId : String
  rootPostId : String
  previousEventId : String
  subject : String
  body : String
  createdAt : τ

inductive CarriedEvent (τ : Type) where
  | post (post : BoardPost τ)
  | edit (edit : BoardPostRevision τ) (author : CarriedAuthor) (withdrawn : Bool)
  | moderatorEdit (edit : BoardPostRevision τ)
  | tombstone (tombstone : BoardPostRevision τ)

variable {τ : Type}

def CarriedEvent.contentId : CarriedEvent τ → String
  | .post root => root.contentId
  | .edit revision _ _ => revision.contentId
  | .moderatorEdit revision => revision.contentId
  | .tombstone revision => revision.contentId

structure Carrier (τ : Type) extends Db τ where
  linkEvents : List (CarriedEvent τ) := []

/-- `_event_retained`. -/
def Carrier.retained (carrier : Carrier τ) (contentId : String) : Bool :=
  carrier.linkEvents.any fun event => decide (event.contentId = contentId)

/-- `INSERT INTO link_events … ON CONFLICT(content_id) DO NOTHING`. -/
def Carrier.retain (carrier : Carrier τ) (event : CarriedEvent τ) : Carrier τ :=
  if carrier.retained event.contentId = true then carrier
  else { carrier with linkEvents := carrier.linkEvents ++ [event] }

def Carrier.retainOnly (carrier : Carrier τ) (event : CarriedEvent τ) (boardId : String) : Carrier τ :=
  match carrier.boards.find? fun board => decide (board.boardId = boardId) with
  | none => carrier
  | some board => if board.linkHidden = true then carrier else carrier.retain event

def Carrier.rejectedHere (carrier : Carrier τ) (contentId : String) : Bool :=
  decide (contentId ∈ carrier.postRejections)

def Carrier.row? (carrier : Carrier τ) (postId : String) : Option (Post τ) :=
  carrier.posts.find? fun row => decide (row.postId = postId)

def Carrier.boardIsHidden (carrier : Carrier τ) (boardId : Nat) : Bool :=
  ((carrier.board? boardId).map (·.linkHidden)).getD false

def Carrier.insertPost (carrier : Carrier τ) (row : Post τ) : Carrier τ :=
  { carrier with toDb := (carrier.toDb.insert row).getD carrier.toDb }

def Carrier.after (carrier : Carrier τ) (result : Except PostError (Db τ)) : Carrier τ :=
  { carrier with toDb := result.toOption.getD carrier.toDb }

def Carrier.approvedOf (carrier : Carrier τ) (rootPostId : String) : List (Post τ) :=
  carrier.posts.filter fun row => decide (row.rootPostId = rootPostId ∧ row.status = .approved)

def isWithdrawalEdit (carrier : Carrier τ) (edit : BoardPostRevision τ) (withdrawn : Bool) : Bool :=
  decide (withdrawn = true ∧ edit.body = withdrawnPlaceholder ∧ carrier.has edit.previousEventId = true ∧
    ((newest Post.id (carrier.approvedOf edit.rootPostId)).map (·.subject)) = some edit.subject)

/-- `_carried_revision_status`; `none` past a local takedown. -/
def carriedRevisionStatus (carrier : Carrier τ) (rootPostId : String) (localModeration : Bool)
    (requested : PostStatus) : Option PostStatus :=
  if carrier.posts.any (fun row => decide (row.rootPostId = rootPostId) && row.tombstonedAt.isSome) = true then
    none
  else if carrier.approvedOf rootPostId = [] then some .pending
  else if localModeration = true ∧
      ∃ root ∈ carrier.row? rootPostId, ∃ board ∈ carrier.board? root.boardId, board.moderated = true then
    some .pending
  else some requested

def editStatus (carrier : Carrier τ) (edit : BoardPostRevision τ) (withdrawn : Bool)
    (initialStatus : PostStatus) : Option PostStatus :=
  let withdrawal := isWithdrawalEdit carrier edit withdrawn
  carriedRevisionStatus carrier edit.rootPostId (!withdrawal)
    (if withdrawal = true then .approved else initialStatus)

def localChainIds (carrier : Carrier τ) (rootLinkId previousLinkId : String) :
    Option (Post τ × Option String) := do
  let root ← (carrier.row? rootLinkId).or <| carrier.posts.find? fun row =>
    decide (row.rootPostId = row.postId ∧ row.linkEvent = some ⟨rootLinkId, true⟩)
  if previousLinkId = rootLinkId then some (root, some root.postId)
  else if carrier.has previousLinkId = true then some (root, some previousLinkId)
  else
    some (root,
      (carrier.posts.find? fun row =>
        decide (row.rootPostId = root.postId ∧ row.postId ≠ row.rootPostId ∧
          row.linkEvent.map (·.contentId) = some previousLinkId)).map (·.postId))

/-- `materialize_carried_post`; `admitted` is what the board's identity gate and posting rule say. -/
def materializeCarriedPost (carrier : Carrier τ) (post : BoardPost τ) (admitted : Bool)
    (initialStatus : PostStatus) : Carrier τ :=
  if carrier.has post.contentId = true then carrier
  else
    match carrier.boards.find? fun board => decide (board.boardId = post.boardId) with
    | none => carrier
    | some board =>
      if board.linkHidden = true then carrier
      else
        let kept := carrier.retain (.post post)
        if carrier.rejectedHere post.contentId = true ∨ admitted = false ∨ board.linkClosed = true then kept
        else
          kept.insertPost
            { postId := post.contentId
              boardId := board.id
              parentPostId := post.parentPostId.filter fun parent =>
                carrier.posts.any fun row => decide (row.postId = parent ∧ row.boardId = board.id)
              authorLabel := post.author.label
              subject := post.subject
              body := post.body
              createdAt := post.createdAt
              status := if board.moderated = true then .pending else initialStatus
              rootPostId := post.contentId }

def materializeCarriedPostEdit (carrier : Carrier τ) (edit : BoardPostRevision τ) (author : CarriedAuthor)
    (withdrawn : Bool) (initialStatus : PostStatus) : Carrier τ :=
  if carrier.has edit.contentId = true then carrier
  else
    match carrier.row? edit.rootPostId with
    | none =>
      if carrier.retained edit.rootPostId = true then
        carrier.retainOnly (.edit edit author withdrawn) edit.boardId
      else carrier
    | some root =>
      if carrier.boardIsHidden root.boardId = true then carrier
      else
        let status := editStatus carrier edit withdrawn initialStatus
        let projected := carrier.has edit.previousEventId
        if status.isSome = true ∧ projected = false ∧ carrier.retained edit.previousEventId = false then carrier
        else
          let kept := carrier.retain (.edit edit author withdrawn)
          match status with
          | none => kept
          | some status =>
            if projected = false ∨ carrier.rejectedHere edit.contentId = true then kept
            else
              kept.insertPost
                { postId := edit.contentId
                  boardId := root.boardId
                  parentPostId := root.parentPostId
                  authorLabel := author.label
                  subject := edit.subject
                  body := edit.body
                  createdAt := edit.createdAt
                  status
                  rootPostId := edit.rootPostId
                  editOfPostId := some edit.previousEventId
                  withdrawn := isWithdrawalEdit carrier edit withdrawn }

def moderatorRow (root : Post τ) (revision : BoardPostRevision τ) (previous : String) (status : PostStatus)
    (tombstonedAt : Option τ) : Post τ :=
  { postId := revision.contentId
    boardId := root.boardId
    parentPostId := root.parentPostId
    authorUserId := root.authorUserId
    authorLabel := root.authorLabel
    authorFingerprint := root.authorFingerprint
    subject := revision.subject
    body := revision.body
    createdAt := revision.createdAt
    status
    rootPostId := root.postId
    editOfPostId := some previous
    tombstonedAt }

def materializeCarriedBoardPostModeratorEdit (carrier : Carrier τ) (edit : BoardPostRevision τ) :
    Carrier τ :=
  if carrier.has edit.contentId = true then carrier
  else
    match localChainIds carrier edit.rootPostId edit.previousEventId with
    | none =>
      if carrier.retained edit.rootPostId = true then carrier.retainOnly (.moderatorEdit edit) edit.boardId
      else carrier
    | some (root, previous) =>
      if carrier.boardIsHidden root.boardId = true then carrier
      else
        -- The origin's own moderation, which this node's "Moderated" setting does not hold.
        let status := carriedRevisionStatus carrier root.postId false .approved
        let previous := previous.filter carrier.has
        if status.isSome = true ∧ previous = none ∧ carrier.retained edit.previousEventId = false then carrier
        else
          let kept := carrier.retain (.moderatorEdit edit)
          match status, previous with
          | some status, some previous => kept.insertPost (moderatorRow root edit previous status none)
          | _, _ => kept

def materializeCarriedBoardPostTombstone (carrier : Carrier τ) (tombstone : BoardPostRevision τ) :
    Carrier τ :=
  if carrier.has tombstone.contentId = true then carrier
  else
    match localChainIds carrier tombstone.rootPostId tombstone.previousEventId with
    | none =>
      if carrier.retained tombstone.rootPostId = true then
        carrier.retainOnly (.tombstone tombstone) tombstone.boardId
      else carrier
    | some (root, previous) =>
      if carrier.boardIsHidden root.boardId = true then carrier
      else
        match previous with
        | none =>
          if carrier.retained tombstone.previousEventId = true then
            carrier.retainOnly (.tombstone tombstone) tombstone.boardId
          else carrier
        | some previous =>
          (carrier.retain (.tombstone tombstone)).insertPost
            (moderatorRow root tombstone previous .approved (some tombstone.createdAt))

def Carrier.receive (carrier : Carrier τ) (event : CarriedEvent τ) (admitted : Bool)
    (initialStatus : PostStatus) : Carrier τ :=
  match event with
  | .post post => materializeCarriedPost carrier post admitted initialStatus
  | .edit edit author withdrawn => materializeCarriedPostEdit carrier edit author withdrawn initialStatus
  | .moderatorEdit edit => materializeCarriedBoardPostModeratorEdit carrier edit
  | .tombstone tombstone => materializeCarriedBoardPostTombstone carrier tombstone

end NetBBS.Boards
