import NetBBS.Link.Handlers.Common

/-! # Boards, posts and their revisions -/

namespace NetBBS

open Foundation

variable {env : Env}

def handleBoardGenesis (node : LinkNode env) (raw : Json) : Except PyError (Proposal env) :=
  handleGenesis "board_genesis" "board_id" node.boards .boardGenesis node raw

def handleBoardPost (node : LinkNode env) (sender : String) (raw : Json) :
    Except PyError (Proposal env) := do
  let post ← Filed.fromDict env raw
  if post.contentId ∈ node.knownEventIds then return .skip
  post.checkPayload
  let boardId := post.field "board_id"
  let _ ← requireGenesis node.boards boardId
    (missing ("received a board_post for board_id %r, which has no verified board_genesis on " ++
      "file -- refusing (no relay from a stranger yet)") [boardId])
  checkBoardPostContentSize post sender "board_post"
  let (home, record) ← requireVouchedAuthor node post "board_post"
  return .acceptSigned post "board_post" home record
    { text := "board_post from home node %s does not verify against its signing keys"
      values := [.str home] }
    .nothing

variable {what sender : String} {raw : Json} {node : LinkNode env} {proposal : Proposal env}

theorem handleBoardPost_spec (h : handleBoardPost node sender raw = .ok proposal) :
    ∃ event, Filed.fromDict env raw = .ok event ∧
      Judged node event False False (fun _ change => change = .nothing) proposal := by
  unfold handleBoardPost at h
  refine judged_of_parse h fun post hnew h => ?_
  simp only [bind_eq_ok, pure_eq_ok, Filed.checkPayload_eq_ok] at h
  obtain ⟨-, -, genesis, -, size, -, signer, hsigner, rfl⟩ := h
  exact .signed hnew (requireVouchedAuthor_spec hsigner) rfl

def checkRevisionChain (node : LinkNode env) (rootPostId : String) (event : Filed env)
    (tombstoned notHead : String) : Except PyError Bool := do
  let chain := node.boardEvents.editChain rootPostId
  if chain.any (fun existing => existing.contentId = event.contentId) then return true
  refuseIf (node.boardEvents.isTombstoned rootPostId = true)
    (protocolError tombstoned [.str rootPostId])
  let currentHead := (chain.getLast?.map Revision.contentId).getD rootPostId
  refuseIf ((event.field "previous_event_id").pyEq (.str currentHead) = false)
    (protocolError notHead [.str rootPostId, .str currentHead])
  return false

structure Extends (node : LinkNode env) (rootPostId : String) (event : Filed env) : Prop where
  new : ∀ existing ∈ node.boardEvents.editChain rootPostId, existing.contentId ≠ event.contentId
  notTombstoned : node.boardEvents.isTombstoned rootPostId = false
  head : event.field "previous_event_id" =
    chainHead Revision.name (.str rootPostId) (node.boardEvents.editChain rootPostId)

variable {permission rootPostId tombstoned : String} {event : Filed env} {boardId : Json}

theorem checkRevisionChain_spec {notHead : String} {already : Bool}
    (h : checkRevisionChain node rootPostId event tombstoned notHead = .ok already) :
    (already = true ∧ ∃ existing ∈ node.boardEvents.editChain rootPostId,
      existing.contentId = event.contentId) ∨
    (already = false ∧ Extends node rootPostId event) := by
  unfold checkRevisionChain at h
  simp only at h
  split at h
  · rename_i hin
    simp only [pure_eq_ok] at h
    exact .inl ⟨h.symm, by simpa using hin⟩
  · rename_i hout
    simp only [bind_eq_ok, refuseIf_eq_ok, pure_eq_ok, exists_const, Bool.not_eq_true,
      Bool.not_eq_false, Json.pyEq_right_str] at h
    obtain ⟨hopen, hhead, rfl⟩ := h
    refine .inr ⟨rfl, by simpa using hout, hopen, ?_⟩
    rw [hhead, chainHead_eq_getLast]
    cases (node.boardEvents.editChain rootPostId).getLast? <;> rfl

/-- `self.events` of a root post id, which must be hashable. -/
def requireRoot (node : LinkNode env) (rootPostId : Json) (what : String) :
    Except PyError (String × Json) := do
  let unknown := missing ("received a " ++ what ++ " for root post %r, which is unknown -- " ++
    "refusing (no relay from a stranger yet)") [rootPostId]
  let root ← orRefuse (← rootPostId.toStrKey) unknown
  let raw ← orRefuse (node.events.get? root) unknown
  pure (root, raw)

theorem requireRoot_eq_ok {rootPostId : Json} {found : String × Json} :
    requireRoot node rootPostId what = .ok found ↔
      rootPostId = .str found.1 ∧ node.events.get? found.1 = some found.2 := by
  simp only [requireRoot, bind_eq_ok, orRefuse_eq_ok, pure_eq_ok]
  constructor
  · rintro ⟨_, hkey, root, rfl, raw, hraw, rfl⟩
    exact ⟨(Json.toStrKey_eq_some _ _).mp hkey, hraw⟩
  · rintro ⟨hroot, hraw⟩
    exact ⟨some found.1, (Json.toStrKey_eq_some _ _).mpr hroot, found.1, rfl, found.2, hraw, rfl⟩

def handleBoardPostEdit (node : LinkNode env) (sender : String) (raw : Json) :
    Except PyError (Proposal env) := do
  let edit ← Filed.fromDict env raw
  if edit.contentId ∈ node.knownEventIds then return .skip
  edit.checkPayload
  let (root, rootRaw) ← requireRoot node (edit.field "root_post_id") "board_post_edit"
  let rootPost ← SignedEvent.fromDict rootRaw
  checkBoardPostContentSize edit sender "board_post_edit"
  let editAuthor := edit.field "author"
  let rootAuthor ← rootPost.get "author"
  refuseIf (editAuthor.pyEq rootAuthor = false)
    (protocolError ("board_post_edit for root post %r has an author that doesn't match the root " ++
      "post's own author -- a moderator edit must be sent as board_post_moderator_edit instead " ++
      "(design doc §9.5, issue #88)") [.str root])
  let home ← editAuthor.get "home_node_fingerprint"
  let signer ← node.requireIdentity home
    { text := "received a board_post_edit vouched for by %s, which has no completed hello with " ++
        "this node -- refusing (no relay from a stranger)"
      values := [home] }
  let already ← checkRevisionChain node root edit
    "root post %r has been tombstoned -- refusing a further board_post_edit"
    ("board_post_edit for root post %r does not extend the current head (%r) -- refusing " ++
      "(reordering isn't tolerated, a full resend recovers, same model as key_transition)")
  if already then return .heal edit.contentId
  return .acceptSigned edit "board_post_edit" signer.fingerprint signer.record
    { text := "board_post_edit from home node %s does not verify against its signing keys"
      values := [home] }
    (.revision root ⟨.boardPostEdit, edit⟩)

structure Revises (node : LinkNode env) (kind : RevisionKind) (event : Filed env)
    (root : String) (rootRaw : Json) : Prop where
  names : event.field "root_post_id" = .str root
  onFile : node.events.get? root = some rootRaw
  extends_chain : Extends node root event
  author : kind = .boardPostEdit → (event.field "author").pyEq (rawField rootRaw "author") = true
  board : kind ≠ .boardPostEdit → (rawField rootRaw "board_id").pyEq (event.field "board_id") = true

def JudgedRevision (node : LinkNode env) (kind : RevisionKind) (event : Filed env) :
    Proposal env → Prop :=
  Judged node event False
    (∃ root, event.field "root_post_id" = .str root ∧
      ∃ existing ∈ node.boardEvents.editChain root, existing.contentId = event.contentId)
    (fun _ change => ∃ root rootRaw, Revises node kind event root rootRaw ∧
      change = .revision root ⟨kind, event⟩)

theorem handleBoardPostEdit_spec (h : handleBoardPostEdit node sender raw = .ok proposal) :
    ∃ event, Filed.fromDict env raw = .ok event ∧
      JudgedRevision node .boardPostEdit event proposal := by
  unfold handleBoardPostEdit at h
  refine judged_of_parse h fun edit hnew h => ?_
  simp only [bind_eq_ok, refuseIf_eq_ok, exists_const, Filed.checkPayload_eq_ok,
    requireRoot_eq_ok, LinkNode.requireIdentity_eq_ok] at h
  obtain ⟨-, ⟨root, rootRaw⟩, ⟨hroot, hraw⟩, rootPost, hpost, size, -, rootAuthor, hauthor, hsame,
    home, -, signer, hsigner, already, hchain, h⟩ := h
  rcases checkRevisionChain_spec hchain with ⟨rfl, hin⟩ | ⟨rfl, hext⟩
  · simp only [if_true, pure_eq_ok] at h
    exact h ▸ .healed hnew ⟨root, hroot, hin⟩
  · simp only [Bool.false_eq_true, if_false, pure_eq_ok] at h
    exact h ▸ .signed hnew hsigner ⟨root, rootRaw, ⟨hroot, hraw, hext, fun _ => by
      rw [SignedEvent.get_eq_rawField hpost hauthor]
      simpa using hsame, by simp⟩, rfl⟩

def checkRootOnBoard (rootPostId : String) (rootRaw boardId : Json) (what : String) :
    Except PyError Unit := do
  let payload ← (← rootRaw.getItem "envelope").getItem "payload"
  let rootBoard ← payload.get "board_id"
  refuseIf (rootBoard.pyEq boardId = false)
    (protocolError "%s names board_id %r, but its root post %r is on %r"
      [.str what, boardId, .str rootPostId, rootBoard])

theorem checkRootOnBoard_spec {rootRaw : Json} {u : Unit}
    (h : checkRootOnBoard rootPostId rootRaw boardId what = .ok u) :
    (rawField rootRaw "board_id").pyEq boardId = true := by
  simp only [checkRootOnBoard, bind_eq_ok, refuseIf_eq_ok, Json.getItem_eq_ok, Json.get_eq_ok] at h
  obtain ⟨envelope, henv, payload, hpayload, rootBoard, ⟨-, hboard⟩, hsame⟩ := h
  simpa [rawField, henv, hpayload, hboard] using hsame

def moderatorRevisionSigner (node : LinkNode env) (event : Filed env) (boardId : Json)
    (currentOrigin permission what : String) : Except PyError (String × PeerRecord) := do
  let payload ← event.payload
  if payload.hasMember "moderator" then
    delegatedSigner node event "board" boardId currentOrigin permission what
  else
    let signer ← node.requireIdentity (.str currentOrigin)
      { text := "received a " ++ what ++ " for board_id %r whose current origin (%r) has no " ++
          "completed hello with this node -- refusing (no relay from a stranger)"
        values := [boardId, .str currentOrigin] }
    pure (signer.fingerprint, signer.record)

theorem moderatorRevisionSigner_spec {currentOrigin : String} {signer : String × PeerRecord}
    (h : moderatorRevisionSigner node event boardId currentOrigin permission what = .ok signer) :
    node.knownIdentity signer.1 = some signer.2 := by
  simp only [moderatorRevisionSigner, bind_eq_ok] at h
  obtain ⟨payload, -, h⟩ := h
  split at h
  · exact (delegatedSigner_spec h).2.2
  · simp only [bind_eq_ok, pure_eq_ok, LinkNode.requireIdentity_eq_ok] at h
    obtain ⟨identity, hknown, rfl⟩ := h
    exact hknown

def handleModeratorRevision (kind : RevisionKind) (what permission tombstoned : String)
    (checkSize : Filed env → Except PyError Unit) (node : LinkNode env) (raw : Json) :
    Except PyError (Proposal env) := do
  let revision ← Filed.fromDict env raw
  if revision.contentId ∈ node.knownEventIds then return .skip
  revision.checkPayload
  let (root, rootRaw) ← requireRoot node (revision.field "root_post_id") what
  let boardId := revision.field "board_id"
  let (boardKey, genesis) ← requireGenesis node.boards boardId
    (missing ("received a " ++ what ++ " for board_id %r, which has no verified board_genesis " ++
      "on file -- refusing (no relay from a stranger yet)") [boardId])
  checkRootOnBoard root rootRaw boardId what
  checkSize revision
  let already ← checkRevisionChain node root revision tombstoned
    (what ++ " for root post %r does not extend the current head (%r)")
  if already then return .heal revision.contentId
  let (signer, record) ← moderatorRevisionSigner node revision boardId
    (node.currentBoardOrigin boardKey genesis) permission what
  return .acceptSigned revision what signer record
    { text := "%s from current origin %s does not verify against its signing keys"
      values := [.str what, .str signer] }
    (.revision root ⟨kind, revision⟩)

theorem handleModeratorRevision_spec {kind : RevisionKind}
    {checkSize : Filed env → Except PyError Unit}
    (hkind : kind ≠ .boardPostEdit)
    (h : handleModeratorRevision kind what permission tombstoned checkSize node raw = .ok proposal) :
    ∃ event, Filed.fromDict env raw = .ok event ∧ JudgedRevision node kind event proposal := by
  unfold handleModeratorRevision at h
  refine judged_of_parse h fun revision hnew h => ?_
  simp only [bind_eq_ok, Filed.checkPayload_eq_ok, exists_const, requireRoot_eq_ok] at h
  obtain ⟨-, ⟨root, rootRaw⟩, ⟨hroot, hraw⟩, genesis, -, u, hboard, size, -, already, hchain, h⟩ := h
  rcases checkRevisionChain_spec hchain with ⟨rfl, hin⟩ | ⟨rfl, hext⟩
  · simp only [if_true, pure_eq_ok] at h
    exact h ▸ .healed hnew ⟨root, hroot, hin⟩
  · simp only [Bool.false_eq_true, if_false, bind_eq_ok, pure_eq_ok] at h
    obtain ⟨signer, hsigner, rfl⟩ := h
    exact .signed hnew (moderatorRevisionSigner_spec hsigner) ⟨root, rootRaw,
      ⟨hroot, hraw, hext, fun h => absurd h hkind, fun _ => checkRootOnBoard_spec hboard⟩, rfl⟩

def handleBoardPostModeratorEdit (node : LinkNode env) (sender : String) (raw : Json) :
    Except PyError (Proposal env) :=
  handleModeratorRevision .boardPostModeratorEdit "board_post_moderator_edit" "edit"
    "root post %r has been tombstoned -- refusing a further board_post_moderator_edit"
    (fun event => checkBoardPostContentSize event sender "board_post_moderator_edit") node raw

def handleBoardPostTombstone (node : LinkNode env) (raw : Json) :
    Except PyError (Proposal env) :=
  handleModeratorRevision .boardPostTombstone "board_post_tombstone" "delete"
    "root post %r is already tombstoned -- refusing a second board_post_tombstone"
    (fun _ => pure ()) node raw

def boardPostingModes : List String := ["anyone", "origin_threads", "origin_only"]

def handleBoardPosting (node : LinkNode env) (raw : Json) : Except PyError (Proposal env) := do
  let posting ← Filed.fromDict env raw
  if posting.contentId ∈ node.knownEventIds then return .skip
  posting.checkPayload
  let boardId := posting.field "board_id"
  let (boardKey, genesis) ← requireGenesis node.boards boardId
    (missing ("received a board_posting for board_id %r, which has no verified board_genesis " ++
      "on file -- refusing (no relay from a stranger yet)") [boardId])
  refuseIf (boardPostingModes.any (fun m => (posting.field "posting").pyEq (.str m)) = false)
    (protocolError "board_posting for board_id %r names an unknown posting mode" [boardId])
  let currentOrigin := node.currentBoardOrigin boardKey genesis
  -- A setting the origin before a transfer signed: nothing to apply, no reason to refuse.
  if (posting.field "origin_fingerprint").pyEq (.str currentOrigin) = false then return .skip
  let signer ← node.requireIdentity (.str currentOrigin)
    { text := "received a board_posting for board_id %r whose current origin (%r) has no " ++
        "completed hello with this node -- refusing (no relay from a stranger)"
      values := [boardId, .str currentOrigin] }
  return .acceptSigned posting "board_posting" signer.fingerprint signer.record
    { text := "board_posting from current origin %s does not verify against its signing keys"
      values := [.str currentOrigin] }
    .nothing

def FormerOriginPosting (node : LinkNode env) (event : Filed env) : Prop :=
  ∃ key genesis, (event.field "board_id").toKey = .ok key ∧ node.boards.get? key = some genesis ∧
    event.field "origin_fingerprint" ≠ .str (node.currentBoardOrigin key genesis)

theorem handleBoardPosting_spec (h : handleBoardPosting node raw = .ok proposal) :
    ∃ event, Filed.fromDict env raw = .ok event ∧
      Judged node event (FormerOriginPosting node event) False
        (fun _ change => change = .nothing ∧ ¬FormerOriginPosting node event) proposal := by
  unfold handleBoardPosting at h
  refine judged_of_parse h fun posting hnew h => ?_
  simp only [bind_eq_ok, refuseIf_eq_ok, exists_const, Filed.checkPayload_eq_ok, requireGenesis_eq_ok] at h
  obtain ⟨-, ⟨boardKey, genesis⟩, ⟨hkey, hgenesis⟩, -, h⟩ := h
  split at h
  · rename_i hformer
    simp only [pure_eq_ok] at h
    refine h ▸ .moot hnew ⟨boardKey, genesis, hkey, hgenesis, fun hsame => ?_⟩
    rw [(Json.pyEq_right_str _ _).mpr hsame] at hformer
    simp at hformer
  · rename_i hcurrent
    simp only [bind_eq_ok, pure_eq_ok, LinkNode.requireIdentity_eq_ok] at h
    obtain ⟨signer, hsigner, rfl⟩ := h
    refine .signed hnew hsigner ⟨rfl, ?_⟩
    rintro ⟨key, genesis', hkey', hgenesis', hformer⟩
    simp only [hkey, Except.ok.injEq] at hkey'
    subst hkey'
    simp only [hgenesis, Option.some.injEq] at hgenesis'
    subst hgenesis'
    simp only [Bool.not_eq_false, Json.pyEq_right_str] at hcurrent
    exact hformer hcurrent

def handleBoardPollVote (node : LinkNode env) (sender : String) (raw : Json) :
    Except PyError (Proposal env) := do
  let vote ← Filed.fromDict env raw
  if vote.contentId ∈ node.knownEventIds then return .skip
  vote.checkPayload
  let boardId := vote.field "board_id"
  let _ ← requireGenesis node.boards boardId
    (missing ("received a board_poll_vote for board_id %r, which has no verified board_genesis " ++
      "on file -- refusing (no relay from a stranger yet)") [boardId])
  checkBoardPollVoteShape env vote sender
  let author := vote.field "author"
  refuseIf ((author.at "kind").pyEq (.str "node_vouched_user") = false)
    (protocolError "board_poll_vote author kind is not node_vouched_user -- refusing" [])
  refuseIf ((author.at "local_user_id").str?.any (· ≠ "") = false)
    (protocolError "board_poll_vote names no voter -- refusing" [])
  let home := author.at "home_node_fingerprint"
  let signer ← node.requireIdentity home
    { text := "received a board_poll_vote vouched for by %s, which has no completed hello with " ++
        "this node -- refusing (no relay from a stranger)"
      values := [home] }
  return .acceptSigned vote "board_poll_vote" signer.fingerprint signer.record
    { text := "board_poll_vote from home node %s does not verify against its signing keys"
      values := [home] }
    .nothing

theorem handleBoardPollVote_spec (h : handleBoardPollVote node sender raw = .ok proposal) :
    ∃ event, Filed.fromDict env raw = .ok event ∧
      Judged node event False False (fun _ change => change = .nothing) proposal := by
  unfold handleBoardPollVote at h
  refine judged_of_parse h fun vote hnew h => ?_
  simp only [bind_eq_ok, pure_eq_ok, refuseIf_eq_ok, exists_const, Filed.checkPayload_eq_ok,
    LinkNode.requireIdentity_eq_ok] at h
  obtain ⟨-, genesis, -, shape, -, -, -, signer, hsigner, rfl⟩ := h
  exact .signed hnew hsigner rfl

end NetBBS
